import UefiKernel.Console.Printf

/-!
# UefiKernel.Console.Lexer

The format language, one byte at a time.

The formatter reads several bytes in one turn of its loop and keeps a state
that says little about where in a directive it is.  `Lex` is where it is:
`next` is the automaton of the directives, `converts` says that a byte makes a
directive fetch an argument, `emits` what any other byte makes it print.  Two
of the six states (`opened`, `zeroed`) are met inside a turn only; there a NUL
does not end the text but counts as a bogus conversion character.
-/

namespace UefiKernel.Console

/-! ## the automaton -/

/-- Where in the text the formatter is. -/
inductive Lex
  /-- outside a directive -/
  | text
  /-- right after the `%` of a directive -/
  | opened
  /-- after a `-` flag -/
  | flags
  /-- right after the `0` flag -/
  | zeroed
  /-- after a digit of the width -/
  | width
  /-- after a modifier -/
  | modifier
  deriving DecidableEq, Repr

def isDigit (ch : UInt8) : Bool := '0'.toUInt8 ≤ ch ∧ ch ≤ '9'.toUInt8

def isModifier (ch : UInt8) : Bool :=
  ch = 'z'.toUInt8 ∨ ch = 't'.toUInt8 ∨ ch = 'l'.toUInt8 ∨ ch = 'L'.toUInt8 ∨ ch = 'h'.toUInt8

namespace Lex

/-- A byte where a modifier or a conversion character may stand. -/
def inModifier (ch : UInt8) : Lex := if isModifier ch then modifier else text

/-- A byte where a digit of the width may stand, too. -/
def inWidth (ch : UInt8) : Lex := if isDigit ch then width else inModifier ch

/-- A byte where a flag may stand, too. -/
def inFlags (ch : UInt8) : Lex :=
  if ch = '%'.toUInt8 then text
  else if ch = '-'.toUInt8 then flags
  else if ch = '0'.toUInt8 then zeroed
  else inWidth ch

def next : Lex → UInt8 → Lex
  | text, ch => if ch = '%'.toUInt8 then opened else text
  | opened, ch => inFlags ch
  | flags, ch => inFlags ch
  | zeroed, ch => inWidth ch
  | width, ch => inWidth ch
  | modifier, ch => inModifier ch

/-- The byte is the conversion character of a directive. -/
def converts (q : Lex) (ch : UInt8) : Bool := q ≠ text ∧ (Conversion.ofChar ch).isSome

/-- What is printed at a byte that converts nothing. -/
def emits (q : Lex) (ch : UInt8) : List UInt8 :=
  if q.next ch = text then [ch] else []

/-- In the middle of a turn of the loop, where a NUL is not looked for. -/
def inside : Lex → Bool
  | opened | zeroed => true
  | text | flags | width | modifier => false

/-- The text ends at this byte. -/
def ends (q : Lex) (ch : UInt8) : Bool := ch = 0 ∧ ¬ q.inside

/-- The state the formatter is in between two turns. -/
def top : Lex → Option PrState
  | text => some .percent
  | flags => some .flags
  | width => some .width
  | modifier => some .modifier
  | opened | zeroed => none

/-- The conversion characters. -/
theorem mem_of_ofChar {ch : UInt8} {conversion : Conversion}
    (h : Conversion.ofChar ch = some conversion) : ch ∈ bytes "pxXdiuocs" := by
  by_cases hch : ch ∈ bytes "pxXdiuocs"
  · exact hch
  · simp only [bytes, String.reduceToList, List.map_cons, List.map_nil, List.mem_cons,
      List.not_mem_nil, or_false, not_or] at hch
    simp [Conversion.ofChar, hch] at h

/-- A byte that converts ends its directive. -/
theorem next_eq_text {q : Lex} {ch : UInt8} (h : q.converts ch) : q.next ch = text := by
  have hnext : ∀ ch ∈ bytes "pxXdiuocs", q.next ch = text := by
    cases q <;> exact forall_mem_bytes (by decide)
  obtain ⟨-, hsome⟩ : q ≠ text ∧ (Conversion.ofChar ch).isSome := by simpa [converts] using h
  obtain ⟨conversion, hconv⟩ := Option.isSome_iff_exists.mp hsome
  exact hnext ch (mem_of_ofChar hconv)

theorem converts_eq_false {q : Lex} {ch : UInt8} (h : q.next ch ≠ text) : q.converts ch = false :=
  Bool.eq_false_iff.mpr fun hc => h (next_eq_text hc)

/-- The byte after this one may be read together with it. -/
def looksAhead (ch : UInt8) : Bool := ch = 'l'.toUInt8 ∨ ch = 'h'.toUInt8

end Lex

/-- The automaton after a text. -/
def scan (s : List UInt8) : Lex := s.foldl Lex.next .text

/-- The string ends right after the `%` of a directive or right after its `0`
flag. -/
def EndsOpen (s : List UInt8) : Prop := (scan s).inside

instance (s : List UInt8) : Decidable (EndsOpen s) := inferInstanceAs (Decidable (_ = true))

example : EndsOpen (bytes "100%") := by decide
example : EndsOpen (bytes "%d: %-0") := by decide
example : ¬ EndsOpen (bytes "100%%, %-5") := by decide

/-! ## a text in memory -/

/-- The automaton in front of byte `i` of an endless text. -/
def lexAt (b : Nat → UInt8) : Nat → Lex
  | 0 => .text
  | i + 1 => (lexAt b i).next (b i)

/-- The text has not ended in front of byte `i`. -/
def Alive (b : Nat → UInt8) (i : Nat) : Prop := ∀ j < i, ¬ (lexAt b j).ends (b j)

theorem alive_zero (b : Nat → UInt8) : Alive b 0 := fun j hj => absurd hj (Nat.not_lt_zero j)

theorem Alive.succ {b : Nat → UInt8} {i : Nat} (h : Alive b i)
    (hi : ¬ (lexAt b i).ends (b i)) : Alive b (i + 1) := by
  intro j hj
  rcases Nat.lt_succ_iff_lt_or_eq.mp hj with hlt | rfl
  · exact h j hlt
  · exact hi

/-- The format ends at a NUL outside a directive. -/
theorem ends_iff {q : Lex} {ch : UInt8} : q.ends ch = true ↔ ch = 0 ∧ q.inside = false := by
  simp [Lex.ends]

theorem not_ends_of_ne_zero (q : Lex) {ch : UInt8} (h : ch ≠ 0) : ¬ q.ends ch :=
  fun he => h (ends_iff.mp he).1

theorem not_ends_of_inside {q : Lex} (h : q.inside) (ch : UInt8) : ¬ q.ends ch := by
  intro he
  rw [(ends_iff.mp he).2] at h
  exact Bool.false_ne_true h

/-- The automaton along a text depends on the bytes in front. -/
theorem lexAt_congr {b b' : Nat → UInt8} {i : Nat} (h : ∀ j < i, b j = b' j) :
    lexAt b i = lexAt b' i := by
  induction i with
  | zero => rfl
  | succ i ih => rw [lexAt, lexAt, ih fun j hj => h j (by omega), h i (by omega)]

/-- What is printed in front of byte `i`, if nothing is converted. -/
def emitted (b : Nat → UInt8) : Nat → List UInt8
  | 0 => []
  | i + 1 => emitted b i ++ (lexAt b i).emits (b i)

/-- Only what is in front matters. -/
theorem emitted_congr {b b' : Nat → UInt8} {i : Nat} (h : ∀ j < i, b j = b' j) :
    emitted b i = emitted b' i := by
  induction i with
  | zero => rfl
  | succ i ih =>
      have hlex : lexAt b i = lexAt b' i := lexAt_congr fun j hj => h j (by omega)
      rw [emitted, emitted, ih fun j hj => h j (by omega), hlex, h i (by omega)]

/-- A byte of the format prints one byte at most. -/
theorem emits_length_le (q : Lex) (ch : UInt8) : (q.emits ch).length ≤ 1 := by
  unfold Lex.emits
  split
  · exact Nat.le_refl 1
  · exact Nat.zero_le 1

/-- What is in front of a byte begins with what is in front of an earlier one. -/
theorem emitted_prefix (b : Nat → UInt8) {i j : Nat} (h : i ≤ j) : emitted b i <+: emitted b j := by
  induction h with
  | refl => exact List.prefix_refl _
  | step _ ih => exact ih.trans (List.prefix_append _ _)

theorem emitted_length_le (b : Nat → UInt8) (i : Nat) : (emitted b i).length ≤ i := by
  induction i with
  | zero => exact Nat.le_refl 0
  | succ i ih =>
      rw [emitted, List.length_append]
      exact Nat.add_le_add ih (emits_length_le _ _)

/-- A byte that prints nothing is missing for good. -/
theorem emitted_length_lt {b : Nat → UInt8} {i j : Nat} (hj : j < i)
    (h : (lexAt b j).emits (b j) = []) : (emitted b i).length < i := by
  induction i with
  | zero => exact absurd hj (Nat.not_lt_zero j)
  | succ i ih =>
      rw [emitted, List.length_append]
      rcases Nat.lt_succ_iff_lt_or_eq.mp hj with hlt | rfl
      · have hle := emits_length_le (lexAt b i) (b i)
        have hlt' := ih hlt
        omega
      · have hle := emitted_length_le b j
        rw [h, List.length_nil]
        omega

/-- What a byte prints is in front of every later one. -/
theorem mem_emitted {b : Nat → UInt8} {i j : Nat} {ch : UInt8} (hj : j < i)
    (h : ch ∈ (lexAt b j).emits (b j)) : ch ∈ emitted b i := by
  induction i with
  | zero => exact absurd hj (Nat.not_lt_zero j)
  | succ i ih =>
      rw [emitted, List.mem_append]
      rcases Nat.lt_succ_iff_lt_or_eq.mp hj with hlt | rfl
      · exact .inl (ih hlt)
      · exact .inr h

/-! ## strings -/

/-- A text without `%` is no directive. -/
theorem scan_of_not_mem {s : List UInt8} (h : '%'.toUInt8 ∉ s) : scan s = .text := by
  unfold scan
  induction s with
  | nil => rfl
  | cons ch s ih =>
      have hch : ch ≠ '%'.toUInt8 := fun he => h (he ▸ List.mem_cons_self)
      rw [List.foldl_cons, Lex.next, if_neg hch]
      exact ih fun hmem => h (List.mem_cons_of_mem _ hmem)

/-- A string and the NUL behind it. -/
def byteAt (s : List UInt8) (i : Nat) : UInt8 := s.getD i 0

theorem byteAt_lt {s : List UInt8} {i : Nat} (h : i < s.length) : byteAt s i = s[i] := by
  simp [byteAt, h]

theorem byteAt_length (s : List UInt8) : byteAt s s.length = 0 := by
  simp [byteAt]

/-- The state at a byte is what the bytes in front of it come to. -/
theorem lexAt_byteAt {s : List UInt8} {i : Nat} (h : i ≤ s.length) :
    lexAt (byteAt s) i = scan (s.take i) := by
  induction i with
  | zero => rfl
  | succ i ih =>
      rw [lexAt, ih (by omega), byteAt_lt (by omega), List.take_succ_eq_append_getElem (by omega)]
      simp only [scan, List.foldl_append, List.foldl_cons, List.foldl_nil]

theorem lexAt_length (s : List UInt8) : lexAt (byteAt s) s.length = scan s := by
  rw [lexAt_byteAt (Nat.le_refl _), List.take_length]

/-- A string with no NUL of its own does not end in front of its NUL. -/
theorem length_le_of_ends {s : List UInt8} (hs : 0 ∉ s) {i : Nat}
    (h : (lexAt (byteAt s) i).ends (byteAt s i)) : s.length ≤ i := by
  rcases Nat.lt_or_ge i s.length with hlt | hge
  · have h0 : s[i] = 0 := (byteAt_lt hlt).symm.trans (ends_iff.mp h).1
    exact absurd (h0 ▸ List.getElem_mem hlt) hs
  · exact hge

/-- A string ends at its NUL unless it ends open. -/
theorem ends_length {s : List UInt8} (hopen : ¬ EndsOpen s) :
    (lexAt (byteAt s) s.length).ends (byteAt s s.length) := by
  rw [lexAt_length, byteAt_length]
  exact ends_iff.mpr ⟨rfl, Bool.eq_false_iff.mpr hopen⟩

/-- In front of its end a string has a next byte. -/
theorem succ_le_of_not_ends {s : List UInt8} (hopen : ¬ EndsOpen s) {i : Nat} (hi : i ≤ s.length)
    (h : ¬ (lexAt (byteAt s) i).ends (byteAt s i)) : i + 1 ≤ s.length := by
  rcases Nat.lt_or_ge i s.length with hlt | hge
  · exact hlt
  · obtain rfl : i = s.length := Nat.le_antisymm hi hge
    exact absurd (ends_length hopen) h

end UefiKernel.Console
