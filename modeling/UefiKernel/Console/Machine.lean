import UefiKernel.Console.Turns

/-!
# UefiKernel.Console.Machine

Worlds for the formatter.

`Machine` is the one the results about the console are about: a memory, what
`va_arg` finds where no argument was passed, and the bytes printed.  It is
deterministic and what it has printed only grows.  A read that it does not answer is
where its run stops; what the kernel's exception handlers make of one is in
`UefiKernel.Console.Faults`.  The rest of the module provides conversions: for every
run, in a world that allows what is not a read of the format (`wp_convertAndEmit`),
and for some run, on a machine on which the argument's text is there
(`Machine.emits`).
-/

namespace UefiKernel.Console

open Interact Prog

/-! ## the format pointer -/

/-- The format pointer at byte `i` of the text at `a`. -/
def fmtAt (a : UInt64) (i : Nat) : CharPtr := .mem (a + UInt64.ofNat i)

theorem fmtAt_zero (a : UInt64) : fmtAt a 0 = .mem a := by
  simp [fmtAt]

theorem fmtAt_next (a : UInt64) (i : Nat) : (fmtAt a i).next = fmtAt a (i + 1) := by
  rw [fmtAt, fmtAt, CharPtr.next, UInt64.ofNat_add, UInt64.add_assoc]
  rfl

/-! ## the machine -/

/-- What each address holds, where one is mapped, and what `va_arg` finds beyond
the arguments passed.  There are no faults: at any other address it has no answer. -/
structure Machine where
  mem : UInt64 → Option UInt8
  junk : Nat → UInt64

/-- How many arguments were fetched that nobody passed, and what was printed. -/
structure Trace where
  fetched : Nat := 0
  out : List UInt8 := []
  deriving DecidableEq, Repr

def Trace.print (g : Trace) (text : List UInt8) : Trace := { g with out := g.out ++ text }

/-- A read of an unmapped address goes no further. -/
def Machine.env (m : Machine) : Trace → (e : PrintEvent) → e.Answer → Trace → Prop
  | g, .load _ p, ch, g' => m.mem p = some ch ∧ g' = g
  | g, .vaArg, arg, g' => arg = m.junk g.fetched ∧ g' = { g with fetched := g.fetched + 1 }
  | g, .fn ch, _, g' => g' = g.print [ch]

@[simp] theorem Trace.print_out (g : Trace) (text : List UInt8) :
    (g.print text).out = g.out ++ text := rfl

theorem Trace.print_nil (g : Trace) : g.print [] = g := by
  simp [Trace.print]

/-- Texts printed one after the other are one text. -/
theorem Trace.print_print (g : Trace) (text text' : List UInt8) :
    (g.print text).print text' = g.print (text ++ text') := by
  simp [Trace.print]

/-- The variables after a text was printed. -/
def Vars.printed (v : Vars) (text : List UInt8) : Vars :=
  { v with count := v.count + UInt64.ofNat text.length }

theorem Vars.printed_nil (v : Vars) : v.printed [] = v := by
  simp [Vars.printed]

/-- So they are to the count. -/
theorem Vars.printed_printed (v : Vars) (text text' : List UInt8) :
    (v.printed text).printed text' = v.printed (text ++ text') := by
  simp [Vars.printed, UInt64.ofNat_add, UInt64.add_assoc]

namespace Machine

variable (m : Machine)

/-- An event has one answer. -/
theorem deterministic : Deterministic m.env := by
  intro g e r₁ g₁ r₂ g₂ h₁ h₂
  cases e with
  | load via p =>
      obtain ⟨hr₁, rfl⟩ := h₁
      obtain ⟨hr₂, rfl⟩ := h₂
      exact ⟨Option.some.inj (hr₁.symm.trans hr₂), rfl⟩
  | vaArg =>
      obtain ⟨rfl, rfl⟩ := h₁
      obtain ⟨rfl, rfl⟩ := h₂
      exact ⟨rfl, rfl⟩
  | fn ch =>
      exact ⟨rfl, h₁.trans h₂.symm⟩

/-- What is printed stays printed. -/
theorem out_prefix {α : Type} {g g' : Trace} {p p' : PrintM α} (h : Run m.env (g, p) (g', p')) :
    g.out <+: g'.out := by
  refine Run.rel (R := fun g g' : Trace => g.out <+: g'.out) (fun g => List.prefix_refl g.out)
    (fun h₁ h₂ => h₁.trans h₂) ?_ h
  intro g e r g' he
  cases e with
  | load via p => exact (congrArg Trace.out he.2).symm ▸ List.prefix_refl g.out
  | vaArg => exact (congrArg Trace.out he.2).symm ▸ List.prefix_refl g.out
  | fn ch => exact ⟨[ch], (congrArg Trace.out he).symm⟩

/-- So on the way to a last state no more was printed than there. -/
theorem leads_prefix {g last : Trace} (h : Leads m.env g last) :
    g.out <+: last.out ∧ g.fetched ≤ last.fetched := by
  induction h using Relation.ReflTransGen.head_induction_on with
  | refl => exact ⟨List.prefix_refl _, Nat.le_refl _⟩
  | head hstep _ ih =>
      obtain ⟨e, r, he⟩ := hstep
      cases e with
      | load via p =>
          obtain ⟨-, rfl⟩ := he
          exact ih
      | vaArg =>
          obtain ⟨-, rfl⟩ := he
          exact ⟨ih.1, Nat.le_of_succ_le ih.2⟩
      | fn ch =>
          obtain rfl := he
          exact ⟨(List.prefix_append _ _).trans ih.1, ih.2⟩

/-- Two runs from one place print texts of which one continues the other. -/
theorem out_comparable {α : Type} {c : Trace × PrintM α} {g₁ g₂ : Trace} {p₁ p₂ : PrintM α}
    (h₁ : Run m.env c (g₁, p₁)) (h₂ : Run m.env c (g₂, p₂)) :
    g₁.out <+: g₂.out ∨ g₂.out <+: g₁.out :=
  (h₁.total m.deterministic h₂).imp m.out_prefix m.out_prefix

/-! ## texts in memory -/

/-- The byte `p` points to. -/
def At : CharPtr → UInt8 → Prop
  | .mem p, ch => m.mem p = some ch
  | .lit text, ch => text.headD 0 = ch

/-- The text from `p` up to its NUL. -/
inductive HasText : CharPtr → List UInt8 → Prop
  | nil {p : CharPtr} (h : m.At p 0) : HasText p []
  | cons {p : CharPtr} {ch : UInt8} {text : List UInt8} (h : m.At p ch) (hch : ch ≠ 0)
      (ht : HasText p.next text) : HasText p (ch :: text)

/-- A text in memory, byte by byte. -/
theorem HasText.byte {m : Machine} {s : List UInt8} {a : UInt64}
    (h : m.HasText (.mem a) s) {i : Nat} (hi : i ≤ s.length) :
    m.At (fmtAt a i) (byteAt s i) := by
  show m.mem (a + UInt64.ofNat i) = some (byteAt s i)
  generalize hp : CharPtr.mem a = p at h
  induction h generalizing a i with
  | nil h0 =>
      subst hp
      obtain rfl : i = 0 := Nat.le_zero.mp hi
      have hmem : m.mem a = some 0 := h0
      simpa [byteAt] using hmem
  | @cons p ch text hch hne _ ih =>
      subst hp
      cases i with
      | zero =>
          have hmem : m.mem a = some ch := hch
          simpa [byteAt] using hmem
      | succ i =>
          have hnext : m.mem (a + 1 + UInt64.ofNat i) = some (byteAt text i) :=
            ih (by simpa using hi) rfl
          have haddr : a + UInt64.ofNat (i + 1) = a + 1 + UInt64.ofNat i := by
            rw [Nat.add_comm, UInt64.ofNat_add, UInt64.add_assoc]
            rfl
          rw [haddr, hnext]
          simp [byteAt]

/-- The NUL is not one of a string's bytes. -/
theorem HasText.not_mem {m : Machine} {p : CharPtr} {s : List UInt8} (h : m.HasText p s) :
    0 ∉ s := by
  induction h with
  | nil => exact List.not_mem_nil
  | cons _ hch _ ih =>
      intro hmem
      rcases List.mem_cons.mp hmem with h0 | hmem
      · exact hch h0.symm
      · exact ih hmem

/-- A literal is a string, up to its first NUL. -/
theorem exists_hasText_lit (m : Machine) (text : List UInt8) :
    ∃ t, m.HasText (.lit text) t := by
  induction text with
  | nil => exact ⟨[], .nil rfl⟩
  | cons ch text ih =>
      obtain ⟨t, ht⟩ := ih
      by_cases hch : ch = 0
      · exact ⟨[], .nil hch⟩
      · exact ⟨ch :: t, .cons rfl hch ht⟩

/-- The text from `a` on, with NULs where nothing is mapped. -/
def textAt (a : UInt64) (i : Nat) : UInt8 :=
  (m.mem (a + UInt64.ofNat i)).getD 0

/-- Where the format is mapped, its bytes are those of memory. -/
theorem textAt_eq {m : Machine} {a : UInt64} {i : Nat} {ch : UInt8}
    (h : m.mem (a + UInt64.ofNat i) = some ch) : ch = m.textAt a i := by
  rw [textAt, h]
  rfl

/-- What a conversion prints has an end if the strings have. -/
theorem exists_hasText_of_convert {flags : Flags} {arg : UInt64} {args : List UInt64}
    {conversion : Conversion} {conv : Converted}
    (hconv : convert flags (arg :: args) conversion = pure conv)
    (harg : arg = 0 ∨ ∃ text, m.HasText (.mem arg) text) : ∃ text, m.HasText conv.str text := by
  by_cases hs : conversion = .s
  · subst hs
    by_cases h0 : arg = 0
    · rw [← ret.inj ((if_pos h0).symm.trans hconv)]
      exact exists_hasText_lit m _
    · rw [← ret.inj ((if_neg h0).symm.trans hconv)]
      exact harg.resolve_left h0
  · obtain ⟨text, hstr⟩ := convert_lit hs hconv
    rw [hstr]
    exact exists_hasText_lit m text

/-- The pointers a `%s` can come upon lead to strings. -/
def StringArgs (m : Machine) (args : List UInt64) : Prop :=
  ∀ p, p ∈ args ∨ (∃ n, m.junk n = p) → p = 0 ∨ ∃ text, m.HasText (.mem p) text

variable {m}

/-! ## printing -/

/-- A read of what is mapped. -/
theorem run_deref {p : CharPtr} {ch : UInt8} (h : m.At p ch) (via : Via) (g : Trace) :
    Run m.env (g, p.deref via) (g, ret ch) := by
  cases p with
  | mem p =>
      have he : m.env g (.load via p) ch g := ⟨h, rfl⟩
      exact .req he
  | lit text =>
      have hch : text.headD 0 = ch := h
      rw [← hch]
      exact .refl

theorem run_fn (ch : UInt8) (g : Trace) : Run m.env (g, fn ch) (g.print [ch], ret ()) := by
  have he : m.env g (.fn ch) () (g.print [ch]) := rfl
  exact .req he

/-- `strlen` finds the NUL. -/
theorem run_strlen {str : CharPtr} {text : List UInt8} (h : m.HasText str text) (g : Trace) :
    Run m.env (g, strlen str) (g, ret (UInt64.ofNat text.length)) := by
  unfold strlen
  rw [← UInt64.zero_add (UInt64.ofNat text.length)]
  generalize (0 : UInt64) = n
  induction h generalizing n with
  | nil h0 =>
      have hn : n + UInt64.ofNat 0 = n := UInt64.add_zero n
      rw [List.length_nil, hn]
      exact Run.leave ((run_deref h0 .string g).seq .refl) .refl
  | @cons str ch text hch hne _ ih =>
      have hrest := ih (n + 1)
      have hn : n + 1 + UInt64.ofNat text.length = n + UInt64.ofNat (text.length + 1) := by
        rw [Nat.add_comm, UInt64.ofNat_add, UInt64.add_assoc]
        rfl
      rw [hn] at hrest
      refine Run.again ((run_deref hch .string g).seq ?_) hrest
      rw [if_pos hne]
      exact .refl

/-- From `v`, whatever was printed before, `p` prints a text and leaves `v'`. -/
def Prints (m : Machine) (p : Vars → PrintM Vars) (v v' : Vars) (text : List UInt8) : Prop :=
  ∀ (g : Trace) (before : List UInt8),
    Run m.env (g.print before, p (v.printed before))
      (g.print (before ++ text), ret (v'.printed (before ++ text)))

namespace Prints

variable {p q : Vars → PrintM Vars} {v v₁ v₂ : Vars} {text text₁ text₂ : List UInt8}

theorem run (h : m.Prints p v v₁ text) (g : Trace) :
    Run m.env (g, p v) (g.print text, ret (v₁.printed text)) := by
  have hr := h g []
  rwa [Trace.print_nil, Vars.printed_nil] at hr

/-- A step that prints nothing. -/
theorem nil (hp : ∀ before, p (v.printed before) = pure (v₁.printed before)) :
    m.Prints p v v₁ [] := by
  intro g before
  rw [hp, List.append_nil]
  exact .refl

/-- The rule of composition: texts are joined. -/
theorem seq (h₁ : m.Prints p v v₁ text₁) (h₂ : m.Prints q v₁ v₂ text₂) :
    m.Prints (fun v => p v >>= q) v v₂ (text₁ ++ text₂) := by
  intro g before
  have hq := h₂ g (before ++ text₁)
  rw [List.append_assoc] at hq
  exact (h₁ g before).seq hq

theorem put (ch : UInt8) (v : Vars) : m.Prints (fun v => v.put ch) v v [ch] := by
  intro g before
  rw [← Trace.print_print, ← Vars.printed_printed]
  exact (run_fn ch (g.print before)).seq .refl

/-- The loops that pad. -/
theorem putMany (ch : UInt8) (n : Nat) (v : Vars) :
    m.Prints (Vars.putMany ch n) v v (List.replicate n ch) := by
  induction n with
  | zero => exact nil fun _ => rfl
  | succ n ih => exact (put ch v).seq ih

/-- The loop over the converted string. -/
theorem putString {str : CharPtr} (h : m.HasText str text) (v : Vars) :
    m.Prints (Console.putString str) v v text := by
  intro g before
  unfold Console.putString
  induction h generalizing before with
  | nil h0 =>
      rw [List.append_nil]
      exact Run.leave ((run_deref h0 .string _).seq .refl) .refl
  | @cons str ch text hch hne _ ih =>
      have hrest := ih (before ++ [ch])
      rw [List.append_assoc] at hrest
      refine Run.again ((run_deref hch .string _).seq ?_) hrest
      rw [if_pos hne]
      exact (put ch v g before).seq .refl

end Prints

variable {target : Trace → PrintEvent → Prop}

/-- The same programs, on the way to an event that is looked for. -/
theorem reaches_deref {p : CharPtr} {ch : UInt8} (h : m.At p ch) (via : Via)
    {Q : UInt8 → Trace → Prop} {g : Trace} (hQ : Q ch g) :
    Reaches m.env target (p.deref via) Q g :=
  Reaches.of_run (run_deref h via g) (reaches_ret hQ)

theorem reaches_fn (ch : UInt8) {Q : Unit → Trace → Prop} {g : Trace} (hQ : Q () (g.print [ch])) :
    Reaches m.env target (fn ch) Q g :=
  Reaches.of_run (run_fn ch g) (reaches_ret hQ)

theorem reaches_strlen {str : CharPtr} {text : List UInt8} (h : m.HasText str text)
    {Q : UInt64 → Trace → Prop} {g : Trace} (hQ : ∀ n, Q n g) :
    Reaches m.env target (strlen str) Q g :=
  Reaches.of_run (run_strlen h g) (reaches_ret (hQ _))

/-- The whole string is printed on the way. -/
theorem reaches_putString {str : CharPtr} {text : List UInt8} (h : m.HasText str text) (v : Vars)
    {g : Trace} :
    Reaches m.env target (putString str v) (Keeps (fun g' => g' = g.print text) v) g :=
  Reaches.of_run ((Prints.putString h v).run g) (reaches_ret ⟨rfl, rfl, rfl⟩)

/-- A text that is there can be printed. -/
theorem emits {str : CharPtr} {text : List UInt8} (h : m.HasText str text)
    {Before After : Trace → Prop} (hleft : ∀ ch ∈ padding, ∀ g, Before g → Before (g.print [ch]))
    (htext : ∀ g, Before g → After (g.print text))
    (hright : ∀ g, After g → After (g.print [' '.toUInt8])) :
    Emits (reachCalculus m.env target) str Before After where
  padLeft ch hch g hg := reaches_fn ch (hleft ch hch g hg)
  strlen _ hg := reaches_strlen h fun _ => hg
  text v _ hg := (reaches_putString h v).mono fun _ _ hk =>
    ⟨hk.1, hk.2.1, hk.2.2.symm ▸ htext _ hg⟩
  padRight _ hg := reaches_fn _ (hright _ hg)

/-- What is fetched was passed, or is what the machine has there. -/
theorem reaches_vaArg (args : List UInt64) {Q : UInt64 × List UInt64 → Trace → Prop} {g : Trace}
    (hQ : ∀ arg g', arg ∈ args ∨ (∃ n, m.junk n = arg) → Q (arg, args.tail) g') :
    Reaches m.env target (vaArg args) Q g := by
  cases args with
  | nil =>
      have he : m.env g .vaArg (m.junk g.fetched) { g with fetched := g.fetched + 1 } := ⟨rfl, rfl⟩
      exact reaches_call he (reaches_ret (hQ _ _ (.inr ⟨_, rfl⟩)))
  | cons arg args => exact reaches_ret (hQ arg g (.inl List.mem_cons_self))

/-- Conversions come to an end if the strings they print do. -/
theorem reaches_convertAndEmit {v : Vars} (hargs : m.StringArgs v.args) (conversion : Conversion)
    {g : Trace} :
    Reaches m.env target (convertAndEmit v conversion)
      (fun v' _ => v'.fmt = v.fmt ∧ v'.args = v.args.tail) g := by
  have hva : (reachCalculus m.env target).holds (vaArg v.args) (fun r _ => r.2 = v.args.tail ∧
      True ∧ ∀ conv, convert v.flags (r.1 :: r.2) conversion = pure conv →
        Emits (reachCalculus m.env target) conv.str (fun _ => True) fun _ => True) g := by
    refine reaches_vaArg v.args fun arg g' harg => ⟨rfl, trivial, fun conv hconv => ?_⟩
    obtain ⟨text, htext⟩ := exists_hasText_of_convert m hconv (hargs arg harg)
    exact emits htext (fun _ _ _ _ => trivial) (fun _ _ => trivial) fun _ _ => trivial
  exact (convertAndEmit_keeps hva).mono fun _ _ h => ⟨h.1, h.2.1⟩

end Machine

/-! ## conversions in every run -/

section Wp

variable {G : Type} {env : G → (e : PrintEvent) → e.Answer → G → Prop} {ok : G → PrintEvent → Prop}

/-- Not a read through the format pointer. -/
def NotFmt : PrintEvent → Prop
  | .load .fmt _ => False
  | _ => True

variable {R : G → Prop}
  (hok : ∀ g e, NotFmt e → R g → ok g e ∧ ∀ r g', env g e r g' → R g')

include hok

/-- A read of a string may be answered by anything that keeps `R`. -/
theorem wp_deref_string (str : CharPtr) {g : G} (hg : R g) :
    wp env ok (str.deref .string) (fun _ g' => R g') g := by
  cases str with
  | mem p => exact hok g (.load .string p) trivial hg
  | lit text => exact hg

/-- One argument is gone, if there was one. -/
theorem wp_vaArg (args : List UInt64) {g : G} (hg : R g) :
    wp env ok (vaArg args) (fun r g' => r.2 = args.tail ∧ R g') g := by
  cases args with
  | nil =>
      obtain ⟨hallowed, hkeep⟩ := hok g .vaArg trivial hg
      exact ⟨hallowed, fun r g' hr => ⟨rfl, hkeep r g' hr⟩⟩
  | cons arg args => exact ⟨rfl, hg⟩

/-- Where everything but a read of the format is allowed, any text can be
printed. -/
theorem emits_wp (str : CharPtr) : Emits (wpCalculus env ok) str R R where
  padLeft ch _ g hg := hok g (.fn ch) trivial hg
  padRight g hg := hok g (.fn _) trivial hg
  strlen g hg := by
    refine wp_loop (fun _ g => R g) hg ?_
    rintro ⟨cur, n⟩ g hg
    rw [wp_bind']
    refine wp_mono ?_ (wp_deref_string hok cur hg)
    intro ch g₁ hg₁
    rw [wp_ite]
    exact ⟨fun _ => hg₁, fun _ => hg₁⟩
  text v g hg := by
    refine wp_loop (fun s g => Keeps R v s.2 g) ⟨rfl, rfl, hg⟩ ?_
    rintro ⟨cur, v₁⟩ g ⟨hfmt, hargs, hg⟩
    rw [wp_bind']
    refine wp_mono ?_ (wp_deref_string hok cur hg)
    intro ch g₁ hg₁
    rw [wp_ite, wp_bind']
    refine ⟨fun _ => ?_, fun _ => ⟨hfmt, hargs, hg₁⟩⟩
    have hput : ∀ g, R g → (wpCalculus env ok).holds (fn ch) (fun _ g' => R g') g :=
      fun g hg => hok g (.fn ch) trivial hg
    refine wp_mono ?_ (put_keeps hput v₁ hg₁)
    rintro v₂ g₂ ⟨hfmt₂, hargs₂, hg₂⟩
    exact ⟨hfmt₂.trans hfmt, hargs₂.trans hargs, hg₂⟩

/-- A conversion takes one argument, and moves nothing but that and the count. -/
theorem wp_convertAndEmit (v : Vars) (conversion : Conversion) {g : G} (hg : R g) :
    wp env ok (convertAndEmit v conversion)
      (fun v' g' => v'.fmt = v.fmt ∧ v'.args = v.args.tail ∧ R g') g := by
  have hva : (wpCalculus env ok).holds (vaArg v.args) (fun r g' => r.2 = v.args.tail ∧ R g' ∧
      ∀ conv, convert v.flags (r.1 :: r.2) conversion = pure conv →
        Emits (wpCalculus env ok) conv.str R R) g :=
    wp_mono (fun _ _ h => ⟨h.1, h.2, fun conv _ => emits_wp hok conv.str⟩) (wp_vaArg hok v.args hg)
  exact convertAndEmit_keeps hva

end Wp

end UefiKernel.Console
