import UefiKernel.Console.Digits
import UefiKernel.Console.Syscall

/-!
# UefiKernel.Console.Marks

How far a system call comes with its format, and what it shows by then.

A machine is brought to print a chosen byte `x`, its mark: where the format has `x`
itself, or a directive that converts what the machine has into `x` (`Marks`).  The
byte is then the first one behind what the format prints up to there that is not
padding (`Shows`), so machines with different marks print texts of which neither
continues the other.
-/

namespace UefiKernel.Console

open Interact Prog

/-! ## marks -/

/-- After `start`, and perhaps some padding, comes the mark `x`. -/
def Shows (start : List UInt8) (x : UInt8) (out : List UInt8) : Prop :=
  ∃ pad, (∀ ch ∈ pad, ch ∈ padding) ∧ start ++ (pad ++ [x]) <+: out

theorem Shows.mono {start out out' : List UInt8} {x : UInt8} (h : Shows start x out)
    (hout : out <+: out') : Shows start x out' := by
  obtain ⟨pad, hpad, hshow⟩ := h
  exact ⟨pad, hpad, hshow.trans hout⟩

/-- One text shows one mark. -/
theorem Shows.unique {start out : List UInt8} {x y : UInt8} (hx : x ∉ padding) (hy : y ∉ padding)
    (h₁ : Shows start x out) (h₂ : Shows start y out) : x = y := by
  obtain ⟨pad₁, hpad₁, t₁, ht₁⟩ := h₁
  obtain ⟨pad₂, hpad₂, t₂, ht₂⟩ := h₂
  have heq : pad₁ ++ [x] ++ t₁ = pad₂ ++ [y] ++ t₂ := by
    have h := ht₁.trans ht₂.symm
    rw [List.append_assoc, List.append_assoc start] at h
    exact List.append_cancel_left h
  clear ht₁ ht₂
  induction pad₁ generalizing pad₂ with
  | nil =>
      cases pad₂ with
      | nil => exact (List.cons.inj heq).1
      | cons ch pad₂ =>
          have hch : x = ch := (List.cons.inj heq).1
          exact absurd (hpad₂ ch List.mem_cons_self) (hch ▸ hx)
  | cons ch pad₁ ih =>
      cases pad₂ with
      | nil =>
          have hch : ch = y := (List.cons.inj heq).1
          exact absurd (hpad₁ ch List.mem_cons_self) (hch ▸ hy)
      | cons ch' pad₂ =>
          exact ih (fun c hc => hpad₁ c (List.mem_cons_of_mem _ hc)) pad₂
            (fun c hc => hpad₂ c (List.mem_cons_of_mem _ hc)) (List.cons.inj heq).2

/-- Texts with different marks. -/
theorem Shows.not_comparable {start out₁ out₂ : List UInt8} {x₁ x₂ : UInt8}
    (h₁ : Shows start x₁ out₁) (h₂ : Shows start x₂ out₂) (hx₁ : x₁ ∉ padding)
    (hx₂ : x₂ ∉ padding) (hne : x₁ ≠ x₂) : ¬ (out₁ <+: out₂ ∨ out₂ <+: out₁) := by
  rintro (hle | hle)
  · exact hne (Shows.unique hx₁ hx₂ (h₁.mono hle) h₂)
  · exact hne (Shows.unique hx₁ hx₂ h₁ (h₂.mono hle))

/-- The machine shows the mark `x` at byte `k` of the format at `a`: the byte is
`x` itself, or it converts an argument into `x`. -/
structure Marks (m : Machine) (a : UInt64) (k : Nat) (x : UInt8) : Prop where
  mapped : ∀ i ≤ k, m.mem (a + UInt64.ofNat i) = some (m.textAt a i)
  plain : ∀ i < k, ¬ (lexAt (m.textAt a) i).ends (m.textAt a i) ∧
    (lexAt (m.textAt a) i).converts (m.textAt a i) = false
  not_ends : ¬ (lexAt (m.textAt a) k).ends (m.textAt a k)
  alone : Lex.looksAhead (m.textAt a k) = false
  shown : (lexAt (m.textAt a) k).converts (m.textAt a k) = false →
    m.textAt a k = x ∧ (lexAt (m.textAt a) k).emits x = [x]
  converted : ∀ conversion, Conversion.ofChar (m.textAt a k) = some conversion → ∀ n flags conv,
    convert flags [m.junk n] conversion = pure conv → m.HasText conv.str [x]

/-- A conversion into a one-byte text prints that byte after padding only. -/
theorem reaches_mark {m : Machine} {target : Trace → PrintEvent → Prop} {v : Vars}
    {conversion : Conversion} {x : UInt8} (hargs : v.args = [])
    (hconv : ∀ n flags conv, convert flags [m.junk n] conversion = pure conv →
      m.HasText conv.str [x]) {g : Trace} :
    Reaches m.env target (convertAndEmit v conversion)
      (fun v' g' => v'.fmt = v.fmt ∧ v'.args = [] ∧ Shows g.out x g'.out) g := by
  have hva : (reachCalculus m.env target).holds (vaArg v.args) (fun r g' => r.2 = [] ∧
      (∃ pad, (∀ ch ∈ pad, ch ∈ padding) ∧ g'.out = g.out ++ pad) ∧
      ∀ conv, convert v.flags (r.1 :: r.2) conversion = pure conv →
        Emits (reachCalculus m.env target) conv.str
          (fun g' => ∃ pad, (∀ ch ∈ pad, ch ∈ padding) ∧ g'.out = g.out ++ pad)
          fun g' => Shows g.out x g'.out) g := by
    rw [hargs]
    have he : m.env g .vaArg (m.junk g.fetched) { g with fetched := g.fetched + 1 } := ⟨rfl, rfl⟩
    refine reaches_call he (reaches_ret ⟨rfl, ⟨[], by simp, by simp⟩, fun conv hc => ?_⟩)
    refine Machine.emits (hconv _ _ _ hc) ?_ ?_ ?_
    · rintro ch hch g' ⟨pad, hpad, hout⟩
      refine ⟨pad ++ [ch], ?_, by rw [Trace.print_out, hout, List.append_assoc]⟩
      intro c hc
      rcases List.mem_append.mp hc with hc | hc
      · exact hpad c hc
      · exact List.mem_singleton.mp hc ▸ hch
    · rintro g' ⟨pad, hpad, hout⟩
      refine ⟨pad, hpad, [], ?_⟩
      rw [List.append_nil, Trace.print_out, hout, List.append_assoc]
    · exact fun g' h => h.mono (List.prefix_append _ _)
  exact convertAndEmit_keeps hva

/-- A format that the formatter does not come to the end of before a target brings the
whole system call to that target. -/
theorem run_of_reaches {m : Machine} {target : Trace → PrintEvent → Prop} {a1 : Int64}
    (h : Reaches m.env target (doVprintfBody (fmtAt a1.toUInt64 0) []) (fun _ _ => False) {})
    (a2 a3 a4 a5 : Int64) :
    ∃ g e kont, Run m.env ({}, doSyscallEntry 0 a1 a2 a3 a4 a5) (g, call e kont) ∧
      target g e := by
  have hsys : Reaches m.env target (doSyscallEntry 0 a1 a2 a3 a4 a5) (fun _ _ => False) {} := by
    rw [doSyscallEntry_zero, ← fmtAt_zero]
    exact Reaches.bind (Reaches.bind (h.mono fun _ _ hf => hf.elim))
  rcases hsys with ⟨g, e, kont, hr, ht⟩ | ⟨_, _, _, hf⟩
  · exact ⟨g, e, kont, hr, ht⟩
  · exact hf.elim

section Mark

variable {m : Machine} {a : UInt64} {k : Nat} {x : UInt8} (h : Marks m a k x)

include h

/-- The bytes up to the mark can be read; behind it, it has been shown. -/
theorem Marks.reaches_load {i : Nat} {Q : UInt8 → Trace → Prop} {g : Trace}
    (hQ : i ≤ k → Q (m.textAt a i) g)
    (hshow : k < i → Shows (emitted (m.textAt a) k) x g.out) :
    Reaches m.env (fun g _ => Shows (emitted (m.textAt a) k) x g.out)
      ((fmtAt a i).deref .fmt) Q g := by
  rcases Nat.lt_or_ge k i with hlt | hle
  · exact reaches_target (hshow hlt)
  · have hat : m.At (fmtAt a i) (m.textAt a i) := h.mapped i hle
    exact Machine.reaches_deref hat .fmt (hQ hle)

/-- On the way to the mark the format prints itself. -/
theorem Marks.textWorld :
    TextWorld (reachCalculus m.env fun g _ => Shows (emitted (m.textAt a) k) x g.out)
      (fmtAt a) (m.textAt a) (· ≤ k + 1) (fun i _ => i ≤ k)
      (fun i args g => args = [] ∧ (i ≤ k → g.out = emitted (m.textAt a) i) ∧
        (k < i → Shows (emitted (m.textAt a) k) x g.out)) where
  next := fmtAt_next a
  load i _ _ _ hR := h.reaches_load
    (fun hle => ⟨rfl, hR, hle, fun _ => Nat.succ_le_succ hle⟩) hR.2.2
  ahead := by
    intro i args g hi hahead hR
    refine h.reaches_load (fun hle => ⟨rfl, hR, fun _ => Nat.succ_le_succ hle⟩) ?_
    intro hk
    obtain rfl : i = k := by omega
    rw [h.alone] at hahead
    cases hahead
  skip := by
    rintro i args g hi hconv hemits ⟨hargs, hout, -⟩
    refine ⟨hargs, fun hle => ?_, fun hk => ?_⟩
    · rw [emitted, hemits, List.append_nil, hout (by omega)]
    · obtain rfl : i = k := by omega
      obtain ⟨hx, hprints⟩ := h.shown hconv
      rw [hx, hprints] at hemits
      cases hemits
  put := by
    rintro i args g hi hconv hemits ⟨hargs, hout, -⟩
    refine Machine.reaches_fn _ ⟨hargs, fun hle => ?_, fun hk => ?_⟩
    · rw [emitted, hemits, Trace.print_out, hout (by omega)]
    · obtain rfl : i = k := by omega
      refine ⟨[], by simp, ?_⟩
      rw [Trace.print_out, hout (Nat.le_refl _), (h.shown hconv).1]
      exact List.prefix_refl _
  convert := by
    rintro i v g conversion hi hconv hch ⟨hargs, hout, -⟩
    obtain rfl : i = k := by
      rcases Nat.lt_or_ge i k with hlt | hge
      · rw [(h.plain i hlt).2] at hconv
        cases hconv
      · omega
    refine (reaches_mark hargs (h.converted conversion hch)).mono ?_
    rintro v' g' ⟨hfmt, hargs', hshow⟩
    refine ⟨hfmt, hargs', fun hle => absurd hle (by omega), fun _ => ?_⟩
    rw [← hout (Nat.le_refl _)]
    exact hshow

end Mark

/-- A marked machine shows its mark. -/
theorem Marks.run {m : Machine} {a1 : Int64} {k : Nat} {x : UInt8}
    (h : Marks m a1.toUInt64 k x) (a2 a3 a4 a5 : Int64) :
    ∃ g p, Run m.env ({}, doSyscallEntry 0 a1 a2 a3 a4 a5) (g, p) ∧
      Shows (emitted (m.textAt a1.toUInt64) k) x g.out := by
  have hbody := doVprintfBody_of_bounded h.textWorld (fun _ hi => hi) (Nat.zero_le _)
    (g := ({} : Trace)) ⟨rfl, fun _ => rfl, fun hk => absurd hk (Nat.not_lt_zero k)⟩
  obtain ⟨g, e, kont, hrun, hshow⟩ := run_of_reaches (Reaches.mono (fun _ g' hend => by
    obtain ⟨i, _, _, hends, hle, -⟩ := hend
    rcases Nat.lt_or_ge i k with hlt | hge
    · exact (h.plain i hlt).1 hends
    · obtain rfl : i = k := Nat.le_antisymm hle hge
      exact h.not_ends hends) hbody) a2 a3 a4 a5
  exact ⟨g, call e kont, hrun, hshow⟩

/-- A machine comes to the first read of byte `k`, and has printed no more than what
is in front of it. -/
theorem run_to_byte {m : Machine} {a1 : Int64} {k : Nat}
    (hmapped : ∀ i < k, m.mem (a1.toUInt64 + UInt64.ofNat i) = some (m.textAt a1.toUInt64 i))
    (hplain : ∀ i < k, ¬ (lexAt (m.textAt a1.toUInt64) i).ends (m.textAt a1.toUInt64 i) ∧
      (lexAt (m.textAt a1.toUInt64) i).converts (m.textAt a1.toUInt64 i) = false)
    (a2 a3 a4 a5 : Int64) :
    ∃ g via kont, Run m.env ({}, doSyscallEntry 0 a1 a2 a3 a4 a5)
        (g, call (.load via (a1.toUInt64 + UInt64.ofNat k)) kont) ∧
      g.out <+: emitted (m.textAt a1.toUInt64) k := by
  let target : Trace → PrintEvent → Prop := fun g e =>
    (∃ via, e = .load via (a1.toUInt64 + UInt64.ofNat k)) ∧
      g.out <+: emitted (m.textAt a1.toUInt64) k
  have hload : ∀ i ≤ k, ∀ {Q : UInt8 → Trace → Prop} {g : Trace},
      g.out <+: emitted (m.textAt a1.toUInt64) k → (i < k → Q (m.textAt a1.toUInt64 i) g) →
      Reaches m.env target ((fmtAt a1.toUInt64 i).deref .fmt) Q g := by
    intro i hi Q g hout hQ
    rcases Nat.eq_or_lt_of_le hi with rfl | hlt
    · exact reaches_target ⟨⟨.fmt, rfl⟩, hout⟩
    · have hat : m.At (fmtAt a1.toUInt64 i) (m.textAt a1.toUInt64 i) := hmapped i hlt
      exact Machine.reaches_deref hat .fmt (hQ hlt)
  have hw : TextWorld (reachCalculus m.env target) (fmtAt a1.toUInt64) (m.textAt a1.toUInt64)
      (· ≤ k) (fun i _ => i < k)
      (fun i args g => args = [] ∧ g.out = emitted (m.textAt a1.toUInt64) i) :=
    { next := fmtAt_next _
      load := fun i _ _ hi hR => hload i hi (hR.2 ▸ emitted_prefix _ hi)
        fun hlt => ⟨rfl, hR, hlt, fun _ => hlt⟩
      ahead := fun i _ _ hi _ hR => hload (i + 1) hi (hR.2 ▸ emitted_prefix _ (by omega))
        fun hlt => ⟨rfl, hR, fun _ => hlt⟩
      skip := by
        rintro i args g - - hemits ⟨hargs, hout⟩
        exact ⟨hargs, by rw [emitted, hemits, List.append_nil, hout]⟩
      put := by
        rintro i args g - - hemits ⟨hargs, hout⟩
        exact Machine.reaches_fn _ ⟨hargs, by rw [emitted, hemits, Trace.print_out, hout]⟩
      convert := by
        rintro i v g conversion hi hconv -
        rw [(hplain i hi).2] at hconv
        cases hconv }
  have hbody := doVprintfBody_of_bounded hw (fun _ hi => hi) (Nat.zero_le _)
    (g := ({} : Trace)) ⟨rfl, rfl⟩
  obtain ⟨g, _, kont, hrun, ⟨via, rfl⟩, hout⟩ := run_of_reaches (Reaches.mono (fun _ _ hend => by
    obtain ⟨i, _, _, hends, hlt, -⟩ := hend
    exact (hplain i hlt).1 hends) hbody) a2 a3 a4 a5
  exact ⟨g, via, kont, hrun, hout⟩

/-- A machine with more memory does the same, as far as the first one goes. -/
theorem Machine.run_of_le {m m' : Machine} (hmem : ∀ p ch, m.mem p = some ch → m'.mem p = some ch)
    (hjunk : m'.junk = m.junk) {α : Type} {g g' : Trace} {p q : PrintM α}
    (h : Run m.env (g, p) (g', q)) : Run m'.env (g, p) (g', q) := by
  have henv : ∀ g e r g₁ s, m.env g e r g₁ → g = s → ∃ s', m'.env s e r s' ∧ g₁ = s' := by
    rintro g e r g₁ _ he rfl
    refine ⟨g₁, ?_, rfl⟩
    cases e with
    | load via p => exact ⟨hmem p _ he.1, he.2⟩
    | vaArg => exact ⟨hjunk ▸ he.1, he.2⟩
    | fn ch => exact he
  obtain ⟨_, hr, rfl⟩ := h.simulate henv rfl
  exact hr

/-! ## one digit -/

/-- A digit's value is written as that digit, in every base. -/
theorem write_digit {x : UInt8} (hx : x ∈ bytes "12") (base : Base) (hbase : base ∈
    [Base.decimal, .bits .octal 0, .bits .hex 0, .bits .hex 16]) :
    base.write (x - '0'.toUInt8).toUInt64 = [x] := by
  have hdigit : ∀ x ∈ bytes "12", digitsOf 10 (x - '0'.toUInt8).toUInt64.toNat = [x] ∧
      digitsOf 8 (x - '0'.toUInt8).toUInt64.toNat = [x] ∧
      capitalDigitsOf 16 (x - '0'.toUInt8).toUInt64.toNat = [x] ∧
      digitsOf 16 (x - '0'.toUInt8).toUInt64.toNat = [x] :=
    forall_mem_bytes (by decide)
  obtain ⟨hdecimal, hoctal, hcapital, hhex⟩ := hdigit x hx
  simp only [List.mem_cons, List.not_mem_nil, or_false] at hbase
  rcases hbase with rfl | rfl | rfl | rfl
  · rw [writeDecimal_eq, hdecimal]
  · rw [writeOctal_eq, hoctal]
  · rw [writeCapitalHex_eq, hcapital]
  · rw [writeHex_eq, hhex]

/-- No length modifier cuts it off. -/
theorem narrow_digit {x : UInt8} (hx : x ∈ bytes "12") (flags : Flags) :
    (narrow flags (x - '0'.toUInt8).toUInt64).2 = (x - '0'.toUInt8).toUInt64 := by
  have h : ∀ x ∈ bytes "12", ∀ p n l z d a b c,
      (narrow ⟨p, n, l, z, d, a, b, c⟩ (x - '0'.toUInt8).toUInt64).2 =
        (x - '0'.toUInt8).toUInt64 :=
    forall_mem_bytes (by decide)
  obtain ⟨p, n, l, z, d, a, b, c⟩ := flags
  exact h x hx p n l z d a b c

end UefiKernel.Console
