import UefiKernel.Console.Machine

/-!
# UefiKernel.Console.Syscall

`do_syscall_entry` and the formats of the kernel's own.

A format that is a literal of the kernel and comes with its arguments is
harmless: the formatter reads no memory, fetches nothing that was not passed,
and comes to an end (`doVprintfBody_lit`).  Call 1 prints with such a format;
call 0 does not.
-/

namespace UefiKernel.Console

open Interact Prog

/-! ## formats of the kernel's own -/

/-- How many conversions there are in front of byte `i`. -/
def conversions (b : Nat → UInt8) : Nat → Nat
  | 0 => 0
  | i + 1 => conversions b i + if (lexAt b i).converts (b i) then 1 else 0

/-- Every directive of the text is for a number or a character and has an
argument of its own among `n`. -/
def SelfContained (text : List UInt8) (n : Nat) : Prop :=
  ∀ i < text.length, (lexAt (byteAt text) i).converts (byteAt text i) →
    Conversion.ofChar (byteAt text i) ≠ some .s ∧ conversions (byteAt text) i < n

instance (text : List UInt8) (n : Nat) : Decidable (SelfContained text n) :=
  inferInstanceAs (Decidable (∀ i < text.length, _))

section Literal

variable {G : Type} {L : Calculus PrintEvent PrintEvent.Answer G} {R : G → Prop}
  (hfn : ∀ ch g, R g → L.holds (fn ch) (fun _ g' => R g') g)

include hfn

/-- A text of the kernel's own can be printed wherever printing is allowed. -/
theorem emits_lit (text : List UInt8) : Emits L (.lit text) R R where
  padLeft ch _ := hfn ch
  padRight := hfn _
  strlen g hg := by
    unfold strlen
    generalize (0 : UInt64) = n
    induction text generalizing n with
    | nil => exact L.unroll (L.ret hg)
    | cons ch text ih =>
        refine L.unroll ?_
        show L.holds (if ch ≠ 0 then _ else _) _ g
        exact L.ite (fun _ => L.ret (ih (n + 1))) fun _ => L.ret hg
  text v g hg := by
    unfold putString
    induction text generalizing v g with
    | nil => exact L.unroll (L.ret ⟨rfl, rfl, hg⟩)
    | cons ch text ih =>
        refine L.unroll ?_
        show L.holds (if ch ≠ 0 then _ else _) _ g
        refine L.ite (fun _ => ?_) fun _ => L.ret ⟨rfl, rfl, hg⟩
        refine L.seq (put_keeps (hfn ch) v hg) ?_
        rintro v₁ g₁ ⟨hfmt, hargs, hg₁⟩
        exact L.ret (keeps_of_eq hfmt hargs (ih v₁ g₁ hg₁))

theorem convertAndEmit_lit {v : Vars} {arg : UInt64} {args : List UInt64}
    {conversion : Conversion} (hs : conversion ≠ .s) (hargs : v.args = arg :: args) {g : G}
    (hg : R g) :
    L.holds (convertAndEmit v conversion)
      (fun v' g' => v'.fmt = v.fmt ∧ v'.args = args ∧ R g') g := by
  have hva : L.holds (vaArg v.args) (fun r g' => r.2 = args ∧ R g' ∧
      ∀ conv, convert v.flags (r.1 :: r.2) conversion = pure conv → Emits L conv.str R R) g := by
    rw [hargs]
    refine L.pure ⟨rfl, hg, fun conv hconv => ?_⟩
    obtain ⟨text, hstr⟩ := convert_lit hs hconv
    rw [hstr]
    exact emits_lit hfn text
  exact convertAndEmit_keeps hva

/-- **A format of the kernel's own** with its arguments does nothing but
print. -/
theorem doVprintfBody_lit {text : List UInt8} {args : List UInt64}
    (htext : SelfContained text args.length) (hopen : ¬ EndsOpen text) {g : G} (hg : R g) :
    L.holds (doVprintfBody (.lit text) args) (fun _ g' => R g') g := by
  have hload : ∀ i, (text.drop i).headD 0 = byteAt text i := by
    intro i
    rw [byteAt, List.headD_eq_head?_getD, List.head?_drop, List.getD_eq_getElem?_getD]
  have hw : TextWorld L (fun i => .lit (text.drop i)) (byteAt text) (· ≤ text.length)
      (fun _ _ => True) (fun i args' g => args' = args.drop (conversions (byteAt text) i) ∧ R g) :=
    { next := fun i => by rw [CharPtr.next, List.tail_drop]
      load := fun i _ _ hi hR => L.pure
        ⟨hload i, hR, trivial, succ_le_of_not_ends hopen hi⟩
      ahead := fun i _ _ hi _ hR => L.pure
        ⟨hload (i + 1), hR, succ_le_of_not_ends hopen hi⟩
      skip := by
        rintro i args' g _ hconv _ ⟨hargs, hg⟩
        exact ⟨by rw [hargs, conversions, hconv]; rfl, hg⟩
      put := by
        rintro i args' g _ hconv _ ⟨hargs, hg⟩
        refine L.mono ?_ (hfn _ g hg)
        exact fun _ g' hg' => ⟨by rw [hargs, conversions, hconv]; rfl, hg'⟩
      convert := by
        rintro i v g conversion hi hconv hch ⟨hargs, hg⟩
        obtain ⟨hs, hlt⟩ := htext i hi hconv
        rw [List.drop_eq_getElem_cons hlt] at hargs
        refine L.mono ?_ (convertAndEmit_lit hfn (fun h => hs (h ▸ hch)) hargs hg)
        rintro v' g' ⟨hfmt, hargs', hg'⟩
        exact ⟨hfmt, by rw [hargs', conversions, hconv]; rfl, hg'⟩ }
  refine L.mono ?_ (doVprintfBody_of_bounded hw (fun _ h => h) (Nat.zero_le _) ⟨rfl, hg⟩)
  rintro _ g' ⟨_, _, _, _, _, _, hg'⟩
  exact hg'

/-- So is `printf` with it. -/
theorem printf_lit {text : List UInt8} {args : List UInt64} (htext : SelfContained text args.length)
    (hopen : ¬ EndsOpen text) {g : G} (hg : R g) :
    L.holds (printf (.lit text) args) (fun _ g' => R g') g :=
  L.seq (doVprintfBody_lit hfn htext hopen hg) fun _ g₁ hg₁ =>
    L.seq (hfn 0 g₁ hg₁) fun _ _ hg₂ => L.pure hg₂

end Literal

/-! ## system calls -/

theorem doSyscallEntry_zero (a1 a2 a3 a4 a5 : Int64) :
    doSyscallEntry 0 a1 a2 a3 a4 a5 = (printf (.mem a1.toUInt64) []).bind fun _ => ret 0 := by
  unfold doSyscallEntry
  rw [if_pos rfl]
  rfl

/-- The format of system call 1. -/
def valueFormat : List UInt8 := bytes "The passed variable has the following value: %d \n"

theorem doSyscallEntry_one (a1 a2 a3 a4 a5 : Int64) :
    doSyscallEntry 1 a1 a2 a3 a4 a5 =
      (printf (.lit valueFormat) [a1.toUInt64]).bind fun _ => ret 0 := by
  unfold doSyscallEntry
  rw [if_neg (by decide), if_pos rfl]
  rfl

theorem doSyscallEntry_other {n : Int64} (h0 : n ≠ 0) (h1 : n ≠ 1) (a1 a2 a3 a4 a5 : Int64) :
    doSyscallEntry n a1 a2 a3 a4 a5 = ret (-1) := by
  unfold doSyscallEntry
  rw [if_neg h0, if_neg h1]
  rfl

/-- **Every other call than 0** does nothing but print. -/
theorem doSyscallEntry_prints {G : Type} {L : Calculus PrintEvent PrintEvent.Answer G}
    {R : G → Prop} (hfn : ∀ ch g, R g → L.holds (fn ch) (fun _ g' => R g') g) {n : Int64}
    (hn : n ≠ 0) (a1 a2 a3 a4 a5 : Int64) {g : G} (hg : R g) :
    L.holds (doSyscallEntry n a1 a2 a3 a4 a5) (fun _ g' => R g') g := by
  by_cases h1 : n = 1
  · have hself : SelfContained valueFormat 1 := by decide
    have hprintf : L.holds (printf (.lit valueFormat) [a1.toUInt64]) (fun _ g' => R g') g :=
      printf_lit hfn hself (by decide) hg
    subst h1
    rw [doSyscallEntry_one]
    exact L.bind (L.mono (fun _ _ hg₁ => L.ret hg₁) hprintf)
  · rw [doSyscallEntry_other hn h1]
    exact L.ret hg

end UefiKernel.Console
