import UefiKernel.Console.Machine

/-!
# UefiKernel.Console.Counting

What `_do_vprintf` returns, for any format.

`count` goes up by one with each byte that is passed to the output function, so
at the end it is the number of bytes printed, modulo 2^64
(`doVprintfBody_counts`).  The cases are taken in the order in which they fall
through, from the last to the first.
-/

namespace UefiKernel.Console

open Interact Prog

/-- `count` is the number of bytes printed, modulo 2^64. -/
def Counted (v : Vars) (g : Trace) : Prop := v.count = UInt64.ofNat g.out.length

/-- Only what is printed counts. -/
theorem Counted.of_out {v : Vars} {g g' : Trace} (h : Counted v g) (hg : g'.out = g.out) :
    Counted v g' := by
  rw [Counted, hg]
  exact h

/-! ## code that prints nothing -/

/-- Not an output. -/
def Quiet : PrintEvent → Prop
  | .fn _ => False
  | _ => True

theorem quiet_deref (via : Via) (p : CharPtr) : (p.deref via).Issues Quiet := by
  cases p with
  | mem p => exact Issues.req (e := PrintEvent.load via p) trivial
  | lit text => exact Issues.pure _

theorem quiet_vaArg (args : List UInt64) : (vaArg args).Issues Quiet := by
  cases args with
  | nil => exact Issues.seq (Issues.req (e := PrintEvent.vaArg) trivial) fun _ => Issues.pure _
  | cons arg args => exact Issues.pure _

/-- A conversion reads and fetches, and prints nothing by itself. -/
theorem quiet_convert (flags : Flags) (args : List UInt64) (conversion : Conversion) :
    (convert flags args conversion).Issues Quiet := by
  rw [convert_eq]
  refine Issues.seq (quiet_vaArg args) fun r => ?_
  obtain ⟨conv, hconv, -⟩ := convert_cons flags r.1 r.2 conversion
  rw [hconv]
  exact Issues.pure conv

theorem quiet_strlen (str : CharPtr) : (strlen str).Issues Quiet := by
  refine Issues.loop (fun s => ?_) _
  exact Issues.seq (quiet_deref _ _) fun ch => Issues.ite (fun _ => Issues.pure _) fun _ =>
    Issues.pure _

section Counting

variable {m : Machine} {v : Vars} {g : Trace}

/-- Without prints, the output is the same in every run. -/
theorem wp_quiet {α : Type} {p : PrintM α} (h : p.Issues Quiet) :
    wp m.env (fun _ _ => True) p (fun _ g' => g'.out = g.out) g := by
  refine wp_of_issues (R := fun g' : Trace => g'.out = g.out) (fun _ _ _ _ => trivial) ?_ h rfl
  intro g₁ e r g₂ hquiet hg he
  cases e with
  | load via p => exact (congrArg Trace.out he.2).trans hg
  | vaArg => exact (congrArg Trace.out he.2).trans hg
  | fn ch => exact hquiet.elim

/-! ## code that prints -/

/-- The code leaves the count right. -/
abbrev Counts (m : Machine) (p : PrintM Vars) (g : Trace) : Prop :=
  wp m.env (fun _ _ => True) p Counted g

/-- Quiet code in front. -/
theorem counts_quiet {α : Type} {p : PrintM α} {f : α → PrintM Vars} (hp : p.Issues Quiet)
    (h : Counted v g) (hf : ∀ a g', Counted v g' → Counts m (f a) g') : Counts m (p >>= f) g :=
  wp_bind'.mpr (wp_mono (fun a g' hg => hf a g' (h.of_out hg)) (wp_quiet hp))

/-- The rule of composition. -/
theorem counts_seq {p : PrintM Vars} {f : Vars → PrintM Vars} (hp : Counts m p g)
    (hf : ∀ v' g', Counted v' g' → Counts m (f v') g') : Counts m (p >>= f) g :=
  wp_bind'.mpr (wp_mono hf hp)

/-- Each `PUT` prints one byte and counts it. -/
theorem counts_put (ch : UInt8) (h : Counted v g) : Counts m (v.put ch) g := by
  refine ⟨trivial, ?_⟩
  rintro _ g' rfl
  show v.count + 1 = UInt64.ofNat (g.out ++ [ch]).length
  rw [h, List.length_append, UInt64.ofNat_add]
  rfl

/-- Padding counts every byte. -/
theorem counts_putMany (ch : UInt8) (n : Nat) (h : Counted v g) :
    Counts m (Vars.putMany ch n v) g := by
  induction n generalizing v g with
  | zero => exact h
  | succ n ih => exact counts_seq (counts_put ch h) fun v' g' h' => ih h'

/-- So does the converted string, however long. -/
theorem counts_putString (str : CharPtr) (h : Counted v g) : Counts m (putString str v) g := by
  refine wp_loop (fun s g => Counted s.2 g) h ?_
  rintro ⟨cur, v⟩ g h
  refine wp_bind'.mpr (wp_mono ?_ (wp_quiet (quiet_deref .string cur)))
  intro ch g₁ hg₁
  refine wp_ite.mpr ⟨fun _ => ?_, fun _ => h.of_out hg₁⟩
  exact wp_bind'.mpr (counts_put ch (h.of_out hg₁))

theorem counts_putSignIf (now : Bool) (h : Counted v g) : Counts m (putSignIf now v) g := by
  refine wp_ite.mpr ⟨fun _ => wp_ite.mpr ⟨fun _ => ?_, fun _ => counts_put _ h⟩, fun _ => h⟩
  exact counts_seq (counts_put _ h) fun v' g' h' => counts_put _ h'

theorem counts_padLeft (actualWd : UInt64) (h : Counted v g) : Counts m (padLeft actualWd v) g :=
  wp_ite.mpr ⟨fun _ => h, fun _ => counts_seq (counts_putMany _ _ h) fun _ _ h' => h'⟩

/-- Signs, padding and string of one directive. -/
theorem counts_emit (str : CharPtr) (h : Counted v g) : Counts m (emit v str) g := by
  unfold emit
  refine counts_quiet (quiet_strlen str) h fun length g₁ h₁ => ?_
  refine counts_seq (counts_putSignIf _ h₁) fun v₂ g₂ h₂ => ?_
  refine counts_seq (counts_padLeft _ h₂) fun v₃ g₃ h₃ => ?_
  refine counts_seq (counts_putSignIf _ h₃) fun v₄ g₄ h₄ => ?_
  refine counts_seq (counts_putString str h₄) fun v₅ g₅ h₅ => ?_
  exact counts_putMany _ _ h₅

/-! ## the five cases -/

/-- At the end of a directive: what is converted is counted, and what is not recognised
is printed as it is. -/
theorem counts_awaitConversion (ch : UInt8) (h : Counted v g) :
    Counts m (awaitConversion v ch) g := by
  unfold awaitConversion
  cases Conversion.ofChar ch with
  | none => exact counts_seq (counts_put ch h) fun _ _ h' => h'
  | some conversion =>
      refine counts_quiet (quiet_convert _ _ _) h fun conv g₁ h₁ => ?_
      exact counts_seq (counts_emit (v := { v with flags := conv.flags, args := conv.args })
        conv.str h₁) fun _ _ h' => h'

/-- Behind the width. -/
theorem counts_awaitModifier (ch : UInt8) (h : Counted v g) :
    Counts m (awaitModifier v ch) g := by
  have ahead : ∀ {c : UInt8 → Prop} [DecidablePred c] {v₁ v₂ : Vars}, v₁.count = v.count →
      v₂.count = v.count →
      Counts m (v.fmt.next.deref .fmt >>= fun ch => if c ch then pure v₁ else pure v₂) g := by
    intro c _ v₁ v₂ h₁ h₂
    refine counts_quiet (quiet_deref _ _) h fun ch g' h' => ?_
    exact wp_ite.mpr ⟨fun _ => h₁.trans h', fun _ => h₂.trans h'⟩
  refine wp_ite.mpr ⟨fun _ => h, fun _ => ?_⟩
  refine wp_ite.mpr ⟨fun _ => ahead rfl rfl, fun _ => ?_⟩
  refine wp_ite.mpr ⟨fun _ => h, fun _ => ?_⟩
  refine wp_ite.mpr ⟨fun _ => ahead rfl rfl, fun _ => ?_⟩
  exact counts_awaitConversion (v := { v with state := .conversion }) ch h

/-- Behind the flags. -/
theorem counts_awaitWidth (ch : UInt8) (h : Counted v g) : Counts m (awaitWidth v ch) g :=
  wp_ite.mpr ⟨fun _ => h, fun _ => counts_awaitModifier (v := { v with state := .modifier }) ch h⟩

/-- Behind the percent sign. -/
theorem counts_awaitFlags (ch : UInt8) (h : Counted v g) : Counts m (awaitFlags v ch) g := by
  refine wp_ite.mpr ⟨fun _ => counts_seq (counts_put ch h) fun _ _ h' => h', fun _ => ?_⟩
  refine wp_ite.mpr ⟨fun _ => h, fun _ => ?_⟩
  refine wp_ite.mpr ⟨fun _ => ?_, fun _ => ?_⟩
  · exact counts_quiet (quiet_deref _ _) h fun ch' g' h' => counts_awaitWidth ch' h'
  · exact counts_awaitWidth ch h

/-- Outside a directive. -/
theorem counts_awaitPercent (ch : UInt8) (h : Counted v g) : Counts m (awaitPercent v ch) g := by
  refine wp_ite.mpr ⟨fun _ => counts_put ch h, fun _ => ?_⟩
  exact counts_quiet (quiet_deref _ _) h fun ch' g' h' => counts_awaitFlags ch' h'

/-- One character of the format, in any state. -/
theorem counts_switch (ch : UInt8) (h : Counted v g) : Counts m (switch v ch) g := by
  unfold switch
  cases v.state with
  | percent => exact counts_awaitPercent ch h
  | flags => exact counts_awaitFlags ch h
  | width => exact counts_awaitWidth ch h
  | modifier => exact counts_awaitModifier ch h
  | conversion => exact counts_awaitConversion ch h

/-- **The result is the number of bytes printed**, for any format and any
arguments. -/
theorem doVprintfBody_counts (fmt : CharPtr) (args : List UInt64) :
    wp m.env (fun _ _ => True) (doVprintfBody fmt args)
      (fun c g => c = UInt64.ofNat g.out.length) {} := by
  refine wp_loop (fun v g => Counted v g) rfl fun v g h => ?_
  refine wp_bind'.mpr (wp_mono ?_ (wp_quiet (quiet_deref .fmt v.fmt)))
  intro ch g₁ hg₁
  refine wp_ite.mpr ⟨fun _ => h.of_out hg₁, fun _ => ?_⟩
  exact wp_bind'.mpr (counts_switch ch (h.of_out hg₁))

end Counting

end UefiKernel.Console
