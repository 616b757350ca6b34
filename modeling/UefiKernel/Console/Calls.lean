import Mathlib.Data.List.Forall2
import UefiKernel.Console.Formatter
import UefiKernel.Console.Value

/-!
# UefiKernel.Console.Calls

Calls of `printf`, and what they mean.

`Means` says what a call prints, for the formats of the format language with
arguments for them.  Texts without `%` mean themselves, whether they are the
kernel's or a program's; `%p` stands for `pointerText`.
-/

namespace UefiKernel.Console

open Interact Prog

/-- The call is for a format of the format language, with its arguments, that
means `text`. -/
def Means (m : Machine) (call : CharPtr × List UInt64) (text : List UInt8) : Prop :=
  ∃ strings items, m.HasText call.1 (items.flatMap Item.text) ∧ Matches m strings items call.2 ∧
    render strings items call.2 = text

/-- `printf`, a number of times. -/
def printAll : List (CharPtr × List UInt64) → PrintM Unit
  | [] => pure ()
  | (fmt, args) :: calls => do
      let _ ← printf fmt args
      printAll calls

section Calls

variable {m : Machine} {calls : List (CharPtr × List UInt64)} {texts : List (List UInt8)}

/-- Such a call prints its text, and a NUL. -/
theorem Means.run_printf {call : CharPtr × List UInt64} {text : List UInt8}
    (h : Means m call text) (g : Trace) :
    ∃ n, Run m.env (g, printf call.1 call.2) (g.print (text ++ [0]), ret n) := by
  obtain ⟨strings, items, hfmt, hargs, rfl⟩ := h
  exact ⟨_, Machine.run_printf hfmt hargs g⟩

/-- The texts come one after the other, each with a NUL. -/
theorem run_printAll (h : List.Forall₂ (Means m) calls texts) (g : Trace) :
    Run m.env (g, printAll calls) (g.print (texts.flatMap (· ++ [0])), ret ()) := by
  induction h generalizing g with
  | nil =>
      rw [List.flatMap_nil, Trace.print_nil]
      exact .refl
  | cons hcall _ ih =>
      obtain ⟨n, hr⟩ := hcall.run_printf g
      rw [List.flatMap_cons, ← Trace.print_print]
      exact hr.seq (ih _)

end Calls

/-! ## formats -/

section Formats

variable {m : Machine}

/-- A text in memory. -/
theorem means_text {p : CharPtr} {text : List UInt8} (h : m.HasText p text)
    (hpercent : '%'.toUInt8 ∉ text) : Means m (p, []) text := by
  obtain ⟨items, htext, hrender, hmatches⟩ :=
    exists_plain_items m (fun _ => []) h.not_mem hpercent
  exact ⟨_, items, by rwa [htext], hmatches, hrender⟩

/-- What a format of the kernel's own means, piece by piece. -/
def Spells (m : Machine) (fmt : List UInt8) (args : List UInt64) (text : List UInt8) : Prop :=
  ∃ strings items, items.flatMap Item.text = fmt ∧ Matches m strings items args ∧
    render strings items args = text

/-- A format that spells a text, as a literal. -/
theorem Spells.means {fmt text : List UInt8} {args : List UInt64} (h : Spells m fmt args text)
    (h0 : fmt.all (· ≠ 0) = true) : Means m (.lit fmt, args) text := by
  obtain ⟨strings, items, rfl, hargs, hrender⟩ := h
  refine ⟨strings, items, Machine.hasText_lit fun ch hch => ?_, hargs, hrender⟩
  exact of_decide_eq_true (List.all_eq_true.mp h0 ch hch)

namespace Spells

theorem nil (m : Machine) : Spells m [] [] [] := ⟨fun _ => [], [], rfl, trivial, rfl⟩

variable {fmt text : List UInt8} {args : List UInt64} (h : Spells m fmt args text)

include h

/-- Bytes without a percent sign in front. -/
theorem plain {before : List UInt8} (hbefore : before.all (fun ch => ch ≠ 0 ∧ ch ≠ '%'.toUInt8)) :
    Spells m (before ++ fmt) args (before ++ text) := by
  have hall := List.all_eq_true.mp hbefore
  have h0 : 0 ∉ before := fun hch => (of_decide_eq_true (hall _ hch)).1 rfl
  have hpercent : '%'.toUInt8 ∉ before := fun hch => (of_decide_eq_true (hall _ hch)).2 rfl
  obtain ⟨strings, items, rfl, hargs, rfl⟩ := h
  obtain ⟨items', htext, hrender, hmatches⟩ := exists_plain_items_append h0 hpercent
  exact ⟨strings, items' ++ items, by rw [List.flatMap_append, htext],
    (hmatches ..).mpr hargs, hrender ..⟩

/-- A `%%` in front. -/
theorem percent : Spells m (bytes "%%" ++ fmt) args (bytes "%" ++ text) := by
  obtain ⟨strings, items, rfl, hargs, rfl⟩ := h
  exact ⟨strings, .percent :: items, rfl, hargs, rfl⟩

/-- A directive that does not depend on texts in memory. -/
theorem directive {d : Directive} {arg : UInt64} {shown : List UInt8}
    (hd : ∀ strings, d.verb.Accepts m strings arg ∧ d.render strings arg = shown) :
    Spells m (d.text ++ fmt) (arg :: args) (shown ++ text) := by
  obtain ⟨strings, items, rfl, hargs, rfl⟩ := h
  refine ⟨strings, .directive d :: items, rfl, ⟨(hd strings).1, hargs⟩, ?_⟩
  rw [render, (hd strings).2]

/-- A `%d` in front, with its argument. -/
theorem int (arg : UInt64) : Spells m (bytes "%d" ++ fmt) (arg :: args)
    (decimal (arg.toBitVec.setWidth 32).toInt ++ text) := by
  obtain ⟨d, hd, hint⟩ := exists_intDirective
  rw [← hd]
  exact h.directive fun strings => ⟨(hint strings arg).1 m, (hint strings arg).2⟩

end Spells

/-- How `%p` shows a pointer. -/
def pointerText (p : UInt64) : List UInt8 :=
  if p = 0 then bytes "(nil)" else bytes "0x" ++ digitsOf 16 p.toNat

theorem Field.pad_zero (f : Field) : f.pad false false 0 = f.sign ++ f.body := by
  unfold Field.pad
  simp only [Nat.zero_sub, List.replicate_zero, Bool.false_and, List.nil_append,
    Bool.false_eq_true, if_false]

/-- The directive `%p`. -/
theorem exists_pointerDirective : ∃ d : Directive, d.text = bytes "%p" ∧ ∀ strings arg,
    (∀ m, d.verb.Accepts m strings arg) ∧ d.render strings arg = pointerText arg := by
  refine ⟨⟨0, false, [], none, .p, fun _ h => absurd h List.not_mem_nil, by decide, by decide⟩,
    rfl, fun strings arg => ⟨fun _ => trivial, ?_⟩⟩
  show Field.pad (if arg = 0 then _ else _) false false 0 = pointerText arg
  rw [Field.pad_zero, pointerText]
  split <;> rfl

theorem Spells.pointer {fmt text : List UInt8} {args : List UInt64} (h : Spells m fmt args text)
    (arg : UInt64) : Spells m (bytes "%p" ++ fmt) (arg :: args) (pointerText arg ++ text) := by
  obtain ⟨d, hd, hpointer⟩ := exists_pointerDirective
  rw [← hd]
  exact h.directive fun strings => ⟨(hpointer strings arg).1 m, (hpointer strings arg).2⟩

/-- The format of system call 1. -/
theorem means_value (arg : UInt64) : Means m (.lit valueFormat, [arg])
    (valuePrefix ++ (decimal (arg.toBitVec.setWidth 32).toInt ++ valueSuffix)) := by
  have hformat : valueFormat = valuePrefix ++ (bytes "%d" ++ (valueSuffix ++ [])) := by decide
  have hspells : Spells m (valuePrefix ++ (bytes "%d" ++ (valueSuffix ++ []))) [arg]
      (valuePrefix ++ (decimal (arg.toBitVec.setWidth 32).toInt ++ (valueSuffix ++ []))) :=
    (((Spells.nil m).plain (by decide)).int arg).plain (by decide)
  rw [← hformat, List.append_nil] at hspells
  exact hspells.means (by decide)

end Formats

/-- Each system call comes to a result on some machine. -/
theorem exists_run_doSyscallEntry (n a1 a2 a3 a4 a5 : Int64) :
    ∃ (m : Machine) (g : Trace) (r : Int64),
      Run m.env ({}, doSyscallEntry n a1 a2 a3 a4 a5) (g, ret r) := by
  let m : Machine := ⟨fun _ => some 0, fun _ => 0⟩
  refine ⟨m, ?_⟩
  by_cases h0 : n = 0
  · subst h0
    have hempty : m.HasText (.mem a1.toUInt64) [] := .nil rfl
    obtain ⟨_, hr⟩ := (means_text hempty List.not_mem_nil).run_printf {}
    rw [doSyscallEntry_zero]
    exact ⟨_, 0, hr.seq .refl⟩
  by_cases h1 : n = 1
  · subst h1
    obtain ⟨_, hr⟩ := (means_value (m := m) a1.toUInt64).run_printf {}
    rw [doSyscallEntry_one]
    exact ⟨_, 0, hr.seq .refl⟩
  · rw [doSyscallEntry_other h0 h1]
    exact ⟨{}, -1, .refl⟩

end UefiKernel.Console
