import Mathlib.Algebra.Group.Nat.Defs
import UefiKernel.Console.Machine

/-!
# UefiKernel.Console.Format

The format language that `printf.c` documents, and what it stands for.

A format is a list of items: plain bytes, `%%`, and directives.  A directive
shows its argument in a field: a sign or `0x`, and a text, which is extended to
the width.  All numbers are mathematical ones here.  A zero in front of a width
is the flag, so that every directive is written in one way only.
-/

namespace UefiKernel.Console

/-! ## syntax -/

/-- `mod`. -/
inductive Modifier
  | hh
  | h
  | l
  | ll
  | L
  | z
  | t
  deriving DecidableEq, Repr

def Modifier.text : Modifier → List UInt8
  | hh => bytes "hh"
  | h => bytes "h"
  | l => bytes "l"
  | ll => bytes "ll"
  | L => bytes "L"
  | z => bytes "z"
  | t => bytes "t"

/-- The text of a modifier, where there is one. -/
def modifierText : Option Modifier → List UInt8
  | none => []
  | some modifier => modifier.text

/-- `conv`. -/
inductive Verb
  | d
  | i
  | u
  | x
  | X
  | o
  | c
  | s
  | p
  deriving DecidableEq, Repr

def Verb.char : Verb → UInt8
  | d => 'd'.toUInt8
  | i => 'i'.toUInt8
  | u => 'u'.toUInt8
  | x => 'x'.toUInt8
  | X => 'X'.toUInt8
  | o => 'o'.toUInt8
  | c => 'c'.toUInt8
  | s => 's'.toUInt8
  | p => 'p'.toUInt8

/-- The number with the given digits, after those of `n`. -/
def decimalFrom (n : Nat) (digits : List UInt8) : Nat :=
  digits.foldl (fun n ch => 10 * n + (ch.toNat - '0'.toNat)) n

/-- A directive: `minuses` times the flag `-`, the flag `0`, the width, the
modifier and the conversion. -/
structure Directive where
  minuses : Nat
  zero : Bool
  digits : List UInt8
  modifier : Option Modifier
  verb : Verb
  digits_ok : ∀ ch ∈ digits, isDigit ch = true
  zero_first : zero = false → digits.head? ≠ some '0'.toUInt8
  width_lt : decimalFrom 0 digits < 2 ^ 64

namespace Directive

def width (d : Directive) : Nat := decimalFrom 0 d.digits

/-- What follows the `-` flags. -/
def tail (d : Directive) : List UInt8 :=
  (if d.zero then ['0'.toUInt8] else []) ++
    (d.digits ++ (modifierText d.modifier ++ [d.verb.char]))

def text (d : Directive) : List UInt8 :=
  '%'.toUInt8 :: (List.replicate d.minuses '-'.toUInt8 ++ d.tail)

end Directive

/-- What a format is made of. -/
inductive Item
  | byte (ch : UInt8) (h : ch ≠ 0 ∧ ch ≠ '%'.toUInt8)
  | percent
  | directive (d : Directive)

def Item.text : Item → List UInt8
  | byte ch _ => [ch]
  | percent => bytes "%%"
  | directive d => d.text

/-! ## meaning -/

/-- A field: a sign or prefix, and a text that zeros may be put in front of, if
it is a number. -/
structure Field where
  sign : List UInt8
  body : List UInt8
  number : Bool

/-- The field extended to the width. -/
def Field.pad (f : Field) (left zero : Bool) (width : Nat) : List UInt8 :=
  let fill := width - (f.sign.length + f.body.length)
  if left then f.sign ++ f.body ++ List.replicate fill ' '.toUInt8
  else if zero && f.number then f.sign ++ List.replicate fill '0'.toUInt8 ++ f.body
  else List.replicate fill ' '.toUInt8 ++ f.sign ++ f.body

theorem Field.length_pad (f : Field) (left zero : Bool) (width : Nat) :
    (f.pad left zero width).length = max width (f.sign.length + f.body.length) := by
  unfold Field.pad
  split
  · simp only [List.length_append, List.length_replicate]
    omega
  · split <;>
    · simp only [List.length_append, List.length_replicate]
      omega

/-- The digits of a number. -/
def digitsOf (base n : Nat) : List UInt8 := (Nat.toDigits base n).map Char.toUInt8

/-- The same with capital letters. -/
def capitalDigitsOf (base n : Nat) : List UInt8 :=
  (Nat.toDigits base n).map fun ch => ch.toUpper.toUInt8

/-- How many bits of an argument are shown. -/
def bitsOf : Option Modifier → Nat
  | none => 32
  | some .hh => 8
  | some .h => 16
  | some _ => 64

/-- What is shown of an argument; `strings` are the texts that pointers lead
to. -/
def Verb.field (strings : UInt64 → List UInt8) (bits : Nat) (arg : UInt64) : Verb → Field
  | d | i =>
      let n := (arg.toBitVec.setWidth bits).toInt
      ⟨if n < 0 then bytes "-" else [], digitsOf 10 n.natAbs, true⟩
  | u => ⟨[], digitsOf 10 (arg.toNat % 2 ^ bits), true⟩
  | x => ⟨[], digitsOf 16 (arg.toNat % 2 ^ bits), true⟩
  | X => ⟨[], capitalDigitsOf 16 (arg.toNat % 2 ^ bits), true⟩
  | o => ⟨[], digitsOf 8 (arg.toNat % 2 ^ bits), true⟩
  | c => ⟨[], [arg.toUInt8], false⟩
  | s => if arg = 0 then ⟨[], bytes "(null)", false⟩ else ⟨[], strings arg, false⟩
  | p => if arg = 0 then ⟨[], bytes "(nil)", false⟩ else ⟨bytes "0x", digitsOf 16 arg.toNat, true⟩

/-- What a directive prints. -/
def Directive.render (strings : UInt64 → List UInt8) (d : Directive) (arg : UInt64) : List UInt8 :=
  (d.verb.field strings (bitsOf d.modifier) arg).pad (d.minuses ≠ 0) d.zero d.width

/-- A directive prints its field, and no less than its width. -/
theorem Directive.length_render (strings : UInt64 → List UInt8) (d : Directive) (arg : UInt64) :
    (d.render strings arg).length =
      max d.width ((d.verb.field strings (bitsOf d.modifier) arg).sign.length +
        (d.verb.field strings (bitsOf d.modifier) arg).body.length) :=
  Field.length_pad ..

/-- What a format prints. -/
def render (strings : UInt64 → List UInt8) : List Item → List UInt64 → List UInt8
  | [], _ => []
  | .byte ch _ :: items, args => ch :: render strings items args
  | .percent :: items, args => '%'.toUInt8 :: render strings items args
  | .directive d :: items, arg :: args => d.render strings arg ++ render strings items args
  | .directive _ :: items, [] => render strings items []

/-- An argument that a conversion is for: a character is not NUL, and a pointer
to a string leads to its text. -/
def Verb.Accepts (m : Machine) (strings : UInt64 → List UInt8) (arg : UInt64) : Verb → Prop
  | c => arg.toUInt8 ≠ 0
  | s => arg = 0 ∨ m.HasText (.mem arg) (strings arg)
  | _ => True

/-- There is an argument for each directive. -/
def Matches (m : Machine) (strings : UInt64 → List UInt8) : List Item → List UInt64 → Prop
  | [], _ => True
  | .byte _ _ :: items, args | .percent :: items, args => Matches m strings items args
  | .directive d :: items, arg :: args =>
      d.verb.Accepts m strings arg ∧ Matches m strings items args
  | .directive _ :: _, [] => False

/-- A text without `%` means itself, whatever follows it. -/
theorem exists_plain_items_append {text : List UInt8} (h0 : 0 ∉ text)
    (hpercent : '%'.toUInt8 ∉ text) : ∃ items, items.flatMap Item.text = text ∧
      (∀ strings rest args,
        render strings (items ++ rest) args = text ++ render strings rest args) ∧
      ∀ m strings rest args, Matches m strings (items ++ rest) args ↔
        Matches m strings rest args := by
  induction text with
  | nil => exact ⟨[], rfl, fun _ _ _ => rfl, fun _ _ _ _ => .rfl⟩
  | cons ch text ih =>
      rw [List.mem_cons, not_or] at h0 hpercent
      obtain ⟨items, htext, hrender, hmatches⟩ := ih h0.2 hpercent.2
      refine ⟨.byte ch ⟨Ne.symm h0.1, Ne.symm hpercent.1⟩ :: items, ?_, ?_, hmatches⟩
      · rw [List.flatMap_cons, htext, Item.text, List.singleton_append]
      · intro strings rest args
        rw [List.cons_append, render, hrender, List.cons_append]

/-- A text without `%` is a format that means itself. -/
theorem exists_plain_items (m : Machine) (strings : UInt64 → List UInt8) {text : List UInt8}
    (h0 : 0 ∉ text) (hpercent : '%'.toUInt8 ∉ text) : ∃ items, items.flatMap Item.text = text ∧
      render strings items [] = text ∧ Matches m strings items [] := by
  obtain ⟨items, htext, hrender, hmatches⟩ := exists_plain_items_append h0 hpercent
  have hall := hrender strings [] []
  have hargs := (hmatches m strings [] []).mpr trivial
  rw [List.append_nil] at hargs
  rw [List.append_nil, render, List.append_nil] at hall
  exact ⟨items, htext, hall, hargs⟩

end UefiKernel.Console
