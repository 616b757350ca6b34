import UefiKernel.Lib.Interact

/-!
# UefiKernel.Console.Printf

The kernel's formatter, `_do_vprintf` of `printf.c`, and its callers.

The formatter is an interactive program: each byte it reads through one of its
pointers, each argument it fetches with `va_arg` and each byte it passes to
the output function is an event.

The body of `for (; *fmt; fmt++) switch (state)` is cut at the labels that
fall through into each other: `awaitPercent`, `awaitFlags`, `awaitWidth`,
`awaitModifier` and `awaitConversion` are the five cases, each called with the
byte `*fmt`.
-/

namespace UefiKernel.Console

open Interact Prog

/-! ## events -/

/-- The pointer a byte is read through. -/
inductive Via
  | fmt
  | string
  deriving DecidableEq, Repr

inductive PrintEvent
  | load (via : Via) (p : UInt64)
  | vaArg
  | fn (ch : UInt8)
  deriving DecidableEq, Repr

abbrev PrintEvent.Answer : PrintEvent → Type
  | load _ _ => UInt8
  | vaArg => UInt64
  | fn _ => Unit

abbrev PrintM := Prog PrintEvent PrintEvent.Answer

/-- A `const char *`; for a text of the kernel's own, what is left of it in
front of its NUL. -/
inductive CharPtr
  | mem (p : UInt64)
  | lit (text : List UInt8)
  deriving DecidableEq, Repr

/-- `*p`. -/
def CharPtr.deref (via : Via) : CharPtr → PrintM UInt8
  | mem p => req (PrintEvent.load via p)
  | lit text => pure (text.headD 0)

/-- `p + 1`. -/
def CharPtr.next : CharPtr → CharPtr
  | mem p => mem (p + 1)
  | lit text => lit text.tail

/-- `va_arg`: the next argument, and those left. -/
def vaArg : List UInt64 → PrintM (UInt64 × List UInt64)
  | arg :: args => pure (arg, args)
  | [] => do
      let arg ← req PrintEvent.vaArg
      return (arg, [])

def fn (ch : UInt8) : PrintM Unit := req (PrintEvent.fn ch)

/-- The bytes of a literal. -/
def bytes (s : String) : List UInt8 := s.toList.map Char.toUInt8

/-- A fact about the bytes of a literal is checked byte by byte. -/
theorem forall_mem_bytes {s : String} {P : UInt8 → Prop} [DecidablePred P]
    (h : (bytes s).all (fun ch => decide (P ch)) = true) : ∀ ch ∈ bytes s, P ch := by
  simpa only [List.all_eq_true, decide_eq_true_eq] using h

/-! ## state -/

/-- `flags`, one field a bit. -/
structure Flags where
  pointer : Bool := false
  negative : Bool := false
  leftJust : Bool := false
  padLeft0 : Bool := false
  doSign : Bool := false
  num8 : Bool := false
  num16 : Bool := false
  num64 : Bool := false
  deriving DecidableEq, Repr

/-- `state`. -/
inductive PrState
  | percent
  | flags
  | width
  | modifier
  | conversion
  deriving DecidableEq, Repr

/-- The local variables of `_do_vprintf`. -/
structure Vars where
  fmt : CharPtr
  args : List UInt64 := []
  state : PrState := .percent
  flags : Flags := {}
  givenWd : UInt64 := 0
  count : UInt64 := 0
  deriving DecidableEq, Repr

/-- `state = flags = given_wd = 0`. -/
def Vars.reset (v : Vars) : Vars := { v with state := .percent, flags := {}, givenWd := 0 }

/-- `fn(ch, ptr); count++`. -/
def Vars.put (v : Vars) (ch : UInt8) : PrintM Vars := do
  fn ch
  return { v with count := v.count + 1 }

/-- `n` times `fn(ch, ptr); count++`. -/
def Vars.putMany (ch : UInt8) : Nat → Vars → PrintM Vars
  | 0, v => pure v
  | n + 1, v => do
      let v ← v.put ch
      Vars.putMany ch n v

/-! ## numbers -/

/-- `HexDigits`. -/
def hexDigits : List UInt8 := bytes "0123456789ABCDEF0123456789abcdef"

/-- `write_uword_base10`: the digits in front of the text at `where`. -/
def writeUwordBase10 (num : UInt64) (text : List UInt8) : List UInt8 :=
  let temp := num % 10
  let text := (temp.toUInt8 + 0x30) :: text
  if _h : num / 10 ≠ 0 then writeUwordBase10 (num / 10) text else text
termination_by num.toNat
decreasing_by
  have hne : (num / 10).toNat ≠ 0 := fun h0 => _h (UInt64.toNat_inj.mp h0)
  rw [UInt64.toNat_div] at *
  simp only [UInt64.reduceToNat] at *
  omega

/-- The two bases whose digits are bits of the number. -/
inductive BitBase
  | octal
  | hex
  deriving DecidableEq, Repr

def BitBase.shift : BitBase → UInt64
  | octal => 3
  | hex => 4

/-- The loop for octal and hexadecimal digits; `digits` is where in `HexDigits`
they start. -/
def writeBits (base : BitBase) (digits : Nat) (num : UInt64) (text : List UInt8) : List UInt8 :=
  let mask := (1 <<< base.shift) - 1
  let temp := num &&& mask
  let text := hexDigits.getD (digits + temp.toNat) 0 :: text
  if _h : num >>> base.shift ≠ 0 then writeBits base digits (num >>> base.shift) text else text
termination_by num.toNat
decreasing_by
  have hne : (num >>> base.shift).toNat ≠ 0 := fun h0 => _h (UInt64.toNat_inj.mp h0)
  cases base <;>
    simp only [BitBase.shift, UInt64.toNat_shiftRight, UInt64.reduceToNat, Nat.reduceMod,
      Nat.shiftRight_eq_div_pow, Nat.reducePow] at * <;>
    omega

/-- How the digits of a number are written. -/
inductive Base
  | decimal
  | bits (base : BitBase) (digits : Nat)
  deriving DecidableEq, Repr

/-- `DO_NUM_OUT`. -/
def Base.write : Base → UInt64 → List UInt8
  | decimal, num => writeUwordBase10 num []
  | bits base digits, num => writeBits base digits num []

/-- `DO_NUM`: narrow the argument and take off its sign. -/
def narrow (flags : Flags) (arg : UInt64) : Flags × UInt64 :=
  if flags.doSign then
    let snum : Int64 :=
      if flags.num64 then arg.toInt64
      else if flags.num16 then arg.toUInt16.toInt16.toInt64
      else if flags.num8 then arg.toUInt8.toInt8.toInt64
      else arg.toUInt32.toInt32.toInt64
    if snum < 0 then ({ flags with negative := true }, (-snum).toUInt64)
    else (flags, snum.toUInt64)
  else
    let num : UInt64 :=
      if flags.num64 then arg
      else if flags.num16 then arg.toUInt16.toUInt64
      else if flags.num8 then arg.toUInt8.toUInt64
      else arg.toUInt32.toUInt64
    (flags, num)

/-! ## conversions -/

/-- The characters of `switch (*fmt)`. -/
inductive Conversion
  | p
  | x
  | X
  | d
  | u
  | o
  | c
  | s
  deriving DecidableEq, Repr

/-- `d` and `i` are one case; everything else is bogus. -/
def Conversion.ofChar (ch : UInt8) : Option Conversion :=
  if ch = 'p'.toUInt8 then some p
  else if ch = 'x'.toUInt8 then some x
  else if ch = 'X'.toUInt8 then some X
  else if ch = 'd'.toUInt8 ∨ ch = 'i'.toUInt8 then some d
  else if ch = 'u'.toUInt8 then some u
  else if ch = 'o'.toUInt8 then some o
  else if ch = 'c'.toUInt8 then some c
  else if ch = 's'.toUInt8 then some s
  else none

/-- What a conversion leaves: the flags, `where` and the arguments left. -/
structure Converted where
  flags : Flags
  str : CharPtr
  args : List UInt64

/-- A numeric conversion: fetch the argument and write its digits. -/
def convertNumber (flags : Flags) (args : List UInt64) (base : Base) : PrintM Converted := do
  let (arg, args) ← vaArg args
  let (flags, num) := narrow flags arg
  return { flags, str := .lit (base.write num), args }

/-- Fetch the argument of a conversion and set `where`. -/
def convert (flags : Flags) (args : List UInt64) : Conversion → PrintM Converted
  | .p => do
      let flags := { flags with
        doSign := false, negative := false, num8 := false, num16 := false, num64 := true }
      let (num, args) ← vaArg args
      if num = 0 then
        return { flags := { flags with padLeft0 := false }, str := .lit (bytes "(nil)"), args }
      return {
        flags := { flags with pointer := true }, str := .lit ((Base.bits .hex 16).write num), args }
  | .x => convertNumber { flags with doSign := false } args (.bits .hex 16)
  | .X => convertNumber { flags with doSign := false } args (.bits .hex 0)
  | .d => convertNumber { flags with doSign := true } args .decimal
  | .u => convertNumber { flags with doSign := false } args .decimal
  | .o => convertNumber { flags with doSign := false } args (.bits .octal 0)
  | .c => do
      let (arg, args) ← vaArg args
      let flags := { flags with doSign := false, negative := false, padLeft0 := false }
      return { flags, str := .lit [arg.toUInt8], args }
  | .s => do
      let (str, args) ← vaArg args
      let flags := { flags with doSign := false, negative := false, padLeft0 := false }
      if str = 0 then
        return { flags, str := .lit (bytes "(null)"), args }
      return { flags, str := .mem str, args }

/-- `strlen`. -/
def strlen (str : CharPtr) : PrintM UInt64 :=
  loop (fun (cur, n) => do
    let ch ← cur.deref .string
    if ch ≠ 0 then
      return .inl (cur.next, n + 1)
    return .inr n) (str, 0)

/-- `for (; *where != '\0'; where++) { fn(*where, ptr); count++; }`. -/
def putString (str : CharPtr) (v : Vars) : PrintM Vars :=
  loop (fun (cur, v) => do
    let ch ← cur.deref .string
    if ch ≠ 0 then
      let v ← Vars.put v ch
      return .inl (cur.next, v)
    return .inr v) (str, v)

/-- The sign, or the `0x` of a pointer. -/
def putSign (v : Vars) : PrintM Vars :=
  if v.flags.pointer then do
    let v ← v.put '0'.toUInt8
    v.put 'x'.toUInt8
  else v.put '-'.toUInt8

/-- `flags & (PR_POINTER | PR_NEGATIVE)`. -/
def Flags.signed (flags : Flags) : Bool := flags.pointer || flags.negative

/-- `actual_wd`, with the sign or the `0x`. -/
def Flags.actualWd (flags : Flags) (length : UInt64) : UInt64 :=
  if flags.signed then length + (1 + if flags.pointer then 1 else 0) else length

/-- Pad on the left with spaces or zeroes (for right justify). -/
def padLeft (actualWd : UInt64) (v : Vars) : PrintM Vars := do
  if v.flags.leftJust then
    return v
  let pad := if v.flags.padLeft0 then '0'.toUInt8 else ' '.toUInt8
  let v ← Vars.putMany pad (v.givenWd.toNat - actualWd.toNat) v
  return { v with givenWd := if actualWd < v.givenWd then actualWd else v.givenWd }

/-- Pad on the right with spaces (for left justify). -/
def padRight (actualWd : UInt64) (v : Vars) : PrintM Vars :=
  let givenWd := if v.givenWd < actualWd then 0 else v.givenWd - actualWd
  Vars.putMany ' '.toUInt8 givenWd.toNat { v with givenWd := 0 }

def putSignIf (now : Bool) (v : Vars) : PrintM Vars := if now then putSign v else pure v

/-- Emit the formatted string: the sign comes before zeroes and after spaces. -/
def emit (v : Vars) (str : CharPtr) : PrintM Vars := do
  let length ← strlen str
  let actualWd := v.flags.actualWd length
  let v ← putSignIf (v.flags.signed && v.flags.padLeft0) v
  let v ← padLeft actualWd v
  let v ← putSignIf (v.flags.signed && !v.flags.padLeft0) v
  let v ← putString str v
  padRight actualWd v

/-! ## the five cases -/

/-- `case 4`, awaiting the conversion character; a bogus one is copied. -/
def awaitConversion (v : Vars) (ch : UInt8) : PrintM Vars := do
  match Conversion.ofChar ch with
  | some conversion =>
      let conv ← convert v.flags v.args conversion
      let v ← emit { v with flags := conv.flags, args := conv.args } conv.str
      return v.reset
  | none =>
      let v ← v.put ch
      return v.reset

/-- `case 3`, awaiting modifier characters. -/
def awaitModifier (v : Vars) (ch : UInt8) : PrintM Vars := do
  let set (flags : Flags) (fmt : CharPtr) : Vars := { v with state := .modifier, flags, fmt }
  if ch = 'z'.toUInt8 ∨ ch = 't'.toUInt8 then
    return set { v.flags with num64 := true } v.fmt
  if ch = 'l'.toUInt8 then
    let ahead ← v.fmt.next.deref .fmt
    if ahead = 'l'.toUInt8 then
      return set { v.flags with num64 := true } v.fmt.next
    return set { v.flags with num64 := true } v.fmt
  if ch = 'L'.toUInt8 then
    return set { v.flags with num64 := true } v.fmt
  if ch = 'h'.toUInt8 then
    let ahead ← v.fmt.next.deref .fmt
    if ahead = 'h'.toUInt8 then
      return set { v.flags with num8 := true } v.fmt.next
    return set { v.flags with num16 := true } v.fmt
  awaitConversion { v with state := .conversion } ch

/-- `case 2`, awaiting the field width. -/
def awaitWidth (v : Vars) (ch : UInt8) : PrintM Vars :=
  if '0'.toUInt8 ≤ ch ∧ ch ≤ '9'.toUInt8 then
    pure { v with state := .width, givenWd := 10 * v.givenWd + (ch - '0'.toUInt8).toUInt64 }
  else awaitModifier { v with state := .modifier } ch

/-- `case 1`, awaiting flags. -/
def awaitFlags (v : Vars) (ch : UInt8) : PrintM Vars := do
  if ch = '%'.toUInt8 then
    let v ← v.put ch
    return { v with state := .percent }
  if ch = '-'.toUInt8 then
    return { v with state := .flags, flags := { v.flags with leftJust := true } }
  if ch = '0'.toUInt8 then
    -- '0' could be flag or field width
    let v := { v with
      fmt := v.fmt.next, state := .width, flags := { v.flags with padLeft0 := true }, givenWd := 0 }
    let ch ← v.fmt.deref .fmt
    awaitWidth v ch
  else
    awaitWidth { v with state := .width, givenWd := 0 } ch

/-- `case 0`, awaiting '%'. -/
def awaitPercent (v : Vars) (ch : UInt8) : PrintM Vars := do
  if ch ≠ '%'.toUInt8 then
    v.put ch
  else
    let v := { v with fmt := v.fmt.next, state := .flags, flags := {} }
    let ch ← v.fmt.deref .fmt
    awaitFlags v ch

/-- The body of the loop: `switch (state)` at the byte `*fmt`. -/
def switch (v : Vars) (ch : UInt8) : PrintM Vars :=
  match v.state with
  | .percent => awaitPercent v ch
  | .flags => awaitFlags v ch
  | .width => awaitWidth v ch
  | .modifier => awaitModifier v ch
  | .conversion => awaitConversion v ch

/-- One turn of `for (; *fmt; fmt++) switch (state)`. -/
def vprintfStep (v : Vars) : PrintM (Vars ⊕ UInt64) := do
  let ch ← v.fmt.deref .fmt
  if ch = 0 then
    return .inr v.count
  let v ← switch v ch
  return .inl { v with fmt := v.fmt.next }

/-- `_do_vprintf`. -/
def doVprintfBody (fmt : CharPtr) (args : List UInt64) : PrintM UInt64 :=
  loop vprintfStep { fmt, args }

/-- `do_vprintf`: the output ends with a NUL. -/
def doVprintf (fmt : CharPtr) (args : List UInt64) : PrintM UInt64 := do
  let count ← doVprintfBody fmt args
  fn 0
  return count

/-- `printf`, with `fb_output` for the output function. -/
def printf (fmt : CharPtr) (args : List UInt64) : PrintM UInt64 := doVprintf fmt args

/-- `do_syscall_entry`.  A user's string is the format, with no argument
passed. -/
def doSyscallEntry (n a1 _a2 _a3 _a4 _a5 : Int64) : PrintM Int64 := do
  if n = 0 then
    let _ ← printf (.mem a1.toUInt64) []
  else if n = 1 then
    let _ ← printf (.lit (bytes "The passed variable has the following value: %d \n"))
      [a1.toUInt64]
  else
    return -1
  return 0

end UefiKernel.Console
