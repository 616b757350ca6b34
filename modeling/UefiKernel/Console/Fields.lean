import UefiKernel.Console.Digits

/-!
# UefiKernel.Console.Fields

What `_do_vprintf` emits for one conversion.

`convert` leaves a text and flags, which stand for the field of the argument
(`exists_presents`); `emit` prints the field in its width (`run_emit`).
-/

namespace UefiKernel.Console

open Interact Prog

/-! ## output -/

/-- The sign, or the `0x` of a pointer. -/
def Flags.sign (flags : Flags) : List UInt8 :=
  if flags.pointer then bytes "0x" else if flags.negative then bytes "-" else []

theorem Flags.sign_of_not_signed {flags : Flags} (h : flags.signed = false) : flags.sign = [] := by
  obtain ⟨hpointer, hnegative⟩ := Bool.or_eq_false_iff.mp h
  simp [Flags.sign, hpointer, hnegative]

theorem Flags.toNat_actualWd {flags : Flags} {n : Nat} (h : flags.sign.length + n < 2 ^ 64) :
    (flags.actualWd (UInt64.ofNat n)).toNat = flags.sign.length + n := by
  obtain ⟨pointer, negative, _, _, _, _, _, _⟩ := flags
  cases pointer <;> cases negative <;>
    simp [Flags.actualWd, Flags.signed, Flags.sign, bytes, UInt64.toNat_add] at h ⊢ <;> omega

namespace Machine

variable {m : Machine}

namespace Prints

variable {v : Vars}

theorem putSign (h : v.flags.signed = true) : m.Prints Console.putSign v v v.flags.sign := by
  unfold Flags.sign
  by_cases hp : v.flags.pointer
  · rw [if_pos hp]
    intro g before
    unfold Console.putSign
    rw [if_pos (c := (v.printed before).flags.pointer = true) hp]
    exact (put '0'.toUInt8 v).seq (put 'x'.toUInt8 v) g before
  · have hn : v.flags.negative = true := by simpa [Flags.signed, hp] using h
    rw [if_neg hp, if_pos hn]
    intro g before
    unfold Console.putSign
    rw [if_neg (c := (v.printed before).flags.pointer = true) hp]
    exact put '-'.toUInt8 v g before

/-- The sign, if now is the time for it. -/
theorem putSignIf (now : Flags → Bool) (v : Vars) :
    m.Prints (fun v => Console.putSignIf (v.flags.signed && now v.flags) v) v v
      (if now v.flags then v.flags.sign else []) := by
  by_cases h : (v.flags.signed && now v.flags) = true
  · obtain ⟨hs, hnow⟩ := (Bool.and_eq_true _ _).mp h
    rw [if_pos hnow]
    intro g before
    have hif : Console.putSignIf (v.flags.signed && now v.flags) (v.printed before) =
        Console.putSign (v.printed before) := if_pos h
    have hrun := putSign hs (m := m) g before
    rwa [← hif] at hrun
  · have hnil : (if now v.flags then v.flags.sign else []) = [] := by
      split
      · exact Flags.sign_of_not_signed (by simp_all)
      · rfl
    rw [hnil]
    exact nil fun before => if_neg h

end Prints

/-- The padding on the left, and the width that is left for the right. -/
theorem prints_padLeft (actualWd : UInt64) (v : Vars) : ∃ wd : UInt64,
    wd.toNat - actualWd.toNat = (if v.flags.leftJust then v.givenWd.toNat - actualWd.toNat else 0) ∧
      m.Prints (padLeft actualWd) v { v with givenWd := wd }
        (if v.flags.leftJust then [] else
          List.replicate (v.givenWd.toNat - actualWd.toNat)
            (if v.flags.padLeft0 then '0'.toUInt8 else ' '.toUInt8)) := by
  by_cases hleft : v.flags.leftJust = true
  · rw [if_pos hleft, if_pos hleft]
    exact ⟨v.givenWd, rfl, Prints.nil fun before => if_pos hleft⟩
  · rw [if_neg hleft, if_neg hleft]
    refine ⟨if actualWd < v.givenWd then actualWd else v.givenWd, ?_, fun g before => ?_⟩
    · split
      · exact Nat.sub_self _
      · rename_i h
        rw [UInt64.lt_iff_toNat_lt] at h
        omega
    · unfold padLeft
      rw [if_neg (c := (v.printed before).flags.leftJust = true) hleft]
      exact (Prints.putMany _ _ v g before).seq .refl

theorem prints_padRight (actualWd : UInt64) (v : Vars) :
    m.Prints (padRight actualWd) v { v with givenWd := 0 }
      (List.replicate (v.givenWd.toNat - actualWd.toNat) ' '.toUInt8) := by
  have hwd : (if v.givenWd < actualWd then 0 else v.givenWd - actualWd).toNat =
      v.givenWd.toNat - actualWd.toNat := by
    split
    · rename_i h
      rw [UInt64.lt_iff_toNat_lt] at h
      rw [UInt64.toNat_zero]
      omega
    · rename_i h
      exact UInt64.toNat_sub_of_le _ _ (UInt64.not_lt.mp h)
  rw [← hwd]
  exact fun g before => Prints.putMany _ _ { v with givenWd := 0 } g before

/-- The five texts that `emit` prints are the field in its width. -/
theorem pad_eq {flags : Flags} {f : Field} {zero : Bool} (hsign : flags.sign = f.sign)
    (hzero : flags.padLeft0 = (zero && f.number)) (width : Nat) :
    let fill := width - (f.sign.length + f.body.length)
    f.pad flags.leftJust zero width =
      (if flags.padLeft0 then flags.sign else []) ++
        ((if flags.leftJust then [] else
            List.replicate fill (if flags.padLeft0 then '0'.toUInt8 else ' '.toUInt8)) ++
          ((if !flags.padLeft0 then flags.sign else []) ++
            (f.body ++ List.replicate (if flags.leftJust then fill else 0) ' '.toUInt8))) := by
  unfold Field.pad
  rw [hsign, ← hzero]
  cases flags.leftJust <;> cases flags.padLeft0 <;> simp

/-- What is printed of a field. -/
theorem run_emit {v : Vars} {str : CharPtr} {f : Field} {zero : Bool} (htext : m.HasText str f.body)
    (hsign : v.flags.sign = f.sign) (hzero : v.flags.padLeft0 = (zero && f.number))
    (hlen : f.sign.length + f.body.length < 2 ^ 64) (g : Trace) :
    Run m.env (g, emit v str) (g.print (f.pad v.flags.leftJust zero v.givenWd.toNat),
      ret ({ v with givenWd := 0 }.printed (f.pad v.flags.leftJust zero v.givenWd.toNat))) := by
  rw [← hsign] at hlen
  have hwd := Flags.toNat_actualWd hlen
  rw [hsign] at hwd
  rw [pad_eq hsign hzero, ← hwd]
  obtain ⟨wd, hrest, hleft⟩ :=
    prints_padLeft (m := m) (v.flags.actualWd (UInt64.ofNat f.body.length)) v
  have hright := prints_padRight (m := m) (v.flags.actualWd (UInt64.ofNat f.body.length))
    { v with givenWd := wd }
  rw [hrest] at hright
  refine (run_strlen htext g).seq ?_
  exact ((Prints.putSignIf Flags.padLeft0 v).seq (hleft.seq
    ((Prints.putSignIf (fun flags => !flags.padLeft0) { v with givenWd := wd }).seq
      ((Prints.putString htext _).seq hright)))).run g

/-! ## conversions -/

theorem hasText_lit {text : List UInt8} (h : ∀ ch ∈ text, ch ≠ 0) : m.HasText (.lit text) text := by
  induction text with
  | nil => exact .nil rfl
  | cons ch text ih =>
      refine .cons rfl (h ch List.mem_cons_self) (ih ?_)
      exact fun ch' hch' => h ch' (List.mem_cons_of_mem ch hch')

/-- A text in memory ends before it comes round to its beginning. -/
theorem HasText.length_lt {a : UInt64} {text : List UInt8} (h : m.HasText (.mem a) text) :
    text.length < 2 ^ 64 := by
  refine Nat.lt_of_not_le fun hlen => ?_
  have hi : text.length - 2 ^ 64 < text.length := by omega
  have hbyte : m.mem (a + UInt64.ofNat (text.length - 2 ^ 64)) = _ := h.byte (Nat.le_of_lt hi)
  have hnul : m.mem (a + UInt64.ofNat text.length) = _ := h.byte (Nat.le_refl _)
  have haddr : UInt64.ofNat (text.length - 2 ^ 64) = UInt64.ofNat text.length := by
    apply UInt64.toNat_inj.mp
    simp only [UInt64.toNat_ofNat']
    omega
  rw [haddr, hnul, byteAt_length] at hbyte
  refine h.not_mem ?_
  rw [Option.some.inj hbyte, byteAt_lt hi]
  exact List.getElem_mem hi

/-- What `convert` leaves can be emitted as a field. -/
structure Presents (m : Machine) (conv : Converted) (flags : Flags) (f : Field) : Prop where
  text : m.HasText conv.str f.body
  sign : conv.flags.sign = f.sign
  left : conv.flags.leftJust = flags.leftJust
  zero : conv.flags.padLeft0 = (flags.padLeft0 && f.number)
  length_lt : f.sign.length + f.body.length < 2 ^ 64

/-- A text of the kernel's own. -/
theorem presents_lit {flags flags' : Flags} {args : List UInt64} {f : Field}
    (hlen : f.body.length ≤ 63) (hne : ∀ ch ∈ f.body, ch ≠ 0) (hsign : flags'.sign = f.sign)
    (hleft : flags'.leftJust = flags.leftJust)
    (hzero : flags'.padLeft0 = (flags.padLeft0 && f.number)) :
    m.Presents ⟨flags', .lit f.body, args⟩ flags f where
  text := hasText_lit hne
  sign := hsign
  left := hleft
  zero := hzero
  length_lt := by
    have hs : f.sign.length ≤ 2 := by
      rw [← hsign]
      unfold Flags.sign
      split
      · decide
      · split <;> decide
    omega

end Machine

/-- The conversion of a verb. -/
def Verb.conversion : Verb → Conversion
  | d | i => .d
  | u => .u
  | x => .x
  | X => .X
  | o => .o
  | c => .c
  | s => .s
  | p => .p

theorem Verb.ofChar_char (verb : Verb) : Conversion.ofChar verb.char = some verb.conversion := by
  cases verb <;> decide

/-- `flags` after a modifier. -/
def Flags.modified (flags : Flags) : Option Modifier → Flags
  | none => flags
  | some .hh => { flags with num8 := true }
  | some .h => { flags with num16 := true }
  | some _ => { flags with num64 := true }

/-- A modifier says nothing but the size. -/
theorem Flags.modified_eq (flags : Flags) (modifier : Option Modifier) :
    ∃ num8 num16 num64, flags.modified modifier = { flags with num8, num16, num64 } := by
  rcases modifier with _ | ⟨_ | _ | _ | _ | _ | _ | _⟩ <;> exact ⟨_, _, _, rfl⟩

/-- `flags` of a directive at its conversion character. -/
def Directive.flags (d : Directive) : Flags :=
  Flags.modified { leftJust := d.minuses ≠ 0, padLeft0 := d.zero } d.modifier

theorem Directive.flags_eq (d : Directive) :
    ∃ num8 num16 num64, d.flags =
      { leftJust := d.minuses ≠ 0, padLeft0 := d.zero, num8, num16, num64 } :=
  Flags.modified_eq _ d.modifier

theorem Directive.bits_flags (d : Directive) : d.flags.bits = bitsOf d.modifier := by
  unfold Directive.flags
  rcases d.modifier with _ | ⟨_ | _ | _ | _ | _ | _ | _⟩ <;> rfl

namespace Machine

variable {m : Machine}

/-- A number without a sign. -/
theorem presents_unsigned {flags : Flags} {arg : UInt64} {args : List UInt64} {base : Base}
    {digits : Nat → List UInt8}
    (hbase : base ∈ [.decimal, .bits .octal 0, .bits .hex 0, .bits .hex 16])
    (hdigits : ∀ num : UInt64, base.write num = digits num.toNat)
    (hne : ∀ n, ∀ ch ∈ digits n, ch ≠ 0) (hsign : flags.sign = []) :
    ∃ conv, convertNumber { flags with doSign := false } (arg :: args) base = pure conv ∧
      conv.args = args ∧ m.Presents conv flags ⟨[], digits (arg.toNat % 2 ^ flags.bits), true⟩ := by
  obtain ⟨num, hnarrow, hnum⟩ :=
    narrow_unsigned { flags with doSign := false } rfl arg
  have hbits : { flags with doSign := false }.bits = flags.bits := rfl
  rw [hbits] at hnum
  refine ⟨_, convertNumber_cons .., rfl, ?_⟩
  rw [hnarrow, hdigits, hnum]
  refine presents_lit (f := ⟨[], digits (arg.toNat % 2 ^ flags.bits), true⟩) ?_ (hne _) hsign rfl ?_
  · show (digits _).length ≤ 63
    rw [← hnum, ← hdigits]
    exact length_write hbase num
  · exact (Bool.and_true _).symm

/-- A number with its sign. -/
theorem presents_signed {flags : Flags} {arg : UInt64} {args : List UInt64}
    (hneg : flags.negative = false) (hpointer : flags.pointer = false) :
    ∃ conv, convertNumber { flags with doSign := true } (arg :: args) .decimal = pure conv ∧
      conv.args = args ∧ m.Presents conv flags
        ⟨if (arg.toBitVec.setWidth flags.bits).toInt < 0 then bytes "-" else [],
          digitsOf 10 (arg.toBitVec.setWidth flags.bits).toInt.natAbs, true⟩ := by
  obtain ⟨num, hnarrow, hnum⟩ :=
    narrow_signed { flags with doSign := true } rfl hneg arg
  have hbits : { flags with doSign := true }.bits = flags.bits := rfl
  rw [hbits] at hnarrow hnum
  refine ⟨_, convertNumber_cons .., rfl, ?_⟩
  rw [hnarrow, writeDecimal_eq, ← hnum]
  refine presents_lit (f := ⟨_, digitsOf 10 num.toNat, true⟩) (length_digitsOf (by decide) num)
    (digitsOf_ne_zero (by decide) (by decide) _) ?_ rfl (Bool.and_true _).symm
  simp [Flags.sign, hpointer]

/-- A character. -/
theorem presents_char {flags : Flags} {arg : UInt64} {args : List UInt64}
    (hpointer : flags.pointer = false) (harg : arg.toUInt8 ≠ 0) :
    ∃ conv, convert flags (arg :: args) .c = pure conv ∧ conv.args = args ∧
      m.Presents conv flags ⟨[], [arg.toUInt8], false⟩ := by
  refine ⟨_, rfl, rfl, ?_⟩
  refine presents_lit (f := ⟨[], [arg.toUInt8], false⟩) (by simp) (by simpa using harg) ?_ rfl
    (Bool.and_false _).symm
  simp [Flags.sign, hpointer]

/-- A string, or `(null)`. -/
theorem presents_string {strings : UInt64 → List UInt8} {flags : Flags} {arg : UInt64}
    {args : List UInt64} (hpointer : flags.pointer = false)
    (harg : arg = 0 ∨ m.HasText (.mem arg) (strings arg)) :
    ∃ conv, convert flags (arg :: args) .s = pure conv ∧ conv.args = args ∧
      m.Presents conv flags (Verb.s.field strings flags.bits arg) := by
  by_cases h0 : arg = 0
  · have hfield : Verb.s.field strings flags.bits arg = ⟨[], bytes "(null)", false⟩ := if_pos h0
    rw [hfield]
    refine ⟨_, if_pos h0, rfl, ?_⟩
    refine presents_lit (f := ⟨[], bytes "(null)", false⟩) (by decide)
      (forall_mem_bytes (by decide)) ?_ rfl (Bool.and_false _).symm
    simp [Flags.sign, hpointer]
  · have hfield : Verb.s.field strings flags.bits arg = ⟨[], strings arg, false⟩ := if_neg h0
    have htext : m.HasText (.mem arg) (strings arg) := harg.resolve_left h0
    rw [hfield]
    refine ⟨_, if_neg h0, rfl, ⟨htext, ?_, rfl, (Bool.and_false _).symm, ?_⟩⟩
    · simp [Flags.sign, hpointer]
    · simpa using htext.length_lt

/-- A pointer, or `(nil)`. -/
theorem presents_pointer {strings : UInt64 → List UInt8} {flags : Flags} {arg : UInt64}
    {args : List UInt64} (hpointer : flags.pointer = false) :
    ∃ conv, convert flags (arg :: args) .p = pure conv ∧ conv.args = args ∧
      m.Presents conv flags (Verb.p.field strings flags.bits arg) := by
  by_cases h0 : arg = 0
  · have hfield : Verb.p.field strings flags.bits arg = ⟨[], bytes "(nil)", false⟩ := if_pos h0
    rw [hfield]
    refine ⟨_, if_pos h0, rfl, ?_⟩
    refine presents_lit (f := ⟨[], bytes "(nil)", false⟩) (by decide)
      (forall_mem_bytes (by decide)) ?_ rfl (Bool.and_false _).symm
    simp [Flags.sign, hpointer]
  · have hfield : Verb.p.field strings flags.bits arg =
        ⟨bytes "0x", digitsOf 16 arg.toNat, true⟩ := if_neg h0
    have hlen : ((Base.bits .hex 16).write arg).length ≤ 63 := length_write (by simp) arg
    rw [hfield]
    refine ⟨_, if_neg h0, rfl, ?_⟩
    rw [writeHex_eq] at hlen ⊢
    refine presents_lit (f := ⟨bytes "0x", digitsOf 16 arg.toNat, true⟩) hlen
      (digitsOf_ne_zero (by decide) (by decide) _) ?_ rfl (Bool.and_true _).symm
    simp [Flags.sign]

/-- A conversion leaves the field of its argument. -/
theorem exists_presents {strings : UInt64 → List UInt8} (d : Directive) {arg : UInt64}
    (harg : d.verb.Accepts m strings arg) (args : List UInt64) :
    ∃ conv, convert d.flags (arg :: args) d.verb.conversion = pure conv ∧ conv.args = args ∧
      m.Presents conv d.flags (d.verb.field strings (bitsOf d.modifier) arg) := by
  rw [← d.bits_flags]
  obtain ⟨hneg, hpointer, hsign⟩ : d.flags.negative = false ∧ d.flags.pointer = false ∧
      d.flags.sign = [] := by
    obtain ⟨num8, num16, num64, hflags⟩ := d.flags_eq
    rw [hflags]
    exact ⟨rfl, rfl, rfl⟩
  generalize d.flags = flags at *
  generalize d.verb = verb at *
  cases verb with
  | d | i => exact presents_signed hneg hpointer
  | u =>
      exact presents_unsigned (by simp) writeDecimal_eq
        (digitsOf_ne_zero (by decide) (by decide)) hsign
  | x =>
      exact presents_unsigned (by simp) writeHex_eq
        (digitsOf_ne_zero (by decide) (by decide)) hsign
  | X => exact presents_unsigned (by simp) writeCapitalHex_eq capitalDigitsOf_ne_zero hsign
  | o =>
      exact presents_unsigned (by simp) writeOctal_eq
        (digitsOf_ne_zero (by decide) (by decide)) hsign
  | c => exact presents_char hpointer harg
  | s => exact presents_string hpointer harg
  | p => exact presents_pointer hpointer

end Machine

end UefiKernel.Console
