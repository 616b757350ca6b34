import UefiKernel.Interrupts.Gates
import UefiKernel.PageTable

/-!
# UefiKernel.Interrupts.Descriptors

The descriptor of the task state segment (`load_tss_segment` in
`kerninc/interrupts.h`), and what both kinds of hand-packed descriptors are to
the processor.

The base address of the segment is cut into three pieces, one of which goes to
the top of the first quadword, behind the flags.  Each piece is a field of the
library `Fields` (`toBitVec_tssPieces`), so what the processor reads at a place is
the field that is there (`decode_tssPieces`).
-/

namespace UefiKernel.Interrupts

open Fields Store Store.StoreM

/-! ## `load_tss_segment` -/

/-- `sizeof(tss_segment_t)`: `reserved1`, `rsp[3]`, `reserved2`, `ist[7]`,
`reserved3`, `reserved4` and `iopb_base`. -/
def sizeofTssSegment : Nat := 4 + 3 * 8 + 8 + 7 * 8 + 8 + 2 + 2

/-- `load_tss_segment`, up to the `ltr` of the selector it returns. -/
def loadTssSegment (gdt : UInt64) (selector : UInt16) (tss : UInt64) : TableM UInt16 := do
  let base := tss
  let limit := (sizeofTssSegment - 1).toUInt16
  let tssGdt := gdt + selector.toUInt64
  setEntry tssGdt 0 (((base &&& 0xFF000000) <<< 32) ||| ((1 : UInt64) <<< 47) |||
    ((0x9 : UInt64) <<< 40) ||| ((base &&& 0x00FFFFFF) <<< 16) ||| limit.toUInt64)
  setEntry tssGdt 1 (base >>> 32)
  return selector

/-! ## the processor's reading -/

/-- A system-segment descriptor of two quadwords. -/
structure SystemDescriptor where
  base : UInt64
  limit : BitVec 20
  type : BitVec 4
  system : BitVec 1
  dpl : BitVec 2
  present : BitVec 1
  flags : BitVec 4
  reserved : BitVec 32
  deriving DecidableEq, Repr

def SystemDescriptor.decode (low high : UInt64) : SystemDescriptor where
  base := ⟨high.toBitVec.extractLsb' 0 32 ++
    (low.toBitVec.extractLsb' 56 8 ++ low.toBitVec.extractLsb' 16 24)⟩
  limit := low.toBitVec.extractLsb' 48 4 ++ low.toBitVec.extractLsb' 0 16
  type := low.toBitVec.extractLsb' 40 4
  system := low.toBitVec.extractLsb' 44 1
  dpl := low.toBitVec.extractLsb' 45 2
  present := low.toBitVec.extractLsb' 47 1
  flags := low.toBitVec.extractLsb' 52 4
  reserved := high.toBitVec.extractLsb' 32 32

/-! ## the pieces -/

/-- What the first quadword is put together from. -/
def tssPieces (base : UInt64) (limit : UInt16) : List UInt64 :=
  [(base &&& 0xFF000000) <<< 32, (1 : UInt64) <<< 47, (0x9 : UInt64) <<< 40,
    (base &&& 0x00FFFFFF) <<< 16, limit.toUInt64]

/-- A piece of the base address, cut out and moved, is a field. -/
theorem toBitVec_piece (base : UInt64) (lo n : Nat) {m s : UInt64} {k : Nat}
    (hm : m.toBitVec = mask 64 lo n) (hs : (s.toBitVec % 64).toNat = k) :
    ((base &&& m) <<< s).toBitVec = place 64 (lo + k) (base.toBitVec.extractLsb' lo n) := by
  rw [UInt64.toBitVec_shiftLeft, UInt64.toBitVec_and, BitVec.shiftLeft_eq', hs, hm,
    and_mask_shiftLeft]

/-- Each piece is a field. -/
theorem toBitVec_tssPieces (base : UInt64) (limit : UInt16) :
    (tssPieces base limit).map UInt64.toBitVec =
      [place 64 56 (base.toBitVec.extractLsb' 24 8), place 64 47 1#1, place 64 40 9#4,
        place 64 16 (base.toBitVec.extractLsb' 0 24), place 64 0 limit.toBitVec] := by
  have hhigh := toBitVec_piece base 24 8 (m := 0xFF000000) (s := 32) (k := 32) (by decide) rfl
  have hlow := toBitVec_piece base 0 24 (m := 0x00FFFFFF) (s := 16) (k := 16) (by decide) rfl
  have hpresent : ((1 : UInt64) <<< 47).toBitVec = place 64 47 1#1 := by decide
  have htype : ((0x9 : UInt64) <<< 40).toBitVec = place 64 40 9#4 := by decide
  have hlimit : limit.toUInt64.toBitVec = place 64 0 limit.toBitVec := by
    rw [place, BitVec.shiftLeft_zero]
    rfl
  simp only [tssPieces, List.map_cons, List.map_nil, hhigh, hlow, hpresent, htype, hlimit,
    Nat.reduceAdd]

/-- The pieces lie beside each other. -/
theorem tssPieces_disjoint (base : UInt64) (limit : UInt16) :
    (tssPieces base limit).Pairwise fun x y => x &&& y = 0 := by
  have hdisjoint :
      ((tssPieces base limit).map UInt64.toBitVec).Pairwise fun x y => x &&& y = 0#64 := by
    rw [toBitVec_tssPieces]
    simp (disch := omega) only [List.pairwise_cons, List.forall_mem_cons, place_and_place,
      List.Pairwise.nil, List.not_mem_nil, false_imp_iff, implies_true, and_self]
  rw [List.pairwise_map] at hdisjoint
  refine hdisjoint.imp ?_
  intro x y hxy
  rw [← UInt64.toBitVec_inj, UInt64.toBitVec_and]
  exact hxy

/-- A word put together from pieces, by its bits. -/
theorem toBitVec_foldl_or (l : List UInt64) (x : UInt64) :
    (l.foldl (· ||| ·) x).toBitVec = (l.map UInt64.toBitVec).foldl (· ||| ·) x.toBitVec := by
  induction l generalizing x with
  | nil => rfl
  | cons y l ih => exact ih (x ||| y)

/-- What the processor reads where the pieces and the upper half of the base are. -/
theorem decode_tssPieces (base : UInt64) (limit : UInt16) :
    SystemDescriptor.decode ((tssPieces base limit).foldl (· ||| ·) 0) (base >>> 32) =
      { base := base, limit := 0#4 ++ limit.toBitVec, type := 9, system := 0, dpl := 0,
        present := 1, flags := 0, reserved := 0 } := by
  have hupper : (base >>> 32).toBitVec = base.toBitVec >>> 32 := rfl
  have hlow : base.toBitVec.extractLsb' 24 8 ++ base.toBitVec.extractLsb' 0 24 =
      base.toBitVec.extractLsb' 0 32 := BitVec.extractLsb'_append_extractLsb'_eq_extractLsb' rfl
  have hbase : base.toBitVec.extractLsb' 32 32 ++ base.toBitVec.extractLsb' 0 32 =
      base.toBitVec.extractLsb' 0 64 := BitVec.extractLsb'_append_extractLsb'_eq_extractLsb' rfl
  have hreserved : base.toBitVec.extractLsb' 64 32 = 0#32 := extractLsb'_of_le _ (by decide)
  simp only [SystemDescriptor.decode, toBitVec_foldl_or, toBitVec_tssPieces, List.foldl_cons,
    List.foldl_nil, BitVec.extractLsb'_or, hupper, extractLsb'_ushiftRight]
  -- each slice is one field, beside the others
  simp (disch := omega) only [extractLsb'_place, extractLsb'_place_of_apart, UInt64.toBitVec_zero,
    BitVec.extractLsb'_zero, BitVec.zero_or, BitVec.or_zero]
  simp only [hlow, hbase, hreserved, BitVec.extractLsb'_eq_self]
  rfl

/-! ## both kinds of descriptors -/

/-- `set_idt_entry` makes a gate of what it is passed, and touches no other. -/
structure GateExact (entryNum : UInt8) (addr : UInt64) (selector : UInt16) (typeAttr : UInt8)
    (s : IdtState) : Prop where
  decoded : Gate.decode ((setIdtEntry entryNum addr selector typeAttr s).idt entryNum).image =
    { offset := addr, selector := selector, ist := 0, attr := typeAttr, reserved := 0 }
  others : ∀ v, v ≠ entryNum → (setIdtEntry entryNum addr selector typeAttr s).idt v = s.idt v

/-- `load_tss_segment` stores two quadwords that describe an available task state
segment at `base`; the pieces of the first have no bit in common. -/
structure TssExact (gdt : UInt64) (selector : UInt16) (base : UInt64) (m : PhysMem) : Prop where
  decoded : ∃ low high,
    (loadTssSegment gdt selector base m).2 =
      [((entryPtr (gdt + selector.toUInt64) 0).toNat, low),
        ((entryPtr (gdt + selector.toUInt64) 1).toNat, high)] ∧
    SystemDescriptor.decode low high =
      { base := base, limit := BitVec.ofNat 20 (sizeofTssSegment - 1), type := 9, system := 0,
        dpl := 0, present := 1, flags := 0, reserved := 0 } ∧
    low = (tssPieces base (sizeofTssSegment - 1).toUInt16).foldl (· ||| ·) 0
  disjoint : (tssPieces base (sizeofTssSegment - 1).toUInt16).Pairwise fun x y => x &&& y = 0

/-- The first quadword that is stored is put together from the pieces. -/
theorem run_loadTssSegment (gdt : UInt64) (selector : UInt16) (base : UInt64) (m : PhysMem) :
    (loadTssSegment gdt selector base m).2 =
      [((entryPtr (gdt + selector.toUInt64) 0).toNat,
          (tssPieces base (sizeofTssSegment - 1).toUInt16).foldl (· ||| ·) 0),
        ((entryPtr (gdt + selector.toUInt64) 1).toNat, base >>> 32)] := by
  simp only [tssPieces, List.foldl_cons, List.foldl_nil, UInt64.zero_or]
  rfl

/-- **The descriptors decode to what was meant**, for every address. -/
theorem descriptors_exact :
    (∀ entryNum addr selector typeAttr s, GateExact entryNum addr selector typeAttr s) ∧
      ∀ gdt selector base m, TssExact gdt selector base m := by
  constructor
  · intro entryNum addr selector typeAttr s
    refine ⟨?_, fun v hv => Function.update_of_ne hv _ _⟩
    rw [setIdtEntry_idt, Function.update_self, decode_idtEntry]
  · intro gdt selector base m
    refine ⟨⟨_, _, run_loadTssSegment gdt selector base m, ?_, rfl⟩, tssPieces_disjoint base _⟩
    rw [decode_tssPieces]
    rfl

end UefiKernel.Interrupts
