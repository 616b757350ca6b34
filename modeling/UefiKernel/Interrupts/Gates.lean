import Mathlib.Logic.Function.Basic
import UefiKernel.Lib.Fields

/-!
# UefiKernel.Interrupts.Gates

The interrupt descriptor table (`idt_init` and `set_idt_entry` in `kernel.c`,
the same in the second kernel and the last).

An entry is a packed structure of seven fields; to the processor it is a gate of
128 bits, of which the handler's address takes three places.  `Gate.decode` is
the processor's reading; `decode_image` says that it undoes what
`set_idt_entry` does to an address.
-/

namespace UefiKernel.Interrupts

open Fields

/-! ## the table -/

/-- `idt_entry_t`. -/
structure IdtEntry where
  offset1 : UInt16
  selector : UInt16
  ist : UInt8
  typeAttr : UInt8
  offset2 : UInt16
  offset3 : UInt32
  reserved : UInt32
  deriving DecidableEq, Repr

/-- `sizeof(idt_entry_t)`. -/
def sizeofIdtEntry : Nat := 2 + 2 + 1 + 1 + 2 + 4 + 4

/-- `idt_pointer_t`. -/
structure IdtPointer where
  limit : UInt16
  base : UInt64
  deriving DecidableEq, Repr

/-- The table, its pointer, and what `lidt` and `sti` set in the processor. -/
structure IdtState where
  idt : UInt8 → IdtEntry
  idtPtr : IdtPointer
  idtr : IdtPointer
  interruptFlag : Bool

/-- The addresses that the entry code stores for `idt_init`. -/
structure Handlers where
  defaultInterruptHandlerPtr : UInt64
  pageFaultHandlerPtr : UInt64
  apicHandlerPtr : UInt64
  deriving DecidableEq, Repr

def idtTableSize : Nat := 256

def numCpuExceptions : Nat := 32

def pageFaultIdtIndex : UInt8 := 14

def apicInterruptEntry : UInt8 := 0x20

/-- What `set_idt_entry` puts into an entry. -/
def idtEntry (addr : UInt64) (selector : UInt16) (typeAttr : UInt8) : IdtEntry where
  offset1 := addr.toUInt16 &&& 0xFFFF
  selector := selector
  ist := 0
  typeAttr := typeAttr
  offset2 := ((addr >>> 16) &&& 0xFFFF).toUInt16
  offset3 := ((addr >>> 32) &&& 0xFFFFFFFF).toUInt32
  reserved := 0

def setIdtEntry (entryNum : UInt8) (addr : UInt64) (selector : UInt16) (typeAttr : UInt8)
    (s : IdtState) : IdtState :=
  { s with idt := Function.update s.idt entryNum (idtEntry addr selector typeAttr) }

/-- `load_idt(&idt_ptr)`. -/
def loadIdt (s : IdtState) : IdtState := { s with idtr := s.idtPtr, interruptFlag := true }

/-- `for (int i = lo; i < hi; i++)`, setting entry `i`. -/
def setIdtEntries (lo hi : Nat) (addr : UInt64) (selector : UInt16) (typeAttr : UInt8)
    (s : IdtState) : IdtState :=
  (List.range' lo (hi - lo)).foldl (fun s i => setIdtEntry i.toUInt8 addr selector typeAttr s) s

/-- `idt_init`, with the table at `idtAddr`. -/
def idtInit (idtAddr : UInt64) (h : Handlers) (s : IdtState) : IdtState :=
  let idtPtr : IdtPointer :=
    { base := idtAddr, limit := (sizeofIdtEntry * idtTableSize - 1).toUInt16 }
  let s := { s with idtPtr := idtPtr }
  let s := setIdtEntries 0 numCpuExceptions h.defaultInterruptHandlerPtr 0x8 0x8E s
  -- "Initialize all other IDT entries to point to addr 0x0ULL."
  let s := setIdtEntries numCpuExceptions idtTableSize 0 0x8 0x8E s
  let s := setIdtEntry pageFaultIdtIndex h.pageFaultHandlerPtr 0x8 0x8E s
  let s := setIdtEntry apicInterruptEntry h.apicHandlerPtr 0x8 0x8E s
  loadIdt s

/-! ## the processor's reading -/

/-- The entry in memory, as a word of 128 bits. -/
def IdtEntry.image (e : IdtEntry) : BitVec 128 :=
  e.reserved.toBitVec ++ (e.offset3.toBitVec ++ (e.offset2.toBitVec ++ (e.typeAttr.toBitVec ++
    (e.ist.toBitVec ++ (e.selector.toBitVec ++ e.offset1.toBitVec)))))

/-- A 64-bit interrupt gate, with the bits that mean nothing. -/
structure Gate where
  offset : UInt64
  selector : UInt16
  ist : BitVec 3
  attr : UInt8
  reserved : BitVec 37
  deriving DecidableEq, Repr

def Gate.decode (d : BitVec 128) : Gate where
  offset := ⟨d.extractLsb' 64 32 ++ (d.extractLsb' 48 16 ++ d.extractLsb' 0 16)⟩
  selector := ⟨d.extractLsb' 16 16⟩
  ist := d.extractLsb' 32 3
  attr := ⟨d.extractLsb' 40 8⟩
  reserved := d.extractLsb' 96 32 ++ d.extractLsb' 35 5

/-- The present bit, bit 47 of the descriptor. -/
def Gate.present (g : Gate) : Bool := g.attr.toBitVec.getLsbD 7

/-- Each field is where the processor reads it. -/
theorem decode_image (e : IdtEntry) : Gate.decode e.image =
    { offset := ⟨e.offset3.toBitVec ++ (e.offset2.toBitVec ++ e.offset1.toBitVec)⟩
      selector := e.selector
      ist := e.ist.toBitVec.extractLsb' 0 3
      attr := e.typeAttr
      reserved := e.reserved.toBitVec ++ e.ist.toBitVec.extractLsb' 3 5 } := by
  simp (disch := decide) only [Gate.decode, IdtEntry.image, BitVec.extractLsb'_append_eq_of_le,
    BitVec.extractLsb'_append_eq_of_add_le, Nat.sub_self, BitVec.extractLsb'_eq_self]

/-- The three offset fields are consecutive parts of the address. -/
theorem offset1_idtEntry (addr : UInt64) (selector : UInt16) (typeAttr : UInt8) :
    (idtEntry addr selector typeAttr).offset1.toBitVec = addr.toBitVec.extractLsb' 0 16 := by
  have hones : (0xFFFF : UInt16).toBitVec = BitVec.allOnes 16 := by decide
  rw [idtEntry, UInt16.toBitVec_and, UInt64.toBitVec_toUInt16, hones, BitVec.and_allOnes,
    BitVec.setWidth_eq_extractLsb' (by decide)]

theorem offset2_idtEntry (addr : UInt64) (selector : UInt16) (typeAttr : UInt8) :
    (idtEntry addr selector typeAttr).offset2.toBitVec = addr.toBitVec.extractLsb' 16 16 := by
  exact setWidth_and_mask (n := 16) addr.toBitVec 16 (by decide)

theorem offset3_idtEntry (addr : UInt64) (selector : UInt16) (typeAttr : UInt8) :
    (idtEntry addr selector typeAttr).offset3.toBitVec = addr.toBitVec.extractLsb' 32 32 := by
  exact setWidth_and_mask (n := 32) addr.toBitVec 32 (by decide)

/-- The gate that `set_idt_entry` makes. -/
theorem decode_idtEntry (addr : UInt64) (selector : UInt16) (typeAttr : UInt8) :
    Gate.decode (idtEntry addr selector typeAttr).image =
      { offset := addr, selector := selector, ist := 0, attr := typeAttr, reserved := 0 } := by
  have hlow : addr.toBitVec.extractLsb' 16 16 ++ addr.toBitVec.extractLsb' 0 16 =
      addr.toBitVec.extractLsb' 0 32 := BitVec.extractLsb'_append_extractLsb'_eq_extractLsb' rfl
  have haddr : addr.toBitVec.extractLsb' 32 32 ++ addr.toBitVec.extractLsb' 0 32 =
      addr.toBitVec.extractLsb' 0 64 := BitVec.extractLsb'_append_extractLsb'_eq_extractLsb' rfl
  have hist : (0 : UInt8).toBitVec.extractLsb' 0 3 = 0 := by decide
  have hreserved : (0 : UInt32).toBitVec ++ (0 : UInt8).toBitVec.extractLsb' 3 5 = 0 := by decide
  rw [decode_image, offset1_idtEntry, offset2_idtEntry, offset3_idtEntry, hlow, haddr,
    BitVec.extractLsb'_eq_self]
  simp only [idtEntry, hist, hreserved]

/-! ## what `idt_init` installs -/

@[simp] theorem setIdtEntry_idt (entryNum : UInt8) (addr : UInt64) (selector : UInt16)
    (typeAttr : UInt8) (s : IdtState) : (setIdtEntry entryNum addr selector typeAttr s).idt =
      Function.update s.idt entryNum (idtEntry addr selector typeAttr) := rfl

/-- The loop sets the entries in its range. -/
theorem setIdtEntries_idt (lo : Nat) {hi : Nat} (hhi : hi ≤ 256) (addr : UInt64) (selector : UInt16)
    (typeAttr : UInt8) (s : IdtState) (v : UInt8) :
    (setIdtEntries lo hi addr selector typeAttr s).idt v =
      if lo ≤ v.toNat ∧ v.toNat < hi then idtEntry addr selector typeAttr else s.idt v := by
  unfold setIdtEntries
  generalize hn : hi - lo = n
  induction n generalizing lo s with
  | zero =>
      rw [if_neg (by omega)]
      rfl
  | succ n ih =>
      have hlo : lo.toUInt8.toNat = lo := by
        rw [Nat.toUInt8_eq, UInt8.toNat_ofNat']
        exact Nat.mod_eq_of_lt (by omega)
      have hfirst : v = lo.toUInt8 ↔ v.toNat = lo := by rw [← UInt8.toNat_inj, hlo]
      rw [List.range'_succ, List.foldl_cons, ih (lo + 1) _ (by omega), setIdtEntry_idt,
        Function.update_apply]
      simp only [hfirst]
      grind

/-- The address that `idt_init` leaves in an entry. -/
def installed (h : Handlers) (v : UInt8) : UInt64 :=
  if v = apicInterruptEntry then h.apicHandlerPtr
  else if v = pageFaultIdtIndex then h.pageFaultHandlerPtr
  else if v.toNat < numCpuExceptions then h.defaultInterruptHandlerPtr
  else 0

/-- Every entry after `idt_init`: the later calls of `set_idt_entry` win. -/
theorem idtInit_idt (idtAddr : UInt64) (h : Handlers) (s : IdtState) (v : UInt8) :
    (idtInit idtAddr h s).idt v = idtEntry (installed h v) 0x8 0x8E := by
  have hexceptions := fun s => setIdtEntries_idt 0 (show numCpuExceptions ≤ 256 by decide)
    h.defaultInterruptHandlerPtr 0x8 0x8E s v
  have hothers := fun s =>
    setIdtEntries_idt numCpuExceptions (Nat.le_refl idtTableSize) 0 0x8 0x8E s v
  simp only [idtInit, loadIdt, setIdtEntry_idt, Function.update_apply, installed, hexceptions,
    hothers]
  split
  · rfl
  split
  · rfl
  rcases Nat.lt_or_ge v.toNat numCpuExceptions with hlow | hhigh
  · rw [if_neg fun hge => Nat.not_le_of_lt hlow hge.1, if_pos ⟨Nat.zero_le _, hlow⟩, if_pos hlow]
  · rw [if_pos ⟨hhigh, v.toNat_lt⟩, if_neg (Nat.not_lt_of_le hhigh)]

@[simp] theorem setIdtEntries_idtPtr (lo hi : Nat) (addr : UInt64) (selector : UInt16)
    (typeAttr : UInt8) (s : IdtState) :
    (setIdtEntries lo hi addr selector typeAttr s).idtPtr = s.idtPtr := by
  unfold setIdtEntries
  generalize List.range' lo (hi - lo) = l
  induction l generalizing s with
  | nil => rfl
  | cons i l ih => exact ih _

/-- The processor is given the table with all of its 256 entries. -/
theorem idtInit_idtr (idtAddr : UInt64) (h : Handlers) (s : IdtState) :
    (idtInit idtAddr h s).idtr.base = idtAddr ∧
      (idtInit idtAddr h s).idtr.limit.toNat + 1 = 256 * sizeofIdtEntry := by
  have hptr : (idtInit idtAddr h s).idtr = ⟨0xFFF, idtAddr⟩ := by
    simp only [idtInit, loadIdt, setIdtEntry, setIdtEntries_idtPtr]
    rfl
  rw [hptr]
  exact ⟨rfl, rfl⟩

end UefiKernel.Interrupts
