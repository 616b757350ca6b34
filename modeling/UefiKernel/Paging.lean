import UefiKernel.Types

/-!
# UefiKernel.Paging

What the processor does with page tables: the AMD64 four-level walk.

Physical memory is seen at quadword granularity, as the aligned 8-byte word at
each physical address; page-table entries are the only words a walk reads.
`walk` follows the architecture: an entry is used if its present bit (bit 0)
is set, it permits writing and user access if bits 1 and 2 are set at every
level, bits 51..12 are the physical address of the next table or frame, and
bit 7 in a page-directory or page-directory-pointer entry maps a large page.
-/

namespace UefiKernel

/-- Physical memory, as the quadword at each aligned address. -/
abbrev PhysMem := Nat → UInt64

/-- What a virtual address walks to. -/
structure Mapping where
  phys : Nat
  writable : Bool
  user : Bool
  deriving DecidableEq, Repr

/-! ## entries -/

namespace Entry

def present (e : UInt64) : Bool := e.toNat % 2 = 1

def writable (e : UInt64) : Bool := e.toNat / 2 % 2 = 1

def user (e : UInt64) : Bool := e.toNat / 4 % 2 = 1

/-- The page-size bit: the entry maps a large page. -/
def large (e : UInt64) : Bool := e.toNat / 128 % 2 = 1

/-- Bits 51..12, the physical address of the next table or of the frame. -/
def frame (e : UInt64) : Nat := e.toNat / 2 ^ 12 % 2 ^ 40 * 2 ^ 12

/-- The frame of a large page of `2 ^ k` bytes: bits 51..k. -/
def largeFrame (k : Nat) (e : UInt64) : Nat := e.toNat / 2 ^ k % 2 ^ (52 - k) * 2 ^ k

end Entry

/-! ## the walk -/

/-- Bits 63..47 of a canonical virtual address are equal. -/
def Canonical (v : UInt64) : Prop := v.toNat < 2 ^ 47 ∨ 2 ^ 64 - 2 ^ 47 ≤ v.toNat

/-- The 9-bit index into the table at level `l` (0 for the page table, 3 for
the PML4). -/
def tableIndex (l : Nat) (v : UInt64) : Nat := v.toNat / 2 ^ (12 + 9 * l) % 512

/-- Walk the remaining `l` levels from the table (or, at level 0, the frame)
at `base`, having collected the permissions `w` and `u` so far. -/
def walkFrom (m : PhysMem) (v : UInt64) : (l : Nat) → (base : Nat) → (w u : Bool) → Option Mapping
  | 0, base, w, u => some ⟨base + v.toNat % 2 ^ 12, w, u⟩
  | l + 1, base, w, u =>
      let e := m (base + 8 * tableIndex l v)
      let w' := w && Entry.writable e
      let u' := u && Entry.user e
      if Entry.present e then
        if (l = 1 ∨ l = 2) ∧ Entry.large e then
          some ⟨Entry.largeFrame (12 + 9 * l) e + v.toNat % 2 ^ (12 + 9 * l), w', u'⟩
        else walkFrom m v l (Entry.frame e) w' u'
      else none

/-- The walk of the virtual address `v` from the PML4 that `cr3` points to. -/
def walk (m : PhysMem) (cr3 : UInt64) (v : UInt64) : Option Mapping :=
  walkFrom m v 4 (Entry.frame cr3) true true

/-! ## the entries the kernel writes -/

/-- The address in an entry `addr + flags`. -/
theorem Entry.frame_eq {e : UInt64} {addr flags : Nat} (he : e.toNat = addr + flags)
    (ha : IsPage addr) (hf : flags = 3 ∨ flags = 7) : Entry.frame e = addr := by
  obtain ⟨h0, h1⟩ := ha
  simp only [pageSize] at h0
  simp only [Entry.frame, he]
  omega

/-- One level of a walk through an entry `addr + flags` that is present and
maps no large page: it continues at `addr`. -/
theorem walkFrom_entry {m : PhysMem} {v : UInt64} {l base addr flags : Nat} {w u : Bool}
    (he : (m (base + 8 * tableIndex l v)).toNat = addr + flags) (ha : IsPage addr)
    (hf : flags = 3 ∨ flags = 7) :
    walkFrom m v (l + 1) base w u = walkFrom m v l addr w (u && decide (flags = 7)) := by
  have hfr := Entry.frame_eq he ha hf
  obtain ⟨h0, h1⟩ := ha
  simp only [pageSize] at h0
  have hp : Entry.present (m (base + 8 * tableIndex l v)) = true := by
    simp only [Entry.present, he, decide_eq_true_eq]; omega
  have hl : Entry.large (m (base + 8 * tableIndex l v)) = false := by
    simp only [Entry.large, he, decide_eq_false_iff_not]; omega
  have hw : Entry.writable (m (base + 8 * tableIndex l v)) = true := by
    simp only [Entry.writable, he, decide_eq_true_eq]; omega
  have hu : Entry.user (m (base + 8 * tableIndex l v)) = decide (flags = 7) := by
    simp only [Entry.user, he, decide_eq_decide]; omega
  simp [walkFrom, hp, hl, hw, hu, hfr]

/-- A walk stops at an entry that is zero. -/
theorem walkFrom_zero {m : PhysMem} {v : UInt64} {l base : Nat} {w u : Bool}
    (he : m (base + 8 * tableIndex l v) = 0) : walkFrom m v (l + 1) base w u = none := by
  simp [walkFrom, he, Entry.present]

/-- The offset of an address in the table it selects, below the next table. -/
theorem tableIndex_lt (l : Nat) (v : UInt64) : tableIndex l v < 512 :=
  Nat.mod_lt _ (by decide)

end UefiKernel
