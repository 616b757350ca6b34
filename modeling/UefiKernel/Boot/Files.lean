import UefiKernel.Isolation
import UefiKernel.Lib.Calculus

/-!
# UefiKernel.Boot.Files

The loader's world with something in it: the files of the volume, and memory.

A file that is open has a position; what is read is copied to where the loader
says.  The firmware writes to memory where it likes, but not into the blocks
that it has given out, and there the loader itself writes nothing but its
record.  All else is as in `bootEnv`.

`Loads` is the invariant: the first blocks hold the files that have been loaded,
whole, if the blocks are good ones.
-/

namespace UefiKernel.Boot

open Interact Prog

/-! ## files and memory -/

/-- The files of a volume, by their paths. -/
structure Volume where
  contents : String → List UInt8
  length_lt : ∀ path, (contents path).length < 2 ^ 64

/-- `FileSize`. -/
def Volume.size (vol : Volume) (path : String) : UInt64 :=
  UInt64.ofNat (vol.contents path).length

/-- Files are shorter than `2 ^ 64` bytes. -/
theorem Volume.toNat_size (vol : Volume) (path : String) :
    (vol.size path).toNat = (vol.contents path).length := by
  rw [Volume.size, UInt64.toNat_ofNat']
  exact Nat.mod_eq_of_lt (vol.length_lt path)

/-- Of the file from a position on, at most `size` bytes. -/
def Volume.part (vol : Volume) (path : String) (position : Nat) (size : UInt64) : List UInt8 :=
  ((vol.contents path).drop position).take size.toNat

/-- A read of `size` bytes from the start returns the whole file. -/
theorem Volume.part_all (vol : Volume) (path : String) :
    vol.part path 0 (vol.size path) = vol.contents path := by
  rw [Volume.part, vol.toNat_size, List.drop_zero, List.take_length]

/-- The bytes are in memory from `a` on. -/
def HasBytes (m : Nat → UInt8) (a : Nat) (bytes : List UInt8) : Prop :=
  ∀ i b, bytes[i]? = some b → m (a + i) = b

/-- Whoever stores elsewhere keeps the bytes. -/
theorem HasBytes.congr {m m' : Nat → UInt8} {a : Nat} {bytes : List UInt8} (h : HasBytes m a bytes)
    (hm : ∀ p, a ≤ p → p < a + bytes.length → m' p = m p) : HasBytes m' a bytes := by
  intro i b hb
  obtain ⟨hi, -⟩ := List.getElem?_eq_some_iff.mp hb
  rw [hm (a + i) (Nat.le_add_right a i) (Nat.add_lt_add_left hi a)]
  exact h i b hb

/-- The world, memory, the files that are open with the position in each, and
the sizes in the file records. -/
structure Disk where
  world : World
  mem : Nat → UInt8
  opened : UInt64 → Option (String × Nat)
  sizeAt : UInt64 → UInt64

/-- `p` is in a block that has been given out. -/
def Disk.GivenOut (d : Disk) (p : Nat) : Prop := ∃ b ∈ d.world.blocks, b.Contains p

/-- `p` is in the information record at `info`. -/
def InRecord (info : UInt64) (p : Nat) : Prop := info.toNat ≤ p ∧ p < info.toNat + 120

/-- Where an event may change the loader's memory. -/
def Efi.Writes : Efi → Nat → Prop
  | fileRead _ size buf, p => buf.toNat ≤ p ∧ p < buf.toNat + size.toNat
  | writeInfo info, p => InRecord info p
  | callKernel _ _ _ _ _ _ _, _ => True
  | _, _ => False

/-- What is known of files. -/
def fileAnswer (vol : Volume) (d : Disk) : (e : Efi) → e.Answer → Disk → Prop
  | .fileOpen _ path, (status, fh), d' =>
      d'.opened = if efiError status then d.opened
        else Function.update d.opened fh (some (path, 0))
  | .fileClose fh, _, d' => d'.opened = Function.update d.opened fh none
  -- no record fits in a buffer without room
  | .getInfo fh size buf, (status, _), d' => d'.opened = d.opened ∧
      (¬ efiError status → size ≠ 0 ∧
        ∀ path position, d.opened fh = some (path, position) → d'.sizeAt buf = vol.size path)
  | .fileSize info, size, d' => d'.opened = d.opened ∧ size = d.sizeAt info
  | .fileRead fh size buf, (status, n), d' => ¬ efiError status →
      ∀ path position, d.opened fh = some (path, position) →
        let part := vol.part path position size
        n = UInt64.ofNat part.length ∧ HasBytes d'.mem buf.toNat part ∧
          d'.opened = Function.update d.opened fh (some (path, position + part.length))
  | _, _, d' => d'.opened = d.opened

/-- What the firmware may answer, and what there is after it. -/
def diskEnv (vol : Volume) (d : Disk) (e : Efi) (r : e.Answer) (d' : Disk) : Prop :=
  bootEnv d.world e r d'.world ∧
  (∀ p, d.GivenOut p → ¬ e.Writes p → d'.mem p = d.mem p) ∧
  fileAnswer vol d e r d'

/-- A run is one of the world. -/
theorem exists_run_world {vol : Volume} {α : Type} {d d' : Disk} {p p' : EfiM α}
    (h : Run (diskEnv vol) (d, p) (d', p')) : Run bootEnv (d.world, p) (d'.world, p') := by
  obtain ⟨w, hr, rfl⟩ := h.simulate (R := fun d w => d.world = w)
    (fun _ _ _ d₁ _ he hR => ⟨d₁.world, hR ▸ he.1, rfl⟩) rfl
  exact hr

/-! ## what stays the same -/

/-- Nothing is read, nothing allocated, and no record written but the one at
`info`. -/
def Efi.Keeps (info : UInt64) : Efi → Prop
  | fileRead _ _ _ | allocatePages _ _ | callKernel _ _ _ _ _ _ _ => False
  | writeInfo info' => info' = info
  | _ => True

section Keeps

variable (info : UInt64)

theorem keeps_stall (n : UInt64) : (stall n).Issues (Efi.Keeps info) := by
  simp [Issues, stall, Efi.Keeps]

theorem keeps_allocatePool (size : UInt64) (type : MemoryType) :
    (allocatePool size type).Issues (Efi.Keeps info) := by
  simp [Issues, allocatePool, Efi.Keeps]

theorem keeps_writeInfo : (writeInfo info).Issues (Efi.Keeps info) := by
  simp [Issues, writeInfo, Efi.Keeps]

theorem keeps_openFile (imageHandle : UInt64) (path : String) :
    (openFile imageHandle path).Issues (Efi.Keeps info) := by
  simp [Issues, openFile, Efi.Keeps]

theorem keeps_closeFile (vh fh : UInt64) : (closeFile vh fh).Issues (Efi.Keeps info) := by
  simp [Issues, closeFile, Efi.Keeps]

theorem keeps_readFileSize (fh : UInt64) : (readFileSize fh).Issues (Efi.Keeps info) := by
  simp [Issues, readFileSize, allocatePool, freePool, Efi.Keeps]

/-- The firmware's answers go to the loader's own variables. -/
theorem keeps_setGraphicsMode (width height : UInt32) :
    (setGraphicsMode width height).Issues (Efi.Keeps info) := by
  have hsearch : ∀ graphics modePtr,
      (loop (searchMode graphics modePtr width height) 0).Issues (Efi.Keeps info) := by
    intro graphics modePtr
    refine Issues.loop ?_ _
    intro mode
    simp [Issues, searchMode, Efi.Keeps]
  simp only [Issues, setGraphicsMode, wp_bind', wp_ite, wp_req, wp_pure]
  refine ⟨trivial, fun _ _ _ => ⟨fun _ => ⟨trivial, fun _ _ _ => trivial⟩, fun _ => ⟨trivial,
    fun _ _ _ => ⟨fun _ => ⟨trivial, fun _ _ _ => trivial⟩, fun _ => ⟨trivial, fun _ _ _ =>
      ⟨fun _ => ⟨trivial, fun _ _ _ => trivial⟩, fun _ => ⟨trivial, fun _ _ _ => ?_⟩⟩⟩⟩⟩⟩⟩
  refine wp_mono ?_ (hsearch _ _)
  rintro (_ | fb) _ _
  · simp [stall, Efi.Keeps]
  · trivial

/-- The memory map goes to a pool buffer, outside all blocks. -/
theorem keeps_exitBootServicesHook (imageHandle : UInt64) :
    (exitBootServicesHook imageHandle).Issues (Efi.Keeps info) := by
  refine Issues.loop ?_ _
  intro buf
  simp [Issues, exitBootServicesStep, exitWithMap, allocatePool, freePool, Efi.Keeps]

end Keeps

/-- The loader may have got more blocks; in those it had, nothing has changed but
its record. -/
structure Disk.Extends (info : UInt64) (d d' : Disk) : Prop where
  blocks : d.world.blocks <+: d'.world.blocks
  mem : ∀ p, d.GivenOut p → ¬ InRecord info p → d'.mem p = d.mem p

theorem Disk.Extends.trans {info : UInt64} {d d' d'' : Disk} (h : d.Extends info d')
    (h' : d'.Extends info d'') : d.Extends info d'' where
  blocks := h.blocks.trans h'.blocks
  mem := by
    rintro p ⟨b, hb, hp⟩ hrecord
    rw [h'.mem p ⟨b, h.blocks.subset hb, hp⟩ hrecord]
    exact h.mem p ⟨b, hb, hp⟩ hrecord

/-- Only `AllocatePages` adds a block. -/
theorem blocks_of_keeps {info : UInt64} {w w' : World} {e : Efi} {r : e.Answer}
    (he : e.Keeps info) (h : bootEnv w e r w') : w'.blocks = w.blocks := by
  cases e with
  | allocatePages _ _ | callKernel _ _ _ _ _ _ _ => exact he.elim
  | setMode _ _ => exact h.2.1
  | locateProtocol _ | gopMode _ | maxMode _ | frameBufferBase _ => rw [h.2]
  | queryMode _ _ => rw [h.2.2]
  | _ => rw [show w' = w from h]

/-- What such an event stores, it stores in the record. -/
theorem Efi.Keeps.inRecord {info : UInt64} {e : Efi} (he : e.Keeps info) {p : Nat}
    (h : e.Writes p) : InRecord info p := by
  cases e with
  | writeInfo info' => exact (show info' = info from he) ▸ h
  | fileRead _ _ _ | callKernel _ _ _ _ _ _ _ => exact he.elim
  | _ => exact h.elim

/-- One such event. -/
theorem extends_of_keeps {info : UInt64} {vol : Volume} {d d' : Disk} {e : Efi} {r : e.Answer}
    (he : e.Keeps info) (h : diskEnv vol d e r d') :
    d.Extends info d' ∧ d'.world.blocks = d.world.blocks := by
  have hblocks := blocks_of_keeps he h.1
  exact ⟨⟨hblocks ▸ List.prefix_rfl, fun p hp hrecord => h.2.1 p hp fun hw =>
    hrecord (he.inRecord hw)⟩, hblocks⟩

/-! ## the loader's functions -/

section Rules

variable {vol : Volume} {info : UInt64} {ok : Disk → Efi → Prop}
  (hok : ∀ d e, e.service ≠ .kernel → ok d e) {α : Type} {d : Disk}

include hok

/-- A program that reads no file and allocates nothing. -/
theorem wp_keeps {p : EfiM α} (hp : p.Issues (Efi.Keeps info)) {Q : α → Disk → Prop}
    (h : ∀ a d', d.Extends info d' → d'.world.blocks = d.world.blocks → Q a d') :
    wp (diskEnv vol) ok p Q d := by
  have hframe : wp (diskEnv vol) ok p
      (fun _ d' => d.Extends info d' ∧ d'.world.blocks = d.world.blocks) d := by
    refine wp_of_issues (P := Efi.Keeps info) ?_ ?_ hp
      ⟨⟨List.prefix_rfl, fun _ _ _ => rfl⟩, rfl⟩
    · intro d' e he _
      refine hok d' e ?_
      cases e <;> first | exact he.elim | simp
    · rintro d₁ e r d₂ he ⟨hext, hblocks⟩ henv
      obtain ⟨hext', hblocks'⟩ := extends_of_keeps he henv
      exact ⟨hext.trans hext', hblocks'.trans hblocks⟩
  exact wp_mono (fun a d' hd => h a d' hd.1 hd.2) hframe

/-- Stores through the pointer to the record, while a file is open. -/
theorem wp_writeInfo {Q : Unit → Disk → Prop}
    (h : ∀ d', d.Extends info d' → d'.world.blocks = d.world.blocks → d'.opened = d.opened →
      Q () d') : wp (diskEnv vol) ok (writeInfo info) Q d := by
  refine ⟨hok d _ (by simp), fun r d' henv => ?_⟩
  obtain ⟨hext, hblocks⟩ := extends_of_keeps (show (Efi.writeInfo info).Keeps info from rfl) henv
  exact h d' hext hblocks henv.2.2

/-- Past a check the status is no error. -/
theorem wpOk_check {status : EfiStatus} {Q : Unit → Disk → Prop}
    (h : ¬ efiError status → Q () d) : wpOk (diskEnv vol) ok (checkStatus status) Q d := by
  simp only [checkStatus, wpOk_ite, wpOk_bind, wpOk_lift, wpOk_throw, wpOk_pure]
  exact ⟨fun _ => wp_keeps hok (keeps_stall 0 _) fun _ _ _ _ => trivial, h⟩

/-- A block that passes its check is one more block. -/
theorem wp_allocate_disk (info : UInt64) {type : MemoryType} {pages : UInt64}
    {Q : EfiStatus × UInt64 → Unit → Disk → Prop}
    (h : ∀ status base d', d.Extends info d' →
      d'.world.blocks = d.world.blocks ++ [⟨base, pages⟩] → d'.opened = d.opened →
        Q (status, base) () d') :
    wp (diskEnv vol) ok (allocatePages type pages)
      (fun a d' => wpOk (diskEnv vol) ok (checkStatus a.1) (Q a) d') d := by
  simp only [allocatePages, wp_bind', wp_ite, wp_req, wp_pure]
  refine ⟨hok d _ (by simp), ?_⟩
  rintro ⟨status, base⟩ d₁ ⟨hworld, hmem, hopened⟩
  have hQ : ∀ d₂, d₁.Extends info d₂ → d₂.world.blocks = d₁.world.blocks → d₂.opened = d₁.opened →
      wpOk (diskEnv vol) ok (checkStatus status) (Q (status, base)) d₂ := by
    intro d₂ hext hblocks hopened'
    refine wpOk_check hok fun hsucc => ?_
    have hnew : d₁.world.blocks = d.world.blocks ++ [⟨base, pages⟩] := by
      rw [show d₁.world = _ from hworld, if_neg hsucc]
    have hext' : d.Extends info d₁ :=
      ⟨hnew ▸ List.prefix_append _ _, fun p hp _ => hmem p hp id⟩
    exact h status base d₂ (hext'.trans hext) (hblocks.trans hnew) (hopened'.trans hopened)
  have hmsg : ∀ text, ok d₁ (.outputString text) ∧ ∀ r d₂,
      diskEnv vol d₁ (.outputString text) r d₂ →
        wpOk (diskEnv vol) ok (checkStatus status) (Q (status, base)) d₂ := by
    intro text
    refine ⟨hok d₁ _ (by simp), fun r d₂ henv => ?_⟩
    have hkeeps : (Efi.outputString text).Keeps info := trivial
    obtain ⟨hext, hblocks⟩ := extends_of_keeps hkeeps henv
    exact hQ d₂ hext hblocks henv.2.2
  refine ⟨fun _ => hmsg _, fun _ => ⟨fun _ => hmsg _, fun _ => ⟨fun _ => hmsg _, fun _ => ?_⟩⟩⟩
  exact hQ d₁ ⟨List.prefix_rfl, fun _ _ _ => rfl⟩ rfl rfl

/-- `OpenFile` leaves the file open, at its beginning. -/
theorem wp_openFile (info imageHandle : UInt64) (path : String)
    {Q : EfiStatus × UInt64 × UInt64 → Disk → Prop}
    (h : ∀ a d', d.Extends info d' → d'.world.blocks = d.world.blocks →
      (¬ efiError a.1 → d'.opened a.2.2 = some (path, 0)) → Q a d') :
    wp (diskEnv vol) ok (openFile imageHandle path) Q d := by
  have hopen : wp (diskEnv vol) (fun _ _ => True) (openFile imageHandle path)
      (fun a d' => ¬ efiError a.1 → d'.opened a.2.2 = some (path, 0)) d := by
    simp only [openFile, wp_bind', wp_ite, wp_req, wp_pure, true_and]
    rintro ⟨status, li⟩ d₁ -
    refine ⟨fun herr _ _ _ hsucc => (hsucc herr).elim, fun _ device d₂ _ => ?_⟩
    rintro ⟨status, fio⟩ d₃ -
    refine ⟨fun herr _ _ _ hsucc => (hsucc herr).elim, fun _ => ?_⟩
    rintro ⟨status, vh⟩ d₄ -
    refine ⟨fun herr _ _ _ hsucc => (hsucc herr).elim, fun _ => ?_⟩
    rintro ⟨status, fh⟩ d₅ ⟨-, -, hopened⟩
    refine ⟨fun herr _ _ _ hsucc => (hsucc herr).elim, fun hsucc _ => ?_⟩
    rw [show d₅.opened = _ from hopened, if_neg hsucc]
    exact Function.update_self ..
  have hkeeps : wp (diskEnv vol) ok (openFile imageHandle path)
      (fun _ d' => d.Extends info d' ∧ d'.world.blocks = d.world.blocks) d :=
    wp_keeps hok (keeps_openFile info imageHandle path) fun _ _ hext hblocks => ⟨hext, hblocks⟩
  exact wp_mono (fun a d' hd => h a d' hd.1.1 hd.1.2 hd.2) (wp_and hkeeps hopen)

/-- `ReadFileSize` finds the size of an open file. -/
theorem wp_readFileSize_opened (info : UInt64) {fh : UInt64} {path : String} {position : Nat}
    (hfh : d.opened fh = some (path, position)) {Q : EfiStatus × UInt64 → Disk → Prop}
    (h : ∀ a d', d.Extends info d' → d'.world.blocks = d.world.blocks → d'.opened = d.opened →
      (¬ efiError a.1 → a.2 = vol.size path) → Q a d') :
    wp (diskEnv vol) ok (readFileSize fh) Q d := by
  have hsize : wp (diskEnv vol) (fun _ _ => True) (readFileSize fh)
      (fun a d' => d'.opened = d.opened ∧ (¬ efiError a.1 → a.2 = vol.size path)) d := by
    simp only [readFileSize, allocatePool, freePool, wp_bind', wp_ite, wp_req, wp_pure, true_and]
    rintro ⟨status, n⟩ d₁ ⟨-, -, hopened₁, hroom⟩
    refine ⟨fun hne => ?_, fun hsmall => ?_⟩
    · -- without a buffer there can be no other success
      rintro _ d₂ ⟨-, -, hopened₂⟩
      refine ⟨hopened₂.trans hopened₁, fun hsucc => ((hroom hsucc).1 rfl).elim⟩
    rintro ⟨status₂, buf⟩ d₂ ⟨-, -, hopened₂⟩
    -- with the buffer, or with `NULL` for one
    refine ⟨fun _ => ?_, fun _ => ?_⟩
    all_goals
      rintro ⟨status₃, n₃⟩ d₃ ⟨-, -, hopened₃, hrecord⟩
      have hopen : d₃.opened = d.opened := hopened₃.trans (hopened₂.trans hopened₁)
      refine ⟨fun herr => ?_, fun hsucc => ?_⟩
      · rintro _ d₄ ⟨-, -, hopened₄⟩ _ d₅ ⟨-, -, hopened₅⟩
        exact ⟨hopened₅.trans (hopened₄.trans hopen), fun hsucc => (hsucc herr).elim⟩
      · rintro r d₄ ⟨-, -, hopened₄, hr⟩ _ d₅ ⟨-, -, hopened₅⟩
        refine ⟨hopened₅.trans (hopened₄.trans hopen), fun _ => ?_⟩
        rw [show r = _ from hr]
        refine (hrecord hsucc).2 path position ?_
        rw [hopened₂, hopened₁, hfh]
  have hkeeps : wp (diskEnv vol) ok (readFileSize fh)
      (fun _ d' => d.Extends info d' ∧ d'.world.blocks = d.world.blocks) d :=
    wp_keeps hok (keeps_readFileSize info fh) fun _ _ hext hblocks => ⟨hext, hblocks⟩
  exact wp_mono (fun a d' hd => h a d' hd.1.1 hd.1.2 hd.2.1 hd.2.2) (wp_and hkeeps hsize)

end Rules

/-! ## files in blocks -/

/-- The blocks are good ones, and the record is in none of them. -/
structure Sound (info : UInt64) (l : List Block) : Prop where
  good : GoodBlocks l
  record : ∀ b ∈ l, ∀ p, b.Contains p → ¬ InRecord info p

/-- The condition on all blocks holds of those there are so far. -/
theorem Sound.of_prefix {info : UInt64} {l l' : List Block} (h : l <+: l') (hs : Sound info l') :
    Sound info l where
  good := {
    aligned := fun b hb => hs.good.aligned b (h.subset hb)
    below := fun b hb => hs.good.below b (h.subset hb)
    apart := hs.good.apart.sublist h.sublist }
  record := fun b hb => hs.record b (h.subset hb)

/-- The first blocks hold the files, whole. -/
def Loads (vol : Volume) (info : UInt64) (paths : List String) (d : Disk) : Prop :=
  ∀ (i : Nat) path, paths[i]? = some path → ∃ b : Block, d.world.blocks[i]? = some b ∧
    b.pages = efiSizeToPages (vol.size path) ∧
    (Sound info d.world.blocks → HasBytes d.mem b.base.toNat (vol.contents path))

section Loads

variable {vol : Volume} {info : UInt64} {paths : List String} {d d' : Disk}

/-- A file fits in the pages that are counted for it. -/
theorem contains_of_size {b : Block} {path : String}
    (hb : b.pages = efiSizeToPages (vol.size path)) {p : Nat} (hp : b.base.toNat ≤ p)
    (hlt : p < b.base.toNat + (vol.contents path).length) : b.Contains p := by
  rw [Block.Contains, InBlock, hb, toNat_efiSizeToPages, vol.toNat_size]
  simp only [pageSize]
  omega

theorem loads_nil : Loads vol info [] d := fun i path h => by simp at h

/-- What has been loaded stays there. -/
theorem Loads.extends (h : Loads vol info paths d) (hext : d.Extends info d') :
    Loads vol info paths d' := by
  intro i path hi
  obtain ⟨b, hb, hpages, hbytes⟩ := h i path hi
  have hmem : b ∈ d.world.blocks := List.mem_of_getElem? hb
  refine ⟨b, ?_, hpages, fun hs => ?_⟩
  · obtain ⟨l, hl⟩ := hext.blocks
    obtain ⟨hlt, -⟩ := List.getElem?_eq_some_iff.mp hb
    rw [← hl, List.getElem?_append_left hlt]
    exact hb
  · have hs' := hs.of_prefix hext.blocks
    refine (hbytes hs').congr fun p hp hlt => ?_
    have hin := contains_of_size hpages hp hlt
    exact hext.mem p ⟨b, hmem, hin⟩ (hs'.record b hmem p hin)

/-- One more file, in the last block. -/
theorem Loads.read (h : Loads vol info paths d) {bs : List Block} {b : Block} {path : String}
    (hblocks : d.world.blocks = bs ++ [b]) (hlen : bs.length = paths.length)
    (hpages : b.pages = efiSizeToPages (vol.size path))
    (hsame : d'.world.blocks = d.world.blocks)
    (hmem : ∀ p, d.GivenOut p → ¬ (b.base.toNat ≤ p ∧
      p < b.base.toNat + (vol.contents path).length) → d'.mem p = d.mem p)
    (hbytes : HasBytes d'.mem b.base.toNat (vol.contents path)) :
    Loads vol info (paths ++ [path]) d' := by
  intro i path' hi
  rcases Nat.lt_or_ge i paths.length with hlt | hge
  · rw [List.getElem?_append_left hlt] at hi
    obtain ⟨c, hc, hcpages, hcbytes⟩ := h i path' hi
    refine ⟨c, hsame ▸ hc, hcpages, fun hs => ?_⟩
    rw [hsame] at hs
    have hcs : c ∈ bs := by
      rw [hblocks, List.getElem?_append_left (hlen ▸ hlt)] at hc
      exact List.mem_of_getElem? hc
    refine (hcbytes hs).congr fun p hp hp' => hmem p ⟨c, List.mem_of_getElem? hc, ?_⟩ ?_
    · exact contains_of_size hcpages hp hp'
    · -- the last block has no byte of this one
      have hapart := Regions.pairwise_not_contains hs.good p
      rw [hblocks, List.pairwise_append] at hapart
      exact fun hin => hapart.2.2 c hcs b List.mem_cons_self
        ⟨contains_of_size hcpages hp hp', contains_of_size hpages hin.1 hin.2⟩
  · have hlast : i = paths.length ∧ path = path' := by
      rw [List.getElem?_append_right hge] at hi
      obtain ⟨hlt, hpath⟩ := List.getElem?_eq_some_iff.mp hi
      rw [List.length_singleton] at hlt
      simp only [show i - paths.length = 0 by omega, List.getElem_cons_zero] at hpath
      exact ⟨by omega, hpath⟩
    obtain ⟨rfl, rfl⟩ := hlast
    refine ⟨b, ?_, hpages, fun _ => hbytes⟩
    rw [hsame, hblocks, ← hlen, List.getElem?_concat_length]

variable {ok : Disk → Efi → Prop} (hok : ∀ d e, e.service ≠ .kernel → ok d e)

include hok

/-- A quiet program, while files are loaded. -/
theorem wp_keeps_loads {α : Type} {p : EfiM α} (hp : p.Issues (Efi.Keeps info))
    (h : Loads vol info paths d) {Q : α → Disk → Prop}
    (hQ : ∀ a d', Loads vol info paths d' → d'.world.blocks = d.world.blocks → Q a d') :
    wp (diskEnv vol) ok p Q d :=
  wp_keeps hok hp fun a d' hext hblocks => hQ a d' (h.extends hext) hblocks

/-- `LoadBinaryFileInBuffer` loads a file that has just been opened into the last
block, if it is of the file's size. -/
theorem wp_loadBinaryFileInBuffer (h : Loads vol info paths d) {fh base size : UInt64}
    {path : String} (hfh : d.opened fh = some (path, 0)) (hsize : size = vol.size path)
    {bs : List Block} (hblocks : d.world.blocks = bs ++ [⟨base, efiSizeToPages size⟩])
    (hlen : bs.length = paths.length) {Q : EfiStatus → Unit → Disk → Prop}
    (hQ : ∀ status d', Loads vol info (paths ++ [path]) d' →
      d'.world.blocks = d.world.blocks → Q status () d') :
    wp (diskEnv vol) ok (loadBinaryFileInBuffer fh size base)
      (fun a d' => wpOk (diskEnv vol) ok (checkStatus a) (Q a) d') d := by
  subst hsize
  simp only [loadBinaryFileInBuffer, wp_bind', wp_ite, wp_req, wp_pure]
  refine ⟨hok d _ (by simp), ?_⟩
  rintro ⟨status, n⟩ d₁ ⟨hworld, hmem, hread⟩
  refine ⟨fun herr => ⟨hok d₁ _ (by simp), fun _ d₂ _ => ?_⟩, fun hsucc => ?_⟩
  · exact wpOk_check hok fun hsucc => (hsucc herr).elim
  · refine wpOk_check hok fun _ => ?_
    obtain ⟨-, hbytes, -⟩ := hread hsucc path 0 hfh
    rw [vol.part_all] at hbytes
    have hsame : d₁.world.blocks = d.world.blocks := by rw [show d₁.world = d.world from hworld]
    refine hQ status d₁ (h.read hblocks hlen rfl hsame (fun p hp hnot => ?_) hbytes) hsame
    rw [← vol.toNat_size path] at hnot
    exact hmem p hp hnot

end Loads

end UefiKernel.Boot
