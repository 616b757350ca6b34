import UefiKernel.Xen.Grants
import Mathlib.Data.List.Nodup

/-!
# UefiKernel.Xen.FreeRefs

The free references of the grant table, over any number of calls.

What a call does to the free list does not depend on what the table answers
(`GrantCall.Effect`), so everything here holds in any environment.  The
invariant is `FreeChain`: the chain through `gnttab_list` visits exactly the
references that are not outstanding, each once.  It holds after `init_gnttab`
(`freeChain_init`), each call keeps it (`freeChain_after`), and so every state
between calls has it (`freeChain_of_reachable`).
-/

namespace UefiKernel.Xen

open Interact Prog
open Threaded

/-- The chain through the list visits exactly the references that are not
outstanding, each once, and comes to 0. -/
def FreeChain (list : GnttabList) (granted : Granted) : Prop :=
  ∃ chain : List UInt32, Linked list 0 chain ∧ chain.Nodup ∧
    ∀ ref, ref ∈ chain ↔ IsRef ref ∧ granted ref = none

/-- Reference 0 is the head of the free list. -/
theorem IsRef.ne_zero {ref : UInt32} (h : IsRef ref) : ref ≠ 0 := by
  rintro rfl
  exact absurd h.1 (by decide)

theorem isRef_iff {ref : UInt32} : IsRef ref ↔ 8 ≤ ref.toNat ∧ ref.toNat < 512 := Iff.rfl

theorem mem_grantRefs {ref : UInt32} : ref ∈ grantRefs ↔ IsRef ref := by
  have hlen : nrGrantEntries - nrReservedEntries = 504 := rfl
  rw [grantRefs, hlen, isRef_iff, List.mem_map]
  constructor
  · rintro ⟨i, hi, rfl⟩
    rw [List.mem_range'_1, nrReservedEntries] at hi
    rw [UInt32.toNat_ofNat']
    omega
  · intro h
    refine ⟨ref.toNat, ?_, UInt32.ofNat_toNat⟩
    rw [List.mem_range'_1, nrReservedEntries]
    omega

/-- There are 504 references to give out. -/
theorem length_grantRefs : grantRefs.length = 504 := by
  rw [grantRefs, List.length_map, List.length_range']
  rfl

/-- If not all references are outstanding, one is not. -/
theorem exists_free_ref {granted : Granted} (h : numOutstanding granted < 504) :
    ∃ ref, IsRef ref ∧ granted ref = none := by
  refine Classical.byContradiction fun hne => ?_
  have hall : grantRefs.filter (fun ref => (granted ref).isSome) = grantRefs := by
    refine List.filter_eq_self.mpr ?_
    intro ref href
    refine Option.isSome_iff_ne_none.mpr fun hnone => ?_
    exact hne ⟨ref, mem_grantRefs.mp href, hnone⟩
  rw [numOutstanding, hall, length_grantRefs] at h
  exact Nat.lt_irrefl 504 h

/-- If one reference is free, not all are outstanding. -/
theorem numOutstanding_lt {granted : Granted} {ref : UInt32} (href : IsRef ref)
    (hnone : granted ref = none) : numOutstanding granted < 504 := by
  rw [numOutstanding, ← length_grantRefs, List.length_filter_lt_length_iff_exists]
  refine ⟨ref, mem_grantRefs.mpr href, ?_⟩
  rw [hnone]
  decide

/-! ## the list operations -/

/-- The free list is a threaded list whose head is entry 0. -/
theorem putFreeEntry_eq (list : GnttabList) (ref : UInt32) :
    putFreeEntry list ref = put list 0 ref := by
  funext i
  simp only [putFreeEntry, GnttabList.set, put, Function.update_apply]

theorem getFreeEntry_eq (list : GnttabList) : getFreeEntry list = (list 0, take list 0) := by
  refine Prod.ext rfl ?_
  funext i
  simp only [getFreeEntry, GnttabList.set, take, Function.update_apply]

/-- Putting fresh references one after the other. -/
theorem linked_foldl_put {list : GnttabList} {chain : List UInt32} (h : Linked list 0 chain)
    {refs : List UInt32} (hz : 0 ∉ refs) (hn : refs.Nodup) (hd : ∀ ref ∈ refs, ref ∉ chain) :
    Linked (refs.foldl putFreeEntry list) 0 (refs.reverse ++ chain) := by
  induction refs generalizing list chain with
  | nil => exact h
  | cons ref refs ih =>
      rw [List.mem_cons, not_or] at hz
      rw [List.nodup_cons] at hn
      rw [List.foldl_cons, List.reverse_cons, List.append_assoc, putFreeEntry_eq]
      refine ih (h.put (Ne.symm hz.1) (hd ref List.mem_cons_self)) hz.2 hn.2 ?_
      intro ref' hmem
      rw [List.singleton_append, List.mem_cons, not_or]
      exact ⟨fun he => hn.1 (he ▸ hmem), hd ref' (List.mem_cons_of_mem ref hmem)⟩

theorem nodup_grantRefs : grantRefs.Nodup := by
  have hlen : nrGrantEntries - nrReservedEntries = 504 := rfl
  rw [grantRefs, hlen]
  refine List.Nodup.map_on ?_ List.nodup_range'
  intro i hi j hj h
  rw [List.mem_range'_1, nrReservedEntries] at hi hj
  have hnat := congrArg UInt32.toNat h
  rw [UInt32.toNat_ofNat', UInt32.toNat_ofNat'] at hnat
  omega

/-- The loop of `init_gnttab` puts the references one after the other. -/
theorem putFreeEntries_eq (list : GnttabList) :
    putFreeEntries list = grantRefs.foldl putFreeEntry list := by
  unfold putFreeEntries grantRefs
  generalize nrGrantEntries - nrReservedEntries = n
  rw [List.foldl_map]

/-- The chain that `init_gnttab` leaves: all references, the last one first. -/
theorem linked_putFreeEntries {list : GnttabList} (h : list 0 = 0) :
    Linked (putFreeEntries list) 0 grantRefs.reverse := by
  have hzero : (0 : UInt32) ∉ grantRefs := fun h => (mem_grantRefs.mp h).ne_zero rfl
  have hlinked := linked_foldl_put (.last h) hzero nodup_grantRefs fun _ _ => List.not_mem_nil
  rwa [List.append_nil, ← putFreeEntries_eq] at hlinked

/-- At the start all references are free. -/
theorem freeChain_init {list : GnttabList} (h : list 0 = 0) :
    FreeChain (putFreeEntries list) fun _ => none := by
  refine ⟨_, linked_putFreeEntries h, List.nodup_reverse.mpr nodup_grantRefs, ?_⟩
  intro ref
  rw [List.mem_reverse, mem_grantRefs, and_iff_left rfl]

/-- What is free when the first free reference is granted. -/
theorem mem_rest {granted : Granted} {j : UInt32} {l : List UInt32} (hn : (j :: l).Nodup)
    (hmem : ∀ ref, ref ∈ j :: l ↔ IsRef ref ∧ granted ref = none) (g : Grant) (ref : UInt32) :
    ref ∈ l ↔ IsRef ref ∧ Function.update granted j (some g) ref = none := by
  by_cases he : ref = j
  · simp only [he, Function.update_self, reduceCtorEq, and_false, iff_false]
    exact (List.nodup_cons.mp hn).1
  · rw [Function.update_of_ne he, ← hmem, List.mem_cons, or_iff_right he]

/-- Taking the first free reference. -/
theorem FreeChain.take {list : GnttabList} {granted : Granted} (h : FreeChain list granted)
    (hfree : ∃ ref, IsRef ref ∧ granted ref = none) (g : Grant) :
    (IsRef (list 0) ∧ granted (list 0) = none) ∧
      FreeChain (getFreeEntry list).2 (Function.update granted (list 0) (some g)) := by
  obtain ⟨chain, hl, hn, hmem⟩ := h
  obtain ⟨ref, href⟩ := hfree
  cases chain with
  | nil => exact absurd ((hmem ref).mpr href) List.not_mem_nil
  | cons j l =>
      obtain rfl := hl.head
      refine ⟨(hmem _).mp List.mem_cons_self, l, ?_, (List.nodup_cons.mp hn).2,
        mem_rest hn hmem g⟩
      rw [getFreeEntry_eq]
      exact hl.take

/-- Putting an outstanding reference back. -/
theorem FreeChain.put {list : GnttabList} {granted : Granted} (h : FreeChain list granted)
    {ref : UInt32} (hr : IsRef ref) (hout : granted ref ≠ none) :
    FreeChain (putFreeEntry list ref) (Function.update granted ref none) := by
  obtain ⟨chain, hl, hn, hmem⟩ := h
  have hnot : ref ∉ chain := fun hc => hout ((hmem ref).mp hc).2
  refine ⟨ref :: chain, ?_, List.nodup_cons.mpr ⟨hnot, hn⟩, ?_⟩
  · rw [putFreeEntry_eq]
    exact hl.put hr.ne_zero hnot
  · intro ref'
    by_cases he : ref' = ref
    · simp only [he, List.mem_cons, true_or, Function.update_self, and_true, true_iff]
      exact hr
    · rw [Function.update_of_ne he, List.mem_cons, or_iff_right he, hmem]

/-! ## what a call does to the list -/

/-- What a call returns, and the list it leaves. -/
def GrantCall.Effect (list : GnttabList) : GrantCall → GrantResult × GnttabList → Prop
  | grantAccess _ _ _, r | grantTransfer _ _, r => r = (.ref (list 0), (getFreeEntry list).2)
  | endAccess ref, r => r = (.ended 0, list) ∨ r = (.ended 1, putFreeEntry list ref)
  | endTransfer ref, r => ∃ frame, r = (.frame frame, putFreeEntry list ref)

section Effect

variable {T : Type} {env : T → (e : GrantEvent) → e.Answer → T → Prop} (xen : GrantHeaders)
  (list : GnttabList) (g : T)

theorem wp_ofXen {α : Type} {p : XenM α} {Q : α → T → Prop} {ok : T → GrantEvent → Prop} {g : T}
    (h : wp (fun g e r g' => env g (.xen e) r g') (fun g e => ok g (.xen e)) p Q g) :
    wp env ok (ofXen p) Q g :=
  wp_embed (f := GrantEvent.xen) (h := fun _ r => r) (fun _ _ _ _ he => he) (fun _ _ hok => hok) h

/-- Whatever the environment does to the table, a grant takes the head of the list. -/
theorem wp_gnttabGrantAccess (domid : UInt16) (frame : UInt64) (readonly : Int32) :
    wp env (fun _ _ => True) (ofXen (gnttabGrantAccess xen.toXenHeaders list domid frame readonly))
      (fun r _ => r = (list 0, (getFreeEntry list).2)) g := by
  refine wp_ofXen ?_
  simp [gnttabGrantAccess, storeGrant, getFreeEntry]

theorem wp_gnttabGrantTransfer (domid : UInt16) (pfn : UInt64) :
    wp env (fun _ _ => True) (ofXen (gnttabGrantTransfer xen list domid pfn))
      (fun r _ => r = (list 0, (getFreeEntry list).2)) g := by
  refine wp_ofXen ?_
  simp [gnttabGrantTransfer, storeGrant, getFreeEntry]

/-- Whatever a part of the code does, it is allowed and returns something. -/
theorem wp_anything {α : Type} (p : GrantM α) (g : T) :
    wp env (fun _ _ => True) p (fun _ _ => True) g :=
  wp_of_issues (fun _ _ _ _ => trivial) (fun _ _ _ _ _ _ _ => trivial) (issues_true p) trivial

/-- An access that is still in use is not freed. -/
theorem wp_gnttabEndAccess (ref : UInt32) :
    wp env (fun _ _ => True) (gnttabEndAccess xen list ref)
      (fun r _ => r = (0, list) ∨ r = (1, putFreeEntry list ref)) g := by
  simp only [gnttabEndAccess, wp_bind']
  refine wp_mono ?_ (wp_anything (loadFlags ref) g)
  intro nflags g _
  refine wp_mono ?_ (wp_anything (loop (endAccessStep xen ref) nflags) g)
  intro free g _
  refine wp_ite.mpr ⟨fun _ => .inr rfl, fun _ => .inl rfl⟩

/-- The end of a transfer always frees, once it comes to its end. -/
theorem wp_gnttabEndTransfer (ref : UInt32) :
    wp env (fun _ _ => True) (gnttabEndTransfer xen list ref)
      (fun r _ => ∃ frame, r = (frame, putFreeEntry list ref)) g := by
  simp only [gnttabEndTransfer, wp_bind']
  refine wp_mono ?_ (wp_anything (loop (uncommittedStep xen ref) ()) g)
  intro committed g _
  cases committed with
  | none => exact ⟨0, rfl⟩
  | some flags =>
      simp only [wp_bind']
      refine wp_mono ?_ (wp_anything (loop (uncompletedStep xen ref) flags) g)
      intro _ g _
      refine wp_mono ?_ (wp_anything (loadFrame ref) g)
      exact fun frame _ _ => ⟨frame.toUInt64, rfl⟩

/-- What a call does to the list, whatever the table answers. -/
theorem wp_effect (c : GrantCall) :
    wp env (fun _ _ => True) (c.prog xen list) (fun r _ => c.Effect list r) g := by
  cases c with
  | grantAccess domid frame readonly =>
      refine wp_bind'.mpr (wp_mono ?_ (wp_gnttabGrantAccess xen list g domid frame readonly))
      rintro _ _ rfl
      rfl
  | grantTransfer domid pfn =>
      refine wp_bind'.mpr (wp_mono ?_ (wp_gnttabGrantTransfer xen list g domid pfn))
      rintro _ _ rfl
      rfl
  | endAccess ref =>
      refine wp_bind'.mpr (wp_mono ?_ (wp_gnttabEndAccess xen list g ref))
      rintro _ _ (rfl | rfl)
      · exact .inl rfl
      · exact .inr rfl
  | endTransfer ref =>
      refine wp_bind'.mpr (wp_mono ?_ (wp_gnttabEndTransfer xen list g ref))
      rintro _ _ ⟨frame, rfl⟩
      exact ⟨frame, rfl⟩

end Effect

/-! ## any number of calls -/

/-- What the free list needs of a call: room for a grant, and an outstanding
reference, of either kind, to end. -/
def GrantCall.Outstanding (granted : Granted) : GrantCall → Prop
  | grantAccess _ _ _ | grantTransfer _ _ => numOutstanding granted < 504
  | endAccess ref | endTransfer ref => granted ref ≠ none

theorem GrantCall.OfKind.outstanding {granted : Granted} {c : GrantCall} (h : c.OfKind granted) :
    c.Outstanding granted := by
  cases c with
  | grantAccess | grantTransfer => exact h
  | endAccess | endTransfer =>
      obtain ⟨g, hg, -⟩ := h
      exact Option.ne_none_iff_exists'.mpr ⟨g, hg⟩

/-- A grant returns a reference that was free. -/
def GrantCall.Fresh (granted : Granted) : GrantCall → GrantResult → Prop
  | grantAccess _ _ _, r | grantTransfer _ _, r =>
      ∃ ref, r = .ref ref ∧ IsRef ref ∧ granted ref = none
  | _, _ => True

/-- The free references are in the list, and no others are granted. -/
structure Grants.Sound {T : Type} (s : Grants T) : Prop where
  chain : FreeChain s.list s.granted
  isRef : ∀ ref, s.granted ref ≠ none → IsRef ref

theorem isRef_update {granted : Granted} (h : ∀ ref, granted ref ≠ none → IsRef ref)
    {ref : UInt32} (hr : IsRef ref) (g : Option Grant) :
    ∀ ref', Function.update granted ref g ref' ≠ none → IsRef ref' := by
  intro ref' hne
  by_cases he : ref' = ref
  · rw [he]
    exact hr
  · rw [Function.update_of_ne he] at hne
    exact h ref' hne

/-- One call. -/
theorem Grants.Sound.call {T : Type} {s : Grants T} (h : s.Sound) {c : GrantCall}
    (hc : c.Outstanding s.granted) {r : GrantResult × GnttabList} (he : c.Effect s.list r)
    (mem : T) :
    Grants.Sound ⟨r.2, c.after s.granted r.1, mem⟩ ∧ c.Fresh s.granted r.1 := by
  obtain ⟨hchain, href⟩ := h
  cases c with
  | grantAccess domid frame readonly =>
      obtain rfl := he
      obtain ⟨hfree, htake⟩ := hchain.take (exists_free_ref hc) ⟨.access, domid, frame⟩
      exact ⟨⟨htake, isRef_update href hfree.1 _⟩, _, rfl, hfree⟩
  | grantTransfer domid pfn =>
      obtain rfl := he
      obtain ⟨hfree, htake⟩ := hchain.take (exists_free_ref hc) ⟨.transfer, domid, pfn⟩
      exact ⟨⟨htake, isRef_update href hfree.1 _⟩, _, rfl, hfree⟩
  | endAccess ref =>
      rcases he with rfl | rfl
      · exact ⟨⟨hchain, href⟩, trivial⟩
      · exact ⟨⟨hchain.put (href ref hc) hc, isRef_update href (href ref hc) none⟩, trivial⟩
  | endTransfer ref =>
      obtain ⟨frame, rfl⟩ := he
      exact ⟨⟨hchain.put (href ref hc) hc, isRef_update href (href ref hc) none⟩, trivial⟩

/-- What `init_gnttab` returns, if it does. -/
theorem wp_initGnttab {T : Type} {env : T → (e : GrantEvent) → e.Answer → T → Prop}
    (xen : XenHeaders) (gnttabTable : UInt64) (list : GnttabList) (g : T) :
    wp env (fun _ _ => True) (ofXen (initGnttab xen gnttabTable list))
      (fun l _ => l = putFreeEntries list) g := by
  refine wp_ofXen ?_
  simp only [initGnttab, wp_bind']
  refine wp_mono (fun _ _ _ => ?_) (wp_of_issues (fun _ _ _ _ => trivial)
    (fun _ _ _ _ _ _ _ => trivial) (issues_true (mapGrantFrames _ _ _)) (R := fun _ => True)
    trivial)
  exact ⟨trivial, fun _ _ _ => rfl⟩

variable {T : Type} {env : T → (e : GrantEvent) → e.Answer → T → Prop} {xen : GrantHeaders}
  {proper : Granted → GrantCall → Prop} {start : T} {s : Grants T}

/-- Every state between calls is sound, if every call names what is outstanding. -/
theorem sound_of_reachable (hproper : ∀ granted c, proper granted c → c.Outstanding granted)
    (h : Grants.Reachable xen env proper start s) : s.Sound := by
  induction h with
  | init hr =>
      have hlist := post_of_run (wp_initGnttab _ _ _ _) hr
      have hchain : FreeChain (putFreeEntries fun _ => 0) fun _ => none := freeChain_init rfl
      rw [← hlist] at hchain
      exact ⟨hchain, fun ref hne => (hne rfl).elim⟩
  | call h hc hr ih =>
      have he := post_of_run (wp_effect _ _ _ _) hr
      exact (ih.call (hproper _ _ hc) he _).1

/-- **No reference is lost or handed out twice.** In every state between calls
the chain through `gnttab_list` visits the references that are not outstanding,
each once, and no others; and a grant returns one of them. -/
theorem grants_never_lost (h : Grants.Reachable xen env GrantCall.OfKind start s) :
    FreeChain s.list s.granted ∧
      ∀ (c : GrantCall) (result : GrantResult) (list : GnttabList) (mem : T),
        c.OfKind s.granted → Run env (s.mem, c.prog xen s.list) (mem, ret (result, list)) →
        c.Fresh s.granted result := by
  have hsound := sound_of_reachable (fun _ _ => GrantCall.OfKind.outstanding) h
  refine ⟨hsound.chain, fun c result list mem hc hr => ?_⟩
  have he := post_of_run (wp_effect _ _ _ _) hr
  exact (hsound.call hc.outstanding he mem).2

/-! ## one grant after `init_gnttab` -/

/-- The values of Xen's headers, as far as they matter here. -/
def xenHeaders : GrantHeaders where
  domidSelf := 0x7FF0
  xenmemAddToPhysmap := 7
  xenmapspaceSharedInfo := 0
  xenmapspaceGrantTable := 1
  xenverVersion := 0
  gtfPermitAccess := 1
  gtfReadonly := 4
  gtfAcceptTransfer := 2
  gtfReading := 8
  gtfWriting := 16
  gtfTransferCommitted := 4
  gtfTransferCompleted := 8

/-- The list after `init_gnttab`. -/
@[irreducible] def initList : GnttabList := putFreeEntries fun _ => 0

theorem numOutstanding_none : numOutstanding (fun _ => none) < 504 := by
  have hnil : grantRefs.filter (fun _ => (none : Option Grant).isSome) = [] :=
    List.filter_eq_nil_iff.mpr fun _ _ => by decide
  rw [numOutstanding, hnil]
  decide

/-- Its first reference. -/
theorem isRef_initList : IsRef (initList 0) := by
  have hchain : FreeChain initList fun _ => none := by
    unfold initList
    exact freeChain_init rfl
  exact (hchain.take (exists_free_ref numOutstanding_none) ⟨.access, 0, 0⟩).1.1

/-- An environment that answers anything. -/
def anyAnswer : Unit → (e : GrantEvent) → e.Answer → Unit → Prop := fun _ _ _ _ => True

theorem run_init_anyAnswer : Run anyAnswer
    ((), ofXen (initGnttab xenHeaders.toXenHeaders 0x100000 fun _ => 0)) ((), ret initList) := by
  have h : ∀ e r, anyAnswer () e r () := fun _ _ => trivial
  unfold initList
  refine .head (.call (h _ (0 : Int32))) ?_
  refine .head (.call (h _ ())) ?_
  exact .refl

theorem run_grant_anyAnswer (list : GnttabList) : Run anyAnswer
    ((), (GrantCall.grantAccess 6 5 0).prog xenHeaders list)
      ((), ret (.ref (list 0), (getFreeEntry list).2)) := by
  have h : ∀ e r, anyAnswer () e r () := fun _ _ => trivial
  refine .head (.call (h _ ())) ?_
  refine .head (.call (h _ ())) ?_
  refine .head (.call (h _ ())) ?_
  exact .refl

/-- One reference is out, the others are in the chain. -/
theorem grants_never_lost_sample : FreeChain (getFreeEntry initList).2
    (Function.update (fun _ => none) (initList 0) (some ⟨.access, 6, 5⟩)) :=
  (grants_never_lost (.call (.init run_init_anyAnswer) (c := .grantAccess 6 5 0)
    numOutstanding_none (run_grant_anyAnswer _))).1

end UefiKernel.Xen
