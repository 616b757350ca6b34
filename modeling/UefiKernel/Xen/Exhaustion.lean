import UefiKernel.Xen.FreeRefs

/-!
# UefiKernel.Xen.Exhaustion

A grant when every reference is outstanding.

Entry 0 of `gnttab_list` is where the chain starts and what ends it.  When the
chain is empty, `get_free_entry` takes this entry out of itself, and the grant
goes to reference 0, which is reserved (`exhausted_not_clean`).  Giving it back
makes the list forget all that was put there before (`linked_foldl_zero`).
-/

namespace UefiKernel.Xen

open Interact Prog
open Threaded

/-- Every reference that may be granted is outstanding. -/
def Exhausted (granted : Granted) : Prop := ∀ ref, IsRef ref → granted ref ≠ none

/-- A call that takes a reference. -/
def GrantCall.TakesRef : GrantCall → Prop
  | grantAccess _ _ _ | grantTransfer _ _ => True
  | endAccess _ | endTransfer _ => False

section Exhausted

variable {T : Type} {env : T → (e : GrantEvent) → e.Answer → T → Prop} {xen : GrantHeaders}

/-- `gnttab_end_access` on each of the references, in this order, and each time
with success. -/
inductive EndsAccesses (xen : GrantHeaders)
    (env : T → (e : GrantEvent) → e.Answer → T → Prop) :
    Grants T → List UInt32 → Grants T → Prop
  | nil (s : Grants T) : EndsAccesses xen env s [] s
  | cons {s s' : Grants T} {ref : UInt32} {refs : List UInt32} {list : GnttabList} {mem : T}
      (hr : Run env (s.mem, (GrantCall.endAccess ref).prog xen s.list)
        (mem, ret (.ended 1, list)))
      (h : EndsAccesses xen env ⟨list, Function.update s.granted ref none, mem⟩ refs s') :
      EndsAccesses xen env s (ref :: refs) s'

/-- A grant stores to no reserved entry and returns no reference that is reserved
or outstanding; and ending everything obtained, in any order, fills the list
again. -/
structure GrantCall.FailsCleanly (xen : GrantHeaders)
    (env : T → (e : GrantEvent) → e.Answer → T → Prop) (s : Grants T) (c : GrantCall) :
    Prop where
  spares : ∀ (mem : T) (ref : UInt32) (store : GrantStore) k,
    Run env (s.mem, c.prog xen s.list) (mem, call (.xen (.storeGrant ref store)) k) →
    nrReservedEntries ≤ ref.toNat
  usable : ∀ (mem : T) (ref : UInt32) (list : GnttabList),
    Run env (s.mem, c.prog xen s.list) (mem, ret (.ref ref, list)) →
    nrReservedEntries ≤ ref.toNat ∧ s.granted ref = none
  recovers : ∀ (mem : T) (result : GrantResult) (list : GnttabList) (refs : List UInt32)
    (s' : Grants T), Run env (s.mem, c.prog xen s.list) (mem, ret (result, list)) →
    refs.Nodup → (∀ ref, ref ∈ refs ↔ c.after s.granted result ref ≠ none) →
    EndsAccesses xen env ⟨list, c.after s.granted result, mem⟩ refs s' →
    FreeChain s'.list fun _ => none

/-! ## the list -/

/-- With nothing free the chain is empty. -/
theorem FreeChain.exhausted {list : GnttabList} {granted : Granted} (h : FreeChain list granted)
    (hfull : Exhausted granted) : list 0 = 0 := by
  obtain ⟨chain, hl, -, hmem⟩ := h
  cases hl with
  | last h => exact h
  | @cons _ j l hj _ _ =>
      obtain ⟨href, hnone⟩ := (hmem j).mp List.mem_cons_self
      exact absurd hnone (hfull j href)

/-- Taking from an empty chain gives 0 and changes nothing. -/
theorem getFreeEntry_of_zero {list : GnttabList} (h : list 0 = 0) :
    getFreeEntry list = (0, list) := by
  rw [getFreeEntry_eq, Threaded.take, h, h, Function.update_eq_self_iff.mpr h.symm]

/-- The chain after putting references that include 0: those that came after it. -/
theorem linked_foldl_zero {list : GnttabList} {before after : List UInt32}
    (hn : (before ++ 0 :: after).Nodup) :
    Linked ((before ++ 0 :: after).foldl putFreeEntry list) 0 after.reverse := by
  obtain ⟨-, hn, -⟩ := List.nodup_append.mp hn
  obtain ⟨hz, hn⟩ := List.nodup_cons.mp hn
  rw [List.foldl_append, List.foldl_cons]
  have hempty : putFreeEntry (before.foldl putFreeEntry list) 0 0 = 0 := by
    rw [putFreeEntry_eq, Threaded.put, Function.update_self]
  have h := linked_foldl_put (.last hempty) hz hn fun _ _ => List.not_mem_nil
  rwa [List.append_nil] at h

/-- What the ends of accesses do to the list. -/
theorem EndsAccesses.list_eq {s s' : Grants T} {refs : List UInt32}
    (h : EndsAccesses xen env s refs s') : s'.list = refs.foldl putFreeEntry s.list := by
  induction h with
  | nil => rfl
  | @cons s s' ref refs list mem hr _ ih =>
      have hlist : list = putFreeEntry s.list ref := by
        rcases post_of_run (wp_effect xen s.list s.mem (.endAccess ref)) hr with he | he
        · exact absurd (congrArg Prod.fst he) (show GrantResult.ended 1 ≠ .ended 0 by decide)
        · exact congrArg Prod.snd he
      rw [ih, List.foldl_cons, hlist]

/-- The list recovers only if 0 is given back first. -/
theorem freeChain_iff {granted : Granted} {g : Grant} {list : GnttabList}
    {before after : List UInt32} (hsound : ∀ ref, granted ref ≠ none → IsRef ref)
    (hfull : Exhausted granted) (hn : (before ++ 0 :: after).Nodup)
    (hmem : ∀ ref, ref ∈ before ++ 0 :: after ↔
      Function.update granted 0 (some g) ref ≠ none) :
    FreeChain ((before ++ 0 :: after).foldl putFreeEntry list) (fun _ => none) ↔
      before = [] := by
  have hlinked : Linked ((before ++ 0 :: after).foldl putFreeEntry list) 0 after.reverse :=
    linked_foldl_zero hn
  have hrefs : ∀ ref, ref ≠ 0 → (ref ∈ before ++ 0 :: after ↔ IsRef ref) := by
    intro ref hne
    rw [hmem, Function.update_of_ne hne]
    exact ⟨hsound ref, hfull ref⟩
  obtain ⟨-, hafter, hdisj⟩ := List.nodup_append.mp hn
  constructor
  · rintro ⟨chain, hl, -, hchain⟩
    obtain rfl := hl.unique hlinked
    refine List.eq_nil_iff_forall_not_mem.mpr fun ref href => ?_
    have hne : ref ≠ 0 := hdisj ref href 0 List.mem_cons_self
    have hlater := (hchain ref).mpr
      ⟨(hrefs ref hne).mp (List.mem_append_left _ href), rfl⟩
    exact hdisj ref href ref (List.mem_cons_of_mem 0 (List.mem_reverse.mp hlater)) rfl
  · rintro rfl
    obtain ⟨hz, hafter⟩ := List.nodup_cons.mp hafter
    refine ⟨_, hlinked, List.nodup_reverse.mpr hafter, fun ref => ?_⟩
    rw [List.mem_reverse, and_iff_left rfl]
    by_cases hne : ref = 0
    · rw [hne]
      exact ⟨fun h => absurd h hz, fun h => absurd rfl h.ne_zero⟩
    · rw [← hrefs ref hne, List.nil_append, List.mem_cons, or_iff_right hne]

/-! ## the call -/

/-- The first thing a grant does. -/
theorem run_first_store {s : Grants T} {c : GrantCall} (hc : c.TakesRef) :
    ∃ frame k, Run env (s.mem, c.prog xen s.list)
      (s.mem, call (.xen (.storeGrant (s.list 0) (.frame frame))) k) := by
  cases c with
  | grantAccess | grantTransfer => exact ⟨_, _, .refl⟩
  | endAccess | endTransfer => exact hc.elim

/-- **A grant does not fail cleanly** when all references are outstanding: it
makes reference 0 up, and the list recovers only if this one is ended first. -/
theorem exhausted_not_clean {start : T} {s : Grants T} {c : GrantCall}
    (h : Grants.Reachable xen env GrantCall.Outstanding start s) (hfull : Exhausted s.granted)
    (hc : c.TakesRef) :
    ¬ c.FailsCleanly xen env s ∧
      ∀ (mem : T) (result : GrantResult) (list : GnttabList),
        Run env (s.mem, c.prog xen s.list) (mem, ret (result, list)) →
        result = .ref 0 ∧ list = s.list ∧
        ∀ (before after : List UInt32) (s' : Grants T), (before ++ 0 :: after).Nodup →
          (∀ ref, ref ∈ before ++ 0 :: after ↔ c.after s.granted result ref ≠ none) →
          EndsAccesses xen env ⟨list, c.after s.granted result, mem⟩ (before ++ 0 :: after) s' →
          (FreeChain s'.list (fun _ => none) ↔ before = []) := by
  have hsound := sound_of_reachable (fun _ _ h => h) h
  have hempty := hsound.chain.exhausted hfull
  refine ⟨fun hclean => ?_, fun mem result list hr => ?_⟩
  · obtain ⟨frame, k, hr⟩ : ∃ frame k, Run env (s.mem, c.prog xen s.list)
        (s.mem, call (.xen (.storeGrant (s.list 0) (.frame frame))) k) := run_first_store hc
    rw [hempty] at hr
    exact absurd (hclean.spares _ _ _ _ hr) (by decide)
  · have he := post_of_run (wp_effect xen s.list s.mem c) hr
    have hresult : (result, list) = (.ref 0, s.list) := by
      cases c with
      | grantAccess | grantTransfer =>
          rw [show (result, list) = _ from he, getFreeEntry_of_zero hempty, hempty]
      | endAccess | endTransfer => exact hc.elim
    obtain ⟨rfl, rfl⟩ := Prod.mk.inj hresult
    refine ⟨rfl, rfl, fun before after s' hn hmem hends => ?_⟩
    rw [hends.list_eq]
    cases c with
    | grantAccess | grantTransfer => exact freeChain_iff hsound.isRef hfull hn hmem
    | endAccess | endTransfer => exact hc.elim

end Exhausted

/-! ## 504 grants after `init_gnttab` -/

/-- Granting goes on until nothing is free. -/
theorem exists_exhausted_of_chain {s : Grants Unit} {chain : List UInt32}
    (h : Grants.Reachable xenHeaders anyAnswer GrantCall.Outstanding () s)
    (hl : Linked s.list 0 chain) (hn : chain.Nodup)
    (hmem : ∀ ref, ref ∈ chain ↔ IsRef ref ∧ s.granted ref = none) :
    ∃ s', Grants.Reachable xenHeaders anyAnswer GrantCall.Outstanding () s' ∧
      Exhausted s'.granted := by
  induction chain generalizing s with
  | nil => exact ⟨s, h, fun ref href hnone => List.not_mem_nil ((hmem ref).mpr ⟨href, hnone⟩)⟩
  | cons j l ih =>
      obtain rfl := hl.head
      obtain ⟨href, hnone⟩ := (hmem _).mp List.mem_cons_self
      refine ih (.call h (c := .grantAccess 6 5 0) (numOutstanding_lt href hnone)
        (run_grant_anyAnswer s.list)) ?_ (List.nodup_cons.mp hn).2 (mem_rest hn hmem _)
      rw [getFreeEntry_eq]
      exact hl.take

theorem exists_exhausted : ∃ s, Grants.Reachable xenHeaders anyAnswer GrantCall.Outstanding () s ∧
    Exhausted s.granted := by
  have h : Grants.Reachable xenHeaders anyAnswer GrantCall.Outstanding () _ :=
    .init run_init_anyAnswer
  obtain ⟨chain, hl, hn, hmem⟩ := (sound_of_reachable (fun _ _ h => h) h).chain
  exact exists_exhausted_of_chain h hl hn hmem

theorem exhausted_not_clean_sample : ∃ s : Grants Unit, Exhausted s.granted ∧
    ¬ (GrantCall.grantAccess 6 5 0).FailsCleanly xenHeaders anyAnswer s := by
  obtain ⟨s, h, hfull⟩ := exists_exhausted
  exact ⟨s, hfull, (exhausted_not_clean (c := .grantAccess 6 5 0) h hfull trivial).1⟩

/-- The 505th grant stores to entry 0. -/
theorem grant_hits_reserved : ¬ ∀ (s : Grants Unit) (c : GrantCall),
    Grants.Reachable xenHeaders anyAnswer GrantCall.Outstanding () s → Exhausted s.granted →
    c.TakesRef → c.FailsCleanly xenHeaders anyAnswer s := by
  intro hall
  obtain ⟨s, h, hfull⟩ := exists_exhausted
  have hclean := hall s (.grantAccess 6 5 0) h hfull trivial
  have hempty := (sound_of_reachable (fun _ _ h => h) h).chain.exhausted hfull
  have hr := hclean.spares s.mem (s.list 0) (.frame 5) _ .refl
  rw [hempty] at hr
  exact absurd hr (by decide)

end UefiKernel.Xen
