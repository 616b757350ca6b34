import Mathlib.Algebra.Group.Nat.Defs
import UefiKernel.Xen.SharedTable

/-!
# UefiKernel.Xen.Exposure

What the other domain gets to see, over any number of calls and any order of
the two parties' steps.

An entry is visible when its type bits permit access, or when its flags offer a
transfer that nobody has taken up.  A visible entry always belongs to a
reference that is outstanding, or in the hands of the call in progress, and
carries what that call was given (`nothing_half_made`).

This needs each reference to be ended as what it was granted for in one
direction: ending a transfer of a reference that was granted for access frees
it while the page stays visible (`access_ended_as_transfer`), because the bits
that mean a page is read-only and being read are the ones that mean a transfer
is committed and completed.
-/

namespace UefiKernel.Xen

open Relation Interact Prog Rely

/-- Every visible entry belongs to what is granted, and carries it. -/
def NothingHalfMade (granted : Granted) (t : GrantTable) : Prop :=
  ∀ ref, IsRef ref → (t ref).type = 1 ∨ (t ref).flags = 2 →
    ∃ g, granted ref = some g ∧ (t ref).domid = g.domid ∧ (t ref).frame.toUInt64 = g.frame

theorem TableOk.nothingHalfMade {granted : Granted} {t : GrantTable} (h : TableOk granted t) :
    NothingHalfMade granted t := by
  intro ref href hvisible
  rcases h ref href with hidle | ⟨g, hg, hdomid, hlive⟩
  · exfalso
    rw [GrantEntry.type] at hvisible
    rcases hidle with h0 | h0 <;> rw [h0] at hvisible <;> revert hvisible <;> decide
  · refine ⟨g, hg, hdomid, ?_⟩
    cases hkind : g.kind with
    | access =>
        rw [hkind] at hlive
        exact hlive.2
    | transfer =>
        rw [hkind] at hlive
        rcases hlive with ⟨-, hframe⟩ | h0 | h0
        · exact hframe
        all_goals
          rw [GrantEntry.type, h0] at hvisible
          exact absurd hvisible (by decide)

/-- What is granted while a call is in progress: also what it is granting. -/
def GrantCall.during (list : GnttabList) (granted : Granted) : GrantCall → Granted
  | grantAccess domid frame _ => Function.update granted (list 0) (some ⟨.access, domid, frame⟩)
  | grantTransfer domid pfn => Function.update granted (list 0) (some ⟨.transfer, domid, pfn⟩)
  | endAccess _ | endTransfer _ => granted

/-- Frames below 2^32, and 0 or 1 for `readonly`. -/
def GrantCall.ArgsOk : GrantCall → Prop
  | grantAccess _ frame readonly => frame.toNat < 2 ^ 32 ∧ (readonly = 0 ∨ readonly = 1)
  | grantTransfer _ pfn => pfn.toNat < 2 ^ 32
  | _ => True

/-- A transfer is ended only of a reference that was granted for one. -/
def GrantCall.EndsTransfers (granted : Granted) : GrantCall → Prop
  | endTransfer ref => ∃ g, granted ref = some g ∧ g.kind = .transfer
  | _ => True

/-- Calls on outstanding references, of either kind. -/
def GrantCall.Named (granted : Granted) (c : GrantCall) : Prop := c.Outstanding granted ∧ c.ArgsOk

/-- The same, with `gnttab_end_transfer` for transfers only. -/
def GrantCall.Careful (granted : Granted) (c : GrantCall) : Prop :=
  c.Named granted ∧ c.EndsTransfers granted

/-! ## one call -/

section Call

variable {xen : GrantHeaders} (hx : xen.FromXen) {s : Grants Shared} (hsound : s.Sound)
  (hok : TableOk s.granted s.mem.table)

theorem toUInt64_toUInt32 {frame : UInt64} (h : frame.toNat < 2 ^ 32) :
    frame.toUInt32.toUInt64 = frame := by
  refine UInt64.toNat_inj.mp ?_
  rw [UInt32.toNat_toUInt64, UInt64.toNat_toUInt32, Nat.mod_eq_of_lt h]

include hsound hok in
/-- The reference a grant takes has an idle entry. -/
theorem idle_of_free (hroom : numOutstanding s.granted < 504) :
    (s.mem.table (s.list 0)).Idle := by
  obtain ⟨⟨href, hnone⟩, -⟩ := hsound.chain.take (exists_free_ref hroom) ⟨.access, 0, 0⟩
  rcases hok _ href with hidle | ⟨g, hg, -⟩
  · exact hidle
  · rw [hnone] at hg
    cases hg

include hx hsound hok

/-- A call keeps the table sound, for what is granted while it runs and for
what is granted when it is over. -/
theorem keeps_prog {c : GrantCall} (hc : c.Careful s.granted) :
    KeepsTable (c.during s.list s.granted) (c.prog xen s.list)
      (fun r s' => TableOk (c.after s.granted r.1) s'.table) s.mem := by
  obtain ⟨⟨hout, hargs⟩, htransfer⟩ := hc
  cases c with
  | grantAccess domid frame readonly =>
      have hidle := idle_of_free hsound hok hout
      refine Keeps.seq (keeps_grant (g := ⟨.access, domid, frame⟩) (Function.update_self ..)
        (toUInt64_toUInt32 hargs.1) ?_ (hok.regrant hidle _) hidle _) ?_
      · intro e hdomid hframe
        refine ⟨hdomid, ?_, hframe⟩
        have htype : (1 ||| readonly.toUInt32 * 4).toUInt16 &&& 3 = 1 := by
          rcases hargs.2 with rfl | rfl <;> decide
        rw [GrantEntry.type, hx.permitAccess, hx.readonly]
        exact htype
      · rintro _ s' ⟨rfl, h⟩
        exact h
  | grantTransfer domid pfn =>
      have hidle := idle_of_free hsound hok hout
      refine Keeps.seq (keeps_grant (g := ⟨.transfer, domid, pfn⟩) (Function.update_self ..)
        (toUInt64_toUInt32 hargs) ?_ (hok.regrant hidle _) hidle _) ?_
      · intro e hdomid hframe
        refine ⟨hdomid, .inl ⟨?_, hframe⟩⟩
        rw [hx.acceptTransfer]
        rfl
      · rintro _ s' ⟨rfl, h⟩
        exact h
  | endAccess ref =>
      refine Keeps.seq (keeps_gnttabEndAccess hx ref hok) ?_
      rintro ⟨ok, list⟩ s' ⟨hok', h⟩
      rcases h with rfl | ⟨rfl, hidle, -⟩
      · exact hok'
      · exact hok'.regrant hidle none
  | endTransfer ref =>
      obtain ⟨g, hg, hkind⟩ := htransfer
      have hg' : ∀ g', s.granted ref = some g' → g'.kind = .transfer := by
        intro g' h
        rw [hg] at h
        cases h
        exact hkind
      refine Keeps.seq (keeps_gnttabEndTransfer hx (hsound.isRef ref hout) hg' hok) ?_
      rintro ⟨frame, list⟩ s' ⟨hok', hidle, -⟩
      exact hok'.regrant hidle none

end Call

/-! ## any number of calls -/

/-- Neither `init_gnttab` nor what it calls stores to the table. -/
theorem issues_initGnttab (xen : XenHeaders) (gnttabTable : UInt64) (list : GnttabList) :
    (ofXen (initGnttab xen gnttabTable list)).Issues fun e => ∀ t r t', e.acts t r t' → t' = t := by
  refine wp_ofXen ?_
  have hhyper : ∀ (call : Hypercall) (t : GrantTable) (r : Int32) (t' : GrantTable),
      (GrantEvent.xen (.hypercall call)).acts t r t' → t' = t := fun _ _ _ _ h => h
  have hprint : ∀ (format : String) (args : List UInt64) (t : GrantTable) (r : Unit)
      (t' : GrantTable), (GrantEvent.xen (.printf format args)).acts t r t' → t' = t :=
    fun _ _ _ _ _ h => h
  simp only [initGnttab, nrGrantFrames, mapGrantFrames, hypercall, printf, wp_bind', wp_req, wp_ite,
    wp_pure]
  refine ⟨hhyper _, fun result _ _ => ⟨fun _ => ⟨hprint _ _, fun _ _ _ => ?_⟩, fun _ => ?_⟩⟩
  · exact wp_loop (fun _ _ => True) trivial fun _ _ _ => trivial
  · exact ⟨hprint _ _, fun _ _ _ => trivial⟩

section Runs

variable {xen : GrantHeaders} (hx : xen.FromXen) {start : Shared}
  (hzero : ∀ ref, start.table ref = ⟨0, 0, 0⟩) {s : Grants Shared}

include hzero in
/-- The table that `init_gnttab` leaves. -/
theorem keeps_initGnttab (gnttabTable : UInt64) (list : GnttabList) :
    KeepsTable (fun _ => none) (ofXen (initGnttab xen.toXenHeaders gnttabTable list))
      (fun _ s' => TableOk (fun _ => none) s'.table) start := by
  have hstart : TableOk (fun _ => none) start.table := by
    intro ref _
    rw [hzero]
    exact .inl (.inl rfl)
  have hevent : ∀ (g : Shared) (e : GrantEvent) (r : e.Answer) (g' : Shared),
      (∀ t r t', e.acts t r t' → t' = t) → TableOk (fun _ => none) g.table →
      sharedEnv g e r g' → TableOk (fun _ => none) g'.table := by
    rintro g e r g' he hg ⟨t, hother, hact, -⟩
    rw [he _ _ _ hact]
    exact (stable_tableOk _).steps hother hg
  exact wp_of_issues (fun g e he hg r g' h => hevent g e r g' he hg h) hevent
    (issues_initGnttab _ _ _) hstart

include hx hzero

theorem tableOk_of_reachable (h : Grants.Reachable xen sharedEnv GrantCall.Careful start s) :
    s.Sound ∧ TableOk s.granted s.mem.table := by
  have hproper : ∀ granted c, GrantCall.Careful granted c → c.Outstanding granted :=
    fun _ _ hc => hc.1.1
  refine ⟨sound_of_reachable hproper h, ?_⟩
  induction h with
  | init hr => exact (keeps_initGnttab hzero _ _).result hr
  | call h hc hr ih => exact (keeps_prog hx (sound_of_reachable hproper h) ih hc).result hr

/-- **Nothing half made is visible.** In every order of the hypervisor's steps
and the kernel's accesses, between calls and at every point of a call, each
visible entry belongs to what is granted and carries it.  An access is ended
only by replacing flags without the reading and writing bits by 0. -/
theorem nothing_half_made (h : Grants.Reachable xen sharedEnv GrantCall.Careful start s) :
    (∀ t, ReflTransGen HypervisorStep s.mem.table t → NothingHalfMade s.granted t) ∧
    (∀ c : GrantCall, c.Careful s.granted → ∀ mem p,
      Run sharedEnv (s.mem, c.prog xen s.list) (mem, p) → ∀ t,
        ReflTransGen HypervisorStep mem.table t → NothingHalfMade (c.during s.list s.granted) t) ∧
    (∀ ref list mem, Run sharedEnv (s.mem, gnttabEndAccess xen s.list ref) (mem, ret (1, list)) →
      ∃ new, mem.log = s.mem.log ++ new ∧ ∃ a ∈ new, ReplacedByZero ref a) := by
  obtain ⟨hsound, hok⟩ := tableOk_of_reachable hx hzero h
  have later : ∀ {granted t t'}, TableOk granted t → ReflTransGen HypervisorStep t t' →
      NothingHalfMade granted t' := by
    intro granted t t' ht hs
    have hstable : Stable HypervisorStep (TableOk granted) := fun _ _ hs h => h.hypervisor hs
    exact (hstable.steps hs ht).nothingHalfMade
  refine ⟨fun t ht => later hok ht, fun c hc mem p hr t ht => ?_, fun ref list mem hr => ?_⟩
  · have hkeeps := keeps_prog hx hsound hok hc
    have hstart : TableOk (c.during s.list s.granted) s.mem.table := by
      cases c with
      | grantAccess _ _ _ | grantTransfer _ _ =>
          exact hok.regrant (idle_of_free hsound hok hc.1.1) _
      | endAccess _ | endTransfer _ => exact hok
    exact later (hkeeps.always (stable_tableOk _) hstart hr .refl) ht
  · obtain ⟨-, h0 | ⟨-, -, hlog⟩⟩ := (keeps_gnttabEndAccess hx ref hok).result hr
    · exact absurd h0 (show (1 : Int32) ≠ 0 by decide)
    · exact hlog

end Runs

/-! ## a page granted and read -/

/-- The table as the hypervisor hands it over. -/
def zeroShared : Shared := ⟨fun _ => ⟨0, 0, 0⟩, []⟩

/-- The table with frame 5 granted to domain 1 for reading, at any stage. -/
def grantedTable (flags domid : UInt16) : GrantTable :=
  Function.update (fun _ => ⟨0, 0, 0⟩) (initList 0) ⟨flags, domid, 5⟩

/-- What is granted then. -/
def sampleGranted : Granted := Function.update (fun _ => none) (initList 0) (some ⟨.access, 1, 5⟩)

/-- An event with no move of the hypervisor before it. -/
theorem sharedEnv_quiet {t t' : GrantTable} {log : List TableAccess} {e : GrantEvent}
    {r : e.Answer} (h : e.acts t r t') : sharedEnv ⟨t, log⟩ e r ⟨t', log ++ [⟨e, r, t⟩]⟩ :=
  ⟨⟨t, log⟩, .refl, h, rfl⟩

theorem exists_run_init : ∃ log, Run sharedEnv (zeroShared,
    ofXen (initGnttab xenHeaders.toXenHeaders 0x100000 fun _ => 0))
      (⟨zeroShared.table, log⟩, ret initList) := by
  have hcall : ∀ call t, (GrantEvent.xen (.hypercall call)).acts t (0 : Int32) t := fun _ _ => rfl
  have hprint : ∀ format args t, (GrantEvent.xen (.printf format args)).acts t () t :=
    fun _ _ _ => rfl
  unfold initList
  exact ⟨_, .head (.call (sharedEnv_quiet (hcall _ _)))
    (.head (.call (sharedEnv_quiet (hprint _ _ _))) .refl)⟩

theorem exists_run_grant (log : List TableAccess) : ∃ log', Run sharedEnv
    (⟨zeroShared.table, log⟩, (GrantCall.grantAccess 1 5 1).prog xenHeaders initList)
      (⟨grantedTable 5 1, log'⟩, ret (.ref (initList 0), (getFreeEntry initList).2)) := by
  have hframe : (GrantEvent.xen (.storeGrant (initList 0) (.frame 5))).acts zeroShared.table ()
      (grantedTable 0 0) := rfl
  have hdomid : (GrantEvent.xen (.storeGrant (initList 0) (.domid 1))).acts (grantedTable 0 0) ()
      (grantedTable 0 1) := by
    simp [GrantEvent.acts, grantedTable]
  have hflags : (GrantEvent.xen (.storeGrant (initList 0) (.flags 5))).acts (grantedTable 0 1) ()
      (grantedTable 5 1) := by
    simp [GrantEvent.acts, grantedTable]
  exact ⟨_, .head (.call (sharedEnv_quiet hframe))
    (.head (.call (sharedEnv_quiet hdomid)) (.head (.call (sharedEnv_quiet hflags)) .refl))⟩

/-- One grant after `init_gnttab`. -/
theorem exists_reachable_granted {proper : Granted → GrantCall → Prop}
    (h : proper (fun _ => none) (.grantAccess 1 5 1)) :
    ∃ log, Grants.Reachable xenHeaders sharedEnv proper zeroShared
      ⟨(getFreeEntry initList).2, sampleGranted, grantedTable 5 1, log⟩ := by
  obtain ⟨log, hinit⟩ := exists_run_init
  obtain ⟨log', hgrant⟩ := exists_run_grant log
  exact ⟨log', .call (.init hinit) h hgrant⟩

/-- The other domain starts to read the page. -/
theorem hypervisor_reads : HypervisorStep (grantedTable 5 1) (grantedTable 13 1) := by
  have hentry : grantedTable 5 1 (initList 0) = ⟨5, 1, 5⟩ := Function.update_self ..
  have htype : (grantedTable 5 1 (initList 0)).type = 1 := by
    rw [hentry]
    rfl
  have hstep := HypervisorStep.step (.use htype (.inl rfl))
  rw [hentry, grantedTable, Function.update_idem] at hstep
  exact hstep

theorem named_grant : GrantCall.Named (fun _ => none) (.grantAccess 1 5 1) :=
  ⟨numOutstanding_none, by decide, .inr rfl⟩

/-- The page that is being read is the one that was granted. -/
theorem nothing_half_made_sample : NothingHalfMade sampleGranted (grantedTable 13 1) := by
  have hcall : GrantCall.Careful (fun _ => none) (.grantAccess 1 5 1) := ⟨named_grant, trivial⟩
  obtain ⟨log, h⟩ := exists_reachable_granted hcall
  exact (nothing_half_made fromXen_xenHeaders (fun _ => rfl) h).1 _ (.single hypervisor_reads)

/-- The entry, while it is being read, has the flags of a committed transfer. -/
theorem run_uncommitted (log : List TableAccess) :
    ∃ log', Run sharedEnv
      (⟨grantedTable 5 1, log⟩, loop (uncommittedStep xenHeaders (initList 0)) ())
        (⟨grantedTable 13 1, log'⟩, ret (some (13 : UInt16))) := by
  have hentry : grantedTable 13 1 (initList 0) = ⟨13, 1, 5⟩ := Function.update_self ..
  have hflags : sharedEnv ⟨grantedTable 5 1, log⟩ (.loadFlags (initList 0)) (13 : UInt16)
      ⟨grantedTable 13 1,
        log ++ [⟨.loadFlags (initList 0), (13 : UInt16), grantedTable 13 1⟩]⟩ := by
    refine ⟨⟨grantedTable 13 1, log⟩, .single ⟨hypervisor_reads, rfl⟩, ⟨?_, rfl⟩, rfl⟩
    exact (congrArg GrantEntry.flags hentry).symm
  have hload : Run sharedEnv (_, loadFlags (initList 0)) (_, ret (13 : UInt16)) :=
    .req hflags
  have hpass : Run sharedEnv (_, uncommittedStep xenHeaders (initList 0) ())
      (_, ret (.inr (some (13 : UInt16)))) := Run.seq hload .refl
  exact ⟨_, Run.leave hpass .refl⟩

/-- And those of a completed one. -/
theorem run_uncompleted (g : Shared) :
    Run sharedEnv (g, loop (uncompletedStep xenHeaders (initList 0)) (13 : UInt16)) (g, ret ()) :=
  .single .iter

/-- Ending a transfer of it, while it is being read, returns at once. -/
theorem exists_run_endTransfer (list : GnttabList) (log : List TableAccess) :
    ∃ log', Run sharedEnv
      (⟨grantedTable 5 1, log⟩, (GrantCall.endTransfer (initList 0)).prog xenHeaders list)
        (⟨grantedTable 13 1, log'⟩, ret (.frame 5, putFreeEntry list (initList 0))) := by
  have hentry : grantedTable 13 1 (initList 0) = ⟨13, 1, 5⟩ := Function.update_self ..
  have hframe : (GrantEvent.loadFrame (initList 0)).acts (grantedTable 13 1) (5 : UInt32)
      (grantedTable 13 1) :=
    ⟨(congrArg GrantEntry.frame hentry).symm, rfl⟩
  obtain ⟨log', hcommitted⟩ := run_uncommitted log
  have hload : Run sharedEnv (⟨_, log'⟩, loadFrame (initList 0)) (_, ret (5 : UInt32)) :=
    .req (sharedEnv_quiet hframe)
  have hend : Run sharedEnv (_, gnttabEndTransfer xenHeaders list (initList 0))
      (_, ret ((5 : UInt64), putFreeEntry list (initList 0))) :=
    Run.seq hcommitted (Run.seq (run_uncompleted _) (Run.seq hload .refl))
  exact ⟨_, Run.seq hend .refl⟩

/-- A page granted for access and ended as a transfer is visible and free. -/
theorem access_ended_as_transfer :
    ¬ ∀ s, Grants.Reachable xenHeaders sharedEnv GrantCall.Named zeroShared s →
      NothingHalfMade s.granted s.mem.table := by
  intro hall
  obtain ⟨log, h⟩ := exists_reachable_granted named_grant
  obtain ⟨log', hend⟩ := exists_run_endTransfer (getFreeEntry initList).2 log
  have hcall : GrantCall.Named sampleGranted (.endTransfer (initList 0)) := by
    refine ⟨?_, trivial⟩
    rw [GrantCall.Outstanding, sampleGranted, Function.update_self]
    exact Option.some_ne_none _
  have hentry : grantedTable 13 1 (initList 0) = ⟨13, 1, 5⟩ := Function.update_self ..
  have hvisible : (grantedTable 13 1 (initList 0)).type = 1 := by
    rw [hentry]
    rfl
  obtain ⟨g, hg, -⟩ := hall _ (.call h hcall hend) (initList 0) isRef_initList (.inl hvisible)
  have hnone : Function.update sampleGranted (initList 0) none (initList 0) = none :=
    Function.update_self ..
  exact Option.some_ne_none g (hg.symm.trans hnone)

end UefiKernel.Xen
