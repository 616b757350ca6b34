import UefiKernel.Lib.Rely
import UefiKernel.Xen.FreeRefs

/-!
# UefiKernel.Xen.SharedTable

The grant table as the kernel and the hypervisor share it.

Between any two accesses of the kernel the hypervisor may change entries, by
the rules of `PeerStep`: it marks pages that are granted for access as being
read or written, and carries transfers through, moving the frame on the way.
What it sees is an entry whose flags say so, whatever the kernel means by it.

The invariant is `TableOk`: an entry is idle, with flags of no use to anybody,
or it is live for what is granted under its reference.  The flags 14 of a
completed transfer are left behind when its reference is freed; they are idle
too, which is what makes the reuse of such a reference sound.
-/

namespace UefiKernel.Xen

open Relation Interact Prog Rely

/-! ## entries -/

/-- The values of the constants in Xen's `grant_table.h`. -/
structure GrantHeaders.FromXen (xen : GrantHeaders) : Prop where
  permitAccess : xen.gtfPermitAccess = 1
  acceptTransfer : xen.gtfAcceptTransfer = 2
  readonly : xen.gtfReadonly = 4
  reading : xen.gtfReading = 8
  writing : xen.gtfWriting = 16
  transferCommitted : xen.gtfTransferCommitted = 4
  transferCompleted : xen.gtfTransferCompleted = 8

theorem fromXen_xenHeaders : xenHeaders.FromXen := ⟨rfl, rfl, rfl, rfl, rfl, rfl, rfl⟩

/-- `grant_entry_v1_t`. -/
structure GrantEntry where
  flags : UInt16
  domid : UInt16
  frame : UInt32
  deriving DecidableEq, Repr, Inhabited

abbrev GrantTable := UInt32 → GrantEntry

/-- The type bits of the flags: 1 permits access, 2 accepts a transfer. -/
def GrantEntry.type (e : GrantEntry) : UInt16 := e.flags &&& 3

/-- What the hypervisor does to an entry, atomically. -/
inductive PeerStep : GrantEntry → GrantEntry → Prop
  | use {e : GrantEntry} {bit : UInt16} (h : e.type = 1) (hb : bit = 8 ∨ bit = 16) :
      PeerStep e { e with flags := e.flags ||| bit }
  | unuse {e : GrantEntry} {bit : UInt16} (h : e.type = 1) (hb : bit = 8 ∨ bit = 16) :
      PeerStep e { e with flags := e.flags &&& ~~~bit }
  | commit {e : GrantEntry} (h : e.type = 2) : PeerStep e { e with flags := e.flags ||| 4 }
  | move {e : GrantEntry} (h : e.type = 2) (hc : e.flags &&& 4 ≠ 0) (hn : e.flags &&& 8 = 0)
      (frame : UInt32) : PeerStep e { e with frame := frame }
  | complete {e : GrantEntry} (h : e.type = 2) (hc : e.flags &&& 4 ≠ 0) :
      PeerStep e { e with flags := e.flags ||| 8 }

/-- Flags that mean nothing to the hypervisor: none, or those of a transfer
that is over. -/
def GrantEntry.Idle (e : GrantEntry) : Prop := e.flags = 0 ∨ e.flags = 14

/-- The entry says what is granted. -/
def Grant.Live (g : Grant) (e : GrantEntry) : Prop :=
  e.domid = g.domid ∧
    match g.kind with
    | .access => e.type = 1 ∧ e.frame.toUInt64 = g.frame
    | .transfer => e.flags = 2 ∧ e.frame.toUInt64 = g.frame ∨ e.flags = 6 ∨ e.flags = 14

/-- The entry is idle, or live for what is granted. -/
def EntryOk (g : Option Grant) (e : GrantEntry) : Prop := e.Idle ∨ ∃ g', g = some g' ∧ g'.Live e

/-- The status bits are outside the type. -/
theorem or_and_three {f b : UInt16} (hb : b &&& 3 = 0) : (f ||| b) &&& 3 = f &&& 3 := by
  have h0 := congrArg UInt16.toNat hb
  refine UInt16.toNat_inj.mp ?_
  rw [UInt16.toNat_and] at h0
  rw [UInt16.toNat_and, UInt16.toNat_or, Nat.and_or_distrib_right, h0, UInt16.toNat_zero,
    Nat.or_zero, UInt16.toNat_and]

/-- The hypervisor leaves an idle entry alone. -/
theorem GrantEntry.Idle.peerStep {e e' : GrantEntry} (h : e.Idle) (hs : PeerStep e e') :
    e' = e := by
  have htype : e.type ≠ 1 ∧ (e.type = 2 → e.flags = 14) := by
    rcases h with h | h <;> rw [GrantEntry.type, h] <;> decide
  cases hs with
  | use ht _ => exact absurd ht htype.1
  | unuse ht _ => exact absurd ht htype.1
  | commit ht =>
      have hor : e.flags ||| 4 = e.flags := by rw [htype.2 ht]; rfl
      rw [hor]
  | move ht _ hn _ =>
      rw [htype.2 ht] at hn
      exact absurd hn (by decide)
  | complete ht _ =>
      have hor : e.flags ||| 8 = e.flags := by rw [htype.2 ht]; rfl
      rw [hor]

/-- The flags of a live transfer, before it is committed and after. -/
theorem Grant.Live.peerStep {g : Grant} {e e' : GrantEntry} (h : g.Live e) (hs : PeerStep e e') :
    g.Live e' := by
  obtain ⟨kind, domid, frame⟩ := g
  obtain ⟨hdomid, h⟩ := h
  cases kind with
  | access =>
      obtain ⟨htype, hframe⟩ := h
      have hne : e.type ≠ 2 := by rw [htype]; decide
      cases hs with
      | use _ hb =>
          refine ⟨hdomid, ?_, hframe⟩
          rw [← htype]
          exact or_and_three (by rcases hb with rfl | rfl <;> rfl)
      | unuse _ hb =>
          refine ⟨hdomid, ?_, hframe⟩
          rw [← htype, GrantEntry.type, GrantEntry.type, UInt16.and_assoc]
          rcases hb with rfl | rfl <;> rfl
      | commit ht | move ht _ _ _ | complete ht _ => exact absurd ht hne
  | transfer =>
      have hne : e.type ≠ 1 := by
        rcases h with ⟨h, -⟩ | h | h <;> rw [GrantEntry.type, h] <;> decide
      cases hs with
      | use ht _ | unuse ht _ => exact absurd ht hne
      | commit _ =>
          refine ⟨hdomid, .inr ?_⟩
          rcases h with ⟨h, -⟩ | h | h <;> simp only [h] <;> decide
      | move _ hc hn _ =>
          refine ⟨hdomid, ?_⟩
          rcases h with ⟨h, -⟩ | h | h
          · rw [h] at hc
            exact absurd rfl hc
          · exact .inr (.inl h)
          · exact .inr (.inr h)
      | complete _ hc =>
          refine ⟨hdomid, .inr (.inr ?_)⟩
          rcases h with ⟨h, -⟩ | h | h
          · rw [h] at hc
            exact absurd rfl hc
          · simp only [h]
            decide
          · simp only [h]
            decide

/-- What the peer does to an entry, a grant allows it to do. -/
theorem EntryOk.peerStep {g : Option Grant} {e e' : GrantEntry} (h : EntryOk g e)
    (hs : PeerStep e e') : EntryOk g e' := by
  rcases h with h | ⟨g', hg, h⟩
  · rw [h.peerStep hs]
    exact .inl h
  · exact .inr ⟨g', hg, h.peerStep hs⟩

/-! ## the table -/

/-- Some entry changes. -/
inductive HypervisorStep : GrantTable → GrantTable → Prop
  | step {t : GrantTable} {ref : UInt32} {e : GrantEntry} (h : PeerStep (t ref) e) :
      HypervisorStep t (Function.update t ref e)

/-- What an event of the kernel does to the table, and what it is answered. -/
def GrantEvent.acts (t : GrantTable) : (e : GrantEvent) → e.Answer → GrantTable → Prop
  | .xen (.storeGrant ref (.frame frame)), _, t' =>
      t' = Function.update t ref { t ref with frame := frame }
  | .xen (.storeGrant ref (.domid domid)), _, t' =>
      t' = Function.update t ref { t ref with domid := domid }
  | .xen (.storeGrant ref (.flags flags)), _, t' =>
      t' = Function.update t ref { t ref with flags := flags }
  | .xen _, _, t' => t' = t
  | .loadFlags ref, r, t' => r = (t ref).flags ∧ t' = t
  | .loadFrame ref, r, t' => r = (t ref).frame ∧ t' = t
  | .cmpxchgFlags ref old new, r, t' => r = (t ref).flags ∧
      t' = if (t ref).flags = old then Function.update t ref { t ref with flags := new } else t

/-- An event of the kernel, its answer, and the table it met. -/
structure TableAccess where
  event : GrantEvent
  answer : event.Answer
  table : GrantTable

/-- The table, and the kernel's accesses so far. -/
structure Shared where
  table : GrantTable
  log : List TableAccess

/-- The hypervisor's moves. -/
def Shared.other (s s' : Shared) : Prop := HypervisorStep s.table s'.table ∧ s'.log = s.log

/-- The kernel's accesses. -/
def Shared.act (s : Shared) (e : GrantEvent) (r : e.Answer) (s' : Shared) : Prop :=
  e.acts s.table r s'.table ∧ s'.log = s.log ++ [⟨e, r, s.table⟩]

/-- Kernel and hypervisor in any order. -/
abbrev sharedEnv : Shared → (e : GrantEvent) → e.Answer → Shared → Prop :=
  interleave Shared.other Shared.act

/-- Every entry that can be granted is idle, or live for what is granted. -/
def TableOk (granted : Granted) (t : GrantTable) : Prop :=
  ∀ ref, IsRef ref → EntryOk (granted ref) (t ref)

/-- One entry changed, the others as they were. -/
theorem TableOk.update {granted : Granted} {t : GrantTable} (h : TableOk granted t) {ref : UInt32}
    {e : GrantEntry} (he : EntryOk (granted ref) e) :
    TableOk granted (Function.update t ref e) := by
  intro ref' href
  by_cases heq : ref' = ref
  · rw [heq, Function.update_self]
    exact he
  · rw [Function.update_of_ne heq]
    exact h ref' href

/-- What is granted under the reference of an idle entry may change. -/
theorem TableOk.regrant {granted : Granted} {t : GrantTable} (h : TableOk granted t)
    {ref : UInt32} (he : (t ref).Idle) (g : Option Grant) :
    TableOk (Function.update granted ref g) t := by
  intro ref' href
  by_cases heq : ref' = ref
  · rw [heq]
    exact .inl he
  · rw [Function.update_of_ne heq]
    exact h ref' href

theorem TableOk.hypervisor {granted : Granted} {t t' : GrantTable} (h : TableOk granted t)
    (hs : HypervisorStep t t') : TableOk granted t' := by
  cases hs with
  | @step ref e hp =>
      by_cases href : IsRef ref
      · exact h.update ((h ref href).peerStep hp)
      · intro ref' href'
        have hne : ref' ≠ ref := fun heq => href (heq ▸ href')
        rw [Function.update_of_ne hne]
        exact h ref' href'

/-- An entry that grants nothing is left alone. -/
theorem GrantEntry.Idle.hypervisor {t t' : GrantTable} {ref : UInt32} (h : (t ref).Idle)
    (hs : HypervisorStep t t') : t' ref = t ref := by
  cases hs with
  | @step ref' e hp =>
      by_cases heq : ref = ref'
      · subst heq
        rw [Function.update_self]
        exact h.peerStep hp
      · rw [Function.update_of_ne heq]

/-- So the other side keeps the whole table in order. -/
theorem stable_tableOk (granted : Granted) :
    Stable Shared.other fun s => TableOk granted s.table :=
  fun _ _ hs h => h.hypervisor hs.1

/-- An idle entry under the kernel's hand: what the kernel has put there stays. -/
def Filling (granted : Granted) (ref : UInt32) (R : GrantEntry → Prop) (s : Shared) : Prop :=
  TableOk granted s.table ∧ (s.table ref).Idle ∧ R (s.table ref)

/-- Nor does it touch an entry that is being filled. -/
theorem stable_filling (granted : Granted) (ref : UInt32) (R : GrantEntry → Prop) :
    Stable Shared.other (Filling granted ref R) := by
  rintro s s' ⟨hs, -⟩ ⟨hok, hidle, hR⟩
  refine ⟨hok.hypervisor hs, ?_⟩
  rw [hidle.hypervisor hs]
  exact ⟨hidle, hR⟩

/-! ## granting -/

section Calls

variable {xen : GrantHeaders} {granted : Granted} {list : GnttabList} {s : Shared}

/-- The judgement about the kernel's code: the table stays sound for what is
granted, counting the reference that is being granted. -/
abbrev KeepsTable {α : Type} (granted : Granted) (p : GrantM α) (Q : α → Shared → Prop)
    (s : Shared) : Prop :=
  Keeps Shared.other Shared.act (fun s => TableOk granted s.table) p Q s

theorem ofXen_bind {α β : Type} (p : XenM α) (f : α → XenM β) :
    ofXen (p >>= f) = ofXen p >>= fun a => ofXen (f a) := embed_bind _ _ p f

/-- A store to an idle entry that leaves its flags alone. -/
theorem keeps_fill {ref : UInt32} {R : GrantEntry → Prop} {store : GrantStore}
    {f : GrantEntry → GrantEntry}
    (hstore : ∀ t r t', (GrantEvent.xen (.storeGrant ref store)).acts t r t' →
      t' = Function.update t ref (f (t ref)))
    (hflags : ∀ e, (f e).flags = e.flags) (hs : Filling granted ref R s) :
    KeepsTable granted (ofXen (storeGrant ref store))
      (fun _ => Filling granted ref fun e' => ∃ e, R e ∧ e' = f e) s := by
  refine Keeps.req (e := GrantEvent.xen (.storeGrant ref store)) (stable_filling granted ref R)
    hs ?_
  rintro t r s' ⟨hok, hidle, hR⟩ ⟨hact, -⟩
  have hidle' : (f (t.table ref)).Idle := by
    rw [GrantEntry.Idle, hflags]
    exact hidle
  have hok' : TableOk granted s'.table := by
    rw [hstore _ _ _ hact]
    exact hok.update (.inl hidle')
  refine ⟨hok', hok', ?_⟩
  rw [hstore _ _ _ hact, Function.update_self]
  exact ⟨hidle', _, hR, rfl⟩

/-- The store of the flags, which makes the entry live. -/
theorem keeps_publish {ref : UInt32} {R : GrantEntry → Prop} {g : Grant} {flags : UInt16}
    (hg : granted ref = some g) (hlive : ∀ e : GrantEntry, R e → g.Live { e with flags := flags })
    (hs : Filling granted ref R s) :
    KeepsTable granted (ofXen (storeGrant ref (.flags flags)))
      (fun _ s' => TableOk granted s'.table) s := by
  refine Keeps.req (e := GrantEvent.xen (.storeGrant ref (.flags flags)))
    (stable_filling granted ref R) hs ?_
  rintro t r s' ⟨hok, hidle, hR⟩ ⟨hact, -⟩
  have hok' : TableOk granted s'.table := by
    rw [show s'.table = _ from hact]
    exact hok.update (.inr ⟨g, hg, hlive _ hR⟩)
  exact ⟨hok', hok'⟩

/-- The three stores of a grant: the frame, the domain, and the flags last. -/
theorem keeps_grant {ref : UInt32} {g : Grant} {frame : UInt32} {flags : UInt16}
    (hg : granted ref = some g) (hframe : frame.toUInt64 = g.frame)
    (hlive : ∀ e : GrantEntry, e.domid = g.domid → e.frame.toUInt64 = g.frame →
      g.Live { e with flags := flags })
    (hs : TableOk granted s.table) (hidle : (s.table ref).Idle) (r : UInt32 × GnttabList) :
    KeepsTable granted
      (ofXen do
        storeGrant ref (.frame frame)
        storeGrant ref (.domid g.domid)
        storeGrant ref (.flags flags)
        return r)
      (fun r' s' => r' = r ∧ TableOk granted s'.table) s := by
  have hstart : Filling granted ref (fun _ => True) s := ⟨hs, hidle, trivial⟩
  simp only [ofXen_bind]
  refine Keeps.seq (keeps_fill (f := fun e => { e with frame := frame }) (fun _ _ _ h => h)
    (fun _ => rfl) hstart) fun _ s₁ h₁ => ?_
  refine Keeps.seq (keeps_fill (f := fun e => { e with domid := g.domid }) (fun _ _ _ h => h)
    (fun _ => rfl) h₁) fun _ s₂ h₂ => ?_
  refine Keeps.seq (keeps_publish hg ?_ h₂) fun _ s₃ h₃ => ⟨rfl, h₃⟩
  rintro _ ⟨_, ⟨_, -, rfl⟩, rfl⟩
  exact hlive _ rfl hframe

/-! ## ending an access -/

/-- The access replaced flags without the reading and writing bits by 0. -/
def ReplacedByZero (ref : UInt32) (a : TableAccess) : Prop :=
  ∃ old, a.event = .cmpxchgFlags ref old 0 ∧ (a.table ref).flags = old ∧ old &&& 24 = 0

/-- The table is sound, and what is logged is logged. -/
def Logged (granted : Granted) (log : List TableAccess) (s : Shared) : Prop :=
  TableOk granted s.table ∧ ∃ new, s.log = log ++ new

theorem stable_logged (granted : Granted) (log : List TableAccess) :
    Stable Shared.other (Logged granted log) := by
  rintro s s' ⟨hs, hlog⟩ ⟨hok, hnew⟩
  rw [Logged, hlog]
  exact ⟨hok.hypervisor hs, hnew⟩

/-- One access of ours, recorded if it replaces an entry by zero. -/
theorem Logged.act {log : List TableAccess} {t s' : Shared} {e : GrantEvent} {r : e.Answer}
    (h : Logged granted log t) (hact : Shared.act t e r s') (hok : TableOk granted s'.table) :
    Logged granted log s' := by
  obtain ⟨-, new, hnew⟩ := h
  refine ⟨hok, new ++ [⟨e, r, t.table⟩], ?_⟩
  rw [hact.2, hnew, List.append_assoc]

/-- An event that leaves the table alone. -/
theorem keeps_read {log : List TableAccess} {e : GrantEvent} (he : ∀ t r t', e.acts t r t' → t' = t)
    (hs : Logged granted log s) :
    KeepsTable granted (req e) (fun _ => Logged granted log) s := by
  refine Keeps.req (stable_logged granted log) hs ?_
  intro t r s' ht hact
  have hok : TableOk granted s'.table := by
    rw [he _ _ _ hact.1]
    exact ht.1
  exact ⟨hok, ht.act hact hok⟩

/-- The kernel tests flags as an `int`. -/
theorem and_toUInt32_eq_zero {flags mask : UInt16} :
    flags.toUInt32 &&& mask.toUInt32 = 0 ↔ flags &&& mask = 0 := by
  rw [← UInt16.toUInt32_and, show (0 : UInt32) = (0 : UInt16).toUInt32 from rfl,
    UInt16.toUInt32_inj]

/-- Replacing the flags by 0 makes the entry idle. -/
theorem keeps_cmpxchg {log : List TableAccess} {ref : UInt32} {flags : UInt16}
    (hs : Logged granted log s) :
    KeepsTable granted (synchCmpxchg ref flags 0)
      (fun prev s' => Logged granted log s' ∧ (prev = flags → (s'.table ref).Idle ∧
        (flags &&& 24 = 0 → ∃ new, s'.log = log ++ new ∧ ∃ a ∈ new, ReplacedByZero ref a))) s := by
  refine Keeps.req (stable_logged granted log) hs ?_
  rintro t prev s' ht ⟨⟨rfl, hact⟩, hlog⟩
  have hok : TableOk granted s'.table := by
    rw [hact]
    split_ifs
    · exact ht.1.update (.inl (.inl rfl))
    · exact ht.1
  have hlogged : Logged granted log s' :=
    ht.act (e := GrantEvent.cmpxchgFlags ref flags 0) ⟨⟨rfl, hact⟩, hlog⟩ hok
  refine ⟨hok, hlogged, fun heq => ⟨?_, fun hfree => ?_⟩⟩
  · rw [hact, if_pos heq, Function.update_self]
    exact .inl rfl
  · obtain ⟨-, new, hnew⟩ := ht
    refine ⟨new ++ [⟨GrantEvent.cmpxchgFlags ref flags 0, (t.table ref).flags, t.table⟩], ?_, _,
      List.mem_append_right new (List.mem_singleton.mpr rfl), flags, rfl, heq, hfree⟩
    rw [hlog, hnew, List.append_assoc]

/-- `gnttab_end_access`: when it returns 1 the entry is idle, because its flags
were replaced by 0 while nobody used the page. -/
theorem keeps_gnttabEndAccess (hx : xen.FromXen) (ref : UInt32) (hs : TableOk granted s.table) :
    KeepsTable granted (gnttabEndAccess xen list ref)
      (fun r s' => TableOk granted s'.table ∧ (r.1 = 0 ∨ r.1 = 1 ∧ (s'.table ref).Idle ∧
        ∃ new, s'.log = s.log ++ new ∧ ∃ a ∈ new, ReplacedByZero ref a)) s := by
  have hstart : Logged granted s.log s := ⟨hs, [], (List.append_nil _).symm⟩
  refine Keeps.seq (keeps_read (fun _ _ _ h => h.2) hstart) fun nflags s₁ h₁ => ?_
  refine Keeps.seq (R := fun free s' => TableOk granted s'.table ∧ (free = true →
    (s'.table ref).Idle ∧ ∃ new, s'.log = s.log ++ new ∧ ∃ a ∈ new, ReplacedByZero ref a))
    (Keeps.loop (fun _ => Logged granted s.log) h₁ ?_) ?_
  · intro flags s₂ h₂
    refine Keeps.ite (fun _ => ?_) fun hfree => ?_
    · exact Keeps.seq (keeps_read (fun _ _ _ h => h) h₂) fun _ s₃ h₃ =>
        ⟨h₃.1, fun h => absurd h (by decide)⟩
    · rw [hx.reading, hx.writing, not_not] at hfree
      refine Keeps.seq (keeps_cmpxchg h₂) fun prev s₃ h₃ => ?_
      refine Keeps.ite (fun _ => h₃.1) fun heq => ⟨h₃.1.1, fun _ => ?_⟩
      obtain ⟨hidle, hnew⟩ := h₃.2 (not_not.mp heq)
      exact ⟨hidle, hnew (and_toUInt32_eq_zero.mp hfree)⟩
  · rintro free s₂ ⟨hok, h⟩
    exact Keeps.ite (fun hfree => ⟨hok, .inr ⟨rfl, h hfree⟩⟩) fun _ => ⟨hok, .inl rfl⟩

/-! ## ending a transfer -/

/-- A transfer that is committed: the flags seen, and those of the entry, which
may be further. -/
def Committed (granted : Granted) (ref : UInt32) (flags : UInt16) (s : Shared) : Prop :=
  TableOk granted s.table ∧ (flags = 6 ∨ flags = 14) ∧
    ((s.table ref).flags = 6 ∨ (s.table ref).flags = 14) ∧
    (flags = 14 → (s.table ref).flags = 14)

/-- From a committed transfer the peer can only go on to complete it. -/
theorem PeerStep.committed {e e' : GrantEntry} (h : PeerStep e e') (he : e.flags = 6) :
    e'.flags = 6 ∨ e'.flags = 14 := by
  have htype : e.type ≠ 1 := by rw [GrantEntry.type, he]; decide
  cases h with
  | use ht _ | unuse ht _ => exact absurd ht htype
  | commit _ =>
      simp only [he]
      exact .inl rfl
  | move _ _ _ _ => exact .inl he
  | complete _ _ =>
      simp only [he]
      exact .inr rfl

theorem stable_committed (granted : Granted) (ref : UInt32) (flags : UInt16) :
    Stable Shared.other (Committed granted ref flags) := by
  rintro s s' ⟨hs, -⟩ ⟨hok, hflags, hentry, hseen⟩
  have hok' := hok.hypervisor hs
  by_cases h14 : (s.table ref).flags = 14
  · have hidle : (s.table ref).Idle := .inr h14
    refine ⟨hok', hflags, ?_⟩
    rw [hidle.hypervisor hs]
    exact ⟨hentry, hseen⟩
  have h6 : (s.table ref).flags = 6 := hentry.resolve_right h14
  have hne : flags ≠ 14 := fun h => h14 (hseen h)
  refine ⟨hok', hflags, ?_, fun h => absurd h hne⟩
  generalize s'.table = t at hs
  cases hs with
  | @step ref' e hp =>
      by_cases heq : ref = ref'
      · subst heq
        rw [Function.update_self]
        exact hp.committed h6
      · rw [Function.update_of_ne heq]
        exact hentry

/-- What the flags of an outstanding transfer can be once they are committed. -/
theorem EntryOk.committed {g : Option Grant} {e : GrantEntry} (h : EntryOk g e)
    (hg : ∀ g', g = some g' → g'.kind = .transfer) (hc : e.flags &&& 4 ≠ 0) :
    e.flags = 6 ∨ e.flags = 14 := by
  have hne : ∀ f : UInt16, f &&& 4 = 0 → e.flags ≠ f := by
    rintro f hf rfl
    exact hc hf
  rcases h with (h | h) | ⟨g', hg', -, hlive⟩
  · exact absurd h (hne 0 rfl)
  · exact .inr h
  · rw [hg g' hg'] at hlive
    rcases hlive with ⟨h, -⟩ | h | h
    · exact absurd h (hne 2 rfl)
    · exact .inl h
    · exact .inr h

/-- What the first loop of `gnttab_end_transfer` leaves with. -/
def Released (granted : Granted) (ref : UInt32) : Option UInt16 → Shared → Prop
  | none => Filling granted ref fun _ => True
  | some flags => Committed granted ref flags

/-- An event that leaves the table alone, while the entry is idle. -/
theorem keeps_idle {ref : UInt32} {e : GrantEvent} (he : ∀ t r t', e.acts t r t' → t' = t)
    (hs : Filling granted ref (fun _ => True) s) :
    KeepsTable granted (req e) (fun _ => Filling granted ref fun _ => True) s := by
  refine Keeps.req (stable_filling granted ref _) hs ?_
  intro t r s' h hact
  rw [Filling, he _ _ _ hact.1]
  exact ⟨h.1, h⟩

theorem keeps_loadFlags_transfer {ref : UInt32} (href : IsRef ref)
    (hg : ∀ g, granted ref = some g → g.kind = .transfer) (hs : TableOk granted s.table) :
    KeepsTable granted (loadFlags ref) (fun flags s' => TableOk granted s'.table ∧
      (flags &&& 4 ≠ 0 → Committed granted ref flags s')) s := by
  refine Keeps.req (stable_tableOk granted) hs ?_
  rintro t flags s' hok ⟨⟨rfl, ht⟩, -⟩
  rw [Committed, ht]
  refine ⟨hok, hok, fun hc => ?_⟩
  have hflags := (hok ref href).committed hg hc
  exact ⟨hok, hflags, hflags, fun h => h⟩

/-- A turn of the first loop empties the entry, finds the transfer committed, or is
to be made again. -/
theorem keeps_uncommittedStep (hx : xen.FromXen) {ref : UInt32} (href : IsRef ref)
    (hg : ∀ g, granted ref = some g → g.kind = .transfer) (hs : TableOk granted s.table) :
    KeepsTable granted (uncommittedStep xen ref ())
      (Sum.elim (fun _ s' => TableOk granted s'.table) (Released granted ref)) s := by
  refine Keeps.seq (keeps_loadFlags_transfer href hg hs) fun flags s₁ h₁ => ?_
  refine Keeps.ite (fun hc => ?_) fun _ => ?_
  · rw [hx.transferCommitted] at hc
    exact h₁.2 fun h => hc (and_toUInt32_eq_zero.mpr h)
  · have hlogged : Logged granted s₁.log s₁ := ⟨h₁.1, [], (List.append_nil _).symm⟩
    refine Keeps.seq (keeps_cmpxchg hlogged) fun prev s₂ h₂ => ?_
    refine Keeps.ite (fun heq => ?_) fun _ => h₂.1.1
    exact Keeps.seq (keeps_idle (fun _ _ _ h => h) ⟨h₂.1.1, (h₂.2 heq).1, trivial⟩)
      fun _ s₃ h₃ => h₃

/-- A turn of the second finds the transfer completed, or is to be made again. -/
theorem keeps_uncompletedStep (hx : xen.FromXen) {ref : UInt32} {flags : UInt16}
    (hs : Committed granted ref flags s) :
    KeepsTable granted (uncompletedStep xen ref flags)
      (Sum.elim (Committed granted ref) fun _ => Filling granted ref fun _ => True) s := by
  refine Keeps.ite (fun hc => ?_) fun _ => ?_
  · obtain ⟨hok, hflags, hentry, hseen⟩ := hs
    have h14 : flags = 14 := by
      refine hflags.resolve_left fun h6 => hc ?_
      rw [hx.transferCompleted, h6]
      rfl
    exact ⟨hok, .inr (hseen h14), trivial⟩
  · refine Keeps.seq (R := Committed granted ref) ?_ fun _ s₁ h₁ => h₁
    refine Keeps.req (stable_committed granted ref flags) hs ?_
    rintro t r s' ⟨hok, -, hentry, -⟩ ⟨⟨rfl, ht⟩, -⟩
    rw [Committed, ht]
    exact ⟨hok, hok, hentry, hentry, fun h => h⟩

/-- `gnttab_end_transfer`, for a transfer: it leaves an idle entry behind. -/
theorem keeps_gnttabEndTransfer (hx : xen.FromXen) {ref : UInt32} (href : IsRef ref)
    (hg : ∀ g, granted ref = some g → g.kind = .transfer) (hs : TableOk granted s.table) :
    KeepsTable granted (gnttabEndTransfer xen list ref)
      (fun _ => Filling granted ref fun _ => True) s := by
  refine Keeps.seq (Keeps.loop (fun _ s => TableOk granted s.table) hs
    fun _ s₁ h₁ => keeps_uncommittedStep hx href hg h₁) ?_
  rintro (_ | flags) s₁ h₁
  · exact h₁
  · refine Keeps.seq (Keeps.loop (Committed granted ref) h₁
      fun _ s₂ h₂ => keeps_uncompletedStep hx h₂) fun _ s₂ h₂ => ?_
    exact Keeps.seq (keeps_idle (fun _ _ _ h => h.2) h₂) fun _ s₃ h₃ => h₃

end Calls

end UefiKernel.Xen
