import UefiKernel.Console.Value
import UefiKernel.Lib.Parallel
import UefiKernel.Xen.MapGrant
import UefiKernel.Xen.SharedTable

/-!
# UefiKernel.Xen.TwoGuests

The two guests side by side.

The first guest writes a text into its shared page and grants the page; the
second one maps what is granted under a fixed reference by a fixed domain, and
prints what it finds.  Neither waits for the other, and Xen may look at the
grant table at any time: it first finds an entry granted, reads its frame later,
and marks entries as in use whenever it likes.

`Sound` is the invariant of all three.  Once the entry is visible, the page has
its text (`PageVisible`); Xen finds it only then; so what the second guest reads
is the text.  This module has the moves and the first guest's side;
`UefiKernel.Xen.Exchange` has the second guest and what comes of both.
-/

namespace UefiKernel.Xen

open Relation Interact Prog Rely
open Console (PrintEvent PrintM bytes Machine Trace)

/-! ## the shared state -/

/-- The two domains: their numbers, the first one's shared page, and the memory
of the second. -/
structure Domains where
  first : UInt16
  second : UInt16
  page : UInt64
  own : UInt64 → UInt8

/-- What the guests and Xen share. -/
structure Guests where
  /-- the first guest's grant table -/
  table : GrantTable
  /-- the first guest's memory -/
  mem : UInt64 → UInt8
  /-- a reference that Xen has found granted to the second guest -/
  found : Option UInt32
  /-- the second guest has made its hypercall -/
  asked : Bool
  /-- the page of the second guest that stands for a frame of the first -/
  mapped : Option (UInt64 × UInt32)
  /-- what the second guest has printed behind its hypercall -/
  console : List UInt8

/-- A byte of the page at `base`. -/
def InPage (base x : UInt64) : Prop := (x - base).toNat < 4096

instance (base x : UInt64) : Decidable (InPage base x) := inferInstanceAs (Decidable (_ < _))

/-- What a store does to memory. -/
def XenEvent.stored : XenEvent → (UInt64 → UInt8) → UInt64 → UInt8
  | storeByte p byte, m => Function.update m p byte
  | _, m => m

/-- What a store does to an entry. -/
def GrantStore.entry : GrantStore → GrantEntry → GrantEntry
  | .frame f, e => { e with frame := f }
  | .domid d, e => { e with domid := d }
  | .flags f, e => { e with flags := f }

/-- The first guest's events. -/
def Guests.first (s : Guests) (e : XenEvent) (r : e.Answer) (s' : Guests) : Prop :=
  ∃ t, (GrantEvent.xen e).acts s.table r t ∧ s' = { s with table := t, mem := e.stored s.mem }

/-- A byte as the second guest reads it. -/
def Guests.read (d : Domains) (s : Guests) (p : UInt64) : UInt8 :=
  match s.mapped with
  | some (host, frame) =>
      if InPage host p then s.mem (frame.toUInt64 * 4096 + (p - host)) else d.own p
  | none => d.own p

/-- The second guest's events.  The operation fails, or the page is mapped: the
granting domain was named, and the reference was found to be granted before. -/
def Guests.second (xen : MapHeaders) (d : Domains) (s : Guests) :
    (e : Guest2Event) → e.Answer → Guests → Prop
  | .xen _, _, s' => s' = s
  | .grantTableOp cmd op _, (rc, status), s' =>
      ¬ (rc = 0 ∧ status = xen.gntstOkay) ∧ s' = { s with asked := true } ∨
      (rc = 0 ∧ status = xen.gntstOkay) ∧ cmd = xen.gnttabopMapGrantRef ∧
        op.flags = xen.gntmapHostMap ∧ op.dom = d.first ∧ s.found = some op.ref ∧
        s' = { s with asked := true, mapped := some (op.hostAddr, (s.table op.ref).frame) }
  | .print (.load _ p), ch, s' => ch = s.read d p ∧ s' = s
  | .print .vaArg, _, s' => s' = s
  | .print (.fn ch), _, s' => s' = { s with console := s.console ++ [ch] }

/-- Moves of Xen, and of the first guest outside its shared page. -/
inductive Guests.Other (d : Domains) : Guests → Guests → Prop
  | entry {s : Guests} {t : GrantTable} (h : HypervisorStep s.table t) :
      Other d s { s with table := t }
  | find {s : Guests} {ref : UInt32} (htype : (s.table ref).type = 1)
      (hdomid : (s.table ref).domid = d.second) : Other d s { s with found := some ref }
  | memory {s : Guests} {m : UInt64 → UInt8} (h : ∀ x, InPage d.page x → m x = s.mem x) :
      Other d s { s with mem := m }

/-- Nothing granted, asked for, mapped or printed yet. -/
structure Guests.Fresh (s : Guests) : Prop where
  idle : (s.table 511).Idle
  found : s.found = none
  asked : s.asked = false
  mapped : s.mapped = none
  console : s.console = []

/-! ## the invariant -/

/-- What is granted. -/
def pageGrant (d : Domains) : Grant := ⟨.access, 6, d.page / 0x1000⟩

/-- The text of the message. -/
def hiText : List UInt8 := bytes "Hi"

/-- The text is in the page, from its first byte on. -/
def Guests.Has (d : Domains) (s : Guests) (text : List UInt8) : Prop :=
  ∀ i (h : i < text.length), s.mem (d.page + UInt64.ofNat i) = text[i]

/-- The entry is visible, and the page has the whole text. -/
structure PageVisible (d : Domains) (s : Guests) : Prop where
  live : (pageGrant d).Live (s.table 511)
  text : s.Has d (hiText ++ [0])

/-- What the second guest prints when it can map the page. -/
def successText : List UInt8 := bytes "Message read from shared memory: Hi\n" ++ [0]

/-- What it prints when it can not. -/
def failureText (rc : Int32) (status : Int16) : List UInt8 :=
  bytes "GNTTABOP_map_grant_ref failed, return value:" ++ Console.decimal rc.toInt ++
    (bytes ", status:" ++ (Console.decimal status.toInt ++ (bytes "\n" ++ [0])))

/-- The page is mapped where it was asked for, and everything behind it is as it
was meant. -/
structure Received (d : Domains) (host : UInt64) (s : Guests) : Prop where
  published : PageVisible d s
  first : d.first = 5
  second : d.second = 6
  mapped : ∃ frame, s.mapped = some (host, frame) ∧ frame.toUInt64 = d.page / 0x1000

/-- The invariant. -/
structure Sound (xen : MapHeaders) (d : Domains) (host : UInt64) (s : Guests) : Prop where
  visible : (s.table 511).type = 1 → PageVisible d s
  found : s.found = some 511 → PageVisible d s ∧ d.second = 6
  mapped : s.mapped ≠ none → Received d host s ∧ s.console <+: successText
  unmapped : s.mapped = none → ∃ rc status, ¬ (rc = 0 ∧ status = xen.gntstOkay) ∧
    s.console <+: failureText rc status

/-! ## moves -/

section Moves

variable {xen : MapHeaders} {d : Domains} {host : UInt64} {s t : Guests}

/-- What the first guest relies on. -/
structure FirstRely (xen : MapHeaders) (d : Domains) (host : UInt64) (s t : Guests) : Prop where
  page : ∀ x, InPage d.page x → t.mem x = s.mem x
  idle : (s.table 511).Idle → t.table 511 = s.table 511
  sound : Sound xen d host s → Sound xen d host t
  published : PageVisible d s → PageVisible d t

/-- What the second guest relies on, and the first one guarantees. -/
structure SecondRely (xen : MapHeaders) (d : Domains) (host : UInt64) (s t : Guests) : Prop where
  sound : Sound xen d host s → Sound xen d host t
  published : PageVisible d s → PageVisible d t
  asked : t.asked = s.asked
  mapped : t.mapped = s.mapped
  console : t.console = s.console

/-- What the second guest guarantees: it stores nothing. -/
structure SecondGuar (xen : MapHeaders) (d : Domains) (host : UInt64) (s t : Guests) : Prop where
  sound : Sound xen d host s → Sound xen d host t
  table : t.table = s.table
  mem : t.mem = s.mem

theorem SecondRely.refl (s : Guests) : SecondRely xen d host s s := ⟨id, id, rfl, rfl, rfl⟩

theorem SecondGuar.refl (s : Guests) : SecondGuar xen d host s s := ⟨id, rfl, rfl⟩

/-- The hypervisor does not make an entry visible. -/
theorem type_peerStep {e e' : GrantEntry} (h : PeerStep e e') : e'.type = e.type := by
  cases h with
  | use _ hb => exact or_and_three (by rcases hb with rfl | rfl <;> rfl)
  | unuse _ hb =>
      rw [GrantEntry.type, GrantEntry.type, UInt16.and_assoc]
      rcases hb with rfl | rfl <;> rfl
  | commit _ | complete _ _ => exact or_and_three rfl
  | move _ _ _ _ => rfl

/-- To one entry at most one step is made. -/
theorem HypervisorStep.entry {t t' : GrantTable} (h : HypervisorStep t t') (ref : UInt32) :
    t' ref = t ref ∨ PeerStep (t ref) (t' ref) := by
  cases h with
  | @step ref' e hp =>
      by_cases heq : ref = ref'
      · rw [heq, Function.update_self]
        exact .inr hp
      · exact .inl (Function.update_of_ne heq _ _)

/-- The type of an entry is the granting guest's to choose. -/
theorem type_hypervisorStep {t t' : GrantTable} (h : HypervisorStep t t') (ref : UInt32) :
    (t' ref).type = (t ref).type := by
  rcases h.entry ref with heq | hp
  · rw [heq]
  · exact type_peerStep hp

theorem inPage_add {base : UInt64} {i : Nat} (hi : i < 4096) :
    InPage base (base + UInt64.ofNat i) := by
  rw [InPage, UInt64.add_comm, UInt64.add_sub_cancel, UInt64.toNat_ofNat']
  omega

/-- Only the page matters for its text. -/
theorem Guests.Has.congr {text : List UInt8} (h : s.Has d text) (hlen : text.length ≤ 4096)
    (hpage : ∀ x, InPage d.page x → t.mem x = s.mem x) : t.Has d text := by
  intro i hi
  rw [hpage _ (inPage_add (by omega))]
  exact h i hi

/-- Stores outside the page, and a grant that stays, keep the page visible. -/
theorem PageVisible.congr (h : PageVisible d s) (hlive : (pageGrant d).Live (t.table 511))
    (hpage : ∀ x, InPage d.page x → t.mem x = s.mem x) : PageVisible d t :=
  ⟨hlive, h.text.congr (by decide) hpage⟩

/-- A published entry is visible. -/
theorem PageVisible.type (h : PageVisible d s) : (s.table 511).type = 1 := h.live.2.1

theorem GrantEntry.Idle.type_ne {e : GrantEntry} (h : e.Idle) : e.type ≠ 1 := by
  rcases h with h | h <;> rw [GrantEntry.type, h] <;> decide

/-- The others keep what is published. -/
theorem PageVisible.other (h : PageVisible d s) (hs : Guests.Other d s t) : PageVisible d t := by
  cases hs with
  | entry he =>
      refine h.congr ?_ fun _ _ => rfl
      rcases he.entry 511 with heq | hp
      · have hlive := h.live
        rw [← heq] at hlive
        exact hlive
      · exact h.live.peerStep hp
  | find _ _ => exact h.congr h.live fun _ _ => rfl
  | memory hm => exact h.congr h.live hm

/-- The invariant, where nothing that it is about has changed but what others
may change. -/
theorem Sound.congr (h : Sound xen d host s) (hpublished : PageVisible d s → PageVisible d t)
    (htype : (t.table 511).type = (s.table 511).type) (hfound : t.found = s.found)
    (hmapped : t.mapped = s.mapped) (hconsole : t.console = s.console) :
    Sound xen d host t where
  visible ht := hpublished (h.visible (htype ▸ ht))
  found ht := by
    obtain ⟨hp, hd⟩ := h.found (hfound ▸ ht)
    exact ⟨hpublished hp, hd⟩
  mapped ht := by
    obtain ⟨hr, hout⟩ := h.mapped (hmapped ▸ ht)
    refine ⟨⟨hpublished hr.published, hr.first, hr.second, ?_⟩, hconsole ▸ hout⟩
    rw [hmapped]
    exact hr.mapped
  unmapped ht := by
    rw [hconsole]
    exact h.unmapped (hmapped ▸ ht)

/-- The others keep the invariant. -/
theorem Sound.other (h : Sound xen d host s) (hs : Guests.Other d s t) : Sound xen d host t := by
  have hpublished : PageVisible d s → PageVisible d t := fun hp => hp.other hs
  cases hs with
  | entry he => exact h.congr hpublished (type_hypervisorStep he 511) rfl rfl rfl
  | memory _ => exact h.congr hpublished rfl rfl rfl rfl
  | @find ref htype hdomid =>
      refine ⟨fun ht => hpublished (h.visible ht), fun hfound => ?_, fun hm => ?_, h.unmapped⟩
      · obtain rfl : ref = 511 := Option.some.inj hfound
        have hp := h.visible htype
        exact ⟨hpublished hp, hdomid.symm.trans hp.live.1⟩
      · obtain ⟨hr, hout⟩ := h.mapped hm
        exact ⟨⟨hpublished hr.published, hr.first, hr.second, hr.mapped⟩, hout⟩

/-- **The moves fit together.** -/
theorem fits_guests : Fits (FirstRely xen d host) (SecondRely xen d host) (SecondRely xen d host)
    (SecondGuar xen d host) (Guests.Other d) where
  left _ _ h := h
  right s t h := {
    page := fun x _ => congrFun h.mem x
    idle := fun _ => congrFun h.table 511
    sound := h.sound
    published := fun hp => hp.congr (h.table ▸ hp.live) fun x _ => congrFun h.mem x }
  other_left s t h := {
    page := by
      cases h with
      | entry _ | find _ _ => exact fun _ _ => rfl
      | memory hm => exact hm
    idle := by
      cases h with
      | find _ _ | memory _ => exact fun _ => rfl
      | entry he =>
          intro hidle
          rcases he.entry 511 with heq | hp
          · exact heq
          · exact hidle.peerStep hp
    sound := fun hs => hs.other h
    published := fun hp => hp.other h }
  other_right s t h := {
    sound := fun hs => hs.other h
    published := fun hp => hp.other h
    asked := by cases h <;> rfl
    mapped := by cases h <;> rfl
    console := by cases h <;> rfl }

end Moves

/-! ## the first guest -/

/-- Not a store to what the guests share. -/
def XenEvent.Quiet : XenEvent → Prop
  | storeGrant _ _ | storeByte _ _ => False
  | _ => True

/-- These events change nothing of what the two share. -/
theorem Guests.first_quiet {s s' : Guests} {e : XenEvent} {r : e.Answer} (he : e.Quiet)
    (h : s.first e r s') : s' = s := by
  obtain ⟨t, hacts, rfl⟩ := h
  cases e with
  | storeGrant _ _ | storeByte _ _ => exact he.elim
  | _ =>
      obtain rfl : t = s.table := hacts
      rfl

section Footprints

theorem quiet_versionChanged {load : XenM UInt32} (h : load.Issues XenEvent.Quiet)
    (version : UInt32) : (versionChanged load version).Issues XenEvent.Quiet :=
  h.seq fun _ => Issues.ite (fun _ => Issues.pure _) fun _ => h.seq fun _ => Issues.pure _

theorem quiet_scaleDelta (delta : UInt64) : (scaleDelta delta).Issues XenEvent.Quiet :=
  (Issues.req trivial).seq fun _ =>
    Issues.ite (fun _ => (Issues.req trivial).seq fun _ => Issues.pure _) fun _ =>
      (Issues.req trivial).seq fun _ => Issues.pure _

theorem quiet_pvclockMonotonicRead : pvclockMonotonicRead.Issues XenEvent.Quiet := by
  refine Issues.loop (fun _ => ?_) ()
  refine (Issues.req trivial).seq fun version => (Issues.req trivial).seq fun tsc => ?_
  refine (Issues.req trivial).seq fun _ => (quiet_scaleDelta _).seq fun _ => ?_
  refine (Issues.req trivial).seq fun _ => (Issues.req trivial).seq fun _ => ?_
  exact (quiet_versionChanged (Issues.req trivial) _).seq fun _ =>
    Issues.ite (fun _ => Issues.pure _) fun _ => Issues.pure _

theorem quiet_pvclockWcRead : pvclockWcRead.Issues XenEvent.Quiet := by
  refine Issues.loop (fun _ => ?_) ()
  refine (Issues.req trivial).seq fun _ => (Issues.req trivial).seq fun _ => ?_
  refine (Issues.req trivial).seq fun _ => ?_
  exact (quiet_versionChanged (Issues.req trivial) _).seq fun _ =>
    Issues.ite (fun _ => Issues.pure _) fun _ => Issues.pure _

theorem quiet_wait (secs : UInt32) : (wait secs).Issues XenEvent.Quiet := by
  refine quiet_pvclockMonotonicRead.seq fun _ => Issues.loop (fun _ => ?_) ()
  exact quiet_pvclockMonotonicRead.seq fun _ =>
    Issues.ite (fun _ => Issues.pure _) fun _ => Issues.pure _

theorem quiet_xenDetect : xenDetect.Issues XenEvent.Quiet := by
  refine (Issues.req trivial).seq fun _ => Issues.ite (fun _ => Issues.pure _) fun _ => ?_
  refine (Issues.req trivial).seq fun _ => Issues.ite (fun _ => Issues.pure _) fun _ => ?_
  refine (Issues.req trivial).seq fun _ => Issues.ite (fun _ => Issues.pure _) fun _ => ?_
  exact Issues.ite (fun _ => Issues.pure _) fun _ => Issues.pure _

theorem quiet_xenBaseDetect : xenBaseDetect.Issues XenEvent.Quiet := by
  refine Issues.loop (fun _ => ?_) _
  refine Issues.ite (fun _ => Issues.pure _) fun _ => (Issues.req trivial).seq fun _ => ?_
  exact Issues.ite (fun _ => Issues.pure _) fun _ => Issues.pure _

theorem quiet_xenHypercallsInit (image : KernelImage) (xenBase : UInt32) :
    (xenHypercallsInit image xenBase).Issues XenEvent.Quiet := by
  refine (Issues.req trivial).seq fun _ => Issues.ite (fun _ => Issues.pure _) fun _ => ?_
  exact (Issues.req trivial).seq fun _ => Issues.pure _

theorem quiet_xenSharedInit (xen : XenHeaders) (image : KernelImage) :
    (xenSharedInit xen image).Issues XenEvent.Quiet :=
  (Issues.req trivial).seq fun _ => Issues.pure _

theorem quiet_mapGrantFrames (xen : XenHeaders) (page : UInt64) (n : Nat) :
    (mapGrantFrames xen page n).Issues XenEvent.Quiet := by
  induction n with
  | zero => exact Issues.pure _
  | succ n ih =>
      refine (Issues.req trivial).seq fun _ => Issues.ite (fun _ => ?_) fun _ => ih
      refine (Issues.req trivial).seq fun _ => ?_
      exact Issues.seq (Issues.loop (fun _ => Issues.pure _) ()) fun _ => ih

end Footprints

section First

variable {xen : MapHeaders} {d : Domains} {host : UInt64} {s : Guests} {α β : Type}

/-- What the first guest does, among what it relies on. -/
abbrev FirstBehaves (xen : MapHeaders) (d : Domains) (host : UInt64) (p : XenM α)
    (Q : α → Guests → Prop) (s : Guests) : Prop :=
  Behaves (FirstRely xen d host) (SecondRely xen d host) Guests.first p Q s

/-- The entry is still idle, with `P` of its fields, and the page has a text. -/
structure Preparing (xen : MapHeaders) (d : Domains) (host : UInt64) (text : List UInt8)
    (P : GrantEntry → Prop) (s : Guests) : Prop where
  idle : (s.table 511).Idle
  entry : P (s.table 511)
  text : s.Has d text
  sound : Sound xen d host s

/-- Until the grant is made, nobody else writes to the page or the table. -/
theorem stable_preparing {text : List UInt8} (hlen : text.length ≤ 4096) (P : GrantEntry → Prop) :
    Stable (FirstRely xen d host) (Preparing xen d host text P) := by
  intro s t hst h
  have hentry := hst.idle h.idle
  exact ⟨hentry ▸ h.idle, hentry ▸ h.entry, h.text.congr hlen hst.page, hst.sound h.sound⟩

/-- While the entry is idle nobody has found it, and the first guest may do
anything that does not make it visible before its page is. -/
theorem Preparing.guarantee {text : List UInt8} {P : GrantEntry → Prop}
    (h : Preparing xen d host text P s) (table : GrantTable) (mem : UInt64 → UInt8)
    (hvisible : (table 511).type = 1 → PageVisible d { s with table, mem }) :
    SecondRely xen d host s { s with table, mem } := by
  have hnot : ¬ PageVisible d s := fun hp => h.idle.type_ne hp.type
  refine ⟨fun hs => ⟨hvisible, ?_, ?_, hs.unmapped⟩, fun hp => absurd hp hnot, rfl, rfl, rfl⟩
  · exact fun hfound => absurd (hs.found hfound).1 hnot
  · exact fun hm => absurd (hs.mapped hm).1.published hnot

/-- A program that stores nothing to what is shared. -/
theorem behaves_quiet {K : Guests → Prop} (hK : Stable (FirstRely xen d host) K) {p : XenM α}
    (hp : p.Issues XenEvent.Quiet) (hs : K s) : FirstBehaves xen d host p (fun _ s' => K s') s := by
  refine Behaves.of_issues hK ?_ hp hs
  intro e t r s' he ht hact
  obtain rfl := Guests.first_quiet he hact
  exact ⟨SecondRely.refl _, ht⟩

/-- One more byte of the text. -/
theorem behaves_storeByte (text : List UInt8) (hlen : text.length < 4095) (byte : UInt8)
    {P : GrantEntry → Prop} (hs : Preparing xen d host text P s) :
    FirstBehaves xen d host (storeByte (d.page + UInt64.ofNat text.length) byte)
      (fun _ => Preparing xen d host (text ++ [byte]) P) s := by
  refine Behaves.req (stable_preparing (by omega) P) hs ?_
  rintro t r s' ht ⟨table, hacts, rfl⟩
  obtain rfl : table = t.table := hacts
  have hguar := ht.guarantee t.table
    ((XenEvent.storeByte (d.page + UInt64.ofNat text.length) byte).stored t.mem)
    fun h => absurd h ht.idle.type_ne
  refine ⟨hguar, ht.idle, ht.entry, fun i hi => ?_, hguar.sound ht.sound⟩
  rw [List.length_append, List.length_singleton] at hi
  show Function.update t.mem _ byte (d.page + UInt64.ofNat i) = _
  by_cases hlast : i = text.length
  · subst hlast
    rw [Function.update_self, List.getElem_append_right (Nat.le_refl _)]
    simp
  · have hne : d.page + UInt64.ofNat i ≠ d.page + UInt64.ofNat text.length := by
      intro heq
      have hnat := congrArg UInt64.toNat heq
      rw [UInt64.toNat_add, UInt64.toNat_add, UInt64.toNat_ofNat', UInt64.toNat_ofNat'] at hnat
      omega
    rw [Function.update_of_ne hne, List.getElem_append_left (by omega)]
    exact ht.text i (by omega)

/-- A store in the grant table, as the exchange sees it. -/
theorem acts_storeGrant {t t' : GrantTable} {ref : UInt32} {store : GrantStore} {r : Unit} :
    (GrantEvent.xen (.storeGrant ref store)).acts t r t' ↔
      t' = Function.update t ref (store.entry (t ref)) := by
  cases store <;> rfl

/-- A store to the idle entry that leaves it idle. -/
theorem behaves_storeGrant {text : List UInt8} (hlen : text.length ≤ 4096)
    {P R : GrantEntry → Prop} {store : GrantStore}
    (hflags : ∀ e, (store.entry e).flags = e.flags) (hR : ∀ e, P e → R (store.entry e))
    (hs : Preparing xen d host text P s) :
    FirstBehaves xen d host (storeGrant 511 store) (fun _ => Preparing xen d host text R) s := by
  refine Behaves.req (stable_preparing hlen P) hs ?_
  rintro t r s' ht ⟨table, hacts, rfl⟩
  obtain rfl := acts_storeGrant.mp hacts
  have hidle : (Function.update t.table 511 (store.entry (t.table 511)) 511).Idle := by
    rw [Function.update_self, GrantEntry.Idle, hflags]
    exact ht.idle
  have hguar := ht.guarantee (Function.update t.table 511 (store.entry (t.table 511))) t.mem
    fun h => absurd h hidle.type_ne
  refine ⟨hguar, hidle, ?_, ht.text, hguar.sound ht.sound⟩
  show R (Function.update t.table 511 (store.entry (t.table 511)) 511)
  rw [Function.update_self]
  exact hR _ ht.entry

/-- What the first guest leaves behind. -/
def Done (xen : MapHeaders) (d : Domains) (host : UInt64) (s : Guests) : Prop :=
  PageVisible d s ∧ Sound xen d host s

/-- Once all is done it stays done. -/
theorem stable_done : Stable (FirstRely xen d host) (Done xen d host) :=
  fun _ _ hst h => ⟨hst.published h.1, hst.sound h.2⟩

/-- The store that makes the entry visible. -/
theorem behaves_publish {flags : UInt16} (hflags : flags = 1)
    (hs : Preparing xen d host (hiText ++ [0])
      (fun e => e.domid = 6 ∧ e.frame.toUInt64 = d.page / 0x1000) s) :
    FirstBehaves xen d host (storeGrant 511 (.flags flags)) (fun _ => Done xen d host) s := by
  subst hflags
  refine Behaves.req (stable_preparing (by decide) _) hs ?_
  rintro t r s' ht ⟨table, hacts, rfl⟩
  obtain rfl : table = Function.update t.table 511 { t.table 511 with flags := 1 } := hacts
  have hvisible : PageVisible d
      { t with table := Function.update t.table 511 { t.table 511 with flags := 1 } } := by
    have hlive : (pageGrant d).Live { t.table 511 with flags := 1 } :=
      ⟨ht.entry.1, show (1 : UInt16) &&& 3 = 1 from rfl, ht.entry.2⟩
    refine ⟨?_, ht.text⟩
    simpa only [Function.update_self] using hlive
  have hguar := ht.guarantee (Function.update t.table 511 { t.table 511 with flags := 1 }) t.mem
    fun _ => hvisible
  exact ⟨hguar, hvisible, hguar.sound ht.sound⟩

/-- The first reference that is handed out is the last one put on the list. -/
theorem putFreeEntries_zero (list : GnttabList) : putFreeEntries list 0 = 511 := by
  have hlast : List.range' nrReservedEntries (nrGrantEntries - nrReservedEntries) =
      List.range' nrReservedEntries 503 ++ [511] := List.range'_1_concat
  rw [putFreeEntries, hlast, List.foldl_append]
  rfl

/-- The grant is published by its last store, when frame and domain are in place. -/
theorem behaves_gnttabGrantAccess {headers : XenHeaders} (hpermit : headers.gtfPermitAccess = 1)
    (hpage : d.page.toNat < 2 ^ 44) (list : GnttabList)
    (hs : Preparing xen d host (hiText ++ [0]) (fun _ => True) s) :
    FirstBehaves xen d host (gnttabGrantAccess headers (putFreeEntries list) 6 (d.page / 0x1000) 0)
      (fun _ => Done xen d host) s := by
  have hframe : (d.page / 0x1000).toUInt32.toUInt64 = d.page / 0x1000 := by
    have h : (0x1000 : UInt64).toNat = 4096 := rfl
    refine UInt64.toNat_inj.mp ?_
    rw [UInt32.toNat_toUInt64, UInt64.toNat_toUInt32, UInt64.toNat_div, h]
    exact Nat.mod_eq_of_lt (by omega)
  have hflags : (headers.gtfPermitAccess ||| (0 : Int32).toUInt32 * headers.gtfReadonly).toUInt16 =
      1 := by
    have hzero : (0 : Int32).toUInt32 * headers.gtfReadonly = 0 := UInt32.zero_mul
    rw [hpermit, hzero]
    rfl
  simp only [gnttabGrantAccess, getFreeEntry, putFreeEntries_zero]
  refine Behaves.seq (behaves_storeGrant (R := fun e => e.frame.toUInt64 = d.page / 0x1000)
    (by decide) (fun _ => rfl) (fun _ _ => hframe) hs) fun _ s₁ h₁ => ?_
  refine Behaves.seq (behaves_storeGrant
    (R := fun e => e.domid = 6 ∧ e.frame.toUInt64 = d.page / 0x1000)
    (by decide) (fun _ => rfl) (fun _ h => ⟨rfl, h⟩) h₁) fun _ s₂ h₂ => ?_
  exact Behaves.seq (behaves_publish hflags h₂) fun _ s₃ h₃ => Behaves.pure h₃

/-- The first guest, from `xen_shared_init() == 0` on. -/
theorem behaves_kernelStartShared {headers : XenHeaders} (hpermit : headers.gtfPermitAccess = 1)
    {info : Information} (hinfo : info.sharedPage = d.page) (hpage : d.page.toNat < 2 ^ 44)
    (k : XenGlobals) (hs : Preparing xen d host [] (fun _ => True) s) :
    FirstBehaves xen d host (kernelStartShared headers info k) (fun _ _ => True) s := by
  have hquiet : ∀ {α : Type} {p : XenM α} {s : Guests}, p.Issues XenEvent.Quiet →
      Preparing xen d host [] (fun _ => True) s →
      FirstBehaves xen d host p (fun _ => Preparing xen d host [] fun _ => True) s :=
    fun hp hs => behaves_quiet (stable_preparing (by decide) _) hp hs
  have hdone : ∀ {α : Type} {p : XenM α} {s : Guests}, p.Issues XenEvent.Quiet →
      Done xen d host s → FirstBehaves xen d host p (fun _ => Done xen d host) s :=
    fun hp hs => behaves_quiet stable_done hp hs
  unfold kernelStartShared
  refine Behaves.seq (hquiet (Issues.req trivial) hs) fun _ _ hs => ?_
  refine Behaves.seq (hquiet (Issues.req trivial) hs) fun _ _ hs => ?_
  refine Behaves.seq (hquiet (Issues.req trivial) hs) fun _ _ hs => ?_
  refine Behaves.seq (hquiet quiet_pvclockMonotonicRead hs) fun _ _ hs => ?_
  refine Behaves.seq (hquiet quiet_pvclockWcRead hs) fun _ _ hs => ?_
  refine Behaves.seq (hquiet (Issues.req trivial) hs) fun _ _ hs => ?_
  refine Behaves.seq (hquiet (Issues.req trivial) hs) fun _ _ hs => ?_
  refine Behaves.seq (hquiet (quiet_wait 1) hs) fun _ _ hs => ?_
  refine Behaves.seq (hquiet quiet_pvclockMonotonicRead hs) fun _ _ hs => ?_
  refine Behaves.seq (hquiet (Issues.req trivial) hs) fun _ _ hs => ?_
  refine Behaves.seq (hquiet (Issues.req trivial) hs) fun _ _ hs => ?_
  -- the grant table is initialised
  refine Behaves.seq (R := fun list s => list = putFreeEntries k.gnttabList ∧
    Preparing xen d host [] (fun _ => True) s) ?_ ?_
  · unfold initGnttab
    refine Behaves.seq (hquiet (quiet_mapGrantFrames _ _ _) hs) fun _ _ hs => ?_
    exact Behaves.seq (hquiet (Issues.req trivial) hs) fun _ _ hs => Behaves.pure ⟨rfl, hs⟩
  intro list s₁ ⟨hlist, h₁⟩
  -- the text is stored
  have hzero : d.page + UInt64.ofNat ([] : List UInt8).length = d.page := UInt64.add_zero _
  have hletter := behaves_storeByte [] (by decide) 'H'.toUInt8 h₁
  rw [hzero] at hletter
  rw [hinfo]
  refine Behaves.seq hletter fun _ s₂ h₂ => ?_
  refine Behaves.seq (behaves_storeByte ['H'.toUInt8] (by decide) 'i'.toUInt8 h₂) fun _ s₃ h₃ => ?_
  refine Behaves.seq (behaves_storeByte ['H'.toUInt8, 'i'.toUInt8] (by decide) 0 h₃)
    fun _ s₄ h₄ => ?_
  -- the page is granted
  rw [hlist]
  refine Behaves.seq (behaves_gnttabGrantAccess hpermit hpage _ h₄) fun r _ hs => ?_
  refine Behaves.seq (hdone (Issues.req trivial) hs) fun _ _ hs => ?_
  exact Behaves.seq (hdone (Issues.req trivial) hs) fun _ _ _ => Behaves.pure trivial

/-- **The first guest** publishes its page after the page has the text. -/
theorem behaves_kernelStartXen {headers : XenHeaders} (hpermit : headers.gtfPermitAccess = 1)
    {image : KernelImage} {info : Information} (hinfo : info.sharedPage = d.page)
    (hpage : d.page.toNat < 2 ^ 44) (k : XenGlobals)
    (hs : Preparing xen d host [] (fun _ => True) s) :
    FirstBehaves xen d host (kernelStartXen headers image info k) (fun _ _ => True) s := by
  have hquiet : ∀ {α : Type} {p : XenM α} {s : Guests}, p.Issues XenEvent.Quiet →
      Preparing xen d host [] (fun _ => True) s →
      FirstBehaves xen d host p (fun _ => Preparing xen d host [] fun _ => True) s :=
    fun hp hs => behaves_quiet (stable_preparing (by decide) _) hp hs
  refine Behaves.seq (hquiet quiet_xenDetect hs) fun _ _ hs => ?_
  refine Behaves.ite (fun _ => ?_) fun _ => Behaves.pure trivial
  refine Behaves.seq (hquiet (Issues.req trivial) hs) fun _ _ hs => ?_
  refine Behaves.seq (hquiet quiet_xenBaseDetect hs) fun _ _ hs => ?_
  refine Behaves.seq (hquiet (quiet_xenHypercallsInit _ _) hs) fun _ _ hs => ?_
  refine Behaves.seq (hquiet (Issues.req trivial) hs) fun _ _ hs => ?_
  refine Behaves.seq (hquiet (quiet_xenSharedInit _ _) hs) fun _ _ hs => ?_
  refine Behaves.ite (fun _ => behaves_kernelStartShared hpermit hinfo hpage _ hs) fun _ => ?_
  exact Behaves.seq (hquiet (Issues.req trivial) hs) fun _ _ _ => Behaves.pure trivial

end First

end UefiKernel.Xen
