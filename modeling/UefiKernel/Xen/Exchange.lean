import UefiKernel.Console.Value
import UefiKernel.Xen.TwoGuests

/-!
# UefiKernel.Xen.Exchange

What the second guest prints, and what the two guests come to together.

The messages of the second guest are runs of the formatter.  What one run of it
prints where nobody interferes, every run prints among moves that keep the page
(`behaves_printing`).  With the first guest's side this gives `guests_exchange`:
the message arrives whole or not at all.  It does arrive in some run if and only
if the two domains have the numbers that are written into the code
(`exchange_possible_iff`).
-/

namespace UefiKernel.Xen

open Relation Interact Prog Rely
open Console (PrintEvent PrintM bytes Machine Trace)

/-! ## what the second guest's messages print -/

section Messages

open Console (Directive Item Matches render)

/-- The page as the formatter may read it: the text and its NUL. -/
def pageMachine (host : UInt64) : Machine where
  mem p := (hiText ++ [0])[(p - host).toNat]?
  junk _ := 0

/-- It is there as a string. -/
theorem pageMachine_hasText (host : UInt64) : (pageMachine host).HasText (.mem host) hiText := by
  have hmem : ∀ i < 3, (pageMachine host).mem (host + UInt64.ofNat i) = (hiText ++ [0])[i]? := by
    intro i hi
    have hsub : (host + UInt64.ofNat i - host).toNat = i := by
      rw [UInt64.add_comm, UInt64.add_sub_cancel, UInt64.toNat_ofNat']
      omega
    show (hiText ++ [0])[(host + UInt64.ofNat i - host).toNat]? = _
    rw [hsub]
  have h0 : (pageMachine host).mem host = some 'H'.toUInt8 := by
    have h := hmem 0 (by decide)
    rwa [show host + UInt64.ofNat 0 = host from UInt64.add_zero host] at h
  have h2 : (pageMachine host).mem (host + 1 + 1) = some 0 := by
    have h := hmem 2 (by decide)
    rwa [show host + UInt64.ofNat 2 = host + 1 + 1 from (UInt64.add_assoc host 1 1).symm] at h
  exact .cons h0 (by decide) (.cons (hmem 1 (by decide)) (by decide) (.nil h2))

theorem stringDirective_digits : ∀ ch ∈ ([] : List UInt8), Console.isDigit ch = true :=
  fun _ h => absurd h List.not_mem_nil

theorem stringDirective_zero : false = false → ([] : List UInt8).head? ≠ some '0'.toUInt8 :=
  fun _ => (Option.some_ne_none _).symm

theorem stringDirective_width : Console.decimalFrom 0 [] < 2 ^ 64 := Nat.two_pow_pos 64

/-- The directive `%s`. -/
def stringDirective : Directive where
  minuses := 0
  zero := false
  digits := []
  modifier := none
  verb := .s
  digits_ok := stringDirective_digits
  zero_first := stringDirective_zero
  width_lt := stringDirective_width

/-- The message, with what is in the page. -/
theorem run_message {host : UInt64} (hhost : host ≠ 0) :
    ∃ n, Run (pageMachine host).env ({}, Console.printf (.lit Guest2.messageFormat) [host])
      ({ out := successText }, ret n) := by
  obtain ⟨before, htext, hrender, hmatches⟩ := Console.exists_plain_items_append
    (show 0 ∉ bytes "Message read from shared memory: " by decide) (by decide)
  obtain ⟨after, htext', hrender', hmatches'⟩ :=
    Console.exists_plain_items_append (show 0 ∉ bytes "\n" by decide) (by decide)
  have hfmt : (pageMachine host).HasText (.lit Guest2.messageFormat)
      ((before ++ .directive stringDirective :: after).flatMap Item.text) := by
    have hformat : Guest2.messageFormat =
        bytes "Message read from shared memory: " ++ (stringDirective.text ++ bytes "\n") := by
      decide
    rw [List.flatMap_append, List.flatMap_cons, htext, htext', Item.text, ← hformat]
    exact Machine.hasText_lit (Console.forall_mem_bytes (by decide))
  have hargs : Matches (pageMachine host) (fun _ => hiText)
      (before ++ .directive stringDirective :: after) [host] := by
    have hafter := (hmatches' (pageMachine host) (fun _ => hiText) [] []).mpr trivial
    rw [List.append_nil] at hafter
    exact (hmatches _ _ _ _).mpr ⟨.inr (pageMachine_hasText host), hafter⟩
  have hrun := Machine.run_printf hfmt hargs {}
  have hafter := hrender' (fun _ => hiText) [] []
  have hstring : stringDirective.render (fun _ => hiText) host = hiText := by
    show Console.Field.pad (if host = 0 then _ else _) false false 0 = hiText
    rw [if_neg hhost]
    rfl
  rw [List.append_nil, render, List.append_nil] at hafter
  rw [hrender, render, hafter, hstring] at hrun
  exact ⟨_, hrun⟩

/-- And the failure's, with whatever the hypercall has returned. -/
theorem run_failure (m : Machine) (rc : Int32) (status : Int16) :
    ∃ n, Run m.env ({}, Console.printf (.lit Guest2.failedFormat)
      [rc.toInt64.toUInt64, status.toInt64.toUInt64])
      ({ out := failureText rc status }, ret n) := by
  obtain ⟨before, htext, hrender, hmatches⟩ := Console.exists_plain_items_append
    (show 0 ∉ bytes "GNTTABOP_map_grant_ref failed, return value:" by decide) (by decide)
  obtain ⟨between, htext₁, hrender₁, hmatches₁⟩ :=
    Console.exists_plain_items_append (show 0 ∉ bytes ", status:" by decide) (by decide)
  obtain ⟨after, htext₂, hrender₂, hmatches₂⟩ :=
    Console.exists_plain_items_append (show 0 ∉ bytes "\n" by decide) (by decide)
  obtain ⟨d, hd, hint⟩ := Console.exists_intDirective
  have hfmt : m.HasText (.lit Guest2.failedFormat)
      ((before ++ .directive d :: (between ++ .directive d :: after)).flatMap Item.text) := by
    have hformat : Guest2.failedFormat = bytes "GNTTABOP_map_grant_ref failed, return value:" ++
        (bytes "%d" ++ (bytes ", status:" ++ (bytes "%d" ++ bytes "\n"))) := by
      decide
    simp only [List.flatMap_append, List.flatMap_cons, htext, htext₁, htext₂, Item.text, hd]
    rw [← hformat]
    exact Machine.hasText_lit (Console.forall_mem_bytes (by decide))
  have hargs : Matches m (fun _ => [])
      (before ++ .directive d :: (between ++ .directive d :: after))
      [rc.toInt64.toUInt64, status.toInt64.toUInt64] := by
    have hafter := (hmatches₂ m (fun _ => []) [] []).mpr trivial
    rw [List.append_nil] at hafter
    exact (hmatches _ _ _ _).mpr ⟨(hint _ _).1 m, (hmatches₁ _ _ _ _).mpr ⟨(hint _ _).1 m, hafter⟩⟩
  have hrun := Machine.run_printf hfmt hargs {}
  have hafter := hrender₂ (fun _ => []) [] []
  rw [List.append_nil, render, List.append_nil] at hafter
  rw [hrender, render, hrender₁, render, hafter, (hint _ _).2, (hint _ _).2] at hrun
  have hrc : (rc.toInt64.toUInt64.toBitVec.setWidth 32).toInt = rc.toInt := by
    have hrange := (Console.toInt_setWidth_iff rc.toInt64).mpr (by
      rw [Int32.toInt_toInt64]
      exact ⟨rc.le_toInt, rc.toInt_lt⟩)
    rwa [Int32.toInt_toInt64] at hrange
  have hstatus : (status.toInt64.toUInt64.toBitVec.setWidth 32).toInt = status.toInt := by
    have hlow := status.le_toInt
    have hhigh := status.toInt_lt
    have hrange := (Console.toInt_setWidth_iff status.toInt64).mpr (by
      rw [Int16.toInt_toInt64]
      omega)
    rwa [Int16.toInt_toInt64] at hrange
  have hout : bytes "GNTTABOP_map_grant_ref failed, return value:" ++ (Console.decimal rc.toInt ++
      (bytes ", status:" ++ (Console.decimal status.toInt ++ bytes "\n"))) ++ [0] =
      failureText rc status := by
    simp only [failureText, List.append_assoc]
  rw [hrc, hstatus, hout] at hrun
  exact ⟨_, hrun⟩

end Messages

/-! ## the second guest -/

section Second

variable {xen : MapHeaders} {d : Domains} {host : UInt64} {s : Guests} {α β : Type}

/-- What the second guest does, among what it relies on. -/
abbrev SecondBehaves (xen : MapHeaders) (d : Domains) (host : UInt64) (p : Guest2M α)
    (Q : α → Guests → Prop) (s : Guests) : Prop :=
  Behaves (SecondRely xen d host) (SecondGuar xen d host) (Guests.second xen d) p Q s

/-- The second guest has asked for a page, or it has not: nothing is mapped yet, and
nothing printed. -/
structure NotYet (xen : MapHeaders) (d : Domains) (host : UInt64) (asked : Bool) (s : Guests) :
    Prop where
  sound : Sound xen d host s
  asked : s.asked = asked
  mapped : s.mapped = none
  console : s.console = []

/-- The first guest and Xen map and print nothing for the second. -/
theorem stable_notYet {asked : Bool} : Stable (SecondRely xen d host) (NotYet xen d host asked) :=
  fun _ _ hst h => ⟨hst.sound h.sound, hst.asked.trans h.asked, hst.mapped.trans h.mapped,
    hst.console.trans h.console⟩

/-- Nor do they take back what it has received. -/
theorem stable_received : Stable (SecondRely xen d host) (Received d host) := by
  intro s t hst h
  refine ⟨hst.published h.published, h.first, h.second, ?_⟩
  rw [hst.mapped]
  exact h.mapped

/-- The two guests' common part stores nothing to what is shared. -/
theorem behaves_alsoXen (p : XenM α) (hs : NotYet xen d host false s) :
    SecondBehaves xen d host (alsoXen p) (fun _ => NotYet xen d host false) s := by
  refine Behaves.of_issues stable_notYet ?_ (issues_alsoXen p) hs
  rintro _ t r s' ⟨e, rfl⟩ ht hact
  obtain rfl : s' = t := hact
  exact ⟨SecondGuar.refl _, ht⟩

/-- Nothing that the invariant is about depends on what has been asked for. -/
theorem Sound.ask (h : Sound xen d host s) : Sound xen d host { s with asked := true } :=
  h.congr (fun hp => ⟨hp.live, hp.text⟩) rfl rfl rfl rfl

/-- The invariant says all that is needed of a page that could be mapped. -/
theorem behaves_mapOp {info : Information} (hhost : info.sharedPage = host)
    (hs : NotYet xen d host false s) :
    SecondBehaves xen d host
      (hypervisorGrantTableOp xen.gnttabopMapGrantRef (Guest2.mapOp xen info) 1)
      (fun r s' => if r.1 = 0 ∧ r.2 = xen.gntstOkay then
        (Received d host s' ∧ s'.asked = true) ∧ Sound xen d host s' ∧ s'.console = []
        else NotYet xen d host true s') s := by
  refine Behaves.req stable_notYet hs ?_
  rintro t ⟨rc, status⟩ s' ht (⟨hfailed, rfl⟩ | ⟨hokay, -, -, hdom, hfound, rfl⟩)
  · rw [if_neg hfailed]
    exact ⟨⟨Sound.ask, rfl, rfl⟩, ht.sound.ask, rfl, ht.mapped, ht.console⟩
  · rw [if_pos hokay]
    let t' : Guests := { t with
      asked := true, mapped := some ((Guest2.mapOp xen info).hostAddr, (t.table 511).frame) }
    obtain ⟨hvisible, hsecond⟩ := ht.sound.found hfound
    have hreceived : Received d host t' := by
      refine ⟨⟨hvisible.live, hvisible.text⟩, hdom.symm, hsecond, (t.table 511).frame, ?_, ?_⟩
      · rw [← hhost]
        rfl
      · exact hvisible.live.2.2
    have hsound : Sound xen d host t' := by
      refine ⟨fun _ => hreceived.published, fun _ => ⟨hreceived.published, hsecond⟩, ?_, ?_⟩
      · intro _
        refine ⟨hreceived, ?_⟩
        show t.console <+: _
        rw [ht.console]
        exact List.nil_prefix
      · intro h
        cases h
    exact ⟨⟨fun _ => hsound, rfl, rfl⟩, ⟨hreceived, rfl⟩, hsound, ht.console⟩

/-- A message, among moves that keep `I`: what is there to be read is what the
machine `m` has, and the console shows more and more of the text. -/
theorem behaves_printing {m : Machine} {fmt : Console.CharPtr} {args : List UInt64}
    {text : List UInt8} {n : UInt64}
    (hrun : Run m.env ({}, Console.printf fmt args) ({ out := text }, ret n))
    {I : Guests → Prop} (hI : Stable (SecondRely xen d host) I)
    (hconsole : ∀ s out, I s → I { s with console := out })
    (hread : ∀ s p ch, I s → m.mem p = some ch → s.read d p = ch)
    (hsound : ∀ s out, I s → Sound xen d host s → out <+: text →
      Sound xen d host { s with console := out })
    (hs : I s) (hs' : Sound xen d host s) (hempty : s.console = []) :
    SecondBehaves xen d host (printing (Console.printf fmt args))
      (fun _ s' => I s' ∧ Sound xen d host s' ∧ s'.console = text) s := by
  have hfollow : wp (fun s e r s' => interleave (SecondRely xen d host) (Guests.second xen d) s
        (.print e) r s')
      (fun s e => Guarantees (SecondRely xen d host) (SecondGuar xen d host)
        (Guests.second xen d) s (.print e))
      (Console.printf fmt args)
      (fun b s' => b = n ∧ I s' ∧ Sound xen d host s' ∧ s'.console = text) s := by
    refine wp_follow (R := fun g s => I s ∧ Sound xen d host s ∧ s.console = g.out) ?_ hrun
      ⟨hs, hs', hempty⟩
    intro g e r g₁ s he hlast hR
    have hstable : Stable (SecondRely xen d host) fun s =>
        I s ∧ Sound xen d host s ∧ s.console = g.out :=
      fun s t hst h => ⟨hI _ _ hst h.1, hst.sound h.2.1, hst.console.trans h.2.2⟩
    -- what was printed is printed, and nothing was fetched that was not passed
    obtain ⟨hout, hfetched⟩ := m.leads_prefix hlast
    have hstep : ∀ t r' s', I t ∧ Sound xen d host t ∧ t.console = g.out →
        Guests.second xen d t (.print e) r' s' →
        SecondGuar xen d host t s' ∧ r' = r ∧ I s' ∧ Sound xen d host s' ∧ s'.console = g₁.out := by
      rintro t r' s' ⟨ht, hts, htc⟩ hact
      cases e with
      | load via p =>
          obtain ⟨rfl, rfl⟩ := hact
          obtain ⟨hmem, rfl⟩ := he
          exact ⟨SecondGuar.refl _, hread _ _ _ ht hmem, ht, hts, htc⟩
      | vaArg =>
          rw [he.2] at hfetched
          cases hfetched
      | fn ch =>
          obtain rfl : s' = { t with console := t.console ++ [ch] } := hact
          obtain rfl : g₁ = g.print [ch] := he
          have hnew : t.console ++ [ch] = (g.print [ch]).out := by rw [htc]; rfl
          have hs := hsound t _ ht hts (hnew ▸ hout)
          exact ⟨⟨fun _ => hs, rfl, rfl⟩, rfl, hconsole _ _ ht, hs, hnew⟩
    refine ⟨?_, ?_⟩
    · intro t r' s' hst hact
      exact (hstep t r' s' (hstable.steps hst hR) hact).1
    · rintro r' s' ⟨t, hst, hact⟩
      exact (hstep t r' s' (hstable.steps hst hR) hact).2
  refine wp_embed (f := Guest2Event.print) (h := fun _ r => r) (fun _ _ _ _ h => h)
    (fun _ _ h => h) (wp_mono ?_ hfollow)
  rintro _ s' ⟨-, h⟩
  exact h

/-- What the second guest ends with, if it got as far as the hypercall. -/
inductive Answered (xen : MapHeaders) (d : Domains) (host : UInt64) (s : Guests) : Prop
  | success (h : Received d host s) (hout : s.console = successText)
  | failure (rc : Int32) (status : Int16) (h : ¬ (rc = 0 ∧ status = xen.gntstOkay))
      (hmapped : s.mapped = none) (hout : s.console = failureText rc status)

/-- The mapped page reads as the first guest's. -/
theorem Received.read (h : Received d host s) (haligned : d.page.toNat % 4096 = 0) {p : UInt64}
    {ch : UInt8} (hp : (pageMachine host).mem p = some ch) : s.read d p = ch := by
  obtain ⟨frame, hmapped, hframe⟩ := h.mapped
  obtain ⟨hlt, hch⟩ := List.getElem?_eq_some_iff.mp hp
  have hin : InPage host p := Nat.lt_of_lt_of_le hlt (by decide)
  have hbase : frame.toUInt64 * 4096 = d.page := by
    have hk : (4096 : UInt64).toNat = 4096 := rfl
    have hlt := d.page.toNat_lt
    rw [hframe, ← UInt64.toNat_inj, UInt64.toNat_mul, UInt64.toNat_div, hk]
    omega
  have hoff : p - host = UInt64.ofNat (p - host).toNat := UInt64.ofNat_toNat.symm
  have htext := h.published.text _ hlt
  rw [Guests.read, hmapped]
  show (if InPage host p then _ else _) = ch
  rw [if_pos hin, hbase, hoff, htext]
  exact hch

/-- The hypercall, and the text that goes with its outcome. -/
theorem behaves_readMessage {info : Information} (hhost : info.sharedPage = host)
    (hne : host ≠ 0) (haligned : d.page.toNat % 4096 = 0) (hs : NotYet xen d host false s) :
    SecondBehaves xen d host (Guest2.readMessage xen info)
      (fun _ s' => s'.asked = true ∧ Answered xen d host s') s := by
  unfold Guest2.readMessage
  refine Behaves.seq (behaves_mapOp hhost hs) ?_
  rintro ⟨rc, status⟩ s₁ h₁
  by_cases hokay : rc = 0 ∧ status = xen.gntstOkay
  · rw [if_pos hokay] at h₁
    obtain ⟨hreceived, hsound, hempty⟩ := h₁
    refine Behaves.ite (fun h => absurd hokay (not_and_or.mpr h)) fun _ => ?_
    obtain ⟨n, hrun⟩ := run_message hne
    have hop : (Guest2.mapOp xen info).hostAddr = host := hhost
    rw [hop]
    have hstable : Stable (SecondRely xen d host) fun s => Received d host s ∧ s.asked = true :=
      fun s t hst h => ⟨stable_received s t hst h.1, hst.asked.trans h.2⟩
    refine Behaves.mono ?_ (behaves_printing hrun hstable ?_ ?_ ?_ hreceived hsound hempty)
    · exact fun _ s' h => ⟨h.1.2, .success h.1.1 h.2.2⟩
    · exact fun s out ⟨h, hasked⟩ =>
        ⟨⟨⟨h.published.live, h.published.text⟩, h.first, h.second, h.mapped⟩, hasked⟩
    · exact fun s p ch h hp => h.1.read haligned hp
    · rintro s out ⟨h, -⟩ hs hout
      obtain ⟨frame, hmapped, -⟩ := h.mapped
      have hvisible : PageVisible d { s with console := out } :=
        ⟨h.published.live, h.published.text⟩
      refine ⟨fun _ => hvisible, fun hf => ⟨hvisible, (hs.found hf).2⟩, fun _ => ⟨?_, hout⟩, ?_⟩
      · exact ⟨hvisible, h.first, h.second, h.mapped⟩
      · intro hnone
        cases hmapped.symm.trans hnone
  · rw [if_neg hokay] at h₁
    refine Behaves.ite (fun _ => ?_) fun h => absurd (not_or.mp h) fun h => hokay (by simpa using h)
    obtain ⟨n, hrun⟩ := run_failure ⟨fun _ => none, fun _ => 0⟩ rc status
    refine Behaves.mono ?_ (behaves_printing hrun (I := fun s => s.mapped = none ∧ s.asked = true)
      (fun _ _ hst h => ⟨hst.mapped.trans h.1, hst.asked.trans h.2⟩) (fun _ _ h => h) ?_ ?_
      ⟨h₁.mapped, h₁.asked⟩ h₁.sound h₁.console)
    · exact fun _ s' h => ⟨h.1.2, .failure rc status hokay h.1.1 h.2.2⟩
    · exact fun _ _ _ _ h => nomatch h
    · rintro s out ⟨hmapped, -⟩ hs hout
      refine ⟨fun h => ?_, fun h => ?_, fun h => absurd hmapped h,
        fun _ => ⟨rc, status, hokay, hout⟩⟩
      · exact ⟨(hs.visible h).live, (hs.visible h).text⟩
      · exact ⟨⟨(hs.found h).1.live, (hs.found h).1.text⟩, (hs.found h).2⟩

/-- **The second guest** reads the page only once it is mapped. -/
theorem behaves_guest2 {image : KernelImage} {info : Information} (hhost : info.sharedPage = host)
    (hne : host ≠ 0) (haligned : d.page.toNat % 4096 = 0) (k : XenGlobals)
    (hs : NotYet xen d host false s) :
    SecondBehaves xen d host (Guest2.kernelStartXen xen image info k) (fun _ s' =>
      NotYet xen d host false s' ∨ s'.asked = true ∧ Answered xen d host s') s := by
  refine Behaves.seq (behaves_alsoXen _ hs) fun _ _ hs => ?_
  refine Behaves.ite (fun _ => ?_) fun _ => Behaves.pure (.inl hs)
  refine Behaves.seq (behaves_alsoXen _ hs) fun _ _ hs => ?_
  refine Behaves.seq (behaves_alsoXen _ hs) fun _ _ hs => ?_
  refine Behaves.seq (behaves_alsoXen _ hs) fun _ _ hs => ?_
  refine Behaves.seq (behaves_alsoXen _ hs) fun _ _ hs => ?_
  refine Behaves.seq (behaves_alsoXen _ hs) fun _ _ hs => ?_
  refine Behaves.ite (fun _ => ?_) fun _ => ?_
  · refine Behaves.seq (behaves_alsoXen _ hs) fun _ _ hs => ?_
    refine Behaves.seq (behaves_readMessage hhost hne haligned hs) fun _ _ hs => ?_
    exact Behaves.pure (.inr hs)
  · exact Behaves.seq (behaves_alsoXen _ hs) fun _ _ hs => Behaves.pure (.inl hs)

/-- What the second guest ends with stays so. -/
theorem stable_ended : Stable (SecondRely xen d host) fun s =>
    NotYet xen d host false s ∨ s.asked = true ∧ Answered xen d host s := by
  rintro s t hst (h | ⟨hasked, h⟩)
  · exact .inl (stable_notYet _ _ hst h)
  · refine .inr ⟨hst.asked.trans hasked, ?_⟩
    rcases h with ⟨h, hout⟩ | ⟨rc, status, h, hmapped, hout⟩
    · exact .success (stable_received _ _ hst h) (hst.console.trans hout)
    · exact .failure rc status h (hst.mapped.trans hmapped) (hst.console.trans hout)

end Second

/-! ## both -/

section Both

variable {headers : XenHeaders} (hpermit : headers.gtfPermitAccess = 1) {xen : MapHeaders}
  {d : Domains} {image₁ image₂ : KernelImage} {info₁ info₂ : Information} {k₁ k₂ : XenGlobals}
  (hpage : info₁.sharedPage = d.page) (haligned : d.page.toNat % 4096 = 0)
  (hlt : d.page.toNat < 2 ^ 44) (hhost : info₂.sharedPage ≠ 0) {s : Guests} (hs : s.Fresh)

/-- The two kernels, side by side. -/
abbrev guests (headers : XenHeaders) (xen : MapHeaders) (image₁ image₂ : KernelImage)
    (info₁ info₂ : Information) (k₁ k₂ : XenGlobals) (s : Guests) :
    Beside Guests XenEvent XenEvent.Answer Guest2Event Guest2Event.Answer XenGlobals XenGlobals :=
  ⟨s, kernelStartXen headers image₁ info₁ k₁, Guest2.kernelStartXen xen image₂ info₂ k₂⟩

/-- Steps of the guests, of Xen, and of whatever else runs in the first domain. -/
abbrev GuestsRun (xen : MapHeaders) (d : Domains) :
    Beside Guests XenEvent XenEvent.Answer Guest2Event Guest2Event.Answer XenGlobals XenGlobals →
    Beside Guests XenEvent XenEvent.Answer Guest2Event Guest2Event.Answer XenGlobals XenGlobals →
    Prop :=
  Beside.Run Guests.first (Guests.second xen d) (Guests.Other d)

include hpermit hpage haligned hlt hhost hs

/-- Each guest's own specification, and the invariant, along a run of both. -/
theorem sound_of_run
    {c : Beside Guests XenEvent XenEvent.Answer Guest2Event Guest2Event.Answer XenGlobals
      XenGlobals}
    (hr : GuestsRun xen d (guests headers xen image₁ image₂ info₁ info₂ k₁ k₂ s) c) :
    Sound xen d info₂.sharedPage c.mem ∧ ∀ k, c.right = ret k →
      NotYet xen d info₂.sharedPage false c.mem ∨
        c.mem.asked = true ∧ Answered xen d info₂.sharedPage c.mem := by
  have hsound : Sound xen d info₂.sharedPage s := by
    refine ⟨fun h => absurd h hs.idle.type_ne, fun h => ?_, fun h => absurd hs.mapped h,
      fun _ => ?_⟩
    · cases hs.found.symm.trans h
    · refine ⟨1, 0, fun h => absurd h.1 (by decide), ?_⟩
      rw [hs.console]
      exact List.nil_prefix
  have hfirst : FirstBehaves xen d info₂.sharedPage (kernelStartXen headers image₁ info₁ k₁)
      (fun _ _ => True) s :=
    behaves_kernelStartXen hpermit hpage hlt k₁
      ⟨hs.idle, trivial, fun i hi => absurd hi (Nat.not_lt_zero i), hsound⟩
  have hsecond : SecondBehaves xen d info₂.sharedPage (Guest2.kernelStartXen xen image₂ info₂ k₂)
      (fun _ s' => NotYet xen d info₂.sharedPage false s' ∨
        s'.asked = true ∧ Answered xen d info₂.sharedPage s') s :=
    behaves_guest2 rfl hhost haligned k₂ ⟨hsound, hs.asked, hs.mapped, hs.console⟩
  obtain ⟨-, hright, hmoves⟩ := hfirst.parallel fits_guests hsecond hr
  have hkeep : Stable (Move (SecondRely xen d info₂.sharedPage) (SecondGuar xen d info₂.sharedPage)
      (Guests.Other d)) (Sound xen d info₂.sharedPage) := by
    rintro t u (h | h | h) ht
    · exact h.sound ht
    · exact h.sound ht
    · exact ht.other h
  refine ⟨hkeep.steps hmoves hsound, fun k hk => ?_⟩
  rw [hk] at hright
  exact hright.result stable_ended

end Both

/-! ## a run in which it arrives -/

section Answers

variable {G : Type} {env : G → (e : XenEvent) → e.Answer → G → Prop}

/-- An environment that may answer anything to events that store nothing. -/
def Open (env : G → (e : XenEvent) → e.Answer → G → Prop) : Prop :=
  ∀ g e r, e.Quiet → env g e r g

variable (henv : Open env) (g : G)
include henv

theorem Open.req {e : XenEvent} (he : e.Quiet) (r : e.Answer) :
    Run env (g, Prog.req e) (g, ret r) := Run.req (henv g e r he)

/-- A clock that shows `t`. -/
theorem Open.pvclockMonotonicRead (t : UInt64) : Run env (g, pvclockMonotonicRead) (g, ret t) := by
  have hti : ∀ (field : TimeField) (x : field.Val), Run env (g, pvclockTi field) (g, ret x) :=
    fun field x => henv.req g (e := .loadTime field) trivial x
  have hscale : Run env (g, scaleDelta 0) (g, ret 0) :=
    (hti .tscShift 0).seq ((hti .tscShift 0).seq .refl)
  have hchanged : Run env (g, versionChanged (pvclockTi .version) 0) (g, ret false) :=
    (hti .version 0).seq ((hti .version 0).seq .refl)
  have htsc : Run env (g, rdtsc) (g, ret 0) := henv.req g (e := .rdtsc) trivial 0
  have hvalue : mul64_32 0 0 + t = t := UInt64.zero_add t
  refine Run.leave (b := t) ?_ .refl
  refine (hti .version 0).seq (htsc.seq ((hti .tscTimestamp 0).seq (hscale.seq ?_)))
  refine (hti .tscToSystemMul 0).seq ((hti .systemTime t).seq (hchanged.seq ?_))
  rw [hvalue]
  exact .refl

/-- And one that has been set to zero. -/
theorem Open.pvclockWcRead : Run env (g, pvclockWcRead) (g, ret 0) := by
  have hwc : ∀ field : WallField, Run env (g, pvclockWc field) (g, ret 0) :=
    fun field => henv.req g (e := .loadWall field) trivial 0
  have hchanged : Run env (g, versionChanged (pvclockWc .version) 0) (g, ret false) :=
    (hwc .version).seq ((hwc .version).seq .refl)
  refine Run.leave (b := 0) ?_ .refl
  exact (hwc .version).seq ((hwc .sec).seq ((hwc .nsec).seq (hchanged.seq .refl)))

/-- A second has passed at the second look. -/
theorem Open.wait : Run env (g, wait 1) (g, ret ()) := by
  refine (henv.pvclockMonotonicRead g 0).seq (Run.leave (b := ()) ?_ .refl)
  exact (henv.pvclockMonotonicRead g 1000000000).seq .refl

/-- What a processor under Xen answers to all leaves that are asked for. -/
def xenLeaf (eax : UInt32) : CpuidRegs := ⟨eax, 0x566e6558, 0x65584d4d, 0x4d4d566e⟩

/-- It is found at the first leaf. -/
theorem Open.xenDetect : Run env (g, xenDetect) (g, ret .xen) := by
  have hcpuid : ∀ level r, Run env (g, x86Cpuid level) (g, ret r) :=
    fun level r => henv.req g (e := .cpuid level) trivial r
  refine (hcpuid 0 ⟨1, 0, 0, 0⟩).seq ?_
  refine (hcpuid 1 ⟨0, 0, 0x80000000, 0⟩).seq ?_
  exact (hcpuid 0x40000000 (xenLeaf 0x40000002)).seq .refl

/-- And is the first candidate of the search. -/
theorem Open.xenBaseDetect : Run env (g, xenBaseDetect) (g, ret 0x40000000) := by
  have hcpuid : Run env (g, x86Cpuid 0x40000000) (g, ret (xenLeaf 0x40000002)) :=
    henv.req g (e := .cpuid 0x40000000) trivial _
  refine Run.leave (b := 0x40000000) ?_ .refl
  exact hcpuid.seq .refl

theorem Open.xenHypercallsInit (image : KernelImage) :
    Run env (g, xenHypercallsInit image 0x40000000) (g, ret 0x40000000) := by
  have hcpuid : Run env (g, x86Cpuid (0x40000000 + 2)) (g, ret ⟨1, 0, 0, 0⟩) :=
    henv.req g (e := .cpuid _) trivial _
  have hwrmsr : Run env (g, wrmsr 0 image.miniosHypercallPage) (g, ret ()) :=
    henv.req g (e := .wrmsr _ _) trivial _
  exact hcpuid.seq (hwrmsr.seq .refl)

theorem Open.xenSharedInit (xen : XenHeaders) (image : KernelImage) :
    Run env (g, xenSharedInit xen image) (g, ret 0) :=
  (henv.req g (e := .hypercall _) trivial 0).seq .refl

end Answers

section Delivery

variable {headers : XenHeaders} {xen : MapHeaders} {d : Domains} {image : KernelImage}
  {info : Information} {k : XenGlobals} {s : Guests}

/-- The first guest's world answers anything to what stores nothing. -/
theorem open_first : Open Guests.first := by
  intro s e r he
  refine ⟨s.table, ?_, ?_⟩
  · cases e with
    | storeGrant _ _ => exact he.elim
    | _ => exact rfl
  · cases e with
    | storeByte _ _ => exact he.elim
    | _ => rfl

/-- So does the second's. -/
theorem open_second : Open fun s e r s' => Guests.second xen d s (.xen e) r s' :=
  fun _ _ _ _ => rfl

/-- The first guest's stores. -/
theorem run_storeByte (s : Guests) (p : UInt64) (byte : UInt8) :
    Run Guests.first (s, storeByte p byte)
      ({ s with mem := Function.update s.mem p byte }, ret ()) := Run.req ⟨s.table, rfl, rfl⟩

/-- A store to the entry is there at once. -/
theorem run_storeGrant (s : Guests) (store : GrantStore) :
    Run Guests.first (s, storeGrant 511 store)
      ({ s with table := Function.update s.table 511 (store.entry (s.table 511)) }, ret ()) :=
  Run.req ⟨_, acts_storeGrant.mpr rfl, rfl⟩

/-- The entry says that the second guest may have access; it has done nothing. -/
structure Offered (s : Guests) : Prop where
  type : (s.table 511).type = 1
  domid : (s.table 511).domid = 6
  console : s.console = []

/-- The three stores, to the last free entry. -/
theorem run_gnttabGrantAccess (hpermit : headers.gtfPermitAccess = 1) (list : GnttabList)
    (frame : UInt64) (hs : s.console = []) :
    ∃ s' r, Run Guests.first (s, gnttabGrantAccess headers (putFreeEntries list) 6 frame 0)
      (s', ret r) ∧ Offered s' := by
  have hzero : (0 : Int32).toUInt32 * headers.gtfReadonly = 0 := UInt32.zero_mul
  simp only [gnttabGrantAccess, getFreeEntry, putFreeEntries_zero]
  refine ⟨_, _, (run_storeGrant s _).seq
    ((run_storeGrant _ _).seq ((run_storeGrant _ _).seq .refl)), ?_, ?_, hs⟩
  · simp only [Function.update_self, GrantEntry.type, GrantStore.entry, hpermit, hzero]
    rfl
  · simp only [Function.update_self, GrantStore.entry]

/-- All references are put on the list. -/
theorem run_initGnttab (s : Guests) (gnttabTable : UInt64) (list : GnttabList) :
    Run Guests.first (s, initGnttab headers gnttabTable list) (s, ret (putFreeEntries list)) := by
  have hmap : Run Guests.first (s, mapGrantFrames headers (gnttabTable >>> 12) nrGrantFrames)
      (s, ret ()) :=
    (open_first.req s (e := .hypercall _) trivial 0).seq .refl
  unfold initGnttab
  exact hmap.seq ((open_first.req s (e := .printf _ _) trivial ()).seq .refl)

/-- The first guest offers its page to domain 6. -/
theorem run_kernelStartShared (hpermit : headers.gtfPermitAccess = 1) (info : Information)
    (k : XenGlobals) (hs : s.console = []) :
    ∃ s' k', Run Guests.first (s, kernelStartShared headers info k) (s', ret k') ∧ Offered s' := by
  have hprintf : ∀ (s : Guests) format args, Run Guests.first (s, printf format args) (s, ret ()) :=
    fun s format args => open_first.req s (e := .printf format args) trivial ()
  have hversion : Run Guests.first (s, hypercall (.xenVersion headers.xenverVersion 0))
      (s, ret 0) := open_first.req s (e := .hypercall _) trivial 0
  have hmonotonic := open_first.pvclockMonotonicRead s 0
  obtain ⟨s', r, hgrant, hoffered⟩ := run_gnttabGrantAccess hpermit k.gnttabList
    (info.sharedPage / 0x1000) (s := { s with
      mem := Function.update (Function.update (Function.update s.mem info.sharedPage 'H'.toUInt8)
        (info.sharedPage + 1) 'i'.toUInt8) (info.sharedPage + 2) 0 }) hs
  refine ⟨s', { k with wallClockOffset := 0, gnttabList := r.2 }, ?_, hoffered⟩
  unfold kernelStartShared
  refine hversion.seq ((hprintf _ _ _).seq ((hprintf _ _ _).seq ?_))
  refine hmonotonic.seq ((open_first.pvclockWcRead s).seq ?_)
  refine (hprintf _ _ _).seq ((hprintf _ _ _).seq ((open_first.wait s).seq ?_))
  refine hmonotonic.seq ((hprintf _ _ _).seq ((hprintf _ _ _).seq ?_))
  refine (run_initGnttab s _ _).seq ?_
  refine (run_storeByte _ _ _).seq ((run_storeByte _ _ _).seq ((run_storeByte _ _ _).seq ?_))
  exact hgrant.seq ((hprintf _ _ _).seq ((hprintf _ _ _).seq .refl))

/-- The first guest gets through. -/
theorem run_kernelStartXen (hpermit : headers.gtfPermitAccess = 1) (image : KernelImage)
    (info : Information) (k : XenGlobals) (hs : s.console = []) :
    ∃ s' k', Run Guests.first (s, kernelStartXen headers image info k) (s', ret k') ∧
      Offered s' := by
  have hprintf : ∀ format, Run Guests.first (s, printf format []) (s, ret ()) :=
    fun format => open_first.req s (e := .printf format []) trivial ()
  obtain ⟨s', k', hr, hoffered⟩ := run_kernelStartShared hpermit info
    { k with xenBase := 0x40000000 } hs
  refine ⟨s', k', ?_, hoffered⟩
  refine (open_first.xenDetect s).seq ((hprintf _).seq ((open_first.xenBaseDetect s).seq ?_))
  refine (open_first.xenHypercallsInit s image).seq ((hprintf _).seq ?_)
  exact (open_first.xenSharedInit s headers image).seq hr

/-! ### the second guest -/

/-- Events that both kernels have, in the second. -/
theorem run_alsoXen {α : Type} {p : XenM α} {a : α}
    (h : Run (fun s e r s' => Guests.second xen d s (.xen e) r s') (s, p) (s, ret a)) :
    Run (Guests.second xen d) (s, alsoXen p) (s, ret a) :=
  Run.embed (f := Guest2Event.xen) (h := fun _ r => r) (q := ret a)
    (fun _ _ r _ he => ⟨r, rfl, he⟩) h

/-- The second guest up to its hypercall. -/
theorem run_guest2 (image : KernelImage) (k : XenGlobals) {p' : Guest2M UInt64} {s' : Guests}
    (hr : Run (Guests.second xen d) (s, Guest2.readMessage xen info) (s', p')) :
    ∃ k', Run (Guests.second xen d) (s, Guest2.kernelStartXen xen image info k)
      (s', p'.bind fun _ => ret k') := by
  have hprintf : ∀ format, Run (Guests.second xen d) (s, alsoXen (printf format [])) (s, ret ()) :=
    fun format => run_alsoXen (open_second.req s (e := .printf format []) trivial ())
  have hclock : Run (fun s e r s' => Guests.second xen d s (.xen e) r s')
      (s, Guest2.reportClock xen.toXenHeaders) (s, ret 0) := by
    have hopen : Open fun s e r s' => Guests.second xen d s (.xen e) r s' := open_second
    have hprintf : ∀ format args, Run (fun s e r s' => Guests.second xen d s (.xen e) r s')
        (s, printf format args) (s, ret ()) :=
      fun format args => hopen.req s (e := .printf format args) trivial ()
    have hversion : Run (fun s e r s' => Guests.second xen d s (.xen e) r s')
        (s, hypercall (.xenVersion xen.xenverVersion 0)) (s, ret 0) :=
      hopen.req s (e := .hypercall _) trivial 0
    have hmonotonic := hopen.pvclockMonotonicRead s 0
    unfold Guest2.reportClock
    refine hversion.seq ((hprintf _ _).seq ((hprintf _ _).seq ?_))
    refine hmonotonic.seq ((hopen.pvclockWcRead s).seq ?_)
    refine (hprintf _ _).seq ((hprintf _ _).seq ((hopen.wait s).seq ?_))
    exact hmonotonic.seq ((hprintf _ _).seq ((hprintf _ _).seq .refl))
  refine ⟨{ k with xenBase := 0x40000000, wallClockOffset := 0 }, ?_⟩
  refine (run_alsoXen (open_second.xenDetect s)).seq ((hprintf _).seq ?_)
  refine (run_alsoXen (open_second.xenBaseDetect s)).seq ?_
  refine (run_alsoXen (open_second.xenHypercallsInit s image)).seq ((hprintf _).seq ?_)
  refine (run_alsoXen (open_second.xenSharedInit s xen.toXenHeaders image)).seq ?_
  refine (run_alsoXen hclock).seq ?_
  exact hr.bind fun _ => ret { k with xenBase := 0x40000000, wallClockOffset := 0 }

/-- The hypercall finds the page granted. -/
theorem run_readMessage (info : Information) (hdom : d.first = 5) (hfound : s.found = some 511) :
    Run (Guests.second xen d) (s, Guest2.readMessage xen info)
      ({ s with asked := true, mapped := some (info.sharedPage, (s.table 511).frame) },
        printing (Console.printf (.lit Guest2.messageFormat) [info.sharedPage])) := by
  have hop : Run (Guests.second xen d)
      (s, hypervisorGrantTableOp xen.gnttabopMapGrantRef (Guest2.mapOp xen info) 1)
      ({ s with asked := true, mapped := some (info.sharedPage, (s.table 511).frame) },
        ret (0, xen.gntstOkay)) :=
    Run.req (.inr ⟨⟨rfl, rfl⟩, rfl, rfl, hdom.symm, hfound, rfl⟩)
  unfold Guest2.readMessage
  refine hop.seq ?_
  show Run _ (_, if (0 : Int32) ≠ 0 ∨ xen.gntstOkay ≠ xen.gntstOkay then _ else _) _
  rw [if_neg (by simp)]
  exact .refl

/-- The message is printed, if the page has it. -/
theorem run_printing (xen : MapHeaders) {host : UInt64} (hhost : host ≠ 0)
    (haligned : d.page.toNat % 4096 = 0) (hs : Received d host s) (hconsole : s.console = []) :
    ∃ n, Run (Guests.second xen d)
      (s, printing (Console.printf (.lit Guest2.messageFormat) [host]))
      ({ s with console := successText }, ret n) := by
  obtain ⟨n, hrun⟩ := run_message hhost
  have hstep : ∀ g e r g₁ t, (pageMachine host).env g e r g₁ →
      t = { s with console := g.out } → ∃ t', Guests.second xen d t (.print e) r t' ∧
        t' = { s with console := g₁.out } := by
    rintro g e r g₁ _ he rfl
    have hreceived : Received d host { s with console := g.out } :=
      ⟨⟨hs.published.live, hs.published.text⟩, hs.first, hs.second, hs.mapped⟩
    cases e with
    | load via p =>
        obtain ⟨hmem, rfl⟩ := he
        exact ⟨_, ⟨(hreceived.read haligned hmem).symm, rfl⟩, rfl⟩
    | vaArg =>
        obtain ⟨-, rfl⟩ := he
        exact ⟨_, rfl, rfl⟩
    | fn ch =>
        obtain rfl := he
        exact ⟨_, rfl, rfl⟩
  have hsimulated : ∃ t, Run (fun s e r s' => Guests.second xen d s (.print e) r s')
      (s, Console.printf (.lit Guest2.messageFormat) [host]) (t, ret n) ∧
      t = { s with console := successText } :=
    hrun.simulate hstep (by rw [← hconsole])
  obtain ⟨s', hr, rfl⟩ := hsimulated
  exact ⟨n, Run.embed (f := Guest2Event.print) (h := fun _ r => r) (q := ret n)
    (fun _ _ r _ he => ⟨r, rfl, he⟩) hr⟩

/-- A run in which the message arrives: the first guest comes to its end, Xen
finds the entry, and the second guest runs. -/
theorem exists_exchange (xen : MapHeaders) (hpermit : headers.gtfPermitAccess = 1)
    (image₁ image₂ : KernelImage) {info₁ info₂ : Information} (k₁ k₂ : XenGlobals)
    (hpage : info₁.sharedPage = d.page) (haligned : d.page.toNat % 4096 = 0)
    (hlt : d.page.toNat < 2 ^ 44) (hhost : info₂.sharedPage ≠ 0) (hs : s.Fresh)
    (hfirst : d.first = 5) (hsecond : d.second = 6) :
    ∃ s' p k, GuestsRun xen d (guests headers xen image₁ image₂ info₁ info₂ k₁ k₂ s)
      ⟨s', p, ret k⟩ ∧ s'.mapped ≠ none ∧ s'.console = successText := by
  obtain ⟨s₁, k₁', hr₁, hoffered⟩ := run_kernelStartXen hpermit image₁ info₁ k₁ hs.console
  have hfind : Guests.Other d s₁ { s₁ with found := some 511 } :=
    .find hoffered.type (hoffered.domid.trans hsecond.symm)
  have hbefore : ∀ q, Beside.Run Guests.first (Guests.second xen d) (Guests.Other d)
      ⟨s, kernelStartXen headers image₁ info₁ k₁, q⟩
      ⟨{ s₁ with found := some 511 }, (ret k₁' : XenM XenGlobals), (q : Guest2M XenGlobals)⟩ :=
    fun q => (Beside.Run.of_left hr₁).tail (.other hfind)
  obtain ⟨k₂', hr₂⟩ := run_guest2 image₂ k₂
    (run_readMessage info₂ hfirst (s := { s₁ with found := some 511 }) rfl)
  have hmapped := (hbefore (Guest2.kernelStartXen xen image₂ info₂ k₂)).trans
    (Beside.Run.of_right hr₂)
  have hreceived := ((sound_of_run hpermit hpage haligned hlt hhost hs hmapped).1.mapped
    (by simp)).1
  obtain ⟨n, hprint⟩ := run_printing xen hhost haligned hreceived hoffered.console
  have hlast := hprint.bind fun _ => (ret k₂' : Guest2M XenGlobals)
  exact ⟨_, _, k₂', hmapped.trans (Beside.Run.of_right hlast), by simp, rfl⟩

end Delivery

/-! ## a sample -/

/-- The constants of Xen's headers. -/
def sampleMapHeaders : MapHeaders where
  domidSelf := 0x7FF0
  xenmemAddToPhysmap := 7
  xenmapspaceSharedInfo := 0
  xenmapspaceGrantTable := 1
  xenverVersion := 0
  gtfPermitAccess := 1
  gtfReadonly := 4
  gnttabopMapGrantRef := 0
  gntmapHostMap := 2
  gntstOkay := 0

def sampleDomains : Domains := ⟨5, 6, 0x100000, fun _ => 7⟩

/-- Memory full of something else. -/
def sampleGuests : Guests where
  table _ := ⟨0, 0, 0⟩
  mem _ := 7
  found := none
  asked := false
  mapped := none
  console := []

theorem fresh_sampleGuests : sampleGuests.Fresh := ⟨.inl rfl, rfl, rfl, rfl, rfl⟩

/-- The pages that the loaders found. -/
def sampleInfo (page : UInt64) : Information := { (default : Information) with sharedPage := page }

end UefiKernel.Xen
