import UefiKernel.Console.Faults
import UefiKernel.Console.Marks

/-!
# UefiKernel.Console.Secrecy

What a system call reveals of the supervisor's memory.

`UserView` is what two machines have in common: which addresses are mapped and
the bytes of the user-accessible ones.  A call reveals nothing if machines that
fit the same view print and return the same (`NoReveal`), with what the kernel's
exception handlers print among it.

Call 0 runs the user's string as a format, so it reveals something as soon as the
format, on its way to its end, runs into a supervisor byte or asks for an argument.
It does so too when it runs into the last page of the user's window while nothing is
mapped there, since the fault handler puts a page of the supervisor's there, and at
an address that is not canonical, since `default_trap` shows the kernel's stack
pointer.  At any other address without a page it faults for ever, and says nothing
but that (`noReveal_iff`).
-/

namespace UefiKernel.Console

open Interact Prog

/-! ## two machines -/

/-- What is behind an address. -/
inductive Backing
  | unmapped
  | user (ch : UInt8)
  | supervisor
  deriving DecidableEq, Repr

/-- The memory as far as user code can tell.  The page that the fault handler maps is
the supervisor's until then. -/
structure UserView where
  backing : UInt64 → Backing
  extraPage : UInt64
  extra_ne_zero : extraPage ≠ 0
  extra_supervisor : ∀ i < pageSize, backing (extraPage + UInt64.ofNat i) = .supervisor
  canonical : ∀ p, backing p ≠ .unmapped → Canonical p
  /-- the last page of the user's window is there, or it is not -/
  last_page : ∀ p p', InLastPage p → InLastPage p' → backing p = .unmapped →
    backing p' = .unmapped

/-- The machine has this user memory; the supervisor's is its own affair. -/
def Machine.Fits (m : Machine) (l : UserView) : Prop :=
  ∀ p, match l.backing p with
    | .unmapped => m.mem p = none
    | .user ch => m.mem p = some ch
    | .supervisor => (m.mem p).isSome

/-- So does the world. -/
structure World.Fits (w : World) (l : UserView) : Prop where
  machine : w.toMachine.Fits l
  extraPage : w.extraPage = l.extraPage

/-- The call prints `out`, and perhaps more later. -/
def Prints (w : World) (n a1 a2 a3 a4 a5 : Int64) (out : List UInt8) : Prop :=
  ∃ s p, Run w.env ({}, underFaults (doSyscallEntry n a1 a2 a3 a4 a5)) (s, p) ∧ s.trace.out = out

/-- The call prints `out` and returns `r`. -/
def Returns (w : World) (n a1 a2 a3 a4 a5 : Int64) (out : List UInt8) (r : Int64) : Prop :=
  ∃ s, Run w.env ({}, underFaults (doSyscallEntry n a1 a2 a3 a4 a5)) (s, .ret r) ∧ s.trace.out = out

/-- Machines with the same user memory print and return the same. -/
def NoReveal (l : UserView) (n a1 a2 a3 a4 a5 : Int64) : Prop :=
  ∀ w₁ w₂ : World, w₁.Fits l → w₂.Fits l →
    (∀ out, Prints w₁ n a1 a2 a3 a4 a5 out ↔ Prints w₂ n a1 a2 a3 a4 a5 out) ∧
    ∀ out r, Returns w₁ n a1 a2 a3 a4 a5 out r ↔ Returns w₂ n a1 a2 a3 a4 a5 out r

namespace UserView

variable (l : UserView)

/-- The format at `a`, as far as it is the user's. -/
def text (a : UInt64) (i : Nat) : UInt8 :=
  match l.backing (a + UInt64.ofNat i) with
  | .user ch => ch
  | _ => 0

/-- In front of byte `i` the format is the user's, has not ended and asks for
nothing. -/
def PlainUpTo (a : UInt64) (i : Nat) : Prop :=
  ∀ j < i, l.backing (a + UInt64.ofNat j) = .user (l.text a j) ∧
    ¬ (lexAt (l.text a) j).ends (l.text a j) ∧
    (lexAt (l.text a) j).converts (l.text a j) = false

/-- A read at `p` faults for ever: nothing is mapped there, nor will be. -/
structure Stuck (p : UInt64) : Prop where
  unmapped : l.backing p = .unmapped
  canonical : Canonical p
  not_inLastPage : ¬ InLastPage p

/-- A read at `p` tells only what the user knows. -/
def Harmless (p : UInt64) : Prop := (∃ ch, l.backing p = .user ch) ∨ l.Stuck p

/-- The format at `a` runs into nothing of the supervisor's, and asks for no
argument. -/
def PlainFormat (a : UInt64) : Prop :=
  ∀ i, l.PlainUpTo a i → l.Harmless (a + UInt64.ofNat i) ∧
    (lexAt (l.text a) i).converts (l.text a i) = false

/-- The events of the formatter that reveal nothing. -/
def LowPrint : PrintEvent → Prop
  | .load _ p => l.Harmless p
  | .vaArg => False
  | .fn _ => True

/-- The events all machines with this user memory answer in the same way. -/
def Low (s : KernelTrace) : KernelEvent → Prop
  | .print (.load _ p) => (∃ ch, l.backing p = .user ch) ∧ s.faulted = false
  | .print .vaArg => False
  | .print (.fn _) => True
  | .translate _ => True
  | .mapLastPage => True
  | .stackPointer => False
  | .hlt => True

variable {l} {w w₁ w₂ : World}

theorem mem_of_user {m : Machine} (hm : m.Fits l) {p : UInt64} {ch : UInt8}
    (hp : l.backing p = .user ch) : m.mem p = some ch := by
  have h := hm p
  rwa [hp] at h

theorem mem_of_unmapped {m : Machine} (hm : m.Fits l) {p : UInt64}
    (hp : l.backing p = .unmapped) : m.mem p = none := by
  have h := hm p
  rwa [hp] at h

theorem isSome_mem_iff {m : Machine} (hm : m.Fits l) {p : UInt64} :
    (m.mem p).isSome ↔ l.backing p ≠ .unmapped := by
  have h := hm p
  cases hp : l.backing p with
  | unmapped => simp_all
  | user ch => simp_all
  | supervisor => simp_all

/-- The processor finds nothing at other addresses. -/
theorem mapsCanonical (hw : w.Fits l) : w.MapsCanonical := by
  intro p hp
  exact l.canonical p ((isSome_mem_iff hw.machine).mp (Option.isSome_iff_ne_none.mpr hp))

/-- The page that the handler maps can be read. -/
theorem isSome_extraPage (hw : w.Fits l) (p : UInt64) :
    (w.mem (w.extraPage + UInt64.ofNat (p.toNat % pageSize))).isSome := by
  have hlt : p.toNat % pageSize < pageSize := Nat.mod_lt _ (by decide)
  rw [isSome_mem_iff hw.machine, hw.extraPage, l.extra_supervisor _ hlt]
  exact fun h => nomatch h

/-- What it finds when it looks an address up is the same in both worlds, before and
after a page fault. -/
theorem translation_eq (h₁ : w₁.Fits l) (h₂ : w₂.Fits l) (faulted : Bool) (p : UInt64) :
    w₁.translation faulted p = w₂.translation faulted p := by
  have hsome : ((w₁.after faulted).mem p).isSome = ((w₂.after faulted).mem p).isSome := by
    by_cases hlast : faulted ∧ InLastPage p
    · simp only [World.after, if_pos hlast, isSome_extraPage h₁, isSome_extraPage h₂]
    · simp only [World.after, if_neg hlast]
      rw [Bool.eq_iff_iff, isSome_mem_iff h₁.machine, isSome_mem_iff h₂.machine]
  rw [World.translation, World.translation, hsome]

/-- The other world answers such an event in the same way. -/
theorem env_of_low (h₁ : w₁.Fits l) (h₂ : w₂.Fits l) {s s' : KernelTrace} {e : KernelEvent}
    {r : e.Answer} (hlow : l.Low s e) (he : w₁.env s e r s') : w₂.env s e r s' := by
  cases e with
  | print e =>
      obtain ⟨t, he, hs⟩ := he
      refine ⟨t, ?_, hs⟩
      cases e with
      | load via p =>
          obtain ⟨⟨ch, hp⟩, hfaulted⟩ := hlow
          obtain ⟨hmem, ht⟩ := he
          rw [hfaulted, World.after_false, mem_of_user h₁.machine hp] at hmem
          refine ⟨?_, ht⟩
          rw [hfaulted, World.after_false, mem_of_user h₂.machine hp, hmem]
      | vaArg => exact hlow.elim
      | fn ch => exact he
  | translate p => exact ⟨he.1.trans (translation_eq h₁ h₂ _ _), he.2⟩
  | mapLastPage => exact he
  | stackPointer => exact hlow.elim
  | hlt => exact r.elim

/-- **Lockstep**: a call that issues only such events reveals nothing. -/
theorem noReveal_of_wp {n a1 a2 a3 a4 a5 : Int64}
    (h : ∀ w : World, w.Fits l →
      wp w.env l.Low (underFaults (doSyscallEntry n a1 a2 a3 a4 a5)) (fun _ _ => True) {}) :
    NoReveal l n a1 a2 a3 a4 a5 := by
  have hrun : ∀ {w₁ w₂ : World}, w₁.Fits l → w₂.Fits l → ∀ {c},
      Run w₁.env ({}, underFaults (doSyscallEntry n a1 a2 a3 a4 a5)) c →
      Run w₂.env ({}, underFaults (doSyscallEntry n a1 a2 a3 a4 a5)) c :=
    fun h₁ h₂ _ hr => hr.lockstep (fun _ _ _ _ => env_of_low h₁ h₂) (h _ h₁)
  intro w₁ w₂ h₁ h₂
  constructor
  · intro out
    constructor
    · rintro ⟨s, p, hr, hout⟩
      exact ⟨s, p, hrun h₁ h₂ hr, hout⟩
    · rintro ⟨s, p, hr, hout⟩
      exact ⟨s, p, hrun h₂ h₁ hr, hout⟩
  · intro out r
    constructor
    · rintro ⟨s, hr, hout⟩
      exact ⟨s, hrun h₁ h₂ hr, hout⟩
    · rintro ⟨s, hr, hout⟩
      exact ⟨s, hrun h₂ h₁ hr, hout⟩

/-! ## reads that reveal nothing -/

/-- The handler prints a literal, which all machines have. -/
theorem wp_pageFaultHandler (s : KernelTrace) :
    wp w.env l.Low pageFaultHandler (fun _ _ => True) s := by
  have htext : SelfContained pageFaultText ([] : List UInt64).length := by decide
  have hopen : ¬ EndsOpen pageFaultText := by decide
  have hprintf : wp (fun s e r s' => w.env s (.print e) r s') (fun s e => l.Low s (.print e))
      (printf (.lit pageFaultText) []) (fun _ _ => True) s :=
    printf_lit (L := wpCalculus _ fun s e => l.Low s (.print e)) (R := fun _ => True)
      (fun _ _ _ => ⟨trivial, fun _ _ _ => trivial⟩) htext hopen trivial
  have hcalls : wp (fun s e r s' => w.env s (.print e) r s') (fun s e => l.Low s (.print e))
      (printAll pageFaultHandlerCalls) (fun _ _ => True) s :=
    wp_bind.mpr (wp_mono (fun _ _ _ => trivial) hprintf)
  refine wp_bind.mpr (wp_mono ?_
    (wp_embed (f := KernelEvent.print) (fun _ _ _ _ he => he) (fun _ _ hok => hok) hcalls))
  exact fun _ _ _ => ⟨trivial, fun _ _ _ => trivial⟩

/-- A read of the user's. -/
theorem wp_readByte_user (hw : w.Fits l) {p : UInt64} {ch : UInt8} (hp : l.backing p = .user ch)
    (via : Via) {s : KernelTrace} (hs : s.faulted = false) :
    wp w.env l.Low (readByte via p) (fun r s' => r = ch ∧ s' = s) s := by
  have hmem : (w.after s.faulted).mem p = some ch := by
    rw [hs, World.after_false]
    exact mem_of_user hw.machine hp
  refine wp_loop (fun _ s' => s' = s) rfl ?_
  rintro ⟨⟩ _ rfl
  refine ⟨trivial, ?_⟩
  rintro _ _ ⟨rfl, rfl⟩
  rw [World.translation_mapped (mapsCanonical hw) hmem]
  refine ⟨⟨⟨ch, hp⟩, hs⟩, ?_⟩
  rintro r _ ⟨_, ⟨hr, rfl⟩, rfl⟩
  exact ⟨Option.some.inj (hr.symm.trans hmem), rfl⟩

/-- A read that faults for ever. -/
theorem wp_readByte_stuck (hw : w.Fits l) {p : UInt64} (hp : l.Stuck p) (via : Via)
    {Q : UInt8 → KernelTrace → Prop} (s : KernelTrace) : wp w.env l.Low (readByte via p) Q s := by
  refine wp_loop (fun _ _ => True) trivial ?_
  rintro ⟨⟩ _ -
  refine ⟨trivial, ?_⟩
  rintro _ s ⟨rfl, rfl⟩
  have hmem : (w.after s.faulted).mem p = none := by
    rw [w.after_mem_of_not_inLastPage _ hp.not_inLastPage]
    exact mem_of_unmapped hw.machine hp.unmapped
  rw [World.translation_pageFault hp.canonical hmem]
  exact wp_bind.mpr (wp_mono (fun _ _ _ => trivial) (wp_pageFaultHandler s))

/-- A program that does only what reveals nothing does so under faults. -/
theorem wp_underFaults (hw : w.Fits l) {α : Type} {p : PrintM α} {Q : α → Trace → Prop}
    (h : wp w.toMachine.env (fun _ e => l.LowPrint e) p Q {}) :
    wp w.env l.Low (underFaults p) (fun _ _ => True) {} := by
  refine wp_bind.mpr (wp_mono (fun _ _ _ => trivial) (wp_handle
    (R := fun g _ s => s = (⟨g, false⟩ : KernelTrace)) ?_ h rfl))
  rintro g e ⟨⟩ _ hlow rfl
  cases e with
  | load via p =>
      refine wp_bind.mpr ?_
      obtain ⟨ch, hp⟩ | hp := hlow
      · refine wp_mono ?_ (wp_readByte_user hw hp via rfl)
        rintro _ _ ⟨rfl, rfl⟩
        exact ⟨g, ⟨mem_of_user hw.machine hp, rfl⟩, rfl⟩
      · exact wp_readByte_stuck hw hp via _
  | vaArg => exact hlow.elim
  | fn ch =>
      refine ⟨trivial, ?_⟩
      rintro ⟨⟩ _ ⟨t, ht, rfl⟩
      exact ⟨t, ht, rfl⟩

/-! ## a plain format -/

/-- One byte further. -/
theorem PlainUpTo.succ {a : UInt64} {i : Nat} (h : l.PlainUpTo a i)
    (huser : l.backing (a + UInt64.ofNat i) = .user (l.text a i))
    (hends : ¬ (lexAt (l.text a) i).ends (l.text a i))
    (hconv : (lexAt (l.text a) i).converts (l.text a i) = false) : l.PlainUpTo a (i + 1) := by
  intro j hj
  rcases Nat.lt_succ_iff_lt_or_eq.mp hj with hlt | rfl
  · exact h j hlt
  · exact ⟨huser, hends, hconv⟩

/-- On such a format the formatter reads the user's bytes only, and fetches nothing. -/
theorem wp_plainFormat {a : UInt64} (hplain : l.PlainFormat a) {m : Machine} (hm : m.Fits l) :
    wp m.env (fun _ e => l.LowPrint e) (doVprintfBody (.mem a) []) (fun _ _ => True) {} := by
  -- a read of the format is low, and its answer the user's byte
  have hload : ∀ i, l.PlainUpTo a i → ∀ {ch}, m.mem (a + UInt64.ofNat i) = some ch →
      ch = l.text a i ∧
      (¬ (lexAt (l.text a) i).ends (l.text a i) → l.PlainUpTo a (i + 1)) := by
    intro i hi ch hmem
    obtain ⟨hharmless, hconv⟩ := hplain i hi
    obtain ⟨c, hp⟩ | hp := hharmless
    · have htext : l.text a i = c := by rw [text, hp]
      refine ⟨?_, fun hends => hi.succ (by rw [hp, htext]) hends hconv⟩
      rw [htext]
      exact Option.some.inj (hmem.symm.trans (mem_of_user hm hp))
    · exact absurd (hmem.symm.trans (mem_of_unmapped hm hp.unmapped)) (by simp)
  have hw : TextWorld (wpCalculus m.env fun _ e => l.LowPrint e) (fmtAt a) (l.text a)
      (l.PlainUpTo a) (fun _ _ => True) (fun _ args _ => args = []) :=
    { next := fmtAt_next a
      load := by
        intro i args g hi hargs
        refine ⟨(hplain i hi).1, ?_⟩
        rintro ch g' ⟨hmem, rfl⟩
        obtain ⟨hch, hsucc⟩ := hload i hi hmem
        exact ⟨hch, hargs, trivial, hsucc⟩
      ahead := by
        intro i args g hi _ hargs
        refine ⟨(hplain (i + 1) hi).1, ?_⟩
        rintro ch g' ⟨hmem, rfl⟩
        obtain ⟨hch, hsucc⟩ := hload (i + 1) hi hmem
        exact ⟨hch, hargs, hsucc⟩
      skip := fun _ _ _ _ _ _ hargs => hargs
      put := fun _ _ _ _ _ _ hargs => ⟨trivial, fun _ _ _ => hargs⟩
      convert := by
        intro i v g conversion hi hconv
        rw [(hi i (Nat.lt_succ_self i)).2.2] at hconv
        cases hconv }
  rw [← fmtAt_zero a]
  have h0 : l.PlainUpTo a 0 := fun j hj => absurd hj (Nat.not_lt_zero j)
  exact wp_mono (fun _ _ _ => trivial) (wp_doVprintfBody hw h0 rfl)

end UserView

/-! ## different texts -/

/-- Machines with the same user memory, of whose texts neither continues the other. -/
theorem not_noReveal_of_prints {l : UserView} {n a1 a2 a3 a4 a5 : Int64} {w₁ w₂ : World}
    (hw₁ : w₁.Fits l) (hw₂ : w₂.Fits l) {out₁ out₂ : List UInt8}
    (h₁ : Prints w₁ n a1 a2 a3 a4 a5 out₁) (h₂ : Prints w₂ n a1 a2 a3 a4 a5 out₂)
    (hne : ¬ (out₁ <+: out₂ ∨ out₂ <+: out₁)) : ¬ NoReveal l n a1 a2 a3 a4 a5 := by
  intro hno
  obtain ⟨s₁, p₁, hr₁, rfl⟩ := ((hno w₁ w₂ hw₁ hw₂).1 out₁).mp h₁
  obtain ⟨s₂, p₂, hr₂, rfl⟩ := h₂
  exact hne (World.out_comparable hr₁ hr₂)

/-- What a machine prints, the world around it prints. -/
theorem World.prints_of_run {w : World} (hw : w.MapsCanonical) {n a1 a2 a3 a4 a5 : Int64}
    {g : Trace} {p : PrintM Int64}
    (h : Run w.toMachine.env ({}, doSyscallEntry n a1 a2 a3 a4 a5) (g, p)) :
    Prints w n a1 a2 a3 a4 a5 g.out :=
  ⟨_, _, run_underFaults_at hw h, rfl⟩


/-! ## a format that is not plain -/

namespace UserView

variable {l : UserView}

/-- The machine with `fill` for the supervisor's memory, on which `va_arg` finds
`arg`. -/
def machine (l : UserView) (fill : UInt64 → UInt8) (arg : UInt64) : Machine where
  mem p := match l.backing p with
    | .unmapped => none
    | .user ch => some ch
    | .supervisor => some (fill p)
  junk _ := arg

/-- The world around it, with `sp` for the stack pointer that `default_trap` shows. -/
def world (l : UserView) (fill : UInt64 → UInt8) (arg sp : UInt64) : World where
  toMachine := l.machine fill arg
  extraPage := l.extraPage
  rsp := sp

theorem world_fits (l : UserView) (fill : UInt64 → UInt8) (arg sp : UInt64) :
    (l.world fill arg sp).Fits l := by
  refine ⟨fun p => ?_, rfl⟩
  simp only [world, machine]
  cases l.backing p <;> rfl

theorem machine_user {fill : UInt64 → UInt8} {arg p : UInt64} {ch : UInt8}
    (h : l.backing p = .user ch) : (l.machine fill arg).mem p = some ch := by
  simp only [machine, h]

theorem machine_supervisor {fill : UInt64 → UInt8} {arg p : UInt64}
    (h : l.backing p = .supervisor) : (l.machine fill arg).mem p = some (fill p) := by
  simp only [machine, h]

/-- The machine reads what is the user's. -/
def ReadsUser (l : UserView) (m : Machine) : Prop :=
  ∀ p ch, l.backing p = .user ch → m.mem p = some ch

theorem readsUser_machine (fill : UInt64 → UInt8) (arg : UInt64) :
    l.ReadsUser (l.machine fill arg) := fun _ _ => machine_user

section Plain

variable {a : UInt64} {k : Nat} (hplain : l.PlainUpTo a k) {m : Machine} (hm : l.ReadsUser m)

include hplain hm

/-- So far, machines read the same format. -/
theorem textAt_of_plain {i : Nat} (hi : i < k) : m.textAt a i = l.text a i :=
  (Machine.textAt_eq (hm _ _ (hplain i hi).1)).symm

theorem lexAt_of_plain {i : Nat} (hi : i ≤ k) : lexAt (m.textAt a) i = lexAt (l.text a) i :=
  lexAt_congr fun _ hj => textAt_of_plain hplain hm (by omega)

/-- And print the same. -/
theorem emitted_of_plain : emitted (m.textAt a) k = emitted (l.text a) k :=
  emitted_congr fun _ hj => textAt_of_plain hplain hm hj

/-- What all machines have in common that show something at byte `k`. -/
theorem marks_of_plain {ch x : UInt8} (hmem : m.mem (a + UInt64.ofNat k) = some ch) (hch : ch ≠ 0)
    (halone : Lex.looksAhead ch = false)
    (hshown : (lexAt (l.text a) k).converts ch = false →
      ch = x ∧ (lexAt (l.text a) k).emits x = [x])
    (hconv : ∀ conversion, Conversion.ofChar ch = some conversion → ∀ n flags conv,
      convert flags [m.junk n] conversion = pure conv → m.HasText conv.str [x]) :
    Marks m a k x := by
  have htext : m.textAt a k = ch := (Machine.textAt_eq hmem).symm
  exact
    { mapped := by
        intro i hi
        rcases Nat.eq_or_lt_of_le hi with rfl | hlt
        · rw [hmem, htext]
        · rw [textAt_of_plain hplain hm hlt]
          exact hm _ _ (hplain i hlt).1
      plain := by
        intro i hi
        rw [lexAt_of_plain hplain hm (Nat.le_of_lt hi), textAt_of_plain hplain hm hi]
        exact (hplain i hi).2
      not_ends := not_ends_of_ne_zero _ (htext ▸ hch)
      alone := htext ▸ halone
      shown := by
        rw [lexAt_of_plain hplain hm (Nat.le_refl k), htext]
        exact hshown
      converted := by
        rw [htext]
        exact hconv }

/-- A byte that is not the user's is printed. -/
theorem marks_of_byte {x : UInt8} (hx : x ∈ bytes "AB")
    (hmem : m.mem (a + UInt64.ofNat k) = some x) : Marks m a k x := by
  have hemits : ∀ q : Lex, ∀ x ∈ bytes "AB", q.emits x = [x] := by
    intro q
    cases q <;> exact forall_mem_bytes (by decide)
  have hchar : ∀ x ∈ bytes "AB", x ≠ 0 ∧ Lex.looksAhead x = false ∧ Conversion.ofChar x = none :=
    forall_mem_bytes (by decide)
  obtain ⟨hne, halone, hnone⟩ := hchar x hx
  refine marks_of_plain hplain hm hmem hne halone (fun _ => ⟨rfl, hemits _ x hx⟩) ?_
  intro conversion hch
  rw [hnone] at hch
  cases hch

end Plain

/-! ## a supervisor byte, or an argument -/

/-- An argument that a conversion makes a given digit of. -/
def digitArg (l : UserView) (x : UInt8) : Conversion → UInt64
  | .s => l.extraPage
  | .c => x.toUInt64
  | .p | .x | .X | .d | .u | .o => (x - '0'.toUInt8).toUInt64

/-- A supervisor's string of that one digit. -/
def digitFill (l : UserView) (x : UInt8) (p : UInt64) : UInt8 := if p = l.extraPage then x else 0

/-- The argument's text is that digit, whatever the directive is. -/
theorem digit_hasText {x : UInt8} (hx : x ∈ bytes "12") {conversion : Conversion} {flags : Flags}
    {conv : Converted} (hconv : convert flags [l.digitArg x conversion] conversion = pure conv) :
    (l.machine (l.digitFill x) (l.digitArg x conversion)).HasText conv.str [x] := by
  have hchar : ∀ x ∈ bytes "12", x ≠ 0 ∧ (x - '0'.toUInt8).toUInt64 ≠ 0 ∧
      x.toUInt64.toUInt8 = x := forall_mem_bytes (by decide)
  obtain ⟨hne, harg, hbyte⟩ := hchar x hx
  have hlit : ∀ {m : Machine}, m.HasText (.lit [x]) [x] := .cons rfl hne (.nil rfl)
  have hnum : ∀ {m : Machine} {flags base}, base ∈ [Base.decimal, .bits .octal 0, .bits .hex 0,
      .bits .hex 16] → convertNumber flags [(x - '0'.toUInt8).toUInt64] base = pure conv →
      m.HasText conv.str [x] := by
    intro m flags base hbase hnumber
    rw [← ret.inj hnumber]
    show m.HasText (.lit (base.write (narrow flags (x - '0'.toUInt8).toUInt64).2)) [x]
    rw [narrow_digit hx, write_digit hx base hbase]
    exact hlit
  cases conversion with
  | s =>
      rw [← ret.inj ((if_neg l.extra_ne_zero).symm.trans hconv)]
      have hnext : l.extraPage + 1 ≠ l.extraPage := by grind
      have hfirst : l.backing l.extraPage = .supervisor := by
        have h := l.extra_supervisor 0 (by decide)
        rwa [show UInt64.ofNat 0 = 0 from rfl, UInt64.add_zero] at h
      have hdigit : (l.machine (l.digitFill x) l.extraPage).mem l.extraPage = some x :=
        (machine_supervisor hfirst).trans (congrArg some (if_pos rfl))
      have hnul : (l.machine (l.digitFill x) l.extraPage).mem (l.extraPage + 1) = some 0 :=
        (machine_supervisor (l.extra_supervisor 1 (by decide))).trans
          (congrArg some (if_neg hnext))
      exact .cons hdigit hne (.nil hnul)
  | p =>
      rw [← ret.inj ((if_neg harg).symm.trans hconv)]
      show Machine.HasText _ (.lit ((Base.bits .hex 16).write (x - '0'.toUInt8).toUInt64)) [x]
      rw [write_digit hx _ (by decide)]
      exact hlit
  | c =>
      rw [← ret.inj hconv]
      show Machine.HasText _ (.lit [x.toUInt64.toUInt8]) [x]
      rw [hbyte]
      exact hlit
  | x | X | d | u | o =>
      rw [convert] at hconv
      refine hnum ?_ hconv
      decide

/-- A conversion prints an argument that nobody passed. -/
theorem marks_of_converts {a : UInt64} {k : Nat} {conversion : Conversion} {x : UInt8}
    (hplain : l.PlainUpTo a k) (hconv : (lexAt (l.text a) k).converts (l.text a k))
    (hch : Conversion.ofChar (l.text a k) = some conversion) (hx : x ∈ bytes "12") :
    Marks (l.machine (l.digitFill x) (l.digitArg x conversion)) a k x := by
  have hne : ∀ ch ∈ bytes "pxXdiuocs", ch ≠ 0 ∧ Lex.looksAhead ch = false :=
    forall_mem_bytes (by decide)
  obtain ⟨hne0, halone⟩ := hne _ (Lex.mem_of_ofChar hch)
  have huser : l.backing (a + UInt64.ofNat k) = .user (l.text a k) := by
    cases hb : l.backing (a + UInt64.ofNat k) with
    | user ch => rw [text, hb]
    | unmapped | supervisor => exact absurd (by rw [text, hb]) hne0
  refine marks_of_plain hplain (readsUser_machine _ _) (machine_user huser) hne0 halone ?_ ?_
  · intro h
    rw [hconv] at h
    cases h
  · intro conversion' hch' _ flags conv hc
    rw [hch] at hch'
    cases hch'
    exact digit_hasText hx hc

section Reveals

variable {a1 : Int64} {k : Nat} (hplain : l.PlainUpTo a1.toUInt64 k) (a2 a3 a4 a5 : Int64)

include hplain

/-- Worlds whose machines show different marks. -/
theorem not_noReveal_of_marks {fill₁ fill₂ : UInt64 → UInt8} {arg₁ arg₂ : UInt64} {x₁ x₂ : UInt8}
    (h₁ : Marks (l.machine fill₁ arg₁) a1.toUInt64 k x₁)
    (h₂ : Marks (l.machine fill₂ arg₂) a1.toUInt64 k x₂) (hne : x₁ ≠ x₂) (hx₁ : x₁ ∉ padding)
    (hx₂ : x₂ ∉ padding) : ¬ NoReveal l 0 a1 a2 a3 a4 a5 := by
  obtain ⟨g₁, p₁, hr₁, hshow₁⟩ := h₁.run a2 a3 a4 a5
  obtain ⟨g₂, p₂, hr₂, hshow₂⟩ := h₂.run a2 a3 a4 a5
  rw [emitted_of_plain hplain (readsUser_machine _ _)] at hshow₁ hshow₂
  have hw₁ := world_fits l fill₁ arg₁ 0
  have hw₂ := world_fits l fill₂ arg₂ 0
  exact not_noReveal_of_prints hw₁ hw₂ (World.prints_of_run (mapsCanonical hw₁) hr₁)
    (World.prints_of_run (mapsCanonical hw₂) hr₂) (hshow₁.not_comparable hshow₂ hx₁ hx₂ hne)

/-- A supervisor byte is shown as it is. -/
theorem not_noReveal_of_supervisor
    (hsup : l.backing (a1.toUInt64 + UInt64.ofNat k) = .supervisor) :
    ¬ NoReveal l 0 a1 a2 a3 a4 a5 := by
  have hmarks : ∀ x ∈ bytes "AB", Marks (l.machine (fun _ => x) 0) a1.toUInt64 k x :=
    fun x hx => marks_of_byte hplain (readsUser_machine _ _) hx (machine_supervisor hsup)
  exact not_noReveal_of_marks hplain a2 a3 a4 a5 (hmarks 'A'.toUInt8 (by decide))
    (hmarks 'B'.toUInt8 (by decide)) (by decide) (by decide) (by decide)

/-- A directive shows an argument that nobody passed. -/
theorem not_noReveal_of_converts
    (hconv : (lexAt (l.text a1.toUInt64) k).converts (l.text a1.toUInt64 k) = true) :
    ¬ NoReveal l 0 a1 a2 a3 a4 a5 := by
  have hsome : (Conversion.ofChar (l.text a1.toUInt64 k)).isSome := by
    simpa [Lex.converts] using And.right (by simpa [Lex.converts] using hconv)
  obtain ⟨conversion, hch⟩ := Option.isSome_iff_exists.mp hsome
  exact not_noReveal_of_marks hplain a2 a3 a4 a5
    (marks_of_converts (x := '1'.toUInt8) hplain hconv hch (by decide))
    (marks_of_converts (x := '2'.toUInt8) hplain hconv hch (by decide)) (by decide) (by decide)
    (by decide)

/-! ## a page that is not there -/

/-- The way to byte `k` is the same on all machines. -/
theorem run_to_plain : ∃ g via kont, g.out <+: emitted (l.text a1.toUInt64) k ∧
    ∀ m : Machine, l.ReadsUser m → m.junk = (fun _ => 0) →
      Run m.env ({}, doSyscallEntry 0 a1 a2 a3 a4 a5)
        (g, call (.load via (a1.toUInt64 + UInt64.ofNat k)) kont) := by
  let m₀ : Machine :=
    { mem p := match l.backing p with
        | .user ch => some ch
        | _ => none
      junk _ := 0 }
  have huser : l.ReadsUser m₀ := by
    intro p ch hp
    simp only [m₀, hp]
  have hmapped : ∀ i < k, m₀.mem (a1.toUInt64 + UInt64.ofNat i) =
      some (m₀.textAt a1.toUInt64 i) := by
    intro i hi
    rw [textAt_of_plain hplain huser hi]
    exact huser _ _ (hplain i hi).1
  obtain ⟨g, via, kont, hr, hout⟩ := run_to_byte hmapped (fun i hi => by
    rw [lexAt_of_plain hplain huser (Nat.le_of_lt hi), textAt_of_plain hplain huser hi]
    exact (hplain i hi).2) a2 a3 a4 a5
  rw [emitted_of_plain hplain huser] at hout
  refine ⟨g, via, kont, hout, fun m hm hjunk => Machine.run_of_le (fun p ch hp => ?_) hjunk hr⟩
  refine hm p ch ?_
  cases hb : l.backing p with
  | user c => simpa only [m₀, hb, Option.some.injEq, Backing.user.injEq] using hp
  | unmapped | supervisor => simp only [m₀, hb, reduceCtorEq] at hp

/-- At an address that is not canonical, the stack pointer is shown. -/
theorem not_noReveal_of_not_canonical
    (hcan : ¬ Canonical (a1.toUInt64 + UInt64.ofNat k)) : ¬ NoReveal l 0 a1 a2 a3 a4 a5 := by
  obtain ⟨g, via, kont, -, hrun⟩ := run_to_plain hplain a2 a3 a4 a5
  have hfits : ∀ sp, (l.world (fun _ => 0) 0 sp).Fits l := world_fits l _ 0
  have hprints : ∀ sp, Prints (l.world (fun _ => 0) 0 sp) 0 a1 a2 a3 a4 a5
      (g.out ++ (exceptionText sp ++ [0])) := by
    intro sp
    obtain ⟨q, hr⟩ := World.run_to_generalProtection (mapsCanonical (hfits sp))
      (hrun _ (readsUser_machine _ _) rfl) (World.translation_generalProtection hcan)
    exact ⟨_, q, hr, rfl⟩
  refine not_noReveal_of_prints (hfits 1) (hfits 2) (hprints 1) (hprints 2) ?_
  simp only [List.prefix_append_right_inj]
  decide

/-- With the page in place that the fault handler maps, its first byte is shown. -/
theorem marks_behind_pageFault (hlast : InLastPage (a1.toUInt64 + UInt64.ofNat k))
    (hnone : l.backing (a1.toUInt64 + UInt64.ofNat k) = .unmapped) {x : UInt8}
    (hx : x ∈ bytes "AB") : l.ReadsUser ((l.world (fun _ => x) 0 0).after true) ∧
      Marks ((l.world (fun _ => x) 0 0).after true) a1.toUInt64 k x := by
  have huser : l.ReadsUser ((l.world (fun _ => x) 0 0).after true) := by
    intro p ch hp
    have hnot : ¬ InLastPage p := by
      intro h
      rw [l.last_page _ p hlast h hnone] at hp
      cases hp
    rw [World.after_mem_of_not_inLastPage _ true hnot]
    exact machine_user hp
  have hbyte : ((l.world (fun _ => x) 0 0).after true).mem (a1.toUInt64 + UInt64.ofNat k) =
      some x :=
    (if_pos ⟨rfl, hlast⟩).trans
      (machine_supervisor (l.extra_supervisor _ (Nat.mod_lt _ (by decide))))
  exact ⟨huser, marks_of_byte hplain huser hx hbyte⟩

/-- The last page is read after the fault handler has mapped it. -/
theorem not_noReveal_of_lastPage
    (hnone : l.backing (a1.toUInt64 + UInt64.ofNat k) = .unmapped)
    (hlast : InLastPage (a1.toUInt64 + UInt64.ofNat k)) : ¬ NoReveal l 0 a1 a2 a3 a4 a5 := by
  obtain ⟨g, via, kont, hout, hrun⟩ := run_to_plain hplain a2 a3 a4 a5
  have hfits : ∀ x, (l.world (fun _ => x) 0 0).Fits l := fun _ => world_fits l _ 0 0
  have hprints : ∀ x ∈ bytes "AB", ∃ more,
      Shows (emitted (l.text a1.toUInt64) k) x (g.out ++ more) ∧
      Prints (l.world (fun _ => x) 0 0) 0 a1 a2 a3 a4 a5
        (g.out ++ (pageFaultText ++ [0]) ++ more) := by
    intro x hx
    let w := l.world (fun _ => x) 0 0
    obtain ⟨huser, hmarks⟩ := marks_behind_pageFault hplain hlast hnone hx
    obtain ⟨g', p', hr', hshow⟩ := hmarks.run a2 a3 a4 a5
    rw [emitted_of_plain hplain huser] at hshow
    -- nothing is shown before the read
    have hon : Run (w.after true).env
        (g, call (.load via (a1.toUInt64 + UInt64.ofNat k)) kont) (g', p') := by
      rcases (hrun (w.after true) huser rfl).total (w.after true).deterministic hr' with h | h
      · exact h
      · obtain ⟨pad, -, hle⟩ := hshow
        have hlen := (hle.trans ((Machine.out_prefix (w.after true) h).trans hout)).length_le
        simp only [List.length_append, List.length_singleton] at hlen
        omega
    have hmem : (w.after false).mem (a1.toUInt64 + UInt64.ofNat k) = none := by
      rw [World.after_false]
      exact mem_of_unmapped (hfits x).machine hnone
    obtain ⟨s, more, hr, hg', hs⟩ := World.run_over_pageFault (mapsCanonical (hfits x))
      (hrun w.toMachine (readsUser_machine _ _) rfl)
      (World.translation_pageFault (World.canonical_of_inLastPage hlast) hmem) hon
    exact ⟨more, hg' ▸ hshow, s, _, hr, hs⟩
  obtain ⟨more₁, hshow₁, h₁⟩ := hprints 'A'.toUInt8 (by decide)
  obtain ⟨more₂, hshow₂, h₂⟩ := hprints 'B'.toUInt8 (by decide)
  have hne := hshow₁.not_comparable hshow₂ (by decide) (by decide) (by decide)
  refine not_noReveal_of_prints (hfits _) (hfits _) h₁ h₂ fun h => hne ?_
  simpa only [List.prefix_append_right_inj] using h

end Reveals

/-- Any way in which a format is not plain reveals something. -/
theorem not_noReveal_of_not_plain {a1 : Int64} (h : ¬ l.PlainFormat a1.toUInt64)
    (a2 a3 a4 a5 : Int64) : ¬ NoReveal l 0 a1 a2 a3 a4 a5 := by
  obtain ⟨k, hk⟩ := Classical.not_forall.mp h
  obtain ⟨hplain, hbad⟩ := Classical.not_imp.mp hk
  by_cases hconv : (lexAt (l.text a1.toUInt64) k).converts (l.text a1.toUInt64 k) = true
  · exact not_noReveal_of_converts hplain a2 a3 a4 a5 hconv
  have hharmful : ¬ l.Harmless (a1.toUInt64 + UInt64.ofNat k) :=
    fun hp => hbad ⟨hp, Bool.eq_false_iff.mpr hconv⟩
  cases hb : l.backing (a1.toUInt64 + UInt64.ofNat k) with
  | user ch => exact absurd (.inl ⟨ch, hb⟩) hharmful
  | supervisor => exact not_noReveal_of_supervisor hplain a2 a3 a4 a5 hb
  | unmapped =>
      by_cases hcan : Canonical (a1.toUInt64 + UInt64.ofNat k)
      · by_cases hlast : InLastPage (a1.toUInt64 + UInt64.ofNat k)
        · exact not_noReveal_of_lastPage hplain a2 a3 a4 a5 hb hlast
        · exact absurd (.inr ⟨hb, hcan, hlast⟩) hharmful
      · exact not_noReveal_of_not_canonical hplain a2 a3 a4 a5 hcan

end UserView

/-! ## exactly when -/

/-- **What a system call reveals**: nothing, exactly if it is not call 0 or the
user's format is plain. -/
theorem noReveal_iff (l : UserView) (n a1 a2 a3 a4 a5 : Int64) :
    NoReveal l n a1 a2 a3 a4 a5 ↔ n ≠ 0 ∨ l.PlainFormat a1.toUInt64 := by
  constructor
  · intro h
    by_cases hn : n = 0
    · subst hn
      exact .inr (Classical.not_not.mp fun hp => UserView.not_noReveal_of_not_plain hp _ _ _ _ h)
    · exact .inl hn
  · intro h
    refine UserView.noReveal_of_wp fun w hw => ?_
    by_cases hn : n = 0
    · subst hn
      rw [doSyscallEntry_zero]
      refine UserView.wp_underFaults hw (Q := fun _ _ => True) (wp_bind.mpr (wp_bind.mpr ?_))
      refine wp_mono ?_
        (UserView.wp_plainFormat (h.resolve_left (fun h0 => h0 rfl)) hw.machine)
      exact fun _ _ _ => ⟨trivial, fun _ _ _ => trivial⟩
    · refine UserView.wp_underFaults hw (Q := fun _ _ => True) ?_
      exact doSyscallEntry_prints (L := wpCalculus w.toMachine.env fun _ e => l.LowPrint e)
        (R := fun _ => True) (fun _ _ _ => ⟨trivial, fun _ _ _ => trivial⟩) hn a1 a2 a3 a4 a5
        trivial

/-- The kernel's first 4 GiB, and a program of four pages. -/
def sampleBacking (p : UInt64) : Backing :=
  if p.toNat < 2 ^ 32 then .supervisor
  else if windowBase ≤ p.toNat ∧ p.toNat < windowBase + 4 * pageSize then .user 0
  else .unmapped

theorem sampleBacking_extraPage {i : Nat} (hi : i < pageSize) :
    sampleBacking (0x5000 + UInt64.ofNat i) = .supervisor := by
  simp only [pageSize] at hi
  have hnat : (UInt64.ofNat i).toNat = i := UInt64.toNat_ofNat_of_lt' (Nat.lt_trans hi (by decide))
  have hbase : (0x5000 : UInt64).toNat = 0x5000 := rfl
  refine if_pos ?_
  rw [UInt64.toNat_add, hnat, hbase]
  omega

theorem canonical_of_sampleBacking {p : UInt64} (hp : sampleBacking p ≠ .unmapped) :
    Canonical p := by
  by_cases hlow : p.toNat < 2 ^ 32
  · exact .inl (by omega)
  · rw [sampleBacking, if_neg hlow, ne_eq, ite_eq_right_iff, Classical.not_imp] at hp
    simp only [windowBase] at hp
    exact .inr (by omega)

theorem sampleBacking_of_inLastPage {p : UInt64} (hp : InLastPage p) :
    sampleBacking p = .unmapped := by
  simp only [InLastPage, windowBase, pageSize] at hp
  rw [sampleBacking, if_neg (by omega), if_neg (by simp only [windowBase, pageSize]; omega)]

def sampleView : UserView where
  backing := sampleBacking
  extraPage := 0x5000
  extra_ne_zero := by decide
  extra_supervisor _ := sampleBacking_extraPage
  canonical _ := canonical_of_sampleBacking
  last_page _ _ _ h _ := sampleBacking_of_inLastPage h

/-- A user who asks for the message at 0x1000 gets the kernel's memory there. -/
theorem kernel_memory_revealed :
    ¬ ∀ (l : UserView) (n a1 a2 a3 a4 a5 : Int64), NoReveal l n a1 a2 a3 a4 a5 := by
  intro h
  have hplain : sampleView.PlainUpTo (0x1000 : Int64).toUInt64 0 :=
    fun j hj => absurd hj (Nat.not_lt_zero j)
  exact UserView.not_noReveal_of_supervisor hplain 0 0 0 0 rfl (h sampleView 0 0x1000 0 0 0 0)

end UefiKernel.Console
