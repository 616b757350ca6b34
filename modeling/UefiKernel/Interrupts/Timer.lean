import Mathlib.Logic.Function.Iterate
import UefiKernel.Interrupts.Lapic
import UefiKernel.Lib.Calculus

/-!
# UefiKernel.Interrupts.Timer

The timer of the local APIC, which the driver starts, and whose interrupts it
ends.

`Lapic` is the device: a count that runs down, interrupts that are requested and
interrupts that are in service.  A tick may come at any time, also between two
writes of the driver.  What the driver's writes leave is `Lapic.Armed`: nothing
but the timer can be requested from then on.  `apic_handler` ends the interrupt
that it is called for, and no other (`wp_apicHandler`).
-/

namespace UefiKernel.Interrupts

open Interact Prog

/-! ## the device -/

/-- The registers of the APIC that the driver writes, and its requests: those
that wait, those in service, and how many there have been.  The divisor sets how
long a tick is.  The timer's mode with a deadline is left out. -/
structure Lapic where
  svr : UInt32
  tpr : UInt32
  timer : UInt32
  initial : UInt32
  current : UInt32
  irr : UInt8 → Bool
  isr : UInt8 → Bool
  requests : Nat

def x86LapicEoi : UInt32 := 0x0B

namespace Lapic

/-- Bit 8 of the spurious-interrupt register. -/
def enabled (l : Lapic) : Bool := l.svr &&& 0x100 ≠ 0

/-- Bit 16 of the timer's register. -/
def masked (l : Lapic) : Bool := l.timer &&& 0x10000 ≠ 0

/-- Bits 18 and 17 of the timer's register. -/
def periodic (l : Lapic) : Bool := (l.timer >>> 17) &&& 3 = 1

/-- A vector waits once, however often it is requested. -/
def request (v : UInt8) (l : Lapic) : Lapic :=
  { l with
    irr := Function.update l.irr v true
    requests := if l.irr v then l.requests else l.requests + 1 }

/-- The count begins again, or is at its end. -/
def reload (l : Lapic) : Lapic := { l with current := if l.periodic then l.initial else 0 }

/-- The count has run out. -/
def expire (l : Lapic) : Lapic :=
  if l.enabled ∧ ¬ l.masked then l.reload.request l.timer.toUInt8 else l.reload

def tick (l : Lapic) : Lapic :=
  if l.current = 0 then l
  else if l.current = 1 then l.expire
  else { l with current := l.current - 1 }

/-- The highest interrupt in service is at its end. -/
def eoi (l : Lapic) : Lapic :=
  { l with isr := fun v =>
      l.isr v && (List.range 256).any fun w => v.toNat < w && l.isr (.ofNat w) }

theorem eoi_isr (l : Lapic) (v : UInt8) : l.eoi.isr v =
    (l.isr v && (List.range 256).any fun w => v.toNat < w && l.isr (.ofNat w)) := rfl

/-- A register is written.  While the APIC is off, the timer stays masked. -/
def write (reg value : UInt32) (l : Lapic) : Lapic :=
  if reg = x86LapicSvr then
    { l with svr := value, timer := if value &&& 0x100 = 0 then l.timer ||| 0x10000 else l.timer }
  else if reg = x86LapicTpr then { l with tpr := value }
  else if reg = x86LapicTimer then
    { l with timer := if l.enabled then value else value ||| 0x10000 }
  else if reg = x86LapicTimerInit then { l with initial := value, current := value }
  else if reg = x86LapicEoi then l.eoi
  else l

/-- The vector is the next to be delivered: the highest that waits, and of a
higher class than all that are in service, and than the task priority. -/
structure Delivers (l : Lapic) (v : UInt8) : Prop where
  waits : l.irr v = true
  highest : ∀ w, l.irr w = true → w ≤ v
  inService : ∀ w, l.isr w = true → w.toNat / 16 < v.toNat / 16
  priority : l.tpr.toNat % 256 / 16 < v.toNat / 16

/-- The processor takes the interrupt. -/
def accept (v : UInt8) (l : Lapic) : Lapic :=
  { l with irr := Function.update l.irr v false, isr := Function.update l.isr v true }

theorem accept_irr (v : UInt8) (l : Lapic) :
    (l.accept v).irr = Function.update l.irr v false := rfl

theorem accept_isr (v : UInt8) (l : Lapic) :
    (l.accept v).isr = Function.update l.isr v true := rfl

/-- What the device makes of an event. -/
def event (e : ApicEvent) (l : Lapic) : Lapic :=
  match e.write with
  | some (reg, value) => l.write reg value
  | none => l

end Lapic

/-- The processor may answer anything, and before each event there may be any
number of ticks. -/
def lapicEnv (l : Lapic) (e : ApicEvent) (_ : e.Answer) (l' : Lapic) : Prop :=
  ∃ n, l' = (Lapic.tick^[n] l).event e

/-- `apic_handler`. -/
def apicHandler (lapicBase : UInt64) : ApicM Unit := do
  printf "Timer!\n" []
  x86LapicWrite lapicBase x86LapicEoi 0x0

/-! ## ticks -/

namespace Lapic

variable {l : Lapic}

/-- What ticks leave as it is. -/
structure SameSetup (l l' : Lapic) : Prop where
  svr : l'.svr = l.svr
  tpr : l'.tpr = l.tpr
  timer : l'.timer = l.timer
  initial : l'.initial = l.initial
  isr : l'.isr = l.isr

theorem SameSetup.trans {l' l'' : Lapic} (h : l.SameSetup l') (h' : l'.SameSetup l'') :
    l.SameSetup l'' :=
  ⟨h'.svr.trans h.svr, h'.tpr.trans h.tpr, h'.timer.trans h.timer, h'.initial.trans h.initial,
    h'.isr.trans h.isr⟩

/-- A tick changes the count and what is requested only. -/
theorem sameSetup_tick (l : Lapic) : l.SameSetup l.tick := by
  unfold tick expire
  split
  · exact ⟨rfl, rfl, rfl, rfl, rfl⟩
  · split
    · split <;> exact ⟨rfl, rfl, rfl, rfl, rfl⟩
    · exact ⟨rfl, rfl, rfl, rfl, rfl⟩

theorem sameSetup_ticks (n : Nat) (l : Lapic) : l.SameSetup (tick^[n] l) := by
  induction n generalizing l with
  | zero => exact ⟨rfl, rfl, rfl, rfl, rfl⟩
  | succ n ih =>
      rw [Function.iterate_succ_apply]
      exact (sameSetup_tick l).trans (ih l.tick)

/-- A tick leaves the requests as they are, or adds one of the timer's. -/
theorem tick_cases (l : Lapic) :
    (l.tick.irr = l.irr ∧ l.tick.requests = l.requests) ∨
    (l.enabled = true ∧ l.masked = false ∧
      l.tick.irr = Function.update l.irr l.timer.toUInt8 true ∧
      l.tick.requests = if l.irr l.timer.toUInt8 then l.requests else l.requests + 1) := by
  unfold tick expire
  split
  · exact .inl ⟨rfl, rfl⟩
  · split
    · split
      · rename_i hon
        exact .inr ⟨hon.1, Bool.eq_false_iff.mpr hon.2, rfl, rfl⟩
      · exact .inl ⟨rfl, rfl⟩
    · exact .inl ⟨rfl, rfl⟩

/-! ## before and after the driver -/

/-- No interrupt waits or is in service, and none will come of the timer. -/
structure Silent (l : Lapic) : Prop where
  masked : l.timer &&& 0x10000 ≠ 0
  irr : ∀ v, l.irr v = false
  isr : ∀ v, l.isr v = false

/-- What the driver leaves: the timer's is the only interrupt there can be. -/
structure Armed (l : Lapic) : Prop where
  svr : l.svr = 0x1FF
  tpr : l.tpr = 0
  timer : l.timer = 0x20020
  initial : l.initial = 0x400000
  irr : ∀ v, l.irr v = true → v = apicInterruptEntry

/-- The timer's interrupt waits. -/
def waiting (l : Lapic) : Nat := if l.irr apicInterruptEntry then 1 else 0

/-- Without a count nothing is requested. -/
theorem Silent.tick (h : l.Silent) : l.tick.Silent ∧ l.tick.requests = l.requests := by
  have hsame := sameSetup_tick l
  have hmasked : l.masked = true := decide_eq_true h.masked
  rcases tick_cases l with ⟨hirr, hrequests⟩ | ⟨-, hoff, -⟩
  · refine ⟨⟨?_, ?_, ?_⟩, hrequests⟩
    · rw [hsame.timer]
      exact h.masked
    · rw [hirr]
      exact h.irr
    · rw [hsame.isr]
      exact h.isr
  · rw [hmasked] at hoff
    cases hoff

/-- All that an armed timer requests is the vector of `apic_handler`. -/
theorem Armed.timer_vector (h : l.Armed) : l.timer.toUInt8 = apicInterruptEntry := by
  rw [h.timer]
  rfl

/-- A tick requests the timer's interrupt, if any, and once only while it waits. -/
theorem Armed.tick (h : l.Armed) : l.tick.Armed ∧
    l.tick.requests + l.waiting = l.requests + l.tick.waiting := by
  have hsame := sameSetup_tick l
  have hsetup : (∀ v, l.tick.irr v = true → v = apicInterruptEntry) → l.tick.Armed :=
    fun hirr => ⟨hsame.svr.trans h.svr, hsame.tpr.trans h.tpr, hsame.timer.trans h.timer,
      hsame.initial.trans h.initial, hirr⟩
  rcases tick_cases l with ⟨hirr, hrequests⟩ | ⟨-, -, hirr, hrequests⟩
  · refine ⟨hsetup ?_, ?_⟩
    · rw [hirr]
      exact h.irr
    · rw [waiting, waiting, hirr, hrequests]
  · rw [h.timer_vector] at hirr hrequests
    refine ⟨hsetup fun v hv => ?_, ?_⟩
    · rw [hirr] at hv
      by_cases hne : v = apicInterruptEntry
      · exact hne
      · rw [Function.update_of_ne hne] at hv
        exact h.irr v hv
    · rw [waiting, waiting, hirr, hrequests, Function.update_self]
      cases l.irr apicInterruptEntry <;> simp

theorem Silent.ticks (h : l.Silent) (n : Nat) :
    (Lapic.tick^[n] l).Silent ∧ (Lapic.tick^[n] l).requests = l.requests := by
  induction n generalizing l with
  | zero => exact ⟨h, rfl⟩
  | succ n ih =>
      rw [Function.iterate_succ_apply]
      obtain ⟨htick, hrequests⟩ := h.tick
      exact ⟨(ih htick).1, (ih htick).2.trans hrequests⟩

/-- Requests are counted when they begin to wait; one that finds another waiting is
lost. -/
theorem Armed.ticks (h : l.Armed) (n : Nat) : (Lapic.tick^[n] l).Armed ∧
    (Lapic.tick^[n] l).requests + l.waiting = l.requests + (Lapic.tick^[n] l).waiting := by
  induction n generalizing l with
  | zero => exact ⟨h, rfl⟩
  | succ n ih =>
      rw [Function.iterate_succ_apply]
      obtain ⟨htick, hcount⟩ := h.tick
      obtain ⟨hticks, hcounts⟩ := ih htick
      exact ⟨hticks, by omega⟩

/-! ## the count -/

/-- A count that runs keeps running, as the timer is periodic. -/
theorem Armed.current_tick (h : l.Armed) (hrun : l.current ≠ 0) : l.tick.current ≠ 0 := by
  have hperiodic : l.periodic = true := by
    rw [periodic, h.timer]
    rfl
  have hexpire : l.expire.current ≠ 0 := by
    have hreload : l.reload.current = 0x400000 := by rw [reload, if_pos hperiodic, h.initial]
    unfold expire
    split
    · exact hreload ▸ by decide
    · exact hreload ▸ by decide
  unfold Lapic.tick
  rw [if_neg hrun]
  split
  · exact hexpire
  · rename_i hone
    intro hzero
    refine hone (UInt32.toNat_inj.mp ?_)
    have hlt := l.current.toNat_lt
    have hnat := congrArg UInt32.toNat hzero
    rw [UInt32.toNat_sub, UInt32.toNat_one, UInt32.toNat_zero] at hnat
    rw [UInt32.toNat_one]
    omega

/-- A periodic count that runs never stops. -/
theorem Armed.current_ticks (h : l.Armed) (hrun : l.current ≠ 0) (n : Nat) :
    (Lapic.tick^[n] l).current ≠ 0 := by
  induction n generalizing l with
  | zero => exact hrun
  | succ n ih =>
      rw [Function.iterate_succ_apply]
      exact ih h.tick.1 (h.current_tick hrun)

/-- A count at its end stays there. -/
theorem ticks_of_current_eq_zero (hend : l.current = 0) (n : Nat) : Lapic.tick^[n] l = l := by
  have htick : l.tick = l := by rw [Lapic.tick, if_pos hend]
  exact Function.iterate_fixed htick n

/-- The count of a timer that is not periodic comes to its end. -/
theorem current_after (hperiodic : l.periodic = false) :
    (Lapic.tick^[l.current.toNat] l).current = 0 := by
  obtain ⟨n, hn⟩ : ∃ n, l.current.toNat = n := ⟨_, rfl⟩
  rw [hn]
  induction n generalizing l with
  | zero => exact UInt32.toNat_inj.mp hn
  | succ n ih =>
      have hrun : l.current ≠ 0 := by
        rintro hzero
        rw [hzero, UInt32.toNat_zero] at hn
        omega
      have hless : l.tick.current.toNat = n := by
        rw [Lapic.tick, if_neg hrun]
        split
        · rename_i hone
          have hreload : l.expire.current = 0 := by
            unfold expire
            split <;> exact if_neg (Bool.eq_false_iff.mp hperiodic)
          rw [hone, UInt32.toNat_one] at hn
          rw [hreload, UInt32.toNat_zero]
          omega
        · rename_i hone
          have hlt := l.current.toNat_lt
          rw [UInt32.toNat_sub, UInt32.toNat_one]
          omega
      rw [Function.iterate_succ_apply]
      refine ih ?_ hless
      rw [periodic, (sameSetup_tick l).timer]
      exact hperiodic

/-- As many ticks as the count says, and the timer's interrupt waits. -/
theorem Armed.waits_after (h : l.Armed) (hrun : l.current ≠ 0) :
    (Lapic.tick^[l.current.toNat] l).irr apicInterruptEntry = true := by
  have hnat : l.current.toNat ≠ 0 := fun h0 => hrun (UInt32.toNat_inj.mp h0)
  obtain ⟨n, hn⟩ : ∃ n, l.current.toNat = n + 1 := ⟨l.current.toNat - 1, by omega⟩
  rw [hn]
  clear hnat
  induction n generalizing l with
  | zero =>
      have hone : l.current = 1 := UInt32.toNat_inj.mp hn
      have hon : l.enabled = true ∧ ¬ l.masked = true := by
        rw [enabled, masked, h.svr, h.timer]
        decide
      rw [Function.iterate_one, Lapic.tick, if_neg hrun, if_pos hone, expire, if_pos hon, request,
        h.timer_vector]
      show Function.update l.irr apicInterruptEntry true apicInterruptEntry = true
      exact Function.update_self ..
  | succ n ih =>
      have hone : l.current ≠ 1 := by
        intro hone
        rw [hone, UInt32.toNat_one] at hn
        omega
      have hless : l.tick.current.toNat = n + 1 := by
        have hlt := l.current.toNat_lt
        rw [Lapic.tick, if_neg hrun, if_neg hone, UInt32.toNat_sub, UInt32.toNat_one]
        omega
      rw [Function.iterate_succ_apply]
      exact ih h.tick.1 (h.current_tick hrun) hless

end Lapic

/-! ## the driver's writes -/

section Driver

open Lapic

variable {l : Lapic}

/-- An event that writes no register is ticks only. -/
theorem lapicEnv_of_write_eq_none {l' : Lapic} {e : ApicEvent} {r : e.Answer}
    (he : e.write = none) (h : lapicEnv l e r l') : ∃ n, l' = Lapic.tick^[n] l := by
  obtain ⟨n, rfl⟩ := h
  exact ⟨n, by rw [Lapic.event, he]⟩

/-- One that does is ticks, then the write. -/
theorem lapicEnv_of_write {l' : Lapic} {e : ApicEvent} {r : e.Answer} {reg value : UInt32}
    (he : e.write = some (reg, value)) (h : lapicEnv l e r l') :
    ∃ n, l' = (Lapic.tick^[n] l).write reg value := by
  obtain ⟨n, rfl⟩ := h
  exact ⟨n, by rw [Lapic.event, he]⟩

/-- `x86_lapic_write` is one write, in either mode. -/
theorem wp_x86LapicWrite {lapicBase : UInt64} (hbase : IsLapicBase lapicBase)
    {offset : UInt32} (hoffset : offset < 0x100) (value : UInt32) :
    wp lapicEnv (fun _ _ => True) (x86LapicWrite lapicBase offset value)
      (fun _ l' => ∃ n, l' = (Lapic.tick^[n] l).write offset value) l := by
  refine wp_ite.mpr ⟨fun _ => ⟨trivial, fun _ l₁ hbarrier => ⟨trivial, fun _ l₂ hwrite => ?_⟩⟩,
    fun hmem => ⟨trivial, fun _ l₁ hstore => ?_⟩⟩
  · obtain ⟨n, rfl⟩ := lapicEnv_of_write_eq_none rfl hbarrier
    obtain ⟨k, rfl⟩ := lapicEnv_of_write (write_wrmsr hoffset value) hwrite
    exact ⟨k + n, by rw [Function.iterate_add_apply]⟩
  · exact lapicEnv_of_write (write_store (hbase.resolve_left hmem) hoffset value) hstore

/-- No write but the one to the timer's register unmasks it. -/
theorem Lapic.Silent.write (h : l.Silent) {reg : UInt32} (hreg : reg ≠ x86LapicTimer)
    (value : UInt32) : (l.write reg value).Silent ∧ (l.write reg value).requests = l.requests := by
  have hor : ∀ t : UInt32, (t ||| 0x10000) &&& 0x10000 ≠ 0 := by
    intro t hzero
    have hbit := congrArg (fun x : UInt32 => x.toBitVec.getLsbD 16) hzero
    simp at hbit
  unfold Lapic.write
  rw [if_neg hreg]
  split
  · refine ⟨⟨?_, h.irr, h.isr⟩, rfl⟩
    dsimp only
    split
    · exact hor _
    · exact h.masked
  split
  · exact ⟨⟨h.masked, h.irr, h.isr⟩, rfl⟩
  split
  · exact ⟨⟨h.masked, h.irr, h.isr⟩, rfl⟩
  split
  · refine ⟨⟨h.masked, h.irr, fun v => ?_⟩, rfl⟩
    rw [Lapic.eoi_isr, h.isr, Bool.false_and]
  · exact ⟨h, rfl⟩

/-- The registers that the driver sets once. -/
def Lapic.setup (l : Lapic) : UInt32 × UInt32 × UInt32 := (l.svr, l.tpr, l.initial)

/-- What `x86_lapic_enable` sets up, ticks do not change. -/
theorem Lapic.setup_ticks (n : Nat) (l : Lapic) : (Lapic.tick^[n] l).setup = l.setup := by
  have h := sameSetup_ticks n l
  rw [setup, setup, h.svr, h.tpr, h.initial]

section Setup

variable (l : Lapic) (value : UInt32)

theorem Lapic.setup_write_svr : (l.write x86LapicSvr value).setup = (value, l.setup.2) := rfl

theorem Lapic.setup_write_dfr : (l.write x86LapicDfr value).setup = l.setup := rfl

theorem Lapic.setup_write_tpr :
    (l.write x86LapicTpr value).setup = (l.setup.1, value, l.setup.2.2) := rfl

theorem Lapic.setup_write_init :
    (l.write x86LapicTimerInit value).setup = (l.setup.1, l.setup.2.1, value) := rfl

theorem Lapic.setup_write_divide : (l.write x86LapicTimerDivide value).setup = l.setup := rfl

end Setup

/-- Ticks, and a write that leaves the timer masked. -/
theorem Lapic.Silent.ticks_write (h : l.Silent) (n : Nat) {reg : UInt32}
    (hreg : reg ≠ x86LapicTimer) (value : UInt32) :
    ((Lapic.tick^[n] l).write reg value).Silent ∧
      ((Lapic.tick^[n] l).write reg value).requests = l.requests := by
  obtain ⟨hticks, hrequests⟩ := h.ticks n
  obtain ⟨hwrite, hrequests'⟩ := hticks.write hreg value
  exact ⟨hwrite, hrequests'.trans hrequests⟩

/-- The last write: the timer is unmasked. -/
theorem Lapic.Silent.armed (h : l.Silent) (n : Nat) (hsetup : l.setup = (0x1FF, 0, 0x400000)) :
    let l' := (Lapic.tick^[n] l).write x86LapicTimer 0x20020
    l'.Armed ∧ (∀ v, l'.isr v = false) ∧ l'.requests = l.requests ∧ l'.waiting = 0 := by
  obtain ⟨hticks, hrequests⟩ := h.ticks n
  obtain ⟨hsvr, htpr, hinitial⟩ : (Lapic.tick^[n] l).svr = 0x1FF ∧ (Lapic.tick^[n] l).tpr = 0 ∧
      (Lapic.tick^[n] l).initial = 0x400000 := by
    have hall := (Lapic.setup_ticks n l).trans hsetup
    simpa only [Lapic.setup, Prod.mk.injEq] using hall
  have hwrite : (Lapic.tick^[n] l).write x86LapicTimer 0x20020 =
      { Lapic.tick^[n] l with timer := 0x20020 } := by
    have hon : (Lapic.tick^[n] l).enabled = true := by
      rw [Lapic.enabled, hsvr]
      decide
    rw [Lapic.write, if_neg (by decide), if_neg (by decide), if_pos rfl, if_pos hon]
  intro l'
  rw [show l' = _ from hwrite]
  refine ⟨⟨hsvr, htpr, rfl, hinitial, fun v hv => ?_⟩, hticks.isr, hrequests, ?_⟩
  · exact absurd hv (Bool.eq_false_iff.mp (hticks.irr v))
  · rw [Lapic.waiting, show Lapic.irr _ apicInterruptEntry = false from hticks.irr _]
    rfl

/-- Events that are no writes to the device leave it silent. -/
theorem wp_silent {α : Type} {p : ApicM α} (hp : p.Issues fun e => e.write = none)
    (h : l.Silent) : wp lapicEnv (fun _ _ => True) p
      (fun _ l' => l'.Silent ∧ l'.requests = l.requests) l := by
  refine wp_of_issues (fun _ _ _ _ => trivial) ?_ hp ⟨h, rfl⟩
  rintro l₁ e r l₂ he ⟨h₁, hrequests⟩ henv
  obtain ⟨n, rfl⟩ := lapicEnv_of_write_eq_none he henv
  obtain ⟨hticks, hrequests'⟩ := h₁.ticks n
  exact ⟨hticks, hrequests'.trans hrequests⟩

/-- Finding the APIC writes none of its registers. -/
theorem issues_x86LapicMode (r : Xen.CpuidRegs) :
    (x86LapicMode r).Issues fun e => e.write = none := by
  refine Issues.ite (fun _ => .pure _) fun _ => ?_
  refine Issues.seq (.req rfl) fun msr => ?_
  refine Issues.seq (.req rfl) fun _ => ?_
  refine Issues.seq (.req rfl) fun _ => .pure _

/-- **The driver** leaves the timer's as the only interrupt there can be, or has
found no APIC. -/
theorem wp_x86LapicEnable (h : l.Silent) : wp lapicEnv (fun _ _ => True) x86LapicEnable
    (fun lapicBase l' => lapicBase = 0 ∨ IsLapicBase lapicBase ∧ l'.Armed ∧
      (∀ v, l'.isr v = false) ∧ l'.requests = l.requests ∧ l'.waiting = 0) l := by
  have hread : ∀ {β : Type} {p : ApicM β}, p.Issues (fun e => e.write = none) → ∀ {l₁ : Lapic},
      l₁.Silent ∧ l₁.requests = l.requests → ∀ {Q : β → Lapic → Prop},
      (∀ b l₂, l₂.Silent ∧ l₂.requests = l.requests → Q b l₂) →
        wp lapicEnv (fun _ _ => True) p Q l₁ := by
    rintro β p hp l₁ ⟨h₁, hrequests⟩ Q hQ
    refine wp_mono ?_ (wp_silent hp h₁)
    rintro b l₂ ⟨h₂, hrequests'⟩
    exact hQ b l₂ ⟨h₂, hrequests'.trans hrequests⟩
  unfold x86LapicEnable
  refine wp_bind.mpr (hread (.req rfl) ⟨h, rfl⟩ fun r l₁ h₁ => ?_)
  refine wp_ite.mpr ⟨fun _ => .inl rfl, fun _ => wp_bind.mpr ?_⟩
  have hmode : wp lapicEnv (fun _ _ => True) (x86LapicMode r)
      (fun p l₂ => (l₂.Silent ∧ l₂.requests = l.requests) ∧ IsLapicBase p.1) l₁ := by
    have hbase : wp lapicEnv (fun _ _ => True) (x86LapicMode r)
        (fun p _ => IsLapicBase p.1) l₁ := by
      refine wp_mono ?_ (wp_simulate (R := fun _ _ => True) (fun _ _ _ _ _ _ _ => ⟨(), trivial,
        trivial⟩) (fun _ _ _ _ _ => trivial) (wp_x86LapicMode r) (s := l₁) trivial)
      rintro p l₂ ⟨_, hbase, -⟩
      exact hbase
    exact wp_and (hread (issues_x86LapicMode r) h₁ fun _ _ h₂ => h₂) hbase
  refine wp_mono ?_ hmode
  rintro ⟨lapicBase, x2apic⟩ l₂ ⟨h₂, hbase⟩
  have hwrite : ∀ {reg : UInt32} (value : UInt32), reg < 0x100 → reg ≠ x86LapicTimer →
      ∀ {l₃ : Lapic}, l₃.Silent ∧ l₃.requests = l.requests → ∀ {Q : Unit → Lapic → Prop},
      (∀ n, ((Lapic.tick^[n] l₃).write reg value).Silent ∧
          ((Lapic.tick^[n] l₃).write reg value).requests = l.requests →
        Q () ((Lapic.tick^[n] l₃).write reg value)) →
      wp lapicEnv (fun _ _ => True) (x86LapicWrite lapicBase reg value) Q l₃ := by
    rintro reg value hreg hne l₃ ⟨h₃, hrequests⟩ Q hQ
    refine wp_mono ?_ (wp_x86LapicWrite hbase hreg value)
    rintro _ _ ⟨n, rfl⟩
    obtain ⟨h₄, hrequests'⟩ := h₃.ticks_write n hne value
    exact hQ n ⟨h₄, hrequests'.trans hrequests⟩
  have hlast : ∀ {l₃ : Lapic}, l₃.Silent ∧ l₃.requests = l.requests →
      l₃.setup = (0x1FF, 0, 0x400000) → wp lapicEnv (fun _ _ => True)
        (x86LapicWrite lapicBase x86LapicTimer 0x20020 >>= fun _ => pure lapicBase)
        (fun lapicBase l' => lapicBase = 0 ∨ IsLapicBase lapicBase ∧ l'.Armed ∧
          (∀ v, l'.isr v = false) ∧ l'.requests = l.requests ∧ l'.waiting = 0) l₃ := by
    rintro l₃ ⟨h₃, hrequests⟩ hsetup
    refine wp_bind.mpr (wp_mono ?_ (wp_x86LapicWrite hbase (by decide) _))
    rintro _ _ ⟨n, rfl⟩
    obtain ⟨harmed, hisr, hrequests', hwaiting⟩ := h₃.armed n hsetup
    exact .inr ⟨hbase, harmed, hisr, hrequests'.trans hrequests, hwaiting⟩
  have hrest : ∀ {l₃ : Lapic}, l₃.Silent ∧ l₃.requests = l.requests → l₃.setup.1 = 0x1FF →
      wp lapicEnv (fun _ _ => True) (do
        x86LapicWrite lapicBase x86LapicTpr 0x00
        x86LapicWrite lapicBase x86LapicTimerInit 0x400000
        x86LapicWrite lapicBase x86LapicTimerDivide ((0x2 : UInt32) ||| ((0x1 : UInt32) <<< 3))
        x86LapicWrite lapicBase x86LapicTimer
          (apicInterruptEntry.toUInt32 ||| ((0x2 : UInt32) <<< 16))
        pure lapicBase) (fun lapicBase l' => lapicBase = 0 ∨ IsLapicBase lapicBase ∧ l'.Armed ∧
          (∀ v, l'.isr v = false) ∧ l'.requests = l.requests ∧ l'.waiting = 0) l₃ := by
    intro l₃ h₃ hsvr
    refine wp_bind.mpr (hwrite _ (by decide) (by decide) h₃ fun n₁ h₄ => wp_bind.mpr ?_)
    refine hwrite _ (by decide) (by decide) h₄ fun n₂ h₅ => wp_bind.mpr ?_
    refine hwrite _ (by decide) (by decide) h₅ fun n₃ h₆ => hlast h₆ ?_
    simp only [setup_write_divide, setup_write_init, setup_write_tpr, setup_ticks, hsvr]
  -- the message, and then the registers in order
  refine wp_ite.mpr ⟨fun _ => wp_bind.mpr ?_, fun _ => wp_bind.mpr ?_⟩
  all_goals
    refine hread (.req rfl) h₂ fun _ l₃ h₃ => wp_bind.mpr ?_
    refine hwrite _ (by decide) (by decide) h₃ fun n₁ h₄ => wp_ite.mpr ⟨fun _ => ?_, fun _ => ?_⟩
    · refine wp_bind.mpr (hwrite _ (by decide) (by decide) h₄ fun n₂ h₅ => hrest h₅ ?_)
      rw [setup_write_dfr, setup_ticks, setup_write_svr]
      rfl
    · refine hrest h₄ ?_
      rw [setup_write_svr]
      rfl

/-! ## one interrupt -/

/-- With nothing in service, the APIC delivers the timer's vector if it waits, and
nothing else. -/
theorem Lapic.Armed.delivers_iff (h : l.Armed) (hisr : ∀ v, l.isr v = false) (v : UInt8) :
    l.Delivers v ↔ v = apicInterruptEntry ∧ l.irr apicInterruptEntry = true := by
  constructor
  · intro hv
    obtain rfl := h.irr v hv.waits
    exact ⟨rfl, hv.waits⟩
  · rintro ⟨rfl, hirr⟩
    refine ⟨hirr, fun w hw => ?_, fun w hw => ?_, ?_⟩
    · rw [h.irr w hw]
      exact UInt8.le_refl _
    · rw [hisr w] at hw
      cases hw
    · rw [h.tpr]
      decide

/-- The timer's interrupt is taken: it waits no longer, and is in service. -/
theorem Lapic.Armed.accept (h : l.Armed) (hisr : ∀ v, l.isr v = false) :
    (l.accept apicInterruptEntry).Armed ∧
    (∀ v, (l.accept apicInterruptEntry).isr v = true → v = apicInterruptEntry) ∧
    (l.accept apicInterruptEntry).waiting = 0 := by
  refine ⟨⟨h.svr, h.tpr, h.timer, h.initial, fun v hv => ?_⟩, fun v hv => ?_, ?_⟩
  · by_cases hne : v = apicInterruptEntry
    · exact hne
    · rw [accept_irr, Function.update_of_ne hne] at hv
      exact h.irr v hv
  · by_cases hne : v = apicInterruptEntry
    · exact hne
    · rw [accept_isr, Function.update_of_ne hne, hisr] at hv
      cases hv
  · rw [Lapic.waiting, accept_irr, Function.update_self]
    rfl

/-- The end of the only interrupt in service. -/
theorem Lapic.eoi_of_one {v : UInt8} (h : ∀ w, l.isr w = true → w = v) (w : UInt8) :
    l.eoi.isr w = false := by
  rw [Lapic.eoi_isr, Bool.and_eq_false_iff]
  by_cases hw : l.isr w = true
  · right
    rw [List.any_eq_false]
    intro n hn hlater
    rw [Bool.and_eq_true, decide_eq_true_eq] at hlater
    have hlt := List.mem_range.mp hn
    have hn' : (UInt8.ofNat n).toNat = n := by
      rw [UInt8.toNat_ofNat']
      exact Nat.mod_eq_of_lt hlt
    rw [h _ hlater.2] at hn'
    rw [h w hw] at hlater
    omega
  · exact .inl (Bool.eq_false_iff.mpr hw)

/-- **`apic_handler`** ends the interrupt it is called for; there may be ticks in
the meantime. -/
theorem wp_apicHandler {lapicBase : UInt64} (hbase : IsLapicBase lapicBase) :
    wp lapicEnv (fun _ _ => True) (apicHandler lapicBase)
      (fun _ l' => ∃ n, l' = (Lapic.tick^[n] l).eoi) l := by
  refine ⟨trivial, fun _ l₁ henv => ?_⟩
  obtain ⟨n, rfl⟩ := lapicEnv_of_write_eq_none rfl henv
  refine wp_mono ?_ (wp_x86LapicWrite hbase (by decide) _)
  rintro _ _ ⟨k, rfl⟩
  exact ⟨k + n, by rw [Function.iterate_add_apply]; rfl⟩

/-- What is requested in the meantime waits. -/
theorem Lapic.Armed.ticks_eoi (h : l.Armed) (hisr : ∀ v, l.isr v = true → v = apicInterruptEntry)
    (n : Nat) : (Lapic.tick^[n] l).eoi.Armed ∧ (∀ v, (Lapic.tick^[n] l).eoi.isr v = false) ∧
      (Lapic.tick^[n] l).eoi.requests + l.waiting =
        l.requests + (Lapic.tick^[n] l).eoi.waiting := by
  obtain ⟨hticks, hcount⟩ := h.ticks n
  have hsame := (sameSetup_ticks n l).isr
  refine ⟨⟨hticks.svr, hticks.tpr, hticks.timer, hticks.initial, hticks.irr⟩, ?_, hcount⟩
  exact Lapic.eoi_of_one (v := apicInterruptEntry) (hsame ▸ hisr)

/-- It always can. -/
theorem exists_run_apicHandler (lapicBase : UInt64) (l : Lapic) :
    ∃ l', Run lapicEnv (l, apicHandler lapicBase) (l', ret ()) := by
  have hreq : ∀ (l : Lapic) (e : ApicEvent) (r : e.Answer),
      Run lapicEnv (l, req e) (l.event e, ret r) := fun _ _ _ => Run.req ⟨0, rfl⟩
  unfold apicHandler x86LapicWrite
  split
  · exact ⟨_, (hreq _ (.printf _ _) ()).seq ((hreq _ .barrier ()).seq (hreq _ (.wrmsr _ _) ()))⟩
  · exact ⟨_, (hreq _ (.printf _ _) ()).seq (hreq _ (.store _ _) ())⟩

end Driver

/-! ## the race -/

section Race

variable {l : Lapic}

/-- A write through the page of the registers, after any number of ticks. -/
theorem run_x86LapicWrite {lapicBase : UInt64} (hbase : lapicBase ≠ x86LapicX2apic)
    (hpage : lapicBase % 0x1000 = 0) {offset : UInt32} (hoffset : offset < 0x100) (value : UInt32)
    (n : Nat) : Run lapicEnv (l, x86LapicWrite lapicBase offset value)
      ((Lapic.tick^[n] l).write offset value, ret ()) := by
  unfold x86LapicWrite
  rw [if_neg hbase]
  refine Run.req ⟨n, ?_⟩
  rw [Lapic.event, write_store hpage hoffset value]

/-- The registers before the timer's. -/
def Lapic.prepared (l : Lapic) : Lapic :=
  ((((l.write x86LapicSvr 0x1FF).write x86LapicDfr 0xFFFFFFFF).write x86LapicTpr 0).write
    x86LapicTimerInit 0x400000).write x86LapicTimerDivide 0xA

theorem Lapic.timer_prepared (l : Lapic) : l.prepared.timer = l.timer := rfl

theorem Lapic.current_prepared (l : Lapic) : l.prepared.current = 0x400000 := rfl

theorem Lapic.current_write_timer (l : Lapic) (value : UInt32) :
    (l.write x86LapicTimer value).current = l.current := rfl

/-- The count runs in the timer's old mode until its register is written. -/
theorem run_x86LapicEnable (l : Lapic) (n : Nat) : Run lapicEnv (l, x86LapicEnable)
    ((Lapic.tick^[n] l.prepared).write x86LapicTimer 0x20020, ret 0xFEE00000) := by
  -- a processor with an APIC, and of a family before P6
  let r : Xen.CpuidRegs := { eax := 0, ebx := 0, ecx := 0, edx := 0x200 }
  have hwrite : ∀ {l' : Lapic} {offset : UInt32} (value : UInt32), offset < 0x100 → ∀ n,
      Run lapicEnv (l', x86LapicWrite 0xFEE00000 offset value)
        ((Lapic.tick^[n] l').write offset value, ret ()) :=
    fun value hoffset n => run_x86LapicWrite (by decide) (by decide) hoffset value n
  have hcpuid : Run lapicEnv (l, cpuid 1) (l, ret r) := Run.req ⟨0, rfl⟩
  have hprintf : Run lapicEnv (l, printf "APIC enabled, base: %p\n" [0xFEE00000]) (l, ret ()) :=
    Run.req ⟨0, rfl⟩
  have hmode : x86LapicMode r = pure (0xFEE00000, 0) := if_pos (by decide)
  refine hcpuid.seq ?_
  rw [if_neg (by decide), hmode]
  refine Run.seq .refl ?_
  dsimp only
  rw [if_neg (by decide), if_pos rfl]
  refine hprintf.seq ((hwrite _ (by decide) 0).seq ?_)
  refine Run.seq (hwrite _ (by decide) 0) ((hwrite _ (by decide) 0).seq ?_)
  refine (hwrite _ (by decide) 0).seq ((hwrite _ (by decide) 0).seq ?_)
  exact (hwrite _ (by decide) n).seq .refl

/-- Both ends of the race: the count still runs when the driver is done, or, for a
timer that was not periodic before, it has run out. -/
theorem exists_run_running (l : Lapic) : ∃ l' : Lapic,
    Run lapicEnv (l, x86LapicEnable) (l', ret 0xFEE00000) ∧ l'.current ≠ 0 := by
  refine ⟨_, run_x86LapicEnable l 0, ?_⟩
  rw [Lapic.current_write_timer, Function.iterate_zero_apply, Lapic.current_prepared]
  decide

/-- Enough ticks before the last write, and the count has run out. -/
theorem exists_run_stopped (hperiodic : l.periodic = false) : ∃ l' : Lapic,
    Run lapicEnv (l, x86LapicEnable) (l', ret 0xFEE00000) ∧ l'.current = 0 := by
  refine ⟨_, run_x86LapicEnable l l.prepared.current.toNat, ?_⟩
  rw [Lapic.current_write_timer]
  refine Lapic.current_after ?_
  rw [Lapic.periodic, Lapic.timer_prepared]
  exact hperiodic

end Race

end UefiKernel.Interrupts
