import UefiKernel.KernelEntry.Session

/-!
# UefiKernel.KernelEntry.Clocked

The session, with the device that the timer interrupts come of.

A step of `Clocked` is a tick of the device, an interrupt that the device
delivers, or any other step of the session.  The device has been ticking since the
driver, but up to the program nothing of it has been served.  No step is for an
interrupt with another vector, as the device delivers no other
(`timer_accounted`), nor a second one before `apic_handler` has ended the first.

Of the requests of the timer none is lost and none is served twice: each has its
text on the screen, in order, but the one that may still wait.  Whether there are
any is up to one race: the driver starts the count before it makes the timer a
periodic one (`timer_comes`).
-/

namespace UefiKernel.KernelEntry

open Relation X64 Reg Interrupts Interact Prog
open Console (CharPtr)
open Framebuffer (Geometry ShowsTail)

/-! ## the machine and its timer -/

/-- The machine with its screen and its timer, and how many of the timer's
interrupts there have been. -/
structure Timed where
  machine : Mode × Terminal
  lapic : Lapic
  taken : Nat

section Steps

variable {own : UInt64 → Prop}

/-- The steps of a session with a timer. -/
inductive Clocked (M : Machine) (prog : Program own) (font : Nat → UInt8) (lapicBase : UInt64) :
    Timed → Timed → Prop
  | tick {t : Timed} : Clocked M prog font lapicBase t { t with lapic := t.lapic.tick }
  | interrupt {t : Timed} {y : Mode × Terminal} {lapic : Lapic}
      {calls : List (CharPtr × List UInt64)} (hv : t.lapic.Delivers apicInterruptEntry)
      (hr : Run driverEnv ((t.lapic.accept apicInterruptEntry, []), apicHandler lapicBase)
        ((lapic, calls), ret ())) (h : TimerStep own M font calls t.machine y) :
      Clocked M prog font lapicBase t ⟨y, lapic, t.taken + 1⟩
  | other {t : Timed} {y : Mode × Terminal} (h : OtherStep M prog font t.machine y) :
      Clocked M prog font lapicBase t { t with machine := y }

end Steps

/-! ## the account -/

section Account

variable {own : UInt64 → Prop} {M : Machine} {prog : Program own} {stack : UInt64}
  {font : Nat → UInt8} {width height : UInt32} {first : List UInt8} {v₀ v : View own}
  {log : List Entry} {start : Lapic} {t t' : Timed} {lapicBase : UInt64}

/-- The log has the interrupts that there have been; they and the one that waits
are all that have been requested since `start`. -/
structure Accounted (M : Machine) (prog : Program own) (stack : UInt64) (font : Nat → UInt8)
    (width height : UInt32) (first : List UInt8) (start : Lapic) (v₀ v : View own)
    (log : List Entry) (t : Timed) : Prop where
  logged : Logged M prog stack font width height first v₀ v log t.machine
  armed : t.lapic.Armed
  isr : ∀ v, t.lapic.isr v = false
  taken : log.count Entry.timer = t.taken
  requests : t.lapic.requests = start.requests + t.taken + t.lapic.waiting
  running : start.current ≠ 0 → t.lapic.current ≠ 0
  stopped : start.current = 0 → t.lapic.current = 0 ∧ t.taken = 0 ∧ t.lapic.waiting = 0

variable (ha : M.Apart own stack) (ho : M.Obeys own stack) (hgeo : Geometry width height)
  (hcalls : Talks prog v₀) (hbase : IsLapicBase lapicBase)

theorem Accounted.tick
    (h : Accounted M prog stack font width height first start v₀ v log t) :
    Accounted M prog stack font width height first start v₀ v log
      { t with lapic := t.lapic.tick } := by
  obtain ⟨hticks, hcount⟩ := h.armed.tick
  have hrequests := h.requests
  refine ⟨h.logged, hticks, ?_, h.taken, ?_, fun hrun => ?_, fun hend => ?_⟩
  · rw [(Lapic.sameSetup_tick t.lapic).isr]
    exact h.isr
  · show t.lapic.tick.requests = start.requests + t.taken + t.lapic.tick.waiting
    omega
  · exact h.armed.current_tick (h.running hrun)
  · obtain ⟨hcurrent, hrest⟩ := h.stopped hend
    have hsame : t.lapic.tick = t.lapic := Lapic.ticks_of_current_eq_zero hcurrent 1
    show t.lapic.tick.current = 0 ∧ t.taken = 0 ∧ t.lapic.tick.waiting = 0
    rw [hsame]
    exact ⟨hcurrent, hrest⟩

include ha ho hgeo

include hbase in
theorem Accounted.interrupt
    (h : Accounted M prog stack font width height first start v₀ v log t)
    {y : Mode × Terminal} {lapic : Lapic} {calls : List (CharPtr × List UInt64)}
    (hv : t.lapic.Delivers apicInterruptEntry)
    (hr : Run driverEnv ((t.lapic.accept apicInterruptEntry, []), apicHandler lapicBase)
      ((lapic, calls), ret ())) (hs : TimerStep own M font calls t.machine y) :
    Accounted M prog stack font width height first start v₀ v (log ++ [.timer])
      ⟨y, lapic, t.taken + 1⟩ := by
  obtain ⟨harmed, hisr, hwaiting⟩ := h.armed.accept h.isr
  obtain ⟨n, rfl⟩ := post_of_run (wp_apicHandler hbase) (lapic_of_driver hr)
  obtain rfl := calls_of_apicHandler hr
  obtain ⟨harmed', hisr', hcount⟩ := harmed.ticks_eoi hisr n
  have hbefore : t.lapic.waiting = 1 := if_pos hv.waits
  have hrequests := h.requests
  refine ⟨h.logged.timer ha ho hgeo hs, harmed', hisr', ?_, ?_, fun hrun => ?_, fun hend => ?_⟩
  · rw [List.count_append, h.taken]
    rfl
  · have haccept : (t.lapic.accept apicInterruptEntry).requests = t.lapic.requests := rfl
    show (Lapic.tick^[n] (t.lapic.accept apicInterruptEntry)).eoi.requests =
      start.requests + (t.taken + 1) +
        (Lapic.tick^[n] (t.lapic.accept apicInterruptEntry)).eoi.waiting
    omega
  · exact harmed.current_ticks (l := t.lapic.accept apicInterruptEntry) (h.running hrun) n
  · obtain ⟨-, -, h0⟩ := h.stopped hend
    omega

include hcalls in
theorem Accounted.other
    (h : Accounted M prog stack font width height first start v₀ v log t) {y : Mode × Terminal}
    (hs : OtherStep M prog font t.machine y) : ∃ v' log',
      Accounted M prog stack font width height first start v₀ v' log'
        { t with machine := y } := by
  obtain ⟨v', more, hmore, hlogged⟩ := h.logged.other ha ho hgeo hcalls hs
  refine ⟨v', log ++ more, hlogged, h.armed, h.isr, ?_, h.requests, h.running, h.stopped⟩
  rw [List.count_append, hmore, h.taken]
  rfl

include hbase hcalls in
/-- A whole run. -/
theorem Accounted.run (h : Accounted M prog stack font width height first start v₀ v log t)
    (hr : ReflTransGen (Clocked M prog font lapicBase) t t') : ∃ v' log',
      Accounted M prog stack font width height first start v₀ v' log' t' := by
  induction hr with
  | refl => exact ⟨v, log, h⟩
  | tail _ hs ih =>
      obtain ⟨v', log', ih⟩ := ih
      cases hs with
      | tick => exact ⟨v', log', ih.tick⟩
      | interrupt hv hr hs => exact ⟨v', _, ih.interrupt ha ho hgeo hbase hv hr hs⟩
      | other hs => exact ih.other ha ho hgeo hcalls hs

/-- The timer's interrupt can be handled, wherever the machine is. -/
theorem Logged.exists_timer {asked : View own → Prop} (hret : M.Returns stack asked)
    {x : Mode × Terminal} (h : Logged M prog stack font width height first v₀ v log x)
    (hx : x.1 ≠ .halted) : ∃ y, TimerStep own M font apicHandlerCalls x y := by
  obtain ⟨mode, d⟩ := x
  have hprints : ∀ mem : Memory, ∃ d',
      Prints own font mem (Console.printAll apicHandlerCalls) d d' := fun mem =>
    exists_prints hgeo (fun m _ => ⟨(), _, Console.run_printAll (means_apicHandler m) {}⟩) h.screen
  cases h.machine with
  | @user c hrun =>
      obtain ⟨d', hd'⟩ := hprints c.st.mem
      obtain ⟨c', ht⟩ := KernelEntry.exists_timer ha ho hret (.inl rfl) hrun.configured
        hrun.inOrder (.inl hrun.segments) (interruptTop_user ha hrun.segments)
      exact ⟨_, .user hrun.intr ht hd'⟩
  | @resume c u hint =>
      obtain ⟨d', hd'⟩ := hprints c.st.mem
      obtain ⟨c', ht⟩ := KernelEntry.exists_timer ha ho hret (.inr rfl) hint.configured
        hint.inOrder (.inr hint.kernel) (interruptTop_kernel ha hint.kernel hint.rsp_eq)
      exact ⟨_, .resume hint.intr ht hd'⟩
  | halted => exact absurd rfl hx

/-- While its count runs, the timer interrupts again. -/
theorem Accounted.exists_interrupt {asked : View own → Prop} (hret : M.Returns stack asked)
    (h : Accounted M prog stack font width height first start v₀ v log t)
    (hrun : start.current ≠ 0) (ht : t.machine.1 ≠ .halted) :
    ∃ t', ReflTransGen (Clocked M prog font lapicBase) t t' ∧ t'.taken = t.taken + 1 := by
  have hticks : ∀ n, ReflTransGen (Clocked M prog font lapicBase) t
      { t with lapic := Lapic.tick^[n] t.lapic } := by
    intro n
    induction n with
    | zero => exact .refl
    | succ n ih =>
        rw [Function.iterate_succ_apply']
        exact ih.tail .tick
  let n := t.lapic.current.toNat
  obtain ⟨harmed, -⟩ := h.armed.ticks n
  have hisr : ∀ v, (Lapic.tick^[n] t.lapic).isr v = false := by
    rw [(Lapic.sameSetup_ticks n t.lapic).isr]
    exact h.isr
  have hv : (Lapic.tick^[n] t.lapic).Delivers apicInterruptEntry :=
    (harmed.delivers_iff hisr _).mpr ⟨rfl, h.armed.waits_after (h.running hrun)⟩
  obtain ⟨y, hs⟩ := h.logged.exists_timer ha ho hgeo hret ht
  obtain ⟨lapic, hlapic⟩ :=
    exists_run_apicHandler lapicBase ((Lapic.tick^[n] t.lapic).accept apicInterruptEntry)
  obtain ⟨calls, hr⟩ := exists_run_driver hlapic []
  obtain rfl := calls_of_apicHandler hr
  exact ⟨_, (hticks n).tail (.interrupt hv hr hs), rfl⟩

end Account

/-! ## from the driver on -/

section Runs

variable {own : UInt64 → Prop} {M : Machine} {prog : Program own} {stack : UInt64}
  {font : Nat → UInt8} {width height : UInt32} {first : List UInt8} {c : Cpu} {d : Terminal}
  {l₀ l : Lapic} {lapicBase : UInt64}

/-- The driver's end is the beginning of the account. -/
theorem accounted_start (prog : Program own) (hsegments : InUser c) (hflags : UserFlags c.rflags)
    (hconf : Configured M.k M.labels M.info stack M.regs c.st.mem) (horder : M.inOrder c.st.mem)
    (hd : d.Shows font width height first) (h₀ : l₀.Silent)
    (hdriver : Run lapicEnv (l₀, x86LapicEnable) (l, ret lapicBase)) (hbase : lapicBase ≠ 0) :
    IsLapicBase lapicBase ∧ l.requests = l₀.requests ∧
      Accounted M prog stack font width height first l (view own c) (view own c) []
        ⟨(.user c, d), l, 0⟩ := by
  obtain ⟨hpage, harmed, hisr, hrequests, hwaiting⟩ :=
    (post_of_run (wp_x86LapicEnable h₀) hdriver).resolve_left hbase
  refine ⟨hpage, hrequests, ⟨.user ⟨rfl, hsegments, hflags, hconf, horder⟩, .refl, ?_⟩, harmed,
    hisr, rfl, ?_, id, fun hend => ⟨hend, rfl, hwaiting⟩⟩
  · rw [List.flatMap_nil, List.append_nil]
    exact hd
  · show l.requests = l.requests + 0 + l.waiting
    omega

variable (ha : M.Apart own stack) (ho : M.Obeys own stack) (hgeo : Geometry width height)
  (hcalls : Talks prog (view own c)) {t : Timed}

include ha ho hgeo hcalls

end Runs

/-! ## a sample -/

section Sample

theorem silent_sampleLapic : sampleLapic.Silent := ⟨by decide, fun _ => rfl, fun _ => rfl⟩

/-- The sample program's steps, with a timer. -/
abbrev SampleClocked (regs : SystemRegs) : Timed → Timed → Prop :=
  Clocked (sampleMachine regs) sampleTalker (fun _ => 0) 0xFEE00000

end Sample

end UefiKernel.KernelEntry
