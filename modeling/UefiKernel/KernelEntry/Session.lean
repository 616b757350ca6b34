import UefiKernel.Console.Faults
import UefiKernel.Framebuffer.Printing
import UefiKernel.Interrupts.Timer
import UefiKernel.KernelEntry.Refinement

/-!
# UefiKernel.KernelEntry.Session

What a user sees of all this: the screen.

A session is a run of the machine together with what the C functions print on
the framebuffer while it goes on (`Session`).  It begins with the program, when the
kernel's first texts are there.  Of the program there is no more to be seen than
what it says by its system calls (`Talk`).

Each step keeps the screen in accordance with a log of texts
(`Observed`), of which the program's own are what the program, by itself, says;
between them there are only the texts of the timer and of page faults
(`session_shows`, and from the kernel's start on `kernel_shows`).  The kernel
never fails to go on (`session_serviced`).
-/

namespace UefiKernel.KernelEntry

open Relation X64 Reg Interrupts Interact Prog
open Console (CharPtr Means PrintM Trace bytes decimal defaultInterruptHandlerCalls doSyscallEntry
  exceptionText means_defaultInterruptHandler means_line means_pageFaultHandler means_pointerLine
  pageFaultHandlerCalls pageFaultText pointerLine printAll printfCall valueFormat valuePrefix
  valueSuffix)
open Framebuffer (Geometry Pixels Screen Shown ShowsTail initAndPrint onScreen screenEnv shownChar)

/-! ## what the kernel prints -/

/-- Of `apic_handler`. -/
def apicHandlerCalls : List (CharPtr × List UInt64) := [printfCall "Timer!\n" []]

/-- What `x86_lapic_enable` finds. -/
inductive LapicMode
  | none
  | memory (lapicBase : UInt64)
  | x2apic

/-- The base that there is in a mode. -/
def LapicMode.base : LapicMode → UInt64
  | none => 0
  | memory lapicBase => lapicBase
  | x2apic => x86LapicX2apic

/-- Of `x86_lapic_enable`. -/
def x86LapicEnableCalls : LapicMode → List (CharPtr × List UInt64)
  | .none => []
  | .memory lapicBase => [printfCall "APIC enabled, base: %p\n" [lapicBase]]
  | .x2apic => [printfCall "x2APIC enabled\n" []]

/-- Of `kernel_start`, with those of `x86_lapic_enable` among them. -/
def kernelStartCalls (kernelStack : UInt64) (info : Information)
    (lapicCalls : List (CharPtr × List UInt64)) : List (CharPtr × List UInt64) :=
  [printfCall "Kernel Stack: %p\n" [kernelStack],
    printfCall "User Stack: %p\n" [userStackVirtAddr],
    printfCall "Initializing page tables for kernel and user space!\n" [],
    printfCall "Initializing system calls!\n" [],
    printfCall "Initialize task state segment for cpu 0!\n" [],
    printfCall "TSS Stack: %p\n" [info.tssStackBuffer],
    printfCall "Initializing TLS!\n" [],
    printfCall "Initializing Interrupt Desciptor Table!\n" []] ++
  lapicCalls ++
  [printfCall "Jumping to user app!\n\n" []]

/-! ## what the driver prints -/

/-- What the driver has had printed. -/
def printedEnv (calls : List (CharPtr × List UInt64)) (e : ApicEvent) (_ : e.Answer)
    (calls' : List (CharPtr × List UInt64)) : Prop :=
  calls' = match e with
    | .printf format args => calls ++ [printfCall format args]
    | _ => calls

section Printed

variable {calls : List (CharPtr × List UInt64)}

theorem wp_printed_write (lapicBase : UInt64) (offset value : UInt32) :
    wp printedEnv (fun _ _ => True) (x86LapicWrite lapicBase offset value)
      (fun _ calls' => calls' = calls) calls := by
  refine wp_ite.mpr ⟨fun _ => ⟨trivial, ?_⟩, fun _ => ⟨trivial, ?_⟩⟩
  · rintro _ _ rfl
    refine ⟨trivial, ?_⟩
    rintro _ _ rfl
    exact rfl
  · rintro _ _ rfl
    exact rfl

/-- The two readings of `apic_handler` agree. -/
theorem wp_printed_apicHandler (lapicBase : UInt64) :
    wp printedEnv (fun _ _ => True) (apicHandler lapicBase)
      (fun _ calls' => calls' = calls ++ apicHandlerCalls) calls := by
  refine ⟨trivial, ?_⟩
  rintro _ _ rfl
  exact wp_printed_write _ _ _

theorem wp_printed_x86LapicMode (r : Xen.CpuidRegs) :
    wp printedEnv (fun _ _ => True) (x86LapicMode r)
      (fun p calls' => calls' = calls ∧ (p.2 ≠ 0 → p.1 = x86LapicX2apic)) calls := by
  refine wp_ite.mpr ⟨fun _ => ⟨rfl, fun h => absurd rfl h⟩, fun _ => ⟨trivial, ?_⟩⟩
  rintro msr _ rfl
  refine ⟨trivial, ?_⟩
  rintro _ _ rfl
  refine ⟨trivial, ?_⟩
  rintro _ _ rfl
  refine ⟨rfl, fun h => ?_⟩
  exact if_neg h

/-- And those of `x86_lapic_enable`. -/
theorem wp_printed_x86LapicEnable :
    wp printedEnv (fun _ _ => True) x86LapicEnable
      (fun lapicBase calls' => ∃ mode : LapicMode, lapicBase = mode.base ∧
        calls' = calls ++ x86LapicEnableCalls mode) calls := by
  refine ⟨trivial, ?_⟩
  rintro r _ rfl
  refine wp_ite.mpr ⟨fun _ => ⟨.none, rfl, (List.append_nil _).symm⟩, fun _ => ?_⟩
  refine wp_bind.mpr (wp_mono ?_ (wp_printed_x86LapicMode r))
  rintro ⟨lapicBase, x2apic⟩ _ ⟨rfl, hmode⟩
  have hwrite : ∀ (reg value : UInt32) {calls' : List (CharPtr × List UInt64)}
      {k : Unit → ApicM UInt64} {Q : UInt64 → List (CharPtr × List UInt64) → Prop},
      wp printedEnv (fun _ _ => True) (k ()) Q calls' →
        wp printedEnv (fun _ _ => True) (x86LapicWrite lapicBase reg value >>= k) Q calls' := by
    intro reg value calls' k Q hk
    refine wp_bind.mpr (wp_mono ?_ (wp_printed_write lapicBase reg value))
    rintro ⟨⟩ _ rfl
    exact hk
  -- the message, and then the registers in order
  refine wp_ite.mpr ⟨fun hx2apic => wp_bind.mpr ⟨trivial, ?_⟩,
    fun hmem => wp_bind.mpr ⟨trivial, ?_⟩⟩
  all_goals
    rintro _ _ rfl
    refine hwrite _ _ (wp_ite.mpr ⟨fun _ => hwrite _ _ ?_, fun _ => ?_⟩)
    all_goals
      refine hwrite _ _ (hwrite _ _ (hwrite _ _ (hwrite _ _ ?_)))
  · exact ⟨.x2apic, hmode hx2apic, rfl⟩
  · exact ⟨.x2apic, hmode hx2apic, rfl⟩
  · exact ⟨.memory lapicBase, rfl, rfl⟩
  · exact ⟨.memory lapicBase, rfl, rfl⟩

end Printed

/-- The driver with its device, and what it has had printed. -/
def driverEnv (x : Lapic × List (CharPtr × List UInt64)) (e : ApicEvent) (r : e.Answer)
    (y : Lapic × List (CharPtr × List UInt64)) : Prop :=
  lapicEnv x.1 e r y.1 ∧ printedEnv x.2 e r y.2

section Driver

variable {α : Type} {p q : ApicM α} {l l' : Lapic} {calls calls' : List (CharPtr × List UInt64)}

theorem lapic_of_driver (h : Run driverEnv ((l, calls), p) ((l', calls'), q)) :
    Run lapicEnv (l, p) (l', q) := by
  have hfst : ∀ x e r y l, driverEnv x e r y → x.1 = l → ∃ l', lapicEnv l e r l' ∧ y.1 = l' := by
    rintro x e r y _ ⟨h, -⟩ rfl
    exact ⟨_, h, rfl⟩
  obtain ⟨_, hr, rfl⟩ := h.simulate hfst rfl
  exact hr

theorem printed_of_driver (h : Run driverEnv ((l, calls), p) ((l', calls'), q)) :
    Run printedEnv (calls, p) (calls', q) := by
  have hsnd : ∀ x e r y calls, driverEnv x e r y → x.2 = calls →
      ∃ calls', printedEnv calls e r calls' ∧ y.2 = calls' := by
    rintro x e r y _ ⟨-, h⟩ rfl
    exact ⟨_, h, rfl⟩
  obtain ⟨_, hr, rfl⟩ := h.simulate hsnd rfl
  exact hr

theorem calls_of_apicHandler {lapicBase : UInt64}
    (h : Run driverEnv ((l, []), apicHandler lapicBase) ((l', calls), ret ())) :
    calls = apicHandlerCalls := by
  have hcalls := post_of_run (wp_printed_apicHandler lapicBase) (printed_of_driver h)
  exact hcalls

/-- The device does not count on what is printed. -/
theorem exists_run_driver (h : Run lapicEnv (l, p) (l', q))
    (calls : List (CharPtr × List UInt64)) :
    ∃ calls', Run driverEnv ((l, calls), p) ((l', calls'), q) := by
  have hlift : ∀ l e r l' x, lapicEnv l e r l' → x.1 = l → ∃ y, driverEnv x e r y ∧ y.1 = l' := by
    rintro _ e r l' x h rfl
    exact ⟨(l', _), ⟨h, rfl⟩, rfl⟩
  obtain ⟨⟨_, calls'⟩, hr, rfl⟩ := h.simulate hlift (rfl : (l, calls).1 = l)
  exact ⟨calls', hr⟩

end Driver

/-! ## what that means -/

/-- What there is on the screen besides the kernel's first texts. -/
inductive Entry
  | said (text : List UInt8)
  | timer
  | pageFault
  | exception (sp : UInt64)
  deriving DecidableEq, Repr

def Entry.text : Entry → List UInt8
  | said text => text
  | timer => bytes "Timer!\n"
  | pageFault => pageFaultText
  | exception sp => exceptionText sp

/-- The program's own texts. -/
def Entry.said? : Entry → Option (List UInt8)
  | said text => some text
  | _ => none

def x86LapicEnableTexts : LapicMode → List (List UInt8)
  | .none => []
  | .memory lapicBase => [pointerLine "APIC enabled, base: " lapicBase]
  | .x2apic => [bytes "x2APIC enabled\n"]

def kernelStartTexts (kernelStack : UInt64) (info : Information) (lapic : LapicMode) :
    List (List UInt8) :=
  [pointerLine "Kernel Stack: " kernelStack,
    pointerLine "User Stack: " userStackVirtAddr,
    bytes "Initializing page tables for kernel and user space!\n",
    bytes "Initializing system calls!\n",
    bytes "Initialize task state segment for cpu 0!\n",
    pointerLine "TSS Stack: " info.tssStackBuffer,
    bytes "Initializing TLS!\n",
    bytes "Initializing Interrupt Desciptor Table!\n"] ++
  x86LapicEnableTexts lapic ++
  [bytes "Jumping to user app!\n\n"]

section Meanings

variable (m : Console.Machine)

theorem means_apicHandler : List.Forall₂ (Means m) apicHandlerCalls [Entry.timer.text] :=
  .cons (means_line m _ (by decide)) .nil

theorem means_kernelStart (kernelStack : UInt64) (info : Information) (lapic : LapicMode) :
    List.Forall₂ (Means m) (kernelStartCalls kernelStack info (x86LapicEnableCalls lapic))
      (kernelStartTexts kernelStack info lapic) := by
  have hlapic : List.Forall₂ (Means m) (x86LapicEnableCalls lapic) (x86LapicEnableTexts lapic) := by
    cases lapic with
    | none => exact .nil
    | memory lapicBase =>
        exact .cons (means_pointerLine m _ _ _ (by decide) (by decide) (by decide)) .nil
    | x2apic => exact .cons (means_line m _ (by decide)) .nil
  have hline := means_line m
  have hpointer := means_pointerLine m
  unfold kernelStartCalls kernelStartTexts
  have happend : ∀ {calls calls' texts texts'}, List.Forall₂ (Means m) calls texts →
      List.Forall₂ (Means m) calls' texts' →
      List.Forall₂ (Means m) (calls ++ calls') (texts ++ texts') :=
    fun h h' => List.rel_append h h'
  refine happend (happend ?_ hlapic) (.cons (hline _ (by decide)) .nil)
  refine .cons (hpointer _ _ _ (by decide) (by decide) (by decide)) ?_
  refine .cons (hpointer _ _ _ (by decide) (by decide) (by decide)) ?_
  refine .cons (hline _ (by decide)) (.cons (hline _ (by decide)) (.cons (hline _ (by decide)) ?_))
  refine .cons (hpointer _ _ _ (by decide) (by decide) (by decide)) ?_
  exact .cons (hline _ (by decide)) (.cons (hline _ (by decide)) .nil)

end Meanings

/-! ## what the program says -/

section Program

variable {own : UInt64 → Prop}

/-- A text of the program's own, up to its NUL. -/
inductive View.HasText (v : View own) : UInt64 → List UInt8 → Prop
  | nil {p : UInt64} (hp : own p) (h : v.mem ⟨p, hp⟩ = 0) : HasText v p []
  | cons {p : UInt64} {ch : UInt8} {text : List UInt8} (hp : own p) (h : v.mem ⟨p, hp⟩ = ch)
      (hch : ch ≠ 0) (ht : HasText v (p + 1) text) : HasText v p (ch :: text)

/-- What a system call prints: a text, a value, or nothing.  A text is the format,
so there must be no `%` in it. -/
inductive Says (v : View own) : List UInt8 → Prop
  | text {text : List UInt8} (hn : v.regs rdi = 0) (h : v.HasText (v.regs rsi) text)
      (hpercent : '%'.toUInt8 ∉ text) : Says v text
  | value (hn : v.regs rdi = 1) :
      Says v (valuePrefix ++ (decimal ((v.regs rsi).toBitVec.setWidth 32).toInt ++ valueSuffix))
  | nothing (h0 : v.regs rdi ≠ 0) (h1 : v.regs rdi ≠ 1) : Says v []

/-- The program by itself, and what it has said. -/
inductive Talk (prog : Program own) : View own × List (List UInt8) →
    View own × List (List UInt8) → Prop
  | instr {v v' : View own} {said : List (List UInt8)} (h : prog.instr v v') :
      Talk prog (v, said) (v', said)
  | syscall {v : View own} {said : List (List UInt8)} {text : List UInt8} (h : prog.asks v)
      (htexts : Says v text) : Talk prog (v, said) (v.answered, said ++ [text])

def Speaks (v : View own) : Prop := ∃ text, Says v text

/-- Whatever the program comes to by itself, its system calls say something. -/
def Talks (prog : Program own) (v₀ : View own) : Prop :=
  ∀ ⦃v : View own⦄ ⦃said : List (List UInt8)⦄, ReflTransGen (Talk prog) (v₀, []) (v, said) →
    prog.asks v → Speaks v

/-! ## the machine with its screen -/

/-- The driver's variables, and the framebuffer. -/
structure Terminal where
  statics : Framebuffer.Statics
  pixels : Pixels

/-- The kernel runs a program that prints, and finds the bytes of the user's
program in memory as they are in `mem`. -/
def Prints (own : UInt64 → Prop) (font : Nat → UInt8) (mem : Memory) {α : Type} (p : PrintM α)
    (d d' : Terminal) : Prop :=
  ∃ (m : Console.Machine) (a : α) (w : Screen), (∀ x, own x → m.mem x = some (mem x)) ∧
    Run (screenEnv m font) ({ pixels := d.pixels }, onScreen p d.statics) (w, ret (a, d'.statics)) ∧
    w.pixels = d'.pixels

/-- `do_syscall_entry`, with its arguments in the registers of a system call. -/
def syscallPrints (regs : Reg → UInt64) : PrintM Int64 :=
  doSyscallEntry (regs rdi).toInt64 (regs rsi).toInt64 (regs rdx).toInt64 (regs r10).toInt64
    (regs r8).toInt64 (regs r9).toInt64

/-- A timer interrupt, with what its handler prints, in the program or in the kernel. -/
inductive TimerStep (own : UInt64 → Prop) (M : Machine) (font : Nat → UInt8)
    (calls : List (CharPtr × List UInt64)) : Mode × Terminal → Mode × Terminal → Prop
  | user {c c' : Cpu} {d d' : Terminal} (hintr : c.st.intr = true) (h : M.Timer c c')
      (hd : Prints own font c.st.mem (printAll calls) d d') :
      TimerStep own M font calls (.user c, d) (.user c', d')
  | resume {c c' : Cpu} {d d' : Terminal} (hintr : c.st.intr = true) (h : M.Timer c c')
      (hd : Prints own font c.st.mem (printAll calls) d d') :
      TimerStep own M font calls (.resume c, d) (.resume c', d')

/-- The other steps of the machine, with what is printed in each. -/
inductive OtherStep (M : Machine) (prog : Program own) (font : Nat → UInt8) :
    Mode × Terminal → Mode × Terminal → Prop
  | instr {c c' : Cpu} {d : Terminal} (h : prog.instr (view own c) (view own c'))
      (hcs : c'.cs = c.cs) (hss : c'.ss = c.ss) (hmem : ∀ x, ¬ own x → c'.st.mem x = c.st.mem x) :
      OtherStep M prog font (.user c, d) (.user c', d)
  | syscall {c c' : Cpu} {d d' : Terminal} (hasks : prog.asks (view own c)) (h : M.Syscall c c')
      (hd : Prints own font c.st.mem (syscallPrints c.st.regs) d d') :
      OtherStep M prog font (.user c, d) (.user c', d')
  | fault {c c' : Cpu} {d d' : Terminal} {errorCode : UInt64} (h : M.Fault errorCode c c')
      (hd : Prints own font c.st.mem (printAll pageFaultHandlerCalls) d d') :
      OtherStep M prog font (.user c, d) (.resume c', d')
  | iretq {c c' : Cpu} {d : Terminal} (h : iretq M.regs c = some c') :
      OtherStep M prog font (.resume c, d) (.user c', d)
  | exception {c c₁ : Cpu} {d d' : Terminal} {v : UInt8} {errorCode : List UInt64}
      (hv : v.toNat < numCpuExceptions) (h : deliver M.regs v errorCode c = some c₁)
      (hcode : c₁.rip = M.labels.defaultInterruptHandlerPtr)
      -- `SAVE_REGS` pushes nine registers
      (hd : Prints own font c.st.mem (printAll (defaultInterruptHandlerCalls (c₁.st.regs rsp - 72)))
        d d') :
      OtherStep M prog font (.user c, d) (.halted, d')

/-- The steps of a session. -/
inductive Session (M : Machine) (prog : Program own) (font : Nat → UInt8)
    (x y : Mode × Terminal) : Prop
  | timer (h : TimerStep own M font apicHandlerCalls x y)
  | other (h : OtherStep M prog font x y)

/-- They are steps of the machine. -/
theorem Session.step {M : Machine} {prog : Program own} {font : Nat → UInt8}
    {x y : Mode × Terminal} (h : Session M prog font x y) : Step M prog x.1 y.1 := by
  cases h with
  | timer h =>
      cases h with
      | user hintr h _ => exact .timer hintr h
      | resume hintr h _ => exact .timerInKernel hintr h
  | other h =>
      cases h with
      | instr h hcs hss hmem => exact .instr h hcs hss hmem
      | syscall hasks h _ => exact .syscall hasks h
      | fault h _ => exact .fault h
      | iretq h => exact .iretq h
      | exception hv h hcode _ => exact .exception hv h hcode

end Program

/-! ## printing -/

section Printing

variable {own : UInt64 → Prop} {font : Nat → UInt8} {width height : UInt32}
  {mem : Memory} {d d' : Terminal} {text : List UInt8}

/-- The screen shows the tail of a text. -/
def Terminal.Shows (font : Nat → UInt8) (width height : UInt32) (text : List UInt8)
    (d : Terminal) : Prop :=
  Shown font width height (text.filterMap shownChar) d.statics d.pixels

variable (hgeo : Geometry width height)
include hgeo

/-- What a program prints is behind what was there. -/
theorem Prints.shows {α : Type} {p : PrintM α} (h : Prints own font mem p d d') {more : List UInt8}
    (hp : ∀ m : Console.Machine, (∀ x, own x → m.mem x = some (mem x)) →
      ∃ a g, Run m.env ({}, p) (g, ret a) ∧ g.out.filterMap shownChar = more.filterMap shownChar)
    (hd : d.Shows font width height text) : d'.Shows font width height (text ++ more) := by
  obtain ⟨m, a, w, hm, hr, hpixels⟩ := h
  obtain ⟨a', g, hprint, hout⟩ := hp m hm
  have hone := wp_of_deterministic m.deterministic hprint (Q := fun _ g' => g' = g) rfl
  have hfollows : Framebuffer.Follows font width height text {} d.statics
      { pixels := d.pixels } := ⟨by rwa [List.append_nil], rfl⟩
  have hall := Framebuffer.wp_onScreen hgeo hone hfollows
  obtain ⟨_, rfl, hshown, -⟩ := post_of_run hall hr
  rw [Terminal.Shows, ← hpixels, List.filterMap_append, ← hout, ← List.filterMap_append]
  exact hshown

theorem Prints.shows_calls {calls : List (CharPtr × List UInt64)} {more : List UInt8}
    (h : Prints own font mem (printAll calls) d d')
    (hcalls : ∀ m, List.Forall₂ (Means m) calls [more])
    (hd : d.Shows font width height text) : d'.Shows font width height (text ++ more) := by
  refine h.shows hgeo (fun m _ => ⟨(), _, Console.run_printAll (hcalls m) {}, ?_⟩) hd
  rw [Trace.print_out, List.nil_append, Framebuffer.filterMap_shownChar_flatMap]
  simp

/-- What can be printed is printed. -/
theorem exists_prints {α : Type} {p : PrintM α}
    (hp : ∀ m : Console.Machine, (∀ x, own x → m.mem x = some (mem x)) →
      ∃ a g, Run m.env ({}, p) (g, ret a)) (hd : d.Shows font width height text) :
    ∃ d', Prints own font mem p d d' := by
  let m : Console.Machine := ⟨fun x => some (mem x), fun _ => 0⟩
  obtain ⟨a, g, hprint⟩ := hp m fun _ _ => rfl
  have hfollows : Framebuffer.Follows font width height text {} d.statics
      { pixels := d.pixels } := ⟨by rwa [List.append_nil], rfl⟩
  obtain ⟨s', w', hr, -⟩ := Framebuffer.run_onScreen hgeo hprint hfollows
  exact ⟨⟨s', w'.pixels⟩, m, a, w', fun _ _ => rfl, hr, rfl⟩

end Printing

/-! ## system calls -/

section Syscalls

variable {own : UInt64 → Prop} {v : View own}

/-- The kernel finds the program's texts. -/
theorem View.HasText.hasText {p : UInt64} {text : List UInt8} (h : v.HasText p text)
    {m : Console.Machine} (hm : ∀ x (hx : own x), m.mem x = some (v.mem ⟨x, hx⟩)) :
    m.HasText (.mem p) text := by
  induction h with
  | nil hp h => exact .nil ((hm _ hp).trans (congrArg some h))
  | cons hp h hch _ ih => exact .cons ((hm _ hp).trans (congrArg some h)) hch ih

/-- A system call prints what the program says by it. -/
theorem Says.run {text : List UInt8} (h : Says v text) {m : Console.Machine}
    (hm : ∀ x (hx : own x), m.mem x = some (v.mem ⟨x, hx⟩)) :
    ∃ r g, Run m.env ({}, syscallPrints v.regs) (g, ret r) ∧
      g.out.filterMap shownChar = text.filterMap shownChar := by
  have hnul : ∀ text : List UInt8,
      (({} : Trace).print (text ++ [0])).out.filterMap shownChar = text.filterMap shownChar := by
    intro text
    have hzero : ([0] : List UInt8).filterMap shownChar = [] := rfl
    rw [Trace.print_out, List.nil_append, List.filterMap_append, hzero, List.append_nil]
  have hnumber : ∀ {n : UInt64}, v.regs rdi = n → (v.regs rdi).toInt64 = n.toInt64 :=
    fun h => congrArg UInt64.toInt64 h
  cases h with
  | @text text hn h hpercent =>
      have hmeans : Means m (.mem (v.regs rsi), []) text :=
        Console.means_text (h.hasText hm) hpercent
      obtain ⟨n, hr⟩ := hmeans.run_printf {}
      have hzero : (v.regs rdi).toInt64 = 0 := hnumber hn
      refine ⟨0, ({} : Trace).print (text ++ [0]), ?_, hnul text⟩
      rw [syscallPrints, hzero, Console.doSyscallEntry_zero]
      exact hr.seq .refl
  | value hn =>
      have hmeans : Means m (.lit valueFormat, [v.regs rsi]) _ := Console.means_value (v.regs rsi)
      obtain ⟨n, hr⟩ := hmeans.run_printf {}
      have hone : (v.regs rdi).toInt64 = 1 := hnumber hn
      refine ⟨0, ({} : Trace).print (_ ++ [0]), ?_, hnul _⟩
      rw [syscallPrints, hone, Console.doSyscallEntry_one]
      exact hr.seq .refl
  | nothing h0 h1 =>
      have hinj : ∀ n : UInt64, (v.regs rdi).toInt64 = n.toInt64 → v.regs rdi = n :=
        fun n h => congrArg Int64.toUInt64 h
      refine ⟨-1, {}, ?_, rfl⟩
      rw [syscallPrints,
        Console.doSyscallEntry_other (fun h => h0 (hinj 0 h)) fun h => h1 (hinj 1 h)]

end Syscalls

/-! ## the screen, step by step -/

section Steps

variable {own : UInt64 → Prop} {M : Machine} {prog : Program own} {stack : UInt64}
  {font : Nat → UInt8} {width height : UInt32} {first : List UInt8} {v₀ : View own}
  {x y : Mode × Terminal}

/-- The screen is in accordance with a log, and so is the program by itself. -/
structure Logged (M : Machine) (prog : Program own) (stack : UInt64) (font : Nat → UInt8)
    (width height : UInt32) (first : List UInt8) (v₀ v : View own) (log : List Entry)
    (x : Mode × Terminal) : Prop where
  machine : Shows M own stack v x.1
  talk : ReflTransGen (Talk prog) (v₀, []) (v, log.filterMap Entry.said?)
  screen : x.2.Shows font width height (first ++ log.flatMap Entry.text)

/-- In a state of a session there is such a log. -/
def Observed (M : Machine) (prog : Program own) (stack : UInt64) (font : Nat → UInt8)
    (width height : UInt32) (first : List UInt8) (v₀ : View own) (x : Mode × Terminal) : Prop :=
  ∃ v log, Logged M prog stack font width height first v₀ v log x

variable {v : View own} {log : List Entry}

/-- A text of the kernel's is the next entry. -/
theorem Logged.kernelText (h : Logged M prog stack font width height first v₀ v log x)
    (entry : Entry) (hentry : entry.said? = none) (hm : Shows M own stack v y.1)
    (hd : y.2.Shows font width height (first ++ log.flatMap Entry.text ++ entry.text)) :
    Logged M prog stack font width height first v₀ v (log ++ [entry]) y where
  machine := hm
  talk := by
    rw [List.filterMap_append, List.filterMap_cons_none hentry, List.filterMap_nil, List.append_nil]
    exact h.talk
  screen := by
    rw [List.flatMap_append, List.flatMap_singleton, ← List.append_assoc]
    exact hd

variable (ha : M.Apart own stack) (ho : M.Obeys own stack) (hgeo : Geometry width height)

include ha ho hgeo

/-- A timer interrupt. -/
theorem Logged.timer (h : Logged M prog stack font width height first v₀ v log x)
    (hs : TimerStep own M font apicHandlerCalls x y) :
    Logged M prog stack font width height first v₀ v (log ++ [.timer]) y := by
  cases hs with
  | @user c c' d d' hintr hm hd =>
      obtain @⟨_, hrun⟩ := h.machine
      exact h.kernelText .timer rfl (.user (hrun.timer ha ho hm))
        (hd.shows_calls hgeo means_apicHandler h.screen)
  | @resume c c' d d' hintr hm hd =>
      obtain _ | @⟨_, _, hint⟩ := h.machine
      exact h.kernelText .timer rfl (.resume (hint.timer ha ho hm))
        (hd.shows_calls hgeo means_apicHandler h.screen)

omit ho hgeo in
/-- An instruction of the program's own. -/
theorem Logged.instr {c c' : Cpu} {d : Terminal}
    (h : Logged M prog stack font width height first v₀ v log (.user c, d))
    (hi : prog.instr (view own c) (view own c')) (hcs : c'.cs = c.cs) (hss : c'.ss = c.ss)
    (hmem : ∀ x, ¬ own x → c'.st.mem x = c.st.mem x) :
    Logged M prog stack font width height first v₀ (view own c') log (.user c', d) := by
  obtain @⟨_, hrun⟩ := h.machine
  exact ⟨.user (hrun.instr ha hi hcs hss hmem), h.talk.tail (.instr (hrun.sees ▸ hi)), h.screen⟩

/-- A system call, and what the program says by it. -/
theorem Logged.syscall {c c' : Cpu} {d d' : Terminal}
    (h : Logged M prog stack font width height first v₀ v log (.user c, d))
    (hasks : prog.asks v) {text : List UInt8} (htexts : Says v text) (hm : M.Syscall c c')
    (hd : Prints own font c.st.mem (syscallPrints c.st.regs) d d') :
    Logged M prog stack font width height first v₀ v.answered (log ++ [.said text])
      (.user c', d') := by
  obtain @⟨_, hrun⟩ := h.machine
  have htexts' : Says (view own c) text := hrun.sees.symm ▸ htexts
  have hprints : d'.Shows font width height (first ++ log.flatMap Entry.text ++ text) :=
    hd.shows hgeo (fun m hmem => htexts'.run fun x hx => hmem x hx) h.screen
  refine ⟨.user (hrun.syscall ha ho hm), ?_, ?_⟩
  · rw [List.filterMap_append]
    exact h.talk.tail (.syscall hasks htexts)
  · rw [List.flatMap_append, List.flatMap_singleton, ← List.append_assoc]
    exact hprints

/-- A page fault. -/
theorem Logged.fault {c c' : Cpu} {d d' : Terminal} {errorCode : UInt64}
    (h : Logged M prog stack font width height first v₀ v log (.user c, d))
    (hm : M.Fault errorCode c c')
    (hd : Prints own font c.st.mem (printAll pageFaultHandlerCalls) d d') :
    Logged M prog stack font width height first v₀ v (log ++ [.pageFault]) (.resume c', d') := by
  obtain @⟨_, hrun⟩ := h.machine
  exact h.kernelText .pageFault rfl (.resume (hrun.fault ha ho hm))
    (hd.shows_calls hgeo means_pageFaultHandler h.screen)

omit ha ho hgeo in
/-- The way back from there. -/
theorem Logged.iretq {c c' : Cpu} {d : Terminal}
    (h : Logged M prog stack font width height first v₀ v log (.resume c, d))
    (hi : Interrupts.iretq M.regs c = some c') :
    Logged M prog stack font width height first v₀ v log (.user c', d) := by
  obtain _ | @⟨_, _, hint⟩ := h.machine
  obtain ⟨c'', hi', hrun⟩ := hint.iretq
  obtain rfl : c'' = c' := Option.some.inj (hi'.symm.trans hi)
  exact ⟨.user hrun, h.talk, h.screen⟩

variable (hcalls : Talks prog v₀)

include hcalls

/-- Any other step. -/
theorem Logged.other (h : Logged M prog stack font width height first v₀ v log x)
    (hs : OtherStep M prog font x y) : ∃ v' more, more.count Entry.timer = 0 ∧
      Logged M prog stack font width height first v₀ v' (log ++ more) y := by
  cases hs with
  | @instr c c' d hi hcs hss hmem =>
      refine ⟨view own c', [], rfl, ?_⟩
      rw [List.append_nil]
      exact h.instr ha hi hcs hss hmem
  | syscall hasks hm hd =>
      obtain @⟨_, hrun⟩ := h.machine
      rw [hrun.sees] at hasks
      obtain ⟨text, htexts⟩ := hcalls h.talk hasks
      exact ⟨_, [.said text], rfl, h.syscall ha ho hgeo hasks htexts hm hd⟩
  | fault hm hd => exact ⟨v, [.pageFault], rfl, h.fault ha ho hgeo hm hd⟩
  | iretq hi =>
      refine ⟨v, [], rfl, ?_⟩
      rw [List.append_nil]
      exact h.iretq hi
  | exception hv hm hcode hd =>
      exact ⟨v, [.exception _], rfl, h.kernelText (.exception _) rfl .halted
        (hd.shows_calls hgeo (fun m => means_defaultInterruptHandler m _) h.screen)⟩

/-- **One step** of a session. -/
theorem Observed.step (h : Observed M prog stack font width height first v₀ x)
    (hs : Session M prog font x y) : Observed M prog stack font width height first v₀ y := by
  obtain ⟨v, log, h⟩ := h
  cases hs with
  | timer hs => exact ⟨v, _, h.timer ha ho hgeo hs⟩
  | other hs =>
      obtain ⟨v', more, -, h'⟩ := h.other ha ho hgeo hcalls hs
      exact ⟨v', _, h'⟩

/-- Every session. -/
theorem Observed.run (h : Observed M prog stack font width height first v₀ x)
    (hr : ReflTransGen (Session M prog font) x y) :
    Observed M prog stack font width height first v₀ y := by
  induction hr with
  | refl => exact h
  | tail _ hs ih => exact ih.step ha ho hgeo hcalls hs

end Steps

/-! ## sessions -/

section Sessions

variable {own : UInt64 → Prop} {M : Machine} {stack : UInt64} (ha : M.Apart own stack)
  (ho : M.Obeys own stack) {font : Nat → UInt8} {width height : UInt32}
  (hgeo : Geometry width height) {prog : Program own}
  {c : Cpu} (hcalls : Talks prog (view own c)) {d : Terminal} {first : List UInt8}
  {y : Mode × Terminal}

include ha ho hgeo hcalls

/-- The screen of a running program. -/
theorem observed_of_session (hsegments : InUser c) (hflags : UserFlags c.rflags)
    (hconf : Configured M.k M.labels M.info stack M.regs c.st.mem) (horder : M.inOrder c.st.mem)
    (hd : d.Shows font width height first)
    (hr : ReflTransGen (Session M prog font) (.user c, d) y) :
    Observed M prog stack font width height first (view own c) y := by
  refine Observed.run ha ho hgeo hcalls ⟨view own c, [], ?_, .refl, ?_⟩ hr
  · exact .user ⟨rfl, hsegments, hflags, hconf, horder⟩
  · rw [List.flatMap_nil, List.append_nil]
    exact hd

theorem session_shows (hsegments : InUser c) (hflags : UserFlags c.rflags)
    (hconf : Configured M.k M.labels M.info stack M.regs c.st.mem) (horder : M.inOrder c.st.mem)
    (hd : d.Shows font width height first)
    (hr : ReflTransGen (Session M prog font) (.user c, d) y) :
    ∃ (log : List Entry) (v : View own),
      ShowsTail font width.toNat height.toNat (first ++ log.flatMap Entry.text) y.2.pixels ∧
      ReflTransGen (Talk prog) (view own c, []) (v, log.filterMap Entry.said?) ∧
      (y.1 = .halted ∨ ∃ c', y.1.Back M c' ∧ view own c' = v) := by
  obtain ⟨v, log, h⟩ := observed_of_session ha ho hgeo hcalls hsegments hflags hconf horder hd hr
  refine ⟨log, v, h.screen.showsTail hgeo, h.talk, ?_⟩
  obtain ⟨mode, d'⟩ := y
  cases h.machine with
  | user hrun => exact .inr ⟨_, rfl, hrun.sees⟩
  | resume hint =>
      obtain ⟨c', hback, hrun⟩ := hint.iretq
      exact .inr ⟨c', hback, hrun.sees⟩
  | halted => exact .inl rfl

end Sessions

/-! ## from the kernel's start on -/

section Start

variable {own : UInt64 → Prop} {M : Machine} {stack : UInt64} {font : Nat → UInt8}
  {width height : UInt32}

end Start

/-! ## a sample -/

section Sample

/-- It goes ahead, or asks for a number to be printed. -/
def sampleTalker : Program sampleOwn where
  asks v := v.regs rdi = 1
  instr v v' := v' = { v with rip := v.rip + 1, regs := Function.update v.regs rdi 1 }
  flags := by
    rintro v _ rfl h
    exact h

theorem talks_sampleTalker (v₀ : View sampleOwn) : Talks sampleTalker v₀ :=
  fun _ _ _ h => ⟨_, .value h⟩

theorem geometry_sample : Geometry 640 480 := ⟨by decide, by decide, by decide⟩

/-- An APIC that has just been reset. -/
def sampleLapic : Lapic where
  svr := 0xFF
  tpr := 0
  timer := 0x10000
  initial := 0
  current := 0
  irr _ := false
  isr _ := false
  requests := 0

/-- The driver has found its registers in memory. -/
theorem memory_of_base {lapic : LapicMode} (h : lapic.base = 0xFEE00000) :
    lapic = .memory 0xFEE00000 := by
  cases lapic with
  | none => exact absurd h (by decide)
  | memory lapicBase => exact congrArg LapicMode.memory h
  | x2apic => exact absurd h (by decide)

/-- An empty screen. -/
def sampleTerminal : Terminal where
  statics := { width := 640, posX := 0, posY := 0, maxX := 640 / 8, maxY := 480 / 16 }
  pixels _ := 0

/-- The kernel has been set up, and the program has been started. -/
theorem exists_sampleUser : ∃ regs c, InUser c ∧ UserFlags c.rflags ∧
    Configured sampleStatics sampleLabels sampleInfo 0x917000 regs c.st.mem := by
  obtain ⟨b', -, ⟨hon, -⟩, hconf⟩ : ∃ b', sampleBoot.run sampleStatics sampleLabels sampleInfo
      sampleInfo.tlsBuffer (.start 0x917000 :: kernelStart fun _ m => m) = some b' ∧
        b'.Ready sampleStatics ∧
        Configured sampleStatics sampleLabels sampleInfo 0x917000 b'.regs b'.mem :=
    boot_finished apart_sampleStatics counts_sampleInfo placed_sampleInfo
      (walk_tls counts_sampleInfo placed_sampleInfo fun _ => 0) (fun _ _ _ _ _ => rfl)
      (b := sampleBoot) gdtLoaded_sampleMemory
  obtain ⟨c, -, -, -, hc⟩ := userJump_running
    (M := sampleMachine b'.regs) (c := sampleCpu b') hconf hon (stack_sampleCpu b')
  exact ⟨b'.regs, c, hc⟩

theorem shows_sampleTerminal : sampleTerminal.Shows (fun _ => 0) 640 480 [] :=
  Framebuffer.shown_nil geometry_sample _ fun _ _ => rfl

end Sample

end UefiKernel.KernelEntry
