import UefiKernel.KernelEntry.Stubs

/-!
# UefiKernel.KernelEntry.Transparent

Where the entry stubs are transparent, and agree with the user's wrappers.

Whatever the wrapper has loaded arrives as the arguments of `do_syscall_entry`,
and the user gets back every register that the wrapper does not declare to be
changed; an interrupted program gets back all of them.  The C functions may do
anything that the System V calling convention allows.

The convention asks for a stack that is aligned to 16 bytes at the call, and
promises nothing without it.  So a stub is transparent exactly if it calls on such
a stack (`stubs_transparent_iff`): behind the five quadwords of an interrupt frame
it does, behind the error code of a page fault it does not.
-/

namespace UefiKernel.KernelEntry

open X64 Reg

/-- What a wrapper can rely on, about the calls made and the state at `sysretq`. -/
structure BackToUser (fn : Functions Symbol) (w : Asm) (args : List UInt64) (s : State)
    (next rflags : UInt64) (calls : List (Symbol × State)) (s' : State) : Prop where
  called : ∃ s₁ s₂, calls = [(.doSyscallEntry, s₁)] ∧ args <+: sysvArgs s₁ ∧
    fn .doSyscallEntry s₁ s₂ ∧ s'.regs w.output = s₂.regs rax
  resumes : s'.regs rcx = next ∧ s'.regs r11 = rflags
  kept : ∀ r, r ∉ w.output :: w.clobbers → s'.regs r = s.regs r

/-- What an interrupted program can rely on at `iretq`: the registers, and the
five quadwords of the frame that the stack pointer is at. -/
structure BackToInterrupted (s : State) (errorCode : UInt64) (s' : State) : Prop where
  kept : ∀ r, r ≠ rsp → s'.regs r = s.regs r
  rsp_eq : s'.regs rsp = s.regs rsp + errorCode
  frame_eq : ∀ x, InBlock (s'.regs rsp) 40 x → s'.mem x = s.mem x

/-- The two variables and the stack do not overlap. -/
structure StackVars.Placed (vars : StackVars) (m : Memory) : Prop where
  apart : ∀ x, InBlock vars.userStack 8 x → ¬ InBlock vars.kernelStack 8 x
  outside : ∀ x, InBlock vars.userStack 8 x → ¬ Below (load64 m vars.kernelStack) 72 x

/-! ## traps -/

/-- The registers that `SAVE_REGS` saves. -/
def volatile : List Reg := [rax, rcx, rdx, rdi, rsi, r8, r9, r10, r11]

theorem pushAll_volatile_rsp (s : State) : (s.pushAll volatile).regs rsp = s.regs rsp - 72 :=
  State.pushAll_rsp s volatile

section Trap

variable {fn : Functions Symbol} {f : Symbol} {n : Nat} {own : UInt64 → Prop} {s : State}

/-- A trap's code up to its `sti`, and what is behind it. -/
def trap (f : Symbol) (rest : List (Instr Symbol)) : List (Instr Symbol) :=
  [.cli] ++ saveRegs ++ [.call f] ++ restoreRegs ++ ([.sti] ++ rest)

theorem timerApic_eq : timerApic = trap .apicHandler [] := rfl

theorem pagefaultTrap_eq : pagefaultTrap = trap .pageFaultHandler [.addImm 8 rsp] := rfl

/-- The state in which a trap's function begins. -/
def trapCall (s : State) (ret : UInt64) : State :=
  (({ s with intr := false } : State).pushAll volatile).push ret

theorem trapCall_rsp (s : State) (ret : UInt64) :
    (trapCall s ret).regs rsp + 8 = s.regs rsp - 72 :=
  (push_rsp_add_eight ..).trans (pushAll_volatile_rsp _)

theorem trapCall_intr (s : State) (ret : UInt64) : (trapCall s ret).intr = false :=
  (State.push_intr ..).trans (State.pushAll_intr ..)

theorem trapCall_mem (s : State) (ret : UInt64) {x : UInt64} (hx : ¬ Below (s.regs rsp) 80 x) :
    (trapCall s ret).mem x = s.mem x := by
  have h72 : (72 : UInt64) = UInt64.ofNat 72 := rfl
  rw [trapCall, State.push_mem_of_not_below]
  · refine State.pushAll_mem_of_not_below _ (by decide) fun hlow => hx ?_
    exact Nat.lt_of_lt_of_le hlow (by decide)
  · rw [pushAll_volatile_rsp, h72, below_sub (by decide)]
    exact fun hlow => hx hlow.1

/-- A trap calls its function once, and goes on behind the call. -/
theorem exec_trap_call {rest : List (Instr Symbol)} {s' : State} {calls : List (Symbol × State)}
    (hexec : Exec fn (trap f rest) s calls s') :
    ∃ ret u calls, fn f (trapCall s ret) u ∧
      Exec fn rest { u.popAll volatile.reverse with intr := true } calls s' := by
  have hcode : trap f rest = [.cli] ++ (volatile.map .push ++ ([.call f] ++
      (volatile.reverse.map .pop ++ ([.sti] ++ rest)))) := rfl
  rw [hcode] at hexec
  obtain ⟨_, _, _, -, hcli, hexec⟩ := exec_append.mp hexec
  obtain ⟨_, _, _, -, hpush, hexec⟩ := exec_append.mp hexec
  obtain ⟨_, _, u, -, hcall, hexec⟩ := exec_append.mp hexec
  obtain ⟨_, _, _, -, hpop, hexec⟩ := exec_append.mp hexec
  obtain ⟨_, _, _, -, hsti, hrest⟩ := exec_append.mp hexec
  obtain ⟨-, rfl⟩ := exec_single.mp hcli
  obtain ⟨-, rfl⟩ := exec_push.mp hpush
  obtain ⟨ret, -, hf⟩ := exec_single.mp hcall
  obtain ⟨-, rfl⟩ := exec_pop.mp hpop
  obtain ⟨-, rfl⟩ := exec_single.mp hsti
  exact ⟨ret, u, _, hf, hrest⟩

section Kept

variable {pre : State → Prop} (h : Keeps pre (72 + n) own (fn f))
  (hpre : ∀ ret, pre (trapCall s ret))

include h hpre

/-- The part that both traps share. -/
theorem exec_trap (hn : 80 + n ≤ 2 ^ 64) {rest : List (Instr Symbol)} {s' : State}
    {calls : List (Symbol × State)} (hexec : Exec fn (trap f rest) s calls s') :
    ∃ u calls, Exec fn rest u calls s' ∧ u.intr = true ∧ (∀ r, u.regs r = s.regs r) ∧
      (∀ x, InBlock (s.regs rsp) n x → u.mem x = s.mem x) ∧
      (∀ x, own x → ¬ Below (s.regs rsp) 80 x → u.mem x = s.mem x) ∧
      ∃ ret t, fn f (trapCall s ret) t ∧ u.mem = t.mem := by
  obtain ⟨ret, u, _, hf, hrest⟩ := exec_trap_call hexec
  obtain ⟨hregs, hrsp, hother, hsaved, hframe, hown⟩ := h.call_restore (hpre ret)
    (by decide : volatile.Nodup) (by decide) rfl (by omega) rfl rfl hf
  refine ⟨_, _, hrest, rfl, fun r => ?_, hframe, hown, ret, u, hf, State.popAll_mem ..⟩
  by_cases hr : r ∈ volatile
  · exact hregs r hr
  · by_cases hr' : r = rsp
    · rw [hr']
      exact hrsp
    · have hcallee : r ∈ calleeSaved := by
        revert hr hr'
        cases r <;> decide
      exact (hother r hr hr').trans
        ((hsaved r hcallee).trans (State.pushAll_regs_of_ne hr' _ _))

end Kept

/-- The page fault's stub: the frame has the error code and five quadwords. -/
theorem exec_pagefaultTrap {pre : State → Prop} (h : Keeps pre 120 own (fn .pageFaultHandler))
    (hpre : ∀ ret, pre (trapCall s ret)) {s' : State} {calls : List (Symbol × State)}
    (hexec : Exec fn pagefaultTrap s calls s') : BackToInterrupted s 8 s' := by
  rw [pagefaultTrap_eq] at hexec
  obtain ⟨u, _, hadd, -, hregs, hframe, -⟩ := exec_trap (n := 48) h hpre (by decide) hexec
  obtain ⟨-, rfl⟩ := exec_single.mp hadd
  refine ⟨?_, ?_, ?_⟩
  · intro r hr
    rw [State.set_regs_of_ne _ hr]
    exact hregs r
  · rw [State.set_regs_self, hregs rsp]
  · intro x hx
    rw [State.set_regs_self, hregs rsp] at hx
    have ha := (s.regs rsp).toNat_lt
    have hxlt := x.toNat_lt
    have h8 : (8 : UInt64).toNat = 8 := rfl
    refine hframe x ?_
    simp only [InBlock, UInt64.toNat_sub, UInt64.toNat_add, h8] at hx ⊢
    omega

/-- The timer's stub: the frame has five quadwords. -/
theorem exec_timerApic {pre : State → Prop} (h : Keeps pre 112 own (fn .apicHandler))
    (hpre : ∀ ret, pre (trapCall s ret)) {s' : State} {calls : List (Symbol × State)}
    (hexec : Exec fn timerApic s calls s') : BackToInterrupted s 0 s' := by
  rw [timerApic_eq] at hexec
  obtain ⟨u, _, ⟨-, rfl⟩, -, hregs, hframe, -⟩ := exec_trap (n := 40) h hpre (by decide) hexec
  refine ⟨fun r _ => hregs r, ?_, ?_⟩
  · rw [UInt64.add_zero]
    exact hregs rsp
  · intro x hx
    rw [hregs rsp] at hx
    exact hframe x hx

/-- A trap comes to its end if its function does. -/
theorem exists_exec_trap (h : ∃ u, fn f (trapCall s 0) u) {rest : List (Instr Symbol)}
    (hrest : ∀ i ∈ rest, i.isCall = false) : ∃ calls s', Exec fn (trap f rest) s calls s' := by
  have hcode : trap f rest = ([.cli] ++ volatile.map .push) ++ ([.call f] ++
      (volatile.reverse.map .pop ++ ([.sti] ++ rest))) := rfl
  rw [hcode]
  refine exists_exec_call (by decide) ?_ ?_
  · intro i hi
    simp only [List.mem_append] at hi
    rcases hi with hi | hi | hi
    · revert hi
      revert i
      decide
    · obtain rfl := List.mem_singleton.mp hi
      rfl
    · exact hrest i hi
  · intro t ht
    obtain ⟨_, _, _, -, hcli, hpush⟩ := exec_append.mp ht
    obtain ⟨-, rfl⟩ := exec_single.mp hcli
    obtain ⟨-, rfl⟩ := exec_push.mp hpush
    exact h

end Trap

/-! ## system calls -/

/-- The registers that `syscall_entry` saves. -/
def syscallSaved : List Reg := [rcx, r11, rdi, rsi, rdx, r8, r9, r10]

theorem pushAll_syscallSaved_rsp (s : State) :
    (s.pushAll syscallSaved).regs rsp = s.regs rsp - 64 :=
  State.pushAll_rsp s syscallSaved

/-- The wrapper's arguments are where the convention for system calls has them. -/
theorem Wrapper.args_prefix {w : Asm} {args : List UInt64} (hw : Wrapper w args) {s s₁ : State}
    (hloaded : w.Loaded s) (hregs : ∀ r, r ∈ [rdi, rsi, rdx, r8, r9] → s₁.regs r = s.regs r)
    (hrcx : s₁.regs rcx = s.regs r10) : args <+: sysvArgs s₁ := by
  have hargs : sysvArgs s₁ = [rdi, rsi, rdx, r10, r8, r9].map s.regs := by
    simp [sysvArgs, hregs, hrcx]
  rw [hargs]
  cases hw <;> simp_all [Asm.Loaded, KernelEntry.syscall0, KernelEntry.syscall1,
    KernelEntry.syscall2, KernelEntry.syscall3, KernelEntry.syscall4, KernelEntry.syscall5,
    syscallAsm]

theorem Wrapper.outputs {w : Asm} {args : List UInt64} (hw : Wrapper w args) :
    w.output = rax ∧ w.clobbers = [rcx, r11] := by
  cases hw <;> exact ⟨rfl, rfl⟩

/-- `syscall_entry` up to the call. -/
def syscallEnter (vars : StackVars) : List (Instr Symbol) :=
  [.store rsp vars.userStack, .load vars.kernelStack rsp] ++
    (syscallSaved.map .push ++ [.mov r10 rcx])

/-- `syscall_entry` after the call. -/
def syscallLeave (vars : StackVars) : List (Instr Symbol) :=
  syscallSaved.reverse.map .pop ++ [.load vars.userStack rsp]

theorem syscallEntry_eq (vars : StackVars) :
    syscallEntry vars = syscallEnter vars ++ ([.call .doSyscallEntry] ++ syscallLeave vars) := rfl

section Syscall

variable {fn : Functions Symbol} {vars : StackVars} {w : Asm} {args : List UInt64} {s : State}
  {next rflags : UInt64} {calls : List (Symbol × State)}

/-- The state in which `do_syscall_entry` is called: the saved registers are on
the kernel's stack, over a state `s₂` that differs from the interrupted one in
the stack pointer and in `user_stack`. -/
theorem exec_syscallEnter (hplaced : vars.Placed s.mem) {t : State}
    (hexec : Exec fn (syscallEnter vars) (syscall next rflags s) calls t) :
    ∃ s₂ : State, calls = [] ∧ t = (s₂.pushAll syscallSaved).set rcx (s.regs r10) ∧
      s₂.regs rsp = load64 s.mem vars.kernelStack ∧
      load64 s₂.mem vars.userStack = s.regs rsp ∧
      (∀ r, r ≠ rsp → s₂.regs r = (syscall next rflags s).regs r) ∧ s₂.intr = false ∧
      ∀ x, ¬ InBlock vars.userStack 8 x → s₂.mem x = s.mem x := by
  obtain ⟨_, _, s₂, rfl, hstack, hexec⟩ := exec_append.mp hexec
  obtain ⟨_, _, s₃, rfl, hpush, hmov⟩ := exec_append.mp hexec
  obtain ⟨_, _, s₁, rfl, ⟨rfl, hs₁⟩, hload⟩ := hstack
  obtain ⟨rfl, hs₂⟩ := exec_single.mp hload
  obtain ⟨rfl, rfl⟩ := exec_push.mp hpush
  obtain ⟨rfl, ht⟩ := exec_single.mp hmov
  have hregs : ∀ r, r ≠ rsp → s₂.regs r = (syscall next rflags s).regs r := by
    intro r hr
    rw [hs₂, State.set_regs_of_ne _ hr, hs₁]
  refine ⟨s₂, rfl, ?_, ?_, ?_, hregs, ?_, ?_⟩
  · rw [ht, State.pushAll_regs_of_ne (by decide), hregs r10 (by decide)]
    rfl
  · rw [hs₂, State.set_regs_self, hs₁]
    refine load64_congr fun x hx => ?_
    exact store64_of_not_inBlock fun hx' => hplaced.apart x hx' hx
  · rw [hs₂, State.set_mem, hs₁]
    exact load64_store64 ..
  · rw [hs₂, hs₁]
    rfl
  · intro x hx
    rw [hs₂, State.set_mem, hs₁]
    exact store64_of_not_inBlock hx

/-- `do_syscall_entry` begins on the kernel's stack. -/
theorem exec_syscallEnter_rsp (hplaced : vars.Placed s.mem) {t : State}
    (hexec : Exec fn (syscallEnter vars) (syscall next rflags s) calls t) (ret : UInt64) :
    (t.push ret).regs rsp + 8 = load64 s.mem vars.kernelStack - 64 := by
  obtain ⟨s₂, -, ht, hkernel, -⟩ := exec_syscallEnter hplaced hexec
  rw [push_rsp_add_eight, ht, State.set_regs_of_ne _ (by decide), pushAll_syscallSaved_rsp, hkernel]

theorem exec_syscallEnter_intr (hplaced : vars.Placed s.mem) {t : State}
    (hexec : Exec fn (syscallEnter vars) (syscall next rflags s) calls t) (ret : UInt64) :
    (t.push ret).intr = false := by
  obtain ⟨s₂, -, ht, -, -, -, hintr, -⟩ := exec_syscallEnter hplaced hexec
  rw [State.push_intr, ht]
  exact (State.pushAll_intr ..).trans hintr

/-- And only that stack and `user_stack` have been written to. -/
theorem exec_syscallEnter_mem (hplaced : vars.Placed s.mem) {t : State}
    (hexec : Exec fn (syscallEnter vars) (syscall next rflags s) calls t) (ret : UInt64)
    {x : UInt64} (hstack : ¬ Below (load64 s.mem vars.kernelStack) 72 x)
    (hvar : ¬ InBlock vars.userStack 8 x) : (t.push ret).mem x = s.mem x := by
  obtain ⟨s₂, -, ht, hkernel, -, -, -, hmem⟩ := exec_syscallEnter hplaced hexec
  have h64 : (64 : UInt64) = UInt64.ofNat 64 := rfl
  have htrsp : t.regs rsp = load64 s.mem vars.kernelStack - 64 := by
    rw [ht, State.set_regs_of_ne _ (by decide), pushAll_syscallSaved_rsp, hkernel]
  have hcalled : ¬ Below (t.regs rsp) 8 x := by
    rw [htrsp, h64, below_sub (by decide)]
    exact fun hlow => hstack hlow.1
  have hpushed : ¬ Below (s₂.regs rsp) 64 x := by
    rw [hkernel]
    exact fun hlow => hstack (Nat.lt_of_lt_of_le hlow (by decide))
  have hsaved : (s₂.pushAll syscallSaved).mem x = s₂.mem x :=
    State.pushAll_mem_of_not_below s₂ (by decide) hpushed
  rw [State.push_mem_of_not_below t ret hcalled, ht, State.set_mem, hsaved, hmem x hvar]

theorem syscall_regs_of_ne (next rflags : UInt64) (s : State) {r : Reg} (hr : r ≠ rcx)
    (hr' : r ≠ r11) : (syscall next rflags s).regs r = s.regs r :=
  (State.set_regs_of_ne _ hr' _).trans (State.set_regs_of_ne s hr _)

theorem exec_syscallEnter_regs (hplaced : vars.Placed s.mem) {t : State}
    (hexec : Exec fn (syscallEnter vars) (syscall next rflags s) calls t) {r : Reg} (hr : r ≠ rsp)
    (hr' : r ≠ rcx) : t.regs r = (syscall next rflags s).regs r := by
  obtain ⟨s₂, -, ht, -, -, hs₂, -⟩ := exec_syscallEnter hplaced hexec
  rw [ht, State.set_regs_of_ne _ hr', State.pushAll_regs_of_ne hr, hs₂ r hr]

/-- `do_syscall_entry` is called with what the wrapper was given. -/
theorem exec_syscallEnter_args (hplaced : vars.Placed s.mem) (hw : Wrapper w args)
    (hloaded : w.Loaded s) {t : State}
    (hexec : Exec fn (syscallEnter vars) (syscall next rflags s) calls t) (ret : UInt64) :
    args <+: sysvArgs (t.push ret) := by
  refine hw.args_prefix hloaded ?_ ?_
  · intro r hr
    have hne : r ≠ rsp ∧ r ≠ rcx ∧ r ≠ r11 := by
      revert hr
      cases r <;> decide
    rw [State.push_regs_of_ne t hne.1, exec_syscallEnter_regs hplaced hexec hne.1 hne.2.1,
      syscall_regs_of_ne _ _ _ hne.2.1 hne.2.2]
  · obtain ⟨s₂, -, ht, -⟩ := exec_syscallEnter hplaced hexec
    rw [State.push_regs_of_ne t (by decide), ht, State.set_regs_self]

/-- `syscall_entry` calls once, between its two parts. -/
theorem exec_syscallEntry_call {σ s' : State} (hexec : Exec fn (syscallEntry vars) σ calls s') :
    ∃ t ret u, Exec fn (syscallEnter vars) σ [] t ∧ calls = [(.doSyscallEntry, t.push ret)] ∧
      fn .doSyscallEntry (t.push ret) u ∧
      s' = (u.popAll syscallSaved.reverse).set rsp
        (load64 (u.popAll syscallSaved.reverse).mem vars.userStack) := by
  have hnoCalls : ∀ {c : List (Symbol × State)} {t : State},
      Exec fn (syscallEnter vars) σ c t → c = [] := by
    intro c t henter
    obtain ⟨_, _, _, rfl, hstack, hexec⟩ := exec_append.mp henter
    obtain ⟨_, _, _, rfl, hpush, hmov⟩ := exec_append.mp hexec
    obtain ⟨_, _, _, rfl, ⟨rfl, -⟩, hload⟩ := hstack
    obtain ⟨rfl, -⟩ := exec_single.mp hload
    obtain ⟨rfl, -⟩ := exec_push.mp hpush
    obtain ⟨rfl, -⟩ := exec_single.mp hmov
    rfl
  rw [syscallEntry_eq] at hexec
  obtain ⟨_, _, t, rfl, henter, hexec⟩ := exec_append.mp hexec
  obtain ⟨_, _, u, rfl, hcall, hleave⟩ := exec_append.mp hexec
  obtain ⟨_, _, _, rfl, hpop, hback⟩ := exec_append.mp hleave
  obtain rfl := hnoCalls henter
  obtain ⟨ret, rfl, hf⟩ := exec_single.mp hcall
  obtain ⟨rfl, rfl⟩ := exec_pop.mp hpop
  obtain ⟨rfl, rfl⟩ := exec_single.mp hback
  exact ⟨t, ret, u, henter, rfl, hf, rfl⟩

/-- It comes to its end if `do_syscall_entry` does. -/
theorem exists_exec_syscallEntry
    (h : ∀ t, Exec fn (syscallEnter vars) (syscall next rflags s) [] t →
      ∃ u, fn .doSyscallEntry (t.push 0) u) :
    ∃ calls s', Exec fn (syscallEntry vars) (syscall next rflags s) calls s' := by
  rw [syscallEntry_eq]
  exact exists_exec_call (by simp [syscallEnter, syscallSaved, Instr.isCall])
    (by simp [syscallLeave, syscallSaved, Instr.isCall]) h

variable {pre : State → Prop} {own : UInt64 → Prop} (hplaced : vars.Placed s.mem)
  (h : Keeps pre 64 own (fn .doSyscallEntry))
  (hpre : ∀ t ret, Exec fn (syscallEnter vars) (syscall next rflags s) [] t → pre (t.push ret))

include hplaced h hpre

/-- `syscall_entry`, from the `syscall` instruction of a wrapper. -/
theorem exec_syscallEntry (hown : ∀ x, InBlock vars.userStack 8 x → own x) (hw : Wrapper w args)
    (hloaded : w.Loaded s) {s' : State}
    (hexec : Exec fn (syscallEntry vars) (syscall next rflags s) calls s') :
    BackToUser fn w args s next rflags calls s' := by
  obtain ⟨t, ret, u, henter, rfl, hf, rfl⟩ := exec_syscallEntry_call hexec
  obtain ⟨s₂, -, ht, hkernel, huser, hs₂, -⟩ := exec_syscallEnter hplaced henter
  have hrsp : t.regs rsp = (s₂.pushAll syscallSaved).regs rsp := by
    rw [ht, State.set_regs_of_ne _ (by decide)]
  have hmem : t.mem = (s₂.pushAll syscallSaved).mem := by rw [ht, State.set_mem]
  obtain ⟨hregs, -, hother, hsaved, -, hkept⟩ := h.call_restore (n := 0) (hpre t ret henter)
    (by decide : syscallSaved.Nodup) (by decide) rfl (by decide) hrsp hmem hf
  -- `user_stack` has kept the user's stack pointer
  have hstack : load64 (u.popAll syscallSaved.reverse).mem vars.userStack = s.regs rsp := by
    rw [← huser]
    refine load64_congr fun x hx => hkept x (hown x hx) ?_
    rw [hkernel]
    exact hplaced.outside x hx
  obtain ⟨houtput, hclobbers⟩ := hw.outputs
  have hargs := exec_syscallEnter_args hplaced hw hloaded henter ret
  refine ⟨⟨_, u, rfl, hargs, hf, ?_⟩, ⟨?_, ?_⟩, ?_⟩
  · rw [houtput, State.set_regs_of_ne _ (by decide)]
    exact hother rax (by decide) (by decide)
  · rw [State.set_regs_of_ne _ (by decide), hregs rcx (by decide), hs₂ _ (by decide)]
    rfl
  · rw [State.set_regs_of_ne _ (by decide), hregs r11 (by decide), hs₂ _ (by decide)]
    rfl
  · intro r hr
    rw [houtput, hclobbers] at hr
    have hrcx : r ≠ rcx := fun heq => hr (by simp [heq])
    have hr11 : r ≠ r11 := fun heq => hr (by simp [heq])
    by_cases heq : r = rsp
    · rw [heq, State.set_regs_self, hstack]
    · rw [State.set_regs_of_ne _ heq, ← syscall_regs_of_ne next rflags s hrcx hr11]
      by_cases hin : r ∈ syscallSaved
      · rw [hregs r hin, hs₂ r heq]
      · have hcallee : r ∈ calleeSaved := by
          revert hr hin heq
          cases r <;> decide
        rw [hother r hin heq, hsaved r hcallee, exec_syscallEnter_regs hplaced henter heq hrcx]

/-- What `do_syscall_entry` keeps, `syscall_entry` keeps. -/
theorem exec_syscallEntry_mem {s' : State}
    (hexec : Exec fn (syscallEntry vars) (syscall next rflags s) calls s') {x : UInt64}
    (hx : own x) (hstack : ¬ Below (load64 s.mem vars.kernelStack) 72 x)
    (hvar : ¬ InBlock vars.userStack 8 x) : s'.mem x = s.mem x := by
  obtain ⟨t, ret, u, henter, -, hf, rfl⟩ := exec_syscallEntry_call hexec
  rw [State.set_mem, State.popAll_mem, h.own_eq _ _ (hpre t ret henter) hf x hx]
  exact exec_syscallEnter_mem hplaced henter ret hstack hvar

end Syscall

/-! ## exactly when -/

/-- A C function that returns 0 and changes the registers it may change.  It needs
the alignment that it may rely on, as one does that saves an SSE register. -/
def returnsZero : Functions Symbol := fun _ s s' =>
  let regs := fun r => if r = rsp then s.regs rsp + 8 else if r ∈ calleeSaved then s.regs r else 0
  Aligned (s.regs rsp + 8) ∧ s' = { s with regs }

theorem sysV_returnsZero (sp : UInt64) (frame : Nat) (own : UInt64 → Prop) (f : Symbol) :
    SysV sp frame own (returnsZero f) where
  returns s hs := ⟨_, hs.rsp_eq ▸ hs.aligned, rfl⟩
  rsp_eq := by
    rintro s _ - ⟨-, rfl⟩
    rfl
  regs_eq := by
    rintro s _ - ⟨-, rfl⟩ r hr
    have hne : r ≠ rsp := by
      rintro rfl
      revert hr
      decide
    simp [hne, hr]
  frame_eq := by
    rintro s _ - ⟨-, rfl⟩ x -
    rfl
  own_eq := by
    rintro s _ - ⟨-, rfl⟩ x -
    rfl

/-- `syscall_entry` comes to its end and is transparent, whatever function that
obeys the calling convention `do_syscall_entry` is. -/
def SyscallTransparent (vars : StackVars) (w : Asm) (args : List UInt64) (next rflags : UInt64)
    (s : State) : Prop :=
  ∀ fn : Functions Symbol,
    SysV (load64 s.mem vars.kernelStack - 64) 64 (InBlock vars.userStack 8)
      (fn .doSyscallEntry) →
    (∃ calls s', Exec fn (syscallEntry vars) (syscall next rflags s) calls s') ∧
    ∀ calls s', Exec fn (syscallEntry vars) (syscall next rflags s) calls s' →
      BackToUser fn w args s next rflags calls s'

/-- So is `pagefault_trap`, from its first instruction on. -/
def FaultTransparent (s : State) : Prop :=
  ∀ fn : Functions Symbol, SysV (s.regs rsp - 72) 120 (fun _ => False) (fn .pageFaultHandler) →
    (∃ calls s', Exec fn pagefaultTrap s calls s') ∧
    ∀ calls s', Exec fn pagefaultTrap s calls s' → BackToInterrupted s 8 s'

/-- And `timer_apic`. -/
def TimerTransparent (s : State) : Prop :=
  ∀ fn : Functions Symbol, SysV (s.regs rsp - 72) 112 (fun _ => False) (fn .apicHandler) →
    (∃ calls s', Exec fn timerApic s calls s') ∧
    ∀ calls s', Exec fn timerApic s calls s' → BackToInterrupted s 0 s'

theorem syscallTransparent_iff {vars : StackVars} {w : Asm} {args : List UInt64}
    {next rflags : UInt64} {s : State} (hw : Wrapper w args) (hloaded : w.Loaded s)
    (hplaced : vars.Placed s.mem) :
    SyscallTransparent vars w args next rflags s ↔ Aligned (load64 s.mem vars.kernelStack) := by
  have hpushed : Aligned (load64 s.mem vars.kernelStack - 64) ↔
      Aligned (load64 s.mem vars.kernelStack) := aligned_sub (n := 64) rfl
  rw [← hpushed]
  constructor
  · intro h
    obtain ⟨⟨calls, s', hexec⟩, -⟩ := h returnsZero (sysV_returnsZero ..)
    obtain ⟨t, ret, u, henter, -, ⟨haligned, -⟩, -⟩ := exec_syscallEntry_call hexec
    rwa [exec_syscallEnter_rsp hplaced henter] at haligned
  · intro haligned fn h
    have hpre : ∀ t ret, Exec fn (syscallEnter vars) (syscall next rflags s) [] t →
        CalledAt (load64 s.mem vars.kernelStack - 64) (t.push ret) :=
      fun t ret henter => ⟨exec_syscallEnter_rsp hplaced henter ret, haligned⟩
    refine ⟨exists_exec_syscallEntry fun t henter => h.returns _ (hpre t 0 henter), ?_⟩
    exact fun _ _ => exec_syscallEntry hplaced h.toKeeps hpre (fun _ hx => hx) hw hloaded

section Traps

variable {s : State}

/-- The call of a trap that has an aligned stack. -/
theorem calledAt_trapCall (h : Aligned (s.regs rsp - 72)) (ret : UInt64) :
    CalledAt (s.regs rsp - 72) (trapCall s ret) := ⟨trapCall_rsp s ret, h⟩

/-- A trap whose function needs the alignment does not go on without it. -/
theorem aligned_of_exec_trap {f : Symbol} {rest : List (Instr Symbol)} {s' : State}
    {calls : List (Symbol × State)} (hexec : Exec returnsZero (trap f rest) s calls s') :
    Aligned (s.regs rsp - 72) := by
  obtain ⟨ret, u, _, ⟨haligned, -⟩, -⟩ := exec_trap_call hexec
  rwa [trapCall_rsp] at haligned

theorem faultTransparent_iff : FaultTransparent s ↔ Aligned (s.regs rsp - 72) := by
  constructor
  · intro h
    obtain ⟨⟨calls, s', hexec⟩, -⟩ := h returnsZero (sysV_returnsZero ..)
    rw [pagefaultTrap_eq] at hexec
    exact aligned_of_exec_trap hexec
  · intro haligned fn h
    have hcall := calledAt_trapCall haligned
    refine ⟨?_, fun _ _ => exec_pagefaultTrap h.toKeeps hcall⟩
    rw [pagefaultTrap_eq]
    exact exists_exec_trap (h.returns _ (hcall 0)) (by decide)

theorem timerTransparent_iff : TimerTransparent s ↔ Aligned (s.regs rsp - 72) := by
  constructor
  · intro h
    obtain ⟨⟨calls, s', hexec⟩, -⟩ := h returnsZero (sysV_returnsZero ..)
    rw [timerApic_eq] at hexec
    exact aligned_of_exec_trap hexec
  · intro haligned fn h
    have hcall := calledAt_trapCall haligned
    refine ⟨?_, fun _ _ => exec_timerApic h.toKeeps hcall⟩
    rw [timerApic_eq]
    exact exists_exec_trap (h.returns _ (hcall 0)) (by decide)

/-- The frame of an interrupt is pushed from an aligned address.  Five quadwords
make the timer's call an aligned one; with an error code in front of them, that of
the page fault never is. -/
theorem transparent_behind_frame {top : UInt64} (htop : Aligned top) :
    (s.regs rsp = top - 40 → TimerTransparent s) ∧
    (s.regs rsp = top - 48 → ¬ FaultTransparent s) := by
  have hlt := top.toNat_lt
  have h40 : (40 : UInt64).toNat = 40 := rfl
  have h48 : (48 : UInt64).toNat = 48 := rfl
  have h72 : (72 : UInt64).toNat = 72 := rfl
  simp only [Aligned] at htop
  rw [timerTransparent_iff, faultTransparent_iff]
  constructor
  · intro hrsp
    simp only [Aligned, hrsp, UInt64.toNat_sub, h40, h72]
    omega
  · intro hrsp
    simp only [Aligned, hrsp, UInt64.toNat_sub, h48, h72]
    omega

end Traps

/-- A state in which a program asks for system call 1. -/
def sampleState : State :=
  ⟨fun r => if r = rdi then 1 else if r = rsi then 42 else if r = rsp then 0x5000 else 7,
    fun _ => 0, true⟩

/-- The variables at 0x1000 and 0x2000, the kernel's stack at the top. -/
def sampleVars : StackVars := ⟨0x1000, 0x2000⟩

theorem placed_sampleVars : sampleVars.Placed sampleState.mem where
  apart := by
    intro x h h'
    have hx := x.toNat_lt
    have h1 : (0x1000 : UInt64).toNat = 0x1000 := rfl
    have h2 : (0x2000 : UInt64).toNat = 0x2000 := rfl
    simp only [sampleVars, InBlock, UInt64.toNat_sub, h1, h2] at h h'
    omega
  outside := by
    intro x h h'
    have hx := x.toNat_lt
    have h1 : (0x1000 : UInt64).toNat = 0x1000 := rfl
    have h0 : load64 sampleState.mem sampleVars.kernelStack = 0 := rfl
    rw [h0] at h'
    simp only [sampleVars, InBlock, Below, UInt64.toNat_sub, h1, UInt64.toNat_one,
      UInt64.toNat_zero] at h h'
    omega

end UefiKernel.KernelEntry
