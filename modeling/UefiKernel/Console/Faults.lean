import UefiKernel.Console.Calls
import UefiKernel.FaultRetry
import UefiKernel.Lib.Handle

/-!
# UefiKernel.Console.Faults

What the kernel prints in its exception handlers, and what becomes of its own
reads that fault.

To the formatter a read is one event, which `Machine` answers where something is
mapped.  Below that the processor looks the address up first (`translate`), and
what it does not find goes through the kernel's own gates: `page_fault_handler`
prints, maps the last page of the user's window (`walk_pageFault`) and has the read
made again; `default_trap` prints and halts.  `underFaults` is a program with its
reads done in this way, and `World` the machine under it.

A run of `Machine` is one of the world too (`run_underFaults`), up to the first
read that it does not answer; a read of a page that is not there faults for ever,
except that of the last page.
-/

namespace UefiKernel.Console

open Interact Prog

/-! ## what the handlers print -/

/-- `printf`, with a literal for its format. -/
def printfCall (format : String) (args : List UInt64) : CharPtr × List UInt64 :=
  (.lit (bytes format), args)

/-- Of `page_fault_handler`. -/
def pageFaultHandlerCalls : List (CharPtr × List UInt64) :=
  [printfCall "Page fault has occurred. Allocating a page to the address.\n" []]

/-- Of `default_interrupt_handler`. -/
def defaultInterruptHandlerCalls (sp : UInt64) : List (CharPtr × List UInt64) :=
  [printfCall "An exception has occurred. %%rsp: %p\n" [sp]]

/-- A line with a pointer in it. -/
def pointerLine (before : String) (p : UInt64) : List UInt8 :=
  bytes before ++ (pointerText p ++ bytes "\n")

def pageFaultText : List UInt8 :=
  bytes "Page fault has occurred. Allocating a page to the address.\n"

def exceptionText (sp : UInt64) : List UInt8 := pointerLine "An exception has occurred. %rsp: " sp

/-- What `Spells` needs of a text without directives. -/
def IsPlain (text : List UInt8) : Bool := text.all fun ch => ch ≠ 0 ∧ ch ≠ '%'.toUInt8

section Meanings

variable (m : Machine)

/-- A literal without directives means itself. -/
theorem means_line (format : String) (h : IsPlain (bytes format) = true) :
    Means m (printfCall format []) (bytes format) := by
  have hspells : Spells m (bytes format ++ []) [] (bytes format ++ []) := (Spells.nil m).plain h
  rw [List.append_nil] at hspells
  refine hspells.means (List.all_eq_true.mpr fun ch hch => ?_)
  have hboth := of_decide_eq_true (List.all_eq_true.mp h ch hch)
  exact decide_eq_true hboth.1

/-- A `%p` at the end of a line. -/
theorem spells_pointer (before : List UInt8) (p : UInt64) (h : IsPlain before = true) :
    Spells m (before ++ (bytes "%p" ++ bytes "\n")) [p]
      (before ++ (pointerText p ++ bytes "\n")) := by
  have hend : Spells m (bytes "\n" ++ []) [] (bytes "\n" ++ []) := (Spells.nil m).plain (by decide)
  exact (hend.pointer p).plain h

/-- A line whose only directive is a `%p` at its end. -/
theorem means_pointerLine (format before : String) (p : UInt64)
    (hformat : bytes format = bytes before ++ (bytes "%p" ++ bytes "\n"))
    (h : IsPlain (bytes before) = true) (h0 : (bytes format).all (· ≠ 0) = true) :
    Means m (printfCall format [p]) (pointerLine before p) := by
  have hspells := spells_pointer m (bytes before) p h
  rw [← hformat] at hspells
  exact hspells.means h0

theorem means_pageFaultHandler : List.Forall₂ (Means m) pageFaultHandlerCalls [pageFaultText] :=
  .cons (means_line m _ (by decide)) .nil

/-- Here a percent sign comes before it. -/
theorem means_defaultInterruptHandler (sp : UInt64) :
    List.Forall₂ (Means m) (defaultInterruptHandlerCalls sp) [exceptionText sp] := by
  have hspells : Spells m (bytes "An exception has occurred. " ++ (bytes "%%" ++
      (bytes "rsp: " ++ (bytes "%p" ++ bytes "\n")))) [sp] (bytes "An exception has occurred. " ++
      (bytes "%" ++ (bytes "rsp: " ++ (pointerText sp ++ bytes "\n")))) :=
    (spells_pointer m _ sp (by decide)).percent.plain (by decide)
  have hformat : bytes "An exception has occurred. %%rsp: %p\n" =
      bytes "An exception has occurred. " ++ (bytes "%%" ++
        (bytes "rsp: " ++ (bytes "%p" ++ bytes "\n"))) := by decide
  have htext : bytes "An exception has occurred. %rsp: " =
      bytes "An exception has occurred. " ++ (bytes "%" ++ bytes "rsp: ") := by decide
  refine .cons ?_ .nil
  rw [exceptionText, pointerLine, htext, List.append_assoc, List.append_assoc]
  have h0 : (bytes "An exception has occurred. %%rsp: %p\n").all (· ≠ 0) = true := by decide
  rw [← hformat] at hspells
  exact hspells.means h0

end Meanings

/-! ## reads that may fault -/

instance (v : UInt64) : Decidable (Canonical v) := inferInstanceAs (Decidable (_ ∨ _))

/-- What the processor finds when it looks an address up. -/
inductive Translation
  | mapped
  | pageFault
  /-- the address is not canonical -/
  | generalProtection
  deriving DecidableEq, Repr

/-- What the formatter does, and what the handlers do besides. -/
inductive KernelEvent
  | print (e : PrintEvent)
  | translate (p : UInt64)
  /-- `page_table_init_user` with its third argument 1, and `write_cr3` -/
  | mapLastPage
  /-- `movq %rsp, %rdi` -/
  | stackPointer
  | hlt

abbrev KernelEvent.Answer : KernelEvent → Type
  | print e => e.Answer
  | translate _ => Translation
  | mapLastPage => Unit
  | stackPointer => UInt64
  | hlt => Empty

abbrev KernelM := Prog KernelEvent KernelEvent.Answer

/-- The handlers' own formats are literals, so their reads do not fault. -/
def onKernel {α : Type} (p : PrintM α) : KernelM α := embed KernelEvent.print (fun _ r => r) p

/-- `page_fault_handler`. -/
def pageFaultHandler : KernelM Unit := do
  onKernel (printAll pageFaultHandlerCalls)
  req KernelEvent.mapLastPage

/-- `default_trap`. -/
def defaultTrap : KernelM Empty := do
  let sp ← req KernelEvent.stackPointer
  onKernel (printAll (defaultInterruptHandlerCalls sp))
  req KernelEvent.hlt

/-- A read of the kernel's: behind a page fault it is made again. -/
def readByte (via : Via) (p : UInt64) : KernelM UInt8 :=
  loop (fun _ : Unit => do
    let found : Translation ← req (KernelEvent.translate p)
    match found with
    | .mapped =>
        let ch ← req (KernelEvent.print (.load via p))
        return .inr ch
    | .pageFault =>
        pageFaultHandler
        return .inl ()
    | .generalProtection =>
        let never ← defaultTrap
        return never.elim) ()

/-- What the formatter does, on the processor. -/
def carryOut (_ : Unit) : (e : PrintEvent) → KernelM (e.Answer × Unit)
  | .load via p => do
      let ch ← readByte via p
      return (ch, ())
  | .vaArg => do
      let arg ← req (KernelEvent.print .vaArg)
      return (arg, ())
  | .fn ch => do
      let _ ← req (KernelEvent.print (.fn ch))
      return ((), ())

/-- The program with its reads done in this way. -/
def underFaults {α : Type} (p : PrintM α) : KernelM α :=
  (p.handle carryOut ()).bind fun r => ret r.1

/-- A program that begins with a read. -/
theorem underFaults_load {α : Type} (via : Via) (p : UInt64) (k : UInt8 → PrintM α) :
    underFaults (call (.load via p) k) = (readByte via p).bind fun ch => underFaults (k ch) := by
  show (((readByte via p).bind fun ch => ret (ch, ())).bind _).bind _ = _
  rw [bind_assoc, bind_assoc]
  rfl

/-! ## the machine under it -/

/-- A machine with the page that the fault handler maps, and the stack pointer that
`default_trap` finds. -/
structure World extends Machine where
  extraPage : UInt64
  rsp : UInt64

/-- What has been printed, and whether the fault handler has run. -/
structure KernelTrace where
  trace : Trace := {}
  faulted : Bool := false

namespace World

variable (w : World)

/-- The machine before or after the fault handler has run. -/
def after (faulted : Bool) : Machine where
  mem p := if faulted ∧ InLastPage p then
      w.mem (w.extraPage + UInt64.ofNat (p.toNat % pageSize)) else w.mem p
  junk := w.junk

def translation (faulted : Bool) (p : UInt64) : Translation :=
  if ¬ Canonical p then .generalProtection
  else if ((w.after faulted).mem p).isSome then .mapped
  else .pageFault

def env : KernelTrace → (e : KernelEvent) → e.Answer → KernelTrace → Prop
  | s, .print e, r, s' =>
      ∃ t, (w.after s.faulted).env s.trace e r t ∧ s' = { s with trace := t }
  | s, .translate p, r, s' => r = w.translation s.faulted p ∧ s' = s
  | s, .mapLastPage, _, s' => s' = { s with faulted := true }
  | s, .stackPointer, r, s' => r = w.rsp ∧ s' = s
  | _, .hlt, never, _ => never.elim

/-- Only addresses that are canonical are mapped. -/
def MapsCanonical : Prop := ∀ p, w.mem p ≠ none → Canonical p

/-- Before the first page fault it is the machine itself. -/
@[simp] theorem after_false : w.after false = w.toMachine := by
  have hmem : (w.after false).mem = w.mem := by
    funext p
    simp only [after, Bool.false_eq_true, false_and, if_false]
  exact congrArg (fun mem => (⟨mem, w.junk⟩ : Machine)) hmem

theorem after_mem_of_not_inLastPage (faulted : Bool) {p : UInt64} (hp : ¬ InLastPage p) :
    (w.after faulted).mem p = w.mem p := if_neg fun h => hp h.2

theorem canonical_of_inLastPage {p : UInt64} (hp : InLastPage p) : Canonical p := by
  obtain ⟨hlo, -⟩ := hp
  simp only [windowBase, pageSize] at hlo
  exact .inr (by omega)

variable {w}

/-- What can be read is found. -/
theorem translation_mapped (hw : w.MapsCanonical) {faulted : Bool} {p : UInt64} {ch : UInt8}
    (hp : (w.after faulted).mem p = some ch) : w.translation faulted p = .mapped := by
  have hcan : Canonical p := by
    by_cases hlast : InLastPage p
    · exact canonical_of_inLastPage hlast
    · refine hw p ?_
      rw [← w.after_mem_of_not_inLastPage faulted hlast, hp]
      exact Option.some_ne_none ch
  rw [translation, if_neg (not_not.mpr hcan), hp]
  rfl

theorem translation_pageFault {faulted : Bool} {p : UInt64} (hcan : Canonical p)
    (hp : (w.after faulted).mem p = none) : w.translation faulted p = .pageFault := by
  rw [translation, if_neg (not_not.mpr hcan), hp]
  rfl

theorem translation_generalProtection {faulted : Bool} {p : UInt64} (hcan : ¬ Canonical p) :
    w.translation faulted p = .generalProtection := if_pos hcan

/-- An event has one answer. -/
theorem deterministic : Deterministic w.env := by
  intro s e r₁ s₁ r₂ s₂ h₁ h₂
  cases e with
  | print e =>
      obtain ⟨t₁, he₁, rfl⟩ := h₁
      obtain ⟨t₂, he₂, rfl⟩ := h₂
      obtain ⟨rfl, rfl⟩ := (w.after s.faulted).deterministic _ _ _ _ _ _ he₁ he₂
      exact ⟨rfl, rfl⟩
  | translate p =>
      obtain ⟨rfl, rfl⟩ := h₁
      obtain ⟨rfl, rfl⟩ := h₂
      exact ⟨rfl, rfl⟩
  | mapLastPage => exact ⟨rfl, h₁.trans h₂.symm⟩
  | stackPointer =>
      obtain ⟨rfl, rfl⟩ := h₁
      obtain ⟨rfl, rfl⟩ := h₂
      exact ⟨rfl, rfl⟩
  | hlt => exact r₁.elim

/-- What is printed stays printed. -/
theorem out_mono {α : Type} {s s' : KernelTrace} {p p' : KernelM α}
    (h : Run w.env (s, p) (s', p')) : s.trace.out <+: s'.trace.out := by
  refine Run.rel (R := fun s s' : KernelTrace => s.trace.out <+: s'.trace.out)
    (fun s => List.prefix_refl _) (fun h₁ h₂ => h₁.trans h₂) ?_ h
  intro s e r s' he
  cases e with
  | print e =>
      obtain ⟨t, he, rfl⟩ := he
      have hstep : Run (w.after s.faulted).env (s.trace, req e) (t, ret r) := .req he
      exact Machine.out_prefix (w.after s.faulted) hstep
  | translate p => exact he.2 ▸ List.prefix_refl _
  | mapLastPage => exact he.symm ▸ List.prefix_refl _
  | stackPointer => exact he.2 ▸ List.prefix_refl _
  | hlt => exact r.elim

/-- Two runs from one place print texts of which one continues the other. -/
theorem out_comparable {α : Type} {c : KernelTrace × KernelM α} {s₁ s₂ : KernelTrace}
    {p₁ p₂ : KernelM α} (h₁ : Run w.env c (s₁, p₁)) (h₂ : Run w.env c (s₂, p₂)) :
    s₁.trace.out <+: s₂.trace.out ∨ s₂.trace.out <+: s₁.trace.out :=
  (h₁.total deterministic h₂).imp out_mono out_mono

/-! ## runs -/

/-- A run of the formatter, where nothing faults. -/
theorem run_onKernel {α : Type} {p q : PrintM α} {g g' : Trace} {faulted : Bool}
    (h : Run (w.after faulted).env (g, p) (g', q)) :
    Run w.env (⟨g, faulted⟩, onKernel p) (⟨g', faulted⟩, onKernel q) := by
  have hprint : ∀ g e r g₁ s, (w.after faulted).env g e r g₁ → s = (⟨g, faulted⟩ : KernelTrace) →
      ∃ s', w.env s (.print e) r s' ∧ s' = ⟨g₁, faulted⟩ :=
    fun g e r g₁ s he hs => ⟨⟨g₁, faulted⟩, ⟨g₁, hs ▸ he, by rw [hs]⟩, rfl⟩
  obtain ⟨s', hr, rfl⟩ := h.simulate hprint rfl
  exact hr.embed (f := KernelEvent.print) fun _ _ r _ he => ⟨r, rfl, he⟩

/-- A read of what is mapped. -/
theorem run_readByte (hw : w.MapsCanonical) {s : KernelTrace} {p : UInt64} {ch : UInt8}
    (hp : (w.after s.faulted).mem p = some ch) (via : Via) :
    Run w.env (s, readByte via p) (s, ret ch) := by
  have hfound : w.env s (.translate p) .mapped s := ⟨(translation_mapped hw hp).symm, rfl⟩
  have hload : w.env s (.print (.load via p)) ch s := ⟨s.trace, ⟨hp, rfl⟩, rfl⟩
  exact Run.leave ((Run.req hfound).seq ((Run.req hload).seq .refl)) .refl

/-- A page fault: the handler has printed, and the read is to be made again. -/
theorem run_pageFault {s : KernelTrace} {p : UInt64}
    (hp : w.translation s.faulted p = .pageFault) (via : Via) {α : Type}
    (k : UInt8 → KernelM α) :
    Run w.env (s, (readByte via p).bind k)
      (⟨s.trace.print (pageFaultText ++ [0]), true⟩, (readByte via p).bind k) := by
  have hfound : w.env s (.translate p) .pageFault s := ⟨hp.symm, rfl⟩
  have hprint := run_printAll (means_pageFaultHandler (w.after s.faulted)) s.trace
  rw [List.flatMap_singleton] at hprint
  have hmap : w.env ⟨s.trace.print (pageFaultText ++ [0]), s.faulted⟩ .mapLastPage ()
      ⟨s.trace.print (pageFaultText ++ [0]), true⟩ := rfl
  have hhandler : Run w.env (s, pageFaultHandler)
      (⟨s.trace.print (pageFaultText ++ [0]), true⟩, ret ()) :=
    (run_onKernel hprint).seq (Run.req hmap)
  exact Run.again ((Run.req hfound).seq (hhandler.seq .refl)) .refl

/-- A general protection fault: the stack pointer is shown, and nothing else
follows. -/
theorem run_generalProtection {s : KernelTrace} {p : UInt64}
    (hp : w.translation s.faulted p = .generalProtection) (via : Via) {α : Type}
    (k : UInt8 → KernelM α) : ∃ q : KernelM α,
      Run w.env (s, (readByte via p).bind k)
        (⟨s.trace.print (exceptionText w.rsp ++ [0]), s.faulted⟩, q) := by
  have hfound : w.env s (.translate p) .generalProtection s := ⟨hp.symm, rfl⟩
  have hsp : w.env s .stackPointer w.rsp s := ⟨rfl, rfl⟩
  have hprint := run_printAll (means_defaultInterruptHandler (w.after s.faulted) w.rsp) s.trace
  rw [List.flatMap_singleton] at hprint
  have hhlt : Run w.env (⟨s.trace.print (exceptionText w.rsp ++ [0]), s.faulted⟩,
        (req KernelEvent.hlt : KernelM Empty))
      (⟨s.trace.print (exceptionText w.rsp ++ [0]), s.faulted⟩, req KernelEvent.hlt) := .refl
  have htrap : Run w.env (s, defaultTrap)
      (⟨s.trace.print (exceptionText w.rsp ++ [0]), s.faulted⟩, req KernelEvent.hlt) :=
    (Run.req hsp).seq ((run_onKernel hprint).seq hhlt)
  exact ⟨_, .head .iter (((Run.req hfound).seq (htrap.bind _)).bind _)⟩

/-- The texts of the two are continued in the same way. -/
def SameFrom (before before' : List UInt8) (faulted : Bool) (g : Trace) (s : KernelTrace) : Prop :=
  s.faulted = faulted ∧ s.trace.fetched = g.fetched ∧
    ∃ more, g.out = before ++ more ∧ s.trace.out = before' ++ more

/-- **A run of the machine** is one of the world, as far as it goes. -/
theorem run_underFaults (hw : w.MapsCanonical) {α : Type} {p q : PrintM α} {g g' : Trace}
    {faulted : Bool} (h : Run (w.after faulted).env (g, p) (g', q)) {before before' : List UInt8}
    {s : KernelTrace} (hs : SameFrom before before' faulted g s) :
    ∃ s', Run w.env (s, underFaults p) (s', underFaults q) ∧
      SameFrom before before' faulted g' s' := by
  have hcarry : ∀ g e r g' (u : Unit) s, (w.after faulted).env g e r g' →
      SameFrom before before' faulted g s →
      ∃ u' s', Run w.env (s, carryOut u e) (s', ret (r, u')) ∧
        SameFrom before before' faulted g' s' := by
    rintro g e r g' - s he ⟨rfl, hfetched, more, hg, hs⟩
    cases e with
    | load via a =>
        obtain ⟨ha, rfl⟩ := he
        exact ⟨(), s, (run_readByte hw ha via).seq .refl, rfl, hfetched, more, hg, hs⟩
    | vaArg =>
        obtain ⟨rfl, rfl⟩ := he
        let s' : KernelTrace := { s with trace := { s.trace with fetched := s.trace.fetched + 1 } }
        have harg : w.env s (.print .vaArg) (w.junk g.fetched) s' :=
          ⟨_, ⟨by rw [hfetched]; rfl, rfl⟩, rfl⟩
        exact ⟨(), s', (Run.req harg).seq .refl, rfl, congrArg (· + 1) hfetched, more, hg, hs⟩
    | fn ch =>
        obtain rfl := he
        let s' : KernelTrace := { s with trace := s.trace.print [ch] }
        have hput : w.env s (.print (.fn ch)) () s' := ⟨_, rfl, rfl⟩
        refine ⟨(), s', (Run.req hput).seq .refl, rfl, hfetched, more ++ [ch], ?_, ?_⟩
        · rw [Trace.print_out, hg, List.append_assoc]
        · rw [Trace.print_out, hs, List.append_assoc]
  obtain ⟨⟨⟩, s', hr, hs'⟩ := h.handle_to (f := carryOut)
    (R := fun g _ s => SameFrom before before' faulted g s) hcarry (s := ()) hs
  exact ⟨s', hr.bind _, hs'⟩

/-- With nothing else printed. -/
theorem run_underFaults_at (hw : w.MapsCanonical) {α : Type} {p q : PrintM α} {g : Trace}
    (h : Run w.toMachine.env ({}, p) (g, q)) :
    Run w.env ({}, underFaults p) (⟨g, false⟩, underFaults q) := by
  rw [← w.after_false] at h
  have hfrom : SameFrom [] [] false {} {} := ⟨rfl, rfl, [], rfl, rfl⟩
  obtain ⟨⟨⟨fetched, out⟩, faulted⟩, hr, rfl, hfetched, more, hg, hs⟩ :=
    run_underFaults hw h hfrom
  obtain ⟨_, _⟩ := g
  obtain rfl : out = _ := hs.trans hg.symm
  obtain rfl : fetched = _ := hfetched
  exact hr

section Faulting

variable {α : Type} {p q : PrintM α} {g g' : Trace} {via : Via} {a : UInt64} {k : UInt8 → PrintM α}
  (hw : w.MapsCanonical) (hto : Run w.toMachine.env ({}, p) (g, call (.load via a) k))

include hw hto

/-- A run up to a read that page-faults is the first part of one of the world.  The
other part is a run of the machine that has the last page. -/
theorem run_over_pageFault (ha : w.translation false a = .pageFault)
    (hon : Run (w.after true).env (g, call (.load via a) k) (g', q)) :
    ∃ s more, Run w.env ({}, underFaults p) (s, underFaults q) ∧ g'.out = g.out ++ more ∧
      s.trace.out = g.out ++ (pageFaultText ++ [0]) ++ more := by
  have hbefore := run_underFaults_at hw hto
  have hfault := run_pageFault (s := ⟨g, false⟩) ha via fun ch => underFaults (k ch)
  have hfrom : SameFrom g.out (g.out ++ (pageFaultText ++ [0])) true g
      ⟨g.print (pageFaultText ++ [0]), true⟩ :=
    ⟨rfl, rfl, [], (List.append_nil _).symm, (List.append_nil _).symm⟩
  obtain ⟨s, hafter, -, -, more, hg, hs⟩ := run_underFaults hw hon hfrom
  rw [underFaults_load] at hbefore hafter
  exact ⟨s, more, hbefore.trans (hfault.trans hafter), hg, hs⟩

/-- A run up to a read that is not of a canonical address. -/
theorem run_to_generalProtection (ha : w.translation false a = .generalProtection) :
    ∃ q, Run w.env ({}, underFaults p) (⟨g.print (exceptionText w.rsp ++ [0]), false⟩, q) := by
  have hbefore := run_underFaults_at hw hto
  obtain ⟨q, hq⟩ := run_generalProtection (s := ⟨g, false⟩) ha via fun ch => underFaults (k ch)
  rw [underFaults_load] at hbefore
  exact ⟨q, hbefore.trans hq⟩

end Faulting

end World

end UefiKernel.Console
