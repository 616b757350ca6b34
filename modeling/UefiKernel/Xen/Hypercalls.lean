import UefiKernel.Types
import UefiKernel.Xen.Clock
import UefiKernel.Xen.Detect
import UefiKernel.Xen.Gnttab

/-!
# UefiKernel.Xen.Hypercalls

The Xen branch of `kernel_start`, and when its hypercalls find their page.

A hypercall is a call into a page that Xen fills when its address is written to
an MSR.  The kernel makes its first hypercall whether or not
`xen_hypercalls_init` has done so; `hypercallsAfterPage_iff` says for which
answers of CPUID it has.
-/

namespace UefiKernel.Xen

open Interact Prog

/-! ## `kernel_start` -/

/-- The kernel's globals of the branch. -/
structure XenGlobals where
  xenBase : UInt32
  wallClockOffset : UInt64
  gnttabList : GnttabList

def storeByte (p : UInt64) (byte : UInt8) : XenM Unit := req (XenEvent.storeByte p byte)

/-- What follows `xen_shared_init() == 0`. -/
def kernelStartShared (xen : XenHeaders) (info : Information) (k : XenGlobals) :
    XenM XenGlobals := do
  let result ← hypercall (.xenVersion xen.xenverVersion 0)
  let version := result.toUInt32
  printf "Major version: %d\n" [(version >>> 16).toUInt64]
  printf "Minor version: %d\n" [(version &&& 0xFFFF).toUInt64]
  let timeNow ← pvclockMonotonicRead
  let wallClockOffset ← pvclockWcRead
  printf "PV Clock Monotonic: %ldns\n" [timeNow]
  printf "PV Clock Wall Clock: %ldns\n" [wallClockOffset + timeNow]
  wait 1
  let timeNow ← pvclockMonotonicRead
  printf "PV Clock Monotonic after busy wait: %ldns\n" [timeNow]
  printf "PV Clock Wall Clock after busy wait: %ldns\n" [wallClockOffset + timeNow]
  let list ← initGnttab xen info.gntTable k.gnttabList
  let msg := info.sharedPage
  storeByte msg 'H'.toUInt8
  storeByte (msg + 1) 'i'.toUInt8
  storeByte (msg + 2) 0
  let sharedPageFrame := msg / 0x1000
  let (ref, list) ← gnttabGrantAccess xen list 6 sharedPageFrame 0
  printf "The shared message is : %s\n" [msg]
  printf "The grant reference number: %d\n" [ref.toUInt64]
  return { k with wallClockOffset, gnttabList := list }

/-- What follows `xen_hypercalls_init()`. -/
def kernelStartHypercalls (xen : XenHeaders) (image : KernelImage) (info : Information)
    (k : XenGlobals) : XenM XenGlobals := do
  printf "Initialized Xen hypercalls!\n" []
  let failed ← xenSharedInit xen image
  if failed = 0 then
    kernelStartShared xen info k
  else
    printf "Could not get Xen shared info!\n" []
    return k

/-- From `xen_detect()` to the jump to the user program. -/
def kernelStartXen (xen : XenHeaders) (image : KernelImage) (info : Information)
    (k : XenGlobals) : XenM XenGlobals := do
  let hyperv ← xenDetect
  if hyperv = .xen then
    printf "Xen hypervisor detected!\n" []
    let xenBase ← xenBaseDetect
    let xenBase ← xenHypercallsInit image xenBase
    kernelStartHypercalls xen image info { k with xenBase }
  else
    return k

/-! ## the hypercall page -/

/-- CPUID is answered by `f`; everything else may happen as it likes. -/
def CpuidAnswers {G : Type} (env : G → (e : XenEvent) → e.Answer → G → Prop)
    (f : UInt32 → CpuidRegs) : Prop :=
  ∀ g level r g', env g (.cpuid level) r g' → r = f level

/-- The address of the hypercall page was written to the MSR that the leaf two
above the base names. -/
def PageInstalled (f : UInt32 → CpuidRegs) (image : KernelImage) (es : List XenEvent) : Prop :=
  ∃ base, FirstBase f base ∧ .wrmsr (f (base + 2)).ebx image.miniosHypercallPage ∈ es

/-- No hypercall before the hypercall page is installed. -/
def HypercallsAfterPage (f : UInt32 → CpuidRegs) (xen : XenHeaders) (image : KernelImage)
    (info : Information) (k : XenGlobals) : Prop :=
  ∀ {G : Type} (env : G → (e : XenEvent) → e.Answer → G → Prop), CpuidAnswers env f →
    ∀ g g' es call kont, Run (logged env) ((g, []), kernelStartXen xen image info k)
      ((g', es), .call (.hypercall call) kont) → PageInstalled f image es

/-- There is a base, and the leaf two above it is of the one kind the kernel
knows. -/
def HypercallLeaf (f : UInt32 → CpuidRegs) : Prop :=
  ∃ base, FirstBase f base ∧ (f (base + 2)).eax = 1

/-- What was installed stays installed. -/
theorem PageInstalled.append {f : UInt32 → CpuidRegs} {image : KernelImage} {es : List XenEvent}
    (h : PageInstalled f image es) (e : XenEvent) : PageInstalled f image (es ++ [e]) := by
  obtain ⟨base, hbase, hmem⟩ := h
  exact ⟨base, hbase, List.mem_append_left _ hmem⟩

/-- Only the write installs the page. -/
theorem pageInstalled_append {f : UInt32 → CpuidRegs} {image : KernelImage} {es : List XenEvent}
    {e : XenEvent} (he : ∀ reg val, e ≠ .wrmsr reg val) (h : PageInstalled f image (es ++ [e])) :
    PageInstalled f image es := by
  obtain ⟨base, hbase, hmem⟩ := h
  rcases List.mem_append.mp hmem with hmem | hmem
  · exact ⟨base, hbase, hmem⟩
  · exact absurd (List.mem_singleton.mp hmem).symm (he _ _)

variable {f : UInt32 → CpuidRegs} {xen : XenHeaders} {image : KernelImage} {info : Information}
  {k : XenGlobals}

/-- The branch up to its first hypercall, with `R` while the page is looked for
and `S` from `xen_hypercalls_init` on. -/
theorem kernelStartXen_spec {G : Type} {L : Calculus XenEvent XenEvent.Answer G} {R S : G → Prop}
    {Q : XenGlobals → G → Prop}
    (hcpuid : ∀ level g, R g → L.holds (x86Cpuid level) (fun r g' => r = f level ∧ R g') g)
    (hprintf : ∀ format g, R g → L.holds (printf format []) (fun _ g' => R g') g)
    (hinit : ∀ base, FirstBase f base ∨ base = 0 ∧ (∀ b, ¬ FirstBase f b) → ∀ g, R g →
      L.holds (xenHypercallsInit image base) (fun _ g' => S g') g)
    (hxen : XenDetected f → ∀ k g, S g → L.holds (kernelStartHypercalls xen image info k) Q g)
    (hno : ¬ XenDetected f → ∀ g, R g → Q k g) {g : G} (hg : R g) :
    L.holds (kernelStartXen xen image info k) Q g := by
  unfold kernelStartXen
  refine L.seq (xenDetect_spec hcpuid hg) ?_
  rintro hyperv g₁ ⟨hdetect, hg₁⟩
  refine L.ite (fun h => ?_) fun h => L.pure (hno (fun hd => h (hdetect.mpr hd)) g₁ hg₁)
  refine L.seq (hprintf _ g₁ hg₁) fun _ g₂ hg₂ => ?_
  refine L.seq (xenBaseDetect_spec hcpuid hg₂) ?_
  rintro base g₃ ⟨hbase, hg₃⟩
  refine L.seq (hinit base hbase g₃ hg₃) fun _ g₄ hg₄ => ?_
  exact hxen (hdetect.mp h) _ g₄ hg₄

/-! ### with such a leaf: every run -/

/-- A hypercall only with the page installed. -/
def AfterPage (f : UInt32 → CpuidRegs) (image : KernelImage) {G : Type} :
    G × List XenEvent → XenEvent → Prop :=
  fun g e => ∀ call, e = .hypercall call → PageInstalled f image g.2

/-- With the leaf, no hypercall comes before the page. -/
theorem wp_kernelStartXen {G : Type} {env : G → (e : XenEvent) → e.Answer → G → Prop}
    (henv : CpuidAnswers env f) (hleaf : XenDetected f → HypercallLeaf f) (g : G) :
    wp (logged env) (AfterPage f image) (kernelStartXen xen image info k) (fun _ _ => True)
      (g, []) := by
  have hbase : ∀ base, FirstBase f base ∨ base = 0 ∧ (∀ b, ¬ FirstBase f b) → XenDetected f →
      FirstBase f base ∧ (f (base + 2)).eax = 1 := by
    intro base hfound hd
    obtain ⟨b, hfirst, heax⟩ := hleaf hd
    rcases hfound with h | ⟨-, hnone⟩
    · obtain rfl := h.unique hfirst
      exact ⟨hfirst, heax⟩
    · exact absurd hfirst (hnone b)
  have hcpuid : ∀ level (g : G × List XenEvent), True →
      (wpCalculus (logged env) (AfterPage f image)).holds (x86Cpuid level)
        (fun r _ => r = f level ∧ True) g :=
    fun level g _ => ⟨fun _ h => (nomatch h), fun r g' he => ⟨henv _ _ _ _ he.1, trivial⟩⟩
  show (wpCalculus (logged env) (AfterPage f image)).holds (kernelStartXen xen image info k)
    (fun _ _ => True) (g, [])
  refine kernelStartXen_spec (R := fun _ => True)
    (S := fun g => XenDetected f → PageInstalled f image g.2) hcpuid ?_ ?_ ?_
    (fun _ _ _ => trivial) trivial
  · exact fun format g _ => ⟨fun _ h => (nomatch h), fun _ _ _ => trivial⟩
  · intro base hfound g _
    refine xenHypercallsInit_spec hcpuid (fun _ g _ => ?_) (fun heax g _ hd => ?_) trivial
    · refine ⟨fun _ h => (nomatch h), fun _ g' he hd => ⟨base, (hbase base hfound hd).1, ?_⟩⟩
      rw [he.2]
      exact List.mem_append_right _ (List.mem_singleton.mpr rfl)
    · exact absurd (hbase base hfound hd).2 heax
  · intro hd k g hg
    refine wp_mono (fun _ _ _ => trivial) (wp_of_issues (P := fun _ => True)
      (R := fun g : G × List XenEvent => PageInstalled f image g.2) ?_ ?_ (issues_true _) (hg hd))
    · exact fun g e _ h call _ => h
    · rintro g e r g' - h ⟨-, hlog⟩
      rw [hlog]
      exact h.append e

/-! ### without one: some run -/

/-- The environment that only fixes what CPUID answers. -/
def cpuidEnv (f : UInt32 → CpuidRegs) : Unit → (e : XenEvent) → e.Answer → Unit → Prop :=
  fun _ e r _ => match e, r with
    | .cpuid level, r => r = f level
    | _, _ => True

theorem cpuidAnswers_cpuidEnv : CpuidAnswers (cpuidEnv f) f := fun _ _ _ _ h => h

/-- A hypercall, and no page. -/
def NoPage (f : UInt32 → CpuidRegs) (image : KernelImage) {G : Type} :
    G × List XenEvent → XenEvent → Prop :=
  fun g e => (∃ call, e = .hypercall call) ∧ ¬ PageInstalled f image g.2

/-- An event that is no write to an MSR may be answered, and installs nothing. -/
theorem reaches_event {e : XenEvent} {r : e.Answer} (hr : cpuidEnv f () e r ())
    (he : ∀ reg val, e ≠ .wrmsr reg val) {g : Unit × List XenEvent}
    (hg : ¬ PageInstalled f image g.2) {Q : e.Answer → Unit × List XenEvent → Prop}
    (hQ : ∀ g', ¬ PageInstalled f image g'.2 → Q r g') :
    Reaches (logged (cpuidEnv f)) (NoPage f image) (req e) Q g :=
  have hlog : logged (cpuidEnv f) g e r ((), g.2 ++ [e]) := ⟨hr, rfl⟩
  reaches_req hlog (hQ _ fun h => hg (pageInstalled_append he h))

/-- Without it, the kernel comes to a hypercall and there is no page. -/
theorem reaches_kernelStartXen (hd : XenDetected f) (hno : ¬ HypercallLeaf f) :
    Reaches (logged (cpuidEnv f)) (NoPage f image) (kernelStartXen xen image info k)
      (fun _ _ => False) ((), []) := by
  have hcpuid : ∀ level (g : Unit × List XenEvent), ¬ PageInstalled f image g.2 →
      Reaches (logged (cpuidEnv f)) (NoPage f image) (x86Cpuid level)
        (fun r g' => r = f level ∧ ¬ PageInstalled f image g'.2) g := by
    intro level g hg
    have hr : cpuidEnv f () (.cpuid level) (f level) () := rfl
    exact reaches_event hr (fun _ _ h => (nomatch h)) hg fun _ hg' => ⟨rfl, hg'⟩
  have hprintf : ∀ format (g : Unit × List XenEvent), ¬ PageInstalled f image g.2 →
      Reaches (logged (cpuidEnv f)) (NoPage f image) (printf format [])
        (fun _ g' => ¬ PageInstalled f image g'.2) g := by
    intro format g hg
    have hr : cpuidEnv f () (.printf format []) () () := trivial
    exact reaches_event hr (fun _ _ h => (nomatch h)) hg fun _ hg' => hg'
  show (reachCalculus (logged (cpuidEnv f)) (NoPage f image)).holds
    (kernelStartXen xen image info k) (fun _ _ => False) ((), [])
  refine kernelStartXen_spec (R := fun g => ¬ PageInstalled f image g.2)
    (S := fun g => ¬ PageInstalled f image g.2) hcpuid hprintf ?_ ?_ (fun h => absurd hd h) ?_
  · intro base hfound g hg
    refine xenHypercallsInit_spec hcpuid (fun heax g hg => ?_) (fun _ _ h => h) hg
    -- the write is made only if there is no base at all
    have hnone : ∀ b, ¬ FirstBase f b := by
      rcases hfound with h | ⟨-, hnone⟩
      · exact absurd ⟨base, h, heax⟩ hno
      · exact hnone
    have hlog : logged (cpuidEnv f) g (.wrmsr (f (base + 2)).ebx image.miniosHypercallPage) ()
        ((), g.2 ++ [.wrmsr (f (base + 2)).ebx image.miniosHypercallPage]) := ⟨trivial, rfl⟩
    have hreach : Reaches (logged (cpuidEnv f)) (NoPage f image)
        (wrmsr (f (base + 2)).ebx image.miniosHypercallPage)
        (fun _ g' => ¬ PageInstalled f image g'.2) g :=
      reaches_req hlog fun ⟨b, hb, _⟩ => hnone b hb
    exact hreach
  · intro _ k g hg
    refine Calculus.seq _ (hprintf _ g hg) fun _ g₁ hg₁ => ?_
    -- the first event of `xen_shared_init`
    refine Calculus.seq _ (P := fun _ _ => False) ?_ fun _ _ h => h.elim
    refine Calculus.seq _ (P := fun _ _ => False) ?_ fun _ _ h => h.elim
    exact reaches_target ⟨⟨_, rfl⟩, hg₁⟩
  · rintro ⟨_, _, hmem⟩
    exact List.not_mem_nil hmem

/-! ### the exact condition -/

theorem hypercallsAfterPage_of_leaf (h : XenDetected f → HypercallLeaf f) :
    HypercallsAfterPage f xen image info k :=
  fun _ henv g _ _ call _ hr => ok_of_run (wp_kernelStartXen henv h g) hr call rfl

theorem not_hypercallsAfterPage (hd : XenDetected f) (hno : ¬ HypercallLeaf f) :
    ¬ HypercallsAfterPage f xen image info k := by
  intro h
  have hreach : Reaches _ _ (kernelStartXen xen image info k) _ ((), []) :=
    reaches_kernelStartXen hd hno
  rcases hreach with ⟨g, e, kont, hr, ⟨call, rfl⟩, hpage⟩ | ⟨_, _, _, hfalse⟩
  · exact hpage (h _ cpuidAnswers_cpuidEnv () g.1 g.2 call kont hr)
  · exact hfalse

/-- **No hypercall before its page is installed**, exactly if Xen is not there
or the leaf two above the first base is of the kind the kernel knows. -/
theorem hypercallsAfterPage_iff :
    HypercallsAfterPage f xen image info k ↔ (XenDetected f → HypercallLeaf f) := by
  refine ⟨fun h hd => ?_, hypercallsAfterPage_of_leaf⟩
  apply Classical.byContradiction
  intro hno
  exact not_hypercallsAfterPage hd hno h

/-- A Xen that offers two hypercall pages. -/
def cpuidTwoPages : UInt32 → CpuidRegs := fun level =>
  if level = 0 then ⟨13, 0, 0, 0⟩
  else if level = 1 then ⟨0, 0, 0x80000000, 0⟩
  else if level = 0x40000000 then ⟨0x40000002, 0x566e6558, 0x65584d4d, 0x4d4d566e⟩
  else if level = 0x40000002 then ⟨2, 0x40000000, 0, 0⟩
  else ⟨0, 0, 0, 0⟩

/-- `xen_hypercalls_init` gives up on it, and the hypercall is made all the same. -/
theorem hypercall_without_page :
    ¬ ∀ f xen image info k, HypercallsAfterPage f xen image info k := by
  intro h
  have hd : XenDetected cpuidTwoPages := by
    refine ⟨?_, ?_, ?_, ?_, ?_, ?_⟩ <;> decide
  have hfirst : FirstBase cpuidTwoPages 0x40000000 := by
    have hbase : IsXenBase cpuidTwoPages 0x40000000 := by
      refine ⟨?_, ?_, ?_, ?_⟩ <;> decide
    exact ⟨0, by decide, by decide, hbase, fun _ hj => absurd hj (Nat.not_lt_zero _)⟩
  refine not_hypercallsAfterPage hd ?_ (h cpuidTwoPages ⟨0x7FF0, 7, 0, 1, 0, 1, 4⟩
    ⟨0x200000, 0x201000⟩ default ⟨0, 0, fun _ => 0⟩)
  rintro ⟨base, hbase, heax⟩
  obtain rfl := hbase.unique hfirst
  exact absurd heax (by decide)

end UefiKernel.Xen
