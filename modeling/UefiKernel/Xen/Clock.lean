import UefiKernel.Lib.Seqlock
import UefiKernel.Xen.Platform

/-!
# UefiKernel.Xen.Clock

The paravirtual clock.

Xen keeps the time records in shared memory and guards each by a version; the
kernel reads them without a lock and starts over if the version was odd or has
changed.  `pvclockMonotonicRead_untorn` and `pvclockWcRead_untorn`: whatever
Xen does in between, a time that is returned was computed from one record.

The operands of an expression are read from left to right; C leaves their order
open.
-/

namespace UefiKernel.Xen

open Interact Prog Seqlock

/-! ## the reads of `kernel.c` -/

/-- `mul64_32`: bits 32 to 95 of the product. -/
def mul64_32 (a : UInt64) (b : UInt32) : UInt64 :=
  UInt64.ofNat (a.toNat * b.toNat / 2 ^ 32)

/-- `NSEC_PER_SEC`. -/
def nsecPerSec : UInt64 := 1000000000

/-- `delta >>= -shift`, with the processor's count of six bits. -/
def shiftRightNeg (delta : UInt64) (shift : Int8) : UInt64 :=
  delta >>> (UInt64.ofInt (-shift.toInt))

/-- `delta <<= shift`. -/
def shiftLeft (delta : UInt64) (shift : Int8) : UInt64 :=
  delta <<< (UInt64.ofInt shift.toInt)

/-- `(pvclock->version & 1) || (pvclock->version != version)`: the second load
is made only if the first finds an even version. -/
def versionChanged (load : XenM UInt32) (version : UInt32) : XenM Bool := do
  let now ← load
  if now &&& 1 ≠ 0 then
    return true
  let now ← load
  return now ≠ version

/-- `if (tsc_shift < 0) delta >>= -tsc_shift; else delta <<= tsc_shift;` loads
the shift twice. -/
def scaleDelta (delta : UInt64) : XenM UInt64 := do
  let sign ← pvclockTi .tscShift
  if sign < 0 then
    let shift ← pvclockTi .tscShift
    return shiftRightNeg delta shift
  let shift ← pvclockTi .tscShift
  return shiftLeft delta shift

def pvclockMonotonicRead : XenM UInt64 :=
  loop (fun _ : Unit => do
    let version ← pvclockTi .version
    let tsc ← rdtsc
    let tscTimestamp ← pvclockTi .tscTimestamp
    let delta ← scaleDelta (tsc - tscTimestamp)
    let tscToSystemMul ← pvclockTi .tscToSystemMul
    let systemTime ← pvclockTi .systemTime
    let timeNow := mul64_32 delta tscToSystemMul + systemTime
    let changed ← versionChanged (pvclockTi .version) version
    if changed then
      return .inl ()
    return .inr timeNow) ()

def pvclockWcRead : XenM UInt64 :=
  loop (fun _ : Unit => do
    let version ← pvclockWc .version
    let sec ← pvclockWc .sec
    let nsec ← pvclockWc .nsec
    let wcBoot := sec.toUInt64 * nsecPerSec + nsec.toUInt64
    let changed ← versionChanged (pvclockWc .version) version
    if changed then
      return .inl ()
    return .inr wcBoot) ()

/-- Busy waiting. -/
def wait (secs : UInt32) : XenM Unit := do
  let time ← pvclockMonotonicRead
  loop (fun _ : Unit => do
    let timeNow ← pvclockMonotonicRead
    if (timeNow - time) / nsecPerSec < secs.toUInt64 then
      return .inl ()
    return .inr ()) ()

/-! ## Xen's side -/

/-- A time record, without its version. -/
structure TimeRecord where
  tscTimestamp : UInt64
  systemTime : UInt64
  tscToSystemMul : UInt32
  tscShift : Int8
  deriving DecidableEq, Repr

/-- Xen changes one field of the record. -/
inductive TimeRecord.Store : TimeRecord → TimeRecord → Prop
  | tscTimestamp (d : TimeRecord) (x : UInt64) : Store d { d with tscTimestamp := x }
  | systemTime (d : TimeRecord) (x : UInt64) : Store d { d with systemTime := x }
  | tscToSystemMul (d : TimeRecord) (x : UInt32) : Store d { d with tscToSystemMul := x }
  | tscShift (d : TimeRecord) (x : Int8) : Store d { d with tscShift := x }

/-- What a load from the time record finds; anything but these loads is answered
as it may be. -/
def timeAnswers (s : State TimeRecord) : (e : XenEvent) → e.Answer → Prop
  | .loadTime .version, r => r = s.version
  | .loadTime .tscTimestamp, r => r = s.data.tscTimestamp
  | .loadTime .systemTime, r => r = s.data.systemTime
  | .loadTime .tscToSystemMul, r => r = s.data.tscToSystemMul
  | .loadTime .tscShift, r => r = s.data.tscShift
  | _, _ => True

/-- The time a record stands for at a time stamp. -/
def TimeRecord.time (d : TimeRecord) (tsc : UInt64) : UInt64 :=
  let delta := tsc - d.tscTimestamp
  let scaled :=
    if d.tscShift < 0 then shiftRightNeg delta d.tscShift else shiftLeft delta d.tscShift
  mul64_32 scaled d.tscToSystemMul + d.systemTime

/-- The wall-clock record, without its version. -/
structure WallRecord where
  sec : UInt32
  nsec : UInt32
  deriving DecidableEq, Repr

inductive WallRecord.Store : WallRecord → WallRecord → Prop
  | sec (d : WallRecord) (x : UInt32) : Store d { d with sec := x }
  | nsec (d : WallRecord) (x : UInt32) : Store d { d with nsec := x }

def wallAnswers (s : State WallRecord) : (e : XenEvent) → e.Answer → Prop
  | .loadWall .version, r => r = s.version
  | .loadWall .sec, r => r = s.data.sec
  | .loadWall .nsec, r => r = s.data.nsec
  | _, _ => True

/-- The wall-clock time at boot. -/
def WallRecord.boot (d : WallRecord) : UInt64 := d.sec.toUInt64 * nsecPerSec + d.nsec.toUInt64

/-! ## one attempt -/

/-- The events of an attempt at the monotonic time. -/
def monotonicAttempt : List XenEvent :=
  [.loadTime .version, .rdtsc, .loadTime .tscTimestamp, .loadTime .tscShift, .loadTime .tscShift,
    .loadTime .tscToSystemMul, .loadTime .systemTime, .loadTime .version, .loadTime .version]

/-- The events of an attempt at the wall clock. -/
def wallAttempt : List XenEvent :=
  [.loadWall .version, .loadWall .sec, .loadWall .nsec, .loadWall .version, .loadWall .version]

section Reader

variable {R : Type} {store : R → R → Prop} {answers : State R → (e : XenEvent) → e.Answer → Prop}

/-- An event goes into the log. -/
theorem wp_access (e : XenEvent) (g : State R × List (Access XenEvent XenEvent.Answer R)) :
    wp (reader store answers) (fun _ _ => True) (req e : XenM e.Answer)
      (fun r g' => ∃ s, g'.2 = g.2 ++ [⟨e, r, s⟩]) g :=
  ⟨trivial, fun _ g' he => ⟨g'.1, he.2.2⟩⟩

theorem wp_scaleDelta (delta : UInt64) (g : State R × List (Access XenEvent XenEvent.Answer R)) :
    wp (reader store answers) (fun _ _ => True) (scaleDelta delta) (fun r g' =>
      ∃ sign shift s₀ s₁,
        g'.2 = g.2 ++ [⟨.loadTime .tscShift, sign, s₀⟩, ⟨.loadTime .tscShift, shift, s₁⟩] ∧
        r = if sign < 0 then shiftRightNeg delta shift else shiftLeft delta shift) g := by
  unfold scaleDelta
  rw [wp_bind']
  refine wp_mono ?_ (wp_access (.loadTime .tscShift) g)
  rintro sign g₁ ⟨s₀, h₀⟩
  rw [wp_ite, wp_bind', wp_bind']
  constructor
  · intro hneg
    refine wp_mono ?_ (wp_access (.loadTime .tscShift) g₁)
    rintro shift g₂ ⟨s₁, h₁⟩
    exact ⟨sign, shift, s₀, s₁, by rw [h₁, h₀, List.append_assoc]; rfl, (if_pos hneg).symm⟩
  · intro hneg
    refine wp_mono ?_ (wp_access (.loadTime .tscShift) g₁)
    rintro shift g₂ ⟨s₁, h₁⟩
    exact ⟨sign, shift, s₀, s₁, by rw [h₁, h₀, List.append_assoc]; rfl, (if_neg hneg).symm⟩

/-- If the version was found unchanged, it was found even and then as it was. -/
theorem wp_versionChanged {load : XenM UInt32}
    {seen : UInt32 → State R → Access XenEvent XenEvent.Answer R}
    (hload : ∀ g, wp (reader store answers) (fun _ _ => True) load
      (fun r g' => ∃ s, g'.2 = g.2 ++ [seen r s]) g)
    (version : UInt32) (g : State R × List (Access XenEvent XenEvent.Answer R)) :
    wp (reader store answers) (fun _ _ => True) (versionChanged load version) (fun changed g' =>
      changed = false → ∃ now s₀ s₁,
        g'.2 = g.2 ++ [seen now s₀, seen version s₁] ∧ now &&& 1 = 0) g := by
  unfold versionChanged
  rw [wp_bind']
  refine wp_mono ?_ (hload g)
  rintro now g₁ ⟨s₀, h₀⟩
  rw [wp_ite, wp_bind']
  refine ⟨fun _ h => (nomatch h), fun heven => ?_⟩
  refine wp_mono ?_ (hload g₁)
  rintro again g₂ ⟨s₁, h₁⟩ hsame
  obtain rfl : again = version := by simpa using hsame
  refine ⟨now, s₀, s₁, ?_, Decidable.not_not.mp heven⟩
  rw [h₁, h₀, List.append_assoc]
  rfl

/-- What the log ends with when `pvclock_monotonic_read` returns. -/
theorem wp_pvclockMonotonicRead (g : State R × List (Access XenEvent XenEvent.Answer R)) :
    wp (reader store answers) (fun _ _ => True) pvclockMonotonicRead (fun value g' =>
      ∃ before version tsc tscTimestamp sign shift tscToSystemMul systemTime now,
      ∃ s₀ s₁ s₂ s₃ s₄ s₅ s₆ s₇ s₈ : State R,
        g'.2 = before ++
          [⟨.loadTime .version, version, s₀⟩, ⟨.rdtsc, tsc, s₁⟩,
            ⟨.loadTime .tscTimestamp, tscTimestamp, s₂⟩, ⟨.loadTime .tscShift, sign, s₃⟩,
            ⟨.loadTime .tscShift, shift, s₄⟩, ⟨.loadTime .tscToSystemMul, tscToSystemMul, s₅⟩,
            ⟨.loadTime .systemTime, systemTime, s₆⟩, ⟨.loadTime .version, now, s₇⟩,
            ⟨.loadTime .version, version, s₈⟩] ∧
        now &&& 1 = 0 ∧
        value = mul64_32
          (if sign < 0 then shiftRightNeg (tsc - tscTimestamp) shift
            else shiftLeft (tsc - tscTimestamp) shift) tscToSystemMul + systemTime) g := by
  refine wp_loop (fun _ _ => True) trivial ?_
  rintro - g₀ -
  simp only [wp_bind']
  refine wp_mono ?_ (wp_access (.loadTime .version) g₀)
  rintro version g₁ ⟨s₀, h₀⟩
  refine wp_mono ?_ (wp_access .rdtsc g₁)
  rintro tsc g₂ ⟨s₁, h₁⟩
  refine wp_mono ?_ (wp_access (.loadTime .tscTimestamp) g₂)
  rintro tscTimestamp g₃ ⟨s₂, h₂⟩
  refine wp_mono ?_ (wp_scaleDelta (tsc - tscTimestamp) g₃)
  rintro delta g₄ ⟨sign, shift, s₃, s₄, h₃, rfl⟩
  refine wp_mono ?_ (wp_access (.loadTime .tscToSystemMul) g₄)
  rintro tscToSystemMul g₅ ⟨s₅, h₅⟩
  refine wp_mono ?_ (wp_access (.loadTime .systemTime) g₅)
  rintro systemTime g₆ ⟨s₆, h₆⟩
  refine wp_mono ?_ (wp_versionChanged (wp_access (.loadTime .version)) version g₆)
  intro changed g₇ hchanged
  rw [wp_ite]
  refine ⟨fun _ => trivial, fun hsame => ?_⟩
  obtain ⟨now, s₇, s₈, h₇, heven⟩ := hchanged (Bool.eq_false_iff.mpr hsame)
  refine ⟨g₀.2, version, tsc, tscTimestamp, sign, shift, tscToSystemMul, systemTime, now, s₀, s₁,
    s₂, s₃, s₄, s₅, s₆, s₇, s₈, ?_, heven, rfl⟩
  simp only [h₇, h₆, h₅, h₃, h₂, h₁, h₀, List.append_assoc, List.cons_append, List.nil_append]

/-- What the log ends with when `pvclock_wc_read` returns. -/
theorem wp_pvclockWcRead (g : State R × List (Access XenEvent XenEvent.Answer R)) :
    wp (reader store answers) (fun _ _ => True) pvclockWcRead (fun value g' =>
      ∃ before version sec nsec now, ∃ s₀ s₁ s₂ s₃ s₄ : State R,
        g'.2 = before ++
          [⟨.loadWall .version, version, s₀⟩, ⟨.loadWall .sec, sec, s₁⟩,
            ⟨.loadWall .nsec, nsec, s₂⟩, ⟨.loadWall .version, now, s₃⟩,
            ⟨.loadWall .version, version, s₄⟩] ∧
        now &&& 1 = 0 ∧ value = sec.toUInt64 * nsecPerSec + nsec.toUInt64) g := by
  refine wp_loop (fun _ _ => True) trivial ?_
  rintro - g₀ -
  simp only [wp_bind']
  refine wp_mono ?_ (wp_access (.loadWall .version) g₀)
  rintro version g₁ ⟨s₀, h₀⟩
  refine wp_mono ?_ (wp_access (.loadWall .sec) g₁)
  rintro sec g₂ ⟨s₁, h₁⟩
  refine wp_mono ?_ (wp_access (.loadWall .nsec) g₂)
  rintro nsec g₃ ⟨s₂, h₂⟩
  refine wp_mono ?_ (wp_versionChanged (wp_access (.loadWall .version)) version g₃)
  intro changed g₄ hchanged
  rw [wp_ite]
  refine ⟨fun _ => trivial, fun hsame => ?_⟩
  obtain ⟨now, s₃, s₄, h₃, heven⟩ := hchanged (Bool.eq_false_iff.mpr hsame)
  refine ⟨g₀.2, version, sec, nsec, now, s₀, s₁, s₂, s₃, s₄, ?_, heven, rfl⟩
  simp only [h₃, h₂, h₁, h₀, List.append_assoc, List.cons_append, List.nil_append]

end Reader

/-! ## never a torn clock -/

/-- Every time `prog` returns was computed from one record: the log ends with an
attempt, `events`, all of which met one published version and one record `d`
(unless the version went around in it), and the value is `computed` from `d`. -/
def Untorn {R : Type} (store : R → R → Prop) (answers : State R → (e : XenEvent) → e.Answer → Prop)
    (prog : XenM UInt64) (events : List XenEvent)
    (computed : R → List (Access XenEvent XenEvent.Answer R) → UInt64 → Prop) : Prop :=
  ∀ s s' log value, Run (reader store answers) ((s, []), prog) ((s', log), .ret value) →
    ∃ before attempt, log = before ++ attempt ∧ attempt.map (·.event) = events ∧
      (NoWrap attempt → ∃ d, MetOne attempt d ∧ computed d attempt value)

theorem pvclockMonotonicRead_untorn :
    Untorn TimeRecord.Store timeAnswers pvclockMonotonicRead monotonicAttempt
      fun d attempt value => ∃ tsc s, ⟨.rdtsc, tsc, s⟩ ∈ attempt ∧ value = d.time tsc := by
  intro s s' log value hr
  obtain ⟨before, version, tsc, tscTimestamp, sign, shift, tscToSystemMul, systemTime, now, s₀, s₁,
    s₂, s₃, s₄, s₅, s₆, s₇, s₈, hlog, heven, hvalue⟩ :=
    post_of_run (wp_pvclockMonotonicRead (s, [])) hr
  rw [show log = _ from hlog] at hr
  refine ⟨before, _, hlog, rfl, fun hwrap => ?_⟩
  obtain ⟨hanswer, hone⟩ := attempt_of_run hr
  simp only [List.forall_mem_cons, List.not_mem_nil, false_imp_iff, implies_true, and_true,
    timeAnswers, true_and] at hanswer
  obtain ⟨hfirst, htimestamp, hsign, hshift, hmul, hsystem, hnow, hlast⟩ := hanswer
  have hmet : MetOne _ s₀.data := hone _ _ rfl rfl (hfirst.symm.trans hlast)
    ⟨⟨.loadTime .version, now, s₇⟩, by simp, by rw [← hnow]; exact heven⟩ hwrap
  refine ⟨s₀.data, hmet, tsc, s₁, by simp, ?_⟩
  -- the fields are those of the one record
  have hdata := hmet.data_eq
  simp only [List.forall_mem_cons, List.not_mem_nil, false_imp_iff, implies_true, and_true,
    true_and] at hdata
  obtain ⟨-, h₂, h₃, h₄, h₅, h₆, -⟩ := hdata
  rw [hvalue, htimestamp, hsign, hshift, hmul, hsystem, h₂, h₃, h₄, h₅, h₆, TimeRecord.time]

theorem pvclockWcRead_untorn :
    Untorn WallRecord.Store wallAnswers pvclockWcRead wallAttempt
      fun d _ value => value = d.boot := by
  intro s s' log value hr
  obtain ⟨before, version, sec, nsec, now, s₀, s₁, s₂, s₃, s₄, hlog, heven, hvalue⟩ :=
    post_of_run (wp_pvclockWcRead (s, [])) hr
  rw [show log = _ from hlog] at hr
  refine ⟨before, _, hlog, rfl, fun hwrap => ?_⟩
  obtain ⟨hanswer, hone⟩ := attempt_of_run hr
  simp only [List.forall_mem_cons, List.not_mem_nil, false_imp_iff, implies_true, and_true,
    wallAnswers] at hanswer
  obtain ⟨hfirst, hsec, hnsec, hnow, hlast⟩ := hanswer
  have hmet : MetOne _ s₀.data := hone _ _ rfl rfl (hfirst.symm.trans hlast)
    ⟨⟨.loadWall .version, now, s₃⟩, by simp, by rw [← hnow]; exact heven⟩ hwrap
  refine ⟨s₀.data, hmet, ?_⟩
  have hdata := hmet.data_eq
  simp only [List.forall_mem_cons, List.not_mem_nil, false_imp_iff, implies_true, and_true,
    true_and] at hdata
  obtain ⟨h₁, h₂, -⟩ := hdata
  show value = s₀.data.boot
  rw [hvalue, hsec, hnsec, h₁, h₂, WallRecord.boot]

/-- **Never a torn clock.** -/
theorem clock_untorn :
    Untorn TimeRecord.Store timeAnswers pvclockMonotonicRead monotonicAttempt
      (fun d attempt value => ∃ tsc s, ⟨.rdtsc, tsc, s⟩ ∈ attempt ∧ value = d.time tsc) ∧
    Untorn WallRecord.Store wallAnswers pvclockWcRead wallAttempt
      (fun d _ value => value = d.boot) :=
  ⟨pvclockMonotonicRead_untorn, pvclockWcRead_untorn⟩

/-! ### a read that meets an update -/

def recordBefore : State TimeRecord :=
  ⟨2, { tscTimestamp := 100, systemTime := 5, tscToSystemMul := 0x80000000, tscShift := 1 }⟩

def recordAfter : State TimeRecord :=
  ⟨4, { tscTimestamp := 100, systemTime := 7, tscToSystemMul := 0x80000000, tscShift := 1 }⟩

theorem recordBefore_steps : Steps TimeRecord.Store recordBefore recordAfter :=
  .head (.start rfl) (.head (.write rfl (.systemTime _ 7)) (.single (.publish rfl)))

/-- What is loaded from the record; the counter stands at 150. -/
def timeAnswer (s : State TimeRecord) : (e : XenEvent) → e.Answer
  | .loadTime .version => s.version
  | .loadTime .tscTimestamp => s.data.tscTimestamp
  | .loadTime .systemTime => s.data.systemTime
  | .loadTime .tscToSystemMul => s.data.tscToSystemMul
  | .loadTime .tscShift => s.data.tscShift
  | .rdtsc => 150
  | .cpuid _ => default
  | .hypercall _ => 0
  | .loadWall _ => 0
  | .wrmsr _ _ | .storeGrant _ _ | .storeByte _ _ | .printf _ _ => ()

/-- Xen updates the record right after the reader's first load. -/
def updatingXen (g : State TimeRecord × List (Access XenEvent XenEvent.Answer TimeRecord))
    (e : XenEvent) :
    e.Answer × State TimeRecord × List (Access XenEvent XenEvent.Answer TimeRecord) :=
  let s := if g.1 = recordBefore ∧ g.2.length = 1 then recordAfter else g.1
  (timeAnswer s e, s, g.2 ++ [⟨e, timeAnswer s e, s⟩])

theorem reader_updatingXen
    (g : State TimeRecord × List (Access XenEvent XenEvent.Answer TimeRecord)) (e : XenEvent) :
    reader TimeRecord.Store timeAnswers g e (updatingXen g e).1 (updatingXen g e).2 := by
  refine ⟨?_, ?_, rfl⟩
  · simp only [updatingXen]
    split
    · next h =>
        rw [h.1]
        exact recordBefore_steps
    · exact .refl
  · cases e with
    | loadTime field => cases field <;> rfl
    | _ => trivial

/-- The first attempt is thrown away, the second returns a time. -/
theorem clock_untorn_sample : ∃ log before attempt,
    Run (reader TimeRecord.Store timeAnswers) ((recordBefore, []), pvclockMonotonicRead)
      ((recordAfter, log), .ret 57) ∧
    log = before ++ attempt ∧ attempt.map (·.event) = monotonicAttempt ∧
    (NoWrap attempt → ∃ d, MetOne attempt d ∧
      ∃ tsc s, ⟨.rdtsc, tsc, s⟩ ∈ attempt ∧ (57 : UInt64) = d.time tsc) := by
  have hrun : Run (reader TimeRecord.Store timeAnswers) ((recordBefore, []), pvclockMonotonicRead)
      ((recordAfter, _), .ret 57) := run_play reader_updatingXen 20 _
  obtain ⟨before, attempt, hlog, hevents, hone⟩ := clock_untorn.1 _ _ _ _ hrun
  exact ⟨_, before, attempt, hrun, hlog, hevents, hone⟩

end UefiKernel.Xen
