import Mathlib.Algebra.Group.Nat.Defs
import UefiKernel.Lib.Interact

/-!
# Seqlock

A record guarded by a version, and readers that never wait.

The writer makes the version odd, changes the record piece by piece and makes
the version even again, whenever it likes.  A reader looks at the version
before and after the pieces it reads.  What it relies on is here, for any
record: the version does not fall, and the record stands still as long as the
version is one even number (`Steps.data_eq`); so if the first and the last
state of an attempt have the same version, and some state in it an even one,
the whole attempt saw one record (`constant_of_ordered`).

`reader` is the environment of such a reader: between any two of its events the
writer may take any number of steps.  It keeps a log of what was seen.
-/

namespace Seqlock

open Relation Interact Prog

variable {R : Type} {store : R → R → Prop}

/-! ## the writer -/

/-- The record, and how often the version was set. -/
structure State (R : Type) where
  count : Nat
  data : R
  deriving DecidableEq, Repr

/-- The version in memory. -/
def State.version (s : State R) : UInt32 := UInt32.ofNat s.count

/-- What the writer does; `store` changes one piece of the record. -/
inductive Step (store : R → R → Prop) : State R → State R → Prop
  | start {n : Nat} {d : R} (h : n % 2 = 0) : Step store ⟨n, d⟩ ⟨n + 1, d⟩
  | write {n : Nat} {d d' : R} (h : n % 2 = 1) (hs : store d d') : Step store ⟨n, d⟩ ⟨n, d'⟩
  | publish {n : Nat} {d : R} (h : n % 2 = 1) : Step store ⟨n, d⟩ ⟨n + 1, d⟩

abbrev Steps (store : R → R → Prop) : State R → State R → Prop := ReflTransGen (Step store)

theorem Step.count_le {s t : State R} (h : Step store s t) : s.count ≤ t.count := by
  cases h with
  | start | publish => exact Nat.le_succ _
  | write => exact Nat.le_refl _

theorem Steps.count_le {s t : State R} (h : Steps store s t) : s.count ≤ t.count := by
  induction h with
  | refl => exact Nat.le_refl _
  | tail _ hs ih => exact Nat.le_trans ih hs.count_le

/-- A step that leaves an even version as it is does nothing. -/
theorem Step.count_lt {s t : State R} (h : Step store s t) (heven : s.count % 2 = 0) :
    s.count < t.count := by
  cases h with
  | start | publish => exact Nat.lt_succ_self _
  | write h _ =>
      rw [h] at heven
      cases heven

/-- As long as the version is one even number the record stands still. -/
theorem Steps.data_eq {s t : State R} (h : Steps store s t) (heven : s.count % 2 = 0)
    (hcount : t.count = s.count) : t.data = s.data := by
  cases ReflTransGen.cases_head h with
  | inl heq => rw [heq]
  | inr h =>
      obtain ⟨u, hs, hsteps⟩ := h
      have hlt := hs.count_lt heven
      have hle := Steps.count_le hsteps
      omega

theorem even_of_version {s : State R} (h : s.version &&& 1 = 0) : s.count % 2 = 0 := by
  have hnat := congrArg UInt32.toNat h
  simp only [State.version, UInt32.toNat_and, UInt32.toNat_ofNat', UInt32.reduceToNat,
    Nat.and_one_is_mod] at hnat
  omega

/-- Equal versions are equal counts, unless the version has gone around. -/
theorem count_eq_of_version {s t : State R} (hle : s.count ≤ t.count)
    (hwrap : t.count < s.count + 2 ^ 32) (h : s.version = t.version) : t.count = s.count := by
  have hnat := congrArg UInt32.toNat h
  simp only [State.version, UInt32.toNat_ofNat'] at hnat
  omega

/-! ## the reader -/

variable {E : Type} {A : E → Type} {α : Type}

/-- One event of the reader: what it was answered, and the state it met. -/
structure Access (E : Type) (A : E → Type) (R : Type) where
  event : E
  answer : A event
  state : State R

/-- The reader's environment: the writer takes some steps, then the event is
answered from the state they have led to. -/
def reader (store : R → R → Prop) (answers : State R → (e : E) → A e → Prop) :
    State R × List (Access E A R) → (e : E) → A e → State R × List (Access E A R) → Prop :=
  fun g e r g' => Steps store g.1 g'.1 ∧ answers g'.1 e r ∧ g'.2 = g.2 ++ [⟨e, r, g'.1⟩]

/-- The states of a log are in the order in which the writer went through
them. -/
def Ordered (store : R → R → Prop) (log : List (Access E A R)) : Prop :=
  log.Pairwise fun a b => Steps store a.state b.state

variable {answers : State R → (e : E) → A e → Prop}

/-- Every run keeps a true and ordered log. -/
theorem ordered_of_run {s s' : State R} {log : List (Access E A R)} {p p' : Prog E A α}
    (h : Run (reader store answers) ((s, []), p) ((s', log), p')) :
    Ordered store log ∧ ∀ a ∈ log, answers a.state a.event a.answer := by
  have hinv := Run.inv (I := fun g : State R × List (Access E A R) => Ordered store g.2 ∧
    (∀ a ∈ g.2, answers a.state a.event a.answer) ∧ ∀ a ∈ g.2, Steps store a.state g.1) ?_ h
    ⟨List.Pairwise.nil, by simp, by simp⟩
  · exact ⟨hinv.1, hinv.2.1⟩
  · rintro g e r g' ⟨hsteps, hanswer, hlog⟩ ⟨hord, htrue, hbefore⟩
    rw [hlog]
    refine ⟨?_, ?_, ?_⟩
    · refine List.pairwise_append.mpr ⟨hord, List.pairwise_singleton _ _, ?_⟩
      intro a ha b hb
      rw [List.mem_singleton.mp hb]
      exact (hbefore a ha).trans hsteps
    · intro a ha
      rcases List.mem_append.mp ha with ha | ha
      · exact htrue a ha
      · rw [List.mem_singleton.mp ha]
        exact hanswer
    · intro a ha
      rcases List.mem_append.mp ha with ha | ha
      · exact (hbefore a ha).trans hsteps
      · rw [List.mem_singleton.mp ha]

/-- The version does not go around in these accesses. -/
def NoWrap (att : List (Access E A R)) : Prop :=
  ∀ a ∈ att, ∀ b ∈ att, b.state.count < a.state.count + 2 ^ 32

/-- All these accesses met one published version, even, and one record. -/
def MetOne (att : List (Access E A R)) (d : R) : Prop :=
  ∃ n, n % 2 = 0 ∧ ∀ a ∈ att, a.state.count = n ∧ a.state.data = d

theorem MetOne.data_eq {att : List (Access E A R)} {d : R} (h : MetOne att d) :
    ∀ a ∈ att, a.state.data = d := by
  obtain ⟨n, -, hsame⟩ := h
  exact fun a ha => (hsame a ha).2

theorem Ordered.of_head {att : List (Access E A R)} (hord : Ordered store att)
    {a : Access E A R} (ha : att.head? = some a) : ∀ c ∈ att, Steps store a.state c.state := by
  obtain ⟨rest, rfl⟩ := List.head?_eq_some_iff.mp ha
  intro c hc
  rcases List.mem_cons.mp hc with rfl | hc
  · exact .refl
  · exact (List.pairwise_cons.mp hord).1 c hc

theorem Ordered.to_last {att : List (Access E A R)} (hord : Ordered store att)
    {b : Access E A R} (hb : att.getLast? = some b) : ∀ c ∈ att, Steps store c.state b.state := by
  obtain ⟨front, rfl⟩ := List.getLast?_eq_some_iff.mp hb
  intro c hc
  rcases List.mem_append.mp hc with hc | hc
  · exact (List.pairwise_append.mp hord).2.2 c hc b (List.mem_singleton.mpr rfl)
  · rw [List.mem_singleton.mp hc]

/-- **One record**: an attempt that starts and ends with the same version and
meets an even one, with the version not going around in it, meets one version
and one record throughout. -/
theorem constant_of_ordered {att : List (Access E A R)} {a b : Access E A R}
    (hord : Ordered store att) (ha : att.head? = some a) (hb : att.getLast? = some b)
    (hversion : a.state.version = b.state.version) (hwrap : NoWrap att)
    (heven : ∃ c ∈ att, c.state.version &&& 1 = 0) : MetOne att a.state.data := by
  have hfirst := hord.of_head ha
  have hlast := hord.to_last hb
  have hamem : a ∈ att := List.mem_of_head? ha
  have hbmem : b ∈ att := List.mem_of_getLast? hb
  have hab : b.state.count = a.state.count :=
    count_eq_of_version (Steps.count_le (hfirst b hbmem)) (hwrap a hamem b hbmem) hversion
  -- in between, the count can neither fall nor rise
  have hcount : ∀ c ∈ att, c.state.count = a.state.count := by
    intro c hc
    have hge := Steps.count_le (hfirst c hc)
    have hle := Steps.count_le (hlast c hc)
    omega
  obtain ⟨c, hc, hceven⟩ := heven
  have haeven : a.state.count % 2 = 0 := by
    rw [← hcount c hc]
    exact even_of_version hceven
  exact ⟨a.state.count, haeven, fun c hc =>
    ⟨hcount c hc, Steps.data_eq (hfirst c hc) haeven (hcount c hc)⟩⟩

/-- What a run has logged last: the answers are true, and if it is such an
attempt it met one record. -/
theorem attempt_of_run {s s' : State R} {before att : List (Access E A R)} {p p' : Prog E A α}
    (h : Run (reader store answers) ((s, []), p) ((s', before ++ att), p')) :
    (∀ c ∈ att, answers c.state c.event c.answer) ∧
    ∀ a b, att.head? = some a → att.getLast? = some b → a.state.version = b.state.version →
      (∃ c ∈ att, c.state.version &&& 1 = 0) → NoWrap att → MetOne att a.state.data := by
  obtain ⟨hord, htrue⟩ := ordered_of_run h
  refine ⟨fun c hc => htrue c (List.mem_append_right before hc), ?_⟩
  intro a b ha hb hversion heven hwrap
  exact constant_of_ordered (List.pairwise_append.mp hord).2.1 ha hb hversion hwrap heven

end Seqlock
