import Mathlib.Logic.Relation

/-!
# Interact

Programs that interact with a world they do not control, and the rules to
reason about every run of one.

A `Prog E A α` either returns a value, issues an event `e : E` and continues
on the answer in `A e`, or enters a loop.  Loops are a constructor of their
own (`iter`), so a program may run for ever and no fuel is involved.  What
the events mean is left to an *environment*: a relation `env g e r g'` saying
that in the ghost state `g` the event `e` may be answered by `r`, leaving
`g'`.  Firmware that answers as it likes, memory that another party writes
and a deterministic machine are all environments.

* `Step` / `Run` — one step of a program in an environment, and any number;
* `wp` — the weakest precondition: what must hold now for every event the
  program ever issues to be allowed (`ok`) and for its result to satisfy the
  postcondition; a loop is given by its invariant;
* `wp_of_run` — the rule of induction over runs: `wp` is kept by every step;
* `wpExcept` — the same for programs that may throw;
* `Issues` — which events a program's code has in it, whatever is answered.
-/

namespace Interact

open Relation

/-- An interactive program with events `E`, answers `A` and results `α`. -/
inductive Prog (E : Type) (A : E → Type) : Type → Type 1
  | ret {α : Type} (a : α) : Prog E A α
  | call {α : Type} (e : E) (k : A e → Prog E A α) : Prog E A α
  | iter {σ β α : Type} (body : σ → Prog E A (σ ⊕ β)) (s : σ) (k : β → Prog E A α) :
      Prog E A α

namespace Prog

variable {E : Type} {A : E → Type} {G α β γ σ : Type}

/-! ## sequencing -/

/-- Run a program, then continue with its result. -/
def bind {α β : Type} : Prog E A α → (α → Prog E A β) → Prog E A β
  | ret a, f => f a
  | call e k, f => call e fun r => bind (k r) f
  | iter body s k, f => iter body s fun b => bind (k b) f

instance : Monad (Prog E A) where
  pure := ret
  bind := bind

/-- Issue one event and return its answer. -/
def req (e : E) : Prog E A (A e) := call e ret

/-- `while (1)`: run the body until it leaves with `.inr`. -/
def loop (body : σ → Prog E A (σ ⊕ β)) (s : σ) : Prog E A β := iter body s ret

/-- `for (i = lo; …; i++)`, `n` times, with the variables that the body sets. -/
def forCount (body : Nat → σ → Prog E A σ) : Nat → Nat → σ → Prog E A σ
  | _, 0, s => ret s
  | lo, n + 1, s => (body lo s).bind (forCount body (lo + 1) n)

theorem bind_eq (p : Prog E A α) (f : α → Prog E A β) : p >>= f = p.bind f := rfl

@[simp] theorem ret_bind (a : α) (f : α → Prog E A β) : (ret a).bind f = f a := rfl

@[simp] theorem call_bind (e : E) (k : A e → Prog E A α) (f : α → Prog E A β) :
    (call e k).bind f = call e fun r => (k r).bind f := rfl

@[simp] theorem iter_bind {δ : Type} (body : σ → Prog E A (σ ⊕ δ)) (s : σ) (k : δ → Prog E A α)
    (f : α → Prog E A β) : (iter body s k).bind f = iter body s fun b => (k b).bind f := rfl

theorem bind_assoc (p : Prog E A α) (f : α → Prog E A β) (g : β → Prog E A γ) :
    (p.bind f).bind g = p.bind fun a => (f a).bind g := by
  induction p with
  | ret a => rfl
  | call e k ih =>
      simp only [call_bind]
      congr 1
      funext r
      exact ih r f
  | iter body s k _ ih =>
      simp only [iter_bind]
      congr 1
      funext b
      exact ih b f

theorem bind_ret (p : Prog E A α) : p.bind ret = p := by
  induction p with
  | ret a => rfl
  | call e k ih =>
      simp only [call_bind]
      congr 1
      funext r
      exact ih r
  | iter body s k _ ih =>
      simp only [iter_bind]
      congr 1
      funext b
      exact ih b

/-- Not an instance: the specifications are about `bind`, not `map`. -/
theorem lawfulMonad : LawfulMonad (Prog E A) :=
  LawfulMonad.mk' _ bind_ret (fun _ _ => rfl) bind_assoc

/-! ## runs -/

/-- Where a loop goes after one pass through its body. -/
def again {δ : Type} (body : σ → Prog E A (σ ⊕ δ)) (k : δ → Prog E A α) :
    σ ⊕ δ → Prog E A α
  | .inl s => iter body s k
  | .inr b => k b

/-- One step in the environment `env`: an event is answered, or a loop is
entered once more. -/
inductive Step (env : G → (e : E) → A e → G → Prop) :
    G × Prog E A α → G × Prog E A α → Prop
  | call {g g' : G} {e : E} {k : A e → Prog E A α} {r : A e} (h : env g e r g') :
      Step env (g, call e k) (g', k r)
  | iter {g : G} {σ δ : Type} {body : σ → Prog E A (σ ⊕ δ)} {s : σ} {k : δ → Prog E A α} :
      Step env (g, iter body s k) (g, (body s).bind (again body k))

/-- Any number of steps. -/
abbrev Run (env : G → (e : E) → A e → G → Prop) :
    G × Prog E A α → G × Prog E A α → Prop := ReflTransGen (Step env)

variable {env : G → (e : E) → A e → G → Prop} {ok : G → E → Prop}

/-- A step of the first program of a sequence is a step of the sequence. -/
theorem Step.bind {g g' : G} {p p' : Prog E A α} (h : Step env (g, p) (g', p'))
    (f : α → Prog E A β) : Step env (g, p.bind f) (g', p'.bind f) := by
  cases h with
  | call h => exact .call h
  | @iter _ σ δ body s k =>
      have hk : (fun r => (again body k r).bind f) = again body fun b => (k b).bind f := by
        funext r
        cases r <;> rfl
      rw [bind_assoc, hk]
      exact .iter

theorem Run.bind {g g' : G} {p p' : Prog E A α} (h : Run env (g, p) (g', p'))
    (f : α → Prog E A β) : Run env (g, p.bind f) (g', p'.bind f) := by
  generalize hc : (g, p) = c at h
  induction h using ReflTransGen.head_induction_on generalizing g p with
  | refl =>
      cases hc
      exact .refl
  | head hs _ ih =>
      subst hc
      exact .head (hs.bind f) (ih rfl)

/-- One event. -/
theorem Run.req {g g' : G} {e : E} {r : A e} (h : env g e r g') :
    Run env (g, Prog.req e) (g', ret r) :=
  .single (.call h)

/-- Two runs in sequence. -/
theorem Run.seq {g g₁ g₂ : G} {p : Prog E A α} {a : α} {f : α → Prog E A β} {q : Prog E A β}
    (h₁ : Run env (g, p) (g₁, ret a)) (h₂ : Run env (g₁, f a) (g₂, q)) :
    Run env (g, p.bind f) (g₂, q) :=
  (h₁.bind f).trans h₂

/-- A loop whose body goes on. -/
theorem Run.again {δ : Type} {body : σ → Prog E A (σ ⊕ δ)} {s s' : σ} {k : δ → Prog E A α}
    {g g₁ : G} {c : G × Prog E A α} (h : Run env (g, body s) (g₁, ret (.inl s')))
    (hr : Run env (g₁, iter body s' k) c) : Run env (g, iter body s k) c :=
  .head .iter ((h.bind (Prog.again body k)).trans hr)

/-- A loop whose body leaves it. -/
theorem Run.leave {δ : Type} {body : σ → Prog E A (σ ⊕ δ)} {s : σ} {b : δ} {k : δ → Prog E A α}
    {g g₁ : G} {c : G × Prog E A α} (h : Run env (g, body s) (g₁, ret (.inr b)))
    (hr : Run env (g₁, k b) c) : Run env (g, iter body s k) c :=
  .head .iter ((h.bind (Prog.again body k)).trans hr)

/-- An environment that has at most one answer for each event. -/
def Deterministic (env : G → (e : E) → A e → G → Prop) : Prop :=
  ∀ g e r₁ g₁ r₂ g₂, env g e r₁ g₁ → env g e r₂ g₂ → r₁ = r₂ ∧ g₁ = g₂

theorem Step.unique (hd : Deterministic env) {c c₁ c₂ : G × Prog E A α}
    (h₁ : Step env c c₁) (h₂ : Step env c c₂) : c₁ = c₂ := by
  cases h₁ with
  | call he =>
      cases h₂ with
      | call he' =>
          obtain ⟨rfl, rfl⟩ := hd _ _ _ _ _ _ he he'
          rfl
  | iter =>
      cases h₂ with
      | iter => rfl

/-- In a deterministic environment all runs lie on one line. -/
theorem Run.total (hd : Deterministic env) {c c₁ c₂ : G × Prog E A α}
    (h₁ : Run env c c₁) (h₂ : Run env c c₂) : Run env c₁ c₂ ∨ Run env c₂ c₁ :=
  ReflTransGen.total_of_right_unique (fun _ _ _ => Step.unique hd) h₁ h₂

/-- In a deterministic environment that comes to a result, every run goes on to it. -/
theorem Run.goes_on (hd : Deterministic env) {c c' : G × Prog E A α} {g : G} {a : α}
    (h : Run env c (g, ret a)) (h' : Run env c c') : Run env c' (g, ret a) := by
  rcases h.total hd h' with hr | hr
  · rcases ReflTransGen.cases_head hr with heq | ⟨_, hs, _⟩
    · rw [heq]
    · cases hs
  · exact hr

/-- A relation between ghost states that every answer keeps is kept by a run. -/
theorem Run.rel {R : G → G → Prop} (hrefl : ∀ g, R g g)
    (htrans : ∀ {a b c}, R a b → R b c → R a c)
    (henv : ∀ g e r g', env g e r g' → R g g') {g g' : G} {p p' : Prog E A α}
    (h : Run env (g, p) (g', p')) : R g g' := by
  generalize hc : (g, p) = c at h
  induction h using ReflTransGen.head_induction_on generalizing g p with
  | refl =>
      cases hc
      exact hrefl g'
  | head hs _ ih =>
      subst hc
      cases hs with
      | call he => exact htrans (henv _ _ _ _ he) (ih rfl)
      | iter => exact ih rfl

/-- A property of ghost states that every answer keeps is kept by a run. -/
theorem Run.inv {I : G → Prop} (henv : ∀ g e r g', env g e r g' → I g → I g') {g g' : G}
    {p p' : Prog E A α} (h : Run env (g, p) (g', p')) (hg : I g) : I g' :=
  Run.rel (R := fun g g' => I g → I g') (fun _ h => h) (fun h₁ h₂ h => h₂ (h₁ h)) henv h hg

/-! ## weakest preconditions -/

/-- `wp env ok p Q g`: started in `g`, every event `p` ever issues is allowed
by `ok` at the moment it is issued, and if `p` returns, `Q` holds of the
result and the final ghost state.  A loop is given by an invariant. -/
def wp (env : G → (e : E) → A e → G → Prop) (ok : G → E → Prop) {α : Type} :
    Prog E A α → (α → G → Prop) → G → Prop
  | ret a, Q, g => Q a g
  | call e k, Q, g => ok g e ∧ ∀ r g', env g e r g' → wp env ok (k r) Q g'
  | iter (σ := τ) body s k, Q, g => ∃ I : τ → G → Prop, I s g ∧
      ∀ s g, I s g → wp env ok (body s) (Sum.elim I fun b => wp env ok (k b) Q) g

@[simp] theorem wp_ret {Q : α → G → Prop} {g : G} (a : α) : wp env ok (ret a) Q g ↔ Q a g :=
  Iff.rfl

@[simp] theorem wp_pure {Q : α → G → Prop} {g : G} (a : α) :
    wp env ok (pure a : Prog E A α) Q g ↔ Q a g := Iff.rfl

@[simp] theorem wp_call {Q : α → G → Prop} {g : G} (e : E) (k : A e → Prog E A α) :
    wp env ok (call e k) Q g ↔ ok g e ∧ ∀ r g', env g e r g' → wp env ok (k r) Q g' := Iff.rfl

@[simp] theorem wp_req {e : E} {Q : A e → G → Prop} {g : G} :
    wp env ok (req e) Q g ↔ ok g e ∧ ∀ r g', env g e r g' → Q r g' := Iff.rfl

/-- A weaker postcondition is easier to reach. -/
theorem wp_mono {p : Prog E A α} {Q Q' : α → G → Prop} (hQ : ∀ a g, Q a g → Q' a g) {g : G}
    (h : wp env ok p Q g) : wp env ok p Q' g := by
  induction p generalizing g with
  | ret a => exact hQ a g h
  | call e k ih => exact ⟨h.1, fun r g' he => ih r hQ (h.2 r g' he)⟩
  | iter body s k ihb ihk =>
      obtain ⟨I, h0, hI⟩ := h
      refine ⟨I, h0, fun s g hs => ihb s ?_ (hI s g hs)⟩
      intro r g' hr
      cases r with
      | inl s' => exact hr
      | inr b => exact ihk b hQ hr

/-- The rule of sequencing. -/
theorem wp_bind {p : Prog E A α} {f : α → Prog E A β} {Q : β → G → Prop} {g : G} :
    wp env ok (p.bind f) Q g ↔ wp env ok p (fun a g' => wp env ok (f a) Q g') g := by
  induction p generalizing g with
  | ret a => rfl
  | call e k ih =>
      simp only [call_bind, wp_call]
      constructor
      · exact fun h => ⟨h.1, fun r g' he => (ih r).mp (h.2 r g' he)⟩
      · exact fun h => ⟨h.1, fun r g' he => (ih r).mpr (h.2 r g' he)⟩
  | iter body s k _ ih =>
      simp only [iter_bind, wp]
      constructor
      · rintro ⟨I, h0, hI⟩
        refine ⟨I, h0, fun s g hs => wp_mono ?_ (hI s g hs)⟩
        intro r g' hr
        cases r with
        | inl s' => exact hr
        | inr b => exact (ih b).mp hr
      · rintro ⟨I, h0, hI⟩
        refine ⟨I, h0, fun s g hs => wp_mono ?_ (hI s g hs)⟩
        intro r g' hr
        cases r with
        | inl s' => exact hr
        | inr b => exact (ih b).mpr hr

@[simp] theorem wp_bind' {p : Prog E A α} {f : α → Prog E A β} {Q : β → G → Prop} {g : G} :
    wp env ok (p >>= f) Q g ↔ wp env ok p (fun a g' => wp env ok (f a) Q g') g := wp_bind

/-- The rule of loops: an invariant that holds at entry and is kept by the
body gives the loop's result. -/
theorem wp_loop {body : σ → Prog E A (σ ⊕ β)} {s : σ} {Q : β → G → Prop} {g : G}
    (I : σ → G → Prop) (h0 : I s g)
    (hI : ∀ s g, I s g → wp env ok (body s) (Sum.elim I Q) g) : wp env ok (loop body s) Q g :=
  ⟨I, h0, hI⟩

@[simp] theorem wp_ite {c : Prop} [Decidable c] {p q : Prog E A α} {Q : α → G → Prop} {g : G} :
    wp env ok (if c then p else q) Q g ↔
      (c → wp env ok p Q g) ∧ (¬ c → wp env ok q Q g) := by
  by_cases h : c <;> simp [h]

/-! ## what a weakest precondition says of runs -/

theorem wp_step {Q : α → G → Prop} {g g' : G} {p p' : Prog E A α} (h : wp env ok p Q g)
    (hs : Step env (g, p) (g', p')) : wp env ok p' Q g' := by
  cases hs with
  | call he => exact h.2 _ _ he
  | @iter _ σ δ body s k =>
      obtain ⟨I, h0, hI⟩ := h
      refine wp_bind.mpr (wp_mono ?_ (hI s g h0))
      intro r g' hr
      cases r with
      | inl s' => exact ⟨I, hr, hI⟩
      | inr b => exact hr

/-- **Induction over runs**: a weakest precondition is kept by every run. -/
theorem wp_of_run {Q : α → G → Prop} {g g' : G} {p p' : Prog E A α} (h : wp env ok p Q g)
    (hr : Run env (g, p) (g', p')) : wp env ok p' Q g' := by
  generalize hc : (g, p) = c at hr
  induction hr using ReflTransGen.head_induction_on generalizing g p with
  | refl =>
      cases hc
      exact h
  | @head _ c' hs _ ih =>
      subst hc
      exact ih (g := c'.1) (p := c'.2) (wp_step h hs) rfl

/-- Every event a run comes to issue is allowed. -/
theorem ok_of_run {Q : α → G → Prop} {g g' : G} {p : Prog E A α} {e : E} {k : A e → Prog E A α}
    (h : wp env ok p Q g) (hr : Run env (g, p) (g', call e k)) : ok g' e :=
  (wp_of_run h hr).1

/-- Every result a run comes to satisfies the postcondition. -/
theorem post_of_run {Q : α → G → Prop} {g g' : G} {p : Prog E A α} {a : α}
    (h : wp env ok p Q g) (hr : Run env (g, p) (g', ret a)) : Q a g' :=
  wp_of_run h hr

/-- With nothing disallowed, a weakest precondition says just that every result
a run comes to satisfies the postcondition. -/
theorem wp_iff_runs {p : Prog E A α} {Q : α → G → Prop} {g : G} :
    wp env (fun _ _ => True) p Q g ↔ ∀ a g', Run env (g, p) (g', ret a) → Q a g' := by
  refine ⟨fun h a g' hr => post_of_run h hr, fun h => ?_⟩
  induction p generalizing g with
  | ret a => exact h a g .refl
  | call e k ih =>
      exact ⟨trivial, fun r g₁ he => ih r fun a g' hr => h a g' (.head (.call he) hr)⟩
  | @iter σ δ _ body s k ihb ihk =>
      -- the invariant is that all is well from here
      refine ⟨fun s g => ∀ a g', Run env (g, iter body s k) (g', ret a) → Q a g', h, ?_⟩
      intro s g hs
      refine wp_mono ?_ (ihb s (Q := fun r g₁ =>
        ∀ a g', Run env (g₁, again body k r) (g', ret a) → Q a g') ?_)
      · intro r g₁ hr
        cases r with
        | inl s' => exact hr
        | inr b => exact ihk b hr
      · intro r g₁ hr a g' hr'
        exact hs a g' (.head .iter (hr.seq hr'))

/-- In a deterministic environment one run to a result settles all. -/
theorem wp_of_deterministic (hd : Deterministic env) {p : Prog E A α} {a : α}
    {Q : α → G → Prop} {g g' : G} (h : Run env (g, p) (g', ret a)) (hQ : Q a g') :
    wp env (fun _ _ => True) p Q g := by
  refine wp_iff_runs.mpr fun b g'' h' => ?_
  rcases ReflTransGen.cases_head (h'.goes_on hd h) with heq | ⟨_, hs, _⟩
  · cases heq
    exact hQ
  · cases hs

/-- What every allowed event leaves behind holds wherever a run comes to. -/
theorem inv_of_run {Q : α → G → Prop} {J : G → Prop} {g g' : G} {p p' : Prog E A α}
    (h : wp env ok p Q g) (hJ : ∀ g e r g', ok g e → env g e r g' → J g')
    (hr : Run env (g, p) (g', p')) (hg : J g) : J g' := by
  generalize hc : (g, p) = c at hr
  induction hr using ReflTransGen.head_induction_on generalizing g p with
  | refl =>
      cases hc
      exact hg
  | head hs _ ih =>
      subst hc
      have h' := wp_step h hs
      cases hs with
      | call he => exact ih h' (hJ _ _ _ _ h.1 he) rfl
      | iter => exact ih h' hg rfl

/-! ## programs that may give up -/

/-- `wp` for a program that may give up early: the postcondition is about the
runs that do not. -/
def wpOk (env : G → (e : E) → A e → G → Prop) (ok : G → E → Prop) {ε : Type}
    (p : ExceptT ε (Prog E A) α) (Q : α → G → Prop) (g : G) : Prop :=
  wp env ok p.run (fun r g' => ∀ a, r = .ok a → Q a g') g

variable {ε : Type}

@[simp] theorem wpOk_pure {Q : α → G → Prop} {g : G} (a : α) :
    wpOk env ok (pure a : ExceptT ε (Prog E A) α) Q g ↔ Q a g := by
  simp only [wpOk, ExceptT.run_pure, wp_pure, Except.ok.injEq, forall_eq']

@[simp] theorem wpOk_throw {Q : α → G → Prop} {g : G} (x : ε) :
    wpOk env ok (throw x : ExceptT ε (Prog E A) α) Q g ↔ True := by
  simp only [wpOk, ExceptT.run_throw, wp_pure, reduceCtorEq, false_imp_iff, implies_true]

@[simp] theorem wpOk_bind {p : ExceptT ε (Prog E A) α} {f : α → ExceptT ε (Prog E A) β}
    {Q : β → G → Prop} {g : G} :
    wpOk env ok (p >>= f) Q g ↔ wpOk env ok p (fun a g' => wpOk env ok (f a) Q g') g := by
  simp only [wpOk, ExceptT.run_bind, wp_bind']
  constructor
  · refine wp_mono ?_
    rintro r g' h a rfl
    exact h
  · refine wp_mono ?_
    intro r g' h
    cases r with
    | ok a => exact h a rfl
    | error x => exact fun _ h => by cases h

@[simp] theorem wpOk_lift {p : Prog E A α} {Q : α → G → Prop} {g : G} :
    wpOk env ok (liftM p : ExceptT ε (Prog E A) α) Q g ↔ wp env ok p Q g := by
  have hrun : (liftM p : ExceptT ε (Prog E A) α).run = p >>= fun a => pure (.ok a) := rfl
  simp only [wpOk, hrun, wp_bind', wp_pure, Except.ok.injEq, forall_eq']

@[simp] theorem wpOk_ite {c : Prop} [Decidable c] {p q : ExceptT ε (Prog E A) α}
    {Q : α → G → Prop} {g : G} :
    wpOk env ok (if c then p else q) Q g ↔
      (c → wpOk env ok p Q g) ∧ (¬ c → wpOk env ok q Q g) := by
  by_cases h : c <;> simp [h]

/-- `wp` for such a program, with a postcondition for either ending. -/
def wpExcept (env : G → (e : E) → A e → G → Prop) (ok : G → E → Prop)
    (p : ExceptT ε (Prog E A) α) (Q : α → G → Prop) (Qe : ε → G → Prop) (g : G) : Prop :=
  wp env ok p.run (fun r g' => match r with
    | .ok a => Q a g'
    | .error x => Qe x g') g

variable {Qe : ε → G → Prop}

@[simp] theorem wpExcept_pure {Q : α → G → Prop} {g : G} (a : α) :
    wpExcept env ok (pure a : ExceptT ε (Prog E A) α) Q Qe g ↔ Q a g := Iff.rfl

@[simp] theorem wpExcept_throw {Q : α → G → Prop} {g : G} (x : ε) :
    wpExcept env ok (throw x : ExceptT ε (Prog E A) α) Q Qe g ↔ Qe x g := Iff.rfl

@[simp] theorem wpExcept_bind {p : ExceptT ε (Prog E A) α} {f : α → ExceptT ε (Prog E A) β}
    {Q : β → G → Prop} {g : G} :
    wpExcept env ok (p >>= f) Q Qe g ↔
      wpExcept env ok p (fun a g' => wpExcept env ok (f a) Q Qe g') Qe g := by
  simp only [wpExcept, ExceptT.run_bind, wp_bind']
  constructor
  · refine wp_mono ?_
    intro r g' h
    cases r <;> exact h
  · refine wp_mono ?_
    intro r g' h
    cases r <;> exact h

@[simp] theorem wpExcept_lift {p : Prog E A α} {Q : α → G → Prop} {g : G} :
    wpExcept env ok (liftM p : ExceptT ε (Prog E A) α) Q Qe g ↔ wp env ok p Q g := by
  have hrun : (liftM p : ExceptT ε (Prog E A) α).run = p >>= fun a => pure (.ok a) := rfl
  simp only [wpExcept, hrun, wp_bind', wp_pure]

@[simp] theorem wpExcept_ite {c : Prop} [Decidable c] {p q : ExceptT ε (Prog E A) α}
    {Q : α → G → Prop} {g : G} :
    wpExcept env ok (if c then p else q) Q Qe g ↔
      (c → wpExcept env ok p Q Qe g) ∧ (¬ c → wpExcept env ok q Q Qe g) := by
  by_cases h : c <;> simp [h]

/-! ## a larger interface -/

variable {E' : Type} {A' : E' → Type}

/-- The program with each event `e` issued as `f e`. -/
def embed {α : Type} (f : E → E') (g : ∀ e, A' (f e) → A e) : Prog E A α → Prog E' A' α
  | ret a => ret a
  | call e k => call (f e) fun r => embed f g (k (g e r))
  | iter body s k => iter (fun s => embed f g (body s)) s fun b => embed f g (k b)

theorem embed_bind (f : E → E') (g : ∀ e, A' (f e) → A e) (p : Prog E A α) (q : α → Prog E A β) :
    embed f g (p.bind q) = (embed f g p).bind fun a => embed f g (q a) := by
  induction p with
  | ret a => rfl
  | call e k ih =>
      simp only [embed, call_bind]
      congr 1
      funext r
      exact ih (g e r) q
  | iter body s k _ ih =>
      simp only [embed, iter_bind]
      congr 1
      funext b
      exact ih b q

/-- A program behaves under the larger interface as it does under its own. -/
theorem wp_embed {f : E → E'} {h : ∀ e, A' (f e) → A e} {env' : G → (e : E') → A' e → G → Prop}
    {ok' : G → E' → Prop} (henv : ∀ g e r g', env' g (f e) r g' → env g e (h e r) g')
    (hok : ∀ g e, ok g e → ok' g (f e)) {p : Prog E A α} {Q : α → G → Prop} {g : G}
    (hp : wp env ok p Q g) : wp env' ok' (embed f h p) Q g := by
  induction p generalizing g with
  | ret a => exact hp
  | call e k ih => exact ⟨hok g e hp.1, fun r g' he => ih _ (hp.2 _ g' (henv g e r g' he))⟩
  | iter body s k ihb ihk =>
      obtain ⟨I, h0, hI⟩ := hp
      refine ⟨I, h0, fun s g hs => ?_⟩
      refine wp_mono ?_ (ihb s (hI s g hs))
      intro r g' hr
      cases r with
      | inl s' => exact hr
      | inr b => exact ihk b hr

/-! ## footprints -/

/-- `p` issues only events in `P`, whatever they are answered. -/
def Issues (P : E → Prop) (p : Prog E A α) : Prop :=
  wp (fun (_ : Unit) _ _ _ => True) (fun _ e => P e) p (fun _ _ => True) ()

theorem Issues.req {P : E → Prop} {e : E} (h : P e) : (Prog.req e : Prog E A (A e)).Issues P :=
  ⟨h, fun _ _ _ => trivial⟩

theorem Issues.pure {P : E → Prop} (a : α) : (Pure.pure a : Prog E A α).Issues P := trivial

theorem Issues.seq {P : E → Prop} {p : Prog E A α} {f : α → Prog E A β} (hp : p.Issues P)
    (hf : ∀ a, (f a).Issues P) : (p >>= f).Issues P :=
  wp_bind.mpr (wp_mono (fun a _ _ => hf a) hp)

theorem Issues.ite {P : E → Prop} {c : Prop} [Decidable c] {p q : Prog E A α}
    (hp : c → p.Issues P) (hq : ¬ c → q.Issues P) : (if c then p else q).Issues P :=
  wp_ite.mpr ⟨hp, hq⟩

theorem Issues.loop {P : E → Prop} {body : σ → Prog E A (σ ⊕ β)} (h : ∀ s, (body s).Issues P)
    (s : σ) : (Prog.loop body s).Issues P := by
  refine wp_loop (fun _ _ => True) trivial ?_
  intro s _ _
  refine wp_mono ?_ (h s)
  intro r _ _
  cases r <;> trivial

/-- Every program issues events. -/
theorem issues_true (p : Prog E A α) : p.Issues fun _ => True := by
  have aux : ∀ {γ : Type} (q : Prog E A γ) (Q : γ → Unit → Prop), (∀ a, Q a ()) →
      wp (fun (_ : Unit) _ _ _ => True) (fun _ _ => True) q Q () := by
    intro γ q
    induction q with
    | ret a => exact fun Q hQ => hQ a
    | call e k ih => exact fun Q hQ => ⟨trivial, fun r _ _ => ih r Q hQ⟩
    | iter body s k ihb ihk =>
        intro Q hQ
        refine ⟨fun _ _ => True, trivial, fun s _ _ => ihb s _ ?_⟩
        intro r
        cases r with
        | inl s' => trivial
        | inr b => exact ihk b Q hQ
  exact aux p _ fun _ => trivial

/-- **The frame rule**: what every event of a program's footprint keeps, the
program keeps. -/
theorem wp_of_issues {P : E → Prop} {R : G → Prop} (hok : ∀ g e, P e → R g → ok g e)
    (henv : ∀ g e r g', P e → R g → env g e r g' → R g') {p : Prog E A α} (h : p.Issues P) {g : G}
    (hg : R g) : wp env ok p (fun _ g' => R g') g := by
  have aux : ∀ {γ : Type} (q : Prog E A γ) (Q : γ → Unit → Prop) (g : G), R g →
      wp (fun (_ : Unit) _ _ _ => True) (fun _ e => P e) q Q () →
      wp env ok q (fun a g' => Q a () ∧ R g') g := by
    intro γ q
    induction q with
    | ret a => exact fun Q g hg h => ⟨h, hg⟩
    | call e k ih =>
        intro Q g hg h
        exact ⟨hok g e h.1 hg,
          fun r g' he => ih r Q g' (henv g e r g' h.1 hg he) (h.2 r () trivial)⟩
    | iter body s k ihb ihk =>
        intro Q g hg h
        obtain ⟨I, h0, hI⟩ := h
        refine ⟨fun s g => I s () ∧ R g, ⟨h0, hg⟩, ?_⟩
        rintro s g ⟨hs, hg⟩
        refine wp_mono ?_ (ihb s _ g hg (hI s () hs))
        rintro r g' ⟨hr, hg'⟩
        cases r with
        | inl s' => exact ⟨hr, hg'⟩
        | inr b => exact ihk b Q g' hg' hr
  exact wp_mono (fun _ _ h => h.2) (aux p _ g hg h)

/-! ## playing a program against a function -/

/-- `n` steps against an environment that is a function. -/
def play (h : G → (e : E) → A e × G) : Nat → G × Prog E A α → G × Prog E A α
  | 0, c => c
  | _ + 1, (g, ret a) => (g, ret a)
  | n + 1, (g, call e k) => play h n ((h g e).2, k (h g e).1)
  | n + 1, (g, iter body s k) => play h n (g, (body s).bind (again body k))

/-- Playing is running, in every environment that allows the function's
answers. -/
theorem run_play {h : G → (e : E) → A e × G} (hh : ∀ g e, env g e (h g e).1 (h g e).2) (n : Nat)
    (c : G × Prog E A α) : Run env c (play h n c) := by
  induction n generalizing c with
  | zero => exact .refl
  | succ n ih =>
      obtain ⟨g, p⟩ := c
      cases p with
      | ret a => exact .refl
      | call e k => exact .head (.call (hh g e)) (ih _)
      | iter body s k => exact .head .iter (ih _)

end Prog
end Interact
