import UefiKernel.Lib.Interact

/-!
# Calculus

One set of rules for two readings of a program.

`wp` speaks of every run and `Reaches` of some run.  A proof about a program's
code mostly uses only what they have in common: how to treat a result, a
sequence, a branch and one more pass of a loop.  A `Calculus` is that common
part; `wpCalculus` and `reachCalculus` are its two instances, so a
specification proved in it is a safety property of all runs and the existence
of a run at once.  `Gives` asks for both, a run to a result and nothing but right
results; `givesCalculus` is its instance.

The module also has what connects one environment's runs with another's:
`logged` keeps the events of a run, and `Run.lockstep` carries a run over to
an environment that answers the same on the events a `wp` allows.  `wp_follow`
is the other way round: what one run comes to, in an environment of which it is
known, every run comes to in an environment that can do nothing else.
`Run.simulate` takes a run over into an environment that can do the same, and
`Run.embed` into one with more events; `wp_simulate` is for every run.
-/

namespace Interact
namespace Prog

variable {E : Type} {A : E → Type} {G α β σ : Type} {env : G → (e : E) → A e → G → Prop}

/-! ## some run -/

/-- `Reaches env target p Q g`: started in `g`, some run of `p` comes to an
event that is a target, or returns with `Q`. -/
def Reaches (env : G → (e : E) → A e → G → Prop) (target : G → E → Prop) {α : Type}
    (p : Prog E A α) (Q : α → G → Prop) (g : G) : Prop :=
  (∃ g' e k, Run env (g, p) (g', call e k) ∧ target g' e) ∨
    ∃ a g', Run env (g, p) (g', ret a) ∧ Q a g'

variable {target : G → E → Prop}

theorem reaches_ret {a : α} {Q : α → G → Prop} {g : G} (h : Q a g) :
    Reaches env target (ret a) Q g :=
  .inr ⟨a, g, .refl, h⟩

/-- The run is at a target. -/
theorem reaches_target {e : E} {k : A e → Prog E A α} {Q : α → G → Prop} {g : G}
    (h : target g e) : Reaches env target (call e k) Q g :=
  .inl ⟨g, e, k, .refl, h⟩

/-- What a run leads to is reached from where it starts. -/
theorem Reaches.of_run {p p' : Prog E A α} {Q : α → G → Prop} {g g' : G}
    (hr : Run env (g, p) (g', p')) (h : Reaches env target p' Q g') :
    Reaches env target p Q g := by
  rcases h with ⟨g₂, e, k, hr₂, ht⟩ | ⟨a, g₂, hr₂, hQ⟩
  · exact .inl ⟨g₂, e, k, hr.trans hr₂, ht⟩
  · exact .inr ⟨a, g₂, hr.trans hr₂, hQ⟩

/-- An event with an answer. -/
theorem reaches_call {e : E} {k : A e → Prog E A α} {Q : α → G → Prop} {g g' : G} {r : A e}
    (he : env g e r g') (h : Reaches env target (k r) Q g') :
    Reaches env target (call e k) Q g :=
  h.of_run (.single (.call he))

theorem reaches_req {e : E} {Q : A e → G → Prop} {g g' : G} {r : A e} (he : env g e r g')
    (h : Q r g') : Reaches env target (req e) Q g :=
  reaches_call he (reaches_ret h)

theorem Reaches.mono {p : Prog E A α} {Q Q' : α → G → Prop} (hQ : ∀ a g, Q a g → Q' a g) {g : G}
    (h : Reaches env target p Q g) : Reaches env target p Q' g := by
  rcases h with h | ⟨a, g', hr, h⟩
  · exact .inl h
  · exact .inr ⟨a, g', hr, hQ a g' h⟩

theorem Reaches.bind {p : Prog E A α} {f : α → Prog E A β} {Q : β → G → Prop} {g : G}
    (h : Reaches env target p (fun a g' => Reaches env target (f a) Q g') g) :
    Reaches env target (p.bind f) Q g := by
  rcases h with ⟨g', e, k, hr, ht⟩ | ⟨a, g', hr, h⟩
  · exact .inl ⟨g', e, fun r => (k r).bind f, hr.bind f, ht⟩
  · exact h.of_run (hr.bind f)

/-- One more pass through a loop's body. -/
theorem Reaches.unroll {body : σ → Prog E A (σ ⊕ β)} {s : σ} {Q : β → G → Prop} {g : G}
    (h : Reaches env target (body s)
      (Sum.elim (fun s' => Reaches env target (loop body s') Q) Q) g) :
    Reaches env target (loop body s) Q g := by
  refine Reaches.of_run (.single .iter) (Reaches.bind (h.mono ?_))
  intro r g' hr
  cases r with
  | inl s' => exact hr
  | inr b => exact reaches_ret hr

/-! ## every run -/

variable {ok : G → E → Prop}

theorem wp_unroll {body : σ → Prog E A (σ ⊕ β)} {s : σ} {Q : β → G → Prop} {g : G}
    (h : wp env ok (body s) (Sum.elim (fun s' => wp env ok (loop body s') Q) Q) g) :
    wp env ok (loop body s) Q g := by
  refine wp_loop
    (fun s g => wp env ok (body s) (Sum.elim (fun s' => wp env ok (loop body s') Q) Q) g) h ?_
  intro s₁ g₁ h₁
  refine wp_mono ?_ h₁
  intro r g' hr
  cases r with
  | inr b => exact hr
  | inl s' =>
      obtain ⟨I, h0, hI⟩ := hr
      refine wp_mono ?_ (hI s' g' h0)
      intro r' g'' hr'
      cases r' with
      | inl s'' => exact ⟨I, hr', hI⟩
      | inr b => exact hr'

end Prog

/-! ## what they have in common -/

open Prog

/-- A way to judge programs by their results that follows the code. -/
structure Calculus (E : Type) (A : E → Type) (G : Type) where
  holds : {α : Type} → Prog E A α → (α → G → Prop) → G → Prop
  ret : ∀ {α : Type} {a : α} {Q : α → G → Prop} {g : G}, Q a g → holds (.ret a) Q g
  bind : ∀ {α β : Type} {p : Prog E A α} {f : α → Prog E A β} {Q : β → G → Prop} {g : G},
    holds p (fun a g' => holds (f a) Q g') g → holds (p.bind f) Q g
  mono : ∀ {α : Type} {p : Prog E A α} {Q Q' : α → G → Prop} {g : G},
    (∀ a g, Q a g → Q' a g) → holds p Q g → holds p Q' g
  unroll : ∀ {σ β : Type} {body : σ → Prog E A (σ ⊕ β)} {s : σ} {Q : β → G → Prop} {g : G},
    holds (body s) (Sum.elim (fun s' => holds (loop body s') Q) Q) g → holds (loop body s) Q g

/-- Every run. -/
def wpCalculus (env : G → (e : E) → A e → G → Prop) (ok : G → E → Prop) : Calculus E A G where
  holds := wp env ok
  ret h := h
  bind := wp_bind.mpr
  mono hQ h := wp_mono hQ h
  unroll := wp_unroll

/-- Some run. -/
def reachCalculus (env : G → (e : E) → A e → G → Prop) (target : G → E → Prop) :
    Calculus E A G where
  holds := Reaches env target
  ret := reaches_ret
  bind := Reaches.bind
  mono hQ h := Reaches.mono hQ h
  unroll := Reaches.unroll

section Gives

variable {E : Type} {A : E → Type} {G α β σ : Type} {env : G → (e : E) → A e → G → Prop}

/-- The program comes to a result, and to none without the postcondition. -/
def Gives (env : G → (e : E) → A e → G → Prop) (p : Prog E A α) (Q : α → G → Prop) (g : G) :
    Prop :=
  (∃ a g', Run env (g, p) (g', ret a)) ∧ ∀ a g', Run env (g, p) (g', ret a) → Q a g'

theorem gives_iff {p : Prog E A α} {Q : α → G → Prop} {g : G} :
    Gives env p Q g ↔
      (∃ a g', Run env (g, p) (g', ret a)) ∧ wp env (fun _ _ => True) p Q g :=
  and_congr_right fun _ => wp_iff_runs.symm

/-- A program that gives a result gives one with its postcondition. -/
theorem Gives.exists_run {p : Prog E A α} {Q : α → G → Prop} {g : G} (h : Gives env p Q g) :
    ∃ a g', Run env (g, p) (g', ret a) ∧ Q a g' := by
  obtain ⟨⟨a, g', hr⟩, hall⟩ := h
  exact ⟨a, g', hr, hall a g' hr⟩

theorem Gives.mono {p : Prog E A α} {Q Q' : α → G → Prop} (hQ : ∀ a g, Q a g → Q' a g) {g : G}
    (h : Gives env p Q g) : Gives env p Q' g :=
  ⟨h.1, fun a g' hr => hQ a g' (h.2 a g' hr)⟩

theorem gives_ret {a : α} {Q : α → G → Prop} {g : G} (h : Q a g) : Gives env (ret a) Q g :=
  gives_iff.mpr ⟨⟨a, g, .refl⟩, h⟩

/-- An event: it is answered, and well however it is. -/
theorem gives_req {e : E} {Q : A e → G → Prop} {g : G} (he : ∃ r g', env g e r g')
    (hQ : ∀ r g', env g e r g' → Q r g') : Gives env (req e) Q g := by
  obtain ⟨r, g', h⟩ := he
  exact gives_iff.mpr ⟨⟨r, g', .req h⟩, trivial, hQ⟩

theorem Gives.bind {p : Prog E A α} {f : α → Prog E A β} {Q : β → G → Prop} {g : G}
    (h : Gives env p (fun a g' => Gives env (f a) Q g') g) : Gives env (p.bind f) Q g := by
  obtain ⟨a, g', hr, ha⟩ := h.exists_run
  obtain ⟨b, g'', hr', -⟩ := ha.exists_run
  refine gives_iff.mpr ⟨⟨b, g'', hr.seq hr'⟩, wp_bind.mpr ?_⟩
  exact wp_mono (fun _ _ h => (gives_iff.mp h).2) (gives_iff.mp h).2

theorem Gives.unroll {body : σ → Prog E A (σ ⊕ β)} {s : σ} {Q : β → G → Prop} {g : G}
    (h : Gives env (body s) (Sum.elim (fun s' => Gives env (loop body s') Q) Q) g) :
    Gives env (loop body s) Q g := by
  obtain ⟨r, g', hr, hpost⟩ := h.exists_run
  have hrun : ∃ b g'', Run env (g, loop body s) (g'', ret b) := by
    cases r with
    | inl s' =>
        obtain ⟨b, g'', hr', -⟩ := hpost.exists_run
        exact ⟨b, g'', hr.again hr'⟩
    | inr b => exact ⟨b, g', hr.leave .refl⟩
  refine gives_iff.mpr ⟨hrun, wp_unroll (wp_mono ?_ (gives_iff.mp h).2)⟩
  intro r g₁ hr₁
  cases r with
  | inl s' => exact (gives_iff.mp hr₁).2
  | inr b => exact hr₁

/-- All results, and at least one. -/
def givesCalculus (env : G → (e : E) → A e → G → Prop) : Calculus E A G where
  holds := Gives env
  ret := gives_ret
  bind := Gives.bind
  mono hQ h := Gives.mono hQ h
  unroll := Gives.unroll

/-- A sequence, from what its first program gives. -/
theorem Gives.seq {p : Prog E A α} {f : α → Prog E A β} {P : α → G → Prop} {Q : β → G → Prop}
    {g : G} (hp : Gives env p P g) (hf : ∀ a g', P a g' → Gives env (f a) Q g') :
    Gives env (p >>= f) Q g :=
  Gives.bind (hp.mono hf)

theorem Gives.ite {c : Prop} [Decidable c] {p q : Prog E A α} {Q : α → G → Prop} {g : G}
    (hp : c → Gives env p Q g) (hq : ¬ c → Gives env q Q g) :
    Gives env (if c then p else q) Q g := by
  by_cases h : c
  · rw [if_pos h]
    exact hp h
  · rw [if_neg h]
    exact hq h

/-- In a deterministic environment a run to a result gives it. -/
theorem gives_of_deterministic (hd : Deterministic env) {p : Prog E A α} {a : α}
    {Q : α → G → Prop} {g g' : G} (h : Run env (g, p) (g', ret a)) (hQ : Q a g') :
    Gives env p Q g :=
  gives_iff.mpr ⟨⟨a, g', h⟩, wp_of_deterministic hd h hQ⟩

end Gives

namespace Calculus

variable {E : Type} {A : E → Type} {G α β σ : Type} (L : Calculus E A G)

theorem pure {a : α} {Q : α → G → Prop} {g : G} (h : Q a g) :
    L.holds (Pure.pure a : Prog E A α) Q g := L.ret h

/-- A sequence, from a specification of its first program. -/
theorem seq {p : Prog E A α} {f : α → Prog E A β} {P : α → G → Prop} {Q : β → G → Prop} {g : G}
    (hp : L.holds p P g) (hf : ∀ a g', P a g' → L.holds (f a) Q g') :
    L.holds (p >>= f) Q g :=
  L.bind (L.mono hf hp)

theorem ite {c : Prop} [Decidable c] {p q : Prog E A α} {Q : α → G → Prop} {g : G}
    (hp : c → L.holds p Q g) (hq : ¬ c → L.holds q Q g) :
    L.holds (if c then p else q) Q g := by
  by_cases h : c
  · rw [if_pos h]
    exact hp h
  · rw [if_neg h]
    exact hq h

/-- The rule of loops with a variant: each pass that goes on makes the variant
smaller. -/
theorem loop {body : σ → Prog E A (σ ⊕ β)} {Q : β → G → Prop} (I : Nat → σ → G → Prop)
    (hI : ∀ n s g, I n s g →
      L.holds (body s) (Sum.elim (fun s' g' => ∃ m < n, I m s' g') Q) g)
    {n : Nat} {s : σ} {g : G} (h : I n s g) : L.holds (Prog.loop body s) Q g := by
  induction n using Nat.strongRecOn generalizing s g with
  | _ n ih =>
    refine L.unroll (L.mono ?_ (hI n s g h))
    intro r g' hr
    cases r with
    | inl s' =>
        obtain ⟨m, hm, hs⟩ := hr
        exact ih m hm hs
    | inr b => exact hr

/-- The rule of counting loops. -/
theorem forCount {body : Nat → σ → Prog E A σ} (lo n : Nat) (I : Nat → σ → G → Prop)
    (hI : ∀ i s g, lo ≤ i → i < lo + n → I i s g → L.holds (body i s) (I (i + 1)) g)
    {s : σ} {g : G} (h : I lo s g) : L.holds (Prog.forCount body lo n s) (I (lo + n)) g := by
  induction n generalizing lo s g with
  | zero => exact L.ret h
  | succ n ih =>
      refine L.bind (L.mono ?_ (hI lo s g (Nat.le_refl lo) (by omega) h))
      intro s' g' h'
      have hlast : lo + (n + 1) = lo + 1 + n := by omega
      rw [hlast]
      refine ih (lo + 1) ?_ h'
      intro i s g hlo hhi
      exact hI i s g (by omega) (by omega)

end Calculus

namespace Prog

variable {E : Type} {A : E → Type} {G α : Type} {env : G → (e : E) → A e → G → Prop}
  {ok : G → E → Prop}

/-! ## from one environment to another -/

/-- The environment that keeps the events it has answered. -/
def logged (env : G → (e : E) → A e → G → Prop) : G × List E → (e : E) → A e → G × List E → Prop :=
  fun s e r s' => env s.1 e r s'.1 ∧ s'.2 = s.2 ++ [e]

/-- Keeping a log changes no run. -/
theorem Run.with_log {g g' : G} {p p' : Prog E A α} (h : Run env (g, p) (g', p')) (es : List E) :
    ∃ es', Run (logged env) ((g, es), p) ((g', es'), p') := by
  generalize hc : (g, p) = c at h
  induction h using Relation.ReflTransGen.head_induction_on generalizing g p es with
  | refl =>
      cases hc
      exact ⟨es, .refl⟩
  | head hs _ ih =>
      subst hc
      cases hs with
      | @call _ g₁ e k r he =>
          obtain ⟨es', hr⟩ := ih (es ++ [e]) rfl
          have he' : logged env (g, es) e r (g₁, es ++ [e]) := ⟨he, rfl⟩
          exact ⟨es', .head (.call he') hr⟩
      | iter =>
          obtain ⟨es', hr⟩ := ih es rfl
          exact ⟨es', .head .iter hr⟩

/-- A run on allowed events is a run of every environment that gives the same
answers on them. -/
theorem Run.lockstep {env' : G → (e : E) → A e → G → Prop}
    (henv : ∀ g e r g', ok g e → env g e r g' → env' g e r g') {Q : α → G → Prop} {g g' : G}
    {p p' : Prog E A α} (h : wp env ok p Q g) (hr : Run env (g, p) (g', p')) :
    Run env' (g, p) (g', p') := by
  generalize hc : (g, p) = c at hr
  induction hr using Relation.ReflTransGen.head_induction_on generalizing g p with
  | refl =>
      cases hc
      exact .refl
  | head hs _ ih =>
      subst hc
      have h' := wp_step h hs
      cases hs with
      | call he => exact .head (.call (henv _ _ _ _ h.1 he)) (ih h' rfl)
      | iter => exact .head .iter (ih h' rfl)

section Follow

variable {β G' : Type} {env' : G' → (e : E) → A e → G' → Prop} {ok' : G' → E → Prop}

/-- Where a loop of a sequence goes after one pass. -/
theorem again_bind {σ δ : Type} (body : σ → Prog E A (σ ⊕ δ)) (k : δ → Prog E A α)
    (f : α → Prog E A β) :
    (fun r => (again body k r).bind f) = again body fun b => (k b).bind f := by
  funext r
  cases r <;> rfl

/-- A run of a sequence to a result is one of its first program and one of the
second. -/
theorem Run.of_bind {p : Prog E A α} {f : α → Prog E A β} {g g' : G} {b : β}
    (h : Run env (g, p.bind f) (g', ret b)) :
    ∃ a g₁, Run env (g, p) (g₁, ret a) ∧ Run env (g₁, f a) (g', ret b) := by
  generalize hc : (g, p.bind f) = c at h
  induction h using Relation.ReflTransGen.head_induction_on generalizing g p with
  | refl =>
      cases p with
      | ret a =>
          obtain ⟨rfl, hp⟩ := Prod.mk.inj hc
          exact ⟨a, g, .refl, by rw [← hp]; exact .refl⟩
      | call e k => cases hc
      | iter body s k => cases hc
  | @head _ c₁ hs hrest ih =>
      subst hc
      cases p with
      | ret a => exact ⟨a, g, .refl, .head hs hrest⟩
      | call e k =>
          cases hs with
          | call he =>
              obtain ⟨a, g₁, h₁, h₂⟩ := ih rfl
              exact ⟨a, g₁, .head (.call he) h₁, h₂⟩
      | iter body s k =>
          cases hs with
          | iter =>
              obtain ⟨a, g₁, h₁, h₂⟩ := ih (g := g) (p := (body s).bind (Prog.again body k))
                (by rw [bind_assoc, again_bind])
              exact ⟨a, g₁, .head .iter h₁, h₂⟩

/-- The ghost states that an environment can go through. -/
def Leads (env : G → (e : E) → A e → G → Prop) : G → G → Prop :=
  Relation.ReflTransGen fun g g' => ∃ e r, env g e r g'

theorem Run.leads {g g' : G} {p p' : Prog E A α} (h : Run env (g, p) (g', p')) :
    Leads env g g' :=
  Run.rel (R := Leads env) (fun _ => .refl) (fun h₁ h₂ => h₁.trans h₂)
    (fun _ _ _ _ he => .single ⟨_, _, he⟩) h

/-- **A run that is followed.** Where each answer of the one environment, on the
way to its last state, is the only answer of the other, up to `R`, a run to a
result in the one says what every run in the other comes to. -/
theorem wp_follow {R : G → G' → Prop} {last : G}
    (henv : ∀ g e r g₁ s, env g e r g₁ → Leads env g₁ last → R g s →
      ok' s e ∧ ∀ r' s', env' s e r' s' → r' = r ∧ R g₁ s')
    {p : Prog E A α} {g : G} {a : α} (h : Run env (g, p) (last, ret a)) {s : G'} (hR : R g s) :
    wp env' ok' p (fun b s' => b = a ∧ R last s') s := by
  have aux : ∀ {γ : Type} (q : Prog E A γ) (Q : γ → G' → Prop) (g : G) (s : G'), R g s →
      (∃ c g₁, Run env (g, q) (g₁, ret c) ∧ Leads env g₁ last ∧ ∀ s', R g₁ s' → Q c s') →
      wp env' ok' q Q s := by
    intro γ q
    induction q with
    | ret c =>
        rintro Q g s hR ⟨c', g₁, hr, -, hQ⟩
        rcases Relation.ReflTransGen.cases_head hr with heq | ⟨_, hs, _⟩
        · cases heq
          exact hQ s hR
        · cases hs
    | call e k ih =>
        rintro Q g s hR ⟨c', g₁, hr, hlast, hQ⟩
        rcases Relation.ReflTransGen.cases_head hr with heq | ⟨_, hs, hrest⟩
        · cases heq
        · cases hs with
          | @call _ g₂ _ _ r he =>
              obtain ⟨hok, hsame⟩ := henv g e r g₂ s he ((Run.leads hrest).trans hlast) hR
              refine ⟨hok, fun r' s' he' => ?_⟩
              obtain ⟨rfl, hR'⟩ := hsame r' s' he'
              exact ih r' Q g₂ s' hR' ⟨c', g₁, hrest, hlast, hQ⟩
    | iter body x k ihb ihk =>
        rintro Q g s hR h
        -- the invariant is that some run goes on to a good result
        refine ⟨fun x s => ∃ g, R g s ∧ ∃ c g₁, Run env (g, iter body x k) (g₁, ret c) ∧
          Leads env g₁ last ∧ ∀ s', R g₁ s' → Q c s', ⟨g, hR, h⟩, ?_⟩
        rintro x s ⟨g, hR, c, g₁, hr, hlast, hQ⟩
        rcases Relation.ReflTransGen.cases_head hr with heq | ⟨_, hs, hrest⟩
        · cases heq
        · cases hs
          obtain ⟨r, g₂, hpass, hgo⟩ := Run.of_bind hrest
          refine ihb x _ g s hR ⟨r, g₂, hpass, (Run.leads hgo).trans hlast, fun s' hR' => ?_⟩
          cases r with
          | inl x' => exact ⟨g₂, hR', c, g₁, hgo, hlast, hQ⟩
          | inr b => exact ihk b Q g₂ s' hR' ⟨c, g₁, hgo, hlast, hQ⟩
  exact aux p _ g s hR ⟨a, last, h, .refl, fun s' hR' => ⟨rfl, hR'⟩⟩

/-- A run is taken over into an environment that can do the same. -/
theorem Run.simulate {R : G → G' → Prop}
    (henv : ∀ g e r g₁ s, env g e r g₁ → R g s → ∃ s', env' s e r s' ∧ R g₁ s')
    {p p' : Prog E A α} {g g' : G} (h : Run env (g, p) (g', p')) {s : G'} (hR : R g s) :
    ∃ s', Run env' (s, p) (s', p') ∧ R g' s' := by
  generalize hc : (g, p) = c at h
  induction h using Relation.ReflTransGen.head_induction_on generalizing g p s with
  | refl =>
      cases hc
      exact ⟨s, .refl, hR⟩
  | head hs _ ih =>
      subst hc
      cases hs with
      | call he =>
          obtain ⟨s₁, he', hR₁⟩ := henv _ _ _ _ s he hR
          obtain ⟨s', hr, hR'⟩ := ih hR₁ rfl
          exact ⟨s', .head (.call he') hr, hR'⟩
      | iter =>
          obtain ⟨s', hr, hR'⟩ := ih hR rfl
          exact ⟨s', .head .iter hr, hR'⟩

/-- Two postconditions, which may have been found for different reasons. -/
theorem wp_and {ok ok' : G → E → Prop} {p : Prog E A α} {Q Q' : α → G → Prop} {g : G}
    (h : wp env ok p Q g) (h' : wp env ok' p Q' g) :
    wp env ok p (fun a g' => Q a g' ∧ Q' a g') g := by
  induction p generalizing g with
  | ret a => exact ⟨h, h'⟩
  | call e k ih => exact ⟨h.1, fun r g' he => ih r (h.2 r g' he) (h'.2 r g' he)⟩
  | iter body s k ihb ihk =>
      obtain ⟨I, h0, hI⟩ := h
      obtain ⟨I', h0', hI'⟩ := h'
      refine ⟨fun s g => I s g ∧ I' s g, ⟨h0, h0'⟩, ?_⟩
      rintro s g ⟨hs, hs'⟩
      refine wp_mono ?_ (ihb s (hI s g hs) (hI' s g hs'))
      rintro r g' ⟨hr, hr'⟩
      cases r with
      | inl s' => exact ⟨hr, hr'⟩
      | inr b => exact ihk b hr hr'

/-- What holds of every run holds in an environment that can do no more. -/
theorem wp_simulate {R : G → G' → Prop} {ok : G → E → Prop} {ok' : G' → E → Prop}
    (henv : ∀ g e r s s', env' s e r s' → R g s → ∃ g', env g e r g' ∧ R g' s')
    (hok : ∀ g e s, ok g e → R g s → ok' s e) {p : Prog E A α} {Q : α → G → Prop} {g : G}
    (h : wp env ok p Q g) {s : G'} (hR : R g s) :
    wp env' ok' p (fun a s' => ∃ g', Q a g' ∧ R g' s') s := by
  induction p generalizing g s with
  | ret a => exact ⟨g, h, hR⟩
  | call e k ih =>
      refine ⟨hok g e s h.1 hR, fun r s₁ he => ?_⟩
      obtain ⟨g₁, he', hR₁⟩ := henv g e r s s₁ he hR
      exact ih r (h.2 r g₁ he') hR₁
  | iter body x k ihb ihk =>
      obtain ⟨I, h0, hI⟩ := h
      refine ⟨fun y s => ∃ g, I y g ∧ R g s, ⟨g, h0, hR⟩, ?_⟩
      rintro y s₁ ⟨g₁, hy, hR₁⟩
      refine wp_mono ?_ (ihb y (hI y g₁ hy) hR₁)
      rintro (y' | b) s₂ ⟨g₂, hr, hR₂⟩
      · exact ⟨g₂, hr, hR₂⟩
      · exact ihk b hr hR₂

end Follow

/-- A run under the larger interface. -/
theorem Run.embed {E' : Type} {A' : E' → Type} {f : E → E'} {h : ∀ e, A' (f e) → A e}
    {env' : G → (e : E') → A' e → G → Prop}
    (henv : ∀ g e r g', env g e r g' → ∃ r', h e r' = r ∧ env' g (f e) r' g') {g g' : G}
    {p q : Prog E A α} (hr : Run env (g, p) (g', q)) :
    Run env' (g, Prog.embed f h p) (g', Prog.embed f h q) := by
  generalize hc : (g, p) = c at hr
  induction hr using Relation.ReflTransGen.head_induction_on generalizing g p with
  | refl =>
      cases hc
      exact .refl
  | head hs _ ih =>
      subst hc
      cases hs with
      | call he =>
          obtain ⟨r', rfl, he'⟩ := henv _ _ _ _ he
          exact .head (.call he') (ih rfl)
      | @iter _ σ δ body s k =>
          have hnext := ih (g := g) (p := (body s).bind (Prog.again body k)) rfl
          have hpass : Prog.embed f h ((body s).bind (Prog.again body k)) =
              (Prog.embed f h (body s)).bind
                (Prog.again (fun s => Prog.embed f h (body s)) fun b => Prog.embed f h (k b)) := by
            rw [embed_bind]
            congr 1
            funext r
            cases r <;> rfl
          rw [hpass] at hnext
          exact .head .iter hnext

end Prog
end Interact
