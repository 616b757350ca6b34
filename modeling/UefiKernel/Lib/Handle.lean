import UefiKernel.Lib.Interact

/-!
# Handle

Programs whose events are carried out by other programs.

`handle f p s` is the program `p` with each event `e` done by `f s e`, which
has events of its own and a state `s` to keep.  A function that is called with
a callback is of this kind: the callback is an event of the function, and `f`
what the callback does.

`Run.handle` carries a run over: where each answer of an environment is what
`f` comes to in another one, a run to a result in the one is a run to the same
result in the other; `Run.handle_to` does the same for a run that has come to any
point.  `wp_handle` is for every run: if `f` can come to nothing but answers of the
environment, what holds of every run there holds here.
-/

namespace Interact
namespace Prog

open Relation

variable {E E' : Type} {A : E → Type} {A' : E' → Type} {G G' S α β σ : Type}

/-- A result with the state, as one or the other with the state. -/
def withState : (σ ⊕ β) × S → (σ × S) ⊕ (β × S)
  | (.inl x, s) => .inl (x, s)
  | (.inr b, s) => .inr (b, s)

/-- The program with each event `e` carried out by `f s e`. -/
def handle (f : S → (e : E) → Prog E' A' (A e × S)) {α : Type} :
    Prog E A α → S → Prog E' A' (α × S)
  | ret a, s => ret (a, s)
  | call e k, s => (f s e).bind fun r => handle f (k r.1) r.2
  | iter body x k, s =>
      iter (fun c => (handle f (body c.1) c.2).bind fun r => ret (withState r)) (x, s)
        fun r => handle f (k r.1) r.2

variable {f : S → (e : E) → Prog E' A' (A e × S)}

theorem handle_bind (p : Prog E A α) (q : α → Prog E A β) (s : S) :
    handle f (p.bind q) s = (handle f p s).bind fun r => handle f (q r.1) r.2 := by
  induction p generalizing s with
  | ret a => rfl
  | call e k ih =>
      simp only [call_bind, handle, bind_assoc]
      congr 1
      funext r
      exact ih r.1 q r.2
  | iter body x k _ ih =>
      simp only [iter_bind, handle]
      congr 1
      funext r
      exact ih r.1 q r.2

/-- One more pass of a handled loop is a handled pass. -/
theorem handle_again {body : σ → Prog E A (σ ⊕ β)} {x : σ} {k : β → Prog E A α} {s : S} :
    handle f ((body x).bind (again body k)) s =
      ((handle f (body x) s).bind fun r => ret (withState r)).bind
        (again (fun c => (handle f (body c.1) c.2).bind fun r => ret (withState r))
          fun r => handle f (k r.1) r.2) := by
  rw [handle_bind, bind_assoc]
  congr 1
  funext r
  obtain ⟨r, s⟩ := r
  cases r <;> rfl

/-- What every answer carries back, a run carries back. -/
theorem Run.back {env : G → (e : E) → A e → G → Prop} {J : G → Prop}
    (hJ : ∀ g e r g', env g e r g' → J g' → J g) {g g' : G} {p p' : Prog E A α}
    (h : Run env (g, p) (g', p')) (hg' : J g') : J g :=
  Run.rel (R := fun g g' => J g' → J g) (fun _ h => h) (fun h₁ h₂ h => h₁ (h₂ h)) hJ h hg'

/-- **Simulation**: `R` relates what the one environment keeps to the state and
what the other one keeps.  It has to be kept only while `J` holds, which is
known at the end of the run. -/
theorem Run.handle {env : G → (e : E) → A e → G → Prop} {env' : G' → (e : E') → A' e → G' → Prop}
    {R : G → S → G' → Prop} {J : G → Prop} (hJ : ∀ g e r g', env g e r g' → J g' → J g)
    (hR : ∀ g e r g' s w, env g e r g' → J g' → R g s w →
      ∃ s' w', Run env' (w, f s e) (w', ret (r, s')) ∧ R g' s' w')
    {g g' : G} {p : Prog E A α} {a : α} (h : Run env (g, p) (g', ret a)) (hg' : J g') {s : S}
    {w : G'} (hs : R g s w) :
    ∃ s' w', Run env' (w, handle f p s) (w', ret (a, s')) ∧ R g' s' w' := by
  generalize hc : (g, p) = c at h
  induction h using ReflTransGen.head_induction_on generalizing g p s w with
  | refl =>
      cases hc
      exact ⟨s, w, .refl, hs⟩
  | head hstep hrest ih =>
      subst hc
      cases hstep with
      | @call _ g₁ e k r he =>
          obtain ⟨s₁, w₁, hr₁, hs₁⟩ := hR _ _ _ _ _ _ he (Run.back hJ hrest hg') hs
          obtain ⟨s', w', hr', hs'⟩ := ih hs₁ rfl
          exact ⟨s', w', Run.seq hr₁ hr', hs'⟩
      | iter =>
          obtain ⟨s', w', hr', hs'⟩ := ih hs rfl
          rw [handle_again] at hr'
          exact ⟨s', w', .head .iter hr', hs'⟩

/-- A run that has come to some point of the program has come to that point of the
handled one. -/
theorem Run.handle_to {env : G → (e : E) → A e → G → Prop}
    {env' : G' → (e : E') → A' e → G' → Prop} {R : G → S → G' → Prop}
    (hR : ∀ g e r g' s w, env g e r g' → R g s w →
      ∃ s' w', Run env' (w, f s e) (w', ret (r, s')) ∧ R g' s' w')
    {g g' : G} {p p' : Prog E A α} (h : Run env (g, p) (g', p')) {s : S} {w : G'} (hs : R g s w) :
    ∃ s' w', Run env' (w, p.handle f s) (w', p'.handle f s') ∧ R g' s' w' := by
  generalize hc : (g, p) = c at h
  induction h using ReflTransGen.head_induction_on generalizing g p s w with
  | refl =>
      cases hc
      exact ⟨s, w, .refl, hs⟩
  | head hstep _ ih =>
      subst hc
      cases hstep with
      | @call _ g₁ e k r he =>
          obtain ⟨s₁, w₁, hr₁, hs₁⟩ := hR _ _ _ _ _ _ he hs
          obtain ⟨s', w', hr', hs'⟩ := ih hs₁ rfl
          exact ⟨s', w', Run.seq hr₁ hr', hs'⟩
      | iter =>
          obtain ⟨s', w', hr', hs'⟩ := ih hs rfl
          rw [handle_again] at hr'
          exact ⟨s', w', .head .iter hr', hs'⟩

/-- **Every run**: what `f` comes to are answers that the environment can give. -/
theorem wp_handle {env : G → (e : E) → A e → G → Prop} {ok : G → E → Prop}
    {env' : G' → (e : E') → A' e → G' → Prop} {ok' : G' → E' → Prop} {R : G → S → G' → Prop}
    (hf : ∀ g e s w, ok g e → R g s w →
      wp env' ok' (f s e) (fun r w' => ∃ g', env g e r.1 g' ∧ R g' r.2 w') w)
    {p : Prog E A α} {Q : α → G → Prop} {g : G} (h : wp env ok p Q g) {s : S} {w : G'}
    (hs : R g s w) :
    wp env' ok' (handle f p s) (fun r w' => ∃ g', Q r.1 g' ∧ R g' r.2 w') w := by
  induction p generalizing g s w with
  | ret a => exact ⟨g, h, hs⟩
  | call e k ih =>
      refine wp_bind.mpr (wp_mono ?_ (hf g e s w h.1 hs))
      rintro r w₁ ⟨g₁, he, hs₁⟩
      exact ih r.1 (h.2 r.1 g₁ he) hs₁
  | iter body x k ihb ihk =>
      obtain ⟨I, h0, hI⟩ := h
      refine ⟨fun c w => ∃ g, I c.1 g ∧ R g c.2 w, ⟨g, h0, hs⟩, ?_⟩
      rintro c w₁ ⟨g₁, hx, hs₁⟩
      refine wp_bind.mpr (wp_mono ?_ (ihb c.1 (hI c.1 g₁ hx) hs₁))
      rintro ⟨r, s₂⟩ w₂ ⟨g₂, hr, hs₂⟩
      cases r with
      | inl y => exact ⟨g₂, hr, hs₂⟩
      | inr b => exact ihk b hr hs₂

end Prog
end Interact
