import UefiKernel.Lib.Interact

/-!
# Rely

Programs that share memory with another party, which may move between any two
of their events.

`interleave other act` is the environment of such a program: some moves of the
other party, then the event.  A program is judged by three things at once
(`Keeps`): what it may assume when it starts, what it leaves when it returns,
and an invariant that must hold after each of its events.  Assertions about
memory survive the other party's moves only if they are `Stable`, so the rule
for an event asks for that.

`Keeps.always` is what it all comes to: along every run, and after any further
moves of the other party, the invariant holds.
-/

namespace Rely

open Relation Interact Prog

variable {S E : Type} {A : E → Type} {α β σ : Type}

/-- An assertion that the other party's moves keep. -/
def Stable (other : S → S → Prop) (P : S → Prop) : Prop := ∀ s t, other s t → P s → P t

variable {other : S → S → Prop} {P : S → Prop}

theorem Stable.steps (h : Stable other P) {s t : S} (hs : ReflTransGen other s t) (hP : P s) :
    P t := by
  induction hs with
  | refl => exact hP
  | tail _ hstep ih => exact h _ _ hstep ih

/-- The other party moves, then the event happens. -/
def interleave (other : S → S → Prop) (act : S → (e : E) → A e → S → Prop) :
    S → (e : E) → A e → S → Prop :=
  fun s e r s' => ∃ t, ReflTransGen other s t ∧ act t e r s'

variable {act : S → (e : E) → A e → S → Prop} {J : S → Prop}

/-- Started in `s`, the program leaves the invariant `J` behind after each of
its events, whatever the other party does, and returns with `Q`. -/
def Keeps (other : S → S → Prop) (act : S → (e : E) → A e → S → Prop) (J : S → Prop)
    (p : Prog E A α) (Q : α → S → Prop) (s : S) : Prop :=
  wp (interleave other act) (fun s e => ∀ r s', interleave other act s e r s' → J s') p Q s

theorem Keeps.pure {a : α} {Q : α → S → Prop} {s : S} (h : Q a s) :
    Keeps other act J (Pure.pure a : Prog E A α) Q s := h

theorem Keeps.mono {p : Prog E A α} {Q Q' : α → S → Prop} {s : S} (hQ : ∀ a s, Q a s → Q' a s)
    (h : Keeps other act J p Q s) : Keeps other act J p Q' s := wp_mono hQ h

/-- A sequence, from a specification of its first program. -/
theorem Keeps.seq {p : Prog E A α} {f : α → Prog E A β} {R : α → S → Prop} {Q : β → S → Prop}
    {s : S} (hp : Keeps other act J p R s) (hf : ∀ a t, R a t → Keeps other act J (f a) Q t) :
    Keeps other act J (p >>= f) Q s :=
  wp_bind.mpr (wp_mono hf hp)

/-- An event: a stable assertion still holds when it happens. -/
theorem Keeps.req {e : E} {Q : A e → S → Prop} {s : S} (hP : Stable other P) (hs : P s)
    (h : ∀ t r s', P t → act t e r s' → J s' ∧ Q r s') : Keeps other act J (Prog.req e) Q s := by
  refine ⟨?_, ?_⟩
  · rintro r s' ⟨t, hst, hact⟩
    exact (h t r s' (hP.steps hst hs) hact).1
  · rintro r s' ⟨t, hst, hact⟩
    exact (h t r s' (hP.steps hst hs) hact).2

/-- A loop, by an invariant of its state and memory. -/
theorem Keeps.loop {body : σ → Prog E A (σ ⊕ β)} {a : σ} {Q : β → S → Prop} {s : S}
    (I : σ → S → Prop) (h0 : I a s)
    (hI : ∀ a s, I a s → Keeps other act J (body a) (Sum.elim I Q) s) :
    Keeps other act J (Prog.loop body a) Q s :=
  wp_loop I h0 hI

theorem Keeps.ite {c : Prop} [Decidable c] {p q : Prog E A α} {Q : α → S → Prop} {s : S}
    (hp : c → Keeps other act J p Q s) (hq : ¬ c → Keeps other act J q Q s) :
    Keeps other act J (if c then p else q) Q s :=
  wp_ite.mpr ⟨hp, hq⟩

/-- **The invariant along a run**: it holds wherever a run comes to, also after
more moves of the other party. -/
theorem Keeps.always {p p' : Prog E A α} {Q : α → S → Prop} {s s' t : S}
    (h : Keeps other act J p Q s) (hJ : Stable other J) (hs : J s)
    (hr : Run (interleave other act) (s, p) (s', p')) (ht : ReflTransGen other s' t) : J t := by
  refine hJ.steps ht ?_
  exact inv_of_run h (fun _ _ _ _ hok he => hok _ _ he) hr hs

/-- What a run returns with. -/
theorem Keeps.result {p : Prog E A α} {Q : α → S → Prop} {s s' : S} {a : α}
    (h : Keeps other act J p Q s) (hr : Run (interleave other act) (s, p) (s', ret a)) : Q a s' :=
  post_of_run h hr

end Rely
