import UefiKernel.Lib.Rely

/-!
# Parallel

Two programs on one shared memory.

`Behaves rely guar` says of one program that it needs no more of the others
than moves in `rely`, and that each of its own events is a move in `guar`.  Two
programs of which each one's events are moves that the other relies on may run
side by side in any order (`Behaves.parallel`): wherever that comes to, each of
them still behaves.  So what a program returns with is what its own
specification says (`Since.result`), and what every move keeps holds throughout.
-/

namespace Rely

open Relation Interact Prog

variable {S E F : Type} {A : E → Type} {B : F → Type} {α β γ σ : Type}

/-! ## one program -/

section One

variable {rely guar : S → S → Prop} {act : S → (e : E) → A e → S → Prop}

/-- An event that is a move in `guar`, whatever the others do before it. -/
def Guarantees (rely guar : S → S → Prop) (act : S → (e : E) → A e → S → Prop) (s : S) (e : E) :
    Prop :=
  ∀ t r s', ReflTransGen rely s t → act t e r s' → guar t s'

/-- Started in `s`, among moves in `rely`, the program's events are moves in
`guar`, and it returns with `Q`. -/
def Behaves (rely guar : S → S → Prop) (act : S → (e : E) → A e → S → Prop) (p : Prog E A α)
    (Q : α → S → Prop) (s : S) : Prop :=
  wp (interleave rely act) (Guarantees rely guar act) p Q s

namespace Behaves

theorem pure {a : α} {Q : α → S → Prop} {s : S} (h : Q a s) :
    Behaves rely guar act (Pure.pure a : Prog E A α) Q s := h

theorem mono {p : Prog E A α} {Q Q' : α → S → Prop} {s : S} (hQ : ∀ a s, Q a s → Q' a s)
    (h : Behaves rely guar act p Q s) : Behaves rely guar act p Q' s := wp_mono hQ h

theorem seq {p : Prog E A α} {f : α → Prog E A β} {R : α → S → Prop} {Q : β → S → Prop} {s : S}
    (hp : Behaves rely guar act p R s) (hf : ∀ a t, R a t → Behaves rely guar act (f a) Q t) :
    Behaves rely guar act (p >>= f) Q s :=
  wp_bind.mpr (wp_mono hf hp)

/-- An event: a stable assertion still holds when it happens. -/
theorem req {P : S → Prop} {e : E} {Q : A e → S → Prop} {s : S} (hP : Stable rely P) (hs : P s)
    (h : ∀ t r s', P t → act t e r s' → guar t s' ∧ Q r s') :
    Behaves rely guar act (Prog.req e) Q s := by
  refine ⟨?_, ?_⟩
  · intro t r s' hst hact
    exact (h t r s' (hP.steps hst hs) hact).1
  · rintro r s' ⟨t, hst, hact⟩
    exact (h t r s' (hP.steps hst hs) hact).2

theorem ite {c : Prop} [Decidable c] {p q : Prog E A α} {Q : α → S → Prop} {s : S}
    (hp : c → Behaves rely guar act p Q s) (hq : ¬ c → Behaves rely guar act q Q s) :
    Behaves rely guar act (if c then p else q) Q s :=
  wp_ite.mpr ⟨hp, hq⟩

/-- A program whose events all keep a stable assertion. -/
theorem of_issues {P : S → Prop} {K : E → Prop} (hP : Stable rely P)
    (h : ∀ e t r s', K e → P t → act t e r s' → guar t s' ∧ P s') {p : Prog E A α}
    (hp : p.Issues K) {s : S} (hs : P s) : Behaves rely guar act p (fun _ s' => P s') s := by
  refine wp_of_issues ?_ ?_ hp hs
  · intro s e he hs t r s' hst hact
    exact (h e t r s' he (hP.steps hst hs) hact).1
  · rintro s e r s' he hs ⟨t, hst, hact⟩
    exact (h e t r s' he (hP.steps hst hs) hact).2

end Behaves

end One

/-! ## two programs -/

section Two

variable {act₁ : S → (e : E) → A e → S → Prop} {act₂ : S → (e : F) → B e → S → Prop}
  {other : S → S → Prop}

/-- Two programs, and the memory between them. -/
structure Beside (S : Type) (E : Type) (A : E → Type) (F : Type) (B : F → Type)
    (α β : Type) where
  mem : S
  left : Prog E A α
  right : Prog F B β

/-- One of them takes a step, or somebody else moves. -/
inductive Beside.Step (act₁ : S → (e : E) → A e → S → Prop)
    (act₂ : S → (e : F) → B e → S → Prop) (other : S → S → Prop) :
    Beside S E A F B α β → Beside S E A F B α β → Prop
  | left {s s' : S} {p p' : Prog E A α} {q : Prog F B β} (h : Prog.Step act₁ (s, p) (s', p')) :
      Step act₁ act₂ other ⟨s, p, q⟩ ⟨s', p', q⟩
  | right {s s' : S} {p : Prog E A α} {q q' : Prog F B β} (h : Prog.Step act₂ (s, q) (s', q')) :
      Step act₁ act₂ other ⟨s, p, q⟩ ⟨s', p, q'⟩
  | other {s s' : S} {p : Prog E A α} {q : Prog F B β} (h : other s s') :
      Step act₁ act₂ other ⟨s, p, q⟩ ⟨s', p, q⟩

/-- Any number of steps, in any order. -/
abbrev Beside.Run (act₁ : S → (e : E) → A e → S → Prop)
    (act₂ : S → (e : F) → B e → S → Prop) (other : S → S → Prop) :
    Beside S E A F B α β → Beside S E A F B α β → Prop :=
  ReflTransGen (Beside.Step act₁ act₂ other)

/-- The first program's steps alone. -/
theorem Beside.Run.of_left {s s' : S} {p p' : Prog E A α} {q : Prog F B β}
    (h : Prog.Run act₁ (s, p) (s', p')) :
    Beside.Run act₁ act₂ other ⟨s, p, q⟩ ⟨s', p', q⟩ :=
  h.lift (fun c => (⟨c.1, c.2, q⟩ : Beside S E A F B α β)) fun _ _ hs => .left hs

/-- The second program's steps alone. -/
theorem Beside.Run.of_right {s s' : S} {p : Prog E A α} {q q' : Prog F B β}
    (h : Prog.Run act₂ (s, q) (s', q')) :
    Beside.Run act₁ act₂ other ⟨s, p, q⟩ ⟨s', p, q'⟩ :=
  h.lift (fun c => (⟨c.1, p, c.2⟩ : Beside S E A F B α β)) fun _ _ hs => .right hs

/-- The moves of two programs and of the others fit together. -/
structure Fits (rely₁ guar₁ rely₂ guar₂ other : S → S → Prop) : Prop where
  left : ∀ s t, guar₁ s t → rely₂ s t
  right : ∀ s t, guar₂ s t → rely₁ s t
  other_left : ∀ s t, other s t → rely₁ s t
  other_right : ∀ s t, other s t → rely₂ s t

variable {rely₁ guar₁ rely₂ guar₂ : S → S → Prop} {Q₁ : α → S → Prop} {Q₂ : β → S → Prop}

/-- Since some earlier moment there were moves of others only. -/
def Since (rely guar : S → S → Prop) (act : S → (e : E) → A e → S → Prop) (p : Prog E A α)
    (Q : α → S → Prop) (s : S) : Prop :=
  ∃ s₀, Behaves rely guar act p Q s₀ ∧ ReflTransGen rely s₀ s

theorem Since.move {p : Prog E A α} {act : S → (e : E) → A e → S → Prop} {rely guar : S → S → Prop}
    {Q : α → S → Prop} {s t : S} (h : Since rely guar act p Q s) (hst : rely s t) :
    Since rely guar act p Q t := by
  obtain ⟨s₀, hp, hs₀⟩ := h
  exact ⟨s₀, hp, hs₀.tail hst⟩

/-- A step of the program: it still behaves, and the step is a move in `guar`, if
it is a move at all. -/
theorem Since.step {p p' : Prog E A α} {act : S → (e : E) → A e → S → Prop}
    {rely guar : S → S → Prop} {Q : α → S → Prop} {s s' : S} (h : Since rely guar act p Q s)
    (hs : Prog.Step act (s, p) (s', p')) :
    Since rely guar act p' Q s' ∧ (s' = s ∨ guar s s') := by
  obtain ⟨s₀, hp, hs₀⟩ := h
  cases hs with
  | call he =>
      have hnext : interleave rely act s₀ _ _ s' := ⟨s, hs₀, he⟩
      exact ⟨⟨s', wp_step hp (.call hnext), .refl⟩, .inr (hp.1 s _ s' hs₀ he)⟩
  | iter => exact ⟨⟨s₀, wp_step hp .iter, hs₀⟩, .inl rfl⟩

/-- A move of anybody. -/
def Move (guar₁ guar₂ other : S → S → Prop) (s t : S) : Prop :=
  guar₁ s t ∨ guar₂ s t ∨ other s t

/-- **Two programs side by side.** In every order of their steps each of them
behaves as it does alone among moves it relies on, and there are no other moves
than they guarantee. -/
theorem Behaves.parallel (hfits : Fits rely₁ guar₁ rely₂ guar₂ other) {s : S}
    {p : Prog E A α} {q : Prog F B β} (hp : Behaves rely₁ guar₁ act₁ p Q₁ s)
    (hq : Behaves rely₂ guar₂ act₂ q Q₂ s) {c : Beside S E A F B α β}
    (hr : Beside.Run act₁ act₂ other ⟨s, p, q⟩ c) :
    Since rely₁ guar₁ act₁ c.left Q₁ c.mem ∧ Since rely₂ guar₂ act₂ c.right Q₂ c.mem ∧
      ReflTransGen (Move guar₁ guar₂ other) s c.mem := by
  induction hr with
  | refl => exact ⟨⟨s, hp, .refl⟩, ⟨s, hq, .refl⟩, .refl⟩
  | tail _ hstep ih =>
      obtain ⟨h₁, h₂, hmoves⟩ := ih
      cases hstep with
      | left hs =>
          obtain ⟨h₁', heq | hmove⟩ := h₁.step hs
          · exact ⟨h₁', heq ▸ h₂, heq ▸ hmoves⟩
          · exact ⟨h₁', h₂.move (hfits.left _ _ hmove), hmoves.tail (.inl hmove)⟩
      | right hs =>
          obtain ⟨h₂', heq | hmove⟩ := h₂.step hs
          · exact ⟨heq ▸ h₁, h₂', heq ▸ hmoves⟩
          · exact ⟨h₁.move (hfits.right _ _ hmove), h₂', hmoves.tail (.inr (.inl hmove))⟩
      | other ho =>
          exact ⟨h₁.move (hfits.other_left _ _ ho), h₂.move (hfits.other_right _ _ ho),
            hmoves.tail (.inr (.inr ho))⟩

/-- What a program has returned with still holds. -/
theorem Since.result {rely guar : S → S → Prop} {act : S → (e : E) → A e → S → Prop}
    {Q : α → S → Prop} {a : α} {s : S} (h : Since rely guar act (ret a) Q s)
    (hQ : Stable rely (Q a)) : Q a s := by
  obtain ⟨s₀, hs₀, hst⟩ := h
  exact hQ.steps hst hs₀

end Two
end Rely
