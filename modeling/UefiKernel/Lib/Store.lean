import Mathlib.Logic.Function.Basic

/-!
# Store

Programs that write a memory word by word, seen as the list of their stores.

A `StoreM A V α` reads a memory `A → V` and yields its result together with
the stores it performs, in order.  The memory it leaves is the replay of that
list, and the memory after each single store is the replay of a prefix of it,
so statements about the final state, about every intermediate state and about
where a program writes are all statements about one list.
-/

namespace Store

variable {A V α β : Type}

section Replay

variable [DecidableEq A]

/-! ## replaying stores -/

/-- The memory after a list of stores, performed in order. -/
def replay (m : A → V) (l : List (A × V)) : A → V :=
  l.foldl (fun m s => Function.update m s.1 s.2) m

@[simp] theorem replay_nil (m : A → V) : replay m [] = m := rfl

@[simp] theorem replay_cons (m : A → V) (s : A × V) (l : List (A × V)) :
    replay m (s :: l) = replay (Function.update m s.1 s.2) l := rfl

theorem replay_append (m : A → V) (l l' : List (A × V)) :
    replay m (l ++ l') = replay (replay m l) l' := by
  simp [replay]

/-- If all stores to an address write one value, the address holds that value
as soon as it is written, and what it held before otherwise. -/
theorem replay_eq_ite (m : A → V) (l : List (A × V)) (a : A) (v : V)
    (h : ∀ s ∈ l, s.1 = a → s.2 = v) :
    replay m l a = if ∃ s ∈ l, s.1 = a then v else m a := by
  induction l generalizing m with
  | nil => simp
  | cons s l ih =>
      rw [replay_cons, ih _ fun t ht => h t (List.mem_cons_of_mem s ht)]
      by_cases hs : s.1 = a
      · have hv : s.2 = v := h s List.mem_cons_self hs
        simp [hs, hv]
      · rw [Function.update_of_ne (Ne.symm hs)]
        exact if_congr (by simp [hs]) rfl rfl

/-- Stores elsewhere do not change a word. -/
theorem replay_of_ne {m : A → V} {l : List (A × V)} {a : A} (h : ∀ s ∈ l, s.1 ≠ a) :
    replay m l a = m a := by
  rw [replay_eq_ite m l a (m a) fun s hs he => (h s hs he).elim, if_neg]
  rintro ⟨s, hs, he⟩
  exact h s hs he

/-- Stores of the value a word already has do not change it. -/
theorem replay_of_agree {m : A → V} {l : List (A × V)} {a : A}
    (h : ∀ s ∈ l, s.1 = a → s.2 = m a) : replay m l a = m a := by
  rw [replay_eq_ite m l a (m a) h, ite_self]

/-- Stores relative to a base: what an injective placement `f` of indexed
stores leaves at index `b` is what the indexed stores leave there. -/
theorem replay_map {B : Type} [DecidableEq B] {f : B → A} (hf : Function.Injective f) (m : A → V)
    (l : List (B × V)) (b : B) :
    replay m (l.map (Prod.map f id)) (f b) = replay (m ∘ f) l b := by
  induction l generalizing m with
  | nil => rfl
  | cons s l ih =>
      rw [List.map_cons, replay_cons, ih, replay_cons]
      congr 1
      funext c
      by_cases hc : c = s.1
      · simp [hc]
      · simp [Function.update_of_ne hc, Function.update_of_ne (hf.ne hc)]

/-- Placed stores change nothing outside the places of their indices. -/
theorem replay_map_of_ne {B : Type} {f : B → A} {m : A → V} {l : List (B × V)} {a : A}
    (h : ∀ s ∈ l, f s.1 ≠ a) : replay m (l.map (Prod.map f id)) a = m a := by
  refine replay_of_ne ?_
  intro s hs
  obtain ⟨t, ht, rfl⟩ := List.mem_map.mp hs
  exact h t ht

end Replay

/-! ## programs as lists of stores -/

/-- A program over a memory `A → V`: its result and its stores. -/
def StoreM (A V α : Type) : Type := (A → V) → α × List (A × V)

namespace StoreM

instance [DecidableEq A] : Monad (StoreM A V) where
  pure a := fun _ => (a, [])
  bind x f := fun m => ((f (x m).1 (replay m (x m).2)).1,
    (x m).2 ++ (f (x m).1 (replay m (x m).2)).2)

/-- Read one word. -/
def load (a : A) : StoreM A V V := fun m => (m a, [])

/-- Write one word. -/
def store (a : A) (v : V) : StoreM A V Unit := fun _ => ((), [(a, v)])

/-- `for (i = lo; …; i++)`, `n` times. -/
def forCount [DecidableEq A] (lo : Nat) (body : Nat → StoreM A V Unit) : Nat → StoreM A V Unit
  | 0 => pure ()
  | n + 1 => do
      body lo
      forCount (lo + 1) body n

/-- `for (i = lo; i < hi; i++)`. -/
def forRange [DecidableEq A] (lo hi : Nat) (body : Nat → StoreM A V Unit) : StoreM A V Unit :=
  forCount lo body (hi - lo)

/-- `for (int i = lo; i < hi; i++)`. -/
def forInt [DecidableEq A] (lo hi : Int32) (body : Int32 → StoreM A V Unit) : StoreM A V Unit :=
  forCount 0 (fun n => body (lo + Int32.ofNat n)) (hi.toInt - lo.toInt).toNat

/-- The memory a program leaves. -/
def exec [DecidableEq A] (x : StoreM A V α) (m : A → V) : A → V := replay m (x m).2

@[simp] theorem run_pure [DecidableEq A] (a : α) (m : A → V) :
    (pure a : StoreM A V α) m = (a, []) := rfl

@[simp] theorem run_bind [DecidableEq A] (x : StoreM A V α) (f : α → StoreM A V β) (m : A → V) :
    (x >>= f) m = ((f (x m).1 (replay m (x m).2)).1,
      (x m).2 ++ (f (x m).1 (replay m (x m).2)).2) := rfl

@[simp] theorem run_load (a : A) (m : A → V) : load a m = (m a, []) := rfl

@[simp] theorem run_store (a : A) (v : V) (m : A → V) : store a v m = ((), [(a, v)]) := rfl

/-! ## fill loops -/

/-- The stores of a loop that writes `val i` to `addr i` for `lo ≤ i < hi`. -/
def fill (addr : Nat → A) (val : Nat → V) (lo hi : Nat) : List (A × V) :=
  (List.range' lo (hi - lo)).map fun i => (addr i, val i)

theorem mem_fill {addr : Nat → A} {val : Nat → V} {lo hi : Nat} {s : A × V} :
    s ∈ fill addr val lo hi ↔ ∃ i, lo ≤ i ∧ i < hi ∧ (addr i, val i) = s := by
  simp only [fill, List.mem_map, List.mem_range'_1]
  constructor
  · rintro ⟨i, ⟨hlo, hhi⟩, he⟩
    exact ⟨i, hlo, by omega, he⟩
  · rintro ⟨i, hlo, hhi, he⟩
    exact ⟨i, ⟨hlo, by omega⟩, he⟩

theorem forall_mem_fill {addr : Nat → A} {val : Nat → V} {lo hi : Nat} {P : A × V → Prop} :
    (∀ s ∈ fill addr val lo hi, P s) ↔ ∀ i, lo ≤ i → i < hi → P (addr i, val i) := by
  constructor
  · exact fun h i hlo hhi => h _ (mem_fill.mpr ⟨i, hlo, hhi, rfl⟩)
  · intro h s hs
    obtain ⟨i, hlo, hhi, rfl⟩ := mem_fill.mp hs
    exact h i hlo hhi

/-- A loop whose body is one store per index is its list of stores. -/
@[simp] theorem run_forRange_store [DecidableEq A] (addr : Nat → A) (val : Nat → V) (lo hi : Nat)
    (m : A → V) :
    forRange lo hi (fun i => store (addr i) (val i)) m = ((), fill addr val lo hi) := by
  unfold forRange fill
  generalize hi - lo = n
  induction n generalizing lo m with
  | zero => rfl
  | succ n ih => simp [forCount, ih, List.range'_succ]

/-- The stores of a loop depend on the indices in its range only. -/
theorem fill_congr {addr addr' : Nat → A} {val val' : Nat → V} {lo hi : Nat}
    (h : ∀ i, lo ≤ i → i < hi → addr i = addr' i ∧ val i = val' i) :
    fill addr val lo hi = fill addr' val' lo hi := by
  refine List.map_congr_left ?_
  intro i hi
  rw [List.mem_range'_1] at hi
  obtain ⟨ha, hv⟩ := h i hi.1 (by omega)
  rw [ha, hv]

/-- The last store of a loop, apart. -/
theorem fill_succ_right {addr : Nat → A} {val : Nat → V} {lo hi : Nat} (h : lo ≤ hi) :
    fill addr val lo (hi + 1) = fill addr val lo hi ++ [(addr hi, val hi)] := by
  have hlen : hi + 1 - lo = hi - lo + 1 := by omega
  have hlast : lo + (hi - lo) = hi := by omega
  rw [fill, fill, hlen, List.range'_1_concat, List.map_append, hlast]
  rfl

/-- What a fill loop at offset `off` leaves at index `n`. -/
theorem replay_fill_add (m : Nat → V) (off : Nat) (val : Nat → V) (lo hi n : Nat) :
    replay m (fill (off + ·) val lo hi) n =
      if off + lo ≤ n ∧ n < off + hi then val (n - off) else m n := by
  have hval : ∀ s ∈ fill (off + ·) val lo hi, s.1 = n → s.2 = val (n - off) := by
    intro s hs hn
    obtain ⟨i, -, -, rfl⟩ := mem_fill.mp hs
    simp only at hn ⊢
    congr 1
    omega
  rw [replay_eq_ite _ _ _ _ hval]
  refine if_congr ?_ rfl rfl
  constructor
  · rintro ⟨s, hs, hn⟩
    obtain ⟨i, hlo, hhi, rfl⟩ := mem_fill.mp hs
    simp only at hn
    omega
  · rintro ⟨hlo, hhi⟩
    exact ⟨_, mem_fill.mpr ⟨n - off, by omega, by omega, rfl⟩, by simp only; omega⟩

theorem replay_fill (m : Nat → V) (val : Nat → V) (lo hi n : Nat) :
    replay m (fill (fun i => i) val lo hi) n = if lo ≤ n ∧ n < hi then val n else m n := by
  simpa using replay_fill_add m 0 val lo hi n

/-- A fill loop placed by `f` is a placed fill loop. -/
theorem map_fill {B : Type} (f : A → B) (addr : Nat → A) (val : Nat → V) (lo hi : Nat) :
    (fill addr val lo hi).map (Prod.map f id) = fill (f ∘ addr) val lo hi := by
  simp [fill]

/-! ## loops over an `int` -/

/-- A loop whose passes do not look at the memory. -/
theorem run_forCount [DecidableEq A] {body : Nat → StoreM A V Unit} {l : Nat → List (A × V)}
    (h : ∀ i m, body i m = ((), l i)) (lo n : Nat) (m : A → V) :
    forCount lo body n m = ((), (List.range' lo n).flatMap l) := by
  induction n generalizing lo m with
  | zero => rfl
  | succ n ih => simp [forCount, h, ih, List.range'_succ]

/-- The stores of the loop over an `int`, from those of its passes. -/
def storesOf (lo hi : Int32) (l : Int32 → List (A × V)) : List (A × V) :=
  (List.range' 0 (hi.toInt - lo.toInt).toNat).flatMap fun n => l (lo + Int32.ofNat n)

theorem run_forInt [DecidableEq A] {lo hi : Int32} {body : Int32 → StoreM A V Unit}
    {l : Int32 → List (A × V)} (h : ∀ i m, body i m = ((), l i)) (m : A → V) :
    forInt lo hi body m = ((), storesOf lo hi l) :=
  run_forCount (fun n m => h (lo + Int32.ofNat n) m) 0 _ m

/-- The variable takes all values from `lo` to below `hi`. -/
theorem mem_storesOf {lo hi : Int32} {l : Int32 → List (A × V)} {s : A × V} :
    s ∈ storesOf lo hi l ↔
      ∃ x : Int, lo.toInt ≤ x ∧ x < hi.toInt ∧ s ∈ l (Int32.ofInt x) := by
  have hpass : ∀ n : Nat, lo + Int32.ofNat n = Int32.ofInt (lo.toInt + n) := by
    intro n
    rw [Int32.ofInt_add, Int32.ofInt_toInt]
    rfl
  simp only [storesOf, List.mem_flatMap, List.mem_range'_1, hpass]
  constructor
  · rintro ⟨n, ⟨-, hn⟩, hs⟩
    exact ⟨lo.toInt + n, by omega, by omega, hs⟩
  · rintro ⟨x, hlo, hhi, hs⟩
    have hx : lo.toInt + ((x - lo.toInt).toNat : Int) = x := by omega
    exact ⟨(x - lo.toInt).toNat, ⟨Nat.zero_le _, by omega⟩, by rwa [hx]⟩

end StoreM
end Store
