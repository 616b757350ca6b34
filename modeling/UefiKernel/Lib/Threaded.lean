import Mathlib.Logic.Function.Basic

/-!
# Threaded

A list threaded through the array it indexes: `next i` is what comes after
`i`, and one index, `nil`, is both where the list starts and what ends it.

`Linked next nil l` says that the chain from `nil` visits exactly `l` and comes
back to `nil`.  Putting an index in front and taking the first one out are two
stores each; `Linked.put` and `Linked.take` say what they do to the list, and
`put_take` that the one undoes the other.
-/

namespace Threaded

variable {I : Type} {next : I → I} {nil : I}

/-- From `i`, the chain visits the indices of the list and then comes to
`nil`. -/
inductive LinkedFrom (next : I → I) (nil : I) : I → List I → Prop
  | last {i : I} (h : next i = nil) : LinkedFrom next nil i []
  | cons {i j : I} {l : List I} (h : next i = j) (hj : j ≠ nil) (hl : LinkedFrom next nil j l) :
      LinkedFrom next nil i (j :: l)

/-- The chain from `nil` visits the indices of the list. -/
def Linked (next : I → I) (nil : I) (l : List I) : Prop := LinkedFrom next nil nil l

/-- `nil` is not in the list. -/
theorem LinkedFrom.nil_not_mem {i : I} {l : List I} (h : LinkedFrom next nil i l) : nil ∉ l := by
  induction h with
  | last h => exact List.not_mem_nil
  | cons h hj hl ih =>
      rw [List.mem_cons, not_or]
      exact ⟨hj.symm, ih⟩

/-- The chain depends on what comes after its own indices only. -/
theorem LinkedFrom.congr {next' : I → I} {i : I} {l : List I} (h : LinkedFrom next nil i l)
    (hi : next' i = next i) (hl : ∀ j ∈ l, next' j = next j) : LinkedFrom next' nil i l := by
  induction h with
  | last h => exact .last (hi.trans h)
  | cons h hj _ ih =>
      exact .cons (hi.trans h) hj (ih (hl _ List.mem_cons_self)
        fun k hk => hl k (List.mem_cons_of_mem _ hk))

/-- A chain goes on from any index that is followed by the same one. -/
theorem LinkedFrom.of_eq {i i' : I} {l : List I} (h : LinkedFrom next nil i l)
    (hi : next i' = next i) : LinkedFrom next nil i' l := by
  cases h with
  | last h => exact .last (hi.trans h)
  | cons h hj hl => exact .cons (hi.trans h) hj hl

/-- The array determines the chain. -/
theorem LinkedFrom.unique {i : I} {l l' : List I} (h : LinkedFrom next nil i l)
    (h' : LinkedFrom next nil i l') : l = l' := by
  induction h generalizing l' with
  | last h =>
      cases h' with
      | last _ => rfl
      | cons h' hj _ => exact absurd (h'.symm.trans h) hj
  | cons h hj _ ih =>
      cases h' with
      | last h' => exact absurd (h.symm.trans h') hj
      | cons h' _ hl' =>
          obtain rfl := h.symm.trans h'
          rw [ih hl']

theorem Linked.unique {l l' : List I} (h : Linked next nil l) (h' : Linked next nil l') : l = l' :=
  LinkedFrom.unique h h'

/-- The first index of the chain. -/
theorem Linked.head {j : I} {l : List I} (h : Linked next nil (j :: l)) : next nil = j := by
  cases h with
  | cons h _ _ => exact h

variable [DecidableEq I]

/-- `next[j] = next[nil]; next[nil] = j`. -/
def put (next : I → I) (nil j : I) : I → I :=
  Function.update (Function.update next j (next nil)) nil j

/-- `next[nil] = next[next[nil]]`. -/
def take (next : I → I) (nil : I) : I → I := Function.update next nil (next (next nil))

/-- Putting an index that is not in the list makes it the first one. -/
theorem Linked.put {l : List I} (h : Linked next nil l) {j : I} (hj : j ≠ nil) (hl : j ∉ l) :
    Linked (put next nil j) nil (j :: l) := by
  have hput : Threaded.put next nil j nil = j := Function.update_self ..
  have hputj : Threaded.put next nil j j = next nil := by
    rw [Threaded.put, Function.update_of_ne hj, Function.update_self]
  refine .cons hput hj ?_
  -- redirect the old chain to start from `j`, with an array that agrees on it
  have hfrom : LinkedFrom (Function.update next j (next nil)) nil j l := by
    refine (h.congr ?_ ?_).of_eq ?_
    · exact Function.update_of_ne hj.symm ..
    · exact fun k hk => Function.update_of_ne (ne_of_mem_of_not_mem hk hl) ..
    · rw [Function.update_self, Function.update_of_ne hj.symm]
  refine hfrom.congr ?_ ?_
  · rw [hputj, Function.update_self]
  · exact fun k hk => Function.update_of_ne (ne_of_mem_of_not_mem hk h.nil_not_mem) ..

/-- Taking the first index out leaves the rest. -/
theorem Linked.take {j : I} {l : List I} (h : Linked next nil (j :: l)) :
    Linked (take next nil) nil l := by
  cases h with
  | cons hhead hj hl =>
      have htake : Threaded.take next nil nil = next j := by
        rw [Threaded.take, Function.update_self, hhead]
      have hfrom : LinkedFrom (Threaded.take next nil) nil j l := by
        refine hl.congr (Function.update_of_ne hj ..) ?_
        exact fun k hk => Function.update_of_ne (ne_of_mem_of_not_mem hk hl.nil_not_mem) ..
      refine hfrom.of_eq ?_
      rw [htake, Threaded.take, Function.update_of_ne hj]

/-- Putting back the index that was taken out restores the array. -/
theorem put_take (h : next nil ≠ nil) : put (take next nil) nil (next nil) = next := by
  have hnil : take next nil nil = next (next nil) := Function.update_self ..
  rw [put, hnil, take, Function.update_comm h, Function.update_idem, Function.update_eq_self,
    Function.update_eq_self]

end Threaded
