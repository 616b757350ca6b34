import Mathlib.Data.List.Basic

/-!
# Rows

Text broken into rows, and the rows a screen has room for.

A row ends at a newline, and where a further character arrives at a row that
is full.  So a newline at a full row ends it only once.  Text that grows at its
end changes its last row only (`breakFrom_append`); this is what lets a driver
that sees one character after the other keep up with it.
-/

namespace Rows

variable {α : Type}

/-! ## breaking a text -/

section Break

variable [DecidableEq α] (newline : α) (width : Nat)

/-- The rows of a text that goes on from `row`. -/
def breakFrom (row : List α) : List α → List (List α)
  | [] => [row]
  | ch :: text =>
      if ch = newline then row :: breakFrom [] text
      else if row.length = width then row :: breakFrom [ch] text
      else breakFrom (row ++ [ch]) text

/-- The rows of a text. -/
def rows (text : List α) : List (List α) := breakFrom newline width [] text

variable {newline width}

theorem breakFrom_ne_nil (row text : List α) : breakFrom newline width row text ≠ [] := by
  induction text generalizing row with
  | nil => simp [breakFrom]
  | cons ch text ih =>
      unfold breakFrom
      split
      · simp
      · split
        · simp
        · exact ih _

/-- A text that grows changes its last row only. -/
theorem breakFrom_append {row text last : List α} {rs : List (List α)}
    (h : breakFrom newline width row text = rs ++ [last]) (more : List α) :
    breakFrom newline width row (text ++ more) = rs ++ breakFrom newline width last more := by
  induction text generalizing row rs with
  | nil =>
      obtain ⟨rfl, rfl⟩ : rs = [] ∧ last = row := by
        cases rs with
        | nil => simpa [breakFrom, eq_comm] using h
        | cons r rs => simp [breakFrom] at h
      rfl
  | cons ch text ih =>
      have peel : ∀ r₀ : List α, row :: breakFrom newline width r₀ text = rs ++ [last] →
          row :: breakFrom newline width r₀ (text ++ more) =
            rs ++ breakFrom newline width last more := by
        intro r₀ h₀
        cases rs with
        | nil =>
            have hnil : breakFrom newline width r₀ text = [] := by simpa using congrArg List.tail h₀
            exact absurd hnil (breakFrom_ne_nil _ _)
        | cons r rs =>
            simp only [List.cons_append, List.cons.injEq] at h₀ ⊢
            exact ⟨h₀.1, ih h₀.2⟩
      simp only [List.cons_append, breakFrom] at h ⊢
      split at h
      · rename_i hch
        rw [if_pos hch]
        exact peel _ h
      · rename_i hch
        rw [if_neg hch]
        split at h
        · rename_i hfull
          rw [if_pos hfull]
          exact peel _ h
        · rename_i hfull
          rw [if_neg hfull]
          exact ih h

end Break

/-! ## the rows there is room for -/

/-- The last `n` rows. -/
def lastRows (n : Nat) (rs : List (List α)) : List (List α) := rs.drop (rs.length - n)

variable {n : Nat} {rs : List (List α)} {row : List α}

theorem lastRows_of_le (h : rs.length ≤ n) : lastRows n rs = rs := by
  simp [lastRows, Nat.sub_eq_zero_of_le h]

theorem lastRows_succ : lastRows (n + 1) (rs ++ [row]) = lastRows n rs ++ [row] := by
  have hlen : (rs ++ [row]).length - (n + 1) = rs.length - n := by simp
  simp only [lastRows, hlen]
  exact List.drop_append_of_le_length (by omega)

/-- Where there is no room for one more row, the first one goes. -/
theorem lastRows_full (h : rs.length = n) (hn : 0 < n) :
    lastRows n (rs ++ [row]) = rs.tail ++ [row] := by
  obtain ⟨m, rfl⟩ : ∃ m, n = m + 1 := ⟨n - 1, by omega⟩
  have hdrop : rs.length - m = 1 := by omega
  rw [lastRows_succ, lastRows, hdrop, List.drop_one]

/-- Rows that are gone do not come back. -/
theorem lastRows_append (n : Nat) (rs : List (List α)) (row : List α) :
    lastRows n (rs ++ [row]) = lastRows n (lastRows n rs ++ [row]) := by
  cases n with
  | zero => simp [lastRows]
  | succ n =>
      rw [lastRows_succ, lastRows_succ]
      simp only [lastRows, List.drop_drop, List.length_drop]
      congr 2
      omega

end Rows
