import Mathlib

/-!
# The last few values accepted

A filter that takes a value unless it is among the last `limit` ones it took. The window of those
is all it has to remember: a new value goes in at its end, and the oldest leave at the front.
-/

namespace Recent

variable {α : Type*} {limit : ℕ} {a : α} {l accepted : List α}

theorem length_rtake_le (l : List α) (limit : ℕ) : (l.rtake limit).length ≤ limit := by
  unfold List.rtake
  rw [List.length_drop]
  omega

theorem rtake_of_length_le (h : l.length ≤ limit) : l.rtake limit = l := by
  unfold List.rtake
  rw [Nat.sub_eq_zero_of_le h, List.drop_zero]

/-- While there are too many, the oldest is not among the last. -/
theorem rtake_cons_of_lt (h : limit < (a :: l).length) : (a :: l).rtake limit = l.rtake limit := by
  unfold List.rtake
  rw [List.length_cons] at h ⊢
  rw [Nat.succ_sub (Nat.le_of_lt_succ h), List.drop_succ_cons]

/-- The next window is made from this one. -/
theorem rtake_concat (l : List α) (a : α) (limit : ℕ) :
    (l ++ [a]).rtake limit = (l.rtake limit ++ [a]).rtake limit := by
  cases limit with
  | zero => simp
  | succ limit =>
    rw [List.rtake_concat_succ, List.rtake_concat_succ]
    unfold List.rtake
    rw [List.length_drop, List.drop_drop]
    congr 2
    omega

variable [DecidableEq α]

/-- The values taken, after one more is offered. -/
def offer (limit : ℕ) (accepted : List α) (a : α) : List α :=
  if a ∈ accepted.rtake limit then accepted else accepted ++ [a]

end Recent
