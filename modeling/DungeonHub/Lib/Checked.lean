import Mathlib

/-!
# Integers in a range

A result that a machine integer can only hold if it lies in the integer's range. Arithmetic that
goes through `fit` at every step is that of integers, and stops where a machine integer would wrap
around or have no defined value.
-/

namespace Checked

/-- The value, if it lies in the range. -/
def fit (lo hi x : ℤ) : Option ℤ := if lo ≤ x ∧ x ≤ hi then some x else none

/-- A `std::uint32_t`. -/
def uint32 (x : ℤ) : Option ℤ := fit 0 (2 ^ 32 - 1) x

/-- An `int` of 32 bits. -/
def int32 (x : ℤ) : Option ℤ := fit (-2 ^ 31) (2 ^ 31 - 1) x

variable {lo hi x y : ℤ} {α : Type*} {f : ℤ → Option α} {a : α}

theorem fit_eq_some : fit lo hi x = some y ↔ (lo ≤ x ∧ x ≤ hi) ∧ x = y := by
  unfold fit
  split_ifs with h
  · simp [h]
  · simp [h]

theorem fit_bind_eq_some :
    (fit lo hi x).bind f = some a ↔ (lo ≤ x ∧ x ≤ hi) ∧ f x = some a := by
  rw [Option.bind_eq_some_iff]
  constructor
  · rintro ⟨y, hy, hf⟩
    obtain ⟨hmem, rfl⟩ := fit_eq_some.mp hy
    exact ⟨hmem, hf⟩
  · rintro ⟨hmem, hf⟩
    exact ⟨x, fit_eq_some.mpr ⟨hmem, rfl⟩, hf⟩

theorem int32_bind_eq_some :
    (int32 x).bind f = some a ↔ (-2 ^ 31 ≤ x ∧ x < 2 ^ 31) ∧ f x = some a := by
  unfold int32
  rw [fit_bind_eq_some, Int.le_sub_one_iff]

end Checked
