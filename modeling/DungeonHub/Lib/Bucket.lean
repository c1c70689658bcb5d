import Mathlib

/-!
# Token buckets

A bucket is refilled at some rate, never above its capacity, and payments are made out of it. How
full it is depends on the payments alone: an amount can be paid if no window of payments that ends
with it comes to more than the bucket can hold and what has been refilled since the window began.
-/

namespace Bucket

variable {K : Type*} [Field K] [LinearOrder K] [IsStrictOrderedRing K]

/-- How full the bucket is at some time, after these payments, the last one first. -/
def level (capacity rate : K) : List (K × K) → K → K
  | [], _ => capacity
  | (time, amount) :: paid, now =>
    min capacity (level capacity rate paid time - amount + rate * (now - time))

variable {capacity rate : K}

/-- Refilling it on the way makes no difference. -/
theorem min_level (hrate : 0 ≤ rate) {now later : K} (h : now ≤ later) (paid : List (K × K)) :
    min capacity (level capacity rate paid now + rate * (later - now)) =
      level capacity rate paid later := by
  have hrefill : 0 ≤ rate * (later - now) := mul_nonneg hrate (sub_nonneg.mpr h)
  cases paid with
  | nil => exact min_eq_left (le_add_of_nonneg_right hrefill)
  | cons payment paid =>
    unfold level
    rw [← min_add_add_right, ← min_assoc, min_eq_left (le_add_of_nonneg_right hrefill)]
    congr 1
    ring

theorem le_level_iff :
    ∀ {paid : List (K × K)} {now amount : K},
      amount ≤ level capacity rate paid now ↔ amount ≤ capacity ∧
        ∀ recent payment old, paid = recent ++ payment :: old →
          (recent.map Prod.snd).sum + payment.2 + amount ≤ capacity + rate * (now - payment.1)
  | [], now, amount => by simp [level]
  | (time, first) :: paid, now, amount => by
    have hback : amount ≤ level capacity rate paid time - first + rate * (now - time) ↔
        amount + first - rate * (now - time) ≤ level capacity rate paid time :=
      ⟨fun h => by linarith, fun h => by linarith⟩
    unfold level
    rw [le_min_iff, hback, le_level_iff]
    refine and_congr_right fun _ => ⟨fun h recent payment old hpaid => ?_, fun h => ⟨?_, ?_⟩⟩
    · rcases recent with _ | ⟨last, recent⟩
      · obtain ⟨rfl, rfl⟩ := List.cons.inj hpaid
        rw [List.map_nil, List.sum_nil]
        linarith [h.1]
      · obtain ⟨rfl, rfl⟩ := List.cons.inj hpaid
        have hwindow := h.2 recent payment old rfl
        rw [List.map_cons, List.sum_cons]
        linarith
    · have hfirst := h [] (time, first) paid rfl
      rw [List.map_nil, List.sum_nil] at hfirst
      linarith
    · intro recent payment old hpaid
      have hwindow := h ((time, first) :: recent) payment old (by rw [hpaid, List.cons_append])
      rw [List.map_cons, List.sum_cons] at hwindow
      linarith

/-- The same with the payments in order. -/
theorem le_level_reverse_iff {paid : List (K × K)} {now amount : K} :
    amount ≤ level capacity rate paid.reverse now ↔ amount ≤ capacity ∧
      ∀ old payment recent, paid = old ++ payment :: recent →
        payment.2 + (recent.map Prod.snd).sum + amount ≤ capacity + rate * (now - payment.1) := by
  rw [le_level_iff]
  refine and_congr_right fun _ => ⟨fun h old payment recent hpaid => ?_,
    fun h recent payment old hpaid => ?_⟩
  · have hwindow := h recent.reverse payment old.reverse (by simp [hpaid])
    rw [List.map_reverse, List.sum_reverse] at hwindow
    linarith
  · have hwindow := h old.reverse payment recent.reverse
      (by rw [← List.reverse_reverse paid, hpaid]; simp)
    rw [List.map_reverse, List.sum_reverse] at hwindow
    linarith

end Bucket
