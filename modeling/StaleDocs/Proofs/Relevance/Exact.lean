/-
Scores as rational numbers, which are added and compared exactly. Clamping a
number from zero on is cutting it at one (`clamp_eq_min`), so several scores
come to their sum, cut once (`combine_sum_eq`), and a sum that was cut on the
way comes to the same as one that was not (`min_one_add_min`).
-/
import Mathlib.Algebra.Order.BigOperators.Group.List
import Mathlib.Algebra.Order.Field.Rat
import Mathlib.Tactic.NormNum
import StaleDocs.Relevance.Score

namespace StaleDocs.Relevance

@[simp] theorem zero_rat : (Score.zero : Rat) = 0 := rfl

@[simp] theorem one_rat : (Score.one : Rat) = 1 := rfl

@[simp] theorem add_rat (x y : Rat) : Score.add x y = x + y := rfl

@[simp] theorem mul_rat (x y : Rat) : Score.mul x y = x * y := rfl

@[simp] theorem ratio_rat (a b : Nat) : (Score.ratio a b : Rat) = a / b := rfl

@[simp] theorem lt_rat (x y : Rat) : Score.lt x y = decide (x < y) := rfl

theorem clamp_eq_min {x : Rat} (h : 0 ≤ x) : clamp x = min 1 x := by
  have hzero : ¬ x < 0 := not_lt.2 h
  by_cases hx : x ≤ 1
  · simp [clamp, hzero, not_lt.2 hx, hx]
  · have hlt : 1 < x := not_le.1 hx
    simp [clamp, hzero, hlt, min_eq_left hlt.le]

theorem foldl_add_rat (scores : List Rat) : scores.foldl Score.add Score.zero = scores.sum := by
  rw [List.sum_eq_foldl]
  rfl

/-- Scores from zero on come to their sum, cut at one. -/
theorem combine_sum_eq {scores : List Rat} (h : ∀ x ∈ scores, 0 ≤ x) :
    Aggregation.sum.combine scores = min 1 scores.sum := by
  rw [Aggregation.combine, foldl_add_rat, clamp_eq_min (List.sum_nonneg h)]

/-- Cutting a sum at one and adding to it what is not negative loses nothing that would not be cut
in the end. -/
theorem min_one_add_min {x y : Rat} (hy : 0 ≤ y) : min 1 (min 1 x + y) = min 1 (x + y) := by
  rcases le_total x 1 with hx | hx
  · rw [min_eq_right hx]
  · have hsum : 1 ≤ x + y := le_add_of_le_of_nonneg hx hy
    rw [min_eq_left hx, min_eq_left hsum, min_eq_left (le_add_of_nonneg_right hy)]

end StaleDocs.Relevance
