/-
Scores are numbers from zero to one. Cutting off a double leaves it in this
range if it is a number at all (`inUnit_clamp`), and what both passes cut off
is one: a sum of contributions from zero on, or a ratio of counts. All that is
asked is that the characters of the name can be counted in a word
(`inUnit_broadScore?`, `inUnit_quickScore?`).
-/
import StaleDocs.Proofs.Relevance.Mentions

namespace StaleDocs

/-- Whether a double is a number from zero to one. -/
def InUnit (x : Float) : Prop := 0 ≤ x ∧ x ≤ 1

instance (x : Float) : Decidable (InUnit x) := inferInstanceAs (Decidable (_ ∧ _))

namespace Relevance
open Docs (Segment)
open Float.Model

/-! ## Doubles that are numbers -/

theorem FromZero.isNaN {x : Float} (h : FromZero x) : x.isNaN = false := by
  show x.toModel.unpack.isNaN = false
  rw [FromZero] at h
  generalize x.toModel.unpack = u at h
  cases h <;> rfl

theorem isNaN_of_isFinite {x : Float} (h : x.isFinite = true) : x.isNaN = false := by
  show x.toModel.unpack.isNaN = false
  have hfinite : x.toModel.unpack.isFinite = true := h
  generalize x.toModel.unpack = u at hfinite
  cases u with
  | notANumber => cases hfinite
  | infinity | zero | finite => rfl

/-- Numbers can be compared, and one is as much below another as that is above it. -/
theorem exists_compare {u v : UnpackedFloat} (hu : u.isNaN = false) (hv : v.isNaN = false) :
    ∃ order, UnpackedFloat.compare u v = some order ∧
      UnpackedFloat.compare v u = some order.swap := by
  cases u with
  | notANumber => cases hu
  | infinity s =>
    cases v with
    | notANumber => cases hv
    | infinity t => cases s <;> cases t <;> exact ⟨_, rfl, rfl⟩
    | zero | finite => cases s <;> exact ⟨_, rfl, rfl⟩
  | zero s =>
    cases v with
    | notANumber => cases hv
    | zero => exact ⟨.eq, rfl, rfl⟩
    | infinity t | finite t => cases t <;> exact ⟨_, rfl, rfl⟩
  | finite s m e =>
    cases v with
    | notANumber => cases hv
    | infinity t | zero t => cases s <;> cases t <;> exact ⟨_, rfl, rfl⟩
    | finite t m' e' =>
      -- Exponents come first, since a number has all its digits in the mantissa.
      have hswap : ((compare e e').then (compare m m')).swap =
          (compare e' e).then (compare m' m) := by
        rw [Ordering.swap_then, Int.compare_swap, Nat.compare_swap]
      cases s with
      | positive =>
        cases t with
        | positive => exact ⟨_, rfl, congrArg some hswap.symm⟩
        | negative => exact ⟨.gt, rfl, rfl⟩
      | negative =>
        cases t with
        | positive => exact ⟨.lt, rfl, rfl⟩
        | negative => exact ⟨_, rfl, congrArg (fun order : Ordering => some order.swap) hswap.symm⟩

theorem le_of_not_lt {x y : Float} (hx : x.isNaN = false) (hy : y.isNaN = false)
    (h : Score.lt x y = false) : y ≤ x := by
  obtain ⟨order, horder, hswap⟩ := exists_compare hx hy
  rw [lt_eq, UnpackedFloat.lt, horder] at h
  have hle : UnpackedFloat.le y.toModel.unpack x.toModel.unpack = true := by
    rw [UnpackedFloat.le, hswap]
    cases order with
    | lt => cases h
    | eq | gt => rfl
  exact decide_eq_true hle

/-- A number that is cut off is from zero to one. -/
theorem inUnit_clamp {x : Float} (h : x.isNaN = false) : InUnit (clamp x) := by
  rw [clamp]
  by_cases hzero : Score.lt x Score.zero = true
  · rw [if_pos hzero]
    decide
  by_cases hone : Score.lt Score.one x = true
  · rw [if_neg hzero, if_pos hone]
    decide
  · rw [if_neg hzero, if_neg hone]
    exact ⟨le_of_not_lt h rfl (Bool.eq_false_iff.2 hzero),
      le_of_not_lt rfl h (Bool.eq_false_iff.2 hone)⟩

/-- What is no number stays so. -/
example : (clamp (0 / 0 : Float)).isNaN = true := by decide

/-! ## Scores -/

section
variable {symbol : Symbol} {segment : Segment} {p : Pairing Float}

theorem inUnit_combine {scores : List Float} (h : ∀ x ∈ scores, FromZero x) :
    InUnit (Aggregation.sum.combine scores) := by
  have hsum : FromZero (scores.foldl Score.add Score.zero) :=
    List.foldlRecOn scores Score.add fromZero_zero fun sum hsum x hx => hsum.add (h x hx)
  exact inUnit_clamp hsum.isNaN

theorem inUnit_broadScore? (hname : symbol.name.length < Text.maxWord)
    (h : broadScore? symbol segment = some p) : InUnit p.confidence := by
  simp only [broadScore?] at h
  split at h
  · cases h
  · cases h
    refine inUnit_combine fun x hx => ?_
    obtain ⟨hit, hmem, rfl⟩ := List.mem_map.1 hx
    exact fromZero_of_mem_hits (Nat.le_of_lt hname) hmem

theorem inUnit_quickScore? (hname : symbol.name.length < Text.maxWord)
    (h : quickScore? symbol segment = some p) : InUnit p.confidence := by
  have hterms : (words symbol.name.toList ++ [Text.lower symbol.name.toList]).length < 2 ^ 64 := by
    have hwords := length_words_le symbol.name.toList
    rw [String.length_toList] at hwords
    rw [Text.maxWord] at hname
    simp only [List.length_append, List.length_singleton]
    omega
  simp only [quickScore?] at h
  generalize words symbol.name.toList ++ [Text.lower symbol.name.toList] = terms at h hterms
  have hcount : countMentions (lowered segment) terms ≤ terms.length := List.length_filter_le ..
  split at h
  · cases h
  · split at h
    · cases h
    · cases h
      exact inUnit_clamp
        (fromZero_ratio (by omega) (by omega) (by omega) (by omega)).isNaN

end

end Relevance
end StaleDocs
