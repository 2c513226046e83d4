/-
The lines that hunks cover on the new side, and the normal form of a list of
hunks (`Diff.normalize`): sorting and joining change the hunks, never the
lines they cover (`covered_normalize`), and a list whose hunks already follow
one another is its own normal form (`normalize_of_follows`).

Joining is only right for hunks whose ends are not cut off (`Hunk.Fits`) and
for a list sorted by the new side, so both go through every induction here.
The headers of a diff are checked for the first as they are read.
-/
import Mathlib.Data.List.Chain
import StaleDocs.Diff.Hunk

namespace StaleDocs.Diff
open Text (maxWord)

/-- Whether a line lies in the new range of a hunk. -/
def Hunk.Covers (h : Hunk) (n : Nat) : Prop :=
  h.newStart ≤ n ∧ n < h.newStart + h.newCount

instance (h : Hunk) (n : Nat) : Decidable (h.Covers n) :=
  inferInstanceAs (Decidable (_ ∧ _))

/-- Whether a line lies in the new range of some hunk. -/
def Covered (hs : List Hunk) (n : Nat) : Prop := ∃ h ∈ hs, h.Covers n

instance (hs : List Hunk) (n : Nat) : Decidable (Covered hs n) :=
  inferInstanceAs (Decidable (∃ h ∈ hs, _))

/-- Whether both ranges end at a possible line number, so that no end is cut off. -/
structure Hunk.Fits (h : Hunk) : Prop where
  old : h.oldStart + h.oldCount ≤ maxWord
  new : h.newStart + h.newCount ≤ maxWord

instance : DecidablePred Hunk.Fits := fun h =>
  decidable_of_iff (h.oldStart + h.oldCount ≤ maxWord ∧ h.newStart + h.newCount ≤ maxWord)
    ⟨fun hf => ⟨hf.1, hf.2⟩, fun hf => ⟨hf.old, hf.new⟩⟩

@[simp] theorem covered_nil {n : Nat} : ¬ Covered [] n := by simp [Covered]

@[simp] theorem covered_cons {h : Hunk} {hs : List Hunk} {n : Nat} :
    Covered (h :: hs) n ↔ h.Covers n ∨ Covered hs n := by simp [Covered]

@[simp] theorem covered_append {hs hs' : List Hunk} {n : Nat} :
    Covered (hs ++ hs') n ↔ Covered hs n ∨ Covered hs' n := by
  simp [Covered, or_and_right, exists_or]

theorem covered_congr {hs hs' : List Hunk} (h : ∀ x, x ∈ hs ↔ x ∈ hs') {n : Nat} :
    Covered hs n ↔ Covered hs' n := by simp [Covered, h]

theorem Hunk.Fits.newEnd {h : Hunk} (hf : h.Fits) : h.newEnd = h.newStart + h.newCount :=
  Nat.min_eq_left hf.new

theorem Hunk.Fits.oldEnd {h : Hunk} (hf : h.Fits) : h.oldEnd = h.oldStart + h.oldCount :=
  Nat.min_eq_left hf.old

/-- A hunk touches a span of lines when it covers one of them. -/
theorem Hunk.Fits.touches_iff {h : Hunk} (hf : h.Fits) {first last : Nat} (hle : first ≤ last) :
    h.touches first last = true ↔ ∃ n, first ≤ n ∧ n ≤ last ∧ h.Covers n := by
  simp only [Hunk.touches, hf.newEnd, Bool.and_eq_true, decide_eq_true_eq, Hunk.Covers]
  constructor
  · rintro ⟨⟨hpos, hlast⟩, hfirst⟩
    exact ⟨max first h.newStart, by omega, by omega, by omega, by omega⟩
  · rintro ⟨n, h1, h2, h3, h4⟩
    exact ⟨⟨by omega, by omega⟩, by omega⟩

/-! ## Joining -/

theorem Hunk.Fits.join {a b : Hunk} (ha : a.Fits) (hb : b.Fits) : (a.join b).Fits := by
  have ha₁ := ha.old
  have ha₂ := ha.new
  have hb₁ := hb.old
  have hb₂ := hb.new
  constructor <;> simp only [Hunk.join, ha.oldEnd, hb.oldEnd, ha.newEnd, hb.newEnd] <;> omega

/-- Overlapping hunks joined cover what the two cover. -/
theorem Hunk.join_covers {a b : Hunk} (ha : a.Fits) (hb : b.Fits) (hle : a.newStart ≤ b.newStart)
    (hlt : b.newStart < a.newEnd) {n : Nat} :
    (a.join b).Covers n ↔ a.Covers n ∨ b.Covers n := by
  rw [ha.newEnd] at hlt
  simp only [Hunk.Covers, Hunk.join, ha.newEnd, hb.newEnd]
  omega

/-- What joining needs of its input: the hunks fit and are sorted by the new side. -/
structure Sorted (hs : List Hunk) : Prop where
  fits : ∀ h ∈ hs, h.Fits
  starts : hs.Pairwise (·.newStart ≤ ·.newStart)

theorem Sorted.tail {h : Hunk} {hs : List Hunk} (hs' : Sorted (h :: hs)) : Sorted hs :=
  ⟨fun x hx => hs'.fits x (by simp [hx]), (List.pairwise_cons.1 hs'.starts).2⟩

theorem Sorted.join {a b : Hunk} {hs : List Hunk} (h : Sorted (a :: b :: hs)) :
    Sorted (a.join b :: hs) := by
  have hpair := List.pairwise_cons.1 h.starts
  refine ⟨fun x hx => ?_, List.pairwise_cons.2 ⟨fun x hx => hpair.1 x (by simp [hx]), ?_⟩⟩
  · rcases List.mem_cons.1 hx with rfl | hx
    · exact (h.fits a (by simp)).join (h.fits b (by simp))
    · exact h.fits x (by simp [hx])
  · exact (List.pairwise_cons.1 hpair.2).2

theorem covered_coalesceFrom {hs : List Hunk} : ∀ {last : Hunk}, Sorted (last :: hs) → ∀ {n : Nat},
    Covered (coalesceFrom last hs) n ↔ Covered (last :: hs) n := by
  induction hs with
  | nil => intro last _ n; rfl
  | cons h hs ih =>
    intro last hsort n
    simp only [coalesceFrom]
    split
    · next hlt =>
      have hle := (List.pairwise_cons.1 hsort.starts).1 h (by simp)
      have hj := Hunk.join_covers (n := n) (hsort.fits last (by simp)) (hsort.fits h (by simp)) hle hlt
      rw [ih hsort.join, covered_cons, hj, covered_cons, covered_cons, or_assoc]
    · simp only [covered_cons, ih hsort.tail]

theorem fits_coalesceFrom {hs : List Hunk} : ∀ {last : Hunk}, Sorted (last :: hs) →
    ∀ x ∈ coalesceFrom last hs, x.Fits := by
  induction hs with
  | nil => intro last hsort; exact hsort.fits
  | cons h hs ih =>
    intro last hsort x hx
    simp only [coalesceFrom] at hx
    split at hx
    · exact ih hsort.join x hx
    · rcases List.mem_cons.1 hx with rfl | hx
      · exact hsort.fits x (by simp)
      · exact ih hsort.tail x hx

/-! ## The normal form -/

theorem precedes_iff {a b : Hunk} : a.precedes b = true ↔
    a.newStart < b.newStart ∨ (a.newStart = b.newStart ∧ a.oldStart ≤ b.oldStart) := by
  simp [Hunk.precedes]

theorem pairwise_precedes_mergeSort (hs : List Hunk) :
    (hs.mergeSort Hunk.precedes).Pairwise fun a b => a.precedes b = true :=
  List.pairwise_mergeSort (fun a b c => by simp only [precedes_iff]; omega)
    (fun a b => by simp only [Bool.or_eq_true, precedes_iff]; omega) hs

theorem sorted_mergeSort {hs : List Hunk} (hf : ∀ h ∈ hs, h.Fits) :
    Sorted (hs.mergeSort Hunk.precedes) := by
  refine ⟨fun h hh => hf h (List.mem_mergeSort.1 hh), ?_⟩
  exact (pairwise_precedes_mergeSort hs).imp fun {a b} h => by rw [precedes_iff] at h; omega

theorem covered_coalesce {hs : List Hunk} (hsort : Sorted hs) {n : Nat} :
    Covered (coalesce hs) n ↔ Covered hs n := by
  cases hs with
  | nil => rfl
  | cons h hs => exact covered_coalesceFrom hsort

/-- Hunks in normal form cover the same lines. -/
theorem covered_normalize {hs : List Hunk} (hf : ∀ h ∈ hs, h.Fits) {n : Nat} :
    Covered (normalize hs) n ↔ Covered hs n := by
  rw [normalize, covered_coalesce (sorted_mergeSort hf)]
  exact covered_congr fun _ => List.mem_mergeSort

theorem fits_coalesce {hs : List Hunk} (hsort : Sorted hs) : ∀ h ∈ coalesce hs, h.Fits := by
  cases hs with
  | nil => simp [coalesce]
  | cons h hs => exact fits_coalesceFrom hsort

theorem fits_normalize {hs : List Hunk} (hf : ∀ h ∈ hs, h.Fits) : ∀ h ∈ normalize hs, h.Fits :=
  fits_coalesce (sorted_mergeSort hf)

/-- Whether a hunk may stand right after another in a listing of a file's changes. -/
structure Hunk.Follows (a b : Hunk) : Prop where
  old : a.oldStart ≤ b.oldStart
  new : a.newStart + a.newCount ≤ b.newStart

instance (a b : Hunk) : Decidable (a.Follows b) :=
  decidable_of_iff (a.oldStart ≤ b.oldStart ∧ a.newStart + a.newCount ≤ b.newStart)
    ⟨fun h => ⟨h.1, h.2⟩, fun h => ⟨h.old, h.new⟩⟩

instance : IsTrans Hunk Hunk.Follows where
  trans a b c hab hbc := by
    have := hab.old
    have := hab.new
    have := hbc.old
    have := hbc.new
    constructor <;> omega

/-- Hunks that are apart on the new side stay as they are. -/
theorem coalesceFrom_of_apart {hs : List Hunk} : ∀ {last : Hunk},
    (last :: hs).Pairwise (fun a b => a.newStart + a.newCount ≤ b.newStart) →
    coalesceFrom last hs = last :: hs := by
  induction hs with
  | nil => intro last _; rfl
  | cons h hs ih =>
    intro last hp
    have hp' := List.pairwise_cons.1 hp
    have hnew := hp'.1 h (by simp)
    have hend : ¬ h.newStart < last.newEnd := by simp only [Hunk.newEnd]; omega
    rw [coalesceFrom, if_neg hend, ih hp'.2]

/-- Hunks that follow one another are in normal form. -/
theorem normalize_of_follows {hs : List Hunk} (h : hs.IsChain Hunk.Follows) : normalize hs = hs := by
  have hp := List.isChain_iff_pairwise.1 h
  have hsort : hs.mergeSort Hunk.precedes = hs :=
    List.mergeSort_of_pairwise <| hp.imp fun {a b} hab => by
      have := hab.old
      have := hab.new
      rw [precedes_iff]; omega
  rw [normalize, hsort]
  cases hs with
  | nil => rfl
  | cons h hs => exact coalesceFrom_of_apart (hp.imp fun hab => hab.new)

end StaleDocs.Diff
