/-
What a report shows. A terminal marks results with words and a job on GitHub
marks lines of documents with commands; both mark the same results, the
violations.
-/
import StaleDocs.Report.Format

namespace StaleDocs.Report
open Check (Report Result)

/-- Whether a report for a terminal marks the result with a number as failing. -/
def marksFailing (threshold : Float) (numbered : Result × Nat) : Bool :=
  (resultLines threshold numbered).head? = some ("[" ++ toString numbered.2 ++ "] [FAIL]")

/-- The results that a report for a terminal marks as failing. -/
def failing (r : Report) (threshold : Float) : List Result :=
  ((r.results.zipIdx 1).filter (marksFailing threshold)).map (·.1)

theorem status_eq_iff {r : Result} {threshold : Float} :
    status r threshold = "[FAIL]" ↔ r.isViolation threshold = true := by
  simp only [status]
  split
  · next h => simp [h]
  · next h =>
    -- None of the other marks is the one for a failure.
    have hother : ∀ mark ∈ ["[SKIP]", "[WARN]", "[PASS]"], mark ≠ "[FAIL]" := by decide
    refine iff_of_false ?_ h
    split
    · exact hother _ (by simp)
    · split
      · exact hother _ (by simp)
      · exact hother _ (by simp)

theorem marksFailing_iff {threshold : Float} {numbered : Result × Nat} :
    marksFailing threshold numbered = true ↔ numbered.1.isViolation threshold = true := by
  obtain ⟨r, n⟩ := numbered
  have hfail : "[" ++ toString n ++ "] [FAIL]" = "[" ++ toString n ++ "] " ++ "[FAIL]" := by
    simp [String.append_assoc]
  have hcancel : ∀ a b c : String, a ++ b = a ++ c ↔ b = c := by
    intro a b c
    simp [← String.toList_inj]
  rw [← status_eq_iff, marksFailing, decide_eq_true_eq, hfail, ← hcancel]
  exact Option.some_inj

theorem marksFailing_eq (threshold : Float) :
    marksFailing threshold = (·.isViolation threshold) ∘ Prod.fst := by
  funext numbered
  rw [Bool.eq_iff_iff, marksFailing_iff]
  rfl

/-- The marked results are the violations. -/
theorem failing_eq (r : Report) (threshold : Float) :
    failing r threshold = r.results.filter (·.isViolation threshold) := by
  rw [failing, marksFailing_eq, ← List.filter_map, List.zipIdx_map_fst]

/-- The commands that mark violations are those on the same results. -/
theorem annotations_eq (r : Report) (threshold : Float) :
    annotations r threshold =
      ofLines ((failing r threshold).map errorCommand ++ [summaryCommand r]) := by
  rw [failing_eq]
  rfl

end StaleDocs.Report
