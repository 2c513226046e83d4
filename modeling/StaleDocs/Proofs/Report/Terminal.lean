/-
A report as a terminal shows it: above and below the results stand lines that
mark none (`unmarked_opening`, `unmarked_closing`), and each result begins with
a line of its number and its mark. So in a report of which no text has a line
feed the numbers marked as failing are those of the violations
(`failedNumbers_text`).
-/
import StaleDocs.Proofs.Lists
import StaleDocs.Proofs.Report.Annotations
import StaleDocs.Proofs.Report.Failing

namespace StaleDocs.Report
open Check (Report Result)

/-! ## Reading -/

/-- The number of the result that a line marks as failing. -/
def failedNumber? (line : List Char) : Option Nat := do
  let (number, mark) ← Text.breakAt? [']', ' '] (← Text.after? ['['] line)
  if mark = "[FAIL]".toList then decimal? (String.ofList number) else none

/-- The numbers of the results that a text marks as failing, line by line. -/
def failedNumbers (written : String) : List Nat :=
  (Text.lines written.toList).filterMap failedNumber?

theorem failedNumber?_mark (n : Nat) (mark : String) :
    failedNumber? ("[" ++ toString n ++ "] " ++ mark).toList =
      if mark = "[FAIL]" then some n else none := by
  have hline : ("[" ++ toString n ++ "] " ++ mark).toList =
      ['['] ++ (Text.digits n ++ ']' :: ([' '] ++ mark.toList)) := by
    simp [Text.digits]
  have hnumber : String.ofList (Text.digits n) = toString n := by
    rw [Text.digits, String.ofList_toList]
  have hbracket : ']' ∉ Text.digits n := not_mem_digits (by decide) n
  rw [hline, failedNumber?, Text.after?_append]
  simp only [bind, Option.bind_some, Text.breakAt?_append hbracket, String.toList_inj, hnumber,
    decimal?_toString]

theorem failedNumber?_of_head {line : List Char} (h : line.head? ≠ some '[') :
    failedNumber? line = none := by
  have hafter : Text.after? ['['] line = none := by
    cases line with
    | nil => rfl
    | cons c cs =>
      rw [Text.after?, if_neg fun hc => h (congrArg some hc.symm)]
  rw [failedNumber?, hafter]
  rfl

/-! ## Lines -/

/-- Whether a line begins with a character and has no line feed. -/
def Begins (c : Char) (line : String) : Prop := line.toList.head? = some c ∧ '\n' ∉ line.toList

instance (c : Char) (line : String) : Decidable (Begins c line) :=
  inferInstanceAs (Decidable (_ ∧ _))

/-- Whether a line begins with no number of a result and has no line feed. -/
def Unmarked (line : String) : Prop := line.toList.head? ≠ some '[' ∧ '\n' ∉ line.toList

instance (line : String) : Decidable (Unmarked line) := inferInstanceAs (Decidable (_ ∧ _))

theorem Begins.append {c : Char} {line more : String} (h : Begins c line)
    (hmore : '\n' ∉ more.toList) : Begins c (line ++ more) := by
  rw [Begins, String.toList_append, List.head?_append, h.1, List.mem_append, not_or]
  exact ⟨rfl, h.2, hmore⟩

theorem Begins.unmarked {c : Char} {line : String} (h : Begins c line) (hc : c ≠ '[') :
    Unmarked line :=
  ⟨fun hhead => hc (Option.some.inj (h.1.symm.trans hhead)), h.2⟩

/-- Nothing is read from lines without marks. -/
theorem filterMap_unmarked {ls : List String} (h : ∀ l ∈ ls, Unmarked l) :
    (ls.map fun l => Text.stripReturn l.toList).filterMap failedNumber? = [] := by
  rw [List.filterMap_map, List.filterMap_eq_nil_iff]
  intro l hl
  refine failedNumber?_of_head fun hhead => (h l hl).1 ?_
  obtain ⟨cs, hcs⟩ := List.head?_eq_some_iff.1 hhead
  obtain ⟨more, hmore⟩ := Text.stripReturn_prefix l.toList
  have hstart : Text.stripReturn l.toList = '[' :: cs := hcs
  rw [← hmore, hstart]
  rfl

/-! ## The lines of a report -/

/-- Whether no text of a result has a line feed. -/
def OneLine (r : Result) : Prop :=
  ∀ s ∈ [r.segment.file, r.segment.heading, r.symbol.file, r.symbol.name, r.reason, r.suggestion],
    '\n' ∉ s.toList

instance (r : Result) : Decidable (OneLine r) := inferInstanceAs (Decidable (∀ _ ∈ _, _))

theorem not_mem_writeWhole (x : Float) : '\n' ∉ (Decimal.writeWhole x).toList := by
  have hdigits (n : Nat) : '\n' ∉ (toString n).toList := not_mem_digits (by decide) n
  unfold Decimal.writeWhole
  split
  · next b _ =>
    show '\n' ∉ (if b.negative then _ else _ : String).toList
    split
    · rw [String.toList_append, List.mem_append, not_or]
      exact ⟨by decide, hdigits _⟩
    · exact hdigits _
  · split
    · decide
    · split <;> decide

theorem unmarked_opening (r : Report) : ∀ l ∈ opening r, Unmarked l := by
  unfold opening
  split <;> decide

theorem unmarked_closing (r : Report) : ∀ l ∈ closing r, Unmarked l := by
  have hdigits (n : Nat) : '\n' ∉ (toString n).toList := not_mem_digits (by decide) n
  have hrule : Unmarked rule := by decide
  have hsummary : Begins 'S' "Summary: " := by decide
  have hskipped : Begins 'S' "Skipped: " := by decide
  have htime : Begins 'T' "Time: " := by decide
  unfold closing
  simp only [List.forall_mem_append, List.forall_mem_cons, List.not_mem_nil, false_imp_iff,
    implies_true, and_true]
  refine ⟨⟨⟨hrule, ?_⟩, ?_⟩, ?_⟩
  · refine Begins.unmarked (c := 'S') ?_ (by decide)
    exact ((((((((hsummary.append (hdigits _)).append (by decide)).append (hdigits _)).append
      (by decide)).append (hdigits _)).append (by decide)).append (hdigits _)).append (by decide))
  · split
    · exact List.forall_mem_nil _
    · refine List.forall_mem_singleton.2 (Begins.unmarked (c := 'S') ?_ (by decide))
      exact (hskipped.append (hdigits _)).append (by decide)
  · refine Begins.unmarked (c := 'T') ?_ (by decide)
    exact (htime.append (hdigits _)).append (by decide)

theorem unmarked_details {r : Result} (h : OneLine r) : ∀ l ∈ details r, Unmarked l := by
  have hdigits (n : Nat) : '\n' ∉ (toString n).toList := not_mem_digits (by decide) n
  have hkind : '\n' ∉ r.symbol.kind.word.toList := by cases r.symbol.kind <;> decide
  have hchange : '\n' ∉ r.symbol.change.word.toList := by cases r.symbol.change <;> decide
  have hdoc : Begins ' ' "  Doc:        " := by decide
  have hcode : Begins ' ' "  Code:       " := by decide
  have hconfidence : Begins ' ' "  Confidence: " := by decide
  have hreason : Begins ' ' "  Reason:     " := by decide
  have hsuggestion : Begins ' ' "  Suggestion: " := by decide
  simp only [OneLine, List.forall_mem_cons] at h
  obtain ⟨hfile, hheading, hsymbol, hname, hwhy, hhint, -⟩ := h
  have hblank {l : String} (h : Begins ' ' l) : Unmarked l := h.unmarked (by decide)
  unfold details
  simp only [List.forall_mem_append, List.forall_mem_cons, List.not_mem_nil, false_imp_iff,
    implies_true, and_true]
  refine ⟨⟨⟨hblank ?_, hblank ?_, hblank ?_, hblank (hreason.append hwhy)⟩, ?_⟩, by decide⟩
  · exact (((((hdoc.append hfile).append (by decide)).append (hdigits _)).append
      (by decide)).append hheading).append (by decide)
  · exact (((((((((hcode.append hsymbol).append (by decide)).append (hdigits _)).append
      (by decide)).append hname).append (by decide)).append hkind).append (by decide)).append
      hchange).append (by decide)
  · exact (hconfidence.append (not_mem_writeWhole _)).append (by decide)
  · split
    · exact List.forall_mem_nil _
    · exact List.forall_mem_singleton.2 (hblank (hsuggestion.append hhint))

theorem not_mem_number {c : Char} (hc : c ∈ ['\n', '\r']) (n : Nat) :
    c ∉ ("[" ++ toString n ++ "] ").toList := by
  obtain ⟨hopen, hdigit, hclose⟩ : c ∉ "[".toList ∧ c.isDigit = false ∧ c ∉ "] ".toList := by
    simp only [List.mem_cons, List.not_mem_nil, or_false] at hc
    rcases hc with rfl | rfl <;> decide
  simp only [String.toList_append, List.mem_append, not_or]
  exact ⟨⟨hopen, not_mem_digits hdigit n⟩, hclose⟩

theorem not_mem_status {c : Char} (hc : c ∈ ['\n', '\r']) (r : Result) (threshold : Float) :
    c ∉ (status r threshold).toList := by
  have hmarks : ∀ mark ∈ ["[FAIL]", "[SKIP]", "[WARN]", "[PASS]"], c ∉ mark.toList := by
    simp only [List.mem_cons, List.not_mem_nil, or_false] at hc
    rcases hc with rfl | rfl <;> decide
  refine hmarks _ ?_
  unfold status
  split
  · simp
  · split
    · simp
    · split <;> simp

theorem not_mem_resultLines {r : Result} (h : OneLine r) (threshold : Float) (n : Nat) :
    ∀ l ∈ resultLines threshold (r, n), '\n' ∉ l.toList := by
  refine List.forall_mem_cons.2 ⟨?_, fun l hl => (unmarked_details h l hl).2⟩
  rw [String.toList_append, List.mem_append, not_or]
  exact ⟨not_mem_number (by decide) n, not_mem_status (by decide) r threshold⟩

/-- From the lines on a result its number is read if it is a violation. -/
theorem filterMap_resultLines {threshold : Float} {r : Result} (h : OneLine r) (n : Nat) :
    ((resultLines threshold (r, n)).map fun l => Text.stripReturn l.toList).filterMap
        failedNumber? = if r.isViolation threshold then [n] else [] := by
  have hstrip : Text.stripReturn ("[" ++ toString n ++ "] " ++ status r threshold).toList =
      ("[" ++ toString n ++ "] " ++ status r threshold).toList := by
    have hreturn : '\r' ∉ ("[" ++ toString n ++ "] " ++ status r threshold).toList := by
      rw [String.toList_append, List.mem_append, not_or]
      exact ⟨not_mem_number (by decide) n, not_mem_status (by decide) r threshold⟩
    exact Text.stripReturn_of_getLast fun hlast => hreturn (List.mem_of_getLast? hlast)
  rw [resultLines, List.map_cons, List.filterMap_cons, hstrip, failedNumber?_mark,
    filterMap_unmarked (unmarked_details h)]
  by_cases hfail : r.isViolation threshold = true
  · rw [if_pos (status_eq_iff.2 hfail), if_pos hfail]
  · rw [if_neg (mt status_eq_iff.1 hfail), if_neg hfail]

/-- **What a terminal shows as failing** are the numbers of the violations, as long as no text of a
result has a line feed. -/
theorem failedNumbers_text {r : Report} (h : ∀ x ∈ r.results, OneLine x) (threshold : Float) :
    failedNumbers (render r .text threshold) =
      ((r.results.zipIdx 1).filter fun x => x.1.isViolation threshold).map (·.2) := by
  have hone (x : Result × Nat) (hx : x ∈ r.results.zipIdx 1) : OneLine x.1 :=
    h _ (List.fst_mem_of_mem_zipIdx hx)
  have hfeeds : ∀ l ∈ opening r ++ (r.results.zipIdx 1).flatMap (resultLines threshold) ++
      closing r, '\n' ∉ l.toList := by
    simp only [List.forall_mem_append, List.forall_mem_flatMap]
    exact ⟨⟨fun l hl => (unmarked_opening r l hl).2,
      fun x hx => not_mem_resultLines (hone x hx) threshold x.2⟩,
      fun l hl => (unmarked_closing r l hl).2⟩
  show (Text.lines (ofLines _).toList).filterMap failedNumber? = _
  rw [ofLines_eq, Text.lines_writeLines hfeeds, List.map_append, List.map_append,
    List.filterMap_append, List.filterMap_append, filterMap_unmarked (unmarked_opening r),
    filterMap_unmarked (unmarked_closing r), List.nil_append, List.append_nil, List.map_flatMap,
    List.filterMap_flatMap]
  -- What is left are the lines on the results, which are read one result at a time.
  calc (r.results.zipIdx 1).flatMap _
      = (r.results.zipIdx 1).flatMap fun x => if x.1.isViolation threshold then [x.2] else [] :=
        List.flatMap_congr fun x hx => filterMap_resultLines (hone x hx) x.2
    _ = _ := flatMap_ite _ _ _

end StaleDocs.Report
