/-
Exactly which diffs cannot be read, and on which line that is found
(`parse_error_iff`). A line is bad by itself, or because it is a hunk header
whose numbers cannot be used and some line above it is a file header. Nothing
else has a say: what a section holds and how many lines its hunk still lacks
decide what a line means, but a hunk header never has the form of a body line
(`HunkHeader.body?_eq_none`), so no open hunk hides a bad one.
-/
import Mathlib.Order.Bounds.Defs
import StaleDocs.Proofs.Diff.Patterns
import StaleDocs.Proofs.Diff.Sections

namespace StaleDocs.Diff

/-- Whether a line cannot be read where a section is open or not: it is too long, or holds a NUL,
or is taken for a hunk header with numbers of no use. -/
def BadLine (opened : Prop) (line : List Char) : Prop :=
  maxLineBytes < byteLength line ∨ '\x00' ∈ line ∨
    (opened ∧ ¬ FileHeader line ∧ BadHunkHeader line)

/-- Whether the line with a number is bad. -/
def BadAt (ls : List (List Char)) (n : Nat) : Prop :=
  ∃ before line after, ls = before ++ line :: after ∧ n = before.length + 1 ∧
    BadLine (∃ l ∈ before, FileHeader l) line

/-! ## One line -/

theorem HunkHeader.body?_eq_none {line : List Char} {ds : HunkDigits} (h : HunkHeader line ds)
    (s : Section) : s.body? line = none := by
  obtain ⟨rest, rfl⟩ := h.spelled
  unfold Section.body?
  split <;> rfl

/-- A section refuses bad hunk headers only. -/
theorem Section.feed_error_iff {s : Section} {line : List Char} :
    (∃ cause, s.feed line = .error cause) ↔ BadHunkHeader line := by
  rw [← hunk?_error_iff]
  have houtside : (∃ cause, s.outside line = .error cause) ↔ ∃ cause, hunk? line = .error cause := by
    unfold Section.outside
    cases hunk? line with
    | error cause => simp [bind, Except.bind]
    | ok found =>
      cases found with
      | some h => simp [bind, Except.bind, pure, Except.pure]
      | none =>
        simp only [bind, Except.bind, reduceCtorEq, exists_false, iff_false, not_exists]
        intro cause
        split <;> simp [pure, Except.pure]
  rw [← houtside]
  simp only [Section.feed]
  cases hbody : s.body? line with
  | none => rfl
  | some t =>
    simp only [reduceCtorEq, exists_false, false_iff]
    rw [houtside, hunk?_error_iff]
    rintro ⟨ds, hds, -⟩
    rw [hds.body?_eq_none] at hbody
    cases hbody

/-- A line stops a scan exactly where it is bad. -/
theorem Scan.line_error_iff {s : Scan} {line : List Char} :
    (∃ cause, s.line line = .error cause) ↔ BadLine (s.current.isSome = true) line := by
  simp only [Scan.line, BadLine, ← filePaths?_isSome_iff]
  by_cases hlong : maxLineBytes < byteLength line
  · simp [hlong]
  by_cases hnul : '\x00' ∈ line
  · simp [hlong, hnul]
  simp only [hlong, if_false, List.contains_iff_mem, hnul, false_or]
  cases hp : filePaths? line with
  | some paths => simp
  | none =>
    cases hc : s.current with
    | none => simp
    | some sec =>
      rw [← Section.feed_error_iff (s := sec)]
      cases hfeed : sec.feed line <;> simp [bind, Except.bind, pure, Except.pure, hfeed]

/-- A section is open after the first file header. -/
theorem Scan.line_opened {s t : Scan} {line : List Char} (h : s.line line = .ok t) :
    t.current.isSome = true ↔ FileHeader line ∨ s.current.isSome = true := by
  have hpaths := congrArg Option.isSome (Scan.line_paths h)
  rw [Option.isSome_map, Option.isSome_or, Option.isSome_map] at hpaths
  rw [hpaths, Bool.or_eq_true, filePaths?_isSome_iff]

/-! ## A whole diff -/

/-- Whether the line after `i` others is bad, where a section may be open before all of them. -/
def BadAfter (opened : Prop) (ls : List (List Char)) (i : Nat) : Prop :=
  ∃ before line after, ls = before ++ line :: after ∧ i = before.length ∧
    BadLine (opened ∨ ∃ l ∈ before, FileHeader l) line

theorem badAfter_nil {opened : Prop} {i : Nat} : ¬ BadAfter opened [] i := by
  simp [BadAfter]

theorem badAfter_zero {opened : Prop} {l : List Char} {ls : List (List Char)} :
    BadAfter opened (l :: ls) 0 ↔ BadLine opened l := by
  constructor
  · rintro ⟨before, line, after, hls, hi, hbad⟩
    obtain rfl := List.length_eq_zero_iff.1 hi.symm
    cases hls
    simpa using hbad
  · intro hbad
    exact ⟨[], l, ls, rfl, rfl, by simpa using hbad⟩

theorem badAfter_succ {opened : Prop} {l : List Char} {ls : List (List Char)} {i : Nat} :
    BadAfter opened (l :: ls) (i + 1) ↔ BadAfter (FileHeader l ∨ opened) ls i := by
  have hopened : ∀ before : List (List Char), (opened ∨ ∃ x ∈ l :: before, FileHeader x) ↔
      ((FileHeader l ∨ opened) ∨ ∃ x ∈ before, FileHeader x) := by
    intro before
    simp only [List.mem_cons, exists_eq_or_imp]
    tauto
  constructor
  · rintro ⟨before, line, after, hls, hi, hbad⟩
    cases before with
    | nil => cases hi
    | cons b before =>
      cases hls
      exact ⟨before, line, after, rfl, Nat.succ.inj hi, by rwa [hopened] at hbad⟩
  · rintro ⟨before, line, after, rfl, rfl, hbad⟩
    exact ⟨l :: before, line, after, rfl, rfl, by rwa [hopened]⟩

/-- A run over numbered lines stops at the first bad one, and at no other. -/
theorem run_stops (ls : List (List Char)) : ∀ (s : Scan) (k : Nat),
    (∀ t, (ls.zipIdx k).foldlM Scan.step s = .ok t → ∀ i, ¬ BadAfter (s.current.isSome = true) ls i) ∧
    ∀ e, (ls.zipIdx k).foldlM Scan.step s = .error e →
      ∃ i, e.line = k + i ∧ BadAfter (s.current.isSome = true) ls i ∧
        ∀ j < i, ¬ BadAfter (s.current.isSome = true) ls j := by
  induction ls with
  | nil =>
    intro s k
    refine ⟨fun _ _ i => badAfter_nil, fun e he => ?_⟩
    cases he
  | cons l ls ih =>
    intro s k
    simp only [List.zipIdx_cons, List.foldlM_cons, Scan.step]
    cases hline : s.line l with
    | error cause =>
      have hbad : BadAfter (s.current.isSome = true) (l :: ls) 0 :=
        badAfter_zero.2 (Scan.line_error_iff.1 ⟨cause, hline⟩)
      refine ⟨fun t ht => ?_, fun e he => ⟨0, ?_, hbad, fun j hj => absurd hj (Nat.not_lt_zero j)⟩⟩
      · cases ht
      · cases he
        rfl
    | ok u =>
      have hgood : ¬ BadAfter (s.current.isSome = true) (l :: ls) 0 := by
        rw [badAfter_zero, ← Scan.line_error_iff, hline]
        simp
      have hrest : ∀ i, BadAfter (s.current.isSome = true) (l :: ls) (i + 1) ↔
          BadAfter (u.current.isSome = true) ls i := by
        intro i
        rw [badAfter_succ, Scan.line_opened hline]
      obtain ⟨hok, herror⟩ := ih u (k + 1)
      constructor
      · intro t ht i
        cases i with
        | zero => exact hgood
        | succ i => rw [hrest]; exact hok t ht i
      · intro e he
        obtain ⟨i, hi, hbad, hleast⟩ := herror e he
        refine ⟨i + 1, by omega, (hrest i).2 hbad, fun j hj => ?_⟩
        cases j with
        | zero => exact hgood
        | succ j => rw [hrest]; exact hleast j (by omega)

theorem badAt_iff {ls : List (List Char)} {n : Nat} :
    BadAt ls n ↔ ∃ i, n = 1 + i ∧ BadAfter False ls i := by
  simp only [BadAt, BadAfter, false_or]
  constructor
  · rintro ⟨before, line, after, hls, rfl, hbad⟩
    exact ⟨_, Nat.add_comm _ _, before, line, after, hls, rfl, hbad⟩
  · rintro ⟨_, rfl, before, line, after, hls, rfl, hbad⟩
    exact ⟨before, line, after, hls, Nat.add_comm _ _, hbad⟩

variable {diff : String}

theorem parse_eq_error {e : Malformed}
    (h : ((Text.lines diff.toList).zipIdx 1).foldlM Scan.step ⟨[], none⟩ = .error e) :
    parse diff = .error e := by
  rw [parse, h]
  rfl

/-- A diff that is read has no bad line. -/
theorem not_badAt_of_parse {cs : List FileChange} (h : parse diff = .ok cs) (n : Nat) :
    ¬ BadAt (Text.lines diff.toList) n := by
  have hok := (run_stops (Text.lines diff.toList) ⟨[], none⟩ 1).1
  rw [badAt_iff]
  rintro ⟨i, -, hbad⟩
  cases hrun : ((Text.lines diff.toList).zipIdx 1).foldlM Scan.step ⟨[], none⟩ with
  | error e =>
    rw [parse_eq_error hrun] at h
    cases h
  | ok t => exact hok t hrun i (by simpa using hbad)

/-- The fault of a diff lies on its first bad line. -/
theorem isLeast_of_parse_error {e : Malformed} (h : parse diff = .error e) :
    IsLeast {n | BadAt (Text.lines diff.toList) n} e.line := by
  have herror := (run_stops (Text.lines diff.toList) ⟨[], none⟩ 1).2
  simp only [Option.isSome_none, Bool.false_eq_true] at herror
  cases hrun : ((Text.lines diff.toList).zipIdx 1).foldlM Scan.step ⟨[], none⟩ with
  | ok t =>
    rw [parse, hrun] at h
    cases h
  | error e' =>
    rw [parse_eq_error hrun] at h
    cases h
    obtain ⟨i, hi, hbad, hleast⟩ := herror e hrun
    refine ⟨badAt_iff.2 ⟨i, hi, hbad⟩, fun n hn => ?_⟩
    obtain ⟨j, rfl, hj⟩ := badAt_iff.1 hn
    have hle : ¬ j < i := fun hlt => hleast j hlt hj
    omega

/-- **A diff cannot be read exactly when some line of it is bad**, and the fault is found on the
first bad line, whatever the hunks before it count and however sections are merged. -/
theorem parse_error_iff (diff : String) :
    ((∃ e, parse diff = .error e) ↔ ∃ n, BadAt (Text.lines diff.toList) n) ∧
    ∀ e, parse diff = .error e → IsLeast {n | BadAt (Text.lines diff.toList) n} e.line := by
  refine ⟨⟨fun ⟨e, he⟩ => ⟨e.line, (isLeast_of_parse_error he).1⟩, fun ⟨n, hn⟩ => ?_⟩,
    fun e he => isLeast_of_parse_error he⟩
  cases h : parse diff with
  | error e => exact ⟨e, rfl⟩
  | ok cs => exact absurd hn (not_badAt_of_parse h n)

end StaleDocs.Diff
