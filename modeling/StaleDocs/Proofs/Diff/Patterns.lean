/-
The header lines of a diff in the words of their patterns: a file header is
two paths behind their marks (`filePaths?_isSome_iff`), a hunk header is four
groups of digits between theirs (`hunkDigits?_eq_some_iff`), and it cannot be
used exactly where a group writes no line number or a range ends beyond the
greatest one (`hunk?_error_iff`).

Digits of any script have the form of a number, but only ASCII digits write
one.
-/
import StaleDocs.Proofs.Diff.Printer
import StaleDocs.Proofs.Diff.Scan

namespace StaleDocs

namespace Text

/-- Reading on from more digits never makes a number smaller. -/
theorem le_ofDigitChars (ds : List Char) (v : Nat) : v ≤ Nat.ofDigitChars 10 ds v := by
  induction ds generalizing v with
  | nil => exact Nat.le_refl v
  | cons c ds ih =>
    rw [Nat.ofDigitChars_cons]
    exact Nat.le_trans (by omega) (ih _)

theorem readNatFrom_eq_some_iff {limit n : Nat} {ds : List Char} : ∀ {v : Nat}, v ≤ limit →
    (readNatFrom limit v ds = some n ↔
      (∀ c ∈ ds, c.isDigit = true) ∧ Nat.ofDigitChars 10 ds v = n ∧ n ≤ limit) := by
  induction ds with
  | nil =>
    intro v hv
    simp only [readNatFrom, Option.some.injEq, List.not_mem_nil, false_imp_iff, implies_true,
      true_and, Nat.ofDigitChars_nil]
    exact ⟨fun h => ⟨h, h ▸ hv⟩, fun h => h.1⟩
  | cons c ds ih =>
    intro v hv
    simp only [readNatFrom, List.forall_mem_cons, Nat.ofDigitChars_cons]
    by_cases hc : c.isDigit = true
    · by_cases hle : 10 * v + (c.toNat - 48) ≤ limit
      · simp [hc, hle, ih hle]
      · -- Whatever digits follow, the number stays above the limit.
        have hbig := le_ofDigitChars ds (10 * v + (c.toNat - 48))
        simp only [hc, hle, if_true, if_false, reduceCtorEq, true_and, false_iff, not_and]
        intro _ hn
        change Nat.ofDigitChars 10 ds (10 * v + (c.toNat - 48)) = n at hn
        omega
    · simp [hc]

theorem readNat?_eq_some_iff {limit n : Nat} {ds : List Char} :
    readNat? limit ds = some n ↔
      ds ≠ [] ∧ (∀ c ∈ ds, c.isDigit = true) ∧ Nat.ofDigitChars 10 ds 0 = n ∧ n ≤ limit := by
  cases ds with
  | nil => simp [readNat?]
  | cons c ds =>
    rw [readNat?, readNatFrom_eq_some_iff (Nat.zero_le limit)]
    · simp
    · simp

end Text

namespace Diff
open Text (after? isDecimal maxWord readNat?)

/-! ## File headers -/

/-- Whether a line is a file header: two paths, neither of them empty, behind their marks. -/
def FileHeader (line : List Char) : Prop :=
  ∃ old new, old ≠ [] ∧ new ≠ [] ∧
    line = "diff --git a/".toList ++ (old ++ (" b/".toList ++ new))

/-- Going back through a text finds the mark between the paths if it stands anywhere behind a
first path and before a second one. -/
theorem cutPathsFrom_isSome_iff (new before : List Char) :
    (cutPathsFrom new before).isSome = true ↔
      ∃ later old, before = later ++ '/' :: 'b' :: ' ' :: old ∧ old ≠ [] ∧
        (later ≠ [] ∨ new ≠ []) := by
  fun_induction cutPathsFrom new before with
  | case1 => simp
  | case2 new c before hnew ih =>
    rw [List.isEmpty_iff] at hnew
    subst hnew
    rw [ih]
    constructor
    · rintro ⟨later, old, hbefore, hold, -⟩
      exact ⟨'/' :: later, old, by rw [hbefore]; rfl, hold, by simp⟩
    · rintro ⟨later, old, hbefore, hold, hne⟩
      obtain ⟨d, later, rfl⟩ := List.exists_cons_of_ne_nil (hne.resolve_right fun h => h rfl)
      simp only [List.cons_append, List.cons.injEq] at hbefore
      exact ⟨later, old, hbefore.2, hold, by simp⟩
  | case3 new c before hnew =>
    rw [List.isEmpty_iff] at hnew
    simp only [Option.isSome_some, true_iff]
    exact ⟨[], c :: before, rfl, by simp, .inr hnew⟩
  | case4 new c before hmark ih =>
    rw [ih]
    constructor
    · rintro ⟨later, old, rfl, hold, -⟩
      exact ⟨c :: later, old, rfl, hold, by simp⟩
    · rintro ⟨later, old, hbefore, hold, -⟩
      cases later with
      | nil =>
        -- The mark would stand right here, behind a path.
        obtain ⟨d, old, rfl⟩ := List.exists_cons_of_ne_nil hold
        simp only [List.nil_append, List.cons.injEq] at hbefore
        exact absurd hbefore.2 (hmark d old hbefore.1)
      | cons d later =>
        simp only [List.cons_append, List.cons.injEq] at hbefore
        exact ⟨later, old, hbefore.2, hold, by simp⟩

theorem filePaths?_isSome_iff {line : List Char} :
    (filePaths? line).isSome = true ↔ FileHeader line := by
  have hcut : (filePaths? line).isSome = true ↔
      ∃ rest, line = "diff --git a/".toList ++ rest ∧ (cutPathsFrom [] rest.reverse).isSome = true := by
    simp only [filePaths?, Option.bind_eq_bind, Option.isSome_iff_exists, Option.bind_eq_some_iff,
      Text.after?_eq_some_iff, Option.pure_def, Option.some.injEq]
    constructor
    · rintro ⟨_, rest, hrest, cut, hcut, -⟩
      exact ⟨rest, hrest, cut, hcut⟩
    · rintro ⟨rest, hrest, cut, hcut⟩
      exact ⟨_, rest, hrest, cut, hcut, rfl⟩
  rw [hcut]
  constructor
  · rintro ⟨rest, rfl, h⟩
    obtain ⟨later, old, hrest, hold, hnew⟩ := (cutPathsFrom_isSome_iff _ _).1 h
    refine ⟨old.reverse, later.reverse, by simpa using hold, by simpa using hnew, ?_⟩
    rw [← List.reverse_reverse rest, hrest]
    simp
  · rintro ⟨old, new, hold, hnew, rfl⟩
    refine ⟨_, rfl, (cutPathsFrom_isSome_iff _ _).2 ⟨new.reverse, old.reverse, ?_, ?_, ?_⟩⟩
    · simp
    · simpa using hold
    · simpa using hnew

/-! ## Hunk headers -/

/-- Whether a text is a group of digits. -/
structure Digits (ds : List Char) : Prop where
  nonempty : ds ≠ []
  decimal : ∀ c ∈ ds, isDecimal c = true

/-- A count behind its comma; a missing count has none. -/
def countText : Option (List Char) → List Char
  | none => []
  | some ds => ',' :: ds

/-- Whether a line has the form of a hunk header with these groups of digits. -/
structure HunkHeader (line : List Char) (ds : HunkDigits) : Prop where
  oldStart : Digits ds.oldStart
  oldCount : ∀ c ∈ ds.oldCount, Digits c
  newStart : Digits ds.newStart
  newCount : ∀ c ∈ ds.newCount, Digits c
  spelled : ∃ rest, line = "@@ -".toList ++ (ds.oldStart ++ (countText ds.oldCount ++
    (" +".toList ++ (ds.newStart ++ (countText ds.newCount ++ (" @@".toList ++ rest))))))

theorem digits?_eq_some {cs ds rest : List Char} (h : digits? cs = some (ds, rest)) :
    Digits ds ∧ cs = ds ++ rest := by
  unfold digits? at h
  split at h
  · cases h
  · next hne =>
    cases h
    exact ⟨⟨hne, List.all_eq_true.1 List.all_takeWhile⟩, List.takeWhile_append_dropWhile.symm⟩

/-- What is read of a count and what is left of it make up the text. -/
theorem countText_count? (cs : List Char) :
    (∀ c ∈ (count? cs).1, Digits c) ∧ countText (count? cs).1 ++ (count? cs).2 = cs := by
  unfold count?
  split
  · next cs =>
    split
    · next ds after hds =>
      obtain ⟨hdigits, rfl⟩ := digits?_eq_some hds
      exact ⟨by simpa using hdigits, rfl⟩
    · exact ⟨by simp, rfl⟩
  · exact ⟨by simp, rfl⟩

/-- A count is read in full where a blank follows. -/
theorem count?_countText {count : Option (List Char)} (h : ∀ c ∈ count, Digits c)
    (rest : List Char) : count? (countText count ++ ' ' :: rest) = (count, ' ' :: rest) := by
  cases count with
  | none => rfl
  | some ds =>
    have hds := h ds rfl
    have hread : digits? (ds ++ ' ' :: rest) = some (ds, ' ' :: rest) :=
      digits?_append hds.nonempty hds.decimal (by simp; decide)
    simp [countText, count?, hread]

/-- A start is read in full where a count or a blank follows. -/
theorem digits?_countText {ds : List Char} (h : Digits ds) (count : Option (List Char))
    (rest : List Char) : digits? (ds ++ (countText count ++ ' ' :: rest)) =
      some (ds, countText count ++ ' ' :: rest) := by
  refine digits?_append h.nonempty h.decimal fun c hc => ?_
  cases count with
  | none =>
    obtain rfl : ' ' = c := by simpa [countText] using hc
    decide
  | some count =>
    obtain rfl : ',' = c := by simpa [countText] using hc
    decide

theorem hunkDigits?_eq_some_iff {line : List Char} {ds : HunkDigits} :
    hunkDigits? line = some ds ↔ HunkHeader line ds := by
  constructor
  · intro h
    simp only [hunkDigits?, Option.bind_eq_bind, Option.bind_eq_some_iff, Text.after?_eq_some_iff,
      Option.pure_def, Option.some.injEq, Prod.exists] at h
    obtain ⟨l₁, rfl, oldStart, l₂, hold, l₃, hplus, newStart, l₄, hnew, rest, hrest, rfl⟩ := h
    obtain ⟨holdStart, rfl⟩ := digits?_eq_some hold
    obtain ⟨hnewStart, rfl⟩ := digits?_eq_some hnew
    obtain ⟨holdCount, hl₂⟩ := countText_count? l₂
    obtain ⟨hnewCount, hl₄⟩ := countText_count? l₄
    exact ⟨holdStart, holdCount, hnewStart, hnewCount, rest,
      by rw [← hrest, hl₄, ← hplus, hl₂]⟩
  · rintro ⟨hold, holdCount, hnew, hnewCount, rest, rfl⟩
    have hplus : ∀ l, " +".toList ++ l = ' ' :: '+' :: l := fun _ => rfl
    have hend : ∀ l, " @@".toList ++ l = ' ' :: '@' :: '@' :: l := fun _ => rfl
    simp only [hunkDigits?, Text.after?_append, Option.bind_eq_bind, Option.bind_some]
    rw [hplus, digits?_countText hold]
    simp only [Option.bind_some, count?_countText holdCount]
    rw [← hplus, Text.after?_append, Option.bind_some, hend, digits?_countText hnew]
    simp only [Option.bind_some, count?_countText hnewCount]
    rw [← hend, Text.after?_append]
    rfl

/-! ## Numbers of a hunk header -/

/-- Whether digits write a possible line number. -/
structure WritesWord (ds : List Char) : Prop where
  ascii : ∀ c ∈ ds, c.isDigit = true
  small : Nat.ofDigitChars 10 ds 0 ≤ maxWord

/-- The number that the digits of a count write; a missing count means one. -/
def countValue : Option (List Char) → Nat
  | none => 1
  | some ds => Nat.ofDigitChars 10 ds 0

/-- The hunk with the numbers of a header. -/
def HunkDigits.hunk (ds : HunkDigits) : Hunk :=
  { oldStart := Nat.ofDigitChars 10 ds.oldStart 0
    oldCount := countValue ds.oldCount
    newStart := Nat.ofDigitChars 10 ds.newStart 0
    newCount := countValue ds.newCount }

/-- Whether the numbers of a header can be used: each is a line number, and so are both ends. -/
structure HunkDigits.Usable (ds : HunkDigits) : Prop where
  oldStart : WritesWord ds.oldStart
  oldCount : ∀ c ∈ ds.oldCount, WritesWord c
  newStart : WritesWord ds.newStart
  newCount : ∀ c ∈ ds.newCount, WritesWord c
  fits : ds.hunk.Fits

theorem lineNumber_eq_ok_iff {ds : List Char} {n : Nat} (h : Digits ds) :
    lineNumber ds = .ok n ↔ WritesWord ds ∧ Nat.ofDigitChars 10 ds 0 = n := by
  have hread : lineNumber ds = .ok n ↔ readNat? maxWord ds = some n := by
    unfold lineNumber
    split
    · next m hm => simp [hm]
    · next hm => simp [hm]
  rw [hread, Text.readNat?_eq_some_iff]
  constructor
  · rintro ⟨-, hdigits, rfl, hle⟩
    exact ⟨⟨hdigits, hle⟩, rfl⟩
  · rintro ⟨hw, rfl⟩
    exact ⟨h.nonempty, hw.ascii, rfl, hw.small⟩

theorem lineCount_eq_ok_iff {count : Option (List Char)} {n : Nat} (h : ∀ c ∈ count, Digits c) :
    lineCount count = .ok n ↔ (∀ c ∈ count, WritesWord c) ∧ countValue count = n := by
  cases count with
  | none => simp [lineCount, countValue]
  | some ds => simp [lineCount, countValue, lineNumber_eq_ok_iff (h ds rfl)]

/-- A line with the form of a hunk header gives a hunk exactly when its numbers can be used. -/
theorem hunk?_isOk_iff {line : List Char} {ds : HunkDigits} (h : HunkHeader line ds) :
    (∃ found, hunk? line = .ok found) ↔ ds.Usable := by
  rw [hunk?, hunkDigits?_eq_some_iff.2 h]
  simp only [Except.bind_ok_iff, lineNumber_eq_ok_iff h.oldStart, lineCount_eq_ok_iff h.oldCount,
    lineNumber_eq_ok_iff h.newStart, lineCount_eq_ok_iff h.newCount]
  constructor
  · rintro ⟨found, _, ⟨h₁, rfl⟩, _, ⟨h₂, rfl⟩, _, ⟨h₃, rfl⟩, _, ⟨h₄, rfl⟩, hrange⟩
    split at hrange
    · next hle =>
      simp only [Bool.and_eq_true, decide_eq_true_eq] at hle
      exact ⟨h₁, h₂, h₃, h₄, hle.1, hle.2⟩
    · cases hrange
  · rintro ⟨h₁, h₂, h₃, h₄, hfits⟩
    refine ⟨some ds.hunk, _, ⟨h₁, rfl⟩, _, ⟨h₂, rfl⟩, _, ⟨h₃, rfl⟩, _, ⟨h₄, rfl⟩, ?_⟩
    exact if_pos (by simpa using ⟨hfits.old, hfits.new⟩)

/-- Whether a line has the form of a hunk header whose numbers cannot be used. -/
def BadHunkHeader (line : List Char) : Prop := ∃ ds, HunkHeader line ds ∧ ¬ ds.Usable

theorem hunk?_error_iff {line : List Char} :
    (∃ cause, hunk? line = .error cause) ↔ BadHunkHeader line := by
  have hform : ∀ ds, HunkHeader line ds → ((∃ cause, hunk? line = .error cause) ↔ ¬ ds.Usable) := by
    intro ds hds
    rw [← hunk?_isOk_iff hds]
    cases hunk? line <;> simp
  constructor
  · rintro ⟨cause, h⟩
    cases hd : hunkDigits? line with
    | none => simp [hunk?, hd] at h
    | some ds =>
      have hds := hunkDigits?_eq_some_iff.1 hd
      exact ⟨ds, hds, (hform ds hds).1 ⟨cause, h⟩⟩
  · rintro ⟨ds, hds, hbad⟩
    exact (hform ds hds).2 hbad

end Diff
end StaleDocs
