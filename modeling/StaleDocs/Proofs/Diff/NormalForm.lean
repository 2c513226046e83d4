/-
The hunks of every record that a diff reads as are in normal form: in order,
apart on the new side, and with ends that are line numbers (`parse_normal`).

Ends are cut off at the greatest line number and a difference is never below
zero, so a wrong hunk could come out of either without being noticed. Neither
happens: the same records come out where such a sum or difference is a fault
(`parseChecked`). What keeps the checks from failing is what joining needs
anyway, hunks that fit and are sorted by the new side (`Sorted`).
-/
import Mathlib.Data.List.Permutation
import StaleDocs.Proofs.Diff.Sections

namespace StaleDocs.Diff
open Text (maxWord)

/-- Whether the new range of a hunk ends before that of another starts. -/
def Hunk.Before (a b : Hunk) : Prop := a.newStart + a.newCount ≤ b.newStart

instance (a b : Hunk) : Decidable (a.Before b) := inferInstanceAs (Decidable (_ ≤ _))

/-- Whether hunks are in normal form: each ends before every later one starts, and both ends of
each are line numbers. -/
structure NormalForm (hs : List Hunk) : Prop where
  fits : ∀ h ∈ hs, h.Fits
  apart : hs.Pairwise Hunk.Before

/-! ## Joining sets hunks apart -/

/-- Joining starts no new range before the first one. -/
theorem start_le_coalesceFrom {hs : List Hunk} : ∀ {last : Hunk}, Sorted (last :: hs) →
    ∀ x ∈ coalesceFrom last hs, last.newStart ≤ x.newStart := by
  induction hs with
  | nil => intro last _ x hx; simp_all [coalesceFrom]
  | cons h hs ih =>
    intro last hsort x hx
    have hle : last.newStart ≤ h.newStart := (List.pairwise_cons.1 hsort.starts).1 h (by simp)
    simp only [coalesceFrom] at hx
    split at hx
    · exact ih hsort.join x hx
    · rcases List.mem_cons.1 hx with rfl | hx
      · exact Nat.le_refl _
      · exact Nat.le_trans hle (ih hsort.tail x hx)

/-- What is left of a sorted list starts no earlier than the hunk that it is compared with, so one
comparison sets all the rest apart. -/
theorem apart_coalesceFrom {hs : List Hunk} : ∀ {last : Hunk}, Sorted (last :: hs) →
    (coalesceFrom last hs).Pairwise Hunk.Before := by
  induction hs with
  | nil => intro last _; exact List.pairwise_singleton _ _
  | cons h hs ih =>
    intro last hsort
    simp only [coalesceFrom]
    split
    · exact ih hsort.join
    · next hend =>
      rw [(hsort.fits last (by simp)).newEnd, Nat.not_lt] at hend
      have hstarts := start_le_coalesceFrom hsort.tail
      exact List.pairwise_cons.2 ⟨fun x hx => Nat.le_trans hend (hstarts x hx), ih hsort.tail⟩

theorem apart_coalesce {hs : List Hunk} (hsort : Sorted hs) :
    (coalesce hs).Pairwise Hunk.Before := by
  cases hs with
  | nil => exact List.Pairwise.nil
  | cons h hs => exact apart_coalesceFrom hsort

/-- What `normalize` makes of hunks that fit is a normal form. -/
theorem normalForm_normalize {hs : List Hunk} (hf : ∀ h ∈ hs, h.Fits) :
    NormalForm (normalize hs) :=
  ⟨fits_normalize hf, apart_coalesce (sorted_mergeSort hf)⟩

theorem NormalForm.merge {a b : FileChange} (ha : NormalForm a.hunks) (hb : NormalForm b.hunks) :
    NormalForm (a.merge b).hunks :=
  normalForm_normalize (FileChange.Fits.append ha.fits hb.fits)

/-! ## Arithmetic that is checked -/

/-- A sum that is a line number. -/
def add? (a b : Nat) : Option Nat := if a + b ≤ maxWord then some (a + b) else none

/-- A difference that is not below zero. -/
def sub? (a b : Nat) : Option Nat := if b ≤ a then some (a - b) else none

def Hunk.newEnd? (h : Hunk) : Option Nat := add? h.newStart h.newCount

def Hunk.oldEnd? (h : Hunk) : Option Nat := add? h.oldStart h.oldCount

/-- `Hunk.join`, checked. -/
def Hunk.join? (a b : Hunk) : Option Hunk := do
  let newEnd := max (← a.newEnd?) (← b.newEnd?)
  let oldStart := min a.oldStart b.oldStart
  let oldEnd := max (← a.oldEnd?) (← b.oldEnd?)
  let oldCount ← sub? oldEnd oldStart
  let newCount ← sub? newEnd a.newStart
  return ⟨oldStart, oldCount, a.newStart, newCount⟩

/-- `coalesceFrom`, checked. -/
def coalesceFrom? (last : Hunk) : List Hunk → Option (List Hunk)
  | [] => some [last]
  | h :: hs => do
    if h.newStart < (← last.newEnd?) then
      coalesceFrom? (← last.join? h) hs
    else
      let rest ← coalesceFrom? h hs
      return last :: rest

/-- `coalesce`, checked. -/
def coalesce? : List Hunk → Option (List Hunk)
  | [] => some []
  | h :: hs => coalesceFrom? h hs

/-- `normalize`, checked. -/
def normalize? (hs : List Hunk) : Option (List Hunk) :=
  coalesce? (hs.mergeSort Hunk.precedes)

/-- `Section.change`, checked. -/
def Section.change? (s : Section) : Option FileChange := do
  return { s.change with hunks := ← normalize? s.hunks.reverse }

/-- `FileChange.merge`, checked. -/
def FileChange.merge? (a b : FileChange) : Option FileChange := do
  return { a.merge b with hunks := ← normalize? (a.hunks ++ b.hunks) }

/-- `record`, checked. -/
def record? (c : FileChange) : List FileChange → Option (List FileChange)
  | [] => some [c]
  | f :: fs =>
    if f.samePaths c then do return (← f.merge? c) :: fs
    else do return f :: (← record? c fs)

/-- `recordSections`, checked. -/
def recordSections? (cs : List FileChange) (ss : List Section) : Option (List FileChange) :=
  ss.foldlM (fun cs s => do record? (← s.change?) cs) cs

/-- `parse`, where every end of a hunk and every count is checked as it is computed. -/
def parseChecked (diff : String) : Except Malformed (Option (List FileChange)) :=
  (sections diff).map (recordSections? [])

theorem Hunk.Fits.newEnd? {h : Hunk} (hf : h.Fits) : h.newEnd? = some h.newEnd := by
  rw [Hunk.newEnd?, add?, if_pos hf.new, hf.newEnd]

theorem Hunk.Fits.oldEnd? {h : Hunk} (hf : h.Fits) : h.oldEnd? = some h.oldEnd := by
  rw [Hunk.oldEnd?, add?, if_pos hf.old, hf.oldEnd]

theorem Hunk.Fits.join? {a b : Hunk} (ha : a.Fits) (hb : b.Fits) : a.join? b = some (a.join b) := by
  have hold : min a.oldStart b.oldStart ≤ max a.oldEnd b.oldEnd := by
    rw [ha.oldEnd, hb.oldEnd]; omega
  have hnew : a.newStart ≤ max a.newEnd b.newEnd := by
    rw [ha.newEnd, hb.newEnd]; omega
  simp only [Hunk.join?, ha.newEnd?, hb.newEnd?, ha.oldEnd?, hb.oldEnd?, sub?, if_pos hold,
    if_pos hnew, Option.bind_eq_bind, Option.bind_some]
  rfl

theorem coalesceFrom?_eq {hs : List Hunk} : ∀ {last : Hunk}, Sorted (last :: hs) →
    coalesceFrom? last hs = some (coalesceFrom last hs) := by
  induction hs with
  | nil => intro last _; rfl
  | cons h hs ih =>
    intro last hsort
    have hlast := hsort.fits last (by simp)
    simp only [coalesceFrom?, coalesceFrom, hlast.newEnd?, Option.bind_eq_bind, Option.bind_some]
    split
    · rw [hlast.join? (hsort.fits h (by simp)), Option.bind_some, ih hsort.join]
    · rw [ih hsort.tail]; rfl

/-- A hunk that does not fit is a fault. -/
example : coalesceFrom? ⟨1, 1, maxWord, 1⟩ [⟨2, 1, maxWord, 0⟩] = none := by decide

theorem coalesce?_eq {hs : List Hunk} (hsort : Sorted hs) : coalesce? hs = some (coalesce hs) := by
  cases hs with
  | nil => rfl
  | cons h hs => exact coalesceFrom?_eq hsort

/-- Hunks that fit come to normal form without a fault. -/
theorem normalize?_eq {hs : List Hunk} (hf : ∀ h ∈ hs, h.Fits) :
    normalize? hs = some (normalize hs) :=
  coalesce?_eq (sorted_mergeSort hf)

theorem Section.Fits.change? {s : Section} (hs : s.Fits) : s.change? = some s.change := by
  rw [Section.change?, normalize?_eq fun h hh => hs h (List.mem_reverse.1 hh)]
  rfl

theorem FileChange.Fits.merge? {a b : FileChange} (ha : a.Fits) (hb : b.Fits) :
    a.merge? b = some (a.merge b) := by
  rw [FileChange.merge?, normalize?_eq (ha.append hb)]
  rfl

theorem record?_eq {c : FileChange} (hc : c.Fits) {cs : List FileChange} (hcs : ∀ f ∈ cs, f.Fits) :
    record? c cs = some (record c cs) := by
  induction cs with
  | nil => rfl
  | cons f fs ih =>
    have hf := hcs f (by simp)
    simp only [record?, record]
    split
    · rw [FileChange.Fits.merge? hf hc]; rfl
    · rw [ih fun x hx => hcs x (by simp [hx])]; rfl

theorem recordSections?_eq {ss : List Section} : ∀ {cs : List FileChange}, (∀ c ∈ cs, c.Fits) →
    (∀ s ∈ ss, s.Fits) → recordSections? cs ss = some (recordSections cs ss) := by
  induction ss with
  | nil => intro cs _ _; rfl
  | cons s ss ih =>
    intro cs hcs hss
    have hs := hss s (by simp)
    have hchange := Section.change_fits hs
    simp only [recordSections?, List.foldlM_cons, hs.change?, Option.bind_eq_bind,
      Option.bind_some, record?_eq hchange hcs]
    exact ih (record_fits hchange hcs) fun x hx => hss x (by simp [hx])

/-- No sum or difference on the way to the records of a diff is a fault. -/
theorem parseChecked_eq (diff : String) : parseChecked diff = (parse diff).map some := by
  rw [parse_eq, parseChecked]
  cases h : sections diff with
  | error e => rfl
  | ok ss => exact congrArg Except.ok (recordSections?_eq (by simp) (sections_fits h))

/-! ## The records of a diff -/

/-- **The hunks of a record are in normal form**, in every record of every diff. There is one
record for each pair of paths, in the order in which the pairs first appear, and on the way
to the records no sum is cut off and no difference is below zero. -/
theorem parse_normal {diff : String} {cs : List FileChange} (h : parse diff = .ok cs) :
    cs.map (·.paths) = (sectionPaths diff).eraseDups ∧
    (cs.map (·.paths)).Nodup ∧
    (∀ c ∈ cs, NormalForm c.hunks) ∧
    parseChecked diff = .ok (some cs) := by
  refine ⟨?_, (parse_kept h).2, ?_, by rw [parseChecked_eq, h]; rfl⟩
  · obtain ⟨ss, hss, rfl⟩ := parse_eq_ok_iff.1 h
    rw [recordSections_paths, sections_paths hss]
  · obtain ⟨ss, hss, rfl⟩ := parse_eq_ok_iff.1 h
    refine recordSections_kept (fun a b => NormalForm.merge) (by simp) fun s hs => ?_
    exact normalForm_normalize fun x hx => sections_fits hss s hs x (List.mem_reverse.1 hx)

/-- Sections about one file whose hunks overlap, around one that ends at the greatest line
number. -/
def repeatedSections : String :=
  Text.writeLines
    ["diff --git a/a.go b/a.go", "@@ -30,2 +30,2 @@",
      "diff --git a/b.go b/b.go", "@@ -1 +18446744073709551614 @@",
      "diff --git a/a.go b/a.go", "@@ -5,3 +5,4 @@", "@@ -31,1 +31,3 @@"]

def repeatedChanges : List FileChange :=
  [⟨"a.go", "a.go", .modified, [⟨5, 3, 5, 4⟩, ⟨30, 2, 30, 4⟩], [], []⟩,
    ⟨"b.go", "b.go", .modified, [⟨1, 1, 18446744073709551614, 1⟩], [], []⟩]

theorem parse_repeatedSections : parse repeatedSections = .ok repeatedChanges := by
  refine parse_eq_ok_iff.2
    ⟨[⟨"a.go", "a.go", .modified, [⟨30, 2, 30, 2⟩], [], [], 2, 2⟩,
      ⟨"b.go", "b.go", .modified, [⟨1, 1, 18446744073709551614, 1⟩], [], [], 1, 1⟩,
      ⟨"a.go", "a.go", .modified, [⟨31, 1, 31, 3⟩, ⟨5, 3, 5, 4⟩], [], [], 1, 3⟩], ?_, by cbv⟩
  rw [repeatedSections, sections_writeLines (by decide +kernel)]
  decide +kernel

theorem parse_normal_repeatedSections :
    parse repeatedSections = .ok repeatedChanges ∧
    sectionPaths repeatedSections = [("a.go", "a.go"), ("b.go", "b.go"), ("a.go", "a.go")] ∧
    (∀ c ∈ repeatedChanges, NormalForm c.hunks) ∧
    parseChecked repeatedSections = .ok (some repeatedChanges) := by
  obtain ⟨-, -, hnormal, hchecked⟩ := parse_normal parse_repeatedSections
  refine ⟨parse_repeatedSections, ?_, hnormal, hchecked⟩
  rw [repeatedSections, sectionPaths_writeLines (by decide +kernel)]
  decide +kernel

end StaleDocs.Diff
