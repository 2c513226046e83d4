/-
A file that cannot be read or parsed is lost alone. The symbols of a diff are
told record by record (`extract_eq`), and those of a record depend on the
texts of its two paths only (`emitted_eq_of_agree`), so that whatever happens
to other files they stay the same, in the same order (`extract_local`). Only
the text that a record is read from can make it one that is skipped; an old
version that is missing or broken costs no symbol (`ofChange_isOk`).
-/
import StaleDocs.Proofs.Symbol.Modified

namespace StaleDocs.Extraction
open Diff (FileChange FilePatch Malformed printDiff)
open Repository (LookupError)

/-- The text of a file, if it can be read, parses. -/
def parses (text : Except LookupError String) : Bool :=
  match text with
  | .ok text => (Go.declarations? text).isSome
  | .error _ => false

section Records
variable (repo : Repository Id) (base : String)

/-- The text that the declarations of a record are read from: the old one of a deleted file,
else the current one. -/
def neededText (c : FileChange) : Except LookupError String :=
  match c.kind with
  | .deleted => (repo.fileAt c.oldPath base).run
  | .added | .modified => (repo.current c.newPath).run

/-- Whether a record is not skipped. -/
def readable (c : FileChange) : Bool := parses (neededText repo base c)

/-- The symbols of the records about source files, each with the record that it comes from. -/
def attributed (cs : List FileChange) : List (FileChange × Symbol) :=
  (sourceChanges cs).flatMap fun c => (emitted repo base c).map fun s => (c, s)

/-- Whether the counts of an extraction are those of the records of a diff. -/
structure Stats.Counts (stats : Stats) (cs : List FileChange) : Prop where
  seen : stats.filesSeen = (sourceChanges cs).length
  skipped : stats.filesSkipped ≤ stats.filesSeen
  read : stats.filesSeen - stats.filesSkipped = (sourceChanges cs).countP (readable repo base)
  symbols : stats.symbols = (attributed repo base cs).length

/-! ## One record -/

theorem ofText_isOk (path : String) (change : Diff.ChangeKind) (text : Except LookupError String) :
    (ofText path change text).isOk = parses text := by
  cases text with
  | error fault => rfl
  | ok text =>
    simp only [ofText, declarations, parses]
    cases Go.declarations? text <;> rfl

/-- A record has its symbols told exactly when the text that it needs can be read and parsed,
whatever there is of the old version of a modified file. -/
theorem ofChange_isOk (c : FileChange) : (ofChange repo base c).run.isOk = readable repo base c := by
  cases hk : c.kind with
  | added | deleted =>
    simp only [ofChange, hk, readable, neededText, Id.run_bind, Id.run_pure, ofText_isOk]
  | modified =>
    simp only [ofChange, hk, modifiedFile, readable, neededText, Id.run_bind]
    cases (repo.current c.newPath).run with
    | error fault => rfl
    | ok text =>
      simp only [declarations, parses]
      cases Go.declarations? text with
      | none => rfl
      | some ds =>
        -- What is made of the old version can only be missing, and fails nothing.
        dsimp only
        cases touched c ds <;> rfl

/-! ## All records of a diff -/

theorem attributed_symbols (cs : List FileChange) :
    (attributed repo base cs).map (·.2) = emittedBy repo base cs := by
  simp [attributed, emittedBy, List.map_flatMap, Function.comp_def]

theorem ofChanges_skipped (cs : List FileChange) :
    (ofChanges repo base cs).run.2 + cs.countP (readable repo base) = cs.length := by
  induction cs with
  | nil => rfl
  | cons c cs ih =>
    rw [List.countP_cons, ← ofChange_isOk, List.length_cons, ← ih]
    simp only [ofChanges, Id.run_bind]
    cases (ofChange repo base c).run with
    | ok symbols => simp [Except.isOk, Except.toBool]; omega
    | error fault => simp [Except.isOk, Except.toBool]; omega

/-- An extraction fails only with the diff, and in the same way. -/
theorem extract_error_iff {diff : String} {fault : Malformed} :
    (extract repo base diff).run = .error fault ↔ Diff.parse diff = .error fault := by
  cases hp : Diff.parse diff <;> simp [extract, hp]

/-- The symbols of a diff are those of its records about source files, and its counts are about
these records. -/
theorem extract_eq {diff : String} {changes : List FileChange} (h : Diff.parse diff = .ok changes) :
    ∃ stats, (extract repo base diff).run =
        .ok ((attributed repo base changes).map (·.2), stats) ∧
      stats.Counts repo base changes := by
  have hskipped := ofChanges_skipped repo base (sourceChanges changes)
  have hlength := congrArg List.length (attributed_symbols repo base changes)
  rw [List.length_map] at hlength
  refine ⟨⟨(sourceChanges changes).length, (ofChanges repo base (sourceChanges changes)).run.2,
    (emittedBy repo base changes).length⟩, ?_, rfl, ?_, ?_, hlength.symm⟩
  · rw [attributed_symbols]
    simp only [extract, h, Id.run_bind, Id.run_pure, ofChanges_run]
    rfl
  · exact Nat.le.intro hskipped
  · exact Nat.sub_eq_of_eq_add' hskipped.symm

end Records

/-! ## Two repositories -/

/-- Whether two repositories differ in the current texts, and in those at a revision, of some
paths only. -/
structure AgreeOutside (paths : Set String) (base : String) (repo₁ repo₂ : Repository Id) :
    Prop where
  current : ∀ path ∉ paths, repo₁.current path = repo₂.current path
  fileAt : ∀ path ∉ paths, repo₁.fileAt path base = repo₂.fileAt path base

/-- Whether neither path of a record is in a set. -/
def Apart (paths : Set String) (c : FileChange) : Prop := c.oldPath ∉ paths ∧ c.newPath ∉ paths

instance (paths : Set String) [DecidablePred (· ∈ paths)] : DecidablePred (Apart paths) :=
  fun c => inferInstanceAs (Decidable (c.oldPath ∉ paths ∧ c.newPath ∉ paths))

variable {paths : Set String} {base : String} {repo₁ repo₂ : Repository Id}

/-- The symbols of a record depend on its own paths only. -/
theorem emitted_eq_of_agree (h : AgreeOutside paths base repo₁ repo₂) {c : FileChange}
    (hc : Apart paths c) : emitted repo₁ base c = emitted repo₂ base c := by
  simp only [emitted, ofChange, modifiedFile, h.current c.newPath hc.2, h.fileAt c.oldPath hc.1]

theorem filter_attributed_of_agree (h : AgreeOutside paths base repo₁ repo₂)
    [DecidablePred (· ∈ paths)] (cs : List FileChange) :
    (attributed repo₁ base cs).filter (fun a => Apart paths a.1) =
      (attributed repo₂ base cs).filter (fun a => Apart paths a.1) := by
  simp only [attributed, List.filter_flatMap, List.filter_map, Function.comp_def]
  refine List.flatMap_congr fun c _ => ?_
  by_cases hc : Apart paths c
  · rw [emitted_eq_of_agree h hc]
  · simp [hc]

/-- **Failures stay local to their file.** An extraction fails exactly when the diff cannot be
parsed. Where it can, and two repositories differ in the texts of some paths only, whatever the
texts are and whether they are there at all, the symbols of the records with no path among these
are the same in the same order, as many files are seen, and in either run the files that are
seen and not skipped are those whose needed text can be read and parsed. -/
theorem extract_local (diff base : String) :
    (∀ repo fault, (extract repo base diff : Id _).run = .error fault ↔
      Diff.parse diff = .error fault) ∧
    ∀ changes, Diff.parse diff = .ok changes →
      ∀ (paths : Set String) [DecidablePred (· ∈ paths)] (repo₁ repo₂ : Repository Id),
        AgreeOutside paths base repo₁ repo₂ →
        ∃ stats₁ stats₂,
          (extract repo₁ base diff).run =
            .ok ((attributed repo₁ base changes).map (·.2), stats₁) ∧
          (extract repo₂ base diff).run =
            .ok ((attributed repo₂ base changes).map (·.2), stats₂) ∧
          (attributed repo₁ base changes).filter (fun a => Apart paths a.1) =
            (attributed repo₂ base changes).filter (fun a => Apart paths a.1) ∧
          stats₁.filesSeen = stats₂.filesSeen ∧
          stats₁.Counts repo₁ base changes ∧ stats₂.Counts repo₂ base changes := by
  refine ⟨fun repo fault => extract_error_iff repo base, fun changes hp paths _ repo₁ repo₂ h => ?_⟩
  obtain ⟨stats₁, hrun₁, hcounts₁⟩ := extract_eq repo₁ base hp
  obtain ⟨stats₂, hrun₂, hcounts₂⟩ := extract_eq repo₂ base hp
  exact ⟨stats₁, stats₂, hrun₁, hrun₂, filter_attributed_of_agree h changes,
    hcounts₁.seen.trans hcounts₂.seen.symm, hcounts₁, hcounts₂⟩

/-- A diff that adds a file, changes the declarations `C` and `D` of another one, and deletes a
third. -/
def threeFiles : List FilePatch :=
  [{ oldPath := "bad.go", newPath := "bad.go", kind := .added, extended := [], sides := false
     hunks := [] },
   { oldPath := "p.go", newPath := "p.go", kind := .modified, extended := [], sides := true
     hunks :=
       [{ header := ⟨9, 1, 9, 1⟩, heading := ""
          body := [.removed "var C, D = 0, 0", .added "var C, D = 1, 2"] }] },
   { oldPath := "q.go", newPath := "q.go", kind := .deleted, extended := [], sides := false
     hunks := [] }]

/-- A repository with these files, given the text of the added one. There is no old version of
the changed file. -/
def threeFileRepository (added : String) : Repository Id :=
  Repository.Snapshot.repository
    ⟨[], [("p.go", threeDeclarations), ("bad.go", added)],
      [(("HEAD", "q.go"), "package p\n\ntype Q struct\x7b\x7d\n")], false⟩

theorem agree_threeFiles (added₁ added₂ : String) :
    AgreeOutside ({"bad.go"} : Set String) "HEAD" (threeFileRepository added₁) (threeFileRepository added₂) where
  current path hpath := by
    have hne : (path == "bad.go") = false := beq_false_of_ne hpath
    simp only [threeFileRepository, Repository.Snapshot.repository, Repository.Snapshot.current?,
      List.lookup_cons, hne]
  fileAt _ _ := rfl

/-- The added file is broken in one of two repositories, and lost alone. -/
theorem extract_local_threeFiles :
    Diff.parse (printDiff threeFiles) = .ok (threeFiles.map FilePatch.change) ∧
    AgreeOutside ({"bad.go"} : Set String) "HEAD"
      (threeFileRepository "package p\n\nvar Z int\n") (threeFileRepository ")") ∧
    ∃ symbols₁ symbols₂ stats₁ stats₂,
      (extract (threeFileRepository "package p\n\nvar Z int\n") "HEAD" (printDiff threeFiles)).run =
        .ok (symbols₁, stats₁) ∧
      (extract (threeFileRepository ")") "HEAD" (printDiff threeFiles)).run =
        .ok (symbols₂, stats₂) ∧
      symbols₁.map (·.name) = ["Z", "C", "D", "Q"] ∧ symbols₂.map (·.name) = ["C", "D", "Q"] ∧
      stats₁.filesSeen - stats₁.filesSkipped = 3 ∧ stats₂.filesSeen - stats₂.filesSkipped = 2 := by
  have hp : Diff.parse (printDiff threeFiles) = .ok (threeFiles.map FilePatch.change) := by
    rw [Diff.parse_printDiff_plain (by decide +kernel) (by decide +kernel),
      Diff.recordAll_nil (by decide) (by decide)]
  have : DecidablePred (· ∈ ({"bad.go"} : Set String)) := fun path =>
    inferInstanceAs (Decidable (path = "bad.go"))
  obtain ⟨stats₁, stats₂, hrun₁, hrun₂, -, -, hcounts₁, hcounts₂⟩ :=
    (extract_local (printDiff threeFiles) "HEAD").2 _ hp ({"bad.go"} : Set String) _ _
      (agree_threeFiles "package p\n\nvar Z int\n" ")")
  refine ⟨hp, agree_threeFiles _ _, _, _, stats₁, stats₂, hrun₁, hrun₂, by decide +kernel, by decide +kernel, ?_, ?_⟩
  · rw [hcounts₁.read]
    decide +kernel
  · rw [hcounts₂.read]
    decide +kernel

end StaleDocs.Extraction
