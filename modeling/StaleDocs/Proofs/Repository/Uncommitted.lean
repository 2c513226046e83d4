/-
Uncommitted work as a diff: what is staged, then what is not, both about one
file, as `git` prints them in turn (`decode_uncommitted`). The two sections
make one record (`parse_diff`), whose hunks are read as ranges of the file as
it is now (`extract_uncommitted`). The hunks of the unstaged section are such
ranges. Those of the staged section count the lines
of the staged version, so a staged line that unstaged changes move is covered
only where it happens to fall into a range (`extract_uncommitted_movedDown`).
-/
import StaleDocs.Proofs.Diff.Decoding
import StaleDocs.Proofs.Diff.Listing
import StaleDocs.Proofs.Symbol.Modified
import StaleDocs.Repository.Git

namespace StaleDocs.Repository
open Diff (Listing FileLine Covered fileText oldLines newLines printDiff normalize)
open Extraction (extract emitted emittedBy)

/-- Uncommitted changes of a file. Those that are not staged are made to the staged version. -/
structure Uncommitted where
  staged : Listing
  unstaged : Listing
  shared : newLines staged.edits = oldLines unstaged.edits

/-- The file as it is now. -/
def Uncommitted.worktree (u : Uncommitted) : String := fileText (newLines u.unstaged.edits)

/-- The staged section, then the other. -/
def Uncommitted.diff (u : Uncommitted) (path : String) (staged unstaged : List String) : String :=
  printDiff [u.staged.patch path staged] ++ printDiff [u.unstaged.patch path unstaged]

/-! ## Two sections as one record -/

theorem section_hunks (p : Diff.FilePatch) :
    p.strip.section.change.hunks = normalize (p.hunks.map (·.header)) := by
  simp [Diff.FilePatch.section, Diff.Section.change, Diff.FilePatch.change, Diff.FilePatch.strip,
    Diff.HunkPatch.strip, Function.comp_def]

theorem fits_hunks {d : Listing} {path : String} {extended : List String}
    (h : d.Printed path extended) : ∀ x ∈ d.hunks, x.Fits := by
  intro x hx
  obtain ⟨p, hp, rfl⟩ := List.mem_map.1 hx
  exact (h.printable.counted p hp).fits

theorem printDiff_append (ps qs : List Diff.FilePatch) :
    printDiff ps ++ printDiff qs = printDiff (ps ++ qs) := by
  simp [printDiff, Text.unlines, ← String.ofList_append]

variable {u : Uncommitted} {path : String} {staged unstaged : List String}

/-- Both sections make one record, which covers the lines of either. -/
theorem parse_diff (hs : u.staged.Printed path staged) (hu : u.unstaged.Printed path unstaged) :
    ∃ c, Diff.parse (u.diff path staged unstaged) = .ok [c] ∧ c.paths = (path, path) ∧
      c.kind = .modified ∧ c.Fits ∧
      ∀ n, Covered c.hunks n ↔ Covered u.staged.hunks n ∨ Covered u.unstaged.hunks n := by
  let a := (u.staged.patch path staged).strip.section.change
  let b := (u.unstaged.patch path unstaged).strip.section.change
  have ha : a.hunks = normalize u.staged.hunks := section_hunks _
  have hb : b.hunks = normalize u.unstaged.hunks := section_hunks _
  have hfa : a.Fits := fun x hx => Diff.fits_normalize (fits_hunks hs) x (ha ▸ hx)
  have hfb : b.Fits := fun x hx => Diff.fits_normalize (fits_hunks hu) x (hb ▸ hx)
  have hrecord : Diff.recordAll
      ([u.staged.patch path staged, u.unstaged.patch path unstaged].map Diff.FilePatch.strip) [] =
        [a.merge b] := by
    have hsame : a.samePaths b = true := Diff.samePaths_iff.2 rfl
    simp only [List.map_cons, List.map_nil, Diff.recordAll, List.foldl_cons, List.foldl_nil,
      Diff.record]
    rw [if_pos hsame]
  refine ⟨a.merge b, ?_, rfl, rfl, Diff.FileChange.Fits.merge hfa hfb, fun n => ?_⟩
  · rw [← hrecord, Uncommitted.diff, printDiff_append]
    exact Diff.parse_printDiff_strip (by simp [hs.printable, hu.printable])
      (by simpa using ⟨hs.plain, hu.plain⟩)
  · rw [Diff.covered_merge hfa hfb, ha, hb, Diff.covered_normalize (fits_hunks hs),
      Diff.covered_normalize (fits_hunks hu)]

/-! ## What a working copy prints -/

/-- Whether `git` succeeds with arguments and prints a text. -/
def Prints (w : WorkingCopy Id) (arguments : List String) (text : String) : Prop :=
  ∃ complaint, (w.git arguments).run = .ok ⟨true, text.toUTF8.data.toList, complaint⟩

/-- Whether a working copy is one of a repository and has the uncommitted changes. -/
structure Uncommitted.ShownBy (u : Uncommitted) (w : WorkingCopy Id) (path : String)
    (staged unstaged : List String) : Prop where
  inside : ∃ directory, Prints w ["rev-parse", "--git-dir"] directory
  staged : Prints w ["diff", "--cached"] (printDiff [u.staged.patch path staged])
  unstaged : Prints w ["diff"] (printDiff [u.unstaged.patch path unstaged])

theorem run_of_prints {w : WorkingCopy Id} {arguments : List String} {text : String}
    (h : Prints w arguments text) : (w.run arguments).run = .ok text.toUTF8.data.toList := by
  obtain ⟨complaint, hgit⟩ := h
  simp [WorkingCopy.run, hgit]

/-- The bytes that are printed are those of the two sections, one after the other. -/
theorem decode_uncommitted {w : WorkingCopy Id} (h : u.ShownBy w path staged unstaged) :
    ∃ raw, w.uncommitted.run = .ok raw ∧ Diff.decode raw = .ok (u.diff path staged unstaged) := by
  obtain ⟨directory, hdirectory⟩ := h.inside
  have hinside : w.isRepository.run = true := by
    simp [WorkingCopy.isRepository, run_of_prints hdirectory]
  refine ⟨_, ?_, Diff.decode_eq_ok_iff.2 rfl⟩
  simp [WorkingCopy.uncommitted, hinside, run_of_prints h.staged, run_of_prints h.unstaged,
    Uncommitted.diff]

/-- **What a check of uncommitted work reports of a file**, whose changes `git` prints in two
sections, are the declarations with a line in a range of either. Those with a line that unstaged
changes add are among them, and those with a staged line that unstaged changes leave at its place.
A staged line that they move counts just if the number it has now lies in some range, be it that
of other lines. -/
theorem extract_uncommitted (hs : u.staged.Printed path staged)
    (hu : u.unstaged.Printed path unstaged) (hsource : Go.isSourcePath path = true)
    (repo : Repository Id) (base : String) (hnow : (repo.current path).run = .ok u.worktree)
    {ds : List Go.Declaration} (hds : Go.declarations? u.worktree = some ds) :
    (∀ w : WorkingCopy Id, u.ShownBy w path staged unstaged →
      ∃ raw, w.uncommitted.run = .ok raw ∧ Diff.decode raw = .ok (u.diff path staged unstaged)) ∧
    ∃ c, Diff.parse (u.diff path staged unstaged) = .ok [c] ∧
      (∀ n ∈ u.unstaged.added, Covered c.hunks n) ∧
      (∀ n ∈ u.staged.added, (n, n) ∈ u.unstaged.kept → Covered c.hunks n) ∧
      (∀ n, Covered c.hunks n ↔ Covered u.staged.hunks n ∨ Covered u.unstaged.hunks n) ∧
      ∃ symbols stats, (extract repo base (u.diff path staged unstaged)).run = .ok (symbols, stats) ∧
        (∀ s ∈ symbols, s.file = path ∧ s.change = .modified) ∧
        symbols.map (·.name) =
          (ds.filter fun d => ∃ n ∈ d.span.lines,
            Covered u.staged.hunks n ∨ Covered u.unstaged.hunks n).flatMap (·.names) := by
  obtain ⟨c, hparse, hpaths, hkind, hfits, hcovered⟩ := parse_diff hs hu
  have hpath : c.newPath = path := congrArg Prod.snd hpaths
  refine ⟨fun w => decode_uncommitted, c, hparse, ?_, ?_, hcovered, ?_⟩
  · intro n hn
    exact (hcovered n).2 (.inr (Listing.covered_of_added hn))
  · intro n hn _
    exact (hcovered n).2 (.inl (Listing.covered_of_added hn))
  · obtain ⟨stats, hrun⟩ := Extraction.extract_run repo base hparse
    have hemit := Extraction.emitted_modified repo base hkind (hpath ▸ hnow) hds
    have hall : emittedBy repo base [c] = emitted repo base c := by
      simp [emittedBy, Extraction.sourceChanges, hpath, hsource]
    rw [hall, hemit, hpath] at hrun
    refine ⟨_, stats, hrun, fun s => Extraction.mem_modifiedSymbols, ?_⟩
    rw [Extraction.modifiedSymbols_names, Extraction.touched_eq hfits hds]
    simp only [hcovered]

/-- The line of an empty function. -/
def functionLine (name : String) : FileLine := ⟨"func " ++ name ++ "() \x7b\x7d", true⟩

def packageLines : List FileLine := [⟨"package p", true⟩, ⟨"", true⟩]

/-- A function staged at the end of a file, and a comment near its top that is not staged. -/
def movedDown : Uncommitted where
  staged :=
    { chunks :=
        [{ gap := packageLines ++ [functionLine "A"]
           heading := " func A() \x7b\x7d"
           body := (["B", "C", "D"].map functionLine).map .keep ++ [.insert (functionLine "Z")] }]
      rest := [] }
  unstaged :=
    { chunks :=
        [{ gap := []
           heading := ""
           body := packageLines.map .keep ++ .insert ⟨"// Some functions.", true⟩ ::
             (["A", "B", "C"].map functionLine).map .keep }]
      rest := ["D", "Z"].map functionLine }
  shared := rfl

/-- The functions with their lines as they are now. -/
def movedDownDeclarations : List Go.Declaration :=
  [("A", 4), ("B", 5), ("C", 6), ("D", 7), ("Z", 8)].map fun (name, line) =>
    ⟨.function, [name], ⟨line, line⟩, (functionLine name).text⟩

/-- The repository as it is now. -/
def movedDownRepository : Repository Id :=
  Snapshot.repository ⟨[], [("p.go", movedDown.worktree)], [], false⟩

/-- The hashes of the versions. -/
def stagedIndex : List String := ["index 8c449ef..f079b1c 100644"]

def unstagedIndex : List String := ["index f079b1c..f64044e 100644"]

/-- What `git` prints of it. -/
def movedDownPrinted (arguments : List String) : String :=
  if arguments = ["diff", "--cached"] then printDiff [movedDown.staged.patch "p.go" stagedIndex]
  else if arguments = ["diff"] then printDiff [movedDown.unstaged.patch "p.go" unstagedIndex]
  else ".git\n"

/-- The working copy, as far as its uncommitted changes go. -/
def movedDownCopy : WorkingCopy Id where
  git arguments := .ok ⟨true, (movedDownPrinted arguments).toUTF8.data.toList, []⟩
  file _ := .error .notFound

theorem movedDown_shownBy : movedDown.ShownBy movedDownCopy "p.go" stagedIndex unstagedIndex := by
  have hprints (arguments : List String) :
      Prints movedDownCopy arguments (movedDownPrinted arguments) := ⟨[], rfl⟩
  have hunstaged : movedDownPrinted ["diff"] =
      printDiff [movedDown.unstaged.patch "p.go" unstagedIndex] :=
    (if_neg (by decide)).trans (if_pos rfl)
  exact ⟨⟨_, hprints _⟩, hprints _, hunstaged ▸ hprints _⟩

/-- The staged function has moved from line 7 to line 8, which no section covers, and is not
reported. -/
theorem extract_uncommitted_movedDown :
    movedDown.staged.added = [7] ∧ (7, 8) ∈ movedDown.unstaged.kept ∧
    (∃ raw, movedDownCopy.uncommitted.run = .ok raw ∧
      Diff.decode raw = .ok (movedDown.diff "p.go" stagedIndex unstagedIndex)) ∧
    ∃ symbols stats, (extract movedDownRepository "HEAD"
        (movedDown.diff "p.go" stagedIndex unstagedIndex)).run = .ok (symbols, stats) ∧
      symbols.map (·.name) = ["A", "B", "C", "D"] := by
  have hs : movedDown.staged.Printed "p.go" stagedIndex :=
    ⟨by decide, by decide, by decide +kernel, by decide +kernel, by decide +kernel, by decide,
      by decide⟩
  have hu : movedDown.unstaged.Printed "p.go" unstagedIndex :=
    ⟨by decide, by decide, by decide +kernel, by decide +kernel, by decide +kernel, by decide,
      by decide⟩
  have hds : Go.declarations? movedDown.worktree = some movedDownDeclarations := by decide +kernel
  obtain ⟨hprinted, c, -, -, -, -, symbols, stats, hrun, -, hnames⟩ :=
    extract_uncommitted hs hu (by decide +kernel) movedDownRepository "HEAD" rfl hds
  exact ⟨by decide, by decide, hprinted movedDownCopy movedDown_shownBy, symbols, stats, hrun,
    hnames.trans (by decide)⟩

end StaleDocs.Repository
