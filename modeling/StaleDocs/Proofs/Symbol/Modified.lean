/-
Which declarations of a modified file a diff reports
(`extract_modified_names`): those with a line that some hunk header covers,
among all headers read in the sections about the file's pair of paths. What
the diff does to its hunks between reading and reporting — sorting, joining,
merging sections — makes no declaration appear or disappear.

A repository is one whose look-ups have no effects (`Repository Id`), so that
a path has one text; the symbols of a diff are then those of its records, one
record after the other (`extract_run`).
-/
import StaleDocs.Proofs.Diff.RoundTrip
import StaleDocs.Repository.Snapshot
import StaleDocs.Symbol.Extraction

namespace StaleDocs

namespace Go
open Diff (Hunk Covered)

/-- The lines of a span. -/
def LineSpan.lines (span : LineSpan) : List Nat :=
  List.range' span.first (span.last + 1 - span.first)

theorem LineSpan.mem_lines {span : LineSpan} {n : Nat} :
    n ∈ span.lines ↔ span.first ≤ n ∧ n ≤ span.last := by
  rw [LineSpan.lines, List.mem_range'_1]
  omega

/-- A span overlaps hunks when they cover one of its lines. -/
theorem LineSpan.overlaps_iff {span : LineSpan} (hle : span.first ≤ span.last) {hs : List Hunk}
    (hf : ∀ h ∈ hs, h.Fits) : span.overlaps hs = true ↔ ∃ n ∈ span.lines, Covered hs n := by
  simp only [LineSpan.overlaps, List.any_eq_true, Covered, LineSpan.mem_lines]
  constructor
  · rintro ⟨h, hh, ht⟩
    obtain ⟨n, h₁, h₂, hn⟩ := ((hf h hh).touches_iff hle).1 ht
    exact ⟨n, ⟨h₁, h₂⟩, h, hh, hn⟩
  · rintro ⟨n, ⟨h₁, h₂⟩, h, hh, hn⟩
    exact ⟨h, hh, ((hf h hh).touches_iff hle).2 ⟨n, h₁, h₂, hn⟩⟩

theorem Declaration.ofPiece_span_le (kind : SymbolKind) (names : List String) (p : Piece) :
    (Declaration.ofPiece kind names p).span.first ≤ (Declaration.ofPiece kind names p).span.last := by
  simp only [Declaration.ofPiece, Piece.lastLine]
  omega

/-- Every declaration of a node is cut out as a piece of the source. -/
theorem Node.declarations_ofPiece {node : Node} {d : Declaration} (h : d ∈ node.declarations) :
    ∃ kind names p, d = .ofPiece kind names p := by
  match node with
  | .comment _ | .code (.package _) _ _ | .code .other _ _ => simp [Node.declarations] at h
  | .code (.function name) _ p =>
    simp only [Node.declarations, List.mem_singleton] at h
    exact ⟨_, _, _, h⟩
  | .code (.types specs) start p =>
    simp only [Node.declarations, Declaration.ofSpecs, List.mem_map] at h
    obtain ⟨spec, -, rfl⟩ := h
    exact ⟨_, _, _, rfl⟩
  | .code (.constants names) _ p | .code (.variables names) _ p =>
    simp only [Node.declarations, Declaration.ofNames] at h
    split at h
    · simp at h
    · simp only [List.mem_singleton] at h
      exact ⟨_, _, _, h⟩

/-- A declaration ends no earlier than it starts. -/
theorem declarations?_span_le {source : String} {ds : List Declaration}
    (h : declarations? source = some ds) {d : Declaration} (hd : d ∈ ds) :
    d.span.first ≤ d.span.last := by
  simp only [declarations?, Option.map_eq_some_iff] at h
  obtain ⟨nodes, -, rfl⟩ := h
  obtain ⟨node, -, hd⟩ := List.mem_flatMap.1 hd
  obtain ⟨kind, names, p, rfl⟩ := Node.declarations_ofPiece hd
  exact Declaration.ofPiece_span_le kind names p

end Go

namespace Extraction
open Diff (FileChange FilePatch Covered headersRead printDiff)
open Go (Declaration)

variable (repo : Repository Id) (base : String)

/-- The symbols of a record; none if its file is skipped. -/
def emitted (c : FileChange) : List Symbol :=
  match (ofChange repo base c).run with
  | .ok symbols => symbols
  | .error _ => []

/-- The symbols of the records about source files. -/
def emittedBy (cs : List FileChange) : List Symbol :=
  (sourceChanges cs).flatMap (emitted repo base)

theorem ofChanges_run (cs : List FileChange) :
    (ofChanges repo base cs).run.1 = cs.flatMap (emitted repo base) := by
  induction cs with
  | nil => rfl
  | cons c cs ih =>
    have hcons : (ofChanges repo base (c :: cs)).run.1 =
        emitted repo base c ++ (ofChanges repo base cs).run.1 := by
      simp only [ofChanges, emitted, Id.run_bind]
      cases (ofChange repo base c).run <;> rfl
    rw [hcons, ih, List.flatMap_cons]

/-- The symbols of a diff are those of its records, in order. -/
theorem extract_run {diff : String} {changes : List FileChange} (h : Diff.parse diff = .ok changes) :
    ∃ stats, (extract repo base diff).run = .ok (emittedBy repo base changes, stats) := by
  simp only [extract, h, Id.run_bind, Id.run_pure, ofChanges_run]
  exact ⟨_, rfl⟩

/-- The symbols of a modified file that can be read: one for each name of a touched
declaration. -/
theorem emitted_modified {c : FileChange} (hk : c.kind = .modified) {text : String}
    (ht : (repo.current c.newPath).run = .ok text) {ds : List Declaration}
    (hd : Go.declarations? text = some ds) :
    emitted repo base c =
      modifiedSymbols c.newPath (oldDeclarations (repo.fileAt c.oldPath base).run) (touched c ds) := by
  simp only [emitted, ofChange, hk, modifiedFile, Id.run_bind, ht, declarations, hd]
  cases touched c ds <;> rfl

theorem modifiedSymbols_names (path : String) (old hit : List Declaration) :
    (modifiedSymbols path old hit).map (·.name) = hit.flatMap (·.names) := by
  simp [modifiedSymbols, List.map_flatMap, symbolOf, Function.comp_def]

theorem mem_modifiedSymbols {path : String} {old hit : List Declaration} {s : Symbol}
    (h : s ∈ modifiedSymbols path old hit) : s.file = path ∧ s.change = .modified := by
  simp only [modifiedSymbols, List.mem_flatMap, List.mem_map] at h
  obtain ⟨d, -, name, -, rfl⟩ := h
  exact ⟨rfl, rfl⟩

/-- The declarations that a record touches are those with a line that it covers. -/
theorem touched_eq {c : FileChange} (hf : c.Fits) {text : String} {ds : List Declaration}
    (hd : Go.declarations? text = some ds) :
    touched c ds = ds.filter fun d => ∃ n ∈ d.span.lines, Covered c.hunks n := by
  refine List.filter_congr fun d hmem => ?_
  rw [Bool.eq_iff_iff, decide_eq_true_iff]
  exact Go.LineSpan.overlaps_iff (Go.declarations?_span_le hd hmem) hf

/-- **The declarations of a modified file that a diff reports** are exactly those with a line
in the new range of a hunk header that was read in some section about the file's paths. They
come in source order, each once for every name that it binds, and nothing else comes between
the symbols of the records before and after. -/
theorem extract_modified_names {diff text : String} {changes : List FileChange} {c : FileChange}
    {ds : List Declaration} (hp : Diff.parse diff = .ok changes) (hc : c ∈ changes)
    (hk : c.kind = .modified) (hs : Go.isSourcePath c.newPath = true)
    (ht : (repo.current c.newPath).run = .ok text) (hd : Go.declarations? text = some ds) :
    ∃ before after stats symbols, changes = before ++ c :: after ∧
      (extract repo base diff).run =
        .ok (emittedBy repo base before ++ symbols ++ emittedBy repo base after, stats) ∧
      (∀ s ∈ symbols, s.file = c.newPath ∧ s.change = .modified) ∧
      symbols.map (·.name) =
        (ds.filter fun d => ∃ n ∈ d.span.lines, Covered (headersRead diff c.paths) n).flatMap
          (·.names) := by
  obtain ⟨before, after, hsplit⟩ := List.append_of_mem hc
  obtain ⟨stats, hrun⟩ := extract_run repo base hp
  have hall : emittedBy repo base changes =
      emittedBy repo base before ++ emitted repo base c ++ emittedBy repo base after := by
    simp [emittedBy, sourceChanges, hsplit, hs]
  rw [emitted_modified repo base hk ht hd] at hall
  refine ⟨before, after, stats, _, hsplit, hall ▸ hrun, fun s => mem_modifiedSymbols, ?_⟩
  rw [modifiedSymbols_names, touched_eq ((Diff.parse_kept hp).1 c hc) hd]
  simp only [Diff.covered_parse hp hc]

/-- A source file that declares `A`, `B`, and `C` with `D`. -/
def threeDeclarations : String :=
  "package p\n\nfunc A() \x7b\n\x7d\n\nfunc B() \x7b\n\x7d\n\nvar C, D = 1, 2\n"

/-- A repository with that file only. -/
def smallRepository : Repository Id :=
  Repository.Snapshot.repository ⟨[], [("p.go", threeDeclarations)], [], false⟩

/-- A diff with two sections about that file: `C` and `D` changed; then `A` added, and lines
removed after it. -/
def twiceChanged : List FilePatch :=
  [{ oldPath := "p.go", newPath := "p.go", kind := .modified, extended := [], sides := true
     hunks :=
       [{ header := ⟨9, 1, 9, 1⟩, heading := ""
          body := [.removed "var C, D = 0, 0", .added "var C, D = 1, 2"] }] },
   { oldPath := "q.md", newPath := "q.md", kind := .modified, extended := [], sides := false
     hunks := [] },
   { oldPath := "p.go", newPath := "p.go", kind := .modified, extended := [], sides := true
     hunks :=
       [{ header := ⟨2, 0, 3, 2⟩, heading := "", body := [.added "func A() \x7b", .added "\x7d"] },
        { header := ⟨4, 2, 5, 0⟩, heading := "", body := [.removed "var X int", .removed ""] }] }]

/-- The record of both sections. -/
def twiceChangedRecord : FileChange :=
  { oldPath := "p.go"
    newPath := "p.go"
    kind := .modified
    hunks := [⟨2, 0, 3, 2⟩, ⟨4, 2, 5, 0⟩, ⟨9, 1, 9, 1⟩]
    addedLines := ["var C, D = 1, 2", "func A() \x7b", "\x7d"]
    removedLines := ["var C, D = 0, 0", "var X int", ""] }

theorem twiceChanged_printable : ∀ p ∈ twiceChanged, p.Printable := by decide +kernel

/-- Merging the two sections sorts their hunks. -/
theorem parse_twiceChanged : Diff.parse (printDiff twiceChanged) =
    .ok [twiceChangedRecord, ⟨"q.md", "q.md", .modified, [], [], []⟩] := by
  have hsort : Diff.normalize [⟨9, 1, 9, 1⟩, ⟨2, 0, 3, 2⟩, ⟨4, 2, 5, 0⟩] =
      twiceChangedRecord.hunks := by
    simp [Diff.normalize, List.mergeSort, List.MergeSort.Internal.splitInTwo, Diff.Hunk.precedes,
      Diff.coalesce, Diff.coalesceFrom, Diff.Hunk.newEnd]
    decide
  have hplain : ∀ p ∈ twiceChanged, p.section.change = p.change := by
    intro p hp
    have hfollow : ∀ p ∈ twiceChanged, (p.hunks.map (·.header)).IsChain Diff.Hunk.Follows := by decide
    exact FilePatch.section_change (hfollow p hp)
  have hrecords : Diff.recordAll twiceChanged [] =
      twiceChanged.foldl (fun cs p => Diff.record p.change cs) [] :=
    List.foldl_ext _ _ _ fun cs p hp => by rw [hplain p hp]
  have hmerged : twiceChanged.foldl (fun cs p => Diff.record p.change cs) [] =
      [{ twiceChangedRecord with
          hunks := Diff.normalize [⟨9, 1, 9, 1⟩, ⟨2, 0, 3, 2⟩, ⟨4, 2, 5, 0⟩] },
        ⟨"q.md", "q.md", .modified, [], [], []⟩] := rfl
  rw [Diff.parse_printDiff_plain twiceChanged_printable (by decide +kernel), hrecords, hmerged,
    hsort]

theorem extract_modified_names_twiceChanged :
    Diff.parse (printDiff twiceChanged) =
      .ok [twiceChangedRecord, ⟨"q.md", "q.md", .modified, [], [], []⟩] ∧
    ∃ before after stats symbols,
      [twiceChangedRecord, ⟨"q.md", "q.md", .modified, [], [], []⟩] =
        before ++ twiceChangedRecord :: after ∧
      (extract smallRepository "HEAD" (printDiff twiceChanged)).run =
        .ok (emittedBy smallRepository "HEAD" before ++ symbols ++
          emittedBy smallRepository "HEAD" after, stats) ∧
      symbols.map (·.name) = ["A", "C", "D"] := by
  have hp := parse_twiceChanged
  have hd : Go.declarations? threeDeclarations =
      some [⟨.function, ["A"], ⟨3, 4⟩, "func A() \x7b\n\x7d"⟩,
        ⟨.function, ["B"], ⟨6, 7⟩, "func B() \x7b\n\x7d"⟩,
        ⟨.var, ["C", "D"], ⟨9, 9⟩, "var C, D = 1, 2"⟩] := by decide +kernel
  have hh : headersRead (printDiff twiceChanged) ("p.go", "p.go") =
      [⟨9, 1, 9, 1⟩, ⟨2, 0, 3, 2⟩, ⟨4, 2, 5, 0⟩] := by
    rw [headersRead, Diff.lines_printDiff twiceChanged_printable]
    decide +kernel
  obtain ⟨before, after, stats, symbols, hsplit, hrun, -, hnames⟩ :=
    extract_modified_names smallRepository "HEAD" hp List.mem_cons_self rfl (by decide +kernel) rfl hd
  rw [show twiceChangedRecord.paths = ("p.go", "p.go") from rfl, hh] at hnames
  exact ⟨hp, before, after, stats, symbols, hsplit, hrun, hnames.trans (by decide)⟩

end Extraction
end StaleDocs
