/-
Which code a symbol had before. A modified declaration is looked up in the old
version by name and kind, and the first declaration found there stands for
it. In a file whose text is what it was this is the declaration itself unless
an earlier one binds the same name with the same kind (`oldCode_unchanged`);
methods of two receivers do (`oldCode_otherReceiver`).
-/
import StaleDocs.Proofs.Symbol.Locality

namespace StaleDocs.Extraction
open Diff (FileChange FilePatch printDiff)
open Go (Declaration)

/-- The first declaration that binds a name is one before a given one that does, or that one. -/
theorem find?_append_cons {before after : List Declaration} {d : Declaration} {name : String}
    {kind : Go.SymbolKind} (h : d.declares name kind = true) :
    Declaration.find? (before ++ d :: after) name kind =
      some ((Declaration.find? before name kind).getD d) := by
  rw [Declaration.find?, List.find?_append, List.find?_cons_of_pos (by exact h), Declaration.find?]
  cases before.find? fun e => e.declares name kind <;> rfl

/-- What a symbol of a file has whose declarations are what they were: the lines and the code
of a declaration that binds its name, and as old code that of the first one that does. -/
structure FirstOldCode (s : Symbol) (before : List Declaration) (d : Declaration) : Prop where
  declares : d.declares s.name s.kind = true
  startLine : s.startLine = d.span.first
  endLine : s.endLine = d.span.last
  newCode : s.newCode = d.code
  oldCode : s.oldCode = ((Declaration.find? before s.name s.kind).getD d).code

/-- Without an earlier declaration of the name the old code is that of the declaration. -/
theorem FirstOldCode.unchanged {s : Symbol} {before : List Declaration} {d : Declaration}
    (h : FirstOldCode s before d) (hfirst : ∀ e ∈ before, e.declares s.name s.kind = false) :
    s.oldCode = s.newCode := by
  have hnone : Declaration.find? before s.name s.kind = none :=
    List.find?_eq_none.2 fun e he => by simp [hfirst e he]
  rw [h.oldCode, h.newCode, hnone, Option.getD_none]

/-- The symbols of declarations that are among the old ones too. -/
theorem modifiedSymbols_firstOldCode {path : String} {ds hit : List Declaration} (hsub : hit ⊆ ds)
    {s : Symbol} (hs : s ∈ modifiedSymbols path ds hit) :
    ∃ before d after, ds = before ++ d :: after ∧ FirstOldCode s before d := by
  simp only [modifiedSymbols, List.mem_flatMap, List.mem_map] at hs
  obtain ⟨d, hd, name, hname, rfl⟩ := hs
  obtain ⟨before, after, rfl⟩ := List.append_of_mem (hsub hd)
  have hdeclares : d.declares name d.kind = true := by
    simp [Declaration.declares, hname]
  refine ⟨before, d, after, rfl, hdeclares, rfl, rfl, rfl, ?_⟩
  simp only [symbolOf, codeIn, find?_append_cons hdeclares]

variable (repo : Repository Id) (base : String)

theorem mem_attributed {cs : List FileChange} {c : FileChange} {s : Symbol} :
    (c, s) ∈ attributed repo base cs ↔ c ∈ sourceChanges cs ∧ s ∈ emitted repo base c := by
  simp [attributed]

/-- The symbols of a modified file whose text is what it was. -/
theorem emitted_firstOldCode {c : FileChange} (hk : c.kind = .modified) {text : String}
    (hcurrent : (repo.current c.newPath).run = .ok text)
    (hold : (repo.fileAt c.oldPath base).run = .ok text) {s : Symbol}
    (hs : s ∈ emitted repo base c) :
    ∃ before d after, Go.declarations? text = some (before ++ d :: after) ∧
      FirstOldCode s before d := by
  cases hd : Go.declarations? text with
  | none => simp [emitted, ofChange, hk, modifiedFile, hcurrent, declarations, hd] at hs
  | some ds =>
    rw [emitted_modified repo base hk hcurrent hd, hold, oldDeclarations, hd] at hs
    obtain ⟨before, d, after, hds, hfirst⟩ :=
      modifiedSymbols_firstOldCode (List.filter_subset_self ds) hs
    exact ⟨before, d, after, congrArg some hds, hfirst⟩

/-- **The old code in a file that is what it was.** Whatever the hunks of a modified file, if
its text at the base is its current text, each of its symbols comes from a declaration of the
file, with the lines and the code of that, and has as old code that of the first declaration
that binds its name with its kind. The old code is the new code, then, unless an earlier
declaration binds the name with the same kind. -/
theorem oldCode_unchanged {c : FileChange} (hk : c.kind = .modified) {text : String}
    (hcurrent : (repo.current c.newPath).run = .ok text)
    (hold : (repo.fileAt c.oldPath base).run = .ok text) :
    (∀ s ∈ emitted repo base c, ∃ before d after,
      Go.declarations? text = some (before ++ d :: after) ∧ FirstOldCode s before d ∧
      ((∀ e ∈ before, e.declares s.name s.kind = false) → s.oldCode = s.newCode)) ∧
    ∀ diff changes, Diff.parse diff = .ok changes → ∃ stats,
      (extract repo base diff).run = .ok ((attributed repo base changes).map (·.2), stats) ∧
      ∀ s, (c, s) ∈ attributed repo base changes → s ∈ emitted repo base c := by
  refine ⟨fun s hs => ?_, fun diff changes hp => ?_⟩
  · obtain ⟨before, d, after, hds, hfirst⟩ := emitted_firstOldCode repo base hk hcurrent hold hs
    exact ⟨before, d, after, hds, hfirst, hfirst.unchanged⟩
  · obtain ⟨stats, hrun, -⟩ := extract_eq repo base hp
    exact ⟨stats, hrun, fun s hs => ((mem_attributed repo base).1 hs).2⟩

/-- A source file with two methods of one name. -/
def twoReceivers : String :=
  "package p\n\nfunc (T) F() \x7b\n\x7d\n\nfunc (U) F() \x7b\n\treturn\n\x7d\n"

def receiverDeclarations : List Declaration :=
  [⟨.function, ["F"], ⟨3, 4⟩, "func (T) F() \x7b\n\x7d"⟩,
    ⟨.function, ["F"], ⟨6, 8⟩, "func (U) F() \x7b\n\treturn\n\x7d"⟩]

theorem declarations?_twoReceivers :
    Go.declarations? twoReceivers = some receiverDeclarations := by decide +kernel

def receiverRepository : Repository Id :=
  Repository.Snapshot.repository
    ⟨[], [("p.go", twoReceivers)], [(("HEAD", "p.go"), twoReceivers)], false⟩

/-- A diff with a hunk about some lines of that file. -/
def receiverPatch (hunk : Diff.HunkPatch) : FilePatch :=
  { oldPath := "p.go", newPath := "p.go", kind := .modified, extended := [], sides := true
    hunks := [hunk] }

def bothHunk : Diff.HunkPatch :=
  ⟨⟨4, 3, 4, 3⟩, "", [.context "\x7d", .context "", .context "func (U) F() \x7b"]⟩

def secondHunk : Diff.HunkPatch := ⟨⟨7, 1, 7, 1⟩, "", [.context "\treturn"]⟩

theorem emitted_receivers (hunk : Diff.HunkPatch) :
    emitted receiverRepository "HEAD" (receiverPatch hunk).change =
      modifiedSymbols "p.go" receiverDeclarations
        (touched (receiverPatch hunk).change receiverDeclarations) := by
  have hcurrent : (receiverRepository.current "p.go").run = .ok twoReceivers := rfl
  have hold : (receiverRepository.fileAt "p.go" "HEAD").run = .ok twoReceivers := rfl
  have hmodified := emitted_modified receiverRepository "HEAD" (c := (receiverPatch hunk).change) rfl
    hcurrent declarations?_twoReceivers
  rw [show (receiverPatch hunk).change.oldPath = "p.go" from rfl, hold, oldDeclarations,
    declarations?_twoReceivers] at hmodified
  exact hmodified

/-- A hunk on both methods reports the first with its own code as the old one, and the second
with that of the first. -/
theorem oldCode_unchanged_receivers :
    (emitted receiverRepository "HEAD" (receiverPatch bothHunk).change).map
      (fun s => (s.startLine, s.oldCode == s.newCode)) = [(3, true), (6, false)] ∧
    ∀ s ∈ emitted receiverRepository "HEAD" (receiverPatch bothHunk).change,
      ∃ before d after, Go.declarations? twoReceivers = some (before ++ d :: after) ∧
        FirstOldCode s before d := by
  refine ⟨?_, fun s hs => ?_⟩
  · rw [emitted_receivers]
    decide
  · obtain ⟨hown, -⟩ := oldCode_unchanged receiverRepository "HEAD"
      (c := (receiverPatch bothHunk).change) rfl rfl rfl
    obtain ⟨before, d, after, hds, hfirst, -⟩ := hown s hs
    exact ⟨before, d, after, hds, hfirst⟩

/-- A symbol of the second method has the code of the first one as its old code, though the
file is what it was. -/
theorem oldCode_otherReceiver :
    (receiverRepository.current "p.go").run = .ok twoReceivers ∧
    (receiverRepository.fileAt "p.go" "HEAD").run = .ok twoReceivers ∧
    Diff.parse (printDiff [receiverPatch secondHunk]) = .ok [(receiverPatch secondHunk).change] ∧
    ∃ stats, (extract receiverRepository "HEAD" (printDiff [receiverPatch secondHunk])).run =
      .ok ([⟨"p.go", "F", .function, .modified, 6, 8, "func (T) F() \x7b\n\x7d",
        "func (U) F() \x7b\n\treturn\n\x7d"⟩], stats) := by
  have hp : Diff.parse (printDiff [receiverPatch secondHunk]) =
      .ok [(receiverPatch secondHunk).change] := by
    have hchange : (receiverPatch secondHunk).section.change = (receiverPatch secondHunk).change :=
      FilePatch.section_change (by decide)
    rw [Diff.parse_printDiff_plain (by decide +kernel) (by decide +kernel)]
    exact congrArg (fun c => Except.ok [c]) hchange
  have hsources : sourceChanges [(receiverPatch secondHunk).change] =
      [(receiverPatch secondHunk).change] := by decide +kernel
  obtain ⟨stats, hrun⟩ := extract_run receiverRepository "HEAD" hp
  refine ⟨rfl, rfl, hp, stats, hrun.trans ?_⟩
  rw [emittedBy, hsources, List.flatMap_singleton, emitted_receivers]
  exact congrArg (fun symbols => Except.ok (symbols, stats)) (by decide)

end StaleDocs.Extraction
