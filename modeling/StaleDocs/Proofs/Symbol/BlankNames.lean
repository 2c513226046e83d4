/-
Which names symbols have (`extract_names`). A record makes symbols for exactly the names that
the declarations it needs declare, and, if the file was modified, for those with a covered line
(`emitted_names`). A name is never empty, since it is a lexeme of the source. But the blank name
is left out among constants and variables only: a function, a method or a struct type that is
called `_` makes a symbol like any other.
-/
import StaleDocs.Proofs.Go.Siblings
import StaleDocs.Proofs.Symbol.OldCode

namespace StaleDocs

namespace Go

theorem Code.Binds.declared {what : Code} {kind : SymbolKind} {name : String}
    (h : what.Binds kind name) : ∃ names, what.declared? = some (kind, names) ∧ name ∈ names := by
  cases h with
  | function => exact ⟨_, rfl, List.mem_singleton_self _⟩
  | struct hmem => exact ⟨_, rfl, List.mem_map_of_mem hmem⟩
  | constant hmem => exact ⟨_, rfl, hmem⟩
  | «variable» hmem => exact ⟨_, rfl, hmem⟩

/-- No name of a source is empty. -/
theorem Binds.name_ne_empty {source : String} {kind : SymbolKind} {name : String}
    (h : Binds source kind name) : name ≠ "" := by
  obtain ⟨nodes, what, start, piece, hnodes, hnode, hbinds⟩ := h
  obtain ⟨names, hdeclared, hname⟩ := hbinds.declared
  obtain ⟨n, hplaced⟩ := nodes?_placed hnodes
  cases hplaced _ hnode with
  | @code before start rest what hwhole hcode =>
    have hmem : (⟨.name, name⟩ : Lexeme) ∈ scan source := by
      rw [hwhole]
      exact List.mem_append_right _
        (code_declared_mem (rulesTo_end n) hcode hdeclared name hname)
    exact ((scan_eq source).2 _ hmem).nonempty

/-- The blank name is one of functions, methods and struct types. -/
theorem Binds.kind_of_blank {source : String} {kind : SymbolKind} (h : Binds source kind "_") :
    kind = .function ∨ kind = .type := by
  obtain ⟨nodes, what, start, piece, -, -, hbinds⟩ := h
  generalize hname : "_" = name at hbinds
  cases hbinds with
  | function => exact .inl rfl
  | struct => exact .inr rfl
  | constant _ hne | «variable» _ hne => exact absurd hname.symm hne

/-- The names of the declarations of a source are those that can be looked up in it. -/
theorem exists_declares_iff {source : String} {ds : List Declaration}
    (h : declarations? source = some ds) {name : String} {kind : SymbolKind} :
    (∃ d ∈ ds, d.declares name kind = true) ↔ Binds source kind name := by
  rw [← find?_isSome_iff h, Declaration.find?, List.find?_isSome]

end Go

namespace Extraction
open Diff (FileChange FilePatch Covered printDiff)
open Go (Declaration)

/-- Symbols of all names of some declarations. -/
theorem exists_symbolOf_iff {path : String} {change : Diff.ChangeKind} {ds : List Declaration}
    {oldCode : Declaration → String → String} {newCode : Declaration → String} {name : String}
    {kind : Go.SymbolKind} :
    (∃ s ∈ ds.flatMap fun d => d.names.map fun name =>
      symbolOf path change (oldCode d name) (newCode d) d name, s.name = name ∧ s.kind = kind) ↔
      ∃ d ∈ ds, d.declares name kind = true := by
  simp only [List.mem_flatMap, List.mem_map, Declaration.declares, Bool.and_eq_true,
    decide_eq_true_eq, List.contains_iff_mem]
  constructor
  · rintro ⟨s, ⟨d, hd, name, hname, rfl⟩, rfl, rfl⟩
    exact ⟨d, hd, rfl, hname⟩
  · rintro ⟨d, hd, rfl, hname⟩
    exact ⟨_, ⟨d, hd, name, hname, rfl⟩, rfl, rfl⟩

theorem exists_wholeFile_iff {path : String} {change : Diff.ChangeKind} {ds : List Declaration}
    {name : String} {kind : Go.SymbolKind} :
    (∃ s ∈ wholeFile path change ds, s.name = name ∧ s.kind = kind) ↔
      ∃ d ∈ ds, d.declares name kind = true := by
  cases change <;> exact exists_symbolOf_iff

variable (repo : Repository Id) (base : String)

/-- Whether a record reports a declaration of the text that it needs. -/
def Reports (c : FileChange) (d : Declaration) : Prop :=
  c.kind = .modified → ∃ n ∈ d.span.lines, Covered c.hunks n

/-- The names that a record makes symbols for. -/
theorem emitted_names {c : FileChange} (hf : c.Fits) {text : String}
    (ht : neededText repo base c = .ok text) {ds : List Declaration}
    (hd : Go.declarations? text = some ds) {name : String} {kind : Go.SymbolKind} :
    (∃ s ∈ emitted repo base c, s.name = name ∧ s.kind = kind) ↔
      ∃ d ∈ ds, d.declares name kind = true ∧ Reports c d := by
  cases hk : c.kind with
  | added =>
    simp only [neededText, hk] at ht
    have hemitted : emitted repo base c = wholeFile c.newPath .added ds := by
      simp [emitted, ofChange, hk, ofText, declarations, ht, hd, Except.map]
    simp [hemitted, exists_wholeFile_iff, Reports, hk]
  | deleted =>
    simp only [neededText, hk] at ht
    have hemitted : emitted repo base c = wholeFile c.oldPath .deleted ds := by
      simp [emitted, ofChange, hk, ofText, declarations, ht, hd, Except.map]
    simp [hemitted, exists_wholeFile_iff, Reports, hk]
  | modified =>
    simp only [neededText, hk] at ht
    rw [emitted_modified repo base hk ht hd, touched_eq hf hd]
    refine exists_symbolOf_iff.trans ?_
    simp [Reports, hk, and_left_comm, and_comm]

/-- A record whose text cannot be read makes no symbols. -/
theorem exists_declarations_of_mem_emitted {c : FileChange} {s : Symbol}
    (h : s ∈ emitted repo base c) :
    ∃ text ds, neededText repo base c = .ok text ∧ Go.declarations? text = some ds := by
  have hreadable : readable repo base c = true := by
    rw [← ofChange_isOk]
    unfold emitted at h
    split at h
    · next hok => rw [hok]; rfl
    · cases h
  unfold readable parses at hreadable
  split at hreadable
  · next text ht =>
    obtain ⟨ds, hd⟩ := Option.isSome_iff_exists.1 hreadable
    exact ⟨text, ds, ht, hd⟩
  · cases hreadable

/-- **Names of symbols.** No symbol of any diff has an empty name, and one with the blank name
is of a function, a method or a struct type that the text of its file declares; no constant or
variable makes one. And every such declaration does: in an added or deleted file each, in a
modified one each with a covered line. -/
theorem extract_names {diff : String} {changes : List FileChange}
    (hp : Diff.parse diff = .ok changes) :
    ∃ stats, (extract repo base diff).run =
        .ok ((attributed repo base changes).map (·.2), stats) ∧
      (∀ c s, (c, s) ∈ attributed repo base changes → s.name ≠ "" ∧
        (s.name = "_" → (s.kind = .function ∨ s.kind = .type) ∧
          ∃ text, neededText repo base c = .ok text ∧ Go.Binds text s.kind "_")) ∧
      ∀ c ∈ sourceChanges changes, ∀ text ds, neededText repo base c = .ok text →
        Go.declarations? text = some ds → ∀ kind, ∀ d ∈ ds, d.declares "_" kind = true →
          Reports c d →
          ∃ s, (c, s) ∈ attributed repo base changes ∧ s.name = "_" ∧ s.kind = kind := by
  have hfits : ∀ c ∈ changes, c.Fits := (Diff.parse_kept hp).1
  have hsource : ∀ c ∈ sourceChanges changes, c ∈ changes := fun c hc => List.mem_of_mem_filter hc
  obtain ⟨stats, hrun, -⟩ := extract_eq repo base hp
  refine ⟨stats, hrun, fun c s hmem => ?_,
    fun c hc text ds ht hd kind d hmem hdeclares hreports => ?_⟩
  · obtain ⟨hc, hs⟩ := (mem_attributed repo base).1 hmem
    obtain ⟨text, ds, ht, hd⟩ := exists_declarations_of_mem_emitted repo base hs
    obtain ⟨d, hdmem, hdeclares, -⟩ :=
      (emitted_names repo base (hfits c (hsource c hc)) ht hd).1 ⟨s, hs, rfl, rfl⟩
    have hbinds : Go.Binds text s.kind s.name := (Go.exists_declares_iff hd).1 ⟨d, hdmem, hdeclares⟩
    refine ⟨hbinds.name_ne_empty, fun hblank => ?_⟩
    rw [hblank] at hbinds
    exact ⟨hbinds.kind_of_blank, text, ht, hbinds⟩
  · obtain ⟨s, hs, hname, hkind⟩ :=
      (emitted_names repo base (hfits c (hsource c hc)) ht hd).2 ⟨d, hmem, hdeclares, hreports⟩
    exact ⟨s, (mem_attributed repo base).2 ⟨hc, hs⟩, hname, hkind⟩

/-- A diff that adds a file with a blank constant, a blank variable and three blank names more. -/
def blankAdded : List FilePatch :=
  [{ oldPath := "p.go", newPath := "p.go", kind := .added, extended := [], sides := false
     hunks := [] }]

/-- That file. -/
def blankSource : String :=
  "package p\n\nconst _ = 1\n\nvar _, v = 1, 2\n\nfunc _() \x7b\x7d\n\n" ++
    "func (t T) _() \x7b\x7d\n\ntype (\n\t_ struct\x7b\x7d\n\t_ int\n)\n"

/-- A repository with that file only. -/
def blankRepository : Repository Id :=
  Repository.Snapshot.repository ⟨[], [("p.go", blankSource)], [], false⟩

theorem extract_names_blankSource :
    Diff.parse (printDiff blankAdded) = .ok (blankAdded.map FilePatch.change) ∧
    ∃ stats symbols,
      (extract blankRepository "HEAD" (printDiff blankAdded)).run = .ok (symbols, stats) ∧
      symbols.map (fun s => (s.name, s.kind)) =
        [("v", .var), ("_", .function), ("_", .function), ("_", .type)] := by
  have hp : Diff.parse (printDiff blankAdded) = .ok (blankAdded.map FilePatch.change) := by
    rw [Diff.parse_printDiff_plain (by decide +kernel) (by decide +kernel),
      Diff.recordAll_nil (by decide) (by decide)]
  obtain ⟨stats, hrun, -⟩ := extract_names blankRepository "HEAD" hp
  exact ⟨hp, stats, _, hrun, by decide +kernel⟩

end Extraction
end StaleDocs
