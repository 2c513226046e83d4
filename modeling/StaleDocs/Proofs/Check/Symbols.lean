/-
The names of the symbols that a diff changes, in a repository that answers as
its state has it. A name is a part of the text of its file
(`Go.infix_of_mem_names`), so where the characters of each text can be counted
in a word, those of each name can (`changedSymbols_short`).
-/
import StaleDocs.Check.Run
import StaleDocs.Proofs.Check.Steps
import StaleDocs.Proofs.Go.DeclaredText
import StaleDocs.Proofs.Symbol.BlankNames
import StaleDocs.Repository.Snapshot

namespace StaleDocs

/-- Whether the characters of a symbol's name can be counted in a word. -/
def Symbol.Short (s : Symbol) : Prop := s.name.length < Text.maxWord

namespace Extraction
open Check (Always)
open Diff (ChangeKind FileChange)
open Go (Declaration)
open Repository (LookupError)

/-- Whether the characters of a text can be counted in a word, if it was found. -/
def ShortText (found : Except LookupError String) : Prop :=
  ∀ text, found = .ok text → text.length < Text.maxWord

/-- Whether the names of symbols are short, if the symbols can be told. -/
def ShortNames {ε : Type} (found : Except ε (List Symbol)) : Prop :=
  ∀ symbols, found = .ok symbols → ∀ s ∈ symbols, s.Short

/-- Whether every text of a repository is short, whatever the state. -/
structure InMemory {σ : Type} (repo : Repository (StateM σ)) : Prop where
  current : ∀ path, Always ShortText (repo.current path)
  fileAt : ∀ path revision, Always ShortText (repo.fileAt path revision)

/-- A snapshot is held in memory if its files are. -/
theorem inMemory_snapshot {σ : Type} {s : Repository.Snapshot}
    (hfiles : ∀ f ∈ s.files, f.2.length < Text.maxWord)
    (hrevisions : ∀ f ∈ s.revisions, f.2.length < Text.maxWord) :
    InMemory (s.repository (m := StateM σ)) := by
  refine ⟨fun path => .pure fun text h => ?_, fun path revision => .pure fun text h => ?_⟩
  · rw [Repository.Snapshot.current?] at h
    split at h
    · next found hlookup =>
      cases h
      exact hfiles (path, text) (mem_of_lookup hlookup)
    · cases h
  · rw [Repository.Snapshot.fileAt?] at h
    split at h
    · next found hlookup =>
      cases h
      exact hrevisions ((revision, path), text) (mem_of_lookup hlookup)
    · cases h

theorem short_of_declares {text : String} (ht : text.length < Text.maxWord)
    {ds : List Declaration} (hds : Go.declarations? text = some ds) {s : Symbol}
    (h : ∃ d ∈ ds, d.declares s.name s.kind = true) : s.Short := by
  obtain ⟨d, hd, hdeclares⟩ := h
  rw [Declaration.declares, Bool.and_eq_true, List.contains_iff_mem] at hdeclares
  have hlength := (Go.infix_of_mem_names hds hd hdeclares.2).length_le
  rw [String.length_toList, String.length_toList] at hlength
  exact Nat.lt_of_le_of_lt hlength ht

theorem ofText_short {found : Except LookupError String} (h : ShortText found) (path : String)
    (change : ChangeKind) : ShortNames (ofText path change found) := by
  intro symbols hsymbols s hs
  cases found with
  | error fault => cases hsymbols
  | ok text =>
    simp only [ofText, declarations] at hsymbols
    cases hds : Go.declarations? text with
    | none =>
      rw [hds] at hsymbols
      cases hsymbols
    | some ds =>
      rw [hds] at hsymbols
      cases hsymbols
      exact short_of_declares (h text rfl) hds (exists_wholeFile_iff.1 ⟨s, hs, rfl, rfl⟩)

section
variable {σ : Type} {repo : Repository (StateM σ)}

theorem modifiedFile_short (hrepo : InMemory repo) (base : String) (c : FileChange) :
    Always ShortNames (modifiedFile repo base c) := by
  refine (hrepo.current c.newPath).bind fun found hfound => ?_
  cases found with
  | error fault => exact .pure fun _ h => by cases h
  | ok text =>
    simp only [declarations]
    cases hds : Go.declarations? text with
    | none => exact .pure fun _ h => by cases h
    | some ds =>
      cases htouched : touched c ds with
      | nil =>
        simp only [htouched]
        refine .pure fun symbols h => ?_
        cases h
        exact List.forall_mem_nil _
      | cons first others =>
        simp only [htouched]
        have hold : Always (fun _ => True) (repo.fileAt c.oldPath base) := fun _ => trivial
        refine hold.bind fun old _ => .pure fun symbols h s hs => ?_
        cases h
        obtain ⟨d, hd, hdeclares⟩ := exists_symbolOf_iff.1 ⟨s, hs, rfl, rfl⟩
        have hmem : d ∈ ds := List.mem_of_mem_filter (htouched ▸ hd)
        exact short_of_declares (hfound text rfl) hds ⟨d, hmem, hdeclares⟩

theorem ofChange_short (hrepo : InMemory repo) (base : String) (c : FileChange) :
    Always ShortNames (ofChange repo base c) := by
  rw [ofChange]
  cases c.kind with
  | added => exact (hrepo.current c.newPath).bind fun _ h => .pure (ofText_short h c.newPath .added)
  | deleted =>
    exact (hrepo.fileAt c.oldPath base).bind fun _ h => .pure (ofText_short h c.oldPath .deleted)
  | modified => exact modifiedFile_short hrepo base c

theorem ofChanges_short (hrepo : InMemory repo) (base : String) (cs : List FileChange) :
    Always (fun found => ∀ s ∈ found.1, s.Short) (ofChanges repo base cs) := by
  induction cs with
  | nil => exact .pure (List.forall_mem_nil _)
  | cons c cs ih =>
    refine (ofChange_short hrepo base c).bind fun first hfirst => ih.bind fun others hothers => ?_
    cases first with
    | error fault => exact .pure hothers
    | ok found =>
      refine .pure fun s hs => ?_
      rcases List.mem_append.1 hs with hs | hs
      · exact hfirst found rfl s hs
      · exact hothers s hs

theorem extract_short (hrepo : InMemory repo) (base diff : String) :
    Always (fun found => ∀ symbols stats, found = .ok (symbols, stats) → ∀ s ∈ symbols, s.Short)
      (extract repo base diff) := by
  rw [extract]
  cases Diff.parse diff with
  | error fault => exact .pure fun _ _ h => by cases h
  | ok changes =>
    refine (ofChanges_short hrepo base (sourceChanges changes)).bind fun found hfound => .pure ?_
    intro symbols stats h
    cases h
    exact hfound

end
end Extraction

/-- The names of all symbols of a diff are short. -/
theorem Check.changedSymbols_short {σ : Type} {s : Check.Setup (StateM σ)}
    (hrepo : Extraction.InMemory s.repository) (diff : String) :
    Check.Always (fun found => ∀ symbols stats, found = .ok (symbols, stats) →
      ∀ x ∈ symbols, x.Short) (s.changedSymbols diff) := by
  refine (Extraction.extract_short hrepo s.base diff).bind fun found hfound => .pure ?_
  intro symbols stats h
  cases found with
  | error fault => cases h
  | ok result =>
    cases h
    exact hfound symbols stats rfl

end StaleDocs
