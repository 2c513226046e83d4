/-
The pairs of a check whose judge keeps every candidate (`findPairs_keepsAll`):
each symbol that was scored with a segment is there once, or else another
symbol of the same file, name and kind of change, or the same block of
comments under another heading, stands for it. A pair is told by these five
things only, so two methods of one name are one symbol to a check.
-/
import StaleDocs.Check.Run
import StaleDocs.Judge.Scripted
import StaleDocs.Proofs.Docs.StartLines
import StaleDocs.Proofs.Relevance.Grouping
import StaleDocs.Proofs.Relevance.Passes
import StaleDocs.Proofs.Symbol.Modified
import StaleDocs.Repository.Snapshot

namespace StaleDocs

/-- Whether two symbols have the same file, name and kind of change. -/
def Symbol.Agrees (a b : Symbol) : Prop :=
  a.file = b.file ∧ a.name = b.name ∧ a.change = b.change

instance (a b : Symbol) : Decidable (a.Agrees b) := inferInstanceAs (Decidable (_ ∧ _))

namespace Relevance

/-- Two pairings have one key when their symbols agree and their segments start on one line of
one file. -/
theorem key_eq_iff {σ : Type} {p q : Pairing σ} :
    p.key = q.key ↔ p.symbol.Agrees q.symbol ∧ p.segment.file = q.segment.file ∧
      p.segment.startLine = q.segment.startLine := by
  simp [Pairing.key, Symbol.Agrees, and_assoc]

end Relevance

/-- Whether a judge, whatever it was asked before, finds every segment relevant. -/
def Judge.KeepsAll {σ : Type} (judge : Judge (StateM σ)) : Prop :=
  ∀ symbol segments st, ∃ positions,
    ((judge.relevant symbol segments).run st).1 = .ok positions ∧
      ∀ i < segments.length, i ∈ positions

namespace Check
open Docs (Segment ScannedFrom)
open Relevance (Pairing SymbolGroup broadMatch broadScore? reduce mem_broadMatch)

/-! ## A judge that keeps everything -/

/-- Positions past the end pick nothing. -/
theorem pick_eq_filter {α : Type} (xs : List α) (positions : List Nat) :
    pick xs positions =
      (positions.eraseDups.filter (· < xs.length)).filterMap fun i => xs[i]? := by
  rw [pick, List.filterMap_filter]
  refine List.filterMap_congr fun i _ => ?_
  by_cases hi : i < xs.length
  · simp [hi]
  · simp [hi]

/-- Positions that leave none out pick everything. -/
theorem pick_perm {α : Type} {xs : List α} {positions : List Nat}
    (h : ∀ i < xs.length, i ∈ positions) : (pick xs positions).Perm xs := by
  have hin : (positions.eraseDups.filter (· < xs.length)).Perm (List.range xs.length) := by
    refine (List.perm_ext_iff_of_nodup ?_ List.nodup_range).2 fun i => ?_
    · exact (nodup_eraseDups _).filter _
    · simp only [List.mem_filter, List.mem_eraseDups, decide_eq_true_eq, List.mem_range]
      exact ⟨fun hi => hi.2, fun hi => ⟨h i hi, hi⟩⟩
  rw [pick_eq_filter]
  exact (hin.filterMap _).trans (.of_eq (filterMap_range_getElem? xs))

variable {σ : Type}

theorem relevantPairs_perm {judge : Judge (StateM σ)} (hk : judge.KeepsAll)
    (g : SymbolGroup Float) (st : σ) :
    ((relevantPairs judge g).run st).1.Perm (g.candidates.map confirmed) := by
  obtain ⟨positions, hpos, hall⟩ := hk g.symbol g.segments st
  have hrun : ((relevantPairs judge g).run st).1 = (pick g.candidates positions).map confirmed := by
    cases hans : (judge.relevant g.symbol g.segments).run st with
    | mk answer t =>
      rw [hans] at hpos
      unfold relevantPairs
      rw [StateT.run_bind, hans]
      cases hpos
      rfl
  rw [hrun]
  exact (pick_perm fun i hi => hall i (by simpa [SymbolGroup.segments] using hi)).map confirmed

/-- Results of single steps, put together. -/
theorem mapM_flatten_perm {α β : Type} {f : α → StateM σ (List β)} {g : α → List β}
    (h : ∀ a st, ((f a).run st).1.Perm (g a)) (l : List α) :
    ∀ st : σ, (((l.mapM f).run st).1.flatten).Perm (l.flatMap g) := by
  induction l with
  | nil => intro st; exact .refl _
  | cons a l ih =>
    intro st
    cases hf : (f a).run st with
    | mk out t =>
      have hout := h a st
      rw [hf] at hout
      have hrun : (((a :: l).mapM f).run st).1 = out :: ((l.mapM f).run t).1 := by
        rw [List.mapM_cons, StateT.run_bind, hf]
        rfl
      rw [hrun, List.flatten_cons, List.flatMap_cons]
      exact hout.append (ih t)

/-- The pairs are the reduced candidates, as confirmed and in some order. -/
theorem findPairs_perm {s : Setup (StateM σ)} {judge : Judge (StateM σ)} (hj : s.judge = some judge)
    (hk : judge.KeepsAll) (symbols : List Symbol) (segments : List Segment) (st : σ) :
    ∃ pairs after, (s.findPairs symbols segments).run st = (pairs, after) ∧
      pairs.Perm ((reduce .max (broadMatch symbols segments)).map confirmed) := by
  have hgroups := mapM_flatten_perm (relevantPairs_perm hk) (candidateGroups symbols segments) st
  have hrun : ((s.findPairs symbols segments).run st).1 =
      (((candidateGroups symbols segments).mapM (relevantPairs judge)).run st).1.flatten := by
    simp only [Setup.findPairs, hj]
    rfl
  refine ⟨_, _, rfl, ?_⟩
  refine (List.Perm.of_eq hrun).trans (hgroups.trans ?_)
  rw [← List.map_flatMap]
  exact (Relevance.groupBySymbol_perm _).map confirmed

/-! ## One pair for each candidate -/

/-- Whether two pairings are about one thing: symbols that agree, and the same block of
documentation. -/
def SameCandidate (p q : Pairing Float) : Prop :=
  p.symbol.Agrees q.symbol ∧ p.segment.SameBlock q.segment

instance (p q : Pairing Float) : Decidable (SameCandidate p q) :=
  inferInstanceAs (Decidable (_ ∧ _))

/-- Among scanned segments the key of a pairing says what it is about. -/
theorem key_eq_iff_sameCandidate {files : List (String × List Segment)}
    (hscan : ∀ f ∈ files, ScannedFrom f.1 f.2) (hnodup : (files.map (·.1)).Nodup)
    {p q : Pairing Float} (hp : p.segment ∈ files.flatMap (·.2))
    (hq : q.segment ∈ files.flatMap (·.2)) : p.key = q.key ↔ SameCandidate p q := by
  rw [Relevance.key_eq_iff, SameCandidate]
  constructor
  · rintro ⟨hsym, hfile, hline⟩
    exact ⟨hsym, Docs.sameBlock_of_startLine hscan hnodup hp hq hfile hline⟩
  · rintro ⟨hsym, hblock⟩
    exact ⟨hsym, hblock.file, hblock.startLine⟩

/-- Of results with distinct keys, exactly one has a key that is there. -/
theorem countP_key_eq_one {ps : List (Pairing Float)} (hnodup : (ps.map (·.key)).Nodup)
    {k : Relevance.PairKey} (hk : k ∈ ps.map (·.key)) : ps.countP (fun p => p.key = k) = 1 := by
  rw [← List.count_eq_one_of_mem hnodup hk, List.count, List.countP_map]
  refine List.countP_congr fun p _ => ?_
  simp

/-- Of the reduced candidates, exactly one is about what a candidate is about. -/
theorem countP_reduced {files : List (String × List Segment)}
    (hscan : ∀ f ∈ files, ScannedFrom f.1 f.2) (hnodup : (files.map (·.1)).Nodup)
    {symbols : List Symbol} {q : Pairing Float}
    (hq : q ∈ broadMatch symbols (files.flatMap (·.2))) :
    (reduce .max (broadMatch symbols (files.flatMap (·.2)))).countP (fun p => SameCandidate p q) =
      1 := by
  have hkey : q.key ∈ (reduce .max (broadMatch symbols (files.flatMap (·.2)))).map (·.key) :=
    Relevance.mem_reduce_keys.2 (List.mem_map_of_mem hq)
  rw [← countP_key_eq_one (Relevance.reduce_keys_nodup _ _) hkey]
  refine List.countP_congr fun p hp => ?_
  have hp := mem_broadMatch.1 (Relevance.mem_of_mem_reduce hp)
  have hq := mem_broadMatch.1 hq
  simp only [decide_eq_true_eq]
  exact (key_eq_iff_sameCandidate hscan hnodup hp.2.1 hq.2.1).symm

/-- No two candidates are about one thing when their keys are all different. -/
theorem pairwise_iff_keys_nodup {files : List (String × List Segment)}
    (hscan : ∀ f ∈ files, ScannedFrom f.1 f.2) (hnodup : (files.map (·.1)).Nodup)
    {symbols : List Symbol} :
    (broadMatch symbols (files.flatMap (·.2))).Pairwise (fun p q => ¬ SameCandidate p q) ↔
      ((broadMatch symbols (files.flatMap (·.2)) : List (Pairing Float)).map (·.key)).Nodup := by
  rw [List.Nodup, List.pairwise_map]
  refine List.Pairwise.iff_of_mem fun {p q} hp hq => not_congr ?_
  have hp := mem_broadMatch.1 hp
  have hq := mem_broadMatch.1 hq
  exact (key_eq_iff_sameCandidate hscan hnodup hp.2.1 hq.2.1).symm

/-- **With a judge that keeps every candidate**, each symbol that was scored with a segment of
some distinct files is paired exactly once with it: by itself, or by a pair with the same
symbol file, name and kind of change and the same block of documentation. Every pair is a
scored one, and none is lost just when no two scored ones are about one thing. -/
theorem findPairs_keepsAll {s : Setup (StateM σ)} {judge : Judge (StateM σ)}
    (hj : s.judge = some judge) (hk : judge.KeepsAll) (symbols : List Symbol)
    {files : List (String × List Segment)} (hscan : ∀ f ∈ files, ScannedFrom f.1 f.2)
    (hnodup : (files.map (·.1)).Nodup) (st : σ) :
    ∃ pairs after, (s.findPairs symbols (files.flatMap (·.2))).run st = (pairs, after) ∧
      (∀ p ∈ pairs, p.symbol ∈ symbols ∧ p.segment ∈ files.flatMap (·.2) ∧
        ∃ q, broadScore? p.symbol p.segment = some q ∧ p = confirmed q) ∧
      (∀ symbol ∈ symbols, ∀ segment ∈ files.flatMap (·.2), ∀ q,
        broadScore? symbol segment = some q → pairs.countP (fun p => SameCandidate p q) = 1) ∧
      (pairs.Perm ((broadMatch symbols (files.flatMap (·.2))).map confirmed) ↔
        (broadMatch symbols (files.flatMap (·.2))).Pairwise fun p q => ¬ SameCandidate p q) := by
  obtain ⟨pairs, after, hrun, hperm⟩ := findPairs_perm hj hk symbols (files.flatMap (·.2)) st
  refine ⟨pairs, after, hrun, ?_, ?_, ?_⟩
  · intro p hp
    obtain ⟨q, hq, rfl⟩ := List.mem_map.1 (hperm.mem_iff.1 hp)
    obtain ⟨hsymbol, hsegment, hscore⟩ := mem_broadMatch.1 (Relevance.mem_of_mem_reduce hq)
    exact ⟨hsymbol, hsegment, q, hscore, rfl⟩
  · intro symbol hsymbol segment hsegment q hscore
    obtain ⟨rfl, rfl⟩ := Relevance.broadScore?_about hscore
    rw [hperm.countP_eq, List.countP_map]
    exact countP_reduced hscan hnodup (mem_broadMatch.2 ⟨hsymbol, hsegment, hscore⟩)
  · rw [pairwise_iff_keys_nodup hscan hnodup]
    constructor
    · intro h
      have hlen := h.length_eq
      rw [hperm.length_eq, List.length_map, List.length_map] at hlen
      exact Relevance.reduce_length_iff.1 hlen
    · intro h
      rw [Relevance.reduce_of_nodup h] at hperm
      exact hperm

theorem agreeing_keepsAll : Judge.Script.agreeing.judge.KeepsAll := fun _ segments _ =>
  ⟨List.range segments.length, rfl, fun _ hi => List.mem_range.2 hi⟩

/-- A source file with two methods of one name. -/
def sameNamedMethods : String :=
  "package p\n\nfunc (A) F() \x7b\n\x7d\n\nfunc (B) F() \x7b\n\x7d\n"

/-- The diff that adds the file. -/
def methodsAdded : Diff.FilePatch :=
  { oldPath := "p.go", newPath := "p.go", kind := .added, extended := [], sides := false
    hunks := [] }

/-- A repository with that file only. -/
def methodsRepository {m : Type → Type} [Monad m] : Repository m :=
  Repository.Snapshot.repository ⟨[], [("p.go", sameNamedMethods)], [], false⟩

/-- A check with a judge that finds everything relevant. -/
def methodsSetup : Setup (StateM Judge.Calls) :=
  ⟨methodsRepository, some Judge.Script.agreeing.judge, defaultBase, defaultThreshold⟩

/-- The methods as symbols. -/
def methodSymbols : List Symbol :=
  [⟨"p.go", "F", .function, .added, 3, 4, "", "func (A) F() \x7b\n\x7d"⟩,
    ⟨"p.go", "F", .function, .added, 6, 7, "", "func (B) F() \x7b\n\x7d"⟩]

/-- A segment that names them. -/
def guideSegment : Segment := ⟨"guide.md", "F", 1, 1, 2, "# F\nruns", .markdown⟩

/-- The guide, and a source file that documents two types in one comment. -/
def guideFiles : List (String × List Segment) :=
  [("guide.md", [guideSegment]),
    ("t.go",
      [⟨"t.go", "type A", 2, 3, 3, "What F runs on.", .goComment⟩,
        ⟨"t.go", "type B", 2, 3, 3, "What F runs on.", .goComment⟩])]

theorem findPairs_keepsAll_guideFiles :
    ∃ pairs after,
      (methodsSetup.findPairs methodSymbols (guideFiles.flatMap (·.2))).run ⟨0, 0⟩ = (pairs, after) ∧
      ∀ q, broadScore? methodSymbols[1] guideSegment = some q →
        pairs.countP (fun p => SameCandidate p q) = 1 := by
  have hscan : ∀ f ∈ guideFiles, ScannedFrom f.1 f.2 := by
    intro f hf
    simp only [guideFiles, List.mem_cons, List.not_mem_nil, or_false] at hf
    rcases hf with rfl | rfl
    · exact ⟨"# F\nruns\n", .inl (by decide +kernel)⟩
    · exact ⟨"package p\n\n// What F runs on.\ntype (\n\tA struct\x7b\x7d\n\tB struct\x7b\x7d\n)\n",
        .inr (by decide +kernel)⟩
  obtain ⟨pairs, after, hrun, -, hone, -⟩ := findPairs_keepsAll (s := methodsSetup) rfl
    agreeing_keepsAll methodSymbols hscan (by decide) ⟨0, 0⟩
  exact ⟨pairs, after, hrun, hone _ (by decide) _ (by decide)⟩

theorem parse_methodsAdded : Diff.parse (Diff.printDiff [methodsAdded]) = .ok [methodsAdded.change] := by
  have hchange : methodsAdded.section.change = methodsAdded.change :=
    Diff.FilePatch.section_change .nil
  rw [Diff.parse_printDiff_plain (by decide +kernel) (by decide +kernel)]
  exact congrArg (fun c => Except.ok [c]) hchange

/-- The declarations of the methods. -/
def methodDeclarations : List Go.Declaration :=
  [⟨.function, ["F"], ⟨3, 4⟩, "func (A) F() \x7b\n\x7d"⟩,
    ⟨.function, ["F"], ⟨6, 7⟩, "func (B) F() \x7b\n\x7d"⟩]

theorem declarations?_sameNamedMethods :
    Go.declarations? sameNamedMethods = some methodDeclarations := by decide +kernel

theorem emitted_methods :
    Extraction.emitted methodsRepository "HEAD" methodsAdded.change = methodSymbols := by
  have hfile : Extraction.ofText "p.go" .added (.ok sameNamedMethods) = .ok methodSymbols := by
    simp only [Extraction.ofText, Extraction.declarations, declarations?_sameNamedMethods]
    rfl
  have hchange : (Extraction.ofChange (m := Id) methodsRepository "HEAD" methodsAdded.change).run =
      Extraction.ofText "p.go" .added (.ok sameNamedMethods) := by
    simp only [Extraction.ofChange, methodsAdded, Diff.FilePatch.change, Id.run_bind, Id.run_pure]
    congr 1
  rw [Extraction.emitted, hchange, hfile]

theorem broadScore?_methods : ∀ symbol ∈ methodSymbols,
    (broadScore? symbol guideSegment : Option (Pairing Float)).isSome = true := by decide +kernel

/-- Two methods of one name in one file are both scored with a segment, and make one pair. -/
theorem findPairs_mergesMethods :
    (∃ stats, (Extraction.extract methodsRepository "HEAD" (Diff.printDiff [methodsAdded]) : Id _).run =
      .ok (methodSymbols, stats)) ∧
    methodSymbols.Nodup ∧ Docs.markdownSegments "guide.md" "# F\nruns\n" = [guideSegment] ∧
    (∀ symbol ∈ methodSymbols,
      (broadScore? symbol guideSegment : Option (Pairing Float)).isSome = true) ∧
    ((methodsSetup.findPairs methodSymbols [guideSegment]).run ⟨0, 0⟩).1.length = 1 := by
  refine ⟨?_, by decide, by decide +kernel, broadScore?_methods, ?_⟩
  · obtain ⟨stats, hrun⟩ := Extraction.extract_run methodsRepository "HEAD" parse_methodsAdded
    have hsources : Extraction.sourceChanges [methodsAdded.change] = [methodsAdded.change] := by
      decide +kernel
    refine ⟨stats, hrun.trans ?_⟩
    rw [Extraction.emittedBy, hsources, List.flatMap_singleton, emitted_methods]
  · obtain ⟨pairs, after, hrun, hperm⟩ := findPairs_perm (s := methodsSetup) rfl agreeing_keepsAll
      methodSymbols [guideSegment] ⟨0, 0⟩
    obtain ⟨p, hp⟩ := Option.isSome_iff_exists.1 (broadScore?_methods methodSymbols[0] (by decide))
    obtain ⟨q, hq⟩ := Option.isSome_iff_exists.1 (broadScore?_methods methodSymbols[1] (by decide))
    have hbroad : broadMatch methodSymbols [guideSegment] = [p, q] := by
      change [guideSegment].filterMap (broadScore? methodSymbols[0]) ++
        ([guideSegment].filterMap (broadScore? methodSymbols[1]) ++ []) = _
      rw [List.filterMap_cons_some hp, List.filterMap_cons_some hq]
      rfl
    -- The receivers are in the code of the symbols only, not in the key.
    have hkey : p.key = q.key := by
      obtain ⟨hp₁, hp₂⟩ := Relevance.broadScore?_about hp
      obtain ⟨hq₁, hq₂⟩ := Relevance.broadScore?_about hq
      rw [Pairing.key, Pairing.key, hp₁, hp₂, hq₁, hq₂]
      rfl
    have hone : (reduce .max [p, q]).length = 1 := by
      simp [reduce, Relevance.absorb, hkey]
    rw [hrun, hperm.length_eq, List.length_map, hbroad, hone]

end Check
end StaleDocs
