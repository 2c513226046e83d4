/-
The pairs of a check with any judge, in any monad (`findPairs_any`). The
judge is asked once about each group of candidates, and what it answers is all
that the pairs are told from: an answer takes candidates of its group, each at
most once (`taken_subperm`), and marks them without touching what is paired or
the score (`marked_scoring`).
-/
import StaleDocs.Proofs.Check.Verdicts

namespace StaleDocs

/-- What a pairing says without its reason: what is paired, and the score. -/
def Relevance.Pairing.scoring {σ : Type} (p : Relevance.Pairing σ) :
    Symbol × Docs.Segment × σ :=
  (p.symbol, p.segment, p.confidence)

namespace Check
open Docs (Segment)
open Judge (JudgeError)
open Relevance (Pairing SymbolGroup broadMatch reduce)

/-! ## What an answer takes -/

/-- What a judge says when it is asked which segments of a group are relevant. -/
abbrev Selection := Except JudgeError (List Nat)

/-- The distinct positions below `n`, in the order in which they are first named. -/
def distinctBelow (n : Nat) (positions : List Nat) : List Nat :=
  positions.eraseDups.filter (· < n)

theorem nodup_distinctBelow (n : Nat) (positions : List Nat) :
    (distinctBelow n positions).Nodup :=
  (nodup_eraseDups positions).filter _

theorem distinctBelow_subset_range (n : Nat) (positions : List Nat) :
    distinctBelow n positions ⊆ List.range n := by
  intro i hi
  exact List.mem_range.2 (of_decide_eq_true (List.mem_filter.1 hi).2)

/-- The candidates at the distinct positions of an answer that are positions of candidates; all
candidates if there is no answer. -/
def taken (g : SymbolGroup Float) : Selection → List (Pairing Float)
  | .ok positions =>
    (distinctBelow g.candidates.length positions).filterMap fun i => g.candidates[i]?
  | .error _ => g.candidates

/-- A candidate with the word of the judge in its reason. -/
def marked : Selection → Pairing Float → Pairing Float
  | .ok _ => confirmed
  | .error fault => unconfirmed fault

def chosen (g : SymbolGroup Float) (a : Selection) : List (Pairing Float) :=
  (taken g a).map (marked a)

@[simp] theorem marked_scoring (a : Selection) (p : Pairing Float) :
    (marked a p).scoring = p.scoring := by
  cases a <;> rfl

theorem chosen_scoring (g : SymbolGroup Float) (a : Selection) :
    (chosen g a).map (·.scoring) = (taken g a).map (·.scoring) := by
  simp [chosen]

/-- An answer takes no candidate twice, and makes none up. -/
theorem taken_subperm (g : SymbolGroup Float) (a : Selection) :
    (taken g a).Subperm g.candidates := by
  cases a with
  | error _ => exact .refl _
  | ok positions =>
    -- The positions taken are some of all positions, and these pick all candidates.
    obtain ⟨l, hperm, hsub⟩ := (nodup_distinctBelow g.candidates.length positions).subperm
      (distinctBelow_subset_range _ _)
    have hsub := hsub.filterMap fun i => g.candidates[i]?
    rw [filterMap_range_getElem?] at hsub
    exact ⟨_, hperm.filterMap _, hsub⟩

/-- An answer counts up to the repeated positions in it and those of no candidate. -/
theorem chosen_congr {g : SymbolGroup Float} {a b : Selection}
    (h : a.map (distinctBelow g.candidates.length) = b.map (distinctBelow g.candidates.length)) :
    chosen g a = chosen g b := by
  cases a with
  | error _ =>
    cases b with
    | error _ => cases h; rfl
    | ok _ => cases h
  | ok _ =>
    cases b with
    | error _ => cases h
    | ok _ =>
      have hpositions := Except.ok.inj h
      simp only [chosen, taken, marked, hpositions]

/-! ## All groups -/

/-- The candidates that answers take, group by group. -/
def allTaken (groups : List (SymbolGroup Float)) (answers : List Selection) :
    List (Pairing Float) :=
  (List.zipWith taken groups answers).flatten

/-- The pairs of some groups, given the answers on them. -/
def allChosen (groups : List (SymbolGroup Float)) (answers : List Selection) :
    List (Pairing Float) :=
  (List.zipWith chosen groups answers).flatten

theorem allTaken_subperm (groups : List (SymbolGroup Float)) (answers : List Selection) :
    (allTaken groups answers).Subperm (Relevance.allCandidates groups) := by
  induction groups generalizing answers with
  | nil => exact .refl _
  | cons g gs ih =>
    cases answers with
    | nil => exact List.nil_subperm
    | cons a as => exact (taken_subperm g a).append (ih as)

theorem allChosen_scoring (groups : List (SymbolGroup Float)) (answers : List Selection) :
    (allChosen groups answers).map (·.scoring) = (allTaken groups answers).map (·.scoring) := by
  induction groups generalizing answers with
  | nil => rfl
  | cons g gs ih =>
    cases answers with
    | nil => rfl
    | cons a as =>
      simp only [allChosen, allTaken] at ih
      simp only [allChosen, allTaken, List.zipWith_cons_cons, List.flatten_cons, List.map_append,
        chosen_scoring, ih]

theorem keys_of_scorings {ps qs : List (Pairing Float)}
    (h : ps.map (·.scoring) = qs.map (·.scoring)) : ps.map (·.key) = qs.map (·.key) := by
  -- A key is made of parts of what is paired, which the scoring has.
  have hkey (ps : List (Pairing Float)) : ps.map (·.key) = (ps.map (·.scoring)).map fun t =>
      (⟨t.1.file, t.1.name, t.1.change, t.2.1.file, t.2.1.startLine⟩ : Relevance.PairKey) := by
    rw [List.map_map]
    rfl
  rw [hkey ps, hkey qs, h]

/-- The candidates of a check: scored pairs of symbols and segments, one for each key. -/
def candidates (symbols : List Symbol) (segments : List Segment) : List (Pairing Float) :=
  reduce .max (broadMatch symbols segments)

theorem allTaken_candidates (symbols : List Symbol) (segments : List Segment)
    (answers : List Selection) :
    (allTaken (candidateGroups symbols segments) answers).Subperm (candidates symbols segments) :=
  (allTaken_subperm _ _).trans (Relevance.groupBySymbol_perm _).subperm

theorem allTaken_keys_nodup (symbols : List Symbol) (segments : List Segment)
    (answers : List Selection) :
    ((allTaken (candidateGroups symbols segments) answers).map (·.key)).Nodup := by
  obtain ⟨l, hperm, hsub⟩ := allTaken_candidates symbols segments answers
  exact (hperm.map _).nodup_iff.1 ((Relevance.reduce_keys_nodup _ _).sublist (hsub.map _))

/-! ## Asking the judge -/

section Asking
variable {m : Type → Type} [Monad m] [LawfulMonad m]

theorem relevantPairs_eq (judge : Judge m) (g : SymbolGroup Float) :
    relevantPairs judge g = chosen g <$> judge.relevant g.symbol g.segments := by
  rw [relevantPairs, map_eq_pure_bind]
  refine bind_congr fun answer => ?_
  cases answer with
  | error fault => rfl
  | ok positions => simp only [pick_eq_filter]; rfl

/-- The judge is asked about each group once, in order, and nothing else has a say in the
pairs. -/
theorem findPairs_eq {s : Setup m} {judge : Judge m} (hj : s.judge = some judge)
    (symbols : List Symbol) (segments : List Segment) :
    s.findPairs symbols segments = do
      let answers ← (candidateGroups symbols segments).mapM fun g =>
        judge.relevant g.symbol g.segments
      return allChosen (candidateGroups symbols segments) answers := by
  simp only [Setup.findPairs, hj]
  rw [mapM_eq_zipWith (relevantPairs_eq judge), bind_map_left]
  rfl

/-- Whether two judges find the same segments relevant, in one order and with the same effects,
but for positions that are repeated or are those of no segment. -/
def SameSelections (judge judge' : Judge m) : Prop :=
  ∀ symbol segments,
    Except.map (distinctBelow segments.length) <$> judge.relevant symbol segments =
      Except.map (distinctBelow segments.length) <$> judge'.relevant symbol segments

theorem relevantPairs_congr {judge judge' : Judge m} (h : SameSelections judge judge')
    (g : SymbolGroup Float) : relevantPairs judge g = relevantPairs judge' g := by
  have hlength : g.segments.length = g.candidates.length := by simp [SymbolGroup.segments]
  have hasked := h g.symbol g.segments
  -- What is chosen is told from the distinct positions alone, on which the judges agree.
  obtain ⟨read, hread⟩ := (Function.factorsThrough_iff (chosen g)).1 fun _ _ => chosen_congr
  rw [hlength] at hasked
  rw [relevantPairs_eq, relevantPairs_eq, hread, comp_map, hasked, ← comp_map]

/-- **Whatever a judge answers**, it is asked once about each file and name among the
candidates, in the order in which they are first seen, with the segments of all candidates of
that file and name in order. The pairs of an answer are the candidates at its distinct
positions, in the order in which they are first named, and without an answer they are all
candidates; nothing but the reason of a candidate changes, and none is there twice or made up.
So two judges find the same pairs if their answers differ in repeated positions and positions
of no candidate only. -/
theorem findPairs_any {s : Setup m} {judge : Judge m} (hj : s.judge = some judge)
    (symbols : List Symbol) (segments : List Segment) :
    (candidateGroups symbols segments).map (·.key) =
        ((candidates symbols segments).map (·.symbolKey)).eraseDups ∧
    (∀ g ∈ candidateGroups symbols segments, g.Gathers (candidates symbols segments)) ∧
    (s.findPairs symbols segments = do
      let answers ← (candidateGroups symbols segments).mapM fun g =>
        judge.relevant g.symbol (g.candidates.map (·.segment))
      return allChosen (candidateGroups symbols segments) answers) ∧
    (∀ answers,
      ((allChosen (candidateGroups symbols segments) answers).map (·.scoring)).Subperm
        ((candidates symbols segments).map (·.scoring)) ∧
      ((allChosen (candidateGroups symbols segments) answers).map (·.key)).Nodup) ∧
    ∀ judge', SameSelections judge judge' →
      { s with judge := some judge' }.findPairs symbols segments = s.findPairs symbols segments := by
  refine ⟨Relevance.groupBySymbol_keys _, fun g hg => Relevance.groupBySymbol_gathers hg,
    findPairs_eq hj symbols segments, fun answers => ⟨?_, ?_⟩, fun judge' h => ?_⟩
  · rw [allChosen_scoring]
    obtain ⟨l, hperm, hsub⟩ := allTaken_candidates symbols segments answers
    exact ⟨_, hperm.map _, hsub.map _⟩
  · rw [keys_of_scorings (allChosen_scoring _ answers)]
    exact allTaken_keys_nodup symbols segments answers
  · simp only [Setup.findPairs, hj, funext (relevantPairs_congr h)]

end Asking

/-- A judge with an answer to its first question only. -/
def waveringJudge (positions : List Nat) : Judge (StateM Nat) where
  name := "wavering"
  analyze _ := return .error .emptyResponse
  relevant _ _ := do
    let calls ← get
    set (calls + 1)
    return if calls = 0 then .ok positions else .error .emptyResponse

def waveringSetup (positions : List Nat) : Setup (StateM Nat) :=
  ⟨methodsRepository, some (waveringJudge positions), defaultBase, defaultThreshold⟩

/-- The methods, and a type that the segments name too. -/
def guideSymbols : List Symbol :=
  methodSymbols ++ [⟨"p.go", "Runs", .type, .added, 9, 9, "", "type Runs struct\x7b\x7d"⟩]

theorem sameSelections_wavering {positions positions' : List Nat}
    (h : ∀ n, distinctBelow n positions = distinctBelow n positions') :
    SameSelections (waveringJudge positions) (waveringJudge positions') := by
  intro symbol segments
  simp only [waveringJudge, map_bind, map_pure]
  refine bind_congr fun calls => bind_congr fun _ => congrArg pure ?_
  split
  · exact congrArg Except.ok (h _)
  · rfl

/-- The first symbol has its segments in the order of the answer, and the second, on which the
judge fails, has all of them. -/
theorem findPairs_any_wavering :
    (waveringSetup [2, 0, 7, 1, 1]).findPairs guideSymbols guideSegments =
        (waveringSetup [2, 0, 2, 7, 1]).findPairs guideSymbols guideSegments ∧
      (((waveringSetup [2, 0, 2, 7, 1]).findPairs guideSymbols guideSegments).run 0).1.map
          (fun p => (p.symbol.name, p.segment.startLine)) =
        [("F", 5), ("F", 1), ("F", 3), ("Runs", 1), ("Runs", 3), ("Runs", 5)] := by
  have hsame : SameSelections (waveringJudge [2, 0, 2, 7, 1]) (waveringJudge [2, 0, 7, 1, 1]) :=
    sameSelections_wavering fun _ => rfl
  obtain ⟨-, -, -, -, hpairs⟩ :=
    findPairs_any (s := waveringSetup [2, 0, 2, 7, 1]) rfl guideSymbols guideSegments
  exact ⟨hpairs _ hsame, by decide +kernel⟩

end Check
end StaleDocs
