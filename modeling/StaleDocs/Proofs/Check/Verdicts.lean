/-
What is certain of a check, whatever its judge does (`check_verdicts`). A
judge is any step of a state: it may fail, give any numbers and positions, and
answer differently each time.

Two facts bound what it can do. A judge drops pairs and orders them, but never
changes their scores (`findPairs_scored`). And it is asked about each pair
once, in order, and a result is made of a pair and the answer on it
(`mapM_judgePair`), so that a report can be told from the answers alone. That
the scores are from zero to one is no matter of the judge: they are those of
names that stand in texts held in memory (`Scored.inUnit`).
-/
import StaleDocs.CommandLine.Run
import StaleDocs.Proofs.Check.Pairs
import StaleDocs.Proofs.Check.Symbols
import StaleDocs.Proofs.Relevance.UnitInterval
import StaleDocs.Proofs.Report.Terminal

namespace StaleDocs

namespace Judge

theorem Verdict.inUnit_normalized (v : Verdict) : InUnit v.normalized.confidence := by
  simp only [Verdict.normalized]
  split
  · next hfinite => exact Relevance.inUnit_clamp (Relevance.isNaN_of_isFinite hfinite)
  · decide

theorem Verdict.normalized_agrees (v : Verdict) :
    v.normalized.related = true ∨ v.normalized.consistent = true := by
  cases hr : v.related <;> simp [Verdict.normalized, hr]

end Judge

namespace Check
open Docs (Segment)
open Judge (JudgeError Question Verdict)
open Relevance (Pairing SymbolGroup broadScore?)
open CommandLine (Outcome exitCode)

/-! ## The pairs of a check -/

/-- Whether a pair is that of one of some symbols, with the score that the matcher gives it and its
segment. -/
structure Scored (symbols : List Symbol) (p : Pairing Float) : Prop where
  symbol : p.symbol ∈ symbols
  score : ∃ q, broadScore? p.symbol p.segment = some q ∧ p.confidence = q.confidence

variable {symbols : List Symbol}

theorem Scored.inUnit {p : Pairing Float} (h : Scored symbols p)
    (hshort : ∀ x ∈ symbols, x.Short) : InUnit p.confidence := by
  obtain ⟨q, hq, hconfidence⟩ := h.score
  rw [hconfidence]
  exact Relevance.inUnit_broadScore? (hshort _ h.symbol) hq

/-- The candidates that a judge is asked about have their scores. -/
theorem candidateGroups_scored {segments : List Segment} {g : SymbolGroup Float}
    (hg : g ∈ candidateGroups symbols segments) : ∀ p ∈ g.candidates, Scored symbols p := by
  intro p hp
  have hreduced := (Relevance.groupBySymbol_perm _).mem_iff.1 (List.mem_flatMap.2 ⟨g, hg, hp⟩)
  obtain ⟨hsymbol, -, hscore⟩ := Relevance.mem_broadMatch.1 (Relevance.mem_of_mem_reduce hreduced)
  exact ⟨hsymbol, p, hscore, rfl⟩

theorem mem_of_mem_pick {α : Type} {xs : List α} {positions : List Nat} {x : α}
    (h : x ∈ pick xs positions) : x ∈ xs := by
  obtain ⟨i, -, hi⟩ := List.mem_filterMap.1 h
  exact List.mem_of_getElem? hi

variable {σ : Type}

/-- A judge drops pairs and changes their reasons, never their scores. -/
theorem relevantPairs_scored (judge : Judge (StateM σ)) {g : SymbolGroup Float}
    (hg : ∀ p ∈ g.candidates, Scored symbols p) :
    Always (fun ps => ∀ p ∈ ps, Scored symbols p) (relevantPairs judge g) := by
  have hall : Always (fun _ => True) (judge.relevant g.symbol g.segments) := fun _ => trivial
  refine hall.bind fun answer _ => ?_
  cases answer with
  | ok positions =>
    refine .pure fun p hp => ?_
    obtain ⟨q, hq, rfl⟩ := List.mem_map.1 hp
    obtain ⟨hsymbol, hscore⟩ := hg q (mem_of_mem_pick hq)
    exact ⟨hsymbol, hscore⟩
  | error fault =>
    refine .pure fun p hp => ?_
    obtain ⟨q, hq, rfl⟩ := List.mem_map.1 hp
    obtain ⟨hsymbol, hscore⟩ := hg q hq
    exact ⟨hsymbol, hscore⟩

theorem findPairs_scored {s : Setup (StateM σ)} {judge : Judge (StateM σ)}
    (hj : s.judge = some judge) (segments : List Segment) :
    Always (fun ps => ∀ p ∈ ps, Scored symbols p) (s.findPairs symbols segments) := by
  simp only [Setup.findPairs, hj]
  refine (Always.mapM fun g hg => relevantPairs_scored judge (candidateGroups_scored hg)).bind
    fun groups hgroups => .pure fun p hp => ?_
  obtain ⟨ps, hps, hp⟩ := List.mem_flatten.1 hp
  exact hgroups.2 ps hps p hp

/-- The pairs that a check compares. -/
def Setup.comparedPairs {m : Type → Type} [Monad m] (s : Setup m) (symbols : List Symbol)
    (segments : List Segment) : m (List (Pairing Float)) :=
  if symbols.isEmpty || segments.isEmpty then pure [] else s.findPairs symbols segments

/-- What is known of the pairs of a check on symbols: their confidences are from zero to one, and
if a judge is asked they are scores of the broad pass. -/
structure Setup.Compares (s : Setup (StateM σ)) (symbols : List Symbol) (p : Pairing Float) :
    Prop where
  inUnit : InUnit p.confidence
  scored : s.judge.isSome = true → Scored symbols p

theorem Setup.comparedPairs_compares (s : Setup (StateM σ)) (hshort : ∀ x ∈ symbols, x.Short)
    (segments : List Segment) :
    Always (fun ps => ∀ p ∈ ps, s.Compares symbols p) (s.comparedPairs symbols segments) := by
  rw [Setup.comparedPairs]
  split
  · exact .pure (by simp)
  cases hj : s.judge with
  | some judge =>
    exact (findPairs_scored hj segments).mono fun ps hps p hp =>
      ⟨(hps p hp).inUnit hshort, fun _ => hps p hp⟩
  | none =>
    simp only [Setup.findPairs, hj]
    refine .pure fun p hp => ?_
    simp only [Relevance.quickMatch, List.mem_flatMap, List.mem_filterMap] at hp
    obtain ⟨symbol, hsymbol, segment, -, hscore⟩ := hp
    exact ⟨Relevance.inUnit_quickScore? (hshort symbol hsymbol) hscore, by simp [hj]⟩

/-! ## The results of a check -/

section Answers
variable {m : Type → Type} [Monad m]

/-- What a judge says when it is asked about a pair, if there is a judge. -/
abbrev Answer := Option (Except JudgeError Verdict)

/-- Asks the judge about a pair. -/
def Setup.ask (s : Setup m) (p : Pairing Float) : m Answer :=
  match s.judge with
  | none => return none
  | some judge => do return some (← judge.analyze (Question.about p.symbol p.segment))

/-- The result of a pair, given the answer on it. -/
def settle (p : Pairing Float) : Answer → Result
  | none => unjudged p (p.reason ++ "; semantic check skipped")
  | some (.ok v) => judged p v.normalized
  | some (.error fault) =>
    unjudged p ("judge failed (" ++ fault.message ++
      "); falling back to matcher score: " ++ p.reason)

/-- The judge is asked about a pair once, and nothing else has a say in the result. -/
theorem judgePair_eq [LawfulMonad m] (s : Setup m) (p : Pairing Float) :
    s.judgePair p = settle p <$> s.ask p := by
  simp only [Setup.judgePair, Setup.ask]
  cases s.judge with
  | none => simp [settle]
  | some judge =>
    simp only [map_bind, map_pure]
    refine bind_congr fun answer => ?_
    cases answer <;> rfl

theorem mapM_judgePair [LawfulMonad m] (s : Setup m) (ps : List (Pairing Float)) :
    ps.mapM s.judgePair = List.zipWith settle ps <$> ps.mapM s.ask :=
  mapM_eq_zipWith (judgePair_eq s) ps

/-- The report on pairs, given the answers on them. -/
def Setup.conclude (s : Setup m) (symbols skipped segments : Nat) (ps : List (Pairing Float))
    (answers : List Answer) : Report :=
  let results := List.zipWith settle ps answers
  { totalSymbols := symbols
    totalSegments := segments
    relevantPairs := ps.length
    inconsistent := s.countViolations results
    skippedFiles := skipped
    results := results
    milliseconds := 0 }

theorem compare_eq [LawfulMonad m] (s : Setup m) (symbols : List Symbol) (skipped : Nat)
    (segments : List Segment) :
    s.compare symbols skipped segments = do
      let pairs ← s.comparedPairs symbols segments
      let answers ← pairs.mapM s.ask
      return s.conclude symbols.length skipped segments.length pairs answers := by
  simp only [Setup.compare, Setup.comparedPairs, mapM_judgePair, bind_map_left]
  split <;> rfl

end Answers

/-- Whether a result is sound in itself: its confidence is from zero to one, and what is not
related does not disagree. -/
structure Result.Sound (r : Result) : Prop where
  inUnit : InUnit r.confidence
  agrees : r.related = true ∨ r.consistent = true

/-- Whether a result stands for a pair that the judge failed on: nothing disagrees, and its
confidences are the score of the matcher. -/
structure Result.FellBack (r : Result) : Prop where
  related : r.related = true
  consistent : r.consistent = true
  score : ∃ q, broadScore? r.symbol r.segment = some q ∧
    r.confidence = q.confidence ∧ r.matchConfidence = q.confidence

theorem settle_sound {p : Pairing Float} (h : InUnit p.confidence) (a : Answer) :
    (settle p a).Sound := by
  match a with
  | none | some (.error _) => exact ⟨h, .inl rfl⟩
  | some (.ok v) => exact ⟨v.inUnit_normalized, v.normalized_agrees⟩

theorem settle_fellBack {p : Pairing Float} (h : Scored symbols p) (fault : JudgeError) :
    (settle p (some (.error fault))).FellBack := by
  obtain ⟨q, hq, hconfidence⟩ := h.score
  exact ⟨rfl, rfl, q, hq, hconfidence, hconfidence⟩

/-- Only a verdict can disagree. -/
theorem settle_consistent (p : Pairing Float) {a : Answer} (h : ∀ v, a ≠ some (.ok v)) :
    (settle p a).consistent = true := by
  match a with
  | none | some (.error _) => rfl
  | some (.ok v) => exact absurd rfl (h v)

theorem exists_of_mem_zipWith_settle {ps : List (Pairing Float)} {answers : List Answer}
    {r : Result} (h : r ∈ List.zipWith settle ps answers) :
    ∃ p ∈ ps, ∃ a ∈ answers, r = settle p a := by
  rw [← List.map_uncurry_zip_eq_zipWith] at h
  obtain ⟨⟨p, a⟩, hpa, rfl⟩ := List.mem_map.1 h
  obtain ⟨hp, ha⟩ := List.of_mem_zip hpa
  exact ⟨p, hp, a, ha, rfl⟩

theorem ask_isSome (s : Setup (StateM σ)) (p : Pairing Float) :
    Always (fun a => a.isSome = s.judge.isSome) (s.ask p) := by
  cases hj : s.judge with
  | none => simp only [Setup.ask, hj]; exact .pure rfl
  | some judge => simp only [Setup.ask, hj]; exact fun st => rfl

/-! ## A whole check -/

/-- What the judge is asked about in a check that runs from one state to another, pair by pair,
and its answers. -/
def Setup.Asks (s : Setup (StateM σ)) (diff : String) (segments : List Segment) (st : σ)
    (pairs : List (Pairing Float)) (answers : List Answer) (st' : σ) : Prop :=
  ∃ symbols stats st₁ st₂, (s.changedSymbols diff).run st = (.ok (symbols, stats), st₁) ∧
    (s.comparedPairs symbols segments).run st₁ = (pairs, st₂) ∧
    (pairs.mapM s.ask).run st₂ = (answers, st')

variable {s : Setup (StateM σ)} {diff : String} {segments : List Segment} {st st' : σ}

/-- A report concludes from the answers on its pairs. -/
theorem check_asks {report : Report} (h : (s.check diff segments).run st = (.ok report, st')) :
    ∃ pairs answers, s.Asks diff segments st pairs answers st' ∧
      ∃ symbols skipped, report = s.conclude symbols skipped segments.length pairs answers := by
  obtain ⟨found, st₁, hfound, h⟩ := run_bind_eq_iff.1 h
  cases found with
  | error fault => cases h
  | ok found =>
    obtain ⟨symbols, stats⟩ := found
    obtain ⟨_, _, hcompare, h⟩ := run_bind_eq_iff.1 h
    cases h
    rw [compare_eq] at hcompare
    obtain ⟨pairs, st₂, hpairs, hcompare⟩ := run_bind_eq_iff.1 hcompare
    obtain ⟨answers, _, hanswers, h⟩ := run_bind_eq_iff.1 hcompare
    cases h
    exact ⟨pairs, answers, ⟨symbols, stats, st₁, st₂, hfound, hpairs, hanswers⟩, _, _, rfl⟩

/-- What is known of pairs and answers of a run. -/
theorem Setup.Asks.kept (hrepo : Extraction.InMemory s.repository) {pairs : List (Pairing Float)}
    {answers : List Answer} (h : s.Asks diff segments st pairs answers st') :
    answers.length = pairs.length ∧ (∃ symbols, ∀ p ∈ pairs, s.Compares symbols p) ∧
      ∀ a ∈ answers, a.isSome = s.judge.isSome := by
  obtain ⟨symbols, stats, st₁, st₂, hsymbols, hpairs, hanswers⟩ := h
  have hshort := changedSymbols_short hrepo diff st
  rw [hsymbols] at hshort
  have hcompares := s.comparedPairs_compares (hshort symbols stats rfl) segments st₁
  have hasked := Always.mapM (fun p (_ : p ∈ pairs) => ask_isSome s p) st₂
  rw [hpairs] at hcompares
  rw [hanswers] at hasked
  exact ⟨hasked.1, ⟨symbols, hcompares⟩, hasked.2⟩

/-- The exit code of a check says whether a result is shown as failing, if the rules ask for
it. -/
theorem ofReport_code {report : Report} {settings : Settings}
    (h : report.inconsistent = (Report.failing report settings.rules.threshold).length) :
    (Outcome.ofReport settings report).code =
      if settings.rules.failOnInconsistent = true ∧
        Report.failing report settings.rules.threshold ≠ [] then 1 else 0 := by
  simp only [Outcome.ofReport, exitCode, Report.hasInconsistencies, h, Bool.and_eq_true,
    decide_eq_true_eq, List.length_pos_iff]
  exact if_congr and_comm rfl rfl

/-- **Whatever a judge answers**, with whatever threshold, a report counts one result for each
pair, and as inconsistent those that are shown as failing. A terminal shows the lines on each
result, which begin with its number and its mark, and marks as many of them as failing, if no text
that it is shown breaks a line; workflow commands mark the same results. A result has a confidence
from zero to one and never disagrees on what is not related. Where the judge fails on a pair the
result falls back to the score of the matcher, and if it fails on all of them nothing is
inconsistent. The command fails exactly when the rules ask for it and a result is shown as
failing. -/
theorem check_verdicts {report : Report} (hrepo : Extraction.InMemory s.repository)
    (h : (s.check diff segments).run st = (.ok report, st')) {settings : Settings}
    (ht : settings.rules.threshold = s.threshold) :
    report.relevantPairs = report.results.length ∧
    report.inconsistent = (Report.failing report s.threshold).length ∧
    Report.render report .text s.threshold = Report.ofLines (Report.opening report ++
      (report.results.zipIdx 1).flatMap (Report.resultLines s.threshold) ++
        Report.closing report) ∧
    ((∀ r ∈ report.results, Report.OneLine r) →
      (Report.failedNumbers (Report.render report .text s.threshold)).length =
        report.inconsistent) ∧
    Report.render report .githubActions s.threshold =
      Report.ofLines ((Report.failing report s.threshold).map Report.errorCommand ++
        [Report.summaryCommand report]) ∧
    (∀ r ∈ report.results, r.Sound) ∧
    (∃ pairs answers, s.Asks diff segments st pairs answers st' ∧
      pairs.length = report.results.length ∧ answers.length = report.results.length ∧
      (∀ (i : Nat) (p : Pairing Float) (fault : JudgeError),
        pairs[i]? = some p → answers[i]? = some (some (.error fault)) →
        ∃ r, report.results[i]? = some r ∧ r.symbol = p.symbol ∧ r.segment = p.segment ∧
          r.FellBack) ∧
      ((∀ a ∈ answers, ∀ v, a ≠ some (.ok v)) →
        report.hasInconsistencies = false ∧ (Outcome.ofReport settings report).code = 0)) ∧
    (Outcome.ofReport settings report).code =
      if settings.rules.failOnInconsistent = true ∧
        Report.failing report settings.rules.threshold ≠ [] then 1 else 0 := by
  obtain ⟨pairs, answers, hasks, symbols, skipped, hreport⟩ := check_asks h
  obtain ⟨hlength, ⟨changed, hcompares⟩, hsome⟩ := hasks.kept hrepo
  have hresults : report.results = List.zipWith settle pairs answers := by rw [hreport]; rfl
  have hpairs : report.relevantPairs = pairs.length := by rw [hreport]; rfl
  have hcount : report.results.length = pairs.length := by
    rw [hresults, List.length_zipWith, hlength, Nat.min_self]
  have hinconsistent : report.inconsistent = (Report.failing report s.threshold).length := by
    rw [Report.failing_eq, hreport]; rfl
  have hcode := @ofReport_code report settings (ht ▸ hinconsistent)
  refine ⟨hpairs.trans hcount.symm, hinconsistent, rfl, fun hlines => ?_,
    Report.annotations_eq _ _, ?_,
    ⟨pairs, answers, hasks, hcount.symm, hlength.trans hcount.symm, ?_, ?_⟩, hcode⟩
  · rw [hinconsistent, Report.failedNumbers_text hlines, Report.failing, List.length_map,
      List.length_map]
    exact congrArg (fun p => (List.filter p _).length) (Report.marksFailing_eq s.threshold).symm
  · intro r hr
    rw [hresults] at hr
    obtain ⟨p, hp, a, -, rfl⟩ := exists_of_mem_zipWith_settle hr
    exact settle_sound (hcompares p hp).inUnit a
  · intro i p fault hp ha
    -- Only a judge that is there can fail, and then the pairs are those of the broad pass.
    have hjudge : s.judge.isSome = true := (hsome _ (List.mem_of_getElem? ha)).symm
    have hscored := (hcompares p (List.mem_of_getElem? hp)).scored hjudge
    refine ⟨settle p (some (.error fault)), ?_, rfl, rfl, settle_fellBack hscored fault⟩
    rw [hresults, List.getElem?_zipWith, hp, ha]
  · intro hfails
    have hnone : Report.failing report s.threshold = [] := by
      rw [Report.failing_eq, List.filter_eq_nil_iff]
      intro r hr
      rw [hresults] at hr
      obtain ⟨p, -, a, ha, rfl⟩ := exists_of_mem_zipWith_settle hr
      simp [Result.isViolation, settle_consistent p (hfails a ha)]
    refine ⟨?_, ?_⟩
    · simp [Report.hasInconsistencies, hinconsistent, hnone]
    · rw [hcode, ht, hnone]
      simp

/-- A judge with another answer each time: no number on what is not related, a confidence far
too high, a failure. Among the positions that it finds relevant one stands twice, and one is
that of no candidate. -/
def fickleJudge : Judge (StateM Nat) where
  name := "fickle"
  analyze _ := do
    let calls ← get
    set (calls + 1)
    match calls with
    | 0 => return .ok ⟨false, false, 0 / 0, "", ""⟩
    | 1 => return .ok ⟨true, false, 1e300, "", ""⟩
    | _ => return .error .emptyResponse
  relevant _ _ := return .ok [2, 0, 2, 7, 1]

/-- A check with that judge. -/
def fickleSetup : Setup (StateM Nat) :=
  ⟨methodsRepository, some fickleJudge, defaultBase, defaultThreshold⟩

/-- Three segments on the methods. -/
def guideSegments : List Segment :=
  [guideSegment, { guideSegment with startLine := 3 }, { guideSegment with startLine := 5 }]

/-- One result of three is shown as failing, and the check fails. -/
theorem check_verdicts_fickle :
    ∃ report calls, (fickleSetup.check (Diff.printDiff [methodsAdded]) guideSegments).run 0 =
        (.ok report, calls) ∧
      report.results.map (fun r => (r.related, r.consistent, r.segment.startLine)) =
        [(false, true, 5), (true, false, 1), (true, true, 3)] ∧
      report.relevantPairs = 3 ∧
      (Report.failing report defaultThreshold).length = 1 ∧
      (Report.failedNumbers (Report.render report .text defaultThreshold)).length = 1 ∧
      (∀ r ∈ report.results, r.Sound) ∧
      (Outcome.ofReport Settings.standard report).code = 1 := by
  have hresults : ((fickleSetup.check (Diff.printDiff [methodsAdded]) guideSegments).run 0).1.map
      (fun report => (report.results.map fun r => (r.related, r.consistent, r.segment.startLine),
        report.inconsistent, decide (∀ r ∈ report.results, Report.OneLine r))) =
      .ok ([(false, true, 5), (true, false, 1), (true, true, 3)], 1, true) := by decide +kernel
  have hrepo : Extraction.InMemory fickleSetup.repository :=
    Extraction.inMemory_snapshot (by decide) (by decide)
  cases hrun : (fickleSetup.check (Diff.printDiff [methodsAdded]) guideSegments).run 0 with
  | mk outcome calls =>
    rw [hrun] at hresults
    cases outcome with
    | error fault => cases hresults
    | ok report =>
      obtain ⟨hresults, hone⟩ := Prod.mk.inj (Except.ok.inj hresults)
      obtain ⟨hone, hlines⟩ := Prod.mk.inj hone
      obtain ⟨hpairs, hinconsistent, -, hterminal, -, hsound, -, hcode⟩ :=
        @check_verdicts _ _ _ _ _ _ _ hrepo hrun
          Settings.standard rfl
      have hfailing : (Report.failing report defaultThreshold).length = 1 :=
        hinconsistent.symm.trans hone
      refine ⟨report, calls, rfl, hresults, ?_, hfailing,
        (hterminal (of_decide_eq_true hlines)).trans hone, hsound, ?_⟩
      · rw [hpairs, ← List.length_map, hresults]
        rfl
      · rw [hcode, if_pos]
        refine ⟨rfl, List.length_pos_iff.1 ?_⟩
        show 0 < (Report.failing report defaultThreshold).length
        rw [hfailing]
        exact Nat.one_pos

end Check
end StaleDocs
