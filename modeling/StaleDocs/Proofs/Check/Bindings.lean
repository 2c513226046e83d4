/-
The check of bindings keeps what it has read of each file. As long as the
files stay as they are this cannot be seen (`checkBindings_anew`): the report
and the questions to the judge are those of a check that reads the file of
each binding anew. What carries the proof is that the files read so far are
those of the bindings passed, each once and as it is (`Cached`).
-/
import Mathlib.Data.List.ReduceOption
import StaleDocs.Proofs.Check.Verdicts

namespace StaleDocs.Check
open Docs (Segment Binding)
open Go (Declaration)
open Judge (JudgeError Question Verdict)
open Relevance (Pairing)
open Repository (LookupError)

/-! ## A check that reads every file anew -/

/-- The pair that a binding makes with its declaration. -/
def boundPair (b : Binding) (d : Declaration) : Pairing Float :=
  ⟨boundSymbol b (some d), b.segment, 1, "explicit binding"⟩

section Anew
variable {m : Type → Type} [Monad m]

/-- The result of a binding, given the declarations of its file. The judge, if there is one, is
asked once if its declaration is among them, about the text of that. -/
def Setup.bindingResult (s : Setup m) (b : Binding) (ds : List Declaration) : m Result :=
  match Declaration.find? ds b.symbol b.kind, s.judge with
  | none, _ => return missing b
  | some d, none => return settle (boundPair b d) none
  | some d, some judge => do
    let answer ← judge.analyze ⟨b.docContent, d.code, b.symbol, b.codeFile⟩
    return settle (boundPair b d) (some answer)

/-- The result of a binding whose file is read anew, if the file can be read and parsed. -/
def Setup.outcome (s : Setup m) (b : Binding) : m (Option Result) := do
  match ← s.readSource b.codeFile with
  | none => return none
  | some ds => return some (← s.bindingResult b ds)

/-- The report on bindings, given the results that there are and the files that were skipped. -/
def Setup.concludeBindings (s : Setup m) (bs : List Binding) (results : List Result)
    (skipped : List String) : Report :=
  { totalSymbols := bs.length
    totalSegments := bs.length
    relevantPairs := results.length
    inconsistent := s.countViolations results
    skippedFiles := skipped.eraseDups.length
    results := results
    milliseconds := 0 }

/-- The report on bindings, with the file of each binding read anew. -/
def Setup.checkBindingsAnew (s : Setup m) (bs : List Binding) : m Report := do
  let outcomes ← bs.mapM s.outcome
  let skipped := (bs.zip outcomes).filter fun outcome => outcome.2.isNone
  return s.concludeBindings bs outcomes.reduceOption (skipped.map fun outcome => outcome.1.codeFile)

/-- The judge is asked about the text of the declaration, whatever that is. -/
theorem question_boundPair (b : Binding) (d : Declaration) :
    Question.about (boundPair b d).symbol (boundPair b d).segment =
      ⟨b.docContent, d.code, b.symbol, b.codeFile⟩ := by
  have hcode : (boundSymbol b (some d)).code = d.code := by
    change (if d.code.isEmpty then "" else d.code) = d.code
    split
    · next h => exact (String.isEmpty_iff.1 h).symm
    · rfl
  simp only [Question.about, boundPair, hcode]
  rfl

theorem judgeBinding_eq [LawfulMonad m] (s : Setup m) (b : Binding) (ds : List Declaration) :
    s.judgeBinding b ds = s.bindingResult b ds := by
  simp only [Setup.judgeBinding, Setup.bindingResult]
  cases Declaration.find? ds b.symbol b.kind with
  | none => rfl
  | some d =>
    change s.judgePair (boundPair b d) = _
    rw [judgePair_eq, Setup.ask]
    cases s.judge with
    | none => simp
    | some judge => simp [question_boundPair]

end Anew

/-! ## Files that stay as they are -/

section Steady
variable {σ : Type}

/-- The declarations of a file, if it can be read and parsed. -/
def declarationsIn (files : String → Except LookupError String) (path : String) :
    Option (List Declaration) :=
  match files path with
  | .ok text => Go.declarations? text
  | .error _ => none

/-- Whether the files of a check stay as they are while it runs: reading one changes nothing,
and no question to the judge changes what is read. -/
structure Setup.Steady (s : Setup (StateM σ)) (files : σ → String → Except LookupError String) :
    Prop where
  read : ∀ path st, (s.repository.current path).run st = (files st path, st)
  kept : ∀ judge, s.judge = some judge → ∀ question st,
    files ((judge.analyze question).run st).2 = files st

variable {s : Setup (StateM σ)} {files : σ → String → Except LookupError String}

/-- A repository held as a value is steady with any judge. -/
theorem Setup.Steady.of_pure {F : String → Except LookupError String}
    (h : ∀ path, s.repository.current path = pure (F path)) : s.Steady fun _ => F where
  read path st := by rw [h]; rfl
  kept _ _ _ _ := rfl

theorem Setup.Steady.readSource (h : s.Steady files) (path : String) (st : σ) :
    (s.readSource path).run st = (declarationsIn (files st) path, st) := by
  rw [Setup.readSource, StateT.run_bind, h.read, declarationsIn]
  cases files st path <;> rfl

theorem Setup.Steady.bindingResult (h : s.Steady files) (b : Binding) (ds : List Declaration)
    (st : σ) : files ((s.bindingResult b ds).run st).2 = files st := by
  simp only [Setup.bindingResult]
  split
  · rfl
  · rfl
  · next judge _ hj => exact h.kept judge hj _ st

/-- The bindings to a file that can be read and parsed, with its declarations. -/
def readable (files : String → Except LookupError String) (bs : List Binding) :
    List (Binding × List Declaration) :=
  bs.filterMap fun b => (declarationsIn files b.codeFile).map fun ds => (b, ds)

/-- The code files of bindings that cannot be read or parsed. -/
def unreadable (files : String → Except LookupError String) (bs : List Binding) : List String :=
  (bs.map (·.codeFile)).filter fun path => (declarationsIn files path).isNone

def Setup.knownResults (s : Setup (StateM σ)) (files : String → Except LookupError String)
    (bs : List Binding) : StateM σ (List Result) :=
  (readable files bs).mapM fun known => s.bindingResult known.1 known.2

theorem knownResults_of_none {F : String → Except LookupError String} {b : Binding}
    (hb : declarationsIn F b.codeFile = none) (bs : List Binding) :
    s.knownResults F (b :: bs) = s.knownResults F bs := by
  simp only [Setup.knownResults, readable, List.filterMap_cons, hb, Option.map_none]

theorem run_knownResults_of_some {F : String → Except LookupError String} {b : Binding}
    {ds : List Declaration} (hb : declarationsIn F b.codeFile = some ds) (bs : List Binding)
    {st st₁ : σ} {first : Result} (hfirst : (s.bindingResult b ds).run st = (first, st₁)) :
    (s.knownResults F (b :: bs)).run st =
      (first :: ((s.knownResults F bs).run st₁).1, ((s.knownResults F bs).run st₁).2) := by
  simp only [Setup.knownResults, readable, List.filterMap_cons, hb, Option.map_some]
  rw [List.mapM_cons, StateT.run_bind, hfirst]
  rfl

/-! ## Reading anew -/

theorem Setup.Steady.outcome_of_none (h : s.Steady files) {b : Binding} {st : σ}
    (hb : declarationsIn (files st) b.codeFile = none) : (s.outcome b).run st = (none, st) := by
  rw [Setup.outcome, StateT.run_bind, h.readSource, hb]
  rfl

theorem Setup.Steady.outcome_of_some (h : s.Steady files) {b : Binding} {st st₁ : σ}
    {ds : List Declaration} (hb : declarationsIn (files st) b.codeFile = some ds) {first : Result}
    (hfirst : (s.bindingResult b ds).run st = (first, st₁)) :
    (s.outcome b).run st = (some first, st₁) := by
  rw [Setup.outcome, StateT.run_bind, h.readSource, hb]
  change (s.bindingResult b ds >>= fun r => pure (some r)).run st = _
  rw [StateT.run_bind, hfirst]
  rfl

/-- The outcomes of bindings are their results, in order, with none for each binding to a file
that cannot be read or parsed. -/
theorem Setup.Steady.outcomes (h : s.Steady files) {F : String → Except LookupError String}
    (bs : List Binding) {st : σ} (hst : files st = F) :
    ∃ outcomes, (bs.mapM s.outcome).run st = (outcomes, ((s.knownResults F bs).run st).2) ∧
      outcomes.reduceOption = ((s.knownResults F bs).run st).1 ∧
      ((bs.zip outcomes).filter fun outcome => outcome.2.isNone).map
        (fun outcome => outcome.1.codeFile) = unreadable F bs := by
  induction bs generalizing st with
  | nil => exact ⟨[], rfl, rfl, rfl⟩
  | cons b bs ih =>
    cases hb : declarationsIn F b.codeFile with
    | none =>
      obtain ⟨outcomes, hrun, hresults, hskipped⟩ := ih hst
      refine ⟨none :: outcomes, ?_, ?_, ?_⟩
      · rw [run_mapM_cons (h.outcome_of_none (hst ▸ hb)), hrun, knownResults_of_none hb]
      · rw [List.reduceOption_cons_of_none, hresults, knownResults_of_none hb]
      · simpa [unreadable, hb] using hskipped
    | some ds =>
      cases hfirst : (s.bindingResult b ds).run st with
      | mk first st₁ =>
        -- The judge may have moved the state, but not what is read in it.
        have hst₁ : files st₁ = F := by simpa [hfirst, hst] using h.bindingResult b ds st
        obtain ⟨outcomes, hrun, hresults, hskipped⟩ := ih hst₁
        refine ⟨some first :: outcomes, ?_, ?_, ?_⟩
        · rw [run_mapM_cons (h.outcome_of_some (hst ▸ hb) hfirst), hrun,
            run_knownResults_of_some hb bs hfirst]
        · rw [List.reduceOption_cons_of_some, hresults, run_knownResults_of_some hb bs hfirst]
        · simpa [unreadable, hb] using hskipped

/-! ## Reading once -/

/-- Whether files read so far are as they are, each there once. -/
structure Cached (F : String → Except LookupError String) (sources : Sources) : Prop where
  current : ∀ source ∈ sources, source.2 = declarationsIn F source.1
  nodup : (sources.map (·.1)).Nodup

theorem Cached.nil (F : String → Except LookupError String) : Cached F [] where
  current := by simp
  nodup := .nil

/-- A file is read once, and always as it is. -/
theorem Setup.Steady.source (h : s.Steady files) {F : String → Except LookupError String}
    {sources : Sources} (hc : Cached F sources) (path : String) {st : σ} (hst : files st = F) :
    ∃ sources', (s.source sources path).run st = ((declarationsIn F path, sources'), st) ∧
      Cached F sources' ∧
      ∀ p, p ∈ sources'.map (·.1) ↔ p ∈ sources.map (·.1) ∨ p = path := by
  rw [Setup.source]
  cases hlookup : sources.lookup path with
  | some ds =>
    have hmem : (path, ds) ∈ sources := mem_of_lookup hlookup
    have hds : ds = declarationsIn F path := hc.current _ hmem
    refine ⟨sources, hds ▸ rfl, hc, fun p => ?_⟩
    constructor
    · exact .inl
    · rintro (hp | rfl)
      · exact hp
      · exact List.mem_map_of_mem hmem
  | none =>
    have hnew : path ∉ sources.map (·.1) := by
      intro hpath
      obtain ⟨source, hsource, rfl⟩ := List.mem_map.1 hpath
      simpa using List.lookup_eq_none_iff.1 hlookup source hsource
    refine ⟨(path, declarationsIn F path) :: sources, ?_, ⟨?_, ?_⟩, fun p => ?_⟩
    · rw [StateT.run_bind, h.readSource, hst]
      rfl
    · exact List.forall_mem_cons.2 ⟨rfl, hc.current⟩
    · exact List.nodup_cons.2 ⟨hnew, hc.nodup⟩
    · rw [List.map_cons, List.mem_cons, or_comm]

/-- The results of bindings are those known, whatever was read of the files before, and their
files have been read then. -/
theorem Setup.Steady.bindingResults (h : s.Steady files) {F : String → Except LookupError String}
    (bs : List Binding) {st : σ} (hst : files st = F) {sources : Sources} (hc : Cached F sources) :
    ∃ sources', (s.bindingResults sources bs).run st =
        ((((s.knownResults F bs).run st).1, sources'), ((s.knownResults F bs).run st).2) ∧
      Cached F sources' ∧
      ∀ p, p ∈ sources'.map (·.1) ↔ p ∈ sources.map (·.1) ∨ p ∈ bs.map (·.codeFile) := by
  -- The files read so far and the state go on to the next binding, hence both are general.
  induction bs generalizing st sources with
  | nil => exact ⟨sources, rfl, hc, fun p => by simp⟩
  | cons b bs ih =>
    obtain ⟨sources₁, hsource, hc₁, hkeys₁⟩ := h.source hc b.codeFile hst
    have hkeys {sources' : Sources} (hkeys' : ∀ p, p ∈ sources'.map (·.1) ↔
        p ∈ sources₁.map (·.1) ∨ p ∈ bs.map (·.codeFile)) (p : String) :
        p ∈ sources'.map (·.1) ↔ p ∈ sources.map (·.1) ∨ p ∈ (b :: bs).map (·.codeFile) := by
      rw [hkeys', hkeys₁, List.map_cons, List.mem_cons, or_assoc]
    rw [Setup.bindingResults, StateT.run_bind, hsource]
    cases hb : declarationsIn F b.codeFile with
    | none =>
      obtain ⟨sources', hrun, hc', hkeys'⟩ := ih hst hc₁
      exact ⟨sources', by rw [knownResults_of_none hb, ← hrun]; rfl, hc', hkeys hkeys'⟩
    | some ds =>
      cases hfirst : (s.bindingResult b ds).run st with
      | mk first st₁ =>
        have hst₁ : files st₁ = F := by simpa [hfirst, hst] using h.bindingResult b ds st
        obtain ⟨sources', hrun, hc', hkeys'⟩ := ih hst₁ hc₁
        refine ⟨sources', ?_, hc', hkeys hkeys'⟩
        rw [run_knownResults_of_some hb bs hfirst]
        change (s.judgeBinding b ds >>= fun first => s.bindingResults sources₁ bs >>= fun rest =>
          pure (first :: rest.1, rest.2)).run st = _
        rw [judgeBinding_eq, StateT.run_bind, hfirst]
        change (s.bindingResults sources₁ bs >>= fun rest =>
          pure (first :: rest.1, rest.2)).run st₁ = _
        rw [StateT.run_bind, hrun]
        rfl

/-- As many of the files read could not be read or parsed as there are such files. -/
theorem Cached.skipped {F : String → Except LookupError String} {sources : Sources}
    (hc : Cached F sources) {bs : List Binding}
    (hkeys : ∀ p, p ∈ sources.map (·.1) ↔ p ∈ bs.map (·.codeFile)) :
    (sources.filter fun source => source.2.isNone).length = (unreadable F bs).eraseDups.length := by
  -- Both sides list the same paths without repetition, though in another order.
  have hnodup : ((sources.filter fun source => source.2.isNone).map (·.1)).Nodup :=
    hc.nodup.sublist ((List.filter_sublist).map _)
  have hperm : ((sources.filter fun source => source.2.isNone).map (·.1)).Perm
      (unreadable F bs).eraseDups := by
    refine (List.perm_ext_iff_of_nodup hnodup (nodup_eraseDups _)).2 fun p => ?_
    rw [List.mem_eraseDups, unreadable, List.mem_filter, ← hkeys, List.mem_map, List.mem_map]
    constructor
    · rintro ⟨source, hsource, rfl⟩
      obtain ⟨hmem, hnone⟩ := List.mem_filter.1 hsource
      exact ⟨⟨source, hmem, rfl⟩, hc.current source hmem ▸ hnone⟩
    · rintro ⟨⟨source, hmem, rfl⟩, hnone⟩
      exact ⟨source, List.mem_filter.2 ⟨hmem, hc.current source hmem ▸ hnone⟩, rfl⟩
  rw [← hperm.length_eq, List.length_map]

theorem Setup.Steady.run_checkBindings (h : s.Steady files) (bs : List Binding) (st : σ) :
    (s.checkBindings bs).run st =
      (s.concludeBindings bs ((s.knownResults (files st) bs).run st).1 (unreadable (files st) bs),
        ((s.knownResults (files st) bs).run st).2) := by
  obtain ⟨sources, hrun, hc, hkeys⟩ := h.bindingResults bs rfl (.nil (files st))
  have hread : ∀ p, p ∈ sources.map (·.1) ↔ p ∈ bs.map (·.codeFile) := fun p => by simp [hkeys]
  have hskipped := hc.skipped hread
  rw [Setup.checkBindings, StateT.run_bind, hrun]
  change (_, _) = (_, _)
  simp only [Setup.concludeBindings, hskipped]

theorem Setup.Steady.run_checkBindingsAnew (h : s.Steady files) (bs : List Binding) (st : σ) :
    (s.checkBindingsAnew bs).run st =
      (s.concludeBindings bs ((s.knownResults (files st) bs).run st).1 (unreadable (files st) bs),
        ((s.knownResults (files st) bs).run st).2) := by
  obtain ⟨outcomes, hrun, hresults, hskipped⟩ := h.outcomes bs (rfl : files st = files st)
  rw [Setup.checkBindingsAnew, StateT.run_bind, hrun]
  change (_, _) = (_, _)
  rw [hresults, hskipped]

/-- **As long as the files stay as they are**, a check of bindings is the same step as one that
reads the file of each binding anew, whatever the judge is and does: the same report, after the
same questions to the judge. Its results are, in order, those of the bindings to a file that can
be read and parsed, the other files are counted once each, and a declaration that is not in its
file makes a certain inconsistency without a question to the judge. -/
theorem checkBindings_anew (h : s.Steady files) (bs : List Binding) :
    s.checkBindings bs = s.checkBindingsAnew bs ∧
    (∀ st, (s.checkBindings bs).run st = StateT.run (do
        let results ← (readable (files st) bs).mapM fun known => s.bindingResult known.1 known.2
        return s.concludeBindings bs results (unreadable (files st) bs)) st) ∧
    ∀ b, (missing b).related = true ∧ (missing b).consistent = false ∧
      (missing b).confidence = 1 := by
  refine ⟨?_, fun st => h.run_checkBindings bs st, fun b => ⟨rfl, rfl, rfl⟩⟩
  funext st
  exact (h.run_checkBindings bs st).trans (h.run_checkBindingsAnew bs st).symm

end Steady

/-- A source file of two methods, and one that is no source file. -/
def boundFiles : String → Except LookupError String :=
  Repository.Snapshot.current? ⟨[], [("p.go", sameNamedMethods), ("notes.go", ")")], [], false⟩

def boundSetup : Setup (StateM Nat) :=
  { fickleSetup with
    repository := { methodsRepository with current := fun path => pure (boundFiles path) } }

def guideBinding (codeFile symbol : String) : Binding :=
  ⟨"guide.md", 2, 4, codeFile, .function, symbol, "runs"⟩

/-- Bindings to the methods, to a name that is not there, and twice to each file that cannot be
read or parsed. -/
def guideBindings : List Binding :=
  [guideBinding "p.go" "F", guideBinding "gone.go" "F", guideBinding "p.go" "G",
    guideBinding "notes.go" "F", guideBinding "p.go" "F", guideBinding "gone.go" "G",
    guideBinding "notes.go" "G", guideBinding "p.go" "F"]

theorem readable_guideBindings :
    readable boundFiles guideBindings =
      [(guideBinding "p.go" "F", methodDeclarations), (guideBinding "p.go" "G", methodDeclarations),
        (guideBinding "p.go" "F", methodDeclarations), (guideBinding "p.go" "F", methodDeclarations)] ∧
      unreadable boundFiles guideBindings = ["gone.go", "notes.go", "gone.go", "notes.go"] := by
  have hsource : declarationsIn boundFiles "p.go" = some methodDeclarations :=
    declarations?_sameNamedMethods
  have hnotes : declarationsIn boundFiles "notes.go" = none := by decide +kernel
  have hgone : declarationsIn boundFiles "gone.go" = none := rfl
  simp [readable, unreadable, guideBindings, guideBinding, hsource, hnotes, hgone]

/-- Two files are skipped, and the judge is asked three times. -/
theorem checkBindings_anew_guide :
    boundSetup.checkBindings guideBindings = boundSetup.checkBindingsAnew guideBindings ∧
    ((boundSetup.checkBindings guideBindings).run 0).2 = 3 ∧
    ((boundSetup.checkBindings guideBindings).run 0).1.skippedFiles = 2 ∧
    ((boundSetup.checkBindings guideBindings).run 0).1.results.map
        (fun r => (r.symbol.name, r.related, r.consistent)) =
      [("F", false, true), ("G", true, false), ("F", true, false), ("F", true, true)] := by
  have hsteady : boundSetup.Steady fun _ => boundFiles := .of_pure fun _ => rfl
  obtain ⟨hanew, hrun, -⟩ := checkBindings_anew hsteady guideBindings
  obtain ⟨hreadable, hunreadable⟩ := readable_guideBindings
  refine ⟨hanew, ?_⟩
  rw [hrun, hreadable, hunreadable]
  decide +kernel

end StaleDocs.Check
