/-
A diff followed by another text. Where the text starts with a file header its
sections come after those of the diff (`sections_append`), so reading the two
together joins their records (`parse_append`): hunks of one file may then be
joined in another order, and only the lines that they cover are told.

Where the first line of the text is no file header, such as one with quoted
paths, the lines up to the next header still go to the last section of the
diff. The records with other paths stay as they are (`mem_parse_append`).
-/
import Mathlib.Data.List.Permutation
import StaleDocs.Proofs.Diff.Sections

namespace StaleDocs.Diff
open Text (writeLines)

/-- The same fault after `n` more lines. -/
def Malformed.later (n : Nat) (e : Malformed) : Malformed := ⟨e.line + n, e.cause⟩

/-! ## Sections of two texts -/

/-- A file header opens its section whatever section was open before. -/
theorem Scan.step_opened {l : List Char × Nat} (hl : (filePaths? l.1).isSome = true)
    (current : Option Section) :
    Scan.step ⟨[], current⟩ l =
      (Scan.step ⟨[], none⟩ l).map fun t => ⟨recordSections [] current.toList, t.current⟩ := by
  obtain ⟨paths, hp⟩ := Option.isSome_iff_exists.1 hl
  by_cases hlong : maxLineBytes < byteLength l.1
  · simp [Scan.step, Scan.line, hlong, Except.map]
  · by_cases hnul : '\x00' ∈ l.1
    · simp [Scan.step, Scan.line, hlong, hnul, Except.map]
    · simp [Scan.step, Scan.line, hlong, hnul, hp, Scan.finish_eq, Except.map]

theorem sectionsFrom_opened {l : List Char × Nat} (hl : (filePaths? l.1).isSome = true)
    (ls : List (List Char × Nat)) (current : Option Section) :
    sectionsFrom current (l :: ls) =
      (sectionsFrom none (l :: ls)).map fun ss => current.toList ++ ss := by
  simp only [sectionsFrom, closedBy, hl, if_true]
  rw [Scan.step_opened hl]
  cases Scan.step ⟨[], none⟩ l with
  | error e => rfl
  | ok next =>
    simp only [Except.map, bind, Except.bind]
    cases sectionsFrom next.current ls <;> rfl

theorem sectionsFrom_append {l : List Char × Nat} (hl : (filePaths? l.1).isSome = true)
    {ls' ls : List (List Char × Nat)} : ∀ {current : Option Section},
    sectionsFrom current (ls ++ l :: ls') = do
      let before ← sectionsFrom current ls
      let after ← sectionsFrom none (l :: ls')
      return before ++ after := by
  induction ls with
  | nil =>
    intro current
    rw [List.nil_append, sectionsFrom_opened hl]
    cases sectionsFrom none (l :: ls') <;> rfl
  | cons x ls ih =>
    intro current
    simp only [List.cons_append, sectionsFrom.eq_2 _ x]
    cases Scan.step ⟨[], current⟩ x with
    | error e => rfl
    | ok next =>
      simp only [bind, Except.bind]
      rw [ih]
      cases sectionsFrom next.current ls with
      | error e => rfl
      | ok before =>
        simp only [bind, Except.bind]
        cases sectionsFrom none (l :: ls') with
        | error e => rfl
        | ok after => simp [pure, Except.pure]

theorem sectionsFrom_later (n : Nat) (ls : List (List Char)) : ∀ (k : Nat)
    (current : Option Section),
    sectionsFrom current (ls.zipIdx (k + n)) =
      (sectionsFrom current (ls.zipIdx k)).mapError (Malformed.later n) := by
  induction ls with
  | nil => intro k current; rfl
  | cons l ls ih =>
    intro k current
    have hstep : Scan.step ⟨[], current⟩ (l, k + n) =
        (Scan.step ⟨[], current⟩ (l, k)).mapError (Malformed.later n) := by
      simp only [Scan.step]
      cases Scan.line ⟨[], current⟩ l <;> rfl
    rw [List.zipIdx_cons, List.zipIdx_cons, sectionsFrom, sectionsFrom, hstep,
      show k + n + 1 = k + 1 + n by omega]
    cases Scan.step ⟨[], current⟩ (l, k) with
    | error e => rfl
    | ok next =>
      simp only [Except.mapError, bind, Except.bind]
      rw [ih]
      cases sectionsFrom next.current (ls.zipIdx (k + 1)) <;> rfl

variable {d₁ d₂ : String}

theorem zipIdx_lines_append (hclosed : Text.Closed d₁.toList) (k : Nat) :
    (Text.lines (d₁ ++ d₂).toList).zipIdx k =
      (Text.lines d₁.toList).zipIdx k ++
        (Text.lines d₂.toList).zipIdx (k + (Text.lines d₁.toList).length) := by
  rw [String.toList_append, Text.lines_append hclosed, List.zipIdx_append]

/-- The sections of a diff, then those of a text that starts with a file header. Its lines are
numbered from the last one of the diff on. -/
theorem sections_append (hclosed : Text.Closed d₁.toList) (hopen : opensSection d₂ = true) :
    sections (d₁ ++ d₂) = do
      let before ← sections d₁
      let after ← (sections d₂).mapError (Malformed.later (Text.lines d₁.toList).length)
      return before ++ after := by
  obtain ⟨l, ls, hd₂, hl⟩ : ∃ l ls, Text.lines d₂.toList = l :: ls ∧
      (filePaths? l).isSome = true := by
    unfold opensSection at hopen
    cases hlines : Text.lines d₂.toList with
    | nil => simp [hlines] at hopen
    | cons l ls => exact ⟨l, ls, rfl, by simpa [hlines] using hopen⟩
  simp only [sections]
  rw [zipIdx_lines_append hclosed, ← sectionsFrom_later, hd₂, List.zipIdx_cons,
    sectionsFrom_append hl]

/-- Sections that are over keep as they are, whatever lines follow. -/
theorem sectionsFrom_append_ok {ls ls' : List (List Char × Nat)} : ∀ {current : Option Section}
    {ss ss' : List Section}, sectionsFrom current ls = .ok ss →
    sectionsFrom current (ls ++ ls') = .ok ss' →
    ∃ before last rest, ss = before ++ last.toList ∧ sectionsFrom last ls' = .ok rest ∧
      ss' = before ++ rest := by
  induction ls with
  | nil =>
    intro current ss ss' h h'
    cases h
    exact ⟨[], current, ss', rfl, h', rfl⟩
  | cons l ls ih =>
    intro current ss ss' h h'
    obtain ⟨next, after, hline, hafter, rfl⟩ := sectionsFrom_cons_ok.1 h
    obtain ⟨next', after', hline', hafter', rfl⟩ := sectionsFrom_cons_ok.1 h'
    cases hline.symm.trans hline'
    obtain ⟨before, last, rest, rfl, hrest, rfl⟩ := ih hafter hafter'
    exact ⟨closedBy current l.1 ++ before, last, rest, by simp, hrest, by simp⟩

/-- The sections about a pair of paths that no header of the second text names are the same in
both, unless the second text goes on with the last of them. -/
theorem sections_append_about (hclosed : Text.Closed d₁.toList) {ss ss' : List Section}
    (h : sections d₁ = .ok ss) (h' : sections (d₁ ++ d₂) = .ok ss') {p : String × String}
    (hp : p ∉ sectionPaths d₂)
    (hlast : opensSection d₂ = true ∨ (sectionPaths d₁).getLast? ≠ some p) :
    ∃ before after after', ss = before ++ after ∧ ss' = before ++ after' ∧
      p ∉ after.map (·.paths) ∧ p ∉ after'.map (·.paths) := by
  by_cases hopen : opensSection d₂ = true
  · rw [sections_append hclosed hopen, h] at h'
    cases h₂ : sections d₂ with
    | error e => rw [h₂] at h'; cases h'
    | ok ss₂ =>
      rw [h₂] at h'
      cases h'
      exact ⟨ss, [], ss₂, by simp, rfl, by simp, by rwa [sections_paths h₂]⟩
  · have hlast := hlast.resolve_left hopen
    have hpaths := sections_paths h
    simp only [sections] at h h'
    rw [zipIdx_lines_append hclosed] at h'
    obtain ⟨before, last, rest, rfl, hrest, rfl⟩ := sectionsFrom_append_ok h h'
    -- The section left open is the last of the diff, so it has other paths.
    have hopened : p ∉ last.toList.map (·.paths) := by
      cases last with
      | none => simp
      | some sec =>
        rw [← hpaths] at hlast
        simpa [eq_comm] using hlast
    refine ⟨before, last.toList, rest, rfl, rfl, hopened, ?_⟩
    rw [sectionsFrom_paths hrest, List.zipIdx_map_fst, List.mem_append, not_or]
    exact ⟨by simpa [eq_comm] using hopened, hp⟩

/-! ## Records of two diffs -/

/-- Whether a record says what two others about its paths say together. -/
structure FileChange.Joins (c a b : FileChange) : Prop where
  paths : c.paths = a.paths
  kind : c.kind = if a.kind = .modified then b.kind else a.kind
  added : c.addedLines = a.addedLines ++ b.addedLines
  removed : c.removedLines = a.removedLines ++ b.removedLines
  covered : ∀ n, Covered c.hunks n ↔ Covered a.hunks n ∨ Covered b.hunks n

/-- Whether records say what two lists of records say together. Pairs of paths that only one
of them has keep their record. -/
structure Joined (as bs cs : List FileChange) : Prop where
  distinct : (cs.map (·.paths)).Nodup
  paths : cs.map (·.paths) =
    as.map (·.paths) ++ (bs.map (·.paths)).filter (· ∉ as.map (·.paths))
  left : ∀ a ∈ as, a.paths ∉ bs.map (·.paths) → a ∈ cs
  right : ∀ b ∈ bs, b.paths ∉ as.map (·.paths) → b ∈ cs
  both : ∀ a ∈ as, ∀ b ∈ bs, a.paths = b.paths → ∃ c ∈ cs, c.Joins a b

theorem merge_joins {a b : FileChange} (ha : a.Fits) (hb : b.Fits) : (a.merge b).Joins a b :=
  ⟨rfl, rfl, rfl, rfl, fun _ => covered_merge ha hb⟩

/-- One more section makes the joined record of the longer one. -/
theorem FileChange.Joins.merge {a b c d : FileChange} (h : c.Joins a b) (hb : b.Fits) (hc : c.Fits)
    (hd : d.Fits) : (c.merge d).Joins a (b.merge d) := by
  refine ⟨h.paths, ?_, ?_, ?_, fun n => ?_⟩
  · simp only [FileChange.merge, h.kind]
    by_cases ha : a.kind = .modified <;> simp [ha]
  · simp [FileChange.merge, h.added]
  · simp [FileChange.merge, h.removed]
  · rw [covered_merge hc hd, covered_merge hb hd, h.covered, or_assoc]

/-- What the records about one pair of paths are. -/
def JoinedAt (a b c : Option FileChange) : Prop :=
  match a, b with
  | none, b => c = b
  | some a, none => c = some a
  | some a, some b => ∃ d, c = some d ∧ d.Joins a b

/-- What two runs of records keep that are given the same sections, where one of them starts
with the records `as`. -/
structure JoinedRun (as bs cs : List FileChange) : Prop where
  left : ∀ a ∈ as, a.Fits
  right : ∀ b ∈ bs, b.Fits
  joined : ∀ c ∈ cs, c.Fits
  paths : cs.map (·.paths) =
    as.map (·.paths) ++ (bs.map (·.paths)).filter (· ∉ as.map (·.paths))
  records : ∀ p, JoinedAt (recordOf? as p) (recordOf? bs p) (recordOf? cs p)

theorem JoinedRun.nil {as : List FileChange} (h : ∀ a ∈ as, a.Fits) : JoinedRun as [] as := by
  refine ⟨h, by simp, h, by simp, fun p => ?_⟩
  cases hp : recordOf? as p <;> simp [JoinedAt, recordOf?]

theorem JoinedRun.record {as bs cs : List FileChange} {c : FileChange} (h : JoinedRun as bs cs)
    (hc : c.Fits) : JoinedRun as (record c bs) (record c cs) := by
  refine ⟨h.left, record_fits hc h.right, record_fits hc h.joined, ?_, fun p => ?_⟩
  · rw [record_paths, record_paths, h.paths]
    generalize as.map (·.paths) = ps, bs.map (·.paths) = qs
    by_cases hps : c.paths ∈ ps <;> by_cases hqs : c.paths ∈ qs <;> simp [hps, hqs]
  · have hrec := h.records p
    rw [recordOf?_record, recordOf?_record]
    -- The record with the paths of the section grows in both runs, any other one in neither.
    by_cases hp : c.paths = p
    · rw [if_pos hp, if_pos hp]
      cases ha : recordOf? as p with
      | none =>
        rw [ha] at hrec
        simp only [JoinedAt] at hrec ⊢
        rw [hrec]
      | some a =>
        have hfa := h.left a (List.mem_of_find?_eq_some ha)
        cases hb : recordOf? bs p with
        | none =>
          rw [ha, hb] at hrec
          simp only [JoinedAt] at hrec
          rw [hrec]
          exact ⟨_, rfl, merge_joins hfa hc⟩
        | some b =>
          rw [ha, hb] at hrec
          obtain ⟨d, hd, hjoins⟩ := hrec
          have hfb := h.right b (List.mem_of_find?_eq_some hb)
          have hfd := h.joined d (List.mem_of_find?_eq_some hd)
          rw [hd]
          exact ⟨_, rfl, hjoins.merge hfb hfd hc⟩
    · rw [if_neg hp, if_neg hp]
      exact hrec

theorem JoinedRun.sections {as : List FileChange} {ss : List Section} : ∀ {bs cs : List FileChange},
    JoinedRun as bs cs → (∀ s ∈ ss, s.Fits) →
    JoinedRun as (recordSections bs ss) (recordSections cs ss) := by
  induction ss with
  | nil => intro bs cs h _; exact h
  | cons s ss ih =>
    intro bs cs h hss
    have hs := Section.change_fits (hss s (by simp))
    exact ih (h.record hs) fun x hx => hss x (by simp [hx])

/-- A run from records on, once it is over. -/
theorem JoinedRun.join {as bs cs : List FileChange} (h : JoinedRun as bs cs)
    (has : (as.map (·.paths)).Nodup) (hbs : (bs.map (·.paths)).Nodup)
    (hcs : (cs.map (·.paths)).Nodup) : Joined as bs cs := by
  refine ⟨hcs, h.paths, fun a ha hb => ?_, fun b hb ha => ?_, fun a ha b hb hp => ?_⟩
  · have hrec := h.records a.paths
    rw [(recordOf?_eq_some_iff has).2 ⟨ha, rfl⟩, recordOf?_eq_none_iff.2 hb] at hrec
    exact ((recordOf?_eq_some_iff hcs).1 hrec).1
  · have hrec := h.records b.paths
    rw [recordOf?_eq_none_iff.2 ha, (recordOf?_eq_some_iff hbs).2 ⟨hb, rfl⟩] at hrec
    exact ((recordOf?_eq_some_iff hcs).1 hrec).1
  · have hrec := h.records a.paths
    rw [(recordOf?_eq_some_iff has).2 ⟨ha, rfl⟩,
      (recordOf?_eq_some_iff hbs).2 ⟨hb, hp.symm⟩] at hrec
    obtain ⟨c, hc, hjoins⟩ := hrec
    exact ⟨c, ((recordOf?_eq_some_iff hcs).1 hc).1, hjoins⟩

/-- **A section goes into the record with its own paths** and leaves the others as they are,
whatever comes after a diff. Only the last section of the diff may go on, and only where the
text that follows does not start with a file header. -/
theorem mem_parse_append (hclosed : Text.Closed d₁.toList) {cs cs' : List FileChange}
    (h : parse d₁ = .ok cs) (h' : parse (d₁ ++ d₂) = .ok cs') {c : FileChange} (hc : c ∈ cs)
    (hp : c.paths ∉ sectionPaths d₂)
    (hlast : opensSection d₂ = true ∨ (sectionPaths d₁).getLast? ≠ some c.paths) : c ∈ cs' := by
  have hrecord : recordOf? cs c.paths = some c :=
    (recordOf?_eq_some_iff (parse_kept h).2).2 ⟨hc, rfl⟩
  have hdistinct := (parse_kept h').2
  obtain ⟨ss, hss, rfl⟩ := parse_eq_ok_iff.1 h
  obtain ⟨ss', hss', rfl⟩ := parse_eq_ok_iff.1 h'
  obtain ⟨before, after, after', rfl, rfl, hafter, hafter'⟩ :=
    sections_append_about hclosed hss hss' hp hlast
  rw [recordSections_append, recordOf?_recordSections hafter,
    ← recordOf?_recordSections hafter', ← recordSections_append] at hrecord
  exact ((recordOf?_eq_some_iff hdistinct).1 hrecord).1

/-- Changes of two files. -/
def twoFiles : String :=
  writeLines
    ["diff --git a/b.go b/b.go", "@@ -3 +3 @@", "-var B = 0", "+var B = 1",
      "diff --git a/a.go b/a.go", "@@ -1,3 +1,3 @@", " package p", " ", "-var A = 0", "+var A = 1"]

def changeB : FileChange :=
  ⟨"b.go", "b.go", .modified, [⟨3, 1, 3, 1⟩], ["var B = 1"], ["var B = 0"]⟩

def changeA : FileChange :=
  ⟨"a.go", "a.go", .modified, [⟨1, 3, 1, 3⟩], ["var A = 1"], ["var A = 0"]⟩

theorem parse_twoFiles : parse twoFiles = .ok [changeB, changeA] := by
  refine parse_eq_ok_iff.2
    ⟨[⟨"b.go", "b.go", .modified, [⟨3, 1, 3, 1⟩], ["var B = 1"], ["var B = 0"], 0, 0⟩,
      ⟨"a.go", "a.go", .modified, [⟨1, 3, 1, 3⟩], ["var A = 1"], ["var A = 0"], 0, 0⟩], ?_, by cbv⟩
  rw [twoFiles, sections_writeLines (by decide +kernel)]
  decide +kernel

/-- A new file whose paths are quoted, as they have letters beyond ASCII. -/
def quotedFile : String :=
  writeLines
    ["diff --git \"a/caf\\303\\251.go\" \"b/caf\\303\\251.go\"", "new file mode 100644",
      "--- /dev/null", "+++ \"b/caf\\303\\251.go\"", "@@ -0,0 +1,5 @@",
      "+package p", "+", "+var C = 1", "+", "+var D = 1"]

/-- The record of the second file, grown by the lines of the quoted file. -/
def grownA : FileChange :=
  ⟨"a.go", "a.go", .modified, [⟨0, 4, 1, 5⟩],
    ["var A = 1", "package p", "", "var C = 1", "", "var D = 1"], ["var A = 0"]⟩

theorem parse_twoFiles_quotedFile :
    parse (twoFiles ++ quotedFile) = .ok [changeB, grownA] := by
  refine parse_eq_ok_iff.2
    ⟨[⟨"b.go", "b.go", .modified, [⟨3, 1, 3, 1⟩], ["var B = 1"], ["var B = 0"], 0, 0⟩,
      ⟨"a.go", "a.go", .modified, [⟨0, 0, 1, 5⟩, ⟨1, 3, 1, 3⟩], grownA.addedLines.reverse,
        ["var A = 0"], 0, 0⟩], ?_, by cbv⟩
  rw [twoFiles, quotedFile, Text.writeLines_append, sections_writeLines (by decide +kernel)]
  decide +kernel

/-- The lines of the quoted file go to the last record of the diff before it; the other one
stays. -/
theorem mem_parse_append_quotedFile :
    Text.Closed twoFiles.toList ∧ parse twoFiles = .ok [changeB, changeA] ∧
    parse (twoFiles ++ quotedFile) = .ok [changeB, grownA] ∧
    changeB.paths ∉ sectionPaths quotedFile ∧ changeA.paths ∉ sectionPaths quotedFile ∧
    (sectionPaths twoFiles).getLast? ≠ some changeB.paths ∧
    changeB ∈ [changeB, grownA] ∧ changeA ∉ [changeB, grownA] := by
  have hclosed : Text.Closed twoFiles.toList := Text.closed_writeLines _
  have hnone : ∀ p, p ∉ sectionPaths quotedFile := by
    have hpaths : sectionPaths quotedFile = [] := by
      rw [quotedFile, sectionPaths_writeLines (by decide +kernel)]
      decide +kernel
    simp [hpaths]
  have hlast : (sectionPaths twoFiles).getLast? ≠ some changeB.paths := by
    rw [twoFiles, sectionPaths_writeLines (by decide +kernel)]
    decide +kernel
  exact ⟨hclosed, parse_twoFiles, parse_twoFiles_quotedFile, hnone _, hnone _, hlast,
    mem_parse_append hclosed parse_twoFiles parse_twoFiles_quotedFile (by simp) (hnone _)
      (.inr hlast),
    by decide⟩

/-- **Reading a diff followed by one that starts with a file header** fails where the first
diff does, or else where the second does, counting on its lines; if neither fails it gives the
records of both, joined pair of paths by pair of paths. -/
theorem parse_append (hclosed : Text.Closed d₁.toList) (hopen : opensSection d₂ = true) :
    (∀ e, parse d₁ = .error e → parse (d₁ ++ d₂) = .error e) ∧
    (∀ as e, parse d₁ = .ok as → parse d₂ = .error e →
      parse (d₁ ++ d₂) = .error ⟨e.line + (Text.lines d₁.toList).length, e.cause⟩) ∧
    (∀ as bs, parse d₁ = .ok as → parse d₂ = .ok bs →
      ∃ cs, parse (d₁ ++ d₂) = .ok cs ∧ Joined as bs cs) := by
  have hsections := sections_append hclosed hopen
  refine ⟨fun e h => ?_, fun as e h₁ h₂ => ?_, fun as bs h₁ h₂ => ?_⟩
  · rw [parse_eq_error_iff] at h ⊢
    rw [hsections, h]
    rfl
  · obtain ⟨ss, hss, -⟩ := parse_eq_ok_iff.1 h₁
    rw [parse_eq_error_iff] at h₂ ⊢
    rw [hsections, hss, h₂]
    rfl
  · obtain ⟨ss₁, hss₁, has⟩ := parse_eq_ok_iff.1 h₁
    obtain ⟨ss₂, hss₂, hbs⟩ := parse_eq_ok_iff.1 h₂
    have hboth : sections (d₁ ++ d₂) = .ok (ss₁ ++ ss₂) := by
      rw [hsections, hss₁, hss₂]
      rfl
    have hparse : parse (d₁ ++ d₂) = .ok (recordSections as ss₂) :=
      parse_eq_ok_iff.2 ⟨_, hboth, by rw [recordSections_append, has]⟩
    have hrun : JoinedRun as bs (recordSections as ss₂) :=
      hbs ▸ (JoinedRun.nil (parse_kept h₁).1).sections (sections_fits hss₂)
    exact ⟨_, hparse, hrun.join (parse_kept h₁).2 (parse_kept h₂).2 (parse_kept hparse).2⟩

/-- More changes of the second file, and a new file. -/
def laterChanges : String :=
  writeLines
    ["diff --git a/a.go b/a.go", "@@ -3 +3,2 @@", "-var A = 1", "+var A = 2", "+var AA = 2",
      "diff --git a/c.go b/c.go", "new file mode 100644", "@@ -0,0 +1 @@", "+package p"]

def laterA : FileChange :=
  ⟨"a.go", "a.go", .modified, [⟨3, 1, 3, 2⟩], ["var A = 2", "var AA = 2"], ["var A = 1"]⟩

def changeC : FileChange :=
  ⟨"c.go", "c.go", .added, [⟨0, 0, 1, 1⟩], ["package p"], []⟩

theorem parse_laterChanges : parse laterChanges = .ok [laterA, changeC] := by
  refine parse_eq_ok_iff.2
    ⟨[⟨"a.go", "a.go", .modified, [⟨3, 1, 3, 2⟩], ["var AA = 2", "var A = 2"], ["var A = 1"], 0, 0⟩,
      ⟨"c.go", "c.go", .added, [⟨0, 0, 1, 1⟩], ["package p"], [], 0, 0⟩], ?_, by cbv⟩
  rw [laterChanges, sections_writeLines (by decide +kernel)]
  decide +kernel

/-- A section with a hunk number beyond the greatest line number. -/
def beyondRange : String :=
  writeLines ["diff --git a/a.go b/a.go", "@@ -1 +18446744073709551616 @@", "+package p"]

theorem parse_beyondRange :
    parse beyondRange = .error ⟨2, .number "18446744073709551616"⟩ := by
  rw [parse_eq_error_iff, beyondRange, sections_writeLines (by decide +kernel)]
  decide +kernel

/-- The second file keeps one record, the fault is found ten lines later after the two files,
and on its own line before them. -/
theorem parse_append_laterChanges :
    (∃ cs, parse (twoFiles ++ laterChanges) = .ok cs ∧
      Joined [changeB, changeA] [laterA, changeC] cs) ∧
    parse (twoFiles ++ beyondRange) = .error ⟨12, .number "18446744073709551616"⟩ ∧
    parse (beyondRange ++ twoFiles) = .error ⟨2, .number "18446744073709551616"⟩ := by
  have hopens : opensSection laterChanges = true ∧ opensSection beyondRange = true ∧
      opensSection twoFiles = true := by
    simp only [opensSection, laterChanges, beyondRange, twoFiles]
    rw [Text.lines_writeLines (by decide +kernel), Text.lines_writeLines (by decide +kernel),
      Text.lines_writeLines (by decide +kernel)]
    decide +kernel
  have hlength : (Text.lines twoFiles.toList).length = 10 := by
    rw [twoFiles, Text.lines_writeLines (by decide +kernel)]
    rfl
  have hlater := @parse_append twoFiles laterChanges (Text.closed_writeLines _) hopens.1
  have hbeyond := @parse_append twoFiles beyondRange (Text.closed_writeLines _) hopens.2.1
  have hbefore := @parse_append beyondRange twoFiles (Text.closed_writeLines _) hopens.2.2
  refine ⟨hlater.2.2 _ _ parse_twoFiles parse_laterChanges, ?_, hbefore.1 _ parse_beyondRange⟩
  rw [hbeyond.2.1 _ _ parse_twoFiles parse_beyondRange, hlength]

end StaleDocs.Diff
