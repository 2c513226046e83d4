/-
Reading a diff, as a run of single lines (`Scan.line`): what one line can do
to a section (`Section.feed_cases`) and to a scan (`Scan.line_cases`), what
every line keeps (`Scan.Kept`), and what the records of a diff cover in the
end: the lines that the hunk headers cover which were read in the sections
with the record's paths, however the sections were repeated and their hunks
sorted and joined on the way (`covered_parse`).

The headers that a scan reads are not kept by the scan itself, so they are
told by a second pass over the lines (`Scan.headers`) that asks at each line
whether the scan, as it stands, takes it for a header.
-/
import Mathlib.Data.List.Nodup
import StaleDocs.Diff.Parser
import StaleDocs.Proofs.Diff.Coverage

namespace StaleDocs

theorem Except.bind_ok_iff {ε α β : Type} {x : Except ε α} {f : α → Except ε β} {b : β} :
    (x >>= f) = .ok b ↔ ∃ a, x = .ok a ∧ f a = .ok b := by
  cases x with
  | error e => simp [bind, Except.bind]
  | ok a => simp [bind, Except.bind]

theorem Except.pure_ok_iff {ε α : Type} {a b : α} : (pure a : Except ε α) = .ok b ↔ a = b := by
  simp [pure, Except.pure]

/-- What every step of a run keeps holds at its end. -/
theorem Except.foldlM_kept {ε α β : Type} {step : β → α → Except ε β} {Kept : β → Prop}
    (hstep : ∀ s a t, Kept s → step s a = .ok t → Kept t) {l : List α} :
    ∀ {s t : β}, Kept s → l.foldlM step s = .ok t → Kept t := by
  induction l with
  | nil =>
    intro s t hs h
    rw [List.foldlM_nil, Except.pure_ok_iff] at h
    exact h ▸ hs
  | cons a l ih =>
    intro s t hs h
    rw [List.foldlM_cons, Except.bind_ok_iff] at h
    obtain ⟨u, hu, h⟩ := h
    exact ih (hstep s a u hs hu) h

instance decidableEqExcept {ε α : Type} [DecidableEq ε] [DecidableEq α] : DecidableEq (Except ε α)
  | .ok a, .ok b => decidable_of_iff (a = b) (by simp)
  | .error a, .error b => decidable_of_iff (a = b) (by simp)
  | .ok _, .error _ => isFalse (by simp)
  | .error _, .ok _ => isFalse (by simp)

namespace Diff
open Text (maxWord)

/-- The pair of paths that a record is about. -/
def FileChange.paths (c : FileChange) : String × String := (c.oldPath, c.newPath)

/-- The pair of paths that a section is about. -/
def Section.paths (s : Section) : String × String := (s.oldPath, s.newPath)

/-- The hunk that a scan reads from a line as a header, with the paths of the open section. -/
def Scan.header? (s : Scan) (line : List Char) : Option ((String × String) × Hunk) :=
  match filePaths? line, s.current with
  | none, some sec =>
    match sec.body? line, hunk? line with
    | none, .ok (some h) => some (sec.paths, h)
    | _, _ => none
  | _, _ => none

/-- The headers that a scan reads from lines, up to the first fault. -/
def Scan.headers (s : Scan) : List (List Char) → List ((String × String) × Hunk)
  | [] => []
  | line :: rest =>
    match s.line line with
    | .ok next => (s.header? line).toList ++ next.headers rest
    | .error _ => []

/-- The hunk headers of a diff, as they are read in the sections about a pair of paths. -/
def headersRead (diff : String) (paths : String × String) : List Hunk :=
  ((Scan.headers ⟨[], none⟩ (Text.lines diff.toList)).filter (·.1 = paths)).map (·.2)

/-! ## Records by their paths -/

theorem samePaths_iff {a b : FileChange} : a.samePaths b = true ↔ a.paths = b.paths := by
  simp [FileChange.samePaths, FileChange.paths]

@[simp] theorem merge_paths (a b : FileChange) : (a.merge b).paths = a.paths := rfl

/-- Recording a section adds its paths at the end, if they are new. -/
theorem record_paths (c : FileChange) (cs : List FileChange) :
    (record c cs).map (·.paths) =
      if c.paths ∈ cs.map (·.paths) then cs.map (·.paths) else cs.map (·.paths) ++ [c.paths] := by
  induction cs with
  | nil => simp [record]
  | cons f fs ih =>
    simp only [record, samePaths_iff]
    by_cases hp : f.paths = c.paths
    · simp [hp]
    · rw [if_neg hp, List.map_cons, ih]
      by_cases hm : c.paths ∈ fs.map (·.paths)
      · simp [hm]
      · simp [hm, Ne.symm hp]

/-- Whether the hunks of a record all fit. -/
def FileChange.Fits (c : FileChange) : Prop := ∀ h ∈ c.hunks, h.Fits

theorem FileChange.Fits.append {a b : FileChange} (ha : a.Fits) (hb : b.Fits) :
    ∀ h ∈ a.hunks ++ b.hunks, h.Fits := fun h hh => by
  rcases List.mem_append.1 hh with hh | hh
  · exact ha h hh
  · exact hb h hh

theorem FileChange.Fits.merge {a b : FileChange} (ha : a.Fits) (hb : b.Fits) : (a.merge b).Fits :=
  fits_normalize (ha.append hb)

/-- A merged record covers what the two cover. -/
theorem covered_merge {a b : FileChange} (ha : a.Fits) (hb : b.Fits) {n : Nat} :
    Covered (a.merge b).hunks n ↔ Covered a.hunks n ∨ Covered b.hunks n := by
  rw [← covered_append]
  exact covered_normalize (ha.append hb)

/-- Recording a section keeps what merging keeps. -/
theorem record_kept {Kept : FileChange → Prop} (hmerge : ∀ a b, Kept a → Kept b → Kept (a.merge b))
    {c : FileChange} (hc : Kept c) {cs : List FileChange} (hcs : ∀ f ∈ cs, Kept f) :
    ∀ f ∈ record c cs, Kept f := by
  induction cs with
  | nil => simpa [record] using hc
  | cons g gs ih =>
    have hg := hcs g (by simp)
    have hgs : ∀ f ∈ gs, Kept f := fun f hf => hcs f (by simp [hf])
    simp only [record]
    split
    · exact List.forall_mem_cons.2 ⟨hmerge g c hg hc, hgs⟩
    · exact List.forall_mem_cons.2 ⟨hg, ih hgs⟩

theorem record_fits {c : FileChange} (hc : c.Fits) {cs : List FileChange} (hcs : ∀ f ∈ cs, f.Fits) :
    ∀ f ∈ record c cs, f.Fits :=
  record_kept (fun _ _ => FileChange.Fits.merge) hc hcs

/-- Whether a line is covered in some record about a pair of paths. -/
def CoveredAt (cs : List FileChange) (paths : String × String) (n : Nat) : Prop :=
  ∃ c ∈ cs, c.paths = paths ∧ Covered c.hunks n

@[simp] theorem coveredAt_cons {c : FileChange} {cs : List FileChange} {p : String × String} {n : Nat} :
    CoveredAt (c :: cs) p n ↔ (c.paths = p ∧ Covered c.hunks n) ∨ CoveredAt cs p n := by
  simp [CoveredAt]

/-- Recording a section adds what it covers, for its own paths only. -/
theorem coveredAt_record {c : FileChange} (hc : c.Fits) {cs : List FileChange}
    (hcs : ∀ f ∈ cs, f.Fits) {p : String × String} {n : Nat} :
    CoveredAt (record c cs) p n ↔ CoveredAt cs p n ∨ (c.paths = p ∧ Covered c.hunks n) := by
  induction cs with
  | nil => simp [record, CoveredAt]
  | cons f fs ih =>
    have ih := ih fun x hx => hcs x (by simp [hx])
    simp only [record]
    split
    · next hsame =>
      have hp := samePaths_iff.1 hsame
      simp only [coveredAt_cons, merge_paths, covered_merge (hcs f (by simp)) hc, ← hp]
      tauto
    · simp only [coveredAt_cons, ih, or_assoc]

/-! ## One line -/

theorem hunk?_fits {line : List Char} {h : Hunk} (hh : hunk? line = .ok (some h)) : h.Fits := by
  simp only [hunk?] at hh
  split at hh
  · cases hh
  · simp only [Except.bind_ok_iff] at hh
    obtain ⟨a, -, b, -, c, -, d, -, hh⟩ := hh
    split at hh
    · next hle =>
      simp only [Except.pure_ok_iff, Option.some.injEq] at hh
      simp only [Bool.and_eq_true, decide_eq_true_eq] at hle
      subst hh
      exact ⟨hle.1, hle.2⟩
    · cases hh

theorem body?_kept {s t : Section} {line : List Char} (h : s.body? line = some t) :
    t.hunks = s.hunks ∧ t.paths = s.paths := by
  simp only [Section.body?] at h
  split at h
  · cases h
  · split at h <;> cases h <;> exact ⟨rfl, rfl⟩

theorem loose_kept (s : Section) (line : List Char) :
    (s.loose line).hunks = s.hunks ∧ (s.loose line).paths = s.paths := by
  simp only [Section.loose]
  split
  · split <;> exact ⟨rfl, rfl⟩
  · split <;> exact ⟨rfl, rfl⟩
  · exact ⟨rfl, rfl⟩

/-- A line outside of hunks announces the next one, or leaves the hunks as they are. -/
theorem Section.outside_cases {s t : Section} {line : List Char} (h : s.outside line = .ok t) :
    (∃ hk, hunk? line = .ok (some hk) ∧ t.hunks = hk :: s.hunks ∧ t.paths = s.paths) ∨
    (hunk? line = .ok none ∧ t.hunks = s.hunks ∧ t.paths = s.paths) := by
  simp only [Section.outside, Except.bind_ok_iff] at h
  obtain ⟨found, hf, h⟩ := h
  cases found with
  | some hk =>
    simp only [Except.pure_ok_iff] at h
    subst h
    exact .inl ⟨hk, hf, rfl, rfl⟩
  | none =>
    refine .inr ⟨hf, ?_⟩
    simp only at h
    split at h
    · simp only [Except.pure_ok_iff] at h
      subst h
      exact ⟨by simp_all, rfl⟩
    · simp only [Except.pure_ok_iff] at h
      subst h
      exact loose_kept _ _

/-- What a line does to the hunks of a section: nothing, unless it is read as a header. -/
theorem Section.feed_cases {s t : Section} {line : List Char} (h : s.feed line = .ok t) :
    (∃ hk, s.body? line = none ∧ hunk? line = .ok (some hk) ∧ t.hunks = hk :: s.hunks ∧
      t.paths = s.paths) ∨
    ((s.body? line = none → hunk? line = .ok none) ∧ t.hunks = s.hunks ∧ t.paths = s.paths) := by
  simp only [Section.feed] at h
  split at h
  · next u hu =>
    cases h
    exact .inr ⟨fun hn => by simp [hu] at hn, body?_kept hu⟩
  · next hn =>
    rcases Section.outside_cases h with ⟨hk, hhk, hrest⟩ | ⟨hhk, hrest⟩
    · exact .inl ⟨hk, hn, hhk, hrest⟩
    · exact .inr ⟨fun _ => hhk, hrest⟩

/-- What a line does to a scan: it opens a section, goes to the open one, or says nothing. -/
theorem Scan.line_cases {s t : Scan} {line : List Char} (h : s.line line = .ok t) :
    (∃ old new, filePaths? line = some (old, new) ∧ t = ⟨s.finish, some (Section.start old new)⟩) ∨
    (∃ sec next, filePaths? line = none ∧ s.current = some sec ∧ sec.feed line = .ok next ∧
      t = { s with current := some next }) ∨
    (filePaths? line = none ∧ s.current = none ∧ t = s) := by
  simp only [Scan.line] at h
  split at h
  · cases h
  split at h
  · cases h
  split at h
  · next old new hp =>
    cases h
    exact .inl ⟨old, new, hp, rfl⟩
  · next hp =>
    split at h
    · next hc =>
      cases h
      exact .inr (.inr ⟨hp, hc, rfl⟩)
    · next sec hc =>
      simp only [Except.bind_ok_iff, Except.pure_ok_iff] at h
      obtain ⟨next, hn, rfl⟩ := h
      exact .inr (.inl ⟨sec, next, hp, hc, hn, rfl⟩)

/-! ## Every line -/

/-- What a scan keeps from line to line: its hunks fit, and no two records have the same
paths. -/
structure Scan.Kept (s : Scan) : Prop where
  records : ∀ c ∈ s.changes, c.Fits
  current : ∀ sec, s.current = some sec → ∀ h ∈ sec.hunks, h.Fits
  distinct : (s.changes.map (·.paths)).Nodup

@[simp] theorem Section.change_paths (s : Section) : s.change.paths = s.paths := rfl

theorem Section.change_fits {s : Section} (h : ∀ x ∈ s.hunks, x.Fits) : s.change.Fits :=
  fits_normalize fun x hx => h x (List.mem_reverse.1 hx)

theorem Section.covered_change {s : Section} (h : ∀ x ∈ s.hunks, x.Fits) {n : Nat} :
    Covered s.change.hunks n ↔ Covered s.hunks n := by
  rw [Section.change, covered_normalize fun x hx => h x (List.mem_reverse.1 hx)]
  exact covered_congr fun _ => List.mem_reverse

theorem Scan.Kept.finish {s : Scan} (h : s.Kept) :
    (∀ c ∈ s.finish, c.Fits) ∧ (s.finish.map (·.paths)).Nodup := by
  simp only [Scan.finish]
  split
  · next sec hs =>
    refine ⟨record_fits (Section.change_fits (h.current sec hs)) h.records, ?_⟩
    rw [record_paths]
    split
    · exact h.distinct
    · next hm =>
      rw [← List.concat_eq_append]
      exact List.Nodup.concat hm h.distinct
  · exact ⟨h.records, h.distinct⟩

theorem Scan.Kept.line {s t : Scan} {line : List Char} (hs : s.Kept) (h : s.line line = .ok t) :
    t.Kept := by
  rcases Scan.line_cases h with ⟨old, new, -, rfl⟩ | ⟨sec, next, -, hc, hf, rfl⟩ | ⟨-, -, rfl⟩
  · refine ⟨hs.finish.1, fun sec hsec => ?_, hs.finish.2⟩
    cases hsec
    simp [Section.start]
  · refine ⟨hs.records, fun sec' hsec => ?_, hs.distinct⟩
    cases hsec
    have hfits := hs.current sec hc
    rcases Section.feed_cases hf with ⟨hk, -, hhk, hh, -⟩ | ⟨-, hh, -⟩
    · rw [hh]
      intro x hx
      rcases List.mem_cons.1 hx with rfl | hx
      · exact hunk?_fits hhk
      · exact hfits x hx
    · rw [hh]; exact hfits
  · exact hs

theorem Scan.Kept.start : Scan.Kept ⟨[], none⟩ := ⟨by simp, by simp, by simp⟩

/-- What the open section covers counts as if the section were finished. -/
theorem Scan.Kept.coveredAt_finish {s : Scan} (hs : s.Kept) {p : String × String} {n : Nat} :
    CoveredAt s.finish p n ↔
      CoveredAt s.changes p n ∨
        ∃ sec, s.current = some sec ∧ sec.paths = p ∧ Covered sec.hunks n := by
  simp only [Scan.finish]
  split
  · next sec hc =>
    have hf := hs.current sec hc
    rw [coveredAt_record (Section.change_fits hf) hs.records, Section.covered_change hf]
    simp [hc]
  · next hc => simp [hc]

/-- A line adds the range of the header that it is read as, if any, to what is covered. -/
theorem Scan.Kept.covered_line {s t : Scan} {line : List Char} (hs : s.Kept)
    (h : s.line line = .ok t) {p : String × String} {n : Nat} :
    CoveredAt t.finish p n ↔
      CoveredAt s.finish p n ∨ ∃ hk, s.header? line = some (p, hk) ∧ hk.Covers n := by
  have ht := hs.line h
  rcases Scan.line_cases h with ⟨old, new, hp, rfl⟩ | ⟨sec, next, hp, hc, hf, rfl⟩ | ⟨hp, hc, rfl⟩
  · rw [ht.coveredAt_finish]
    simp [Section.start, Scan.header?, hp]
  · rw [ht.coveredAt_finish, hs.coveredAt_finish]
    rcases Section.feed_cases hf with ⟨hk, hb, hhk, hh, hpaths⟩ | ⟨hnone, hh, hpaths⟩
    · simp only [Scan.header?, hp, hc, hb, hhk, hpaths, hh, Option.some.injEq, Prod.mk.injEq,
        exists_eq_left', covered_cons, and_assoc]
      grind
    · have hno : s.header? line = none := by
        simp only [Scan.header?, hp, hc]
        split
        · next hb hhk => rw [hnone hb] at hhk; cases hhk
        · rfl
      simp [hno, hc, hh, hpaths]
  · simp [Scan.header?, hp, hc]

/-! ## A whole diff -/

theorem foldlM_step {ls : List (List Char)} : ∀ {k : Nat} {s t : Scan},
    (ls.zipIdx k).foldlM Scan.step s = .ok t ↔ ls.foldlM Scan.line s = .ok t := by
  induction ls with
  | nil => intro k s t; simp [Except.pure_ok_iff]
  | cons l ls ih =>
    intro k s t
    simp only [List.zipIdx_cons, List.foldlM_cons, Except.bind_ok_iff, ih, Scan.step]
    constructor
    · rintro ⟨u, hu, h⟩
      split at hu
      · next hl => cases hu; exact ⟨_, hl, h⟩
      · cases hu
    · rintro ⟨u, hu, h⟩
      exact ⟨u, by rw [hu], h⟩

/-- Reading a diff is a run over its lines; the numbers of the lines only matter for faults. -/
theorem parse_ok_iff {diff : String} {cs : List FileChange} :
    parse diff = .ok cs ↔
      ∃ s, (Text.lines diff.toList).foldlM Scan.line ⟨[], none⟩ = .ok s ∧ s.finish = cs := by
  simp only [parse, Except.bind_ok_iff, foldlM_step, Except.pure_ok_iff]

theorem Scan.Kept.covered_run : ∀ {ls : List (List Char)} {s t : Scan}, s.Kept →
    ls.foldlM Scan.line s = .ok t → ∀ {p : String × String} {n : Nat},
      CoveredAt t.finish p n ↔
        CoveredAt s.finish p n ∨ ∃ hk, (p, hk) ∈ s.headers ls ∧ hk.Covers n
  | [], s, t, _, h => by
    rw [List.foldlM_nil, Except.pure_ok_iff] at h
    subst h
    simp [Scan.headers]
  | l :: ls, s, t, hs, h => by
    rw [List.foldlM_cons, Except.bind_ok_iff] at h
    obtain ⟨u, hu, h⟩ := h
    rw [(hs.line hu).covered_run h, hs.covered_line hu]
    simp only [Scan.headers, hu, List.mem_append, Option.mem_toList]
    grind

theorem parse_kept {diff : String} {cs : List FileChange} (h : parse diff = .ok cs) :
    (∀ c ∈ cs, c.Fits) ∧ (cs.map (·.paths)).Nodup := by
  obtain ⟨s, hs, rfl⟩ := parse_ok_iff.1 h
  exact (Except.foldlM_kept (fun _ _ _ => Scan.Kept.line) Scan.Kept.start hs).finish

/-- A record covers the lines of the hunk headers read in the sections with its paths. -/
theorem covered_parse {diff : String} {cs : List FileChange} (h : parse diff = .ok cs)
    {c : FileChange} (hc : c ∈ cs) {n : Nat} :
    Covered c.hunks n ↔ Covered (headersRead diff c.paths) n := by
  have hat : Covered c.hunks n ↔ CoveredAt cs c.paths n := by
    refine ⟨fun hn => ⟨c, hc, rfl, hn⟩, ?_⟩
    rintro ⟨d, hd, hp, hn⟩
    rwa [List.inj_on_of_nodup_map (parse_kept h).2 hd hc hp] at hn
  obtain ⟨s, hs, rfl⟩ := parse_ok_iff.1 h
  rw [hat, Scan.Kept.start.covered_run hs]
  simp [CoveredAt, Scan.finish, headersRead, Covered]

end Diff
end StaleDocs
