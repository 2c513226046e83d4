/-
The sections of a diff, one for each file header, before those about one pair
of paths are merged. Reading a diff is reading its sections and recording them
one after the other (`parse_eq`); what the records say can then be told from
the sections alone: the records have the paths of the sections, each pair at
its first appearance (`recordSections_paths`), and a section touches the
record with its own paths only (`recordOf?_recordSections`).

A section knows nothing of the records made before it, so its lines are read
on a scan without records (`Scan.step_eq`).
-/
import StaleDocs.Proofs.Diff.Scan
import StaleDocs.Proofs.Text.Written

namespace StaleDocs.Diff

deriving instance DecidableEq for Section

/-- The paths of the file headers of a diff, in order. -/
def sectionPaths (diff : String) : List (String × String) :=
  (Text.lines diff.toList).filterMap filePaths?

/-- Whether the first line of a diff is a file header. -/
def opensSection (diff : String) : Bool :=
  ((Text.lines diff.toList).head?.bind filePaths?).isSome

/-- The open section, if a line closes it. -/
def closedBy (current : Option Section) (line : List Char) : List Section :=
  if (filePaths? line).isSome then current.toList else []

/-- The sections of numbered lines, the first of which go to the open section. -/
def sectionsFrom (current : Option Section) :
    List (List Char × Nat) → Except Malformed (List Section)
  | [] => .ok current.toList
  | l :: ls => do
    let next ← Scan.step ⟨[], current⟩ l
    let rest ← sectionsFrom next.current ls
    return closedBy current l.1 ++ rest

/-- The sections of a diff, as they are before they are merged. -/
def sections (diff : String) : Except Malformed (List Section) :=
  sectionsFrom none ((Text.lines diff.toList).zipIdx 1)

/-- The records after some more sections. -/
def recordSections (cs : List FileChange) (ss : List Section) : List FileChange :=
  ss.foldl (fun cs s => record s.change cs) cs

/-- The sections of a diff given line by line. -/
theorem sections_writeLines {ls : List String} (h : ∀ l ∈ ls, '\n' ∉ l.toList) :
    sections (Text.writeLines ls) =
      sectionsFrom none ((ls.map fun l => Text.stripReturn l.toList).zipIdx 1) := by
  rw [sections, Text.lines_writeLines h]

theorem sectionPaths_writeLines {ls : List String} (h : ∀ l ∈ ls, '\n' ∉ l.toList) :
    sectionPaths (Text.writeLines ls) =
      (ls.map fun l => Text.stripReturn l.toList).filterMap filePaths? := by
  rw [sectionPaths, Text.lines_writeLines h]

/-! ## Records are made of sections -/

@[simp] theorem recordSections_nil (cs : List FileChange) : recordSections cs [] = cs := rfl

@[simp] theorem recordSections_cons (cs : List FileChange) (s : Section) (ss : List Section) :
    recordSections cs (s :: ss) = recordSections (record s.change cs) ss := rfl

theorem recordSections_append (cs : List FileChange) (ss ss' : List Section) :
    recordSections cs (ss ++ ss') = recordSections (recordSections cs ss) ss' :=
  List.foldl_append

theorem Scan.finish_eq (cs : List FileChange) (current : Option Section) :
    Scan.finish ⟨cs, current⟩ = recordSections cs current.toList := by
  cases current <;> rfl

/-- The records of a scan have no say in what a line does. -/
theorem Scan.line_eq (cs : List FileChange) (current : Option Section) (line : List Char) :
    Scan.line ⟨cs, current⟩ line =
      (Scan.line ⟨[], current⟩ line).map fun t =>
        ⟨recordSections cs (closedBy current line), t.current⟩ := by
  simp only [Scan.line, closedBy]
  split
  · rfl
  split
  · rfl
  cases hp : filePaths? line with
  | some paths => simp [Scan.finish_eq, Except.map]
  | none =>
    cases current with
    | none => rfl
    | some sec =>
      simp only
      cases sec.feed line <;> rfl

theorem Scan.step_eq (cs : List FileChange) (current : Option Section) (l : List Char × Nat) :
    Scan.step ⟨cs, current⟩ l =
      (Scan.step ⟨[], current⟩ l).map fun t =>
        ⟨recordSections cs (closedBy current l.1), t.current⟩ := by
  simp only [Scan.step, Scan.line_eq cs current]
  cases Scan.line ⟨[], current⟩ l.1 <;> rfl

theorem foldlM_step_eq {ls : List (List Char × Nat)} : ∀ {cs : List FileChange}
    {current : Option Section},
    (ls.foldlM Scan.step ⟨cs, current⟩).map Scan.finish =
      (sectionsFrom current ls).map (recordSections cs) := by
  induction ls with
  | nil => intro cs current; exact congrArg Except.ok (Scan.finish_eq cs current)
  | cons l ls ih =>
    intro cs current
    rw [List.foldlM_cons, Scan.step_eq, sectionsFrom]
    cases Scan.step ⟨[], current⟩ l with
    | error e => rfl
    | ok next =>
      change (ls.foldlM Scan.step _).map Scan.finish = _
      rw [ih]
      change _ = Except.map _ (sectionsFrom next.current ls >>= _)
      cases sectionsFrom next.current ls with
      | error e => rfl
      | ok rest => exact congrArg Except.ok (recordSections_append cs _ rest).symm

/-- Reading a diff is reading its sections and recording them in order. -/
theorem parse_eq (diff : String) : parse diff = (sections diff).map (recordSections []) := by
  rw [sections, ← foldlM_step_eq, parse]
  cases ((Text.lines diff.toList).zipIdx 1).foldlM Scan.step ⟨[], none⟩ <;> rfl

theorem parse_eq_ok_iff {diff : String} {cs : List FileChange} :
    parse diff = .ok cs ↔ ∃ ss, sections diff = .ok ss ∧ recordSections [] ss = cs := by
  rw [parse_eq]
  cases sections diff <;> simp [Except.map]

theorem parse_eq_error_iff {diff : String} {e : Malformed} :
    parse diff = .error e ↔ sections diff = .error e := by
  rw [parse_eq]
  cases sections diff <;> simp [Except.map]

/-! ## What is known of sections -/

theorem sectionsFrom_cons_ok {current : Option Section} {l : List Char × Nat}
    {ls : List (List Char × Nat)} {ss : List Section} :
    sectionsFrom current (l :: ls) = .ok ss ↔
      ∃ next rest, Scan.line ⟨[], current⟩ l.1 = .ok next ∧
        sectionsFrom next.current ls = .ok rest ∧ ss = closedBy current l.1 ++ rest := by
  simp only [sectionsFrom, Except.bind_ok_iff, Except.pure_ok_iff, Scan.step]
  constructor
  · rintro ⟨next, hnext, rest, hrest, rfl⟩
    split at hnext
    · next hline => cases hnext; exact ⟨_, rest, hline, hrest, rfl⟩
    · cases hnext
  · rintro ⟨next, rest, hline, hrest, rfl⟩
    exact ⟨next, by rw [hline], rest, hrest, rfl⟩

/-- The section that is open after a line has the paths of the line, or else those of the
section before. -/
theorem Scan.line_paths {s t : Scan} {line : List Char} (h : s.line line = .ok t) :
    t.current.map (·.paths) = (filePaths? line).or (s.current.map (·.paths)) := by
  rcases Scan.line_cases h with ⟨old, new, hp, rfl⟩ | ⟨sec, next, hp, hc, hf, rfl⟩ | ⟨hp, hc, rfl⟩
  · simp [hp, Section.start, Section.paths]
  · have hpaths : next.paths = sec.paths := by
      rcases Section.feed_cases hf with ⟨_, -, -, -, hpaths⟩ | ⟨-, -, hpaths⟩ <;> exact hpaths
    simp [hp, hc, hpaths]
  · simp [hp]

/-- There is a section for each file header, besides the one that is open. -/
theorem sectionsFrom_paths {ls : List (List Char × Nat)} : ∀ {current : Option Section}
    {ss : List Section}, sectionsFrom current ls = .ok ss →
    ss.map (·.paths) =
      (current.map (·.paths)).toList ++ (ls.map (·.1)).filterMap filePaths? := by
  induction ls with
  | nil =>
    intro current ss h
    cases h
    cases current <;> rfl
  | cons l ls ih =>
    intro current ss h
    obtain ⟨next, rest, hline, hrest, rfl⟩ := sectionsFrom_cons_ok.1 h
    rw [List.map_append, ih hrest, Scan.line_paths hline]
    cases hp : filePaths? l.1 <;> cases current <;> simp [closedBy, hp]

theorem sections_paths {diff : String} {ss : List Section} (h : sections diff = .ok ss) :
    ss.map (·.paths) = sectionPaths diff := by
  rw [sectionsFrom_paths h, List.zipIdx_map_fst]
  rfl

/-- Whether the hunks of a section all fit. -/
def Section.Fits (s : Section) : Prop := ∀ h ∈ s.hunks, h.Fits

theorem sectionsFrom_fits {ls : List (List Char × Nat)} : ∀ {current : Option Section}
    {ss : List Section}, (∀ s ∈ current, s.Fits) → sectionsFrom current ls = .ok ss →
    ∀ s ∈ ss, s.Fits := by
  induction ls with
  | nil =>
    intro current ss hc h s hs
    cases h
    exact hc s (Option.mem_toList.1 hs)
  | cons l ls ih =>
    intro current ss hc h s hs
    obtain ⟨next, rest, hline, hrest, rfl⟩ := sectionsFrom_cons_ok.1 h
    have hkept : Scan.Kept ⟨[], current⟩ := ⟨by simp, fun sec hsec => hc sec hsec, by simp⟩
    rcases List.mem_append.1 hs with hs | hs
    · simp only [closedBy] at hs
      split at hs
      · exact hc s (Option.mem_toList.1 hs)
      · cases hs
    · exact ih (fun sec hsec => (hkept.line hline).current sec hsec) hrest s hs

theorem sections_fits {diff : String} {ss : List Section} (h : sections diff = .ok ss) :
    ∀ s ∈ ss, s.Fits :=
  sectionsFrom_fits (by simp) h

/-! ## Records by their paths -/

/-- Records keep a property that sections have and that merging keeps. -/
theorem recordSections_kept {Kept : FileChange → Prop}
    (hmerge : ∀ a b, Kept a → Kept b → Kept (a.merge b)) {ss : List Section} :
    ∀ {cs : List FileChange}, (∀ c ∈ cs, Kept c) → (∀ s ∈ ss, Kept s.change) →
      ∀ c ∈ recordSections cs ss, Kept c := by
  induction ss with
  | nil => intro cs hcs _; exact hcs
  | cons s ss ih =>
    intro cs hcs hss
    have hs := hss s (by simp)
    exact ih (record_kept hmerge hs hcs) fun x hx => hss x (by simp [hx])

/-- The records have the paths of the sections, each pair at its first appearance. -/
theorem recordSections_paths (ss : List Section) :
    (recordSections [] ss).map (·.paths) = (ss.map (·.paths)).eraseDups := by
  induction ss using List.reverseRecOn with
  | nil => rfl
  | append_singleton ss s ih =>
    rw [recordSections_append, recordSections_cons, recordSections_nil, record_paths, ih,
      List.map_append, List.eraseDups_append, List.map_singleton]
    simp only [List.mem_eraseDups, Section.change_paths]
    by_cases hm : s.paths ∈ ss.map (·.paths)
    · have hnone : [s.paths].removeAll (ss.map (·.paths)) = [] :=
        List.filter_eq_nil_iff.2 (by simpa using hm)
      rw [if_pos hm, hnone, List.eraseDups_nil, List.append_nil]
    · have hone : [s.paths].removeAll (ss.map (·.paths)) = [s.paths] :=
        List.filter_eq_self.2 (by simpa using hm)
      rw [if_neg hm, hone, List.eraseDups_cons]
      rfl

/-- The record about a pair of paths. -/
def recordOf? (cs : List FileChange) (paths : String × String) : Option FileChange :=
  cs.find? fun c => c.paths = paths

theorem recordOf?_eq_some_iff {cs : List FileChange} (hn : (cs.map (·.paths)).Nodup)
    {p : String × String} {c : FileChange} :
    recordOf? cs p = some c ↔ c ∈ cs ∧ c.paths = p := by
  constructor
  · intro h
    exact ⟨List.mem_of_find?_eq_some h, by simpa using List.find?_some h⟩
  · rintro ⟨hc, rfl⟩
    cases hf : recordOf? cs c.paths with
    | none => simpa using List.find?_eq_none.1 hf c hc
    | some d =>
      have hd : d ∈ cs := List.mem_of_find?_eq_some hf
      have hp : d.paths = c.paths := by simpa using List.find?_some hf
      rw [List.inj_on_of_nodup_map hn hd hc hp]

theorem recordOf?_eq_none_iff {cs : List FileChange} {p : String × String} :
    recordOf? cs p = none ↔ p ∉ cs.map (·.paths) := by
  simp [recordOf?]

/-- A section goes into the record with its paths, and makes one if there is none. -/
theorem recordOf?_record (c : FileChange) (cs : List FileChange) (p : String × String) :
    recordOf? (record c cs) p =
      if c.paths = p then some (((recordOf? cs p).map (·.merge c)).getD c) else recordOf? cs p := by
  induction cs with
  | nil => by_cases hp : c.paths = p <;> simp [record, recordOf?, hp]
  | cons f fs ih =>
    simp only [record, samePaths_iff]
    by_cases hf : f.paths = c.paths
    · by_cases hp : c.paths = p <;> simp [recordOf?, hf, hp]
    · by_cases hp : c.paths = p
      · subst hp
        simpa [recordOf?, hf] using ih
      · by_cases hfp : f.paths = p <;> simp_all [recordOf?]

/-- Sections about other paths leave a record as it is. -/
theorem recordOf?_recordSections {p : String × String} {ss : List Section} :
    ∀ {cs : List FileChange}, p ∉ ss.map (·.paths) →
      recordOf? (recordSections cs ss) p = recordOf? cs p := by
  induction ss with
  | nil => intro cs _; rfl
  | cons s ss ih =>
    intro cs h
    simp only [List.map_cons, List.mem_cons, not_or] at h
    have hs : s.change.paths ≠ p := fun heq => h.1 heq.symm
    rw [recordSections_cons, ih h.2, recordOf?_record, if_neg hs]

end StaleDocs.Diff
