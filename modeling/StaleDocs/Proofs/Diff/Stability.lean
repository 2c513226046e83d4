/-
A file header that is repeated behind a diff opens a section without content,
which brings the hunks of its record to normal form once more
(`parse_repeatedHeader`). That may change them: hunks are sorted by their new
side and then by the old one, and joining two of them can move the old start
of the first. So where an empty hunk stands before another on the same new
line, the two may change places, and the empty one is then joined as well.

What a list must be like to stay as it is can be told from the starts of its
hunks (`normalize_eq_iff`). A second time settles every list, since joining
hunks that were apart takes empty ones in and moves nothing
(`Resorted.join_place`).
-/
import StaleDocs.Proofs.Diff.Faults
import StaleDocs.Proofs.Diff.NormalForm
import StaleDocs.Proofs.Diff.RoundTrip

namespace StaleDocs.Diff
open Text (stripReturn writeLines)

/-- Whether hunks that start on one new line are in the order of their old sides. -/
def Settled (hs : List Hunk) : Prop :=
  hs.Pairwise fun a b => a.newStart = b.newStart → a.oldStart ≤ b.oldStart

instance : DecidablePred Settled := fun hs => inferInstanceAs (Decidable (hs.Pairwise _))

/-! ## Sorting again -/

/-- In normal form only the order on one new line is left to be sorted. -/
theorem NormalForm.settled_iff {hs : List Hunk} (hn : NormalForm hs) :
    Settled hs ↔ hs.Pairwise fun a b => a.precedes b = true := by
  constructor
  · intro h
    refine (hn.apart.and h).imp fun {a b} hab => ?_
    have hbefore := hab.1
    rw [precedes_iff]
    unfold Hunk.Before at hbefore
    by_cases heq : a.newStart = b.newStart
    · exact .inr ⟨heq, hab.2 heq⟩
    · exact .inl (by omega)
  · intro h
    refine h.imp fun {a b} hab heq => ?_
    rw [precedes_iff] at hab
    omega

theorem normalize_of_settled {hs : List Hunk} (hn : NormalForm hs) (h : Settled hs) :
    normalize hs = hs := by
  rw [normalize, List.mergeSort_of_pairwise (hn.settled_iff.1 h)]
  cases hs with
  | nil => rfl
  | cons h hs => exact coalesceFrom_of_apart hn.apart

/-- What sorting and joining ask of a hunk. -/
def Hunk.place (h : Hunk) : Nat × Nat × Nat := (h.newStart, h.oldStart, h.newCount)

/-- Hunks of a normal form in the order in which they are sorted. -/
structure Resorted (hs : List Hunk) : Prop where
  fits : ∀ h ∈ hs, h.Fits
  ordered : hs.Pairwise fun a b => a.precedes b = true
  apart : hs.Pairwise fun a b => a.Before b ∨ b.Before a

theorem NormalForm.resorted {hs : List Hunk} (hn : NormalForm hs) :
    Resorted (hs.mergeSort Hunk.precedes) where
  fits := fun h hh => hn.fits h (List.mem_mergeSort.1 hh)
  ordered := pairwise_precedes_mergeSort hs
  apart := (List.mergeSort_perm hs _).pairwise_iff (fun h => h.symm) |>.2
    (hn.apart.imp fun h => .inl h)

theorem Resorted.tail {h : Hunk} {hs : List Hunk} (hr : Resorted (h :: hs)) : Resorted hs :=
  ⟨fun x hx => hr.fits x (by simp [hx]), hr.ordered.of_cons, hr.apart.of_cons⟩

/-- A hunk that is joined to the one before it is empty, and leaves that one in its place. -/
theorem Resorted.join_place {a b : Hunk} {hs : List Hunk} (hr : Resorted (a :: b :: hs))
    (hlt : b.newStart < a.newEnd) : (a.join b).place = a.place := by
  have ha := hr.fits a (by simp)
  have hb := hr.fits b (by simp)
  have hordered := (List.pairwise_cons.1 hr.ordered).1 b (by simp)
  have hapart := (List.pairwise_cons.1 hr.apart).1 b (by simp)
  rw [precedes_iff] at hordered
  rw [ha.newEnd] at hlt
  unfold Hunk.Before at hapart
  -- The hunk is not behind `a`, so it ends where `a` starts, and holds nothing.
  have hempty : b.newStart = a.newStart ∧ b.newCount = 0 ∧ a.oldStart ≤ b.oldStart := by omega
  obtain ⟨hstart, hcount, hold⟩ := hempty
  simp only [Hunk.place, Hunk.join, ha.newEnd, hb.newEnd, Prod.mk.injEq, true_and]
  omega

theorem Resorted.join {a b : Hunk} {hs : List Hunk} (hr : Resorted (a :: b :: hs))
    (hlt : b.newStart < a.newEnd) : Resorted (a.join b :: hs) := by
  have hplace := hr.join_place hlt
  simp only [Hunk.place, Prod.mk.injEq] at hplace
  obtain ⟨hnew, hold, hcount⟩ := hplace
  have hordered := (List.pairwise_cons.1 hr.ordered).1
  have hapart := (List.pairwise_cons.1 hr.apart).1
  refine ⟨fun x hx => ?_, List.pairwise_cons.2 ⟨fun x hx => ?_, hr.tail.tail.ordered⟩,
    List.pairwise_cons.2 ⟨fun x hx => ?_, hr.tail.tail.apart⟩⟩
  · rcases List.mem_cons.1 hx with rfl | hx
    · exact (hr.fits a (by simp)).join (hr.fits b (by simp))
    · exact hr.fits x (by simp [hx])
  · rw [precedes_iff, hnew, hold, ← precedes_iff]
    exact hordered x (by simp [hx])
  · unfold Hunk.Before
    rw [hnew, hcount]
    exact hapart x (by simp [hx])

/-- Joining drops some hunks and keeps the places of the others. -/
theorem places_coalesceFrom {hs : List Hunk} : ∀ {last : Hunk}, Resorted (last :: hs) →
    ((coalesceFrom last hs).map Hunk.place).Sublist ((last :: hs).map Hunk.place) := by
  induction hs with
  | nil => intro last _; exact List.Sublist.refl _
  | cons h hs ih =>
    intro last hr
    simp only [coalesceFrom]
    split
    · next hlt =>
      refine (ih (hr.join hlt)).trans ?_
      rw [List.map_cons, hr.join_place hlt]
      exact ((List.sublist_cons_self h hs).map Hunk.place).cons_cons _
    · exact (ih hr.tail).cons_cons _

/-- Hunks in normal form are settled by bringing them to normal form again. -/
theorem settled_normalize {hs : List Hunk} (hn : NormalForm hs) : Settled (normalize hs) := by
  have hsub : ((normalize hs).map Hunk.place).Sublist
      ((hs.mergeSort Hunk.precedes).map Hunk.place) := by
    have hr := hn.resorted
    rw [normalize]
    cases hsort : hs.mergeSort Hunk.precedes with
    | nil => exact List.Sublist.refl _
    | cons h rest => exact places_coalesceFrom (hsort ▸ hr)
  have hplaces : ((hs.mergeSort Hunk.precedes).map Hunk.place).Pairwise
      fun p q => p.1 = q.1 → p.2.1 ≤ q.2.1 := by
    refine List.pairwise_map.2 (hn.resorted.ordered.imp fun {a b} hab => ?_)
    rw [precedes_iff] at hab
    simp only [Hunk.place]
    omega
  exact List.pairwise_map.1 (hplaces.sublist hsub)

/-- A list in normal form is its own normal form exactly when it is settled. -/
theorem normalize_eq_iff {hs : List Hunk} (hn : NormalForm hs) :
    normalize hs = hs ↔ Settled hs :=
  ⟨fun h => h ▸ settled_normalize hn, normalize_of_settled hn⟩

theorem normalize_normalize {hs : List Hunk} (hn : NormalForm hs) :
    normalize (normalize hs) = normalize hs :=
  normalize_of_settled (normalForm_normalize hn.fits) (settled_normalize hn)

theorem normalForm_of_parse {diff : String} {cs : List FileChange} (h : parse diff = .ok cs) :
    ∀ c ∈ cs, NormalForm c.hunks := by
  obtain ⟨ss, hss, rfl⟩ := parse_eq_ok_iff.1 h
  refine recordSections_kept (fun a b => NormalForm.merge) (by simp) fun s hs => ?_
  exact normalForm_normalize fun x hx => sections_fits hss s hs x (List.mem_reverse.1 hx)

/-! ## A header once more -/

/-- A record whose hunks are brought to normal form again, if it is about these paths. -/
def FileChange.renormalized (paths : Option (String × String)) (c : FileChange) : FileChange :=
  if paths = some c.paths then { c with hunks := normalize c.hunks } else c

theorem FileChange.renormalized_eq_iff {paths : Option (String × String)} {c : FileChange}
    (hn : NormalForm c.hunks) :
    c.renormalized paths = c ↔ (paths = some c.paths → Settled c.hunks) := by
  unfold FileChange.renormalized
  split
  · next hp =>
    rw [← normalize_eq_iff hn]
    exact ⟨fun h _ => congrArg FileChange.hunks h, fun h => by rw [h hp]⟩
  · next hp => simp [hp]

theorem FileChange.renormalized_renormalized {paths : Option (String × String)} {c : FileChange}
    (hn : NormalForm c.hunks) : (c.renormalized paths).renormalized paths = c.renormalized paths := by
  by_cases hp : paths = some c.paths
  · have hagain : paths = some ({ c with hunks := normalize c.hunks } : FileChange).paths := hp
    rw [FileChange.renormalized, FileChange.renormalized, if_pos hp, if_pos hagain,
      normalize_normalize hn]
  · rw [FileChange.renormalized, FileChange.renormalized, if_neg hp, if_neg hp]

/-- A section without content only brings the hunks of its record to normal form. -/
theorem record_start {old new : String} {cs : List FileChange} (hn : (cs.map (·.paths)).Nodup)
    (hmem : (old, new) ∈ cs.map (·.paths)) :
    record (Section.start old new).change cs = cs.map (·.renormalized (some (old, new))) := by
  have hmerge : ∀ f : FileChange, f.merge (Section.start old new).change =
      { f with hunks := normalize f.hunks } := by
    intro f
    have hnil : normalize [] = [] := by simp [normalize, coalesce]
    simp only [FileChange.merge, Section.change, Section.start, List.reverse_nil, hnil,
      List.append_nil, ite_eq_right_iff.2 Eq.symm]
  induction cs with
  | nil => simp at hmem
  | cons f fs ih =>
    rw [List.map_cons, List.nodup_cons] at hn
    have hpaths : (Section.start old new).change.paths = (old, new) := rfl
    simp only [record, samePaths_iff, hpaths]
    by_cases hp : f.paths = (old, new)
    · -- No other record has these paths.
      have hrest : ∀ c ∈ fs, c.renormalized (some (old, new)) = c := by
        intro c hc
        refine if_neg fun heq => hn.1 ?_
        rw [hp, Option.some.inj heq]
        exact List.mem_map_of_mem hc
      rw [if_pos hp, hmerge, List.map_cons, List.map_congr_left hrest, List.map_id',
        FileChange.renormalized, if_pos (congrArg some hp.symm)]
    · have hmem' : (old, new) ∈ fs.map (·.paths) := by
        simpa [Ne.symm hp] using hmem
      rw [if_neg hp, List.map_cons, ih hn.2 hmem', FileChange.renormalized, if_neg]
      exact fun heq => hp (Option.some.inj heq).symm

/-- A line that starts like a file header is neither a hunk header nor a line with a sign, so it
says nothing if its paths are not recognised. -/
theorem Section.feed_marked (s : Section) (rest : List Char) :
    s.feed ("diff --git ".toList ++ rest) = .ok { s with oldLeft := 0, newLeft := 0 } := by
  have hbody : s.body? ("diff --git ".toList ++ rest) = none := by
    unfold Section.body?
    split <;> rfl
  have hhunk : hunk? ("diff --git ".toList ++ rest) = .ok none := hunk?_of_after rfl
  rw [Section.feed, hbody, Section.outside, hhunk]
  simp only [bind, Except.bind]
  split
  · next heq => cases heq
  · rfl

/-- What a line that starts like a file header does behind the lines of a diff that has it. -/
theorem Scan.finish_marked {s : Scan} {l : List Char} (hmark : "diff --git ".toList <+: l)
    (hshort : byteLength l ≤ maxLineBytes) (hnul : '\x00' ∉ l)
    (hn : (s.finish.map (·.paths)).Nodup)
    (hmem : ∀ p ∈ filePaths? l, p ∈ s.finish.map (·.paths)) :
    ∃ t, s.line l = .ok t ∧ t.finish = s.finish.map (·.renormalized (filePaths? l)) := by
  obtain ⟨rest, rfl⟩ := hmark
  have hcontains : ("diff --git ".toList ++ rest).contains '\x00' = false := by simpa using hnul
  simp only [Scan.line, if_neg (Nat.not_lt.2 hshort), hcontains, Bool.false_eq_true, if_false]
  cases hp : filePaths? ("diff --git ".toList ++ rest) with
  | some p =>
    obtain ⟨old, new⟩ := p
    exact ⟨_, rfl, record_start hn (hmem _ hp)⟩
  | none =>
    have hsame : s.finish.map (·.renormalized none) = s.finish :=
      List.map_id'' (fun c => if_neg (by simp)) _
    rw [hsame]
    cases hc : s.current with
    | none => exact ⟨s, rfl, rfl⟩
    | some sec =>
      simp only [Section.feed_marked]
      exact ⟨_, rfl, by simp only [Scan.finish, hc]; rfl⟩

/-- Whether a diff has a line, as it stands before its line feed. -/
def HasLine (diff header : String) : Prop :=
  '\n' ∉ header.toList ∧ ∃ before after, Text.Closed before.toList ∧
    diff = before ++ (writeLines [header] ++ after)

theorem HasLine.append {diff header : String} (h : HasLine diff header) (tail : String) :
    HasLine (diff ++ tail) header := by
  obtain ⟨hsingle, before, after, hbefore, rfl⟩ := h
  exact ⟨hsingle, before, after ++ tail, hbefore, by simp only [String.append_assoc]⟩

theorem lines_writeLines_singleton {header : String} (h : '\n' ∉ header.toList) :
    Text.lines (writeLines [header]).toList = [stripReturn header.toList] := by
  rw [Text.lines_writeLines (by simpa using h)]
  rfl

theorem HasLine.mem_lines {diff header : String} (h : HasLine diff header) :
    stripReturn header.toList ∈ Text.lines diff.toList := by
  obtain ⟨hsingle, before, after, hbefore, rfl⟩ := h
  rw [String.toList_append, String.toList_append, Text.lines_append hbefore,
    Text.lines_append (Text.closed_writeLines _), lines_writeLines_singleton hsingle]
  simp

theorem marked_stripReturn {l : List Char} (h : "diff --git ".toList <+: l) :
    "diff --git ".toList <+: stripReturn l := by
  obtain ⟨rest, rfl⟩ := h
  rw [Text.stripReturn_append (by decide)]
  exact List.prefix_append _ _

/-- What a line that starts like a file header does where it is repeated behind its diff. -/
theorem parse_again {diff header : String} {cs : List FileChange}
    (hclosed : Text.Closed diff.toList) (hline : HasLine diff header)
    (hmark : "diff --git ".toList <+: header.toList) (h : parse diff = .ok cs) :
    parse (diff ++ writeLines [header]) =
      .ok (cs.map (·.renormalized (filePaths? (stripReturn header.toList)))) := by
  have hmem := hline.mem_lines
  have hgood := not_badAt_of_parse h
  obtain ⟨before, after, hlines⟩ := List.append_of_mem hmem
  have hread : ¬ BadLine (∃ l ∈ before, FileHeader l) (stripReturn header.toList) := fun hbad =>
    hgood _ ⟨before, _, after, hlines, rfl, hbad⟩
  simp only [BadLine, not_or] at hread
  -- The header opened a section about its paths before, so there is a record about them.
  have hpaths : ∀ p ∈ filePaths? (stripReturn header.toList), p ∈ cs.map (·.paths) := by
    intro p hp
    obtain ⟨ss, hss, rfl⟩ := parse_eq_ok_iff.1 h
    rw [recordSections_paths, sections_paths hss, List.mem_eraseDups]
    exact List.mem_filterMap.2 ⟨_, hmem, hp⟩
  have hnodup := (parse_kept h).2
  obtain ⟨s, hs, rfl⟩ := parse_ok_iff.1 h
  obtain ⟨t, ht, hfinish⟩ := Scan.finish_marked (marked_stripReturn hmark) (Nat.not_lt.1 hread.1)
    hread.2.1 hnodup hpaths
  refine parse_ok_iff.2 ⟨t, ?_, hfinish⟩
  rw [String.toList_append, Text.lines_append hclosed, lines_writeLines_singleton hline.1,
    List.foldlM_append, hs]
  simp only [bind, Except.bind, List.foldlM_cons, ht]
  rfl

/-- **A repeated file header changes no record but its own**, and of that only the hunks, which
come to normal form once more. They stay as they are exactly if they are settled, cover the same
lines in any case, and are settled after the second time. -/
theorem parse_repeatedHeader {diff header : String} {cs : List FileChange}
    (hclosed : Text.Closed diff.toList) (hline : HasLine diff header)
    (hmark : "diff --git ".toList <+: header.toList) (h : parse diff = .ok cs) :
    parse (diff ++ writeLines [header]) =
        .ok (cs.map (·.renormalized (filePaths? (stripReturn header.toList)))) ∧
    (parse (diff ++ writeLines [header]) = .ok cs ↔
      ∀ c ∈ cs, filePaths? (stripReturn header.toList) = some c.paths → Settled c.hunks) ∧
    parse (diff ++ writeLines [header] ++ writeLines [header]) =
      parse (diff ++ writeLines [header]) ∧
    ∀ c ∈ cs, (normalize c.hunks = c.hunks ↔ Settled c.hunks) ∧
      ∀ n, Covered (normalize c.hunks) n ↔ Covered c.hunks n := by
  have hnormal := normalForm_of_parse h
  have honce := parse_again hclosed hline hmark h
  have hclosed' : Text.Closed (diff ++ writeLines [header]).toList := by
    rw [String.toList_append]
    exact Text.closed_append (Text.closed_writeLines _) (by simp [writeLines, Text.unlines])
  refine ⟨honce, ?_, ?_, fun c hc => ⟨normalize_eq_iff (hnormal c hc), fun n =>
    covered_normalize (hnormal c hc).fits⟩⟩
  · have hsame := List.map_inj_left (l := cs) (g := id)
      (f := (·.renormalized (filePaths? (stripReturn header.toList))))
    rw [List.map_id] at hsame
    rw [honce, Except.ok.injEq, hsame]
    exact forall₂_congr fun c hc => FileChange.renormalized_eq_iff (hnormal c hc)
  · rw [parse_again hclosed' (hline.append _) hmark honce, honce, List.map_map]
    refine congrArg Except.ok (List.map_congr_left fun c hc => ?_)
    exact FileChange.renormalized_renormalized (hnormal c hc)

/-- A hunk that only removes lines, and two that overlap on the new side, of which the later one
stands first on the old side. -/
def crossedHunks : String :=
  writeLines ["diff --git a/a.go b/a.go", "@@ -5 +3,0 @@", "@@ -6 +3,5 @@", "@@ -1 +4,2 @@"]

def crossedChange : FileChange :=
  ⟨"a.go", "a.go", .modified, [⟨5, 1, 3, 0⟩, ⟨1, 6, 3, 5⟩], [], []⟩

theorem parse_crossedHunks : parse crossedHunks = .ok [crossedChange] := by
  refine parse_eq_ok_iff.2 ⟨[⟨"a.go", "a.go", .modified,
    [⟨1, 1, 4, 2⟩, ⟨6, 1, 3, 5⟩, ⟨5, 1, 3, 0⟩], [], [], 1, 2⟩], ?_, by cbv⟩
  rw [crossedHunks, sections_writeLines (by decide +kernel)]
  decide +kernel

/-- The two hunks on line three change places and are joined when the header is repeated, and
stay joined after that. -/
theorem parse_repeatedHeader_crossedHunks :
    Text.Closed crossedHunks.toList ∧ HasLine crossedHunks "diff --git a/a.go b/a.go" ∧
    "diff --git ".toList <+: "diff --git a/a.go b/a.go".toList ∧
    parse crossedHunks = .ok [crossedChange] ∧ ¬ Settled crossedChange.hunks ∧
    parse (crossedHunks ++ writeLines ["diff --git a/a.go b/a.go"]) =
      .ok [{ crossedChange with hunks := [⟨1, 6, 3, 5⟩] }] ∧
    parse (crossedHunks ++ writeLines ["diff --git a/a.go b/a.go"] ++
        writeLines ["diff --git a/a.go b/a.go"]) =
      .ok [{ crossedChange with hunks := [⟨1, 6, 3, 5⟩] }] := by
  have hclosed : Text.Closed crossedHunks.toList := Text.closed_writeLines _
  have hline : HasLine crossedHunks "diff --git a/a.go b/a.go" :=
    ⟨by decide, "", writeLines ["@@ -5 +3,0 @@", "@@ -6 +3,5 @@", "@@ -1 +4,2 @@"],
      by decide +kernel, by decide +kernel⟩
  have hmark : "diff --git ".toList <+: "diff --git a/a.go b/a.go".toList := by decide
  obtain ⟨honce, -, htwice, -⟩ := parse_repeatedHeader hclosed hline hmark parse_crossedHunks
  have hrecords : [crossedChange].map
      (·.renormalized (filePaths? (stripReturn "diff --git a/a.go b/a.go".toList))) =
        [{ crossedChange with hunks := [⟨1, 6, 3, 5⟩] }] := by cbv
  rw [htwice, honce, hrecords]
  exact ⟨hclosed, hline, hmark, parse_crossedHunks, by decide, rfl, rfl⟩

end StaleDocs.Diff
