/-
The segments of a Markdown text are its sections (`markdownSegments_exact`): a
section is a heading that stands in no fence with the lines down to the next
such heading, or to the end, and makes a segment if a line under the heading
is not blank.

Reading is one pass with an open segment. What carries the proof is that the
open segment is the last section of the lines read so far (`Reading`), which
ends where the next line is a heading or there is none (`Reading.mem_close`).
-/
import StaleDocs.Proofs.Docs.Fences
import StaleDocs.Proofs.Docs.StartLines

namespace StaleDocs.Docs
open Text (isBlankText)

/-! ## Sections -/

/-- Whether the line with a number is a heading that stands in no fence. -/
def HeadingAt (ls : List (List Char)) (n level : Nat) (text : List Char) : Prop :=
  ∃ before line after, ls = before ++ line :: after ∧ n = before.length + 1 ∧
    HeadingLine line level text ∧ Unfenced before

/-- Whether a section starts on the line with a number. -/
def StartsAt (ls : List (List Char)) (n : Nat) : Prop := ∃ level text, HeadingAt ls n level text

/-- A section: the lines from a heading to the line before the next one, or to the last line. -/
structure SectionAt (ls : List (List Char)) (first last level : Nat) (text : List Char) : Prop where
  heading : HeadingAt ls first level text
  ordered : first ≤ last
  within : last ≤ ls.length
  whole : ∀ n, first < n → n ≤ last → ¬ StartsAt ls n
  ends : last < ls.length → StartsAt ls (last + 1)

/-- The lines from one number to another. -/
def linesBetween (ls : List (List Char)) (first last : Nat) : List (List Char) :=
  (ls.take last).drop (first - 1)

/-- The segment that a section makes. -/
def sectionSegment (file : String) (ls : List (List Char)) (first last level : Nat)
    (text : List Char) : Segment :=
  { file
    heading := String.ofList text
    level
    startLine := first
    endLine := last
    content := String.ofList (Text.trimEnd (Text.joinLines (linesBetween ls first last)))
    kind := .markdown }

/-- Whether some line under the heading of a section is not blank. -/
def HasBody (ls : List (List Char)) (first last : Nat) : Prop :=
  ∃ l ∈ linesBetween ls (first + 1) last, isBlankText l = false

/-- Whether a segment is that of a section with a body, which ends no higher than a line. -/
def SegmentFrom (file : String) (ls : List (List Char)) (low : Nat) (g : Segment) : Prop :=
  ∃ first last level text, SectionAt ls first last level text ∧ low ≤ last ∧
    HasBody ls first last ∧ g = sectionSegment file ls first last level text

theorem HeadingAt.range {ls : List (List Char)} {n level : Nat} {text : List Char}
    (h : HeadingAt ls n level text) : 1 ≤ n ∧ n ≤ ls.length := by
  obtain ⟨before, line, after, rfl, rfl, -, -⟩ := h
  simp

/-- A line has one level and one text. -/
theorem HeadingAt.unique {ls : List (List Char)} {n level level' : Nat} {text text' : List Char}
    (h : HeadingAt ls n level text) (h' : HeadingAt ls n level' text') :
    level = level' ∧ text = text' := by
  obtain ⟨before, line, after, rfl, rfl, hline, -⟩ := h
  obtain ⟨before', line', after', hls, hn, hline', -⟩ := h'
  obtain ⟨rfl, hcons⟩ := List.append_inj hls (by omega)
  cases hcons
  have heq := (heading?_eq_some_iff.2 hline).symm.trans (heading?_eq_some_iff.2 hline')
  simpa using heq

/-- A heading depends on the lines above it only. -/
theorem headingAt_append {done rest : List (List Char)} {n level : Nat} {text : List Char}
    (hn : n ≤ done.length) :
    HeadingAt (done ++ rest) n level text ↔ HeadingAt done n level text := by
  constructor
  · rintro ⟨before, line, after, hls, rfl, hline, hfree⟩
    have hprefix : before ++ [line] <+: done :=
      List.prefix_of_prefix_length_le ⟨after, by rw [hls, List.append_assoc, List.singleton_append]⟩
        (List.prefix_append done rest) (by simpa using hn)
    obtain ⟨tail, rfl⟩ := hprefix
    exact ⟨before, line, tail, by simp, rfl, hline, hfree⟩
  · rintro ⟨before, line, after, rfl, rfl, hline, hfree⟩
    exact ⟨before, line, after ++ rest, by simp, rfl, hline, hfree⟩

theorem headingAt_next {done rest : List (List Char)} {l : List Char} {level : Nat}
    {text : List Char} : HeadingAt (done ++ l :: rest) (done.length + 1) level text ↔
      HeadingLine l level text ∧ Unfenced done := by
  constructor
  · rintro ⟨before, line, after, hls, hn, hline, hfree⟩
    obtain ⟨rfl, hcons⟩ := List.append_inj hls (by omega)
    cases hcons
    exact ⟨hline, hfree⟩
  · rintro ⟨hline, hfree⟩
    exact ⟨done, l, rest, rfl, rfl, hline, hfree⟩

theorem startsAt_append {done rest : List (List Char)} {n : Nat} (hn : n ≤ done.length) :
    StartsAt (done ++ rest) n ↔ StartsAt done n := by
  simp only [StartsAt, headingAt_append hn]

theorem StartsAt.le_length {ls : List (List Char)} {n : Nat} (h : StartsAt ls n) :
    n ≤ ls.length := by
  obtain ⟨level, text, h⟩ := h
  exact h.range.2

/-- Two sections that end on one line are the same. -/
theorem SectionAt.unique {ls : List (List Char)} {first first' last level level' : Nat}
    {text text' : List Char} (h : SectionAt ls first last level text)
    (h' : SectionAt ls first' last level' text') :
    first = first' ∧ level = level' ∧ text = text' := by
  -- The later of two starts would be a heading inside the section from the earlier one.
  have hle : ¬ first < first' := fun hlt => h.whole first' hlt h'.ordered ⟨_, _, h'.heading⟩
  have hge : ¬ first' < first := fun hlt => h'.whole first hlt h.ordered ⟨_, _, h.heading⟩
  obtain rfl : first = first' := by omega
  exact ⟨rfl, h.heading.unique h'.heading⟩

/-! ## One pass over the lines -/

theorem close_endLine {file : String} {last : Nat} {s : OpenSegment} {g : Segment}
    (h : s.close file last = some g) : g.endLine = last := by
  simp only [OpenSegment.close] at h
  split at h
  · cases h
  · cases h
    rfl

/-- What the state of the pass is after some lines: the fence that is open, and the last
section, which has no end yet. -/
structure Reading (done : List (List Char)) (fence : Option Fence) (current : Option OpenSegment) :
    Prop where
  fence : fence = fenceAfterLines done
  unopened : current = none → ∀ n, ¬ StartsAt done n
  heading : ∀ s ∈ current, HeadingAt done s.startLine s.level s.heading
  last : ∀ s ∈ current, ∀ n, s.startLine < n → ¬ StartsAt done n
  lines : ∀ s ∈ current, s.lines.reverse = done.drop (s.startLine - 1)

theorem Reading.start : Reading [] none none where
  fence := rfl
  unopened := by
    rintro - n ⟨level, text, h⟩
    have := h.range
    simp at this
    omega
  heading := by simp
  last := by simp
  lines := by simp

variable {file : String} {done rest : List (List Char)} {fence : Option Fence}
  {current : Option OpenSegment}

theorem StartsAt.of_concat {l : List Char} {n : Nat} (h : StartsAt (done ++ [l]) n) :
    n = done.length + 1 ∨ StartsAt done n := by
  have hn := h.le_length
  rw [List.length_append, List.length_singleton] at hn
  rcases Nat.lt_or_ge done.length n with hlt | hle
  · exact .inl (by omega)
  · exact .inr ((startsAt_append hle).1 h)

theorem Reading.startSection (h : Reading done none current) {l : List Char} {level : Nat}
    {text : List Char} (hl : HeadingLine l level text) :
    Reading (done ++ [l]) none (some ⟨text, level, done.length + 1, [l]⟩) where
  fence := by
    rw [fenceAfterLines_concat, ← h.fence, fenceAfter_none, hl.opensFence?_eq_none]
  unopened := nofun
  heading := by
    rintro s ⟨rfl⟩
    exact headingAt_next.2 ⟨hl, unfenced_iff.2 h.fence.symm⟩
  last := by
    rintro s ⟨rfl⟩ n hn hstart
    have := hstart.le_length
    simp at this hn
    omega
  lines := by
    rintro s ⟨rfl⟩
    simp

/-- Any other line goes on with the section. -/
theorem Reading.extend (h : Reading done fence current) {l : List Char}
    (hl : ¬ StartsAt (done ++ [l]) (done.length + 1)) :
    Reading (done ++ [l]) (fenceAfter fence l)
      (current.map fun s => { s with lines := l :: s.lines }) where
  fence := by rw [fenceAfterLines_concat, ← h.fence]
  unopened := by
    intro hnone n hstart
    rcases hstart.of_concat with rfl | hstart
    · exact hl hstart
    · exact h.unopened (by simpa using hnone) n hstart
  heading := by
    intro s hs
    obtain ⟨t, ht, rfl⟩ := Option.map_eq_some_iff.1 hs
    exact (headingAt_append (h.heading t ht).range.2).2 (h.heading t ht)
  last := by
    intro s hs n hn hstart
    obtain ⟨t, ht, rfl⟩ := Option.map_eq_some_iff.1 hs
    rcases hstart.of_concat with rfl | hstart
    · exact hl hstart
    · exact h.last t ht n hn hstart
  lines := by
    intro s hs
    obtain ⟨t, ht, rfl⟩ := Option.map_eq_some_iff.1 hs
    have hrange := (h.heading t ht).range
    have hle : t.startLine - 1 ≤ done.length := by omega
    rw [List.reverse_cons, h.lines t ht, List.drop_append_of_le_length hle]

theorem Reading.close_eq (h : Reading done fence current) {s : OpenSegment} (hs : s ∈ current) :
    s.close file done.length =
      if (linesBetween done (s.startLine + 1) done.length).all isBlankText then none
      else some (sectionSegment file done s.startLine done.length s.level s.heading) := by
  have hlines := h.lines s hs
  have hrange := (h.heading s hs).range
  have hbody : s.lines.dropLast.all isBlankText =
      (linesBetween done (s.startLine + 1) done.length).all isBlankText := by
    have hrev : s.lines = (done.drop (s.startLine - 1)).reverse := by
      rw [← hlines, List.reverse_reverse]
    rw [hrev, List.dropLast_reverse, List.all_reverse, List.tail_drop, linesBetween,
      List.take_length, Nat.add_sub_cancel, Nat.sub_add_cancel hrange.1]
  simp only [OpenSegment.close, hbody, sectionSegment, linesBetween, List.take_length, hlines]

theorem linesBetween_append (done rest : List (List Char)) (first : Nat) :
    linesBetween (done ++ rest) first done.length = linesBetween done first done.length := by
  simp [linesBetween]

/-- Where the next line starts a section or there is none, the open section is whole. -/
theorem Reading.sectionAt_iff (h : Reading done fence current)
    (hend : done.length < (done ++ rest).length → StartsAt (done ++ rest) (done.length + 1))
    {first level : Nat} {text : List Char} :
    SectionAt (done ++ rest) first done.length level text ↔
      ∃ s ∈ current, s.startLine = first ∧ s.level = level ∧ s.heading = text := by
  have hsection : ∀ s ∈ current,
      SectionAt (done ++ rest) s.startLine done.length s.level s.heading := fun s hs =>
    { heading := (headingAt_append (h.heading s hs).range.2).2 (h.heading s hs)
      ordered := (h.heading s hs).range.2
      within := by simp
      whole := fun n hn hle hstart => h.last s hs n hn ((startsAt_append hle).1 hstart)
      ends := hend }
  constructor
  · intro hs'
    cases hcur : current with
    | none =>
      have hstart : StartsAt done first :=
        (startsAt_append hs'.ordered).1 ⟨level, text, hs'.heading⟩
      exact absurd hstart (h.unopened hcur first)
    | some s => exact ⟨s, rfl, (hsection s hcur).unique hs'⟩
  · rintro ⟨s, hs, rfl, rfl, rfl⟩
    exact hsection s hs

/-- Closing the open section there gives its segment. -/
theorem Reading.mem_close (h : Reading done fence current)
    (hend : done.length < (done ++ rest).length → StartsAt (done ++ rest) (done.length + 1))
    {g : Segment} :
    g ∈ (current.bind (OpenSegment.close file done.length)).toList ↔
      ∃ first level text, SectionAt (done ++ rest) first done.length level text ∧
        HasBody (done ++ rest) first done.length ∧
        g = sectionSegment file (done ++ rest) first done.length level text := by
  simp only [h.sectionAt_iff hend, HasBody, sectionSegment, linesBetween_append,
    Option.mem_toList, Option.bind_eq_some_iff]
  constructor
  · rintro ⟨s, hs, hclose⟩
    rw [h.close_eq hs] at hclose
    split at hclose
    · cases hclose
    · next hbody =>
      cases hclose
      exact ⟨_, _, _, ⟨s, hs, rfl, rfl, rfl⟩, by simpa using hbody, rfl⟩
  · rintro ⟨_, _, _, ⟨s, hs, rfl, rfl, rfl⟩, hbody, rfl⟩
    refine ⟨s, hs, ?_⟩
    rw [h.close_eq hs, if_neg (by simpa using hbody)]
    rfl

/-! ## All segments -/

/-- A section that ends no higher than a line ends there or below. -/
theorem segmentFrom_iff {ls : List (List Char)} (low : Nat) {g : Segment} :
    SegmentFrom file ls low g ↔
      (∃ first level text, SectionAt ls first low level text ∧ HasBody ls first low ∧
        g = sectionSegment file ls first low level text) ∨ SegmentFrom file ls (low + 1) g := by
  constructor
  · rintro ⟨first, last, level, text, hs, hle, hrest⟩
    rcases Nat.eq_or_lt_of_le hle with rfl | hlt
    · exact .inl ⟨first, level, text, hs, hrest⟩
    · exact .inr ⟨first, last, level, text, hs, hlt, hrest⟩
  · rintro (⟨first, level, text, hs, hrest⟩ | ⟨first, last, level, text, hs, hlt, hrest⟩)
    · exact ⟨first, low, level, text, hs, Nat.le_refl low, hrest⟩
    · exact ⟨first, last, level, text, hs, Nat.le_of_lt hlt, hrest⟩

theorem not_segmentFrom {ls : List (List Char)} {low : Nat} {g : Segment} (hlow : ls.length < low) :
    ¬ SegmentFrom file ls low g := by
  rintro ⟨first, last, level, text, hs, hle, -⟩
  have := hs.within
  omega

/-- The segments of the lines that are left are those of the sections that end there. -/
theorem Reading.mem_markdownFrom {g : Segment} (h : Reading done fence current) :
    g ∈ markdownFrom file fence current (done.length + 1) rest ↔
      SegmentFrom file (done ++ rest) done.length g := by
  induction rest generalizing done fence current with
  | nil =>
    have hend : done.length < (done ++ []).length → StartsAt (done ++ []) (done.length + 1) := by
      simp
    rw [markdownFrom, Nat.add_sub_cancel, h.mem_close hend, segmentFrom_iff]
    exact ⟨.inl, fun hg => hg.resolve_right (not_segmentFrom (by simp))⟩
  | cons l rest ih =>
    simp only [markdownFrom]
    split
    · next level text hopens hheading =>
      have hl := heading?_eq_some_iff.1 hheading
      have hstart : StartsAt (done ++ l :: rest) (done.length + 1) :=
        ⟨level, text, headingAt_next.2 ⟨hl, unfenced_iff.2 h.fence.symm⟩⟩
      have hrest := @ih (done ++ [l]) _ _ (h.startSection hl)
      rw [List.length_append, List.length_singleton, List.append_assoc, List.singleton_append] at hrest
      rw [List.mem_append, Nat.add_sub_cancel, h.mem_close fun _ => hstart, hrest,
        segmentFrom_iff done.length]
    · next hother =>
      have hstart : ∀ tail, ¬ StartsAt (done ++ l :: tail) (done.length + 1) := by
        rintro tail ⟨level, text, hat⟩
        obtain ⟨hl, hfree⟩ := headingAt_next.1 hat
        exact hother level text (h.fence.trans (unfenced_iff.1 hfree)) hl.opensFence?_eq_none
          (heading?_eq_some_iff.2 hl)
      have hrest := @ih (done ++ [l]) _ _ (h.extend (hstart []))
      rw [List.length_append, List.length_singleton, List.append_assoc, List.singleton_append] at hrest
      rw [hrest, segmentFrom_iff done.length]
      -- No section ends above this line, because it is no heading.
      refine ⟨.inr, fun hg => hg.resolve_left ?_⟩
      rintro ⟨first, level, text, hs, -⟩
      exact hstart rest (hs.ends (by simp))

/-- Each segment ends above the start of those after it. -/
theorem pairwise_markdownFrom {ls : List (List Char)} :
    ∀ {fence : Option Fence} {current : Option OpenSegment} {n : Nat}, 0 < n →
      (markdownFrom file fence current n ls).Pairwise fun a b => a.endLine < b.startLine := by
  induction ls with
  | nil =>
    intro fence current n _
    rw [markdownFrom]
    cases current.bind (OpenSegment.close file (n - 1)) <;> simp
  | cons l ls ih =>
    intro fence current n hn
    simp only [markdownFrom]
    split
    · next level text _ _ =>
      refine List.pairwise_append.2 ⟨?_, ih (Nat.succ_pos n), ?_⟩
      · cases current.bind (OpenSegment.close file (n - 1)) <;> simp
      · intro a ha b hb
        obtain ⟨s, -, hclose⟩ := Option.bind_eq_some_iff.1 (Option.mem_toList.1 ha)
        have hend : a.endLine = n - 1 := close_endLine hclose
        have hstart : n ≤ b.startLine :=
          (descending_markdownFrom (Nat.le_succ n) (by simp)).below b hb
        omega
    · exact ih (Nat.succ_pos n)

theorem HasBody.lt {ls : List (List Char)} {first last : Nat} (h : HasBody ls first last) :
    first < last := by
  obtain ⟨l, hl, -⟩ := h
  have hlength := List.length_pos_of_mem hl
  simp [linesBetween] at hlength
  omega

/-- **The segments of a Markdown text are its sections**: one for each heading outside of code
fences under which some line is not blank, in order, with the lines down to the next such heading
or to the end. A segment runs over more than one line, ends above the next, and is told by its
file and the line it starts on. -/
theorem markdownSegments_exact (file text : String) :
    (∀ g, g ∈ markdownSegments file text ↔ ∃ first last level heading,
      SectionAt (Text.lines text.toList) first last level heading ∧
      HasBody (Text.lines text.toList) first last ∧
      g = sectionSegment file (Text.lines text.toList) first last level heading) ∧
    (∀ g ∈ markdownSegments file text, g.startLine < g.endLine) ∧
    (markdownSegments file text).Pairwise (fun a b => a.endLine < b.startLine) ∧
    ((markdownSegments file text).map fun g => (g.file, g.startLine)).Nodup := by
  have hmem : ∀ g, g ∈ markdownSegments file text ↔
      SegmentFrom file (Text.lines text.toList) 0 g := fun g =>
    Reading.start.mem_markdownFrom
  have hlines : ∀ g ∈ markdownSegments file text, g.startLine < g.endLine := by
    intro g hg
    obtain ⟨first, last, level, heading, -, -, hbody, rfl⟩ := (hmem g).1 hg
    exact hbody.lt
  have hpairwise : (markdownSegments file text).Pairwise fun a b => a.endLine < b.startLine :=
    pairwise_markdownFrom Nat.one_pos
  refine ⟨fun g => ?_, hlines, hpairwise, ?_⟩
  · simp [hmem, SegmentFrom]
  · rw [List.Nodup, List.pairwise_map]
    refine hpairwise.imp_of_mem fun {a b} ha _ hab heq => ?_
    have hstart := hlines a ha
    have heq : a.startLine = b.startLine := (Prod.mk.inj heq).2
    omega

/-- A number sign in a fence starts no section, and neither does anything after a fence that is
not closed. -/
example : (markdownSegments "a.md" "# A\n~~~\n# B\n~~~~ \n## C\n\n# D\n~~~\n# E\n").map
    (fun g => (g.startLine, g.endLine)) = [(1, 4), (7, 9)] := by decide +kernel

end StaleDocs.Docs
