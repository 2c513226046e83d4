/-
The content of a segment is a section of its own (`markdownSegments_rescan`).
It lacks the blank lines at the end of the section and the blanks at the end of
the last line with text, and neither makes a heading of a line that was none:
what is a heading without these blanks is one with them. No fence is open where
a section starts, so reading its lines alone comes through the same fences
(`startsAt_after`).
-/
import Mathlib.Data.List.DropRight
import StaleDocs.Proofs.Docs.Blocks

namespace StaleDocs

namespace Text

theorem trimEnd_append_of_blank {blanks : List Char} (h : ∀ c ∈ blanks, isBlank c = true)
    (cs : List Char) : trimEnd (cs ++ blanks) = trimEnd cs := by
  have hreverse : ∀ c ∈ blanks.reverse, isBlank c = true := fun c hc => h c (List.mem_reverse.1 hc)
  rw [trimEnd, List.reverse_append, List.dropWhile_append_of_pos hreverse, trimEnd]

/-- Trimming a text that ends with more than blanks stays in its last part. -/
theorem trimEnd_append_of_text {cs : List Char} (h : isBlankText cs = false) (before : List Char) :
    trimEnd (before ++ cs) = before ++ trimEnd cs := by
  have hne : trimStart cs.reverse ≠ [] := fun hnil => by
    rw [trimStart_eq_nil_iff, isBlankText, List.all_reverse, ← isBlankText, h] at hnil
    cases hnil
  rw [trimEnd, List.reverse_append, List.dropWhile_append, ← trimStart,
    if_neg (by simpa using hne)]
  simp [trimEnd, trimStart]

theorem isBlankText_append (as bs : List Char) :
    isBlankText (as ++ bs) = (isBlankText as && isBlankText bs) :=
  List.all_append

theorem isBlankText_trimEnd (cs : List Char) : isBlankText (trimEnd cs) = isBlankText cs := by
  obtain ⟨blanks, hcs, hblanks⟩ := Docs.trimEnd_append cs
  have hall : isBlankText blanks = true := List.all_eq_true.2 hblanks
  conv_rhs => rw [hcs, isBlankText_append, hall, Bool.and_true]

theorem trimEnd_trimEnd (cs : List Char) : trimEnd (trimEnd cs) = trimEnd cs :=
  List.rdropWhile_idempotent isBlank cs

theorem isBlank_of_mem_unlines {ls : List (List Char)} (h : ∀ l ∈ ls, isBlankText l = true)
    {c : Char} (hc : c ∈ unlines ls) : isBlank c = true := by
  obtain ⟨l, hl, hc⟩ := List.mem_flatMap.1 hc
  rcases List.mem_append.1 hc with hc | hc
  · exact List.all_eq_true.1 (h l hl) c hc
  · rw [List.mem_singleton.1 hc]
    rfl

/-- The text of lines, trimmed, ends with the last of them that is not blank. -/
theorem trimEnd_joinLines {before blanks : List (List Char)} {l : List Char}
    (hl : isBlankText l = false) (hblanks : ∀ b ∈ blanks, isBlankText b = true) :
    trimEnd (joinLines (before ++ l :: blanks)) = joinLines (before ++ [trimEnd l]) := by
  have hfeed : ∀ c ∈ ['\n'], isBlank c = true := List.forall_mem_singleton.2 rfl
  have htail : ∀ c ∈ '\n' :: unlines blanks, isBlank c = true :=
    List.forall_mem_cons.2 ⟨rfl, fun c hc => isBlank_of_mem_unlines hblanks hc⟩
  have hunlines : unlines (before ++ l :: blanks) =
      (unlines before ++ l) ++ '\n' :: unlines blanks := by simp [unlines]
  calc trimEnd (joinLines (before ++ l :: blanks))
    _ = trimEnd (unlines (before ++ l :: blanks)) := by
      rw [unlines_eq_joinLines (by simp), trimEnd_append_of_blank hfeed]
    _ = trimEnd (unlines before ++ l) := by rw [hunlines, trimEnd_append_of_blank htail]
    _ = joinLines (before ++ [trimEnd l]) := by
      rw [trimEnd_append_of_text hl, joinLines_concat]

theorem mem_of_mem_trimEnd {c : Char} {cs : List Char} (h : c ∈ trimEnd cs) : c ∈ cs := by
  obtain ⟨blanks, hcs, -⟩ := Docs.trimEnd_append cs
  rw [hcs]
  exact List.mem_append_left blanks h

/-- Lines without carriage returns are read back when the last is trimmed, if it is not blank. -/
theorem lines_trimmed {before : List (List Char)} {l : List Char}
    (hfeed : ∀ x ∈ before ++ [l], '\n' ∉ x) (hreturn : ∀ x ∈ before ++ [l], '\r' ∉ x)
    (hl : isBlankText l = false) :
    lines (joinLines (before ++ [trimEnd l])) = before ++ [trimEnd l] := by
  have hne : trimEnd l ≠ [] := fun hnil => by
    rw [← isBlankText_trimEnd, hnil] at hl
    cases hl
  have htrimmed : ∀ x ∈ before ++ [trimEnd l], '\n' ∉ x := by
    intro x hx hc
    rcases List.mem_append.1 hx with hx | hx
    · exact hfeed x (List.mem_append_left _ hx) hc
    · rw [List.mem_singleton.1 hx] at hc
      exact hfeed l (by simp) (mem_of_mem_trimEnd hc)
  have hstrip : before.map stripReturn = before := by
    calc before.map stripReturn
      _ = before.map id := List.map_congr_left fun x hx => stripReturn_of_getLast fun hlast =>
        hreturn x (List.mem_append_left _ hx) (List.mem_of_getLast? hlast)
      _ = before := List.map_id _
  rw [lines_joinLines htrimmed hne, hstrip]

end Text

namespace Docs
open Text (isBlank isBlankText joinLines trimEnd)

/-! ## Sections of a part -/

variable {before ls : List (List Char)} {n level : Nat} {text : List Char}

theorem unfenced_append (h : Unfenced before) (ls : List (List Char)) :
    Unfenced (before ++ ls) ↔ Unfenced ls := by
  rw [unfenced_iff, unfenced_iff, fenceAfterLines, List.foldl_append, ← fenceAfterLines,
    h.fenceAfterLines_eq, fenceAfterLines]

/-- Where no fence is open, the headings further down are those of the lines from there. -/
theorem startsAt_after (h : Unfenced before) (hn : 1 ≤ n) :
    StartsAt (before ++ ls) (before.length + n) ↔ StartsAt ls n := by
  constructor
  · rintro ⟨level, text, above, line, after, hls, hnum, hline, hfree⟩
    obtain ⟨inner, rfl⟩ : before <+: above := by
      refine List.prefix_of_prefix_length_le (List.prefix_append before ls) ?_ (by omega)
      exact ⟨line :: after, hls.symm⟩
    rw [List.append_assoc, List.append_cancel_left_eq] at hls
    rw [List.length_append] at hnum
    exact ⟨level, text, inner, line, after, hls, by omega, hline, (unfenced_append h inner).1 hfree⟩
  · rintro ⟨level, text, inner, line, after, rfl, rfl, hline, hfree⟩
    refine ⟨level, text, before ++ inner, line, after, by simp, by simp; omega, hline, ?_⟩
    exact (unfenced_append h inner).2 hfree

/-- A heading stays one with more after it. -/
theorem HeadingLine.append {line : List Char} (h : HeadingLine line level text)
    (tail : List Char) : ∃ text', HeadingLine (line ++ tail) level text' := by
  obtain ⟨blanks, title, hlow, hhigh, hne, hblank, htitle, rfl, -⟩ := h
  exact ⟨_, blanks, title ++ tail, hlow, hhigh, hne, hblank, by simp [htitle], by simp, rfl⟩

/-- No heading comes from trimming the last line. -/
theorem StartsAt.of_trimmed {before : List (List Char)} {l : List Char} {n : Nat}
    (h : StartsAt (before ++ [trimEnd l]) n) (rest : List (List Char)) :
    StartsAt (before ++ l :: rest) n := by
  rcases h.of_concat with rfl | h
  · obtain ⟨level, text, hat⟩ := h
    obtain ⟨hline, hfree⟩ := headingAt_next.1 hat
    obtain ⟨blanks, hl, -⟩ := trimEnd_append l
    obtain ⟨text', hline'⟩ := hline.append blanks
    exact ⟨level, text', headingAt_next.2 ⟨hl ▸ hline', hfree⟩⟩
  · exact (startsAt_append h.le_length).2 h

/-! ## One section -/

/-- Lines with one heading, on the first, and with text under it make one segment. -/
theorem markdownSegments_of_one {file text : String} {heading : List Char}
    (hfirst : HeadingAt (Text.lines text.toList) 1 level heading)
    (honly : ∀ n, 1 < n → ¬ StartsAt (Text.lines text.toList) n)
    (hbody : HasBody (Text.lines text.toList) 1 (Text.lines text.toList).length) :
    markdownSegments file text =
      [sectionSegment file (Text.lines text.toList) 1 (Text.lines text.toList).length level
        heading] := by
  generalize hls : Text.lines text.toList = ls at hfirst honly hbody ⊢
  have hmem : ∀ g, g ∈ markdownSegments file text ↔ SegmentFrom file ls 0 g := fun g =>
    hls ▸ Reading.start.mem_markdownFrom
  have hpairwise : (markdownSegments file text).Pairwise fun a b => a.endLine < b.startLine :=
    pairwise_markdownFrom Nat.one_pos
  have hwhole : SectionAt ls 1 ls.length level heading :=
    { heading := hfirst
      ordered := hfirst.range.2
      within := Nat.le_refl _
      whole := fun n hn _ => honly n hn
      ends := fun hlt => absurd hlt (Nat.lt_irrefl _) }
  have hall : ∀ g ∈ markdownSegments file text,
      g = sectionSegment file ls 1 ls.length level heading := by
    intro g hg
    obtain ⟨first, last, level', heading', hs, -, -, rfl⟩ := (hmem g).1 hg
    have hone : first = 1 := by
      by_contra hne
      have := hs.heading.range
      exact honly first (by omega) ⟨_, _, hs.heading⟩
    have hlast : last = ls.length := by
      by_contra hne
      have hlt := Nat.lt_of_le_of_ne hs.within hne
      have := hs.ordered
      exact honly (last + 1) (by omega) (hs.ends hlt)
    subst hone hlast
    obtain ⟨rfl, rfl⟩ := hs.heading.unique hfirst
    rfl
  have hin := (hmem _).2 ⟨1, ls.length, level, heading, hwhole, Nat.zero_le _, hbody, rfl⟩
  -- Two of them would be one and the same, which does not end above its own start.
  cases hsegments : markdownSegments file text with
  | nil => simp [hsegments] at hin
  | cons g rest =>
    rw [hsegments] at hall hpairwise
    obtain ⟨hg, hrest⟩ := List.forall_mem_cons.1 hall
    cases rest with
    | nil => rw [hg]
    | cons k rest =>
      have hlt := (List.pairwise_cons.1 hpairwise).1 k (by simp)
      rw [hg, hrest k (by simp)] at hlt
      exact absurd hlt (Nat.not_lt.2 hfirst.range.2)

/-- The lines of a section begin with its heading, and there is no other in them. -/
theorem SectionAt.alone {first last : Nat} (h : SectionAt ls first last level text) :
    (∃ line, HeadingLine line level text ∧
      linesBetween ls first last = line :: linesBetween ls (first + 1) last) ∧
    ∀ n, 1 < n → ¬ StartsAt (linesBetween ls first last) n := by
  obtain ⟨before, line, after, rfl, rfl, hline, hfree⟩ := h.heading
  have hordered := h.ordered
  have hbetween : linesBetween (before ++ line :: after) (before.length + 1) last =
      (line :: after).take (last - before.length) := by
    rw [linesBetween, List.drop_take, Nat.add_sub_cancel, List.drop_left]
  refine ⟨⟨line, hline, ?_⟩, fun n hn hstart => ?_⟩
  · obtain ⟨k, hk⟩ := Nat.exists_eq_add_of_le hordered
    have hlength : last - before.length = k + 1 := by omega
    have hbelow : linesBetween (before ++ line :: after) (before.length + 1 + 1) last =
        after.take k := by
      have hdrop : (before ++ line :: after).drop (before.length + 1) = after := by
        rw [← List.drop_drop, List.drop_left, List.drop_one, List.tail_cons]
      rw [linesBetween, List.drop_take, Nat.add_sub_cancel, hdrop]
      congr 1
      omega
    rw [hbetween, hbelow, hlength, List.take_succ_cons]
  · rw [hbetween] at hstart
    have hle := hstart.le_length
    rw [List.length_take] at hle
    have hafter : StartsAt (line :: after) n := by
      rw [← List.take_append_drop (last - before.length) (line :: after)]
      exact (startsAt_append hstart.le_length).2 hstart
    exact h.whole (before.length + n) (by omega) (by omega)
      ((startsAt_after hfree (Nat.le_of_lt hn)).2 hafter)

theorem exists_last_text {ls : List (List Char)} (h : ∃ l ∈ ls, isBlankText l = false) :
    ∃ before l blanks, ls = before ++ l :: blanks ∧ isBlankText l = false ∧
      ∀ b ∈ blanks, isBlankText b = true := by
  induction ls using List.reverseRecOn with
  | nil => simp at h
  | append_singleton ls last ih =>
    cases hlast : isBlankText last with
    | false => exact ⟨ls, last, [], rfl, hlast, by simp⟩
    | true =>
      have hrest : ∃ l ∈ ls, isBlankText l = false := by
        simpa [or_and_right, exists_or, hlast] using h
      obtain ⟨before, l, blanks, rfl, hl, hblanks⟩ := ih hrest
      refine ⟨before, l, blanks ++ [last], by simp, hl, fun b hb => ?_⟩
      rcases List.mem_append.1 hb with hb | hb
      · exact hblanks b hb
      · rw [List.mem_singleton.1 hb, hlast]

/-- The content of a segment has its lines down to the last that is not blank, which is trimmed. -/
theorem content_of_lines {file text' : String} {g : Segment} (hg : g ∈ markdownSegments file text')
    {before blanks : List (List Char)} {l : List Char}
    (hlines : segmentLines text' g = before ++ l :: blanks) (hl : isBlankText l = false)
    (hblanks : ∀ b ∈ blanks, isBlankText b = true) :
    g.content.toList = joinLines (before ++ [trimEnd l]) := by
  rw [(content_of_mem hg).2, hlines, Text.trimEnd_joinLines hl hblanks]

theorem lines_content {file text' : String} (hreturn : '\r' ∉ text'.toList) {g : Segment}
    (hg : g ∈ markdownSegments file text') {before blanks : List (List Char)} {l : List Char}
    (hlines : segmentLines text' g = before ++ l :: blanks) (hl : isBlankText l = false)
    (hblanks : ∀ b ∈ blanks, isBlankText b = true) :
    Text.lines g.content.toList = before ++ [trimEnd l] := by
  have hpart : before ++ [l] <+: segmentLines text' g := ⟨blanks, by rw [hlines]; simp⟩
  have hmem : ∀ x ∈ before ++ [l], x ∈ Text.lines text'.toList := fun x hx =>
    List.mem_of_mem_take (List.mem_of_mem_drop (hpart.subset hx))
  rw [content_of_lines hg hlines hl hblanks]
  exact Text.lines_trimmed (fun x hx => Text.not_mem_lines (hmem x hx))
    (fun x hx => Text.not_mem_of_mem_lines hreturn (hmem x hx)) hl

/-- **The content of a segment is read as that segment**, from its first line to its last, and as
nothing else. -/
theorem markdownSegments_rescan {file text : String} (hreturn : '\r' ∉ text.toList) {g : Segment}
    (hg : g ∈ markdownSegments file text) (file' : String) :
    markdownSegments file' g.content =
      [{ g with
          file := file'
          startLine := 1
          endLine := (Text.lines g.content.toList).length }] := by
  have hsegment : SegmentFrom file (Text.lines text.toList) 0 g :=
    Reading.start.mem_markdownFrom.1 hg
  obtain ⟨first, last, level, heading, hs, -, hbody, hsame⟩ := hsegment
  obtain ⟨⟨line, hline, hlines⟩, honly⟩ := hs.alone
  obtain ⟨body, l, blanks, hbelow, hl, hblanks⟩ := exists_last_text hbody
  rw [hbelow, ← List.cons_append] at hlines
  have hown : segmentLines text g = line :: body ++ l :: blanks := by
    rw [hsame]
    exact hlines
  have hread := lines_content hreturn hg hown hl hblanks
  have hfirst : HeadingAt (Text.lines g.content.toList) 1 level heading :=
    hread ▸ ⟨[], line, body ++ [trimEnd l], rfl, rfl, hline, .nil⟩
  have hrest : ∀ n, 1 < n → ¬ StartsAt (Text.lines g.content.toList) n := fun n hn hstart => by
    rw [hread] at hstart
    exact honly n hn (hlines ▸ hstart.of_trimmed blanks)
  have hunder : HasBody (Text.lines g.content.toList) 1 (Text.lines g.content.toList).length := by
    refine ⟨trimEnd l, ?_, by rwa [Text.isBlankText_trimEnd]⟩
    rw [linesBetween, List.take_length, hread]
    simp
  have hwhole : joinLines (linesBetween (Text.lines g.content.toList) 1
      (Text.lines g.content.toList).length) = g.content.toList := by
    rw [linesBetween, List.take_length, Nat.sub_self, List.drop_zero, hread,
      content_of_lines hg hown hl hblanks]
  have htrimmed : trimEnd g.content.toList = g.content.toList := by
    rw [(content_of_mem hg).2, Text.trimEnd_trimEnd]
  rw [markdownSegments_of_one hfirst hrest hunder, sectionSegment, hwhole, htrimmed,
    String.ofList_toList, hsame]
  rfl

def fencedGuide : String :=
  "Intro\n# Usage \n~~~\n# inside\n~~~\t\n\n## Limits  \nbody\n\x60\x60\x60 sh\n# no heading \n \n"

def fencedSegment : Segment :=
  ⟨"guide.md", "Limits", 2, 7, 11, "## Limits  \nbody\n\x60\x60\x60 sh\n# no heading", .markdown⟩

/-- A number sign behind a fence that is not closed stays there when the blanks at the end are
gone. -/
theorem markdownSegments_rescan_fenced :
    '\r' ∉ fencedGuide.toList ∧ fencedSegment ∈ markdownSegments "guide.md" fencedGuide ∧
    markdownSegments "" fencedSegment.content =
      [{ fencedSegment with file := "", startLine := 1, endLine := 4 }] := by
  have hreturn : '\r' ∉ fencedGuide.toList := by decide +kernel
  have hmem : fencedSegment ∈ markdownSegments "guide.md" fencedGuide := by decide +kernel
  have hlength : (Text.lines fencedSegment.content.toList).length = 4 := by decide +kernel
  exact ⟨hreturn, hmem, hlength ▸ markdownSegments_rescan hreturn hmem ""⟩

end Docs
end StaleDocs
