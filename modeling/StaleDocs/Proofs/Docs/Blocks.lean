/-
The fenced blocks of Markdown lines as reading delimits them: the lines between
one that opens a fence and the first that closes it, or all that follow if none
does. A segment has the blocks of its own lines, since no fence is open where it
starts.
-/
import StaleDocs.Proofs.Docs.Sections
import StaleDocs.Proofs.Text.Written

namespace StaleDocs.Docs
open Text (isBlank joinLines trimEnd)

/-- The lines inside a fence, and whether the fence is closed. -/
structure FencedBlock where
  lines : List (List Char)
  closed : Bool
deriving DecidableEq

/-- The fenced blocks of the lines that are left, where a fence may be open; the lines inside it
are kept last first. -/
def fencedBlocksFrom (fence : Option Fence) (inside : List (List Char)) :
    List (List Char) → List FencedBlock
  | [] => if fence.isSome then [⟨inside.reverse, false⟩] else []
  | l :: ls =>
    match fence, fenceAfter fence l with
    | none, after => fencedBlocksFrom after [] ls
    | some _, none => ⟨inside.reverse, true⟩ :: fencedBlocksFrom none [] ls
    | some _, some after => fencedBlocksFrom (some after) (l :: inside) ls

/-- The fenced blocks of lines. -/
def fencedBlocks (ls : List (List Char)) : List FencedBlock := fencedBlocksFrom none [] ls

theorem fencedBlocks_line {l : List Char} (h : ∀ fence, ¬ Opens l fence) (ls : List (List Char)) :
    fencedBlocks (l :: ls) = fencedBlocks ls := by
  have hnone : fenceAfter none l = none := by
    rw [fenceAfter_none, Option.eq_none_iff_forall_ne_some]
    exact fun fence hf => h fence (opensFence?_eq_some_iff.1 hf)
  simp only [fencedBlocks, fencedBlocksFrom, hnone]

theorem fencedBlocks_opens {opening : List Char} {fence : Fence} (h : Opens opening fence)
    (ls : List (List Char)) :
    fencedBlocks (opening :: ls) = fencedBlocksFrom (some fence) [] ls := by
  simp only [fencedBlocks, fencedBlocksFrom, fenceAfter_none, opensFence?_eq_some_iff.2 h]

theorem fencedBlocksFrom_inside {fence : Fence} {inside : List (List Char)}
    (h : ∀ l ∈ inside, ¬ Closes l fence) (before ls : List (List Char)) :
    fencedBlocksFrom (some fence) before (inside ++ ls) =
      fencedBlocksFrom (some fence) (inside.reverse ++ before) ls := by
  induction inside generalizing before with
  | nil => rfl
  | cons l inside ih =>
    have hl : fenceAfter (some fence) l = some fence := by
      rw [fenceAfter_some, if_neg fun hc => h l (by simp) (closedBy_iff.1 hc)]
    simp only [List.cons_append, fencedBlocksFrom, hl, ih (fun x hx => h x (by simp [hx])),
      List.reverse_cons, List.append_assoc, List.cons_append, List.nil_append]

theorem fencedBlocks_closed {opening closing : List Char} {fence : Fence}
    {inside : List (List Char)} (hopen : Opens opening fence)
    (hinside : ∀ l ∈ inside, ¬ Closes l fence) (hclose : Closes closing fence)
    (ls : List (List Char)) :
    fencedBlocks (opening :: (inside ++ closing :: ls)) = ⟨inside, true⟩ :: fencedBlocks ls := by
  have hnone : fenceAfter (some fence) closing = none := by
    rw [fenceAfter_some, if_pos (closedBy_iff.2 hclose)]
  rw [fencedBlocks_opens hopen, fencedBlocksFrom_inside hinside]
  simp [fencedBlocks, fencedBlocksFrom, hnone]

theorem fencedBlocks_unclosed {opening : List Char} {fence : Fence} {inside : List (List Char)}
    (hopen : Opens opening fence) (hinside : ∀ l ∈ inside, ¬ Closes l fence) :
    fencedBlocks (opening :: inside) = [⟨inside, false⟩] := by
  have hall := fencedBlocksFrom_inside hinside [] []
  rw [List.append_nil, List.append_nil] at hall
  rw [fencedBlocks_opens hopen, hall]
  simp [fencedBlocksFrom]

/-! ## The lines of a segment -/

/-- The lines of a text from which a segment was made. -/
def segmentLines (text : String) (g : Segment) : List (List Char) :=
  linesBetween (Text.lines text.toList) g.startLine g.endLine

theorem trimEnd_append (cs : List Char) :
    ∃ blanks, cs = trimEnd cs ++ blanks ∧ ∀ c ∈ blanks, isBlank c = true := by
  refine ⟨(cs.reverse.takeWhile isBlank).reverse, ?_, fun c hc => ?_⟩
  · rw [trimEnd, ← List.reverse_append, List.takeWhile_append_dropWhile, List.reverse_reverse]
  · exact List.all_eq_true.1 List.all_takeWhile c (List.mem_reverse.1 hc)

/-- A segment's content is its lines, without the blanks at the end. -/
theorem content_of_mem {file text : String} {g : Segment} (h : g ∈ markdownSegments file text) :
    segmentLines text g ≠ [] ∧
      g.content.toList = trimEnd (joinLines (segmentLines text g)) := by
  have hsegment : SegmentFrom file (Text.lines text.toList) 0 g :=
    Reading.start.mem_markdownFrom.1 h
  obtain ⟨first, last, level, heading, hs, -, -, rfl⟩ := hsegment
  refine ⟨fun hnil => ?_, by simp [segmentLines, sectionSegment]⟩
  have hlength := congrArg List.length hnil
  have hrange := hs.heading.range
  have hordered := hs.ordered
  simp [segmentLines, sectionSegment, linesBetween] at hlength
  omega

theorem not_mem_segmentLines {text : String} {g : Segment} {l : List Char}
    (h : l ∈ segmentLines text g) : '\n' ∉ l :=
  Text.not_mem_lines (List.mem_of_mem_take (List.mem_of_mem_drop h))

end StaleDocs.Docs
