/-
The line that a segment starts on says which segment of its file it is, up to
its heading (`sameBlock_of_startLine`): in Markdown each heading starts a
segment of its own, further down than the ones before, and in source a block
of comments is read at most once, before the code right under it, but may be
listed under several headings.
-/
import Mathlib.Data.List.Nodup
import Mathlib.Data.List.Pairwise
import StaleDocs.Docs.Sources

namespace StaleDocs

namespace Go

/-- Where a node stands. -/
def Node.piece : Node → Piece
  | .comment p => p
  | .code _ _ p => p

/-- Whether nodes stand one after the other, none above a line. -/
def InOrder (line : Nat) : List Node → Prop
  | [] => True
  | node :: nodes => line ≤ node.piece.line ∧ InOrder node.piece.lastLine nodes

theorem InOrder.mono {line line' : Nat} (hle : line' ≤ line) {nodes : List Node}
    (h : InOrder line nodes) : InOrder line' nodes := by
  cases nodes with
  | nil => trivial
  | cons node nodes => exact ⟨Nat.le_trans hle h.1, h.2⟩

/-- The nodes of a source come in order. -/
theorem inOrder_nodesFrom {n : Nat} {rules : Rules} {fuel : Nat} :
    ∀ {unclosed : Bool} {line : Nat} {s : Input} {nodes : List Node},
      nodesFrom n rules unclosed line fuel s = some nodes → InOrder line nodes := by
  induction fuel with
  | zero => intro unclosed line s nodes h; simp [nodesFrom] at h
  | succ fuel ih =>
    intro unclosed line s nodes h
    cases s with
    | nil =>
      simp only [nodesFrom, Option.some.injEq] at h
      subst h
      trivial
    | cons l s =>
      simp only [nodesFrom] at h
      split at h
      · simp only [bind, Option.bind_eq_some_iff, pure, Option.some.injEq] at h
        obtain ⟨rest, hrest, rfl⟩ := h
        refine ⟨Nat.le_refl _, ?_⟩
        have hone : lineFeeds [l] = l.lineFeeds := by simp [lineFeeds, Lexeme.lineFeeds]
        simpa only [Node.piece, Piece.lastLine, hone] using ih hrest
      · exact (ih h).mono (Nat.le_add_right _ _)
      · exact (ih h).mono (Nat.le_add_right _ _)
      · split at h
        · split at h
          · exact (ih h).mono (Nat.le_add_right _ _)
          · cases h
        · simp only [bind, Option.bind_eq_some_iff, pure, Option.some.injEq] at h
          obtain ⟨⟨what, rest⟩, -, tail, htail, rfl⟩ := h
          exact ⟨Nat.le_refl _, ih htail⟩

/-- All nodes of a source. -/
theorem inOrder_nodes? {source : String} {nodes : List Node} (h : nodes? source = some nodes) :
    InOrder 1 nodes := by
  simp only [nodes?] at h
  split at h
  · cases h
  · exact inOrder_nodesFrom h

end Go

namespace Docs
open Go (Node Piece Code InOrder)

/-- Whether two segments are the same piece of documentation, under headings that may differ. -/
def Segment.SameBlock (a b : Segment) : Prop := { a with heading := b.heading } = b

instance (a b : Segment) : Decidable (a.SameBlock b) := inferInstanceAs (Decidable (_ = _))

theorem Segment.SameBlock.refl (a : Segment) : a.SameBlock a := rfl

theorem Segment.SameBlock.symm {a b : Segment} (h : a.SameBlock b) : b.SameBlock a := by
  rw [← h]
  rfl

theorem Segment.SameBlock.file {a b : Segment} (h : a.SameBlock b) : a.file = b.file := by
  rw [← h]

theorem Segment.SameBlock.startLine {a b : Segment} (h : a.SameBlock b) :
    a.startLine = b.startLine := by
  rw [← h]

/-- What the segments of one file are, none of which starts above a line: they all belong to the
file, and each starts further down than those before it, unless it is the same block as
they. -/
structure Descending (file : String) (line : Nat) (segments : List Segment) : Prop where
  file : ∀ g ∈ segments, g.file = file
  below : ∀ g ∈ segments, line ≤ g.startLine
  starts : segments.Pairwise fun a b => a.SameBlock b ∨ a.startLine < b.startLine

theorem Descending.nil (file : String) (line : Nat) : Descending file line [] :=
  ⟨by simp, by simp, .nil⟩

theorem Descending.mono {file : String} {line line' : Nat} (hle : line' ≤ line)
    {segments : List Segment} (h : Descending file line segments) : Descending file line' segments :=
  ⟨h.file, fun g hg => Nat.le_trans hle (h.below g hg), h.starts⟩

/-- One block, which may be listed under several headings, before segments further down. -/
theorem Descending.append {file : String} {line next : Nat} {block rest : List Segment}
    (hfile : ∀ g ∈ block, g.file = file) (hstart : ∀ g ∈ block, g.startLine = line)
    (hsame : ∀ a ∈ block, ∀ b ∈ block, a.SameBlock b) (hlt : line < next)
    (hrest : Descending file next rest) : Descending file line (block ++ rest) := by
  refine ⟨fun g hg => ?_, fun g hg => ?_, List.pairwise_append.2 ⟨?_, hrest.starts, ?_⟩⟩
  · rcases List.mem_append.1 hg with hg | hg
    · exact hfile g hg
    · exact hrest.file g hg
  · rcases List.mem_append.1 hg with hg | hg
    · exact Nat.le_of_eq (hstart g hg).symm
    · exact Nat.le_trans (Nat.le_of_lt hlt) (hrest.below g hg)
  · exact List.pairwise_of_forall_mem_list fun a ha b hb => .inl (hsame a ha b hb)
  · intro a ha b hb
    exact .inr (hstart a ha ▸ Nat.lt_of_lt_of_le hlt (hrest.below b hb))

/-! ## Markdown -/

theorem close_eq_some {file : String} {last : Nat} {s : OpenSegment} {g : Segment}
    (h : s.close file last = some g) : g.file = file ∧ g.startLine = s.startLine := by
  simp only [OpenSegment.close] at h
  split at h
  · cases h
  · cases h
    exact ⟨rfl, rfl⟩

/-- Closing a segment that may be open puts at most one segment before those from line `n` on. -/
theorem Descending.close {file : String} {current : Option OpenSegment} {line n : Nat} (last : Nat)
    {rest : List Segment} (hle : line ≤ n)
    (hcur : ∀ s ∈ current, line ≤ s.startLine ∧ s.startLine < n) (hrest : Descending file n rest) :
    Descending file line ((current.bind (OpenSegment.close file last)).toList ++ rest) := by
  cases hc : current.bind (OpenSegment.close file last) with
  | none => exact hrest.mono hle
  | some g =>
    obtain ⟨s, hs, hg⟩ := Option.bind_eq_some_iff.1 hc
    obtain ⟨hfile, hstart⟩ := close_eq_some hg
    obtain ⟨hlow, hhigh⟩ := hcur s hs
    refine Descending.mono (hstart ▸ hlow) (Descending.append ?_ ?_ ?_ (hstart ▸ hhigh) hrest)
    · simpa using hfile
    · simp
    · simpa using Segment.SameBlock.refl g

/-- The lines from number `n` on, with a segment that may be open and started above. -/
theorem descending_markdownFrom {file : String} {ls : List (List Char)} :
    ∀ {fence : Option Fence} {current : Option OpenSegment} {line n : Nat}, line ≤ n →
      (∀ s ∈ current, line ≤ s.startLine ∧ s.startLine < n) →
      Descending file line (markdownFrom file fence current n ls) := by
  induction ls with
  | nil =>
    intro fence current line n hle hcur
    simpa [markdownFrom] using Descending.close (n - 1) hle hcur (.nil file n)
  | cons l ls ih =>
    intro fence current line n hle hcur
    simp only [markdownFrom]
    split
    · exact Descending.close (n - 1) hle hcur (ih (Nat.le_succ n) (by simp))
    · refine ih (by omega) fun s hs => ?_
      obtain ⟨t, ht, rfl⟩ := Option.map_eq_some_iff.1 hs
      have := hcur t ht
      exact ⟨this.1, Nat.lt_succ_of_lt this.2⟩

/-! ## Source -/

/-- What is known of an open block of comments, last first, when reading has come to a line and
the block starts no higher than another. -/
structure BlockAbove (low line : Nat) (block : List Piece) : Prop where
  low : ∀ p ∈ block, low ≤ p.line
  starts : ∀ p ∈ block, ∀ last ∈ block.head?, p.line ≤ last.lastLine
  ends : ∀ last ∈ block.head?, last.lastLine ≤ line

theorem BlockAbove.nil (low line : Nat) : BlockAbove low line [] := ⟨by simp, by simp, by simp⟩

theorem lastLine_ge (p : Piece) : p.line ≤ p.lastLine := Nat.le_add_right _ _

theorem BlockAbove.mono {low line line' : Nat} (hle : line ≤ line') {block : List Piece}
    (h : BlockAbove low line block) : BlockAbove low line' block :=
  ⟨h.low, h.starts, fun last hl => Nat.le_trans (h.ends last hl) hle⟩

/-- One more comment, wherever it goes, below the line that was reached. -/
theorem BlockAbove.extend {low line : Nat} {block : List Piece} (h : BlockAbove low line block)
    (hlow : low ≤ line) {p : Piece} (hp : line ≤ p.line) :
    BlockAbove low p.lastLine (extendBlock block p) := by
  have halone : BlockAbove low p.lastLine [p] :=
    ⟨by simp; omega, by simpa using lastLine_ge p, by simp⟩
  cases block with
  | nil => exact halone
  | cons last rest =>
    simp only [extendBlock]
    split
    · refine ⟨?_, ?_, by simp⟩
      · intro q hq
        rcases List.mem_cons.1 hq with rfl | hq
        · omega
        · exact h.low q hq
      · intro q hq top htop
        rw [List.head?_cons, Option.mem_some_iff] at htop
        subst htop
        rcases List.mem_cons.1 hq with rfl | hq
        · exact lastLine_ge q
        · have h₁ := h.starts q hq last rfl
          have h₂ := h.ends last rfl
          have h₃ := lastLine_ge p
          omega
    · exact halone

theorem headings_level {what : Code} {x y : String × Nat} (hx : x ∈ headings what)
    (hy : y ∈ headings what) : x.2 = y.2 := by
  cases what <;> simp only [headings, List.mem_singleton, List.mem_map, List.not_mem_nil] at hx hy
  · rw [hx, hy]
  · rw [hx, hy]
  · obtain ⟨_, -, rfl⟩ := hx
    obtain ⟨_, -, rfl⟩ := hy
    rfl

/-- The segments of a block all start with its first comment and differ in their headings only. -/
theorem blockSegments_cases (file : String) (block : List Piece) (what : Code) :
    blockSegments file block what = [] ∨ ∃ first ∈ block.getLast?,
      (∀ g ∈ blockSegments file block what, g.file = file) ∧
      (∀ g ∈ blockSegments file block what, g.startLine = first.line) ∧
      ∀ a ∈ blockSegments file block what, ∀ b ∈ blockSegments file block what, a.SameBlock b := by
  simp only [blockSegments]
  split
  · next first last rest c cs hfirst htext =>
    refine .inr ⟨first, hfirst, ?_, ?_, ?_⟩
    · intro g hg
      obtain ⟨x, -, rfl⟩ := List.mem_map.1 hg
      rfl
    · intro g hg
      obtain ⟨x, -, rfl⟩ := List.mem_map.1 hg
      rfl
    · intro a ha b hb
      obtain ⟨x, hx, rfl⟩ := List.mem_map.1 ha
      obtain ⟨y, hy, rfl⟩ := List.mem_map.1 hb
      simp [Segment.SameBlock, headings_level hx hy]
  · exact .inl rfl

/-- The segments of the nodes from a line on. The block above the next code is read before
that code and never again, and the rest starts below. -/
theorem descending_commentSegmentsFrom {file : String} {nodes : List Node} :
    ∀ {block : List Piece} {codeEnd : Option Nat} {low line : Nat}, InOrder line nodes →
      BlockAbove low line block → low ≤ line →
      Descending file low (commentSegmentsFrom file block codeEnd nodes) := by
  induction nodes with
  | nil => intro block codeEnd low line _ _ _; exact .nil file low
  | cons node nodes ih =>
    intro block codeEnd low line hord hblock hlow
    obtain ⟨hline, hrest⟩ := hord
    cases node with
    | comment p =>
      have hline : line ≤ p.line := hline
      have hrest : InOrder p.lastLine nodes := hrest
      have hlast := lastLine_ge p
      simp only [commentSegmentsFrom]
      split
      · exact ih hrest (hblock.mono (by omega)) (by omega)
      · exact ih hrest (hblock.extend hlow hline) (by omega)
    | code what start p =>
      have hline : line ≤ p.line := hline
      have hlast := lastLine_ge p
      have hbelow : Descending file p.lastLine
          (commentSegmentsFrom file [] (some p.lastLine) nodes) :=
        ih hrest (.nil _ _) (Nat.le_refl _)
      have hskip := hbelow.mono (show low ≤ p.lastLine by omega)
      simp only [commentSegmentsFrom]
      split
      · next habove =>
        rcases blockSegments_cases file block what with hnone | ⟨first, hfirst, hfile, hstart, hsame⟩
        · rw [hnone]
          exact hskip
        · have hmem : first ∈ block := List.mem_of_getLast? hfirst
          refine Descending.mono (hblock.low first hmem)
            (Descending.append hfile hstart hsame ?_ hbelow)
          cases block with
          | nil => cases hmem
          | cons last rest =>
            have h₁ := hblock.starts first hmem last rfl
            simp only [isRightAbove, decide_eq_true_eq] at habove
            omega
      · exact hskip

/-! ## Files -/

/-- Whether segments are all that one file holds, read as Markdown or as source. -/
def ScannedFrom (file : String) (segments : List Segment) : Prop :=
  ∃ text, segments = markdownSegments file text ∨ goSegments file text = .ok segments

theorem ScannedFrom.descending {file : String} {segments : List Segment}
    (h : ScannedFrom file segments) : Descending file 1 segments := by
  obtain ⟨text, rfl | h⟩ := h
  · exact descending_markdownFrom (Nat.le_refl 1) (by simp)
  · simp only [goSegments, goSegments?] at h
    split at h
    · next segments' hs =>
      cases h
      obtain ⟨nodes, hnodes, rfl⟩ := Option.map_eq_some_iff.1 hs
      exact descending_commentSegmentsFrom (Go.inOrder_nodes? hnodes) (.nil _ _) (Nat.le_refl 1)
    · cases h

/-- Segments of one file that start on one line are the same block. -/
theorem Descending.sameBlock {file : String} {line : Nat} {segments : List Segment}
    (h : Descending file line segments) {a b : Segment} (ha : a ∈ segments) (hb : b ∈ segments)
    (hline : a.startLine = b.startLine) : a.SameBlock b := by
  have hpair : segments.Pairwise fun a b => a.startLine = b.startLine → a.SameBlock b :=
    h.starts.imp fun {a b} hab heq => hab.resolve_right (by omega)
  have : Std.Symm fun a b : Segment => a.startLine = b.startLine → a.SameBlock b :=
    ⟨fun _ _ hab heq => (hab heq.symm).symm⟩
  exact hpair.forall_of_forall (fun g _ _ => .refl g) ha hb hline

/-- **A file and a line say which segment is meant**, up to its heading, among the segments of
files that are all different. -/
theorem sameBlock_of_startLine {files : List (String × List Segment)}
    (hscan : ∀ f ∈ files, ScannedFrom f.1 f.2) (hnodup : (files.map (·.1)).Nodup) {a b : Segment}
    (ha : a ∈ files.flatMap (·.2)) (hb : b ∈ files.flatMap (·.2)) (hfile : a.file = b.file)
    (hline : a.startLine = b.startLine) : a.SameBlock b := by
  obtain ⟨f, hf, ha⟩ := List.mem_flatMap.1 ha
  obtain ⟨g, hg, hb⟩ := List.mem_flatMap.1 hb
  have hf' := (hscan f hf).descending
  have hg' := (hscan g hg).descending
  have heq : f = g :=
    List.inj_on_of_nodup_map hnodup hf hg (by rw [← hf'.file a ha, ← hg'.file b hb, hfile])
  subst heq
  exact hf'.sameBlock ha hb hline

end Docs
end StaleDocs
