/-
Which comments document which code (`comments_attach`). Every piece of top-level code has one
block: the longest run of comments right before it, of which none starts on the line where the
code before ends and each starts at most one line below the end of the one before. The scanner,
which carries an open block and the last line of code from node to node, lists that block under
the headings of the code if it ends right above the code and says something, and lists nothing
else.
-/
import Mathlib.Data.List.Chain
import StaleDocs.Proofs.Docs.StartLines
import StaleDocs.Proofs.Go.Siblings

namespace StaleDocs.Docs
open Go (Node Piece Code CommentText InOrder)

/-! ## What a comment says -/

/-- The lines that a comment says: none if it is a directive to the compiler; what follows the
mark, less one space, if it ends with its line; else what stands between its marks. -/
inductive Says : List Char → List (List Char) → Prop
  | directive (rest : List Char) : Says ("//go:".toList ++ rest) []
  | spaced (line : List Char) : Says ("// ".toList ++ line) [Text.trimEnd line]
  | line {line : List Char} (hgo : ¬ "go:".toList <+: line) (hspace : ¬ " ".toList <+: line) :
      Says ("//".toList ++ line) [Text.trimEnd line]
  | marked (body : List Char) :
      Says ("/*".toList ++ body ++ "*/".toList) ((Text.lines body).map Text.trim)

theorem after?_eq_none {start cs : List Char} (h : ¬ start <+: cs) :
    Text.after? start cs = none := by
  cases hafter : Text.after? start cs with
  | none => rfl
  | some rest => exact absurd ⟨rest, (Text.after?_eq_some_iff.1 hafter).symm⟩ h

/-- The scanner reads what a comment says. -/
theorem Says.commentLines_eq {comment : List Char} {ls : List (List Char)} (h : Says comment ls) :
    commentLines comment = ls := by
  cases h with
  | directive rest => rfl
  | spaced line => rfl
  | @line line hgo hspace =>
    have hspace : Text.after? [' '] line = none := after?_eq_none hspace
    simp only [commentLines, show "//".toList = ['/', '/'] from rfl, Text.after?_append,
      after?_eq_none hgo, hspace, Option.isSome_none, Bool.false_eq_true, if_false,
      Option.getD_none]
  | marked body =>
    have hbody : ((body ++ "*/".toList).take (body.length + 4 - 4)) = body := by simp
    have hlines : commentLines ("/*".toList ++ body ++ "*/".toList) =
        (Text.lines ((body ++ "*/".toList).take (body.length + 4 - 4))).map Text.trim := by
      simp [commentLines, Text.after?]
    rw [hlines, hbody]

/-- Every comment says something that can be told, if only that it has no lines. -/
theorem exists_says {comment : List Char} (h : CommentText comment) : ∃ ls, Says comment ls := by
  cases h with
  | marked body => exact ⟨_, .marked body⟩
  | @line rest _ =>
    by_cases hgo : "go:".toList <+: rest
    · obtain ⟨after, rfl⟩ := hgo
      exact ⟨_, .directive after⟩
    · by_cases hspace : " ".toList <+: rest
      · obtain ⟨after, rfl⟩ := hspace
        exact ⟨_, .spaced after⟩
      · exact ⟨_, .line hgo hspace⟩

/-- The text of a block of comments: all that its comments say. -/
def Tells (block : List Piece) (text : List Char) : Prop :=
  ∃ said, List.Forall₂ (fun c ls => Says c.text.toList ls) block said ∧
    text = Text.joinLines said.flatten

theorem Tells.commentText_eq {block : List Piece} {text : List Char} (h : Tells block text) :
    commentText block = Text.trim text := by
  obtain ⟨said, hsaid, rfl⟩ := h
  have hlines : block.flatMap (fun p => commentLines p.text.toList) = said.flatten := by
    induction hsaid with
    | nil => rfl
    | cons hc _ ih => rw [List.flatMap_cons, hc.commentLines_eq, ih, List.flatten_cons]
  rw [commentText, hlines]

theorem exists_tells {block : List Piece} (h : ∀ c ∈ block, CommentText c.text.toList) :
    ∃ text, Tells block text := by
  suffices ∃ said, List.Forall₂ (fun c : Piece => Says c.text.toList) block said from
    let ⟨said, hsaid⟩ := this
    ⟨_, said, hsaid, rfl⟩
  induction block with
  | nil => exact ⟨[], .nil⟩
  | cons c block ih =>
    obtain ⟨ls, hls⟩ := exists_says (h c List.mem_cons_self)
    obtain ⟨said, hsaid⟩ := ih fun c hc => h c (List.mem_cons_of_mem _ hc)
    exact ⟨ls :: said, .cons hls hsaid⟩

/-- A text is not empty when trimmed if it is not blank. -/
theorem trim_ne_nil_iff {cs : List Char} :
    Text.trim cs ≠ [] ↔ ∃ c ∈ cs, Text.isBlank c = false := by
  have hend : Text.trim cs = [] ↔ Text.isBlankText (Text.trimStart cs) = true := by
    rw [Text.trim, Text.trimEnd, List.reverse_eq_nil_iff, ← Text.trimStart,
      Text.trimStart_eq_nil_iff, Text.isBlankText, List.all_reverse, ← Text.isBlankText]
  have hstart : Text.isBlankText (Text.trimStart cs) = Text.isBlankText cs := by
    have hfront : (cs.takeWhile Text.isBlank).all Text.isBlank = true := List.all_takeWhile
    have hsplit : Text.isBlankText (cs.takeWhile Text.isBlank ++ Text.trimStart cs) =
        Text.isBlankText (Text.trimStart cs) := by
      simp only [Text.isBlankText, List.all_append, hfront, Bool.true_and]
    rw [← hsplit, Text.trimStart, List.takeWhile_append_dropWhile]
  rw [Ne, hend, hstart]
  simp [Text.isBlankText]

/-! ## Runs of comments -/

/-- The piece of a node that is code. -/
def code? : Node → Option Piece
  | .comment _ => none
  | .code _ _ p => some p

/-- The last piece of code among nodes. -/
def lastCode? (before : List Node) : Option Piece :=
  before.reverse.findSome? code?

variable {before : List Node} {block other : List Piece} {p : Piece}

@[simp] theorem lastCode?_comment (before : List Node) (p : Piece) :
    lastCode? (before ++ [.comment p]) = lastCode? before := by
  simp [lastCode?, List.findSome?_cons, code?]

@[simp] theorem lastCode?_code (before : List Node) (what : Code) (start : Go.Input) (p : Piece) :
    lastCode? (before ++ [.code what start p]) = some p := by
  simp [lastCode?, List.findSome?_cons, code?]

/-- What makes comments a run of comments after some nodes. -/
structure CommentRun (before : List Node) (block : List Piece) : Prop where
  /-- They come last, with no code between or after them. -/
  last : block.map .comment <:+ before
  /-- None starts on the line where code ends. -/
  apart : ∀ code ∈ lastCode? before, ∀ c ∈ block, c.line ≠ code.lastLine
  /-- Each starts at most one line below the end of the one before. -/
  adjacent : block.IsChain fun a b => b.line ≤ a.lastLine + 1

/-- The block of what comes after some nodes: the longest run. -/
structure DocBlock (before : List Node) (block : List Piece) : Prop
    extends CommentRun before block where
  longest : ∀ other, CommentRun before other → other.length ≤ block.length

theorem CommentRun.nil (before : List Node) : CommentRun before [] :=
  ⟨List.nil_suffix, by simp, .nil⟩

theorem DocBlock.unique (h : DocBlock before block) (ho : DocBlock before other) :
    other = block := by
  have hlength : other.length = block.length :=
    Nat.le_antisymm (h.longest _ ho.toCommentRun) (ho.longest _ h.toCommentRun)
  have hsuffix : other.map Node.comment <:+ block.map Node.comment :=
    List.suffix_of_suffix_length_le ho.last h.last (by simp [hlength])
  exact List.map_injective_iff.2 (fun _ _ h => Node.comment.inj h)
    (hsuffix.eq_of_length (by simp [hlength]))

/-- No run goes past code. -/
theorem CommentRun.after_code {what : Code} {start : Go.Input}
    (h : CommentRun (before ++ [.code what start p]) block) : block = [] := by
  rcases List.eq_nil_or_concat block with rfl | ⟨front, c, rfl⟩
  · rfl
  · obtain ⟨above, habove⟩ := h.last
    rw [List.concat_eq_append, List.map_append, ← List.append_assoc] at habove
    have hlast := (List.append_inj' habove rfl).2
    simp at hlast

/-- A run that is not empty ends with the last comment, after a run. -/
theorem CommentRun.after_comment (h : CommentRun (before ++ [.comment p]) block) :
    block = [] ∨ ∃ front, block = front ++ [p] ∧ CommentRun before front ∧
      (∀ code ∈ lastCode? before, p.line ≠ code.lastLine) ∧
      ∀ last ∈ front.getLast?, p.line ≤ last.lastLine + 1 := by
  rcases List.eq_nil_or_concat block with rfl | ⟨front, c, rfl⟩
  · exact .inl rfl
  · rw [List.concat_eq_append] at h ⊢
    obtain ⟨above, habove⟩ := h.last
    rw [List.map_append, ← List.append_assoc] at habove
    obtain ⟨hfront, hlast⟩ := List.append_inj' habove rfl
    obtain rfl : c = p := by simpa using hlast
    have hapart := h.apart
    rw [lastCode?_comment] at hapart
    obtain ⟨hchain, -, hadjacent⟩ := List.isChain_append.1 h.adjacent
    exact .inr ⟨front, rfl,
      ⟨⟨above, hfront⟩, fun code hcode c hc => hapart code hcode c (by simp [hc]), hchain⟩,
      fun code hcode => hapart code hcode c (by simp), fun last hl => hadjacent last hl c (by simp)⟩

theorem CommentRun.getLast?_eq (h : CommentRun before block) {last : Piece}
    (hlast : block.getLast? = some last) : before.getLast? = some (.comment last) := by
  obtain ⟨above, rfl⟩ := h.last
  simp [List.getLast?_append, List.getLast?_map, hlast]

/-- One more comment at the end of a run. -/
theorem CommentRun.concat (h : CommentRun before block)
    (hcode : ∀ code ∈ lastCode? before, p.line ≠ code.lastLine)
    (hlast : ∀ last ∈ block.getLast?, p.line ≤ last.lastLine + 1) :
    CommentRun (before ++ [.comment p]) (block ++ [p]) := by
  refine ⟨?_, fun code hc c hmem => ?_, List.isChain_append.2 ⟨h.adjacent, .singleton _, ?_⟩⟩
  · obtain ⟨above, rfl⟩ := h.last
    exact ⟨above, by simp⟩
  · rw [lastCode?_comment] at hc
    rcases List.mem_append.1 hmem with hmem | hmem
    · exact h.apart code hc c hmem
    · rw [List.mem_singleton.1 hmem]
      exact hcode code hc
  · simpa using hlast

/-! ## One node -/

theorem DocBlock.nil : DocBlock [] [] :=
  ⟨.nil [], fun other h => by simpa using h.last.length_le⟩

theorem DocBlock.after_code (before : List Node) (what : Code) (start : Go.Input) (p : Piece) :
    DocBlock (before ++ [.code what start p]) [] :=
  ⟨.nil _, fun other h => by simp [h.after_code]⟩

/-- A comment on the line where code ends starts no block, and belongs to none. -/
theorem DocBlock.trailing {code : Piece} (hcode : code ∈ lastCode? before)
    (hline : p.line = code.lastLine) : DocBlock (before ++ [.comment p]) [] := by
  refine ⟨.nil _, fun other h => ?_⟩
  rcases h.after_comment with rfl | ⟨front, -, -, hapart, -⟩
  · exact Nat.le_refl _
  · exact absurd hline (hapart code hcode)

/-- Any other comment goes on with the block if it is near enough, and else starts one. -/
theorem DocBlock.comment (h : DocBlock before block.reverse)
    (hcode : ∀ code ∈ lastCode? before, p.line ≠ code.lastLine) :
    DocBlock (before ++ [.comment p]) (extendBlock block p).reverse := by
  have hlast : ∀ {front}, CommentRun before front → front.length ≤ block.length := fun hfront => by
    simpa using h.longest _ hfront
  have halone : CommentRun (before ++ [.comment p]) [p] := by
    simpa using (CommentRun.nil before).concat hcode (by simp)
  cases block with
  | nil =>
    refine ⟨halone, fun other ho => ?_⟩
    rcases ho.after_comment with rfl | ⟨front, rfl, hfront, -⟩
    · simp
    · simpa [extendBlock] using hlast hfront
  | cons last rest =>
    simp only [extendBlock]
    split
    · next hnear =>
      refine ⟨?_, fun other ho => ?_⟩
      · rw [List.reverse_cons]
        exact h.toCommentRun.concat hcode (by simpa using hnear)
      · rcases ho.after_comment with rfl | ⟨front, rfl, hfront, -⟩
        · simp
        · simpa using hlast hfront
    · next hfar =>
      refine ⟨halone, fun other ho => ?_⟩
      rcases ho.after_comment with rfl | ⟨front, rfl, hfront, -, hnear⟩
      · simp
      · -- A longer run would go on with the comment before, which is too far up.
        cases htop : front.getLast? with
        | none => simp [List.getLast?_eq_none_iff.1 htop]
        | some top =>
          have hlast : (last :: rest).reverse.getLast? = some last := by simp
          cases (hfront.getLast?_eq htop).symm.trans (h.toCommentRun.getLast?_eq hlast)
          exact absurd (hnear _ htop) hfar

/-! ## All nodes -/

/-- A piece of top-level code with the nodes before it. -/
structure Site where
  before : List Node
  what : Code
  piece : Piece

/-- The pieces of code among nodes that come after others. -/
def sitesFrom (before : List Node) : List Node → List Site
  | [] => []
  | .comment p :: nodes => sitesFrom (before ++ [.comment p]) nodes
  | .code what start p :: nodes =>
    ⟨before, what, p⟩ :: sitesFrom (before ++ [.code what start p]) nodes

/-- Whether a block with a text documents a piece of code. -/
structure Documents (block : List Piece) (text : List Char) (p : Piece) : Prop where
  right_above : ∃ last ∈ block.getLast?, last.lastLine + 1 = p.line
  not_blank : ∃ c ∈ text, Text.isBlank c = false

/-- What the segment of a block with a text above a piece of code is, up to its heading. -/
structure Segment.Lists (g : Segment) (file : String) (block : List Piece) (text : List Char)
    (p : Piece) : Prop where
  file : g.file = file
  kind : g.kind = .goComment
  content : g.content.toList = Text.trim text
  first : ∃ first ∈ block.head?, g.startLine = first.line
  last : ∃ last ∈ block.getLast?, g.endLine = last.lastLine
  right_above : g.endLine + 1 = p.line
  filled : ∀ n, g.startLine ≤ n → n ≤ g.endLine → ∃ c ∈ block, c.line ≤ n ∧ n ≤ c.lastLine

/-- What is listed for a piece of code: the text of its one block under each heading, if the
block documents it. -/
def Site.Lists (file : String) (site : Site) (segments : List Segment) : Prop :=
  ∃ block text, (∀ other, DocBlock site.before other ↔ other = block) ∧ Tells block text ∧
    (Documents block text site.piece →
      segments.map (fun g => (g.heading, g.level)) = headings site.what ∧
      ∀ g ∈ segments, g.Lists file block text site.piece) ∧
    (¬ Documents block text site.piece → segments = [])

/-- Every line of a run is one of a comment. -/
theorem exists_comment_of_line (hchain : block.IsChain fun a b => b.line ≤ a.lastLine + 1)
    {first last : Piece} (hfirst : first ∈ block.head?) (hlast : last ∈ block.getLast?) {n : Nat}
    (hle : first.line ≤ n) (hge : n ≤ last.lastLine) :
    ∃ c ∈ block, c.line ≤ n ∧ n ≤ c.lastLine := by
  induction block generalizing first with
  | nil => cases hfirst
  | cons c block ih =>
    obtain rfl : c = first := by simpa using hfirst
    by_cases hn : n ≤ c.lastLine
    · exact ⟨c, List.mem_cons_self, hle, hn⟩
    · cases block with
      | nil =>
        obtain rfl : c = last := by simpa using hlast
        exact absurd hge hn
      | cons d block =>
        have hnext : d.line ≤ c.lastLine + 1 := (List.isChain_cons_cons.1 hchain).1
        obtain ⟨e, he, hen⟩ := ih hchain.tail rfl (by simpa using hlast) (by omega)
        exact ⟨e, List.mem_cons_of_mem _ he, hen⟩

/-- The comments among nodes are written as such. -/
def WrittenComments (nodes : List Node) : Prop :=
  ∀ p, .comment p ∈ nodes → CommentText p.text.toList

theorem blockSegments_lists (file : String) {block : List Piece} {text : List Char}
    (htext : Tells block.reverse text)
    (hchain : block.reverse.IsChain fun a b => b.line ≤ a.lastLine + 1) (what : Code) {p : Piece}
    (h : Documents block.reverse text p) :
    (blockSegments file block what).map (fun g => (g.heading, g.level)) = headings what ∧
      ∀ g ∈ blockSegments file block what, g.Lists file block.reverse text p := by
  obtain ⟨⟨last, hlast, habove⟩, hblank⟩ := h
  obtain ⟨c, cs, hcs⟩ := List.exists_cons_of_ne_nil (trim_ne_nil_iff.2 hblank)
  obtain ⟨rest, rfl⟩ : ∃ rest, block = last :: rest := by
    cases block with
    | nil => cases hlast
    | cons l rest => exact ⟨rest, by simpa using hlast⟩
  obtain ⟨first, hfirst⟩ : ∃ first, (last :: rest).getLast? = some first :=
    ⟨_, List.getLast?_eq_some_getLast (List.cons_ne_nil _ _)⟩
  simp only [blockSegments, hfirst, htext.commentText_eq, hcs, List.map_map, List.forall_mem_map]
  refine ⟨by simp [Function.comp_def], fun x _ => ?_⟩
  have hhead : first ∈ (last :: rest).reverse.head? := by
    rw [List.head?_reverse]
    exact hfirst
  exact {
    file := rfl
    kind := rfl
    content := by simp [hcs]
    first := ⟨first, hhead, rfl⟩
    last := ⟨last, hlast, rfl⟩
    right_above := habove
    filled := fun n hle hge => exists_comment_of_line hchain hhead hlast hle hge }

theorem site_lists (file : String) (h : DocBlock before block.reverse)
    (hwritten : WrittenComments before) (what : Code) (p : Piece) :
    Site.Lists file ⟨before, what, p⟩
      (if isRightAbove block p then blockSegments file block what else []) := by
  have hform : ∀ c ∈ block.reverse, CommentText c.text.toList := fun c hc =>
    hwritten c (h.last.subset (List.mem_map_of_mem hc))
  obtain ⟨text, htext⟩ := exists_tells hform
  have habove : isRightAbove block p = true ↔
      ∃ last ∈ block.reverse.getLast?, last.lastLine + 1 = p.line := by
    cases block <;> simp [isRightAbove]
  refine ⟨block.reverse, text, fun other => ⟨h.unique, fun ho => ho ▸ h⟩, htext, fun hdoc => ?_,
    fun hdoc => ?_⟩
  · rw [if_pos (habove.2 hdoc.right_above)]
    exact blockSegments_lists file htext h.adjacent what hdoc
  · split
    · next hright =>
      -- The block is right above, so it can only be blank.
      have hblank : Text.trim text = [] := by
        by_contra hne
        exact hdoc ⟨habove.1 hright, trim_ne_nil_iff.1 hne⟩
      simp [blockSegments, htext.commentText_eq, hblank]
    · rfl

/-- What is known after some nodes, of which the last ends on a line. -/
structure Scanned (before : List Node) (line : Nat) (block : List Piece) (codeEnd : Option Nat) :
    Prop where
  code : codeEnd = (lastCode? before).map Piece.lastLine
  docBlock : DocBlock before block.reverse
  reached : ∀ last ∈ codeEnd, last ≤ line
  below : ∀ c ∈ block, c.line ≤ line ∧ ∀ last ∈ codeEnd, last < c.line

variable {line : Nat} {codeEnd : Option Nat}

theorem Scanned.start (line : Nat) : Scanned [] line [] none :=
  ⟨rfl, .nil, by simp, by simp⟩

/-- After a comment on the line where code ends. -/
theorem Scanned.trailing (h : Scanned before line block codeEnd) (hp : line ≤ p.line)
    (hend : codeEnd = some p.line) : Scanned (before ++ [.comment p]) p.lastLine block codeEnd := by
  -- The comments of an open block start below the code and no further down than this one.
  obtain rfl : block = [] := List.eq_nil_iff_forall_not_mem.2 fun c hc => by
    have hbelow := h.below c hc
    have := hbelow.2 _ hend
    omega
  obtain ⟨code, hcode, hline⟩ := Option.map_eq_some_iff.1 (h.code.symm.trans hend)
  refine ⟨by rw [lastCode?_comment, h.code], .trailing hcode hline.symm, fun last hlast => ?_,
    by simp⟩
  exact Nat.le_trans (h.reached last hlast) (Nat.le_trans hp (lastLine_ge p))

/-- After any other comment. -/
theorem Scanned.comment (h : Scanned before line block codeEnd) (hp : line ≤ p.line)
    (hend : codeEnd ≠ some p.line) :
    Scanned (before ++ [.comment p]) p.lastLine (extendBlock block p) codeEnd := by
  have hapart : ∀ code ∈ lastCode? before, p.line ≠ code.lastLine := fun code hcode heq =>
    hend (by rw [h.code, heq, hcode, Option.map_some])
  have hlast := lastLine_ge p
  have hnew : p.line ≤ p.lastLine ∧ ∀ last ∈ codeEnd, last < p.line := by
    refine ⟨hlast, fun last hl => Nat.lt_of_le_of_ne (Nat.le_trans (h.reached last hl) hp) ?_⟩
    rintro rfl
    exact hend hl
  refine ⟨by rw [lastCode?_comment, h.code], h.docBlock.comment hapart, fun last hl => ?_, ?_⟩
  · exact Nat.le_trans (h.reached last hl) (Nat.le_trans hp hlast)
  · have hmem : ∀ c ∈ extendBlock block p, c = p ∨ c ∈ block := by
      cases block <;> grind [extendBlock]
    intro c hc
    rcases hmem c hc with rfl | hc
    · exact hnew
    · exact ⟨by have := (h.below c hc).1; omega, (h.below c hc).2⟩

/-- After a piece of code. -/
theorem Scanned.afterCode (before : List Node) (what : Code) (start : Go.Input) (p : Piece) :
    Scanned (before ++ [.code what start p]) p.lastLine [] (some p.lastLine) :=
  ⟨by simp, .after_code before what start p, by simp, by simp⟩

/-- The segments of the nodes that come after others are those listed for their code. -/
theorem Scanned.lists (file : String) {nodes : List Node} : ∀ {before : List Node} {line : Nat}
    {block : List Piece} {codeEnd : Option Nat}, Scanned before line block codeEnd →
    InOrder line nodes → WrittenComments (before ++ nodes) →
    ∃ parts, commentSegmentsFrom file block codeEnd nodes = parts.flatten ∧
      List.Forall₂ (Site.Lists file) (sitesFrom before nodes) parts := by
  induction nodes with
  | nil => intro before line block codeEnd _ _ _; exact ⟨[], rfl, .nil⟩
  | cons node nodes ih =>
    intro before line block codeEnd h hord hwritten
    obtain ⟨hline, hrest⟩ := hord
    have happend : before ++ node :: nodes = before ++ [node] ++ nodes := by simp
    cases node with
    | comment p =>
      simp only [commentSegmentsFrom]
      split
      · next hend => exact ih (h.trailing hline hend) hrest (happend ▸ hwritten)
      · next hend => exact ih (h.comment hline hend) hrest (happend ▸ hwritten)
    | code what start p =>
      obtain ⟨parts, hparts, hall⟩ :=
        ih (.afterCode before what start p) hrest (happend ▸ hwritten)
      refine ⟨_ :: parts, by rw [commentSegmentsFrom, hparts, List.flatten_cons], .cons ?_ hall⟩
      exact site_lists file h.docBlock (fun c hc => hwritten c (List.mem_append_left _ hc)) what p

theorem writtenComments_nodes? {source : String} {nodes : List Node}
    (h : Go.nodes? source = some nodes) : WrittenComments nodes := by
  obtain ⟨n, hplaced⟩ := Go.nodes?_placed h
  intro p hp
  have hnode := hplaced _ hp
  cases hnode with
  | @comment before rest l hwhole hkind =>
    have hl : l ∈ Go.scan source := hwhole ▸ by simp
    have htext : (Piece.text ⟨1 + Go.lineFeeds before, [l]⟩).toList = l.text.toList := by
      simp [Piece.text, Go.spell_toList]
    exact htext ▸ ((Go.scan_eq source).2 l hl).comment hkind

/-- **Comments attach to the code right below them.** The top-level nodes of every source come in
order, with comments that are written as such. And for all nodes that do, the segments are those
listed for the pieces of code, one piece after the other: for each that has a block of comments
right above it with a text that is not blank, the trimmed text of that block under every heading
of the piece, and nothing for any other. The block is the longest run of comments before the
piece, the lines of a segment are those of the block's comments, and segments of different
blocks start one below the other. -/
theorem comments_attach (file : String) :
    (∀ source nodes, Go.nodes? source = some nodes →
      InOrder 1 nodes ∧ WrittenComments nodes ∧
      goSegments? file source = some (commentSegmentsFrom file [] none nodes)) ∧
    ∀ nodes, InOrder 1 nodes → WrittenComments nodes →
      ∃ parts, commentSegmentsFrom file [] none nodes = parts.flatten ∧
        List.Forall₂ (Site.Lists file) (sitesFrom [] nodes) parts ∧
        parts.flatten.Pairwise fun a b => a.SameBlock b ∨ a.startLine < b.startLine := by
  refine ⟨fun source nodes h => ?_, fun nodes hord hwritten => ?_⟩
  · exact ⟨Go.inOrder_nodes? h, writtenComments_nodes? h, by rw [goSegments?, h, Option.map_some]⟩
  · obtain ⟨parts, hparts, hlists⟩ := (Scanned.start 1).lists file hord hwritten
    refine ⟨parts, hparts, hlists, hparts ▸ ?_⟩
    exact (descending_commentSegmentsFrom hord (.nil 1 1) (Nat.le_refl 1)).starts

/-- A source with comments that document the package and a group of types, and some that
document nothing. -/
def commentedSource : String :=
  "// Package p.\npackage p // clause\n// V is\n//go:embed v\nvar V int\n\n" ++
    "// Apart.\n\n/* T and */ // U go\n// together.\n//go:generate x\ntype (\n\tT int\n\tU = T\n)\n"

theorem comments_attach_commentedSource : ∃ nodes parts,
    Go.nodes? commentedSource = some nodes ∧ InOrder 1 nodes ∧ WrittenComments nodes ∧
    List.Forall₂ (Site.Lists "p.go") (sitesFrom [] nodes) parts ∧
    parts.flatten.map (fun g => (g.heading, g.startLine, g.endLine, g.content)) =
      [("Package p", 1, 1, "Package p."), ("type T", 9, 11, "T and\nU go\ntogether."),
        ("type U", 9, 11, "T and\nU go\ntogether.")] := by
  have hread : (goSegments? "p.go" commentedSource).map
      (·.map fun g => (g.heading, g.startLine, g.endLine, g.content)) =
      some [("Package p", 1, 1, "Package p."), ("type T", 9, 11, "T and\nU go\ntogether."),
        ("type U", 9, 11, "T and\nU go\ntogether.")] := by decide +kernel
  obtain ⟨segments, hsegments, hread⟩ := Option.map_eq_some_iff.1 hread
  obtain ⟨nodes, hnodes, rfl⟩ := Option.map_eq_some_iff.1 hsegments
  obtain ⟨hord, hwritten, -⟩ := (comments_attach "p.go").1 _ nodes hnodes
  obtain ⟨parts, hparts, hlists, -⟩ := (comments_attach "p.go").2 nodes hord hwritten
  exact ⟨nodes, parts, hnodes, hord, hwritten, hlists, hparts ▸ hread⟩

end StaleDocs.Docs
