/-
Where a top-level node stands among the lexemes of a source, which spell it (`spell_scan`). It is a
run of them that starts on the line it is said to start on (`Node.Placed`): a single comment, or
what the rules read as one piece of code. So the piece of a node, and that of a specification of a
type declaration, is a part of the source text (`Piece.StandsIn`).
-/
import Mathlib.Data.List.TakeWhile
import StaleDocs.Go.Source
import StaleDocs.Proofs.Go.Remainder
import StaleDocs.Proofs.Go.TopLevel

namespace StaleDocs.Go

/-! ## Lexemes -/

/-- What a comment is written as. -/
inductive CommentText : List Char → Prop
  | line {rest : List Char} (h : '\n' ∉ rest) : CommentText ("//".toList ++ rest)
  | marked (body : List Char) : CommentText ("/*".toList ++ body ++ "*/".toList)

/-- What every lexeme of a source is: not empty, and a comment only if it is written as one. -/
structure Lexeme.WellFormed (l : Lexeme) : Prop where
  nonempty : l.text ≠ ""
  comment : l.kind = .comment → CommentText l.text.toList

theorem blockCommentFrom_eq_some {cs : List Char} : ∀ {k n : Nat}, blockCommentFrom k cs = some n →
    ∃ body rest, cs = body ++ "*/".toList ++ rest ∧ n = k + body.length + 2 := by
  induction cs with
  | nil => intro k n h; cases h
  | cons c cs ih =>
    intro k n h
    unfold blockCommentFrom at h
    split at h
    · next cs' heq =>
      cases h
      exact ⟨[], cs', by simpa using heq, rfl⟩
    · next c' cs' _ heq =>
      cases heq
      obtain ⟨body, rest, rfl, rfl⟩ := ih h
      exact ⟨c :: body, rest, by simp, by simp; omega⟩
    · next heq => cases heq

theorem comment_eq_some {cs : List Char} {n : Nat} (h : comment cs = some n) :
    1 ≤ n ∧ CommentText (cs.take n) := by
  unfold comment at h
  split at h
  · next rest =>
    cases h
    refine ⟨by omega, ?_⟩
    have hline : '\n' ∉ rest.takeWhile (· ≠ '\n') := fun hmem => by
      simpa using List.mem_takeWhile_imp hmem
    have htake : rest.take (rest.takeWhile (· ≠ '\n')).length = rest.takeWhile (· ≠ '\n') :=
      (List.prefix_iff_eq_take.1 (List.takeWhile_prefix _)).symm
    rw [Nat.add_comm, List.take_succ_cons, List.take_succ_cons, htake]
    exact .line hline
  · next rest =>
    obtain ⟨body, after, rfl, rfl⟩ := blockCommentFrom_eq_some h
    refine ⟨by omega, ?_⟩
    have hform := CommentText.marked body
    have htake : (body ++ "*/".toList ++ after).take (body.length + 2) = body ++ "*/".toList := by
      rw [show body.length + 2 = (body ++ "*/".toList).length by simp, List.take_left]
    rw [show 2 + body.length + 2 = body.length + 2 + 1 + 1 by omega, List.take_succ_cons,
      List.take_succ_cons, htake]
    simpa using hform
  · cases h

theorem lexemeAt_wellFormed (c : Char) (cs : List Char) :
    Lexeme.WellFormed
      ⟨(lexemeAt c cs).1, String.ofList (c :: cs.take ((lexemeAt c cs).2 - 1))⟩ := by
  refine ⟨by simp, fun hkind => ?_⟩
  have hcomment : comment (c :: cs) = some (lexemeAt c cs).2 := by
    dsimp only at hkind
    unfold lexemeAt at hkind ⊢
    grind
  obtain ⟨hpos, hform⟩ := comment_eq_some hcomment
  generalize (lexemeAt c cs).2 = n at *
  obtain ⟨n, rfl⟩ := Nat.exists_eq_add_of_le' hpos
  simpa using hform

/-- The lexemes of a text, which spell it. -/
theorem scanFrom_eq {fuel : Nat} : ∀ {out : List Lexeme} {cs : List Char}, cs.length ≤ fuel →
    ∃ ls, scanFrom out fuel cs = out.reverse ++ ls ∧ ls.flatMap (·.text.toList) = cs ∧
      ∀ l ∈ ls, l.WellFormed := by
  induction fuel with
  | zero =>
    intro out cs h
    cases List.length_eq_zero_iff.1 (Nat.le_zero.1 h)
    exact ⟨[], by simp [scanFrom], rfl, by simp⟩
  | succ fuel ih =>
    intro out cs h
    cases cs with
    | nil => exact ⟨[], by simp [scanFrom], rfl, by simp⟩
    | cons c cs =>
      have hle : (cs.drop ((lexemeAt c cs).2 - 1)).length ≤ fuel := by
        simp only [List.length_cons] at h
        simp only [List.length_drop]
        omega
      let l : Lexeme := ⟨(lexemeAt c cs).1, String.ofList (c :: cs.take ((lexemeAt c cs).2 - 1))⟩
      obtain ⟨ls, hscan, hspell, hform⟩ := @ih (l :: out) _ hle
      refine ⟨l :: ls, ?_, by simp [hspell, l],
        List.forall_mem_cons.2 ⟨lexemeAt_wellFormed c cs, hform⟩⟩
      rw [List.reverse_cons, List.append_assoc] at hscan
      exact hscan

theorem scan_eq (source : String) :
    (scan source).flatMap (·.text.toList) = source.toList ∧ ∀ l ∈ scan source, l.WellFormed := by
  unfold scan
  split
  · next cs heq =>
    obtain ⟨ls, hscan, hspell, hform⟩ :=
      @scanFrom_eq _ [⟨.blank, "\ufeff"⟩] _ (Nat.le_refl cs.length)
    rw [hscan, heq]
    refine ⟨by simp [hspell], fun l hl => ?_⟩
    rcases List.mem_cons.1 hl with rfl | hl
    · exact ⟨by decide, nofun⟩
    · exact hform l hl
  · obtain ⟨ls, hscan, hspell, hform⟩ := @scanFrom_eq _ [] _ (Nat.le_refl source.toList.length)
    rw [hscan]
    exact ⟨hspell, hform⟩

theorem spell_toList (ls : List Lexeme) : (spell ls).toList = ls.flatMap (·.text.toList) := by
  induction ls with
  | nil => rfl
  | cons l ls ih => simpa [spell, String.join_cons] using ih

/-- **The lexemes of a source spell it.** -/
theorem spell_scan (source : String) : spell (scan source) = source := by
  rw [← String.toList_inj, spell_toList, (scan_eq source).1]

/-! ## Nodes -/

theorem between_append {start rest : Input} (h : rest <:+ start) :
    between start rest ++ rest = start := by
  obtain ⟨front, rfl⟩ := h
  simp [between]

theorem between_append_between {s t u : Input} (hts : t <:+ s) (hut : u <:+ t) :
    between s t ++ between t u = between s u := by
  have hs : between s t ++ (between t u ++ u) = between s u ++ u := by
    rw [between_append hut, between_append hts, between_append (hut.trans hts)]
  exact List.append_cancel_right ((List.append_assoc _ _ _).trans hs)

theorem lineFeeds_append (as bs : List Lexeme) :
    lineFeeds (as ++ bs) = lineFeeds as + lineFeeds bs := by
  simp [lineFeeds]

/-- What a top-level node is, among the lexemes of a source: a comment, or what the rules read
as a piece of code. -/
inductive Node.Placed (n : Nat) (rules : Rules) (whole : Input) : Node → Prop
  | comment {before rest : Input} {l : Lexeme} (hwhole : whole = before ++ l :: rest)
      (hkind : l.kind = .comment) : Placed n rules whole (.comment ⟨1 + lineFeeds before, [l]⟩)
  | code {before start rest : Input} {what : Code} (hwhole : whole = before ++ start)
      (hcode : Go.code n rules start = some (what, rest)) :
      Placed n rules whole (.code what start ⟨1 + lineFeeds before, between start rest⟩)

/-! ## Pieces -/

/-- Whether a piece is a part of the source, on the line that it is said to start on. -/
def Piece.StandsIn (p : Piece) (source : String) : Prop :=
  ∃ above below, source = above ++ p.text ++ below ∧ p.line = 1 + above.toList.count '\n'

theorem Piece.standsIn_of_lexemes {source : String} {before rest : Input} {p : Piece}
    (hscan : scan source = before ++ p.lexemes ++ rest) (hline : p.line = 1 + lineFeeds before) :
    p.StandsIn source := by
  refine ⟨spell before, spell rest, ?_, ?_⟩
  · rw [← spell_scan source, hscan, ← String.toList_inj]
    simp [Piece.text, spell_toList]
  · rw [hline, spell_toList, lineFeeds]

/-- Where a type specification stands: it starts with its name, somewhere from `s` on, and ends
before `t`. -/
structure TypeSpec.Within (spec : TypeSpec) (s t : Input) : Prop where
  start : spec.start <:+ s
  named : ∃ tail, spec.start = ⟨.name, spec.name⟩ :: tail ∧ spec.rest <:+ tail
  rest : t <:+ spec.rest

/-- The piece of a specification in a declaration, too, is a part of the source. -/
theorem TypeSpec.Within.standsIn {source : String} {before start rest : Input} {spec : TypeSpec}
    (hscan : scan source = before ++ start) (h : spec.Within start rest) {p : Piece}
    (hline : p.line = 1 + lineFeeds before) : (spec.piece start p).StandsIn source := by
  obtain ⟨tail, htail, hrest⟩ := h.named
  have hstart : between start spec.start ++ spec.start = start := between_append h.start
  have hspec : between spec.start spec.rest ++ spec.rest = spec.start :=
    between_append (hrest.trans (htail ▸ List.suffix_cons _ _))
  have hpiece : scan source =
      before ++ between start spec.start ++ (spec.piece start p).lexemes ++ spec.rest := by
    rw [TypeSpec.piece, List.append_assoc, hspec, List.append_assoc, hstart, hscan]
  refine Piece.standsIn_of_lexemes hpiece ?_
  rw [TypeSpec.piece, hline, lineFeeds_append, Nat.add_assoc]

end StaleDocs.Go
