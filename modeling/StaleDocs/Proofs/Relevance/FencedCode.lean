/-
The two notions of a code block in a segment: the fenced blocks of its lines as
reading Markdown delimits them, and what the broad pass finds between marks.
They are the same where marks stand in the fences alone (`MarksInPlace`), but
for a fence that is not closed, which has no block for the broad pass
(`codeFence_iff`). A mark anywhere else is taken for a fence.
-/
import StaleDocs.Proofs.Docs.Blocks
import StaleDocs.Proofs.Relevance.CodeBlocks
import StaleDocs.Proofs.Text.LowerCase

namespace StaleDocs.Relevance
open Docs (Closes Fence FencedBlock FenceLine Opens Segment fencedBlocks segmentLines)
open Text (joinLines lower occursIn unlines)

/-- Whether marks stand where fences are and nowhere else: outside of blocks there is none, inside
none like that of the fence, and the line that closes a fence holds one only. Behind a fence that is
not closed there is none either. -/
inductive MarksInPlace : List (List Char) → Prop
  | nil : MarksInPlace []
  | line {l : List Char} {ls : List (List Char)} (hl : Unmarked l) (h : MarksInPlace ls) :
      MarksInPlace (l :: ls)
  | block {opening closing : List Char} {inside ls : List (List Char)} {fence : Fence}
      (hopen : Opens opening fence) (hinside : ∀ l ∈ inside, ¬ mark fence.marker <:+: l)
      (hclose : Closes closing fence)
      (honce : ¬ mark fence.marker ++ mark fence.marker <:+: closing) (h : MarksInPlace ls) :
      MarksInPlace (opening :: (inside ++ closing :: ls))
  | unclosed {opening : List Char} {inside : List (List Char)} {fence : Fence}
      (hopen : Opens opening fence) (hinside : ∀ l ∈ inside, Unmarked l) :
      MarksInPlace (opening :: inside)

instance : DecidablePred Unmarked := fun _ =>
  decidable_of_iff (_ ∧ _) ⟨fun h => ⟨h.1, h.2⟩, fun h => ⟨h.backticks, h.tildes⟩⟩

theorem mark_infix_of_fenceLine {l rest : List Char} {fence : Fence} (h : FenceLine l fence rest) :
    mark fence.marker <:+: l := by
  obtain ⟨n, k, rfl⟩ := mark_of_fenceLine h
  exact List.infix_append' _ _ _

theorem Unmarked.not_fenceLine {l : List Char} (h : Unmarked l) (fence : Fence) (rest : List Char) :
    ¬ FenceLine l fence rest := fun hf =>
  h.no_mark hf.marker (mark_infix_of_fenceLine hf)

theorem not_closes_of_markless {l : List Char} {fence : Fence}
    (h : ¬ mark fence.marker <:+: l) : ¬ Closes l fence := by
  rintro ⟨run, rest, hf, hmarker, -⟩
  exact h (hmarker ▸ mark_infix_of_fenceLine hf)

/-- What the broad pass finds are the closed blocks, with the indent of the line that closes
them. -/
theorem MarksInPlace.codeBlocks_unlines {ls : List (List Char)} (h : MarksInPlace ls)
    (hlines : ∀ l ∈ ls, '\n' ∉ l) :
    List.Forall₂ (fun body (b : FencedBlock) => ∃ n, body = unlines b.lines ++ List.replicate n ' ')
      (codeBlocks (unlines ls)) ((fencedBlocks ls).filter (·.closed)) := by
  induction h with
  | nil => exact .nil
  | @line l ls hl _ ih =>
    have hopens : ∀ fence, ¬ Opens l fence := by
      rintro fence ⟨rest, hf, -⟩
      exact hl.not_fenceLine fence rest hf
    have hcons : unlines (l :: ls) = l ++ '\n' :: unlines ls := by simp [unlines]
    rw [hcons, codeBlocks_line hl, Docs.fencedBlocks_line hopens]
    exact ih fun x hx => hlines x (List.mem_cons_of_mem l hx)
  | @block opening closing inside ls fence hopen hinside hclose honce _ ih =>
    have hcons : unlines (opening :: (inside ++ closing :: ls)) =
        opening ++ '\n' :: (unlines inside ++ (closing ++ '\n' :: unlines ls)) := by
      simp [unlines]
    obtain ⟨n, hn⟩ := codeBlocks_fenced hopen (hlines opening (by simp)) hinside hclose honce
      (unlines ls)
    rw [hcons, hn, Docs.fencedBlocks_closed hopen (fun l hl => not_closes_of_markless (hinside l hl))
      hclose]
    exact .cons ⟨n, rfl⟩ (ih fun x hx => hlines x (by simp [hx]))
  | @unclosed opening inside fence hopen hinside =>
    have hcons : unlines (opening :: inside) = opening ++ '\n' :: unlines inside := by simp [unlines]
    have hcloses : ∀ l ∈ inside, ¬ Closes l fence := by
      rintro l hl ⟨run, rest, hf, -⟩
      exact (hinside l hl).not_fenceLine run rest hf
    rw [hcons, codeBlocks_unclosed (hlines opening (by simp)) hinside,
      Docs.fencedBlocks_unclosed hopen hcloses]
    exact .nil

/-! ## Names in blocks -/

/-- A name without blanks and line feeds occurs in what was found of a block exactly if it occurs
in the lines. -/
theorem occursIn_body {name : List Char} (hname : ∀ c ∈ name, c ≠ '\n' ∧ c ≠ ' ')
    (ls : List (List Char)) (n : Nat) :
    occursIn (lower name) (lower (unlines ls ++ List.replicate n ' ')) =
      occursIn (lower name) (lower (joinLines ls)) := by
  obtain ⟨tail, hsplit, htail⟩ : ∃ tail, unlines ls ++ List.replicate n ' ' = joinLines ls ++ tail ∧
      ∀ c ∈ tail, c = '\n' ∨ c = ' ' := by
    by_cases hls : ls = []
    · subst hls
      exact ⟨List.replicate n ' ', by simp [unlines, joinLines], fun c hc =>
        .inr (List.eq_of_mem_replicate hc)⟩
    · refine ⟨'\n' :: List.replicate n ' ', ?_, fun c hc => ?_⟩
      · rw [Text.unlines_eq_joinLines hls, List.append_assoc, List.singleton_append]
      · exact (List.mem_cons.1 hc).imp id List.eq_of_mem_replicate
  rw [hsplit, Text.lower_append_spacing htail, Bool.eq_iff_iff, Text.occursIn_iff_isInfix,
    Text.occursIn_iff_isInfix]
  by_cases hne : lower name = []
  · simp [hne]
  · refine Text.infix_append_iff hne fun c hc hmem => ?_
    have hplain := hname c (Text.mem_of_mem_lower (htail c hc) hmem)
    rcases htail c hc with rfl | rfl
    · exact hplain.1 rfl
    · exact hplain.2 rfl

theorem any_codeBlocks {name : List Char} (hname : ∀ c ∈ name, c ≠ '\n' ∧ c ≠ ' ')
    {bodies : List (List Char)} {blocks : List FencedBlock}
    (h : List.Forall₂ (fun body (b : FencedBlock) =>
      ∃ n, body = unlines b.lines ++ List.replicate n ' ') bodies blocks) :
    (bodies.any fun body => occursIn (lower name) (lower body)) =
      blocks.any fun b => occursIn (lower name) (lower (joinLines b.lines)) := by
  induction h with
  | nil => rfl
  | cons hbody _ ih =>
    obtain ⟨n, rfl⟩ := hbody
    rw [List.any_cons, List.any_cons, ih, occursIn_body hname]

theorem mem_hits_codeFence {symbol : Symbol} {segment : Segment} (hname : symbol.name ≠ "") :
    (.codeFence, (Heuristic.codeFence.weight : Float)) ∈ hits symbol segment ↔
      ((codeBlocks segment.content.toList).any fun body =>
        occursIn (lower symbol.name.toList) (lower body)) = true := by
  have hempty : symbol.name.isEmpty = false := by simpa using hname
  have hwhole : Score.mul Score.one (Heuristic.codeFence.weight : Float) =
      Heuristic.codeFence.weight := by decide
  simp only [hits, hempty, Bool.false_eq_true, if_false, List.mem_filterMap]
  constructor
  · rintro ⟨h, -, hhit⟩
    obtain ⟨share, hshare, heq⟩ := Option.map_eq_some_iff.1 hhit
    obtain ⟨rfl, -⟩ := Prod.mk.inj heq
    simp only [Heuristic.share?] at hshare
    split at hshare
    · assumption
    · cases hshare
  · intro h
    refine ⟨.codeFence, by decide, ?_⟩
    simp only [Heuristic.share?, h, if_true, Option.map_some, hwhole]

/-- **The two notions of a code block agree about closed fences**, as long as marks stand in fences
alone: the broad pass finds a name in a code block of a segment exactly if it occurs in a fenced
block of the segment's lines that is closed. -/
theorem codeFence_iff {file text : String} {segment : Segment}
    (hsegment : segment ∈ Docs.markdownSegments file text)
    (hmarks : MarksInPlace (segmentLines text segment)) {symbol : Symbol}
    (hname : symbol.name ≠ "") (hplain : ∀ c ∈ symbol.name.toList, c ≠ '\n' ∧ c ≠ ' ') :
    (.codeFence, (Heuristic.codeFence.weight : Float)) ∈ hits symbol segment ↔
      ∃ b ∈ fencedBlocks (segmentLines text segment), b.closed = true ∧
        occursIn (lower symbol.name.toList) (lower (joinLines b.lines)) = true := by
  obtain ⟨hne, hcontent⟩ := Docs.content_of_mem hsegment
  obtain ⟨blanks, hsplit, hblanks⟩ := Docs.trimEnd_append (joinLines (segmentLines text segment))
  have hblocks : codeBlocks segment.content.toList = codeBlocks (unlines (segmentLines text segment)) := by
    have hfeed : ∀ c ∈ blanks ++ ['\n'], Text.isBlank c = true := fun c hc => by
      rcases List.mem_append.1 hc with hc | hc
      · exact hblanks c hc
      · rw [List.mem_singleton.1 hc]
        decide
    rw [Text.unlines_eq_joinLines hne, hsplit, ← hcontent, List.append_assoc,
      codeBlocks_append_blanks hfeed]
  rw [mem_hits_codeFence hname, hblocks,
    any_codeBlocks hplain (hmarks.codeBlocks_unlines fun l hl => Docs.not_mem_segmentLines hl)]
  simp

/-- A guide with a fenced block and a fence that no line closes. -/
def billingGuide : String :=
  "# Usage\n\x60\x60\x60go\nfee := CalcFee(order)\n\x60\x60\x60\nThen:\n~~~\nSendBill(fee)\n"

def billingSegment : Segment :=
  ⟨"guide.md", "Usage", 1, 1, 7,
    "# Usage\n\x60\x60\x60go\nfee := CalcFee(order)\n\x60\x60\x60\nThen:\n~~~\nSendBill(fee)", .markdown⟩

def billingSymbol (name : String) : Symbol :=
  ⟨"billing.go", name, .function, .modified, 3, 5, "", ""⟩

theorem segmentLines_billing : segmentLines billingGuide billingSegment =
    "# Usage".toList :: "\x60\x60\x60go".toList :: (["fee := CalcFee(order)".toList] ++
      "\x60\x60\x60".toList :: ["Then:".toList, "~~~".toList, "SendBill(fee)".toList]) := by
  decide +kernel

theorem marksInPlace_billing : MarksInPlace (segmentLines billingGuide billingSegment) := by
  have hheading : Unmarked "# Usage".toList := by decide +kernel
  have hthen : Unmarked "Then:".toList := by decide +kernel
  have hcode : ∀ l ∈ ["fee := CalcFee(order)".toList], ¬ mark Docs.backtick <:+: l := by
    decide +kernel
  have honce : ¬ mark Docs.backtick ++ mark Docs.backtick <:+: "\x60\x60\x60".toList := by
    decide +kernel
  have hopen : Opens "\x60\x60\x60go".toList ⟨Docs.backtick, 3⟩ :=
    Docs.opensFence?_eq_some_iff.1 (by decide)
  have hclose : Closes "\x60\x60\x60".toList ⟨Docs.backtick, 3⟩ := Docs.closedBy_iff.1 (by decide)
  have hopen' : Opens "~~~".toList ⟨'~', 3⟩ := Docs.opensFence?_eq_some_iff.1 (by decide)
  have hinside : ∀ l ∈ ["SendBill(fee)".toList], Unmarked l := by decide +kernel
  rw [segmentLines_billing]
  exact .line hheading (.block hopen hcode hclose honce (.line hthen (.unclosed hopen' hinside)))

/-- The name in the closed block is found there, and that behind the open fence is not. -/
theorem codeFence_iff_billing :
    billingSegment ∈ Docs.markdownSegments "guide.md" billingGuide ∧
    MarksInPlace (segmentLines billingGuide billingSegment) ∧
    (.codeFence, (Heuristic.codeFence.weight : Float)) ∈
      hits (billingSymbol "CalcFee") billingSegment ∧
    (.codeFence, (Heuristic.codeFence.weight : Float)) ∉
      hits (billingSymbol "SendBill") billingSegment ∧
    ∃ b ∈ fencedBlocks (segmentLines billingGuide billingSegment),
      occursIn (lower "SendBill".toList) (lower (joinLines b.lines)) = true := by
  have hmem : billingSegment ∈ Docs.markdownSegments "guide.md" billingGuide := by decide +kernel
  refine ⟨hmem, marksInPlace_billing, ?_, ?_, ?_⟩
  · rw [codeFence_iff hmem marksInPlace_billing (by decide) (by simp [billingSymbol]),
      segmentLines_billing]
    decide +kernel
  · rw [codeFence_iff hmem marksInPlace_billing (by decide) (by simp [billingSymbol]),
      segmentLines_billing]
    decide +kernel
  · rw [segmentLines_billing]
    decide +kernel

end StaleDocs.Relevance
