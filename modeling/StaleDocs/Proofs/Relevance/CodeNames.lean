/-
Names in code blocks. The body of a code block is a part of the content
(`infix_of_mem_codeBlocks`), and without capital sigmas a part comes to the
lower case that it has by itself. So a name that occurs in a code block occurs
in the segment: the segment has full confidence for that alone, and the code
block adds nothing, whatever its weight (`codeFence_adds_nothing`).
-/
import StaleDocs.Proofs.Relevance.FencedCode
import StaleDocs.Proofs.Relevance.Mentions
import StaleDocs.Proofs.Relevance.Passes

namespace StaleDocs.Relevance
open Docs (Segment)
open Text (lower occursIn)

/-! ## Bodies of code blocks -/

theorem codeBlockAt?_parts {m cs body rest : List Char}
    (h : codeBlockAt? m cs = some (body, rest)) : body <:+: cs ∧ rest <:+: cs := by
  rcases mark_cases m cs with hm | ⟨line, hline, rfl⟩ | ⟨line, text, hline, rfl⟩
  · rw [codeBlockAt?_of_not_starts hm] at h
    cases h
  · rw [codeBlockAt?_of_not_mem hline] at h
    cases h
  · rw [codeBlockAt?_line hline] at h
    have htext : text = body ++ (m ++ rest) := Text.eq_append_of_breakAt? h
    constructor
    · exact ⟨m ++ line ++ ['\n'], m ++ rest, by simp [htext]⟩
    · exact ⟨m ++ line ++ '\n' :: (body ++ m), [], by simp [htext]⟩

theorem blockAt?_parts {cs body rest : List Char} (h : blockAt? cs = some (body, rest)) :
    body <:+: cs ∧ rest <:+: cs := by
  rcases Option.or_eq_some_iff.1 h with h | ⟨-, h⟩
  · exact codeBlockAt?_parts h
  · exact codeBlockAt?_parts h

/-- The body of a code block is a part of the text. -/
theorem infix_of_mem_codeBlocks {body : List Char} : ∀ {cs : List Char}, body ∈ codeBlocks cs →
    body <:+: cs
  | [], h => by cases h
  | c :: cs, h => by
    rw [codeBlocks_cons] at h
    split at h
    · next first rest hblock =>
      have hshorter : rest.length ≤ cs.length := Nat.le_of_lt_succ (length_blockAt? hblock)
      obtain ⟨hfirst, hrest⟩ := blockAt?_parts hblock
      rcases List.mem_cons.1 h with rfl | h
      · exact hfirst
      · exact (infix_of_mem_codeBlocks h).trans hrest
    · exact (infix_of_mem_codeBlocks h).trans (List.suffix_cons c cs).isInfix
termination_by cs => cs.length

/-- What occurs in the lower case of a part occurs in that of a text without capital sigmas. -/
theorem occursIn_lower_of_part {name part cs : List Char} (hsigma : 'Σ' ∉ cs) (hpart : part <:+: cs)
    (h : occursIn name (lower part) = true) : occursIn name (lower cs) = true := by
  have hplain : 'Σ' ∉ part := fun hmem => hsigma (hpart.subset hmem)
  rw [Text.occursIn_iff_isInfix] at h ⊢
  exact h.trans (Text.lower_infix_of_no_sigma hplain hpart)

/-! ## Heuristics that apply -/

section
variable {σ : Type} [Score σ] {symbol : Symbol} {segment : Segment}

theorem mentions_of_codeFence (hsigma : 'Σ' ∉ segment.content.toList) {x : σ}
    (hmem : (.codeFence, x) ∈ hits symbol segment) :
    (lowered segment).mentions (lower symbol.name.toList) = true := by
  obtain ⟨-, share, hshare, -⟩ := exists_share_of_mem_hits hmem
  simp only [Heuristic.share?] at hshare
  split at hshare
  · next hany =>
    obtain ⟨body, hbody, hoccurs⟩ := List.any_eq_true.1 hany
    have hcontent := occursIn_lower_of_part hsigma (infix_of_mem_codeBlocks hbody) hoccurs
    simp [Lowered.mentions, lowered, hcontent]
  · cases hshare

/-- Where a name is found in a code block, the whole name is the first thing found. -/
theorem hits_of_codeFence (hsigma : 'Σ' ∉ segment.content.toList) {x : σ}
    (hmem : (.codeFence, x) ∈ hits symbol segment) :
    ∃ rest : List (Heuristic × σ), hits symbol segment =
      (.exactName, Score.mul Score.one Heuristic.exactName.weight) :: rest :=
  hits_eq_of_mentions (exists_share_of_mem_hits hmem).1 (mentions_of_codeFence hsigma hmem)

/-! ## Another weight for code blocks -/

/-- What a heuristic that applies contributes where code blocks have another weight, all of which a
name earns there. -/
def contributionWith (fence : σ) (hit : Heuristic × σ) : σ :=
  if hit.1 = .codeFence then fence else hit.2

/-- The confidence in a segment where code blocks have another weight. -/
def confidenceWith (fence : σ) (symbol : Symbol) (segment : Segment) : σ :=
  Aggregation.sum.combine ((hits symbol segment).map (contributionWith fence))

/-- Whether code blocks make no difference to the confidence in a segment: where the name occurs in
one it is full, and with some other weight for them it is always the same. -/
structure Weightless (weights : σ → Prop) (symbol : Symbol) (segment : Segment) (p : Pairing σ) :
    Prop where
  full : ∀ x : σ, (.codeFence, x) ∈ hits symbol segment → p.confidence = Score.one
  same : ∀ fence, weights fence → confidenceWith fence symbol segment = p.confidence

theorem confidence_of_broadScore? {p : Pairing σ} (hp : broadScore? symbol segment = some p) :
    p.confidence = Aggregation.sum.combine ((hits symbol segment).map (·.2)) := by
  rw [broadScore?] at hp
  split at hp
  · cases hp
  · exact (congrArg Pairing.confidence (Option.some.inj hp)).symm

/-- Code blocks make no difference where one absorbs all that is added to it. -/
theorem weightless_of_absorbing {weights : σ → Prop}
    (hone : Score.mul Score.one Heuristic.exactName.weight = (Score.one : σ))
    (habsorbs : ∀ scores : List σ, (∀ x ∈ scores, weights x) →
      Aggregation.sum.combine (Score.one :: scores) = Score.one)
    (hweights : ∀ hit ∈ hits symbol segment, weights hit.2)
    (hsigma : 'Σ' ∉ segment.content.toList) {p : Pairing σ}
    (hp : broadScore? symbol segment = some p) : Weightless weights symbol segment p := by
  have hconfidence := confidence_of_broadScore? hp
  by_cases hfence : ∃ x : σ, (.codeFence, x) ∈ hits symbol segment
  · obtain ⟨x, hmem⟩ := hfence
    obtain ⟨rest, hrest⟩ := hits_of_codeFence hsigma hmem
    rw [hone] at hrest
    have hothers : ∀ hit ∈ rest, weights hit.2 := fun hit hhit =>
      hweights hit (hrest ▸ List.mem_cons_of_mem _ hhit)
    have hfull : p.confidence = Score.one := by
      rw [hconfidence, hrest, List.map_cons]
      refine habsorbs _ fun y hy => ?_
      obtain ⟨hit, hhit, rfl⟩ := List.mem_map.1 hy
      exact hothers hit hhit
    refine ⟨fun _ _ => hfull, fun fence hweight => ?_⟩
    rw [hfull, confidenceWith, hrest, List.map_cons]
    refine habsorbs _ fun y hy => ?_
    obtain ⟨hit, hhit, rfl⟩ := List.mem_map.1 hy
    rw [contributionWith]
    split
    · exact hweight
    · exact hothers hit hhit
  · have hnone : ∀ x : σ, (.codeFence, x) ∉ hits symbol segment := not_exists.1 hfence
    refine ⟨fun x hmem => absurd hmem (hnone x), fun fence _ => ?_⟩
    rw [hconfidence, confidenceWith]
    refine congrArg Aggregation.sum.combine (List.map_congr_left fun hit hhit => if_neg ?_)
    intro hkind
    exact hnone hit.2 (hkind ▸ hhit)

end

/-- Numbers from zero on add nothing to one that would not be cut. -/
theorem combine_sum_one_rat {scores : List Rat} (h : ∀ x ∈ scores, 0 ≤ x) :
    Aggregation.sum.combine (1 :: scores) = 1 := by
  have hall : ∀ x ∈ (1 : Rat) :: scores, 0 ≤ x := List.forall_mem_cons.2 ⟨zero_le_one, h⟩
  rw [combine_sum_eq hall, List.sum_cons]
  exact min_eq_left (le_add_of_nonneg_right (List.sum_nonneg h))

/-- **A name in a code block is a name in the segment**, as long as there is no capital sigma in the
segment, and so the code block adds nothing: the confidence is full, and it is the same with any
other weight for code blocks, in rational numbers and in doubles. A name so long that its words
cannot be counted in 64 bits has no confidence in doubles. -/
theorem codeFence_adds_nothing {symbol : Symbol} {segment : Segment}
    (hsigma : 'Σ' ∉ segment.content.toList) :
    (∀ (σ : Type) [Score σ] (x : σ), (.codeFence, x) ∈ hits symbol segment →
      (∃ y : σ, (.exactName, y) ∈ hits symbol segment) ∧
      ∃ p : Pairing σ, broadScore? symbol segment = some p) ∧
    (∀ p : Pairing Rat, broadScore? symbol segment = some p →
      Weightless (fun fence => 0 ≤ fence) symbol segment p) ∧
    (symbol.name.length ≤ Text.maxWord → ∀ p : Pairing Float,
      broadScore? symbol segment = some p → Weightless FromZero symbol segment p) := by
  refine ⟨fun σ _ x hmem => ?_, fun p hp => ?_, fun hlength p hp => ?_⟩
  · obtain ⟨rest, hrest⟩ := hits_of_codeFence hsigma hmem
    rw [broadScore?, hrest]
    exact ⟨⟨_, List.mem_cons_self⟩, _, rfl⟩
  · have hone : Score.mul Score.one Heuristic.exactName.weight = (Score.one : Rat) := one_mul 1
    exact weightless_of_absorbing hone (fun scores h => combine_sum_one_rat h)
      (fun hit hhit => (contribution_pos hhit).le) hsigma hp
  · have hone : Score.mul Score.one Heuristic.exactName.weight = (Score.one : Float) := by decide
    exact weightless_of_absorbing hone (fun scores h => combine_sum_one h)
      (fun hit hhit => fromZero_of_mem_hits hlength hhit) hsigma hp

/-- A guide that has a name in a code block, in other letters. -/
def refundGuide : Segment :=
  ⟨"guide.md", "Refunds", 1, 1, 4, "# Refunds\n~~~go\nREFUNDORDER(id)\n~~~", .markdown⟩

def refundSymbol : Symbol :=
  ⟨"refund.go", "RefundOrder", .function, .modified, 3, 5, "", ""⟩

/-- The name is found in the code block, and with it the confidence is full, as it is if code blocks
weigh nothing. -/
theorem codeFence_adds_nothing_refund :
    'Σ' ∉ refundGuide.content.toList ∧
    (.codeFence, (Heuristic.codeFence.weight : Float)) ∈ hits refundSymbol refundGuide ∧
    ∃ p : Pairing Float, broadScore? refundSymbol refundGuide = some p ∧ p.confidence = 1 ∧
      confidenceWith 0 refundSymbol refundGuide = p.confidence := by
  have hsigma : 'Σ' ∉ refundGuide.content.toList := by decide
  have hfence :
      (.codeFence, (Heuristic.codeFence.weight : Float)) ∈ hits refundSymbol refundGuide :=
    (mem_hits_codeFence (by decide)).2 (by decide +kernel)
  obtain ⟨hfound, -, hdoubles⟩ := @codeFence_adds_nothing refundSymbol refundGuide hsigma
  obtain ⟨-, p, hp⟩ := hfound Float _ hfence
  have hweightless := hdoubles (by decide) p hp
  exact ⟨hsigma, hfence, p, hp, hweightless.full _ hfence, hweightless.same 0 .zero⟩

end StaleDocs.Relevance
