/-
Segments that mention a symbol by its name. The broad pass compares in lower
case, and the segment's text comes to lower case as a whole, so a mention is
found if the name has the same lower case in its place as by itself. All that
can differ is the form of a capital sigma; with that kept, a mention is found
whatever stands around it and the segment has full confidence
(`broadScore?_verbatim`).
-/
import StaleDocs.Proofs.Relevance.Doubles
import StaleDocs.Proofs.Text.LowerCase
import StaleDocs.Relevance.Pairing

namespace StaleDocs.Relevance
open Docs (Segment)
open Text (KeepsSigmas lower lowerWithin)

/-! ## The contributions of the heuristics -/

theorem length_wordsFrom_le (current cs : List Char) :
    (wordsFrom current cs).length ≤ cs.length + if current.isEmpty then 0 else 1 := by
  induction cs generalizing current with
  | nil => cases current <;> simp [wordsFrom]
  | cons c cs ih =>
    rw [wordsFrom]
    split
    · have := ih [c]
      simp_all
    · have := ih (c :: current)
      simp only [List.isEmpty_cons, List.length_cons] at this ⊢
      simp at this
      omega

theorem length_words_le (name : List Char) : (words name).length ≤ name.length :=
  length_wordsFrom_le [] name

theorem weight_positive (h : Heuristic) : ∃ m e, Positive h.weight m e := by
  cases h <;> exact ⟨_, _, { pos := by decide, digits := by decide, unpack := rfl }⟩

/-- What a heuristic contributes is a number from zero on. -/
theorem fromZero_share {h : Heuristic} {name content : List Char} {l : Lowered} {share : Float}
    (hname : name.length ≤ Text.maxWord) (hshare : h.share? name content l = some share) :
    FromZero share := by
  have hwhole (applies : Bool) (h : (if applies then some Score.one else none) = some share) :
      FromZero share := by
    split at h
    · obtain rfl := Option.some.inj h
      exact .finite ..
    · cases h
  cases h with
  | exactName => exact hwhole _ hshare
  | codeFence => exact hwhole _ hshare
  | keyword =>
    simp only [Heuristic.share?] at hshare
    split at hshare
    · cases hshare
    · next n hn =>
      obtain rfl := Option.some.inj hshare
      have hle : countMentions l (words name) ≤ (words name).length := List.length_filter_le ..
      have hwords := length_words_le name
      rw [Text.maxWord] at hname
      exact fromZero_ratio (by omega) (by omega) (by omega) (by omega)
  | partialPrefix =>
    simp only [Heuristic.share?] at hshare
    split at hshare
    · exact hwhole _ hshare
    · cases hshare

section
variable {σ : Type} [Score σ] {symbol : Symbol} {segment : Segment}

/-- What a heuristic contributes that applies: a share of its weight. -/
theorem exists_share_of_mem_hits {hit : Heuristic × σ} (h : hit ∈ hits symbol segment) :
    symbol.name ≠ "" ∧ ∃ share : σ, hit.1.share? symbol.name.toList segment.content.toList
      (lowered segment) = some share ∧ hit.2 = Score.mul share hit.1.weight := by
  rw [hits] at h
  split at h
  · cases h
  · next hname =>
    obtain ⟨heuristic, -, hhit⟩ := List.mem_filterMap.1 h
    obtain ⟨share, hshare, rfl⟩ := Option.map_eq_some_iff.1 hhit
    exact ⟨by simpa using hname, share, hshare, rfl⟩

/-- The whole name is tried first. -/
theorem hits_eq_of_mentions (hname : symbol.name ≠ "")
    (h : (lowered segment).mentions (lower symbol.name.toList) = true) :
    ∃ rest : List (Heuristic × σ), hits symbol segment =
      (.exactName, Score.mul Score.one Heuristic.exactName.weight) :: rest := by
  have hempty : symbol.name.isEmpty = false := by simpa using hname
  have hshare : Heuristic.exactName.share? symbol.name.toList segment.content.toList
      (lowered segment) = some (Score.one : σ) := by
    simp only [Heuristic.share?, h, if_true]
  simp only [hits, hempty, Bool.false_eq_true, if_false, Heuristic.all]
  rw [List.filterMap_cons, hshare, Option.map_some]
  exact ⟨_, rfl⟩

end

theorem fromZero_of_mem_hits {symbol : Symbol} {segment : Segment}
    (hlength : symbol.name.length ≤ Text.maxWord) {hit : Heuristic × Float}
    (h : hit ∈ hits symbol segment) : FromZero hit.2 := by
  obtain ⟨-, share, hshare, heq⟩ := exists_share_of_mem_hits h
  obtain ⟨m, e, hweight⟩ := weight_positive hit.1
  rw [heq]
  exact (fromZero_share hlength hshare).mul hweight

/-- With the whole name the contributions begin with one. -/
theorem hits_of_mentions {symbol : Symbol} {segment : Segment} (hname : symbol.name ≠ "")
    (hlength : symbol.name.length ≤ Text.maxWord)
    (h : (lowered segment).mentions (lower symbol.name.toList) = true) :
    ∃ rest : List (Heuristic × Float), hits symbol segment = (.exactName, 1) :: rest ∧
      ∀ hit ∈ rest, FromZero hit.2 := by
  obtain ⟨rest, hrest⟩ := hits_eq_of_mentions (σ := Float) hname h
  refine ⟨rest, hrest, fun hit hmem => ?_⟩
  have hhit : hit ∈ hits symbol segment := hrest ▸ List.mem_cons_of_mem _ hmem
  exact fromZero_of_mem_hits hlength hhit

theorem broadScore?_of_mentions {symbol : Symbol} {segment : Segment} (hname : symbol.name ≠ "")
    (hlength : symbol.name.length ≤ Text.maxWord)
    (h : (lowered segment).mentions (lower symbol.name.toList) = true) :
    ∃ p : Pairing Float, broadScore? symbol segment = some p ∧ p.confidence = 1 ∧
      (.exactName, (1 : Float)) ∈ hits symbol segment := by
  obtain ⟨rest, hhits, hrest⟩ := hits_of_mentions hname hlength h
  rw [broadScore?, hhits]
  refine ⟨_, rfl, ?_, List.mem_cons_self⟩
  simp only [List.map_cons]
  refine combine_sum_one fun x hx => ?_
  obtain ⟨hit, hmem, rfl⟩ := List.mem_map.1 hx
  exact hrest hit hmem

/-! ## Verbatim mentions -/

/-- **A verbatim mention is found if it keeps its sigmas**, with full confidence, whatever stands
around it. In its place the name comes to `lowerWithin`, and this is the name in lower case exactly
if the mention keeps its sigmas. -/
theorem broadScore?_verbatim {symbol : Symbol} {segment : Segment} {before after : List Char}
    (hname : symbol.name ≠ "") (hlength : symbol.name.length ≤ Text.maxWord)
    (hmention : segment.heading.toList = before ++ symbol.name.toList ++ after ∨
      segment.content.toList = before ++ symbol.name.toList ++ after) :
    (lowerWithin before.reverse symbol.name.toList after <:+: (lowered segment).heading ∨
      lowerWithin before.reverse symbol.name.toList after <:+: (lowered segment).content) ∧
    (lowerWithin before.reverse symbol.name.toList after = lower symbol.name.toList ↔
      KeepsSigmas before symbol.name.toList after) ∧
    (KeepsSigmas before symbol.name.toList after →
      ∃ p : Pairing Float, broadScore? symbol segment = some p ∧ p.confidence = 1 ∧
        (.exactName, (1 : Float)) ∈ hits symbol segment) := by
  refine ⟨?_, Text.lowerWithin_eq_iff, fun hkeeps => broadScore?_of_mentions hname hlength ?_⟩
  · refine hmention.imp (fun h => ?_) (fun h => ?_) <;>
      exact ⟨_, _, by simp only [lowered]; rw [h, Text.lower_append]⟩
  · have hoccurs := Text.occursIn_lower hkeeps
    simp only [Lowered.mentions, lowered, Bool.or_eq_true]
    rcases hmention with h | h <;> rw [h]
    · exact .inr hoccurs
    · exact .inl hoccurs

def taxSymbol (name : String) : Symbol :=
  ⟨"tax.go", name, .const, .modified, 3, 3, "", ""⟩

def taxGuide (content : String) : Segment :=
  ⟨"guide.md", "Tax", 1, 1, 2, content, .markdown⟩

/-- A name without a capital sigma is found inside a longer word, and ΦΟΡΟΣ before a blank. Before
an apostrophe and a letter its last sigma ends no word, and the segment is dropped. -/
theorem broadScore?_verbatim_phoros :
    (∃ p : Pairing Float,
      broadScore? (taxSymbol "Rate") (taxGuide "# Tax\nThe preRates are gone.") = some p ∧
        p.confidence = 1) ∧
    (∃ p : Pairing Float,
      broadScore? (taxSymbol "ΦΟΡΟΣ") (taxGuide "# Tax\nThe ΦΟΡΟΣ rate is 24.") = some p ∧
        p.confidence = 1) ∧
    ¬ KeepsSigmas "# Tax\n".toList "ΦΟΡΟΣ".toList "'s rate is 24.".toList ∧
    (broadScore? (taxSymbol "ΦΟΡΟΣ") (taxGuide "# Tax\nΦΟΡΟΣ's rate is 24.") :
      Option (Pairing Float)) = none := by
  have hinside := (@broadScore?_verbatim (taxSymbol "Rate")
    (taxGuide "# Tax\nThe preRates are gone.") "# Tax\nThe pre".toList "s are gone.".toList
    (by decide) (by decide) (.inr (by decide))).2.2 (Text.keepsSigmas_of_not_mem (by decide) _ _)
  have hbefore := (@broadScore?_verbatim (taxSymbol "ΦΟΡΟΣ")
    (taxGuide "# Tax\nThe ΦΟΡΟΣ rate is 24.") "# Tax\nThe ".toList " rate is 24.".toList
    (by decide) (by decide) (.inr (by decide))).2.2
      (Text.keepsSigmas_of_apart (by decide) (by decide) _)
  have hmissed := (@broadScore?_verbatim (taxSymbol "ΦΟΡΟΣ")
    (taxGuide "# Tax\nΦΟΡΟΣ's rate is 24.") "# Tax\n".toList "'s rate is 24.".toList
    (by decide) (by decide) (.inr (by decide))).2.1
  refine ⟨?_, ?_, ?_, ?_⟩
  · obtain ⟨p, hp, hone, -⟩ := hinside
    exact ⟨p, hp, hone⟩
  · obtain ⟨p, hp, hone, -⟩ := hbefore
    exact ⟨p, hp, hone⟩
  · refine mt hmissed.2 ?_
    decide
  · have hnone : (broadScore? (taxSymbol "ΦΟΡΟΣ") (taxGuide "# Tax\nΦΟΡΟΣ's rate is 24.") :
        Option (Pairing Float)).isNone = true := by decide +kernel
    exact Option.isNone_iff_eq_none.1 hnone

end StaleDocs.Relevance
