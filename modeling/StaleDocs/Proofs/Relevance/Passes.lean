/-
The two passes over all pairs of a symbol and a segment
(`quickMatch_within_broadMatch`). Which pairs a pass finds does not depend on
the numbers it counts in, so both are told by positions (`ListedAt`): the quick
pass finds a pair by a term that occurs, which is a word of the name or the
name itself, and by either the broad pass finds it too
(`isSome_broadScore?_of_quick`). In rational numbers each contribution is more
than zero, and so is a sum of them, which is cut at one.
-/
import Mathlib.Data.List.Flatten
import StaleDocs.Proofs.Lists
import StaleDocs.Proofs.Relevance.Exact
import StaleDocs.Relevance.Pairing

namespace StaleDocs.Relevance
open Docs (Segment)
open Text (lower)

/-! ## What the passes find -/

section Found
variable {σ τ : Type} [Score σ] [Score τ] {symbol : Symbol} {segment : Segment}

theorem isSome_whole (applies : Bool) :
    (if applies = true then some (Score.one : σ) else none).isSome = applies := by
  cases applies <;> rfl

/-- Whether a heuristic applies does not depend on the numbers. -/
theorem isSome_share? (h : Heuristic) (name content : List Char) (l : Lowered) :
    (h.share? name content l : Option σ).isSome = (h.share? name content l : Option τ).isSome := by
  cases h with
  | exactName => simp only [Heuristic.share?, isSome_whole]
  | codeFence => simp only [Heuristic.share?, isSome_whole]
  | keyword =>
    simp only [Heuristic.share?]
    split <;> rfl
  | partialPrefix =>
    simp only [Heuristic.share?]
    split
    · simp only [isSome_whole]
    · rfl

theorem mem_all (h : Heuristic) : h ∈ Heuristic.all := by
  cases h <;> decide

theorem isSome_broadScore?_iff : (broadScore? symbol segment : Option (Pairing σ)).isSome = true ↔
    symbol.name ≠ "" ∧ ∃ h : Heuristic,
      (h.share? symbol.name.toList segment.content.toList (lowered segment) :
        Option σ).isSome = true := by
  have hhits : (broadScore? symbol segment : Option (Pairing σ)).isSome = true ↔
      (hits symbol segment : List (Heuristic × σ)) ≠ [] := by
    rw [broadScore?]
    split <;> simp_all
  rw [hhits, hits]
  by_cases hname : symbol.name = ""
  · simp [hname]
  · have hempty : symbol.name.isEmpty = false := by simpa using hname
    simp [hempty, hname, List.filterMap_eq_nil_iff, mem_all, Option.isSome_iff_ne_none]

theorem isSome_quickScore?_iff : (quickScore? symbol segment : Option (Pairing σ)).isSome = true ↔
    symbol.name ≠ "" ∧ countMentions (lowered segment)
      (words symbol.name.toList ++ [lower symbol.name.toList]) ≠ 0 := by
  rw [quickScore?]
  by_cases hname : symbol.name = ""
  · simp [hname]
  · have hempty : symbol.name.isEmpty = false := by simpa using hname
    simp only [hempty, Bool.false_eq_true, if_false]
    split <;> simp_all

theorem isSome_broadScore? (symbol : Symbol) (segment : Segment) :
    (broadScore? symbol segment : Option (Pairing σ)).isSome =
      (broadScore? symbol segment : Option (Pairing τ)).isSome := by
  refine Bool.eq_iff_iff.2 ?_
  rw [isSome_broadScore?_iff, isSome_broadScore?_iff]
  simp only [isSome_share? (τ := τ)]

theorem isSome_quickScore? (symbol : Symbol) (segment : Segment) :
    (quickScore? symbol segment : Option (Pairing σ)).isSome =
      (quickScore? symbol segment : Option (Pairing τ)).isSome :=
  Bool.eq_iff_iff.2 (isSome_quickScore?_iff.trans isSome_quickScore?_iff.symm)

theorem broadScore?_about {p : Pairing σ} (h : broadScore? symbol segment = some p) :
    p.symbol = symbol ∧ p.segment = segment := by
  simp only [broadScore?] at h
  split at h
  · cases h
  · cases h
    exact ⟨rfl, rfl⟩

theorem quickScore?_about {p : Pairing σ} (h : quickScore? symbol segment = some p) :
    p.symbol = symbol ∧ p.segment = segment := by
  simp only [quickScore?] at h
  split at h
  · cases h
  · split at h
    · cases h
    · cases h
      exact ⟨rfl, rfl⟩

theorem mem_broadMatch {symbols : List Symbol} {segments : List Segment} {p : Pairing σ} :
    p ∈ broadMatch symbols segments ↔
      p.symbol ∈ symbols ∧ p.segment ∈ segments ∧ broadScore? p.symbol p.segment = some p := by
  simp only [broadMatch, List.mem_flatMap, List.mem_filterMap]
  constructor
  · rintro ⟨symbol, hs, segment, hg, h⟩
    obtain ⟨rfl, rfl⟩ := broadScore?_about h
    exact ⟨hs, hg, h⟩
  · rintro ⟨hs, hg, h⟩
    exact ⟨_, hs, _, hg, h⟩

theorem countMentions_append (l : Lowered) (as bs : List (List Char)) :
    countMentions l (as ++ bs) = countMentions l as + countMentions l bs := by
  simp [countMentions]

theorem exists_mention {l : Lowered} {ws : List (List Char)} (h : countMentions l ws ≠ 0) :
    ∃ w ∈ ws, l.mentions w = true := by
  obtain ⟨w, hw⟩ := List.exists_mem_of_length_pos (Nat.pos_of_ne_zero h)
  obtain ⟨hmem, hcounts⟩ := List.mem_filter.1 hw
  exact ⟨w, hmem, (Bool.and_eq_true_iff.1 hcounts).2⟩

/-- What the quick pass finds, the broad pass finds too: a word of the name by the words, and the
name itself by the exact name. -/
theorem isSome_broadScore?_of_quick
    (h : (quickScore? symbol segment : Option (Pairing σ)).isSome = true) :
    (broadScore? symbol segment : Option (Pairing τ)).isSome = true := by
  obtain ⟨hname, hcount⟩ := isSome_quickScore?_iff.1 h
  refine isSome_broadScore?_iff.2 ⟨hname, ?_⟩
  rw [countMentions_append] at hcount
  by_cases hwords : countMentions (lowered segment) (words symbol.name.toList) = 0
  · obtain ⟨w, hw, hmentions⟩ := exists_mention (by rwa [hwords, Nat.zero_add] at hcount)
    rw [List.mem_singleton.1 hw] at hmentions
    exact ⟨.exactName, by rw [Heuristic.share?, isSome_whole, hmentions]⟩
  · refine ⟨.keyword, ?_⟩
    simp only [Heuristic.share?]
    split
    · next hzero => exact absurd hzero hwords
    · rfl

end Found

/-! ## The order of the pairs -/

/-- The positions of the symbols and segments that are related, symbols first. -/
def positionsWhere (related : Symbol → Segment → Bool) (symbols : List Symbol)
    (segments : List Segment) : List (Nat × Nat) :=
  symbols.zipIdx.flatMap fun s =>
    (segments.zipIdx.filter fun g => related s.1 g.1).map fun g => (s.2, g.2)

/-- Whether pairings stand, in order, for symbols and segments at positions, which are all
different, and go through the symbols and for each of these through the segments. -/
structure ListedAt {σ : Type} (symbols : List Symbol) (segments : List Segment)
    (positions : List (Nat × Nat)) (pairings : List (Pairing σ)) : Prop where
  pairs : pairings.map (fun p => (some p.symbol, some p.segment)) =
    positions.map fun place => (symbols[place.1]?, segments[place.2]?)
  ordered : positions.Pairwise (Prod.Lex (· < ·) (· < ·))

section Order
variable {symbols : List Symbol} {segments : List Segment}

theorem ordered_positionsWhere (related : Symbol → Segment → Bool) :
    (positionsWhere related symbols segments).Pairwise (Prod.Lex (· < ·) (· < ·)) := by
  refine List.pairwise_flatMap.2 ⟨fun s _ => List.pairwise_map.2 ?_, ?_⟩
  · exact ((pairwise_zipIdx segments).filter _).imp fun h => .right _ h
  · refine (pairwise_zipIdx symbols).imp fun {s t} hst a ha b hb => ?_
    obtain ⟨g, -, rfl⟩ := List.mem_map.1 ha
    obtain ⟨k, -, rfl⟩ := List.mem_map.1 hb
    exact .left _ _ hst

theorem positionsWhere_sublist {related related' : Symbol → Segment → Bool}
    (h : ∀ s g, related s g = true → related' s g = true) :
    (positionsWhere related symbols segments).Sublist (positionsWhere related' symbols segments) :=
  List.Sublist.flatMap_right _ fun s _ =>
    (List.monotone_filter_right segments.zipIdx fun g => h s.1 g.1).map _

variable {σ : Type} {score? : Symbol → Segment → Option (Pairing σ)}

/-- What is found with one symbol, among segments with their positions. -/
theorem found_with (habout : ∀ s g p, score? s g = some p → p.symbol = s ∧ p.segment = g)
    (s : Symbol) (gs : List (Segment × Nat)) :
    ((gs.map (·.1)).filterMap (score? s)).map (fun p => (some p.symbol, some p.segment)) =
      (gs.filter fun g => (score? s g.1).isSome).map fun g => (some s, some g.1) := by
  induction gs with
  | nil => rfl
  | cons g gs ih =>
    cases hscore : score? s g.1 with
    | none => simpa [hscore] using ih
    | some p =>
      obtain ⟨hs, hg⟩ := habout s g.1 p hscore
      simpa [hscore, hs, hg] using ih

/-- A pass over all pairs lists what it finds at the positions where it finds anything. -/
theorem listedAt_pass (habout : ∀ s g p, score? s g = some p → p.symbol = s ∧ p.segment = g) :
    ListedAt symbols segments (positionsWhere (fun s g => (score? s g).isSome) symbols segments)
      (symbols.flatMap fun s => segments.filterMap (score? s)) where
  pairs := by
    have hwith (s : Symbol) : (segments.filterMap (score? s)).map
        (fun p => (some p.symbol, some p.segment)) =
          (segments.zipIdx.filter fun g => (score? s g.1).isSome).map
            fun g => (some s, some g.1) := by
      rw [← found_with habout, List.zipIdx_map_fst]
    calc (symbols.flatMap fun s => segments.filterMap (score? s)).map
          (fun p => (some p.symbol, some p.segment))
      _ = symbols.flatMap fun s => (segments.zipIdx.filter fun g => (score? s g.1).isSome).map
            fun g => (some s, some g.1) := by simp only [List.map_flatMap, hwith]
      _ = symbols.zipIdx.flatMap fun s =>
            (segments.zipIdx.filter fun g => (score? s.1 g.1).isSome).map
              fun g => (some s.1, some g.1) := by
        conv_lhs => rw [← List.zipIdx_map_fst 0 symbols, List.flatMap_map]
      _ = _ := by
        rw [positionsWhere, List.map_flatMap]
        refine List.flatMap_congr fun s hs => ?_
        rw [List.map_map]
        refine List.map_congr_left fun g hg => ?_
        rw [Function.comp_apply, List.mem_zipIdx_iff_getElem?.1 hs,
          List.mem_zipIdx_iff_getElem?.1 (List.mem_filter.1 hg).1]
  ordered := ordered_positionsWhere _

/-- Pairings at some of the positions of others are about some of the same pairs, in order. -/
theorem ListedAt.sublist {few many : List (Nat × Nat)} {ps qs : List (Pairing σ)}
    (hps : ListedAt symbols segments few ps) (hqs : ListedAt symbols segments many qs)
    (h : few.Sublist many) :
    (ps.map fun p => (p.symbol, p.segment)).Sublist (qs.map fun q => (q.symbol, q.segment)) := by
  have hpairs {positions : List (Nat × Nat)} {rs : List (Pairing σ)}
      (hrs : ListedAt symbols segments positions rs) :
      rs.map (fun r => (r.symbol, r.segment)) = positions.filterMap fun place =>
        (symbols[place.1]?).bind fun s => (segments[place.2]?).map fun g => (s, g) := by
    have hmap := congrArg
      (List.filterMap fun x : Option Symbol × Option Segment =>
        x.1.bind fun s => x.2.map fun g => (s, g)) hrs.pairs
    simpa [List.filterMap_map, Function.comp_def] using hmap
  rw [hpairs hps, hpairs hqs]
  exact h.filterMap _

end Order

/-! ## Confidences -/

section Confidence
variable {symbol : Symbol} {segment : Segment}

theorem countMentions_le (l : Lowered) (ws : List (List Char)) : countMentions l ws ≤ ws.length :=
  List.length_filter_le ..

theorem weight_pos (h : Heuristic) : (0 : Rat) < h.weight := by
  cases h <;> norm_num [Heuristic.weight]

/-- A part of the terms of which some occur. -/
theorem ratio_pos {l : Lowered} {ws : List (List Char)} {n : Nat}
    (h : countMentions l ws = n + 1) : (0 : Rat) < Score.ratio (n + 1) ws.length := by
  have hle := countMentions_le l ws
  have hlength : (0 : Rat) < ws.length := by exact_mod_cast (by omega : 0 < ws.length)
  exact div_pos (by exact_mod_cast n.succ_pos) hlength

theorem share_pos {h : Heuristic} {name content : List Char} {l : Lowered} {share : Rat}
    (hshare : h.share? name content l = some share) : 0 < share := by
  have hwhole (applies : Bool) (h : (if applies then some Score.one else none) = some share) :
      0 < share := by
    split at h
    · rw [← Option.some.inj h]
      exact one_pos
    · cases h
  cases h with
  | exactName => exact hwhole _ hshare
  | codeFence => exact hwhole _ hshare
  | keyword =>
    simp only [Heuristic.share?] at hshare
    split at hshare
    · cases hshare
    · next n hn => exact Option.some.inj hshare ▸ ratio_pos hn
  | partialPrefix =>
    simp only [Heuristic.share?] at hshare
    split at hshare
    · exact hwhole _ hshare
    · cases hshare

theorem contribution_pos {hit : Heuristic × Rat} (h : hit ∈ hits symbol segment) : 0 < hit.2 := by
  rw [hits] at h
  split at h
  · cases h
  · obtain ⟨heuristic, -, hhit⟩ := List.mem_filterMap.1 h
    obtain ⟨share, hshare, rfl⟩ := Option.map_eq_some_iff.1 hhit
    exact mul_pos (share_pos hshare) (weight_pos heuristic)

/-- Whether a number can be a confidence of something found. -/
def Confident (x : Rat) : Prop := 0 < x ∧ x ≤ 1

theorem confident_min_one {x : Rat} (h : 0 < x) : Confident (min 1 x) :=
  ⟨lt_min one_pos h, min_le_left 1 x⟩

theorem confident_broadScore? {p : Pairing Rat} (h : broadScore? symbol segment = some p) :
    Confident p.confidence := by
  rw [broadScore?] at h
  split at h
  · cases h
  · next found hfound =>
    obtain rfl := Option.some.inj h
    have hpos : ∀ x ∈ (hits symbol segment).map (·.2), (0 : Rat) < x := by
      intro x hx
      obtain ⟨hit, hhit, rfl⟩ := List.mem_map.1 hx
      exact contribution_pos hhit
    have hne : ((hits symbol segment).map (·.2) : List Rat) ≠ [] := by simpa using hfound
    simp only
    rw [combine_sum_eq fun x hx => (hpos x hx).le]
    exact confident_min_one (List.sum_pos _ hpos hne)

theorem confident_quickScore? {p : Pairing Rat} (h : quickScore? symbol segment = some p) :
    Confident p.confidence := by
  simp only [quickScore?] at h
  split at h
  · cases h
  · split at h
    · cases h
    · next n hn =>
      obtain rfl := Option.some.inj h
      simp only
      rw [clamp_eq_min (ratio_pos hn).le]
      exact confident_min_one (ratio_pos hn)

end Confidence

/-- **The quick pass finds some of what the broad pass finds**, in the same order: both go through
the symbols and for each of these through the segments, and come to each pair of positions at most
once. The positions are the same in any numbers, and in rational numbers each confidence is more
than zero and at most one. -/
theorem quickMatch_within_broadMatch (symbols : List Symbol) (segments : List Segment) :
    ∃ quick broad : List (Nat × Nat), quick.Sublist broad ∧
      (∀ (σ : Type) [Score σ],
        ListedAt symbols segments quick (quickMatch symbols segments : List (Pairing σ)) ∧
        ListedAt symbols segments broad (broadMatch symbols segments : List (Pairing σ)) ∧
        ((quickMatch symbols segments : List (Pairing σ)).map fun p => (p.symbol, p.segment)).Sublist
          ((broadMatch symbols segments : List (Pairing σ)).map fun p => (p.symbol, p.segment))) ∧
      (∀ p ∈ (quickMatch symbols segments : List (Pairing Rat)), Confident p.confidence) ∧
      ∀ p ∈ (broadMatch symbols segments : List (Pairing Rat)), Confident p.confidence := by
  refine ⟨
    positionsWhere (fun s g => (quickScore? s g : Option (Pairing Rat)).isSome) symbols segments,
    positionsWhere (fun s g => (broadScore? s g : Option (Pairing Rat)).isSome) symbols segments,
    ?_, ?_, ?_, ?_⟩
  · exact positionsWhere_sublist fun s g => isSome_broadScore?_of_quick
  · intro σ _
    simp only [isSome_quickScore? (σ := Rat) (τ := σ), isSome_broadScore? (σ := Rat) (τ := σ)]
    have hquick : ListedAt symbols segments _ (quickMatch symbols segments : List (Pairing σ)) :=
      listedAt_pass fun _ _ _ => quickScore?_about
    have hbroad : ListedAt symbols segments _ (broadMatch symbols segments : List (Pairing σ)) :=
      listedAt_pass fun _ _ _ => broadScore?_about
    refine ⟨hquick, hbroad, hquick.sublist hbroad ?_⟩
    exact positionsWhere_sublist fun s g => isSome_broadScore?_of_quick
  · intro p hp
    obtain ⟨s, -, hp⟩ := List.mem_flatMap.1 hp
    obtain ⟨g, -, hscore⟩ := List.mem_filterMap.1 hp
    exact confident_quickScore? hscore
  · intro p hp
    exact confident_broadScore? (mem_broadMatch.1 hp).2.2

end StaleDocs.Relevance
