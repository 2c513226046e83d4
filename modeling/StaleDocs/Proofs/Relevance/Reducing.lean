/-
What reducing makes of results. There is one result for each key, in the order
in which the keys are first seen (`reduce_keys`), and it is made of the results
with that key alone, merged one after the other (`merged_of_mem_reduce`). In
rational numbers this is told without the merging (`reduce_law`): the earliest
of the greatest, or the first with the sum of the confidences, cut once at
one, and with all their labels.
-/
import StaleDocs.Proofs.Relevance.Exact
import StaleDocs.Proofs.Relevance.Labels

namespace StaleDocs.Relevance

/-! ## The results with one key -/

section Keys
variable {σ : Type}

/-- The results with a key. -/
def withKey (k : PairKey) (ps : List (Pairing σ)) : List (Pairing σ) :=
  ps.filter fun p => p.key = k

theorem withKey_concat (k : PairKey) (ps : List (Pairing σ)) (p : Pairing σ) :
    withKey k (ps ++ [p]) = withKey k ps ++ if p.key = k then [p] else [] := by
  by_cases h : p.key = k <;> simp [withKey, h]

variable [Score σ]

/-- The keys of the reduced results are those of all, each where it is first seen. -/
theorem reduce_keys (how : Aggregation) (ps : List (Pairing σ)) :
    (reduce how ps).map (·.key) = (ps.map (·.key)).eraseDups := by
  induction ps using List.reverseRecOn with
  | nil => rfl
  | append_singleton ps p ih =>
    rw [reduce_concat, absorb_keys, List.map_append, List.map_singleton, eraseDups_concat, ih]
    simp only [List.mem_eraseDups]

/-- Among results of distinct keys one with a known key goes to the one that has it. -/
theorem absorb_of_mem {how : Aggregation} {p : Pairing σ} {qs : List (Pairing σ)}
    (hnodup : (qs.map (·.key)).Nodup) (h : p.key ∈ qs.map (·.key)) :
    absorb how p qs = qs.map fun q => if q.key = p.key then q.merge how p else q := by
  induction qs with
  | nil => simp at h
  | cons q qs ih =>
    rw [List.map_cons, List.nodup_cons] at hnodup
    rw [absorb, List.map_cons]
    by_cases hk : q.key = p.key
    · have hother : ∀ r ∈ qs, r.key ≠ p.key := fun r hr hrk => by
        rw [hk, ← hrk] at hnodup
        exact hnodup.1 (List.mem_map_of_mem hr)
      have hrest : qs.map (fun q => if q.key = p.key then q.merge how p else q) = qs := by
        calc qs.map (fun q => if q.key = p.key then q.merge how p else q)
          _ = qs.map id := List.map_congr_left fun r hr => if_neg (hother r hr)
          _ = qs := List.map_id _
      rw [if_pos hk, if_pos hk, hrest]
    · have hmem : p.key ∈ qs.map (·.key) := by simpa [Ne.symm hk] using h
      rw [if_neg hk, if_neg hk, ih hnodup.2 hmem]

/-- Whether a result is made of the results with its key: the first of them with the others merged
into it. -/
def MergedFrom (how : Aggregation) (r : Pairing σ) (ps : List (Pairing σ)) : Prop :=
  ∃ first rest, withKey r.key ps = first :: rest ∧ r = rest.foldl (Pairing.merge how) first

theorem merged_of_mem_reduce {how : Aggregation} {ps : List (Pairing σ)} {r : Pairing σ}
    (h : r ∈ reduce how ps) : MergedFrom how r ps := by
  induction ps using List.reverseRecOn generalizing r with
  | nil => simp [reduce] at h
  | append_singleton ps p ih =>
    rw [reduce_concat] at h
    by_cases hk : p.key ∈ (reduce how ps).map (·.key)
    · rw [absorb_of_mem (reduce_keys_nodup how ps) hk] at h
      obtain ⟨q, hq, rfl⟩ := List.mem_map.1 h
      obtain ⟨first, rest, hfirst, hmerged⟩ := ih hq
      by_cases hqp : q.key = p.key
      · rw [if_pos hqp]
        refine ⟨first, rest ++ [p], ?_, ?_⟩
        · rw [merge_key hqp, withKey_concat, hfirst, if_pos hqp.symm, List.cons_append]
        · rw [List.foldl_concat, ← hmerged]
      · rw [if_neg hqp]
        refine ⟨first, rest, ?_, hmerged⟩
        rw [withKey_concat, hfirst, if_neg (Ne.symm hqp), List.append_nil]
    · rw [absorb_of_not_mem how hk, List.mem_append, List.mem_singleton] at h
      rcases h with h | rfl
      · obtain ⟨first, rest, hfirst, hmerged⟩ := ih h
        refine ⟨first, rest, ?_, hmerged⟩
        have hne : p.key ≠ r.key := fun heq => hk (heq ▸ List.mem_map_of_mem h)
        rw [withKey_concat, hfirst, if_neg hne, List.append_nil]
      · refine ⟨r, [], ?_, rfl⟩
        have hnone : withKey r.key ps = [] := by
          refine List.filter_eq_nil_iff.2 fun q hq heq => hk (mem_reduce_keys.2 ?_)
          exact of_decide_eq_true heq ▸ List.mem_map_of_mem hq
        rw [withKey_concat, hnone, if_pos rfl, List.nil_append]

end Keys

/-! ## Results in rational numbers -/

/-- Whether a result is the earliest of the greatest in a list. -/
def EarliestGreatest (r : Pairing Rat) (ps : List (Pairing Rat)) : Prop :=
  ∃ before after, ps = before ++ r :: after ∧ (∀ p ∈ before, p.confidence < r.confidence) ∧
    ∀ p ∈ after, p.confidence ≤ r.confidence

/-- One more result replaces the greatest if it is greater, and else comes too late. -/
theorem EarliestGreatest.extend {r : Pairing Rat} {ps : List (Pairing Rat)}
    (h : EarliestGreatest r ps) (p : Pairing Rat) :
    EarliestGreatest (r.merge .max p) (ps ++ [p]) := by
  obtain ⟨before, after, rfl, hbefore, hafter⟩ := h
  by_cases hlt : r.confidence < p.confidence
  · have hmerge : r.merge .max p = p := by simp [Pairing.merge, hlt]
    rw [hmerge]
    refine ⟨before ++ r :: after, [], rfl, fun q hq => ?_, by simp⟩
    rcases List.mem_append.1 hq with hq | hq
    · exact (hbefore q hq).trans hlt
    · rcases List.mem_cons.1 hq with rfl | hq
      · exact hlt
      · exact (hafter q hq).trans_lt hlt
  · have hmerge : r.merge .max p = r := by simp [Pairing.merge, hlt]
    rw [hmerge]
    refine ⟨before, after ++ [p], by simp, hbefore, fun q hq => ?_⟩
    rcases List.mem_append.1 hq with hq | hq
    · exact hafter q hq
    · exact List.mem_singleton.1 hq ▸ not_lt.1 hlt

theorem earliestGreatest_foldl (first : Pairing Rat) (rest : List (Pairing Rat)) :
    EarliestGreatest (rest.foldl (Pairing.merge .max) first) (first :: rest) := by
  induction rest using List.reverseRecOn with
  | nil => exact ⟨[], [], rfl, by simp, by simp⟩
  | append_singleton rest p ih =>
    rw [List.foldl_concat]
    exact ih.extend p

/-- Whether a confidence is a number from zero to one. -/
def Pairing.Bounded (p : Pairing Rat) : Prop := 0 ≤ p.confidence ∧ p.confidence ≤ 1

instance (p : Pairing Rat) : Decidable p.Bounded := inferInstanceAs (Decidable (_ ∧ _))

/-- Whether a result is the first of a list but for its confidence, which is the sum of all, at
most one, and for its reason, which lists the labels of all where theirs are lists of labels. -/
structure SumsUp (r : Pairing Rat) (ps : List (Pairing Rat)) : Prop where
  first : ∃ first ∈ ps.head?, r = { first with confidence := r.confidence, reason := r.reason }
  confidence : r.confidence = min 1 (ps.map (·.confidence)).sum
  reason : ∀ labelsOf : Pairing Rat → List (List Char),
    (∀ p ∈ ps, ListsLabels p.reason (labelsOf p)) →
      ListsLabels r.reason (ps.flatMap labelsOf).eraseDups

theorem SumsUp.single {p : Pairing Rat} (h : p.confidence ≤ 1) : SumsUp p [p] where
  first := ⟨p, rfl, rfl⟩
  confidence := by simp [min_eq_right h]
  reason := fun labelsOf hlabels => by
    have hp := hlabels p (by simp)
    rwa [List.flatMap_singleton, eraseDups_of_nodup hp.distinct]

/-- One more result is added to the sum, which may have been cut already. -/
theorem SumsUp.extend {r : Pairing Rat} {ps : List (Pairing Rat)} (h : SumsUp r ps)
    (hps : ∀ q ∈ ps, 0 ≤ q.confidence) {p : Pairing Rat} (hp : 0 ≤ p.confidence) :
    SumsUp (r.merge .sum p) (ps ++ [p]) where
  first := by
    obtain ⟨first, hfirst, hr⟩ := h.first
    refine ⟨first, List.mem_head?_append_of_mem_head? hfirst, ?_⟩
    rw [Pairing.merge, hr]
  confidence := by
    have hsum : 0 ≤ (ps.map (·.confidence)).sum := List.sum_nonneg (by simpa using hps)
    have hr : 0 ≤ r.confidence := h.confidence ▸ le_min zero_le_one hsum
    have hboth : ∀ x ∈ [r.confidence, p.confidence], 0 ≤ x := by simp [hr, hp]
    calc Aggregation.sum.combine [r.confidence, p.confidence]
      _ = min 1 (r.confidence + p.confidence) := by rw [combine_sum_eq hboth]; simp
      _ = min 1 (min 1 (ps.map (·.confidence)).sum + p.confidence) := by rw [← h.confidence]
      _ = min 1 ((ps ++ [p]).map (·.confidence)).sum := by rw [min_one_add_min hp]; simp
  reason := fun labelsOf hlabels => by
    have hr := h.reason labelsOf fun q hq => hlabels q (List.mem_append_left _ hq)
    rw [List.flatMap_append, List.flatMap_singleton]
    exact hr.merge (hlabels p (by simp))

theorem sumsUp_foldl {first : Pairing Rat} {rest : List (Pairing Rat)}
    (h : ∀ p ∈ first :: rest, p.Bounded) :
    SumsUp (rest.foldl (Pairing.merge .sum) first) (first :: rest) := by
  induction rest using List.reverseRecOn with
  | nil => exact .single (h first (by simp)).2
  | append_singleton rest p ih =>
    rw [← List.cons_append] at h
    rw [List.foldl_concat, ← List.cons_append]
    have hrest : ∀ q ∈ first :: rest, q.Bounded := fun q hq => h q (List.mem_append_left _ hq)
    exact (ih hrest).extend (fun q hq => (hrest q hq).1) (h p (by simp)).1

/-- **Reducing leaves one result for each key**, in the order in which the keys are first seen:
the earliest of the greatest, or the first with the sum, cut at one, and with the labels of all.
Reduced results stay as they are. -/
theorem reduce_law {ps : List (Pairing Rat)} (h : ∀ p ∈ ps, p.Bounded) :
    (∀ how, (reduce how ps).map (·.key) = (ps.map (·.key)).eraseDups) ∧
    (∀ r ∈ reduce .max ps, EarliestGreatest r (withKey r.key ps)) ∧
    (∀ r ∈ reduce .sum ps, SumsUp r (withKey r.key ps)) ∧
    ∀ how again, reduce again (reduce how ps) = reduce how ps := by
  refine ⟨fun how => reduce_keys how ps, fun r hr => ?_, fun r hr => ?_, fun how again => ?_⟩
  · obtain ⟨first, rest, hfirst, hmerged⟩ := merged_of_mem_reduce hr
    rw [hfirst, hmerged]
    exact earliestGreatest_foldl first rest
  · obtain ⟨first, rest, hfirst, hmerged⟩ := merged_of_mem_reduce hr
    have hall : ∀ p ∈ first :: rest, p.Bounded := fun p hp =>
      h p (List.mem_filter.1 (hfirst ▸ hp)).1
    rw [hfirst, hmerged]
    exact sumsUp_foldl hall
  · exact reduce_of_nodup (reduce_keys_nodup how ps)

def shippingResult (line : Nat) (confidence : Rat) (reason : String) : Pairing Rat :=
  { symbol := ⟨"shop/shipping.go", "CalculateShipping", .function, .modified, 1, 5, "", ""⟩
    segment := ⟨"docs/shipping.md", "Shipping", 2, line, 60, "text", .markdown⟩
    confidence
    reason }

def shippingResults : List (Pairing Rat) :=
  [shippingResult 10 (2 / 5) "keyword match", shippingResult 40 (1 / 5) "keyword match",
    shippingResult 10 (7 / 10) "exact name match, keyword match",
    shippingResult 10 (7 / 10) "partial name match, exact name match"]

/-- Of two that are as great the earlier is kept, and a sum of more than one is cut. A label that
comes again is not listed again. -/
theorem reduce_law_shipping :
    (∀ p ∈ shippingResults, p.Bounded) ∧
    (reduce .max shippingResults).map (fun r => (r.segment.startLine, r.confidence, r.reason)) =
      [(10, 7 / 10, "exact name match, keyword match"), (40, 1 / 5, "keyword match")] ∧
    (∀ r ∈ reduce .max shippingResults, EarliestGreatest r (withKey r.key shippingResults)) ∧
    ∃ r ∈ reduce .sum shippingResults, r.confidence = 1 ∧
      ListsLabels r.reason ["keyword match".toList, "exact name match".toList,
        "partial name match".toList] := by
  have hbounded : ∀ p ∈ shippingResults, p.Bounded := by decide +kernel
  have hlaw := reduce_law hbounded
  refine ⟨hbounded, by decide +kernel, hlaw.2.1, ?_⟩
  have hseen : (shippingResult 10 0 "").key ∈ (reduce .sum shippingResults).map (·.key) := by
    rw [hlaw.1 .sum]
    decide +kernel
  obtain ⟨r, hr, hkey⟩ := List.mem_map.1 hseen
  have hsums := hlaw.2.2.1 r hr
  rw [hkey] at hsums
  refine ⟨r, hr, hsums.confidence.trans (by decide +kernel), ?_⟩
  exact hsums.reason (fun p => labels p.reason.toList) (by decide +kernel)

end StaleDocs.Relevance
