/-
What reducing results and grouping them keep. Reducing leaves one result for
each key (`reduce_keys_nodup`, `mem_reduce_keys`), so it drops nothing exactly
when no two results have the same key (`reduce_length_iff`); grouping by symbol
only puts results in another order (`groupBySymbol_perm`). The groups stand in
the order of their first results (`groupBySymbol_keys`), each with all results
of its key (`groupBySymbol_gathers`), and grouping what is grouped changes
nothing (`groupBySymbol_regroup`).
-/
import Mathlib.Data.List.Perm.Subperm
import StaleDocs.Proofs.Lists
import StaleDocs.Relevance.Reduction

namespace StaleDocs.Relevance

/-! ## One result for each key -/

section Keys

variable {σ : Type} [Score σ]

theorem merge_key {how : Aggregation} {a b : Pairing σ} (h : a.key = b.key) :
    (a.merge how b).key = a.key := by
  cases how with
  | sum => rfl
  | max =>
    simp only [Pairing.merge]
    split
    · exact h.symm
    · rfl

/-- Adding a result adds its key at the end, if it is new. -/
theorem absorb_keys (how : Aggregation) (p : Pairing σ) (qs : List (Pairing σ)) :
    (absorb how p qs).map (·.key) =
      if p.key ∈ qs.map (·.key) then qs.map (·.key) else qs.map (·.key) ++ [p.key] := by
  induction qs with
  | nil => simp [absorb]
  | cons q qs ih =>
    simp only [absorb]
    by_cases hk : q.key = p.key
    · simp [hk, merge_key hk]
    · rw [if_neg hk, List.map_cons, ih]
      by_cases hm : p.key ∈ qs.map (·.key)
      · simp [hm]
      · simp [hm, Ne.symm hk]

/-- The greater of two results is one of them, so no result is made up. -/
theorem mem_absorb {p x : Pairing σ} {qs : List (Pairing σ)} (h : x ∈ absorb .max p qs) :
    x = p ∨ x ∈ qs := by
  induction qs with
  | nil => simpa [absorb] using h
  | cons q qs ih =>
    simp only [absorb] at h
    split at h
    · rcases List.mem_cons.1 h with rfl | h
      · simp only [Pairing.merge]
        split
        · exact .inl rfl
        · exact .inr (by simp)
      · exact .inr (by simp [h])
    · rcases List.mem_cons.1 h with rfl | h
      · exact .inr (by simp)
      · exact (ih h).imp_right (List.mem_cons_of_mem q)

theorem absorb_of_not_mem (how : Aggregation) {p : Pairing σ} {qs : List (Pairing σ)}
    (h : p.key ∉ qs.map (·.key)) : absorb how p qs = qs ++ [p] := by
  induction qs with
  | nil => rfl
  | cons q qs ih =>
    simp only [List.map_cons, List.mem_cons, not_or] at h
    rw [absorb, if_neg fun hk => h.1 hk.symm, ih h.2, List.cons_append]

theorem reduce_concat (how : Aggregation) (ps : List (Pairing σ)) (p : Pairing σ) :
    reduce how (ps ++ [p]) = absorb how p (reduce how ps) := by
  simp [reduce]

/-- Reducing leaves no two results with one key. -/
theorem reduce_keys_nodup (how : Aggregation) (ps : List (Pairing σ)) :
    ((reduce how ps).map (·.key)).Nodup := by
  induction ps using List.reverseRecOn with
  | nil => exact .nil
  | append_singleton ps p ih =>
    rw [reduce_concat, absorb_keys]
    split
    · exact ih
    · next hnew =>
      rw [← List.concat_eq_append]
      exact List.Nodup.concat hnew ih

/-- Reducing loses no key. -/
theorem mem_reduce_keys {how : Aggregation} {ps : List (Pairing σ)} {k : PairKey} :
    k ∈ (reduce how ps).map (·.key) ↔ k ∈ ps.map (·.key) := by
  induction ps using List.reverseRecOn with
  | nil => rfl
  | append_singleton ps p ih =>
    rw [reduce_concat, absorb_keys, List.map_append, List.mem_append, ← ih]
    split
    · next hm =>
      constructor
      · exact .inl
      · rintro (h | h)
        · exact h
        · rw [List.map_singleton, List.mem_singleton] at h
          exact h ▸ hm
    · simp

/-- Keeping the greatest makes up no result. -/
theorem mem_of_mem_reduce {ps : List (Pairing σ)} {x : Pairing σ} (h : x ∈ reduce .max ps) :
    x ∈ ps := by
  induction ps using List.reverseRecOn with
  | nil => simp [reduce] at h
  | append_singleton ps p ih =>
    rw [reduce_concat] at h
    rcases mem_absorb h with rfl | h
    · simp
    · exact List.mem_append_left _ (ih h)

theorem reduce_of_nodup {how : Aggregation} {ps : List (Pairing σ)} (h : (ps.map (·.key)).Nodup) :
    reduce how ps = ps := by
  induction ps using List.reverseRecOn with
  | nil => rfl
  | append_singleton ps p ih =>
    rw [List.map_append, List.nodup_append] at h
    rw [reduce_concat, ih h.1, absorb_of_not_mem how]
    intro hm
    exact h.2.2 _ hm _ (by simp) rfl

/-- Nothing is dropped exactly when every result has a key of its own. -/
theorem reduce_length_iff {how : Aggregation} {ps : List (Pairing σ)} :
    (reduce how ps).length = ps.length ↔ (ps.map (·.key)).Nodup := by
  constructor
  · intro hlen
    have hsub : ((reduce how ps).map (·.key)).Subperm (ps.map (·.key)) :=
      List.subperm_of_subset (reduce_keys_nodup how ps) fun _ hk => mem_reduce_keys.1 hk
    have hperm := hsub.perm_of_length_le (by simp [hlen])
    exact hperm.nodup_iff.1 (reduce_keys_nodup how ps)
  · intro h
    rw [reduce_of_nodup h]

end Keys

/-! ## Groups -/

variable {σ : Type}

/-- All candidates of groups. -/
def allCandidates (groups : List (SymbolGroup σ)) : List (Pairing σ) :=
  groups.flatMap (·.candidates)

theorem joinGroup_perm (p : Pairing σ) (groups : List (SymbolGroup σ)) :
    (allCandidates (joinGroup p groups)).Perm (allCandidates groups ++ [p]) := by
  induction groups with
  | nil => exact .refl _
  | cons g gs ih =>
    simp only [joinGroup]
    split
    · simp only [allCandidates, List.flatMap_cons, List.append_assoc]
      exact List.Perm.append_left _ List.perm_append_comm
    · simp only [allCandidates, List.flatMap_cons, List.append_assoc] at ih ⊢
      exact ih.append_left _

theorem groupBySymbol_concat (ps : List (Pairing σ)) (p : Pairing σ) :
    groupBySymbol (ps ++ [p]) = joinGroup p (groupBySymbol ps) := by
  simp [groupBySymbol]

/-- Grouping puts results in another order, and that is all. -/
theorem groupBySymbol_perm (ps : List (Pairing σ)) :
    (allCandidates (groupBySymbol ps)).Perm ps := by
  induction ps using List.reverseRecOn with
  | nil => exact .refl _
  | append_singleton ps p ih =>
    rw [groupBySymbol_concat]
    exact (joinGroup_perm p _).trans (ih.append_right _)

/-! ## Groups by their keys -/

/-- The file and the name that the candidates of a group share. -/
def SymbolGroup.key (g : SymbolGroup σ) : String × String := (g.symbol.file, g.symbol.name)

/-- The file and the name by which a pairing is put into a group. -/
def Pairing.symbolKey (p : Pairing σ) : String × String := (p.symbol.file, p.symbol.name)

theorem SymbolGroup.admits_iff {g : SymbolGroup σ} {p : Pairing σ} :
    g.admits p = true ↔ g.key = p.symbolKey := by
  simp [SymbolGroup.admits, SymbolGroup.key, Pairing.symbolKey]

/-- The candidates of a group with one more, if it has the key of the group. -/
def SymbolGroup.extend (p : Pairing σ) (g : SymbolGroup σ) : SymbolGroup σ :=
  { g with candidates := g.candidates ++ [p].filter fun p => p.symbolKey = g.key }

@[simp] theorem SymbolGroup.extend_key (p : Pairing σ) (g : SymbolGroup σ) :
    (g.extend p).key = g.key := rfl

theorem SymbolGroup.extend_of_eq {p : Pairing σ} {g : SymbolGroup σ} (h : g.key = p.symbolKey) :
    g.extend p = { g with candidates := g.candidates ++ [p] } := by
  simp [SymbolGroup.extend, h]

theorem SymbolGroup.extend_of_ne {p : Pairing σ} {g : SymbolGroup σ} (h : p.symbolKey ≠ g.key) :
    g.extend p = g := by
  simp [SymbolGroup.extend, h]

/-- A result with a new key is a group of its own, the last one. -/
theorem joinGroup_of_not_mem {p : Pairing σ} {groups : List (SymbolGroup σ)}
    (h : p.symbolKey ∉ groups.map (·.key)) : joinGroup p groups = groups ++ [⟨p.symbol, [p]⟩] := by
  induction groups with
  | nil => rfl
  | cons g gs ih =>
    simp only [List.map_cons, List.mem_cons, not_or] at h
    rw [joinGroup, if_neg fun hg => h.1 (SymbolGroup.admits_iff.1 hg).symm, ih h.2,
      List.cons_append]

theorem map_extend_of_not_mem {p : Pairing σ} {groups : List (SymbolGroup σ)}
    (h : p.symbolKey ∉ groups.map (·.key)) : groups.map (·.extend p) = groups := by
  calc groups.map (·.extend p) = groups.map id :=
        List.map_congr_left fun g hg => SymbolGroup.extend_of_ne fun hk =>
          h (hk ▸ List.mem_map_of_mem hg)
    _ = groups := List.map_id _

/-- Among groups of distinct keys a result goes to the one with its key. -/
theorem joinGroup_of_mem {p : Pairing σ} {groups : List (SymbolGroup σ)}
    (hnodup : (groups.map (·.key)).Nodup) (h : p.symbolKey ∈ groups.map (·.key)) :
    joinGroup p groups = groups.map (·.extend p) := by
  induction groups with
  | nil => simp at h
  | cons g gs ih =>
    rw [List.map_cons, List.nodup_cons] at hnodup
    by_cases hk : g.key = p.symbolKey
    · rw [joinGroup, if_pos (SymbolGroup.admits_iff.2 hk), List.map_cons,
        SymbolGroup.extend_of_eq hk, map_extend_of_not_mem (hk ▸ hnodup.1)]
    · have hrest : p.symbolKey ∈ gs.map (·.key) := by simpa [Ne.symm hk] using h
      rw [joinGroup, if_neg (mt SymbolGroup.admits_iff.1 hk), List.map_cons,
        SymbolGroup.extend_of_ne (Ne.symm hk), ih hnodup.2 hrest]

/-- The groups stand in the order in which their keys are first seen. -/
theorem groupBySymbol_keys (ps : List (Pairing σ)) :
    (groupBySymbol ps).map (·.key) = (ps.map (·.symbolKey)).eraseDups := by
  induction ps using List.reverseRecOn with
  | nil => rfl
  | append_singleton ps p ih =>
    have hmem : p.symbolKey ∈ ps.map (·.symbolKey) ↔
        p.symbolKey ∈ (groupBySymbol ps).map (·.key) := by
      rw [ih, List.mem_eraseDups]
    rw [groupBySymbol_concat, List.map_append, List.map_singleton, eraseDups_concat, ← ih]
    split
    · next h =>
      have hnodup : ((groupBySymbol ps).map (·.key)).Nodup := ih ▸ nodup_eraseDups _
      rw [joinGroup_of_mem hnodup (hmem.1 h), List.map_map]
      rfl
    · next h =>
      rw [joinGroup_of_not_mem (mt hmem.2 h), List.map_append]
      rfl

theorem groupBySymbol_keys_nodup (ps : List (Pairing σ)) :
    ((groupBySymbol ps).map (·.key)).Nodup :=
  groupBySymbol_keys ps ▸ nodup_eraseDups _

/-- Whether a group has all results of its key, in order, and the symbol of the first. -/
structure SymbolGroup.Gathers (g : SymbolGroup σ) (ps : List (Pairing σ)) : Prop where
  candidates : g.candidates = ps.filter fun p => p.symbolKey = g.key
  symbol : g.candidates.head?.map (·.symbol) = some g.symbol

theorem SymbolGroup.Gathers.extend {g : SymbolGroup σ} {ps : List (Pairing σ)}
    (h : g.Gathers ps) (p : Pairing σ) : (g.extend p).Gathers (ps ++ [p]) where
  candidates := by
    rw [List.filter_append, SymbolGroup.extend_key, ← h.candidates]
    rfl
  symbol := by
    have hsymbol := h.symbol
    simp only [SymbolGroup.extend, List.head?_append]
    cases hhead : g.candidates.head? with
    | none => simp [hhead] at hsymbol
    | some first => simpa [hhead] using hsymbol

theorem groupBySymbol_gathers {ps : List (Pairing σ)} {g : SymbolGroup σ}
    (h : g ∈ groupBySymbol ps) : g.Gathers ps := by
  induction ps using List.reverseRecOn generalizing g with
  | nil => simp [groupBySymbol] at h
  | append_singleton ps p ih =>
    rw [groupBySymbol_concat] at h
    by_cases hm : p.symbolKey ∈ (groupBySymbol ps).map (·.key)
    · rw [joinGroup_of_mem (groupBySymbol_keys_nodup ps) hm] at h
      obtain ⟨g, hg, rfl⟩ := List.mem_map.1 h
      exact (ih hg).extend p
    · rw [joinGroup_of_not_mem hm, List.mem_append, List.mem_singleton] at h
      rcases h with h | rfl
      · have hne : p.symbolKey ≠ g.key := fun hk => hm (hk ▸ List.mem_map_of_mem h)
        exact SymbolGroup.extend_of_ne hne ▸ (ih h).extend p
      · -- No group has this key, so no earlier result has it.
        have hnone : ps.filter (fun q => q.symbolKey = p.symbolKey) = [] := by
          refine List.filter_eq_nil_iff.2 fun q hq hk => hm ?_
          rw [groupBySymbol_keys, List.mem_eraseDups, ← of_decide_eq_true hk]
          exact List.mem_map_of_mem hq
        exact ⟨by simpa [SymbolGroup.key, Pairing.symbolKey] using hnone, rfl⟩

/-! ## A stable partition -/

theorem mem_groupBySymbol_keys {ps : List (Pairing σ)} {key : String × String} :
    key ∈ (groupBySymbol ps).map (·.key) ↔ key ∈ ps.map (·.symbolKey) := by
  rw [groupBySymbol_keys, List.mem_eraseDups]

/-- A group that gathers from anywhere also gathers all of its own candidates. -/
theorem SymbolGroup.Gathers.own {g : SymbolGroup σ} {ps : List (Pairing σ)} (h : g.Gathers ps) :
    g.Gathers g.candidates where
  candidates := by
    rw [h.candidates, List.filter_filter]
    simp
  symbol := h.symbol

/-- Such a group is a first candidate, whose symbol it has, and more with the same key. -/
theorem SymbolGroup.Gathers.eq_run {g : SymbolGroup σ} (h : g.Gathers g.candidates) :
    ∃ p cs, g = ⟨p.symbol, p :: cs⟩ ∧ ∀ q ∈ cs, q.symbolKey = p.symbolKey := by
  obtain ⟨symbol, candidates⟩ := g
  cases candidates with
  | nil => simpa using h.symbol
  | cons p cs =>
    have hsymbol : p.symbol = symbol := by simpa using h.symbol
    subst hsymbol
    refine ⟨p, cs, rfl, fun q hq => ?_⟩
    have hkeys := List.filter_eq_self.1 h.candidates.symm
    exact of_decide_eq_true (hkeys q (List.mem_cons_of_mem p hq))

/-- A result with the key of the last group, and of no other, goes to the last group. -/
theorem joinGroup_last {p : Pairing σ} {groups : List (SymbolGroup σ)} {g : SymbolGroup σ}
    (hnew : p.symbolKey ∉ groups.map (·.key)) (hkey : g.key = p.symbolKey) :
    joinGroup p (groups ++ [g]) = groups ++ [{ g with candidates := g.candidates ++ [p] }] := by
  induction groups with
  | nil =>
    show joinGroup p [g] = _
    rw [joinGroup, if_pos (SymbolGroup.admits_iff.2 hkey)]
    rfl
  | cons first rest ih =>
    simp only [List.map_cons, List.mem_cons, not_or] at hnew
    rw [List.cons_append, joinGroup,
      if_neg fun hfirst => hnew.1 (SymbolGroup.admits_iff.1 hfirst).symm, ih hnew.2,
      List.cons_append]

/-- Results in a row with one new key are one more group. -/
theorem groupBySymbol_run {ps : List (Pairing σ)} {p : Pairing σ} {cs : List (Pairing σ)}
    (hnew : p.symbolKey ∉ ps.map (·.symbolKey)) (hsame : ∀ q ∈ cs, q.symbolKey = p.symbolKey) :
    groupBySymbol (ps ++ p :: cs) = groupBySymbol ps ++ [⟨p.symbol, p :: cs⟩] := by
  have hgroups : p.symbolKey ∉ (groupBySymbol ps).map (·.key) := mt mem_groupBySymbol_keys.1 hnew
  induction cs using List.reverseRecOn with
  | nil => rw [groupBySymbol_concat, joinGroup_of_not_mem hgroups]
  | append_singleton cs q ih =>
    have hq : q.symbolKey = p.symbolKey := hsame q (by simp)
    have hlast : SymbolGroup.key ⟨p.symbol, p :: cs⟩ = q.symbolKey := hq.symm
    have hcs := ih fun r hr => hsame r (List.mem_append_left _ hr)
    rw [← List.cons_append, ← List.append_assoc, groupBySymbol_concat, hcs,
      joinGroup_last (hq ▸ hgroups) hlast]

/-- Groups of distinct keys are found again in their candidates. -/
theorem groupBySymbol_allCandidates {groups : List (SymbolGroup σ)}
    (hnodup : (groups.map (·.key)).Nodup) (hall : ∀ g ∈ groups, g.Gathers g.candidates) :
    groupBySymbol (allCandidates groups) = groups := by
  induction groups using List.reverseRecOn with
  | nil => rfl
  | append_singleton groups g ih =>
    rw [List.map_append, List.nodup_append] at hnodup
    have hrest := ih hnodup.1 fun g' hg' => hall g' (List.mem_append_left _ hg')
    obtain ⟨p, cs, rfl, hsame⟩ := (hall g (by simp)).eq_run
    have hnew : p.symbolKey ∉ (allCandidates groups).map (·.symbolKey) := by
      rw [← mem_groupBySymbol_keys, hrest]
      exact fun hm => hnodup.2.2 _ hm _ (List.mem_singleton_self _) rfl
    have happend : allCandidates (groups ++ [⟨p.symbol, p :: cs⟩]) =
        allCandidates groups ++ p :: cs := by
      simp [allCandidates]
    rw [happend, groupBySymbol_run hnew hsame, hrest]

theorem groupBySymbol_regroup (ps : List (Pairing σ)) :
    groupBySymbol (allCandidates (groupBySymbol ps)) = groupBySymbol ps :=
  groupBySymbol_allCandidates (groupBySymbol_keys_nodup ps) fun _ hg =>
    (groupBySymbol_gathers hg).own

/-- The results of one key stand in the groups in the order in which they came. -/
theorem filter_allCandidates (ps : List (Pairing σ)) (key : String × String) :
    (allCandidates (groupBySymbol ps)).filter (fun p => p.symbolKey = key) =
      ps.filter fun p => p.symbolKey = key := by
  by_cases hkey : key ∈ (groupBySymbol ps).map (·.key)
  · -- The group of the key is found in the results and again in the groups.
    obtain ⟨g, hg, rfl⟩ := List.mem_map.1 hkey
    have hagain : g ∈ groupBySymbol (allCandidates (groupBySymbol ps)) :=
      (groupBySymbol_regroup ps).symm ▸ hg
    rw [← (groupBySymbol_gathers hagain).candidates, (groupBySymbol_gathers hg).candidates]
  · have hnone : ps.filter (fun p => p.symbolKey = key) = [] :=
      List.filter_eq_nil_iff.2 fun p hp hk => hkey <| mem_groupBySymbol_keys.2 <|
        of_decide_eq_true hk ▸ List.mem_map_of_mem hp
    have hperm := (groupBySymbol_perm ps).filter fun p => p.symbolKey = key
    rw [hnone] at hperm ⊢
    exact hperm.eq_nil

/--
Grouping is a stable partition of the results: the groups have distinct keys,
in the order in which these first occur, and each has exactly the results of
its key, at least one, in their order, and the symbol of the first. So no
result is lost, added or moved within its key, and the groups, put one after
the other, are grouped in the same way again.
-/
theorem groupBySymbol_partition (ps : List (Pairing σ)) :
    ((groupBySymbol ps).map (·.key)).Nodup ∧
    (groupBySymbol ps).map (·.key) = (ps.map (·.symbolKey)).eraseDups ∧
    (∀ g ∈ groupBySymbol ps,
      g.candidates ≠ [] ∧
      g.candidates = ps.filter (fun p => p.symbolKey = g.key) ∧
      g.candidates.head?.map (·.symbol) = some g.symbol) ∧
    (allCandidates (groupBySymbol ps)).Perm ps ∧
    (∀ key, (allCandidates (groupBySymbol ps)).filter (fun p => p.symbolKey = key) =
      ps.filter fun p => p.symbolKey = key) ∧
    groupBySymbol (allCandidates (groupBySymbol ps)) = groupBySymbol ps := by
  refine ⟨groupBySymbol_keys_nodup ps, groupBySymbol_keys ps, fun g hg => ?_,
    groupBySymbol_perm ps, filter_allCandidates ps, groupBySymbol_regroup ps⟩
  have hgathers := groupBySymbol_gathers hg
  refine ⟨fun hempty => ?_, hgathers.candidates, hgathers.symbol⟩
  simpa [hempty] using hgathers.symbol

end StaleDocs.Relevance
