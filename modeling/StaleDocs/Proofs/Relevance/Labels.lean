/-
Reasons as lists of labels. Labels that are joined with a comma and a space
between, and have no such thing inside, are told apart again
(`labels_joinLabels`), so merging reasons goes through their labels and adds
those that are new, in the order in which they come (`ListsLabels.merge`).
-/
import StaleDocs.Proofs.Relevance.Grouping
import StaleDocs.Proofs.Text.Search

namespace StaleDocs.Relevance

/-- What stands between two labels. -/
def labelSeparator : List Char := ", ".toList

theorem length_labelSeparator : labelSeparator.length = 2 := rfl

/-- Labels as one text. -/
def joinLabels (ls : List (List Char)) : List Char := List.intercalate labelSeparator ls

/-- Whether a text can be a label among others. -/
def IsLabel (l : List Char) : Prop := ¬ labelSeparator <:+: l

instance (l : List Char) : Decidable (IsLabel l) := inferInstanceAs (Decidable (¬ _))

theorem joinLabels_cons {l : List Char} {ls : List (List Char)} (h : ls ≠ []) :
    joinLabels (l :: ls) = l ++ (labelSeparator ++ joinLabels ls) := by
  obtain ⟨m, ls, rfl⟩ := List.exists_cons_of_ne_nil h
  simp [joinLabels, List.intercalate_cons_cons]

theorem joinLabels_concat {ls : List (List Char)} (h : ls ≠ []) (l : List Char) :
    joinLabels (ls ++ [l]) = joinLabels ls ++ labelSeparator ++ l := by
  induction ls with
  | nil => exact absurd rfl h
  | cons m ls ih =>
    cases ls with
    | nil => simp [joinLabels, List.intercalate_cons_cons]
    | cons k ls =>
      have hne : k :: ls ≠ [] := List.cons_ne_nil k ls
      rw [List.cons_append, joinLabels_cons (by simp), ih hne, joinLabels_cons hne]
      simp

/-- A label may end with a comma: the space is missing then. -/
theorem IsLabel.not_infix {l : List Char} (h : IsLabel l) :
    ¬ labelSeparator <:+: l ++ labelSeparator.dropLast := by
  intro hi
  have hlast : labelSeparator.dropLast = [','] := rfl
  rw [hlast, List.infix_concat_iff] at hi
  rcases hi with hsuffix | hi
  · obtain ⟨t, ht⟩ := hsuffix
    have hend := congrArg List.getLast? ht
    simp [labelSeparator] at hend
  · exact h hi

/-- Joined labels are cut where they were joined. -/
theorem splitFrom_joinLabels {ls : List (List Char)} (hne : ls ≠ []) (h : ∀ l ∈ ls, IsLabel l) :
    ∀ {fuel : Nat}, (joinLabels ls).length ≤ fuel →
      splitFrom labelSeparator fuel (joinLabels ls) = ls := by
  induction ls with
  | nil => exact absurd rfl hne
  | cons l ls ih =>
    intro fuel hfuel
    obtain ⟨hl, hls⟩ := List.forall_mem_cons.1 h
    cases ls with
    | nil =>
      have hone : joinLabels [l] = l := List.intercalate_singleton
      rw [hone]
      cases fuel with
      | zero => rfl
      | succ fuel => rw [splitFrom, Text.breakAt?_eq_none hl]
    | cons k ks =>
      have hcons : k :: ks ≠ [] := List.cons_ne_nil k ks
      rw [joinLabels_cons hcons] at hfuel ⊢
      rw [List.length_append, List.length_append, length_labelSeparator] at hfuel
      cases fuel with
      | zero => omega
      | succ fuel =>
        rw [splitFrom, Text.breakAt?_of_first hl.not_infix]
        simp only
        rw [ih hcons hls (by omega)]

theorem labels_joinLabels {ls : List (List Char)} (hne : ls ≠ []) (h : ∀ l ∈ ls, IsLabel l) :
    labels (joinLabels ls) = ls :=
  splitFrom_joinLabels hne h (Nat.le_refl _)

theorem addLabel_joinLabels {ls : List (List Char)} (hne : ls ≠ []) (h : ∀ l ∈ ls, IsLabel l)
    (l : List Char) :
    addLabel (joinLabels ls) l = joinLabels (if l ∈ ls then ls else ls ++ [l]) := by
  rw [addLabel, labels_joinLabels hne h]
  by_cases hl : l ∈ ls
  · rw [if_pos (by simpa using hl), if_pos hl]
  · rw [if_neg (by simpa using hl), if_neg hl, joinLabels_concat hne]
    rfl

/-- Labels are added to those that are there in the order in which they are first seen. -/
theorem foldl_addLabel {ls : List (List Char)} (hne : ls ≠ []) (h : ∀ l ∈ ls, IsLabel l)
    {ms : List (List Char)} (hms : ∀ m ∈ ms, IsLabel m) :
    ms.foldl addLabel (joinLabels ls.eraseDups) = joinLabels (ls ++ ms).eraseDups := by
  induction ms generalizing ls with
  | nil => rw [List.foldl_nil, List.append_nil]
  | cons m ms ih =>
    obtain ⟨hm, hms⟩ := List.forall_mem_cons.1 hms
    have hadd : addLabel (joinLabels ls.eraseDups) m = joinLabels (ls ++ [m]).eraseDups := by
      rw [addLabel_joinLabels (eraseDups_ne_nil hne) (fun l hl => h l (List.mem_eraseDups.1 hl)),
        eraseDups_concat]
      simp only [List.mem_eraseDups]
    have hall : ∀ l ∈ ls ++ [m], IsLabel l := by
      simpa [or_imp, forall_and] using ⟨h, hm⟩
    rw [List.foldl_cons, hadd, ih (by simp) hall hms, List.append_assoc, List.singleton_append]

/-- Whether a reason is a list of labels, which are all different. -/
structure ListsLabels (reason : String) (ls : List (List Char)) : Prop where
  nonempty : ls ≠ []
  distinct : ls.Nodup
  labels : ∀ l ∈ ls, IsLabel l
  joined : reason.toList = joinLabels ls

instance (reason : String) (ls : List (List Char)) : Decidable (ListsLabels reason ls) :=
  decidable_of_iff (ls ≠ [] ∧ ls.Nodup ∧ (∀ l ∈ ls, IsLabel l) ∧ reason.toList = joinLabels ls)
    ⟨fun ⟨hne, hnodup, hlabels, hjoined⟩ => ⟨hne, hnodup, hlabels, hjoined⟩,
      fun h => ⟨h.nonempty, h.distinct, h.labels, h.joined⟩⟩

/-- Merging two lists of labels lists the labels of both. -/
theorem ListsLabels.merge {a b : String} {ls ms : List (List Char)}
    (ha : ListsLabels a ls.eraseDups) (hb : ListsLabels b ms) :
    ListsLabels (mergeReasons a b) (ls ++ ms).eraseDups := by
  have hne : ls ≠ [] := fun hnil => ha.nonempty (by rw [hnil, List.eraseDups_nil])
  have hls : ∀ l ∈ ls, IsLabel l := fun l hl => ha.labels l (List.mem_eraseDups.2 hl)
  refine ⟨eraseDups_ne_nil (by simp [hne]), nodup_eraseDups _, fun l hl => ?_, ?_⟩
  · rcases List.mem_append.1 (List.mem_eraseDups.1 hl) with hl | hl
    · exact hls l hl
    · exact hb.labels l hl
  · rw [mergeReasons, String.toList_ofList, ha.joined, hb.joined,
      labels_joinLabels hb.nonempty hb.labels]
    exact foldl_addLabel hne hls hb.labels

end StaleDocs.Relevance
