/-
Where a text occurs in one that is put together from parts. An occurrence
reaches over no character that it lacks, so in lines it lies within one line
(`infix_unlines_iff`), and a text is cut at a separator where none can begin
before it (`breakAt?_of_first`).
-/
import StaleDocs.Proofs.Text.Written
import StaleDocs.Text.Search

namespace StaleDocs.Text

variable {needle sep x y cs : List Char} {c : Char}

theorem occursIn_iff_isInfix : occursIn needle cs = true ↔ needle <:+: cs :=
  occursIn_iff.trans ⟨fun ⟨a, b, h⟩ => ⟨a, b, h.symm⟩, fun ⟨a, b, h⟩ => ⟨a, b, h.symm⟩⟩

theorem prefix_append_cons_iff (h : c ∉ needle) : needle <+: x ++ c :: y ↔ needle <+: x := by
  refine ⟨fun hp => ?_, fun hp => hp.trans (List.prefix_append _ _)⟩
  rcases List.prefix_or_prefix_of_prefix hp (List.prefix_append x (c :: y)) with hx | ⟨t, rfl⟩
  · exact hx
  · rw [List.prefix_append_right_inj] at hp
    cases t with
    | nil => simp
    | cons d t =>
      obtain ⟨rfl, -⟩ := List.cons_prefix_cons.1 hp
      simp at h

/-- An occurrence lies on one side of a character that it lacks. -/
theorem infix_append_cons_iff (h : c ∉ needle) :
    needle <:+: x ++ c :: y ↔ needle <:+: x ∨ needle <:+: y := by
  induction x with
  | nil =>
    have hnil : needle <+: c :: y ↔ needle = [] := by
      simpa using prefix_append_cons_iff (x := []) (y := y) h
    rw [List.nil_append, List.infix_cons_iff, hnil, List.infix_nil]
  | cons d x ih =>
    rw [List.cons_append, List.infix_cons_iff, ih, List.infix_cons_iff, ← List.cons_append,
      prefix_append_cons_iff h, or_assoc]

/-- An occurrence reaches into no text that it shares no character with. -/
theorem infix_append_iff (hne : needle ≠ []) (h : ∀ c ∈ y, c ∉ needle) :
    needle <:+: x ++ y ↔ needle <:+: x := by
  refine ⟨fun hi => ?_, fun hi => hi.trans (List.prefix_append _ _).isInfix⟩
  cases y with
  | nil => simpa using hi
  | cons c y =>
    refine ((infix_append_cons_iff (h c (by simp))).1 hi).resolve_right fun hy => ?_
    obtain ⟨d, needle, rfl⟩ := List.exists_cons_of_ne_nil hne
    exact h d (List.mem_cons_of_mem _ (hy.subset (by simp))) (by simp)

theorem prefix_append_iff (h : ∀ c ∈ y, c ∉ needle) : needle <+: x ++ y ↔ needle <+: x := by
  cases y with
  | nil => simp
  | cons c y => exact prefix_append_cons_iff (h c (by simp))

/-- Lines have an occurrence of what has no line feed where one of them has it. -/
theorem infix_unlines_iff (hne : needle ≠ []) (h : '\n' ∉ needle) {ls : List (List Char)} :
    needle <:+: unlines ls ↔ ∃ l ∈ ls, needle <:+: l := by
  induction ls with
  | nil => simp [unlines, hne]
  | cons l ls ih =>
    have hcons : unlines (l :: ls) = l ++ '\n' :: unlines ls := by simp [unlines]
    rw [hcons, infix_append_cons_iff h, ih]
    simp

/-! ## Cutting at a separator -/

theorem breakAtFrom_eq (sep cs : List Char) : ∀ before,
    breakAtFrom sep before cs = (breakAt? sep cs).map fun cut => (before.reverse ++ cut.1, cut.2) := by
  induction cs with
  | nil =>
    intro before
    simp only [breakAt?, breakAtFrom]
    split <;> simp
  | cons c cs ih =>
    intro before
    simp only [breakAt?, breakAtFrom]
    split
    · simp
    · rw [ih, ih [c]]
      cases breakAt? sep cs <;> simp

theorem breakAt?_cons_of_starts {rest : List Char} (h : after? sep (c :: cs) = some rest) :
    breakAt? sep (c :: cs) = some ([], rest) := by
  simp only [breakAt?, breakAtFrom, h, List.reverse_nil]

theorem breakAt?_cons (h : ¬ sep <+: c :: cs) :
    breakAt? sep (c :: cs) = (breakAt? sep cs).map fun cut => (c :: cut.1, cut.2) := by
  have hafter : after? sep (c :: cs) = none := by
    rw [Option.eq_none_iff_forall_ne_some]
    exact fun rest hrest => h ⟨rest, (after?_eq_some_iff.1 hrest).symm⟩
  simp only [breakAt?, breakAtFrom, hafter]
  rw [breakAtFrom_eq]
  rfl

theorem breakAt?_eq_none (h : ¬ sep <:+: cs) : breakAt? sep cs = none := by
  induction cs with
  | nil =>
    rw [List.infix_nil] at h
    simp [breakAt?, breakAtFrom, h]
  | cons c cs ih =>
    rw [List.infix_cons_iff, not_or] at h
    rw [breakAt?_cons h.1, ih h.2, Option.map_none]

theorem eq_append_of_breakAt? {before rest : List Char} (h : breakAt? sep cs = some (before, rest)) :
    cs = before ++ (sep ++ rest) := by
  induction cs generalizing before with
  | nil =>
    simp only [breakAt?, breakAtFrom] at h
    split at h
    · next hsep =>
      cases h
      simp_all
    · cases h
  | cons c cs ih =>
    cases hafter : after? sep (c :: cs) with
    | some r =>
      rw [breakAt?_cons_of_starts hafter] at h
      obtain ⟨rfl, rfl⟩ := Prod.mk.inj (Option.some.inj h)
      rw [List.nil_append]
      exact after?_eq_some_iff.1 hafter
    | none =>
      have hp : ¬ sep <+: c :: cs := fun ⟨r, hr⟩ => by
        rw [after?_eq_some_iff.2 hr.symm] at hafter
        cases hafter
      rw [breakAt?_cons hp] at h
      obtain ⟨⟨b, r⟩, hcut, heq⟩ := Option.map_eq_some_iff.1 h
      cases heq
      rw [ih hcut, List.cons_append]

/-- Where a text is cut does not depend on what follows, if that shares no character with the
separator. -/
theorem breakAt?_append_of_disjoint (hne : sep ≠ []) (h : ∀ c ∈ y, c ∉ sep) :
    breakAt? sep (x ++ y) = (breakAt? sep x).map fun cut => (cut.1, cut.2 ++ y) := by
  induction x with
  | nil =>
    have hnil : ¬ sep <:+: [] := by simpa using hne
    have hy : ¬ sep <:+: y := fun hi => hnil ((infix_append_iff hne h).1 (by simpa using hi))
    rw [List.nil_append, breakAt?_eq_none hy, breakAt?_eq_none hnil, Option.map_none]
  | cons c x ih =>
    by_cases hp : sep <+: c :: x
    · obtain ⟨rest, hrest⟩ := hp
      have hx := breakAt?_cons_of_starts (after?_eq_some_iff.2 hrest.symm)
      have hxy : after? sep (c :: (x ++ y)) = some (rest ++ y) :=
        after?_eq_some_iff.2 (by rw [← List.append_assoc, hrest, List.cons_append])
      rw [hx, List.cons_append, breakAt?_cons_of_starts hxy, Option.map_some]
    · have hpy : ¬ sep <+: c :: (x ++ y) := by
        rwa [← List.cons_append, prefix_append_iff h]
      rw [List.cons_append, breakAt?_cons hpy, breakAt?_cons hp, ih, Option.map_map, Option.map_map]
      rfl

/-- A text is cut at a separator where no earlier one can begin, not even one that reaches into
it. -/
theorem breakAt?_of_first {before : List Char} (h : ¬ sep <:+: before ++ sep.dropLast)
    (rest : List Char) : breakAt? sep (before ++ (sep ++ rest)) = some (before, rest) := by
  induction before with
  | nil =>
    obtain ⟨d, sep, rfl⟩ : ∃ d sep', sep = d :: sep' :=
      List.exists_cons_of_ne_nil fun hnil => h (hnil ▸ List.nil_infix)
    exact breakAt?_cons_of_starts (after?_append (d :: sep) rest)
  | cons c before ih =>
    have hp : ¬ sep <+: c :: (before ++ (sep ++ rest)) := fun hp => by
      have hw : c :: before ++ sep.dropLast <+: c :: (before ++ (sep ++ rest)) := by
        rw [List.cons_append, List.prefix_cons_inj, List.prefix_append_right_inj]
        exact (List.dropLast_prefix sep).trans (List.prefix_append sep rest)
      have hlength : sep.length ≤ (c :: before ++ sep.dropLast).length := by
        rw [List.length_append, List.length_cons, List.length_dropLast]
        omega
      exact h (List.prefix_of_prefix_length_le hp hw hlength).isInfix
    have hbefore : ¬ sep <:+: before ++ sep.dropLast := fun hi =>
      h (hi.trans (List.suffix_cons c _).isInfix)
    rw [List.cons_append, breakAt?_cons hp, ih hbefore]
    rfl

/-- A text is cut at a separator that does not occur before, and whose characters differ from the
last one before. -/
theorem breakAt?_of_free {before : List Char} (hfree : ¬ sep <:+: before)
    (hlast : ∀ d ∈ before.getLast?, d ∉ sep) (rest : List Char) :
    breakAt? sep (before ++ (sep ++ rest)) = some (before, rest) := by
  have hne : sep ≠ [] := fun hnil => hfree (hnil ▸ List.nil_infix)
  have hshort : ¬ sep <:+: sep.dropLast := fun hi => by
    have hle := hi.length_le
    have hpos := List.length_pos_iff.2 hne
    rw [List.length_dropLast] at hle
    omega
  refine breakAt?_of_first (fun hi => ?_) rest
  rcases List.eq_nil_or_concat before with rfl | ⟨init, d, rfl⟩
  · exact hshort hi
  · rw [List.concat_eq_append] at hfree hlast hi
    rw [List.append_assoc, List.singleton_append, infix_append_cons_iff (hlast d (by simp))] at hi
    rcases hi with hi | hi
    · exact hfree (hi.trans (List.prefix_append _ _).isInfix)
    · exact hshort hi

end StaleDocs.Text
