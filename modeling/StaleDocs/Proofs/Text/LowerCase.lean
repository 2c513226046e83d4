/-
Lower case of a part of a text. The letter that depends on its neighbours is
the capital sigma, so a part comes to the lower case that it has by itself
exactly if each of its capital sigmas ends a word in both places or in neither
(`lowerWithin_eq_iff`). This is so where no letter stands next to the part on
either side (`keepsSigmas_of_apart`).
-/
import Mathlib
import StaleDocs.Text.Case
import StaleDocs.Text.Search

namespace StaleDocs.Text

/-- Whether a capital sigma ends a word where it stands between two texts, the one before it last
character first. -/
def endsWord (before rest : List Char) : Bool := startsCased before && !startsCased rest

/-- The lower case of a part of a text between what stands before it, last character first, and
what stands after it. -/
def lowerWithin : (before part after : List Char) → List Char
  | _, [], _ => []
  | before, c :: cs, after => lowerBetween before c (cs ++ after) ++ lowerWithin (c :: before) cs after

theorem lowerFrom_eq (before out cs : List Char) :
    lowerFrom before out cs = out.reverse ++ lowerWithin before cs [] := by
  induction cs generalizing before out with
  | nil => simp [lowerFrom, lowerWithin]
  | cons c cs ih => simp [lowerFrom, lowerWithin, ih]

theorem lowerWithin_of_no_sigma {cs : List Char} (h : 'Σ' ∉ cs) (before after : List Char) :
    lowerWithin before cs after = cs.flatMap lowerChar := by
  induction cs generalizing before with
  | nil => rfl
  | cons c cs ih =>
    rw [List.mem_cons, not_or] at h
    rw [lowerWithin, ih h.2, lowerBetween, if_neg (Ne.symm h.1), List.flatMap_cons]

theorem lower_eq (cs : List Char) : lower cs = lowerWithin [] cs [] := by
  rw [lower]
  split
  · exact lowerFrom_eq [] [] cs
  · next h => exact (lowerWithin_of_no_sigma (by simpa using h) [] []).symm

theorem lowerWithin_append (before as bs after : List Char) :
    lowerWithin before (as ++ bs) after =
      lowerWithin before as (bs ++ after) ++ lowerWithin (as.reverse ++ before) bs after := by
  induction as generalizing before with
  | nil => rfl
  | cons a as ih => simp [lowerWithin, ih]

/-- The lower case of a text, part by part. -/
theorem lower_append (before part after : List Char) :
    lower (before ++ part ++ after) =
      lowerWithin [] before (part ++ after) ++ lowerWithin before.reverse part after ++
        lowerWithin (part.reverse ++ before.reverse) after [] := by
  rw [lower_eq, lowerWithin_append, lowerWithin_append]
  simp

/-! ## Capital sigmas -/

theorem lowerBetween_eq_iff {before before' rest rest' : List Char} {c : Char} :
    lowerBetween before c rest = lowerBetween before' c rest' ↔
      (c = 'Σ' → endsWord before rest = endsWord before' rest') := by
  unfold lowerBetween endsWord
  by_cases hc : c = 'Σ'
  · simp only [hc, if_true, true_imp_iff]
    cases startsCased before && !startsCased rest <;>
      cases startsCased before' && !startsCased rest' <;> simp
  · simp [hc]

theorem length_lowerBetween (before before' rest rest' : List Char) (c : Char) :
    (lowerBetween before c rest).length = (lowerBetween before' c rest').length := by
  unfold lowerBetween
  split
  · split <;> split <;> rfl
  · rfl

/-- Two places give a part the same lower case exactly if they agree about each of its capital
sigmas. -/
theorem lowerWithin_congr_iff {before before' after after' cs : List Char} :
    lowerWithin before cs after = lowerWithin before' cs after' ↔
      ∀ p q, cs = p ++ 'Σ' :: q →
        endsWord (p.reverse ++ before) (q ++ after) =
          endsWord (p.reverse ++ before') (q ++ after') := by
  induction cs generalizing before before' with
  | nil => simp [lowerWithin]
  | cons c cs ih =>
    have hsplit : lowerWithin before (c :: cs) after = lowerWithin before' (c :: cs) after' ↔
        lowerBetween before c (cs ++ after) = lowerBetween before' c (cs ++ after') ∧
        lowerWithin (c :: before) cs after = lowerWithin (c :: before') cs after' :=
      ⟨fun h => List.append_inj h (length_lowerBetween ..), fun ⟨hc, hcs⟩ => by
        rw [lowerWithin, lowerWithin, hc, hcs]⟩
    rw [hsplit, lowerBetween_eq_iff, ih]
    constructor
    · rintro ⟨hc, hcs⟩ p q hpq
      cases p with
      | nil =>
        obtain ⟨rfl, rfl⟩ := List.cons.inj hpq
        exact hc rfl
      | cons p ps =>
        obtain ⟨rfl, rfl⟩ := List.cons.inj hpq
        simpa using hcs ps q rfl
    · intro h
      refine ⟨fun hc => h [] cs (by rw [hc]; rfl), fun p q hpq => ?_⟩
      simpa using h (c :: p) q (by rw [hpq]; rfl)

/-- Whether each capital sigma of a part ends a word where the part stands exactly if it does in
the part by itself. -/
def KeepsSigmas (before part after : List Char) : Prop :=
  ∀ p q, part = p ++ 'Σ' :: q →
    endsWord (before ++ p).reverse (q ++ after) = endsWord p.reverse q

theorem lowerWithin_eq_iff {before part after : List Char} :
    lowerWithin before.reverse part after = lower part ↔ KeepsSigmas before part after := by
  rw [lower_eq, lowerWithin_congr_iff]
  simp [KeepsSigmas]

theorem keepsSigmas_of_not_mem {part : List Char} (h : 'Σ' ∉ part) (before after : List Char) :
    KeepsSigmas before part after := by
  rintro p q rfl
  simp at h

/-- A text whose part keeps its sigmas has the lower case of the part in its own. -/
theorem occursIn_lower {before part after : List Char} (h : KeepsSigmas before part after) :
    occursIn (lower part) (lower (before ++ part ++ after)) = true := by
  rw [lower_append, lowerWithin_eq_iff.2 h]
  exact occursIn_iff.2 ⟨_, _, rfl⟩

/-! ## Texts without capital sigmas -/

/-- Without capital sigmas each character has its own lower case. -/
theorem lower_of_no_sigma {cs : List Char} (h : 'Σ' ∉ cs) : lower cs = cs.flatMap lowerChar := by
  rw [lower_eq, lowerWithin_of_no_sigma h]

theorem lower_append_of_no_sigma {as bs : List Char} (ha : 'Σ' ∉ as) (hb : 'Σ' ∉ bs) :
    lower (as ++ bs) = lower as ++ lower bs := by
  have hab : 'Σ' ∉ as ++ bs := by simp [ha, hb]
  rw [lower_of_no_sigma hab, lower_of_no_sigma ha, lower_of_no_sigma hb, List.flatMap_append]

/-- A part without capital sigmas has the lower case in its place that it has by itself. -/
theorem lower_infix_of_no_sigma {part cs : List Char} (hsigma : 'Σ' ∉ part) (h : part <:+: cs) :
    lower part <:+: lower cs := by
  obtain ⟨before, after, rfl⟩ := h
  rw [lower_append, lowerWithin_eq_iff.2 (keepsSigmas_of_not_mem hsigma before after)]
  exact ⟨_, _, rfl⟩

theorem lowerChar_ne_nil (c : Char) : lowerChar c ≠ [] := by
  unfold lowerChar
  split
  · simp
  split
  · simp
  split
  · split <;> simp
  · simp

theorem lower_ne_nil {cs : List Char} (h : cs ≠ []) : lower cs ≠ [] := by
  obtain ⟨c, cs, rfl⟩ := List.exists_cons_of_ne_nil h
  have hc : lowerBetween [] c (cs ++ []) ≠ [] := by
    unfold lowerBetween
    split
    · split <;> simp
    · exact lowerChar_ne_nil c
  rw [lower_eq, lowerWithin]
  exact fun hnil => hc (List.append_eq_nil_iff.1 hnil).1

/-! ## Parts that stand apart -/

theorem startsCased_append (as bs : List Char) :
    startsCased (as ++ bs) = if as.all isCaseIgnorable then startsCased bs else startsCased as := by
  induction as with
  | nil => rfl
  | cons a as ih => by_cases ha : isCaseIgnorable a <;> simp_all [startsCased]

theorem startsCased_append_of_uncased (as : List Char) {bs : List Char}
    (h : startsCased bs = false) : startsCased (as ++ bs) = startsCased as := by
  rw [startsCased_append, h]
  split
  · next hall =>
    have hnil := startsCased_append as []
    rw [List.append_nil, if_pos hall] at hnil
    exact hnil.symm
  · rfl

/-- A part with no letter next to it on either side keeps its sigmas. -/
theorem keepsSigmas_of_apart {before after : List Char}
    (hbefore : startsCased before.reverse = false) (hafter : startsCased after = false)
    (part : List Char) : KeepsSigmas before part after := by
  intro p q _
  rw [endsWord, endsWord, List.reverse_append, startsCased_append_of_uncased _ hbefore,
    startsCased_append_of_uncased _ hafter]

theorem flatMap_lowerChar_spacing {tail : List Char} (h : ∀ c ∈ tail, c = '\n' ∨ c = ' ') :
    tail.flatMap lowerChar = tail := by
  induction tail with
  | nil => rfl
  | cons c tail ih =>
    have hc : lowerChar c = [c] := by rcases h c (by simp) with rfl | rfl <;> rfl
    rw [List.flatMap_cons, hc, ih fun d hd => h d (by simp [hd])]
    rfl

/-- A text of blanks and line feeds stays apart from what it stands behind. -/
theorem lower_append_spacing {tail : List Char} (h : ∀ c ∈ tail, c = '\n' ∨ c = ' ')
    (cs : List Char) : lower (cs ++ tail) = lower cs ++ tail := by
  have hstarts : startsCased tail = false := by
    cases tail with
    | nil => rfl
    | cons c tail =>
      rcases h c (by simp) with rfl | rfl <;> rfl
  have hsigma : 'Σ' ∉ tail := fun hmem => by
    rcases h 'Σ' hmem with heq | heq <;> exact absurd heq (by decide)
  have hcs : lowerWithin ([] : List Char).reverse cs tail = lower cs :=
    lowerWithin_eq_iff.2 (keepsSigmas_of_apart rfl hstarts cs)
  have happend := lower_append [] cs tail
  rw [List.nil_append] at happend
  rw [happend, hcs, lowerWithin_of_no_sigma hsigma, flatMap_lowerChar_spacing h]
  rfl

theorem toNat_ofNat_cases (n : Nat) : (Char.ofNat n).toNat = n ∨ (Char.ofNat n).toNat = 0 := by
  unfold Char.ofNat
  split
  · exact .inl rfl
  · exact .inr rfl

theorem distance_lowerRuns : ∀ run ∈ lowerRuns, (33 : Int) ≤ run.first + run.distance := by
  decide +kernel

theorem eq_of_eq_toLower {c d : Char} (hc : c = '\n' ∨ c = ' ') (hd : d.toNat < 128)
    (h : c = d.toLower) : c = d := by
  have hall : ∀ n < 128, ('\n' = (Char.ofNat n).toLower → '\n' = Char.ofNat n) ∧
      (' ' = (Char.ofNat n).toLower → ' ' = Char.ofNat n) := by decide +kernel
  have hn := hall d.toNat hd
  rw [Char.ofNat_toNat] at hn
  rcases hc with rfl | rfl
  · exact hn.1 h
  · exact hn.2 h

/-- No other character has a blank or a line feed for its lower case. -/
theorem eq_of_mem_lowerChar {c d : Char} (hc : c = '\n' ∨ c = ' ') (h : c ∈ lowerChar d) : c = d := by
  have hsmall : 0 < c.toNat ∧ c.toNat < 33 := by rcases hc with rfl | rfl <;> decide
  unfold lowerChar at h
  split at h
  · next hd => exact eq_of_eq_toLower hc hd (List.mem_singleton.1 h)
  · split at h
    · rcases hc with rfl | rfl <;> exact absurd h (by decide)
    · split at h
      · next run hrun =>
        split at h
        · have hfirst := List.find?_some hrun
          have hdistance := distance_lowerRuns run (List.mem_of_find?_eq_some hrun)
          simp only [Bool.and_eq_true, decide_eq_true_eq] at hfirst
          have hval := congrArg Char.toNat (List.mem_singleton.1 h)
          rcases toNat_ofNat_cases (d.toNat + run.distance).toNat with heq | heq <;>
            rw [heq] at hval <;> omega
        · exact List.mem_singleton.1 h
      · exact List.mem_singleton.1 h

theorem mem_of_mem_lower {c : Char} (hc : c = '\n' ∨ c = ' ') {cs : List Char}
    (h : c ∈ lower cs) : c ∈ cs := by
  have hwithin : ∀ before, c ∈ lowerWithin before cs [] → c ∈ cs := by
    clear h
    induction cs with
    | nil => exact fun _ h => h
    | cons d cs ih =>
      intro before h
      rcases List.mem_append.1 h with h | h
      · unfold lowerBetween at h
        split at h
        · rcases hc with rfl | rfl <;> split at h <;> exact absurd h (by decide)
        · exact List.mem_cons.2 (.inl (eq_of_mem_lowerChar hc h))
      · exact List.mem_cons_of_mem d (ih _ h)
  exact hwithin [] (lower_eq cs ▸ h)

end StaleDocs.Text
