/-
How lexemes end. A line feed ends no lexeme that matters (`scan_unbroken`): numbers and names have
no line feed in them, and what stands in quotes ends with one.
-/
import StaleDocs.Proofs.Go.Placement

namespace StaleDocs.Go

/-- Whether characters do not end with a line feed. -/
def Unbroken (cs : List Char) : Prop := cs.getLast? ≠ some '\n'

theorem Unbroken.append {as bs : List Char} (ha : Unbroken as) (hb : Unbroken bs) :
    Unbroken (as ++ bs) := by
  intro h
  rw [List.getLast?_append] at h
  cases hlast : bs.getLast? with
  | none => exact ha (by rwa [hlast] at h)
  | some c => exact hb (by rwa [hlast] at h ⊢)

theorem unbroken_nil : Unbroken [] := nofun

theorem unbroken_concat (cs : List Char) {c : Char} (hc : c ≠ '\n') : Unbroken (cs ++ [c]) := by
  rw [Unbroken, List.getLast?_concat]
  exact fun h => hc (Option.some.inj h)

theorem unbroken_of_not_mem {cs : List Char} (h : '\n' ∉ cs) : Unbroken cs := fun hlast =>
  h (List.mem_of_getLast? hlast)

/-! ## Numbers -/

/-- Whether a form takes characters that do not end with a line feed. -/
def Extent.Unbroken (e : Extent) : Prop :=
  ∀ cs n, e cs = some n → Go.Unbroken (cs.take n)

theorem Extent.Unbroken.andThen {a b : Extent} (ha : a.Unbroken) (hb : b.Unbroken) :
    (a.andThen b).Unbroken := by
  intro cs n h
  obtain ⟨k, hk, h⟩ := Option.bind_eq_some_iff.1 h
  obtain ⟨m, hm, h⟩ := Option.bind_eq_some_iff.1 h
  cases h
  rw [List.take_add]
  exact (ha _ _ hk).append (hb _ _ hm)

theorem Extent.Unbroken.optional {a : Extent} (ha : a.Unbroken) : a.optional.Unbroken := by
  intro cs n h
  cases h
  cases hn : a cs with
  | none => exact unbroken_nil
  | some n => exact ha _ _ hn

theorem Extent.unbroken_longest {forms : List Extent} (h : forms.Forall Extent.Unbroken) :
    (Extent.longest forms).Unbroken := by
  intro cs n hn
  obtain ⟨form, hform, hn⟩ := List.mem_filterMap.1 (List.max?_mem hn)
  exact List.forall_iff_forall_mem.1 h form hform _ _ hn

theorem ne_of_class {p : Char → Bool} (hp : p '\n' = false) {c : Char} (hc : p c = true) :
    c ≠ '\n' := by
  rintro rfl
  rw [hp] at hc
  cases hc

theorem Extent.unbroken_oneOf {p : Char → Bool} (hp : p '\n' = false) :
    (Extent.oneOf p).Unbroken := by
  intro cs n h
  cases cs with
  | nil => cases h
  | cons c cs =>
    obtain ⟨hc, h⟩ := Option.ite_none_right_eq_some.1 h
    cases h
    exact unbroken_concat [] (ne_of_class hp hc)

theorem unbroken_moreDigits {p : Char → Bool} (hp : p '\n' = false) (cs : List Char) :
    Unbroken (cs.take (moreDigits p cs)) := by
  fun_induction moreDigits p cs with
  | case1 => exact unbroken_nil
  | case2 c cs hc ih => exact (unbroken_concat ['_'] (ne_of_class hp hc)).append ih
  | case3 => exact unbroken_nil
  | case4 c cs _ hc ih => exact (unbroken_concat [] (ne_of_class hp hc)).append ih
  | case5 => exact unbroken_nil

theorem unbroken_digits {p : Char → Bool} (hp : p '\n' = false) : (digits p).Unbroken := by
  intro cs n h
  cases cs with
  | nil => cases h
  | cons c cs =>
    obtain ⟨hc, h⟩ := Option.ite_none_right_eq_some.1 h
    cases h
    exact (unbroken_concat [] (ne_of_class hp hc)).append (unbroken_moreDigits hp cs)

theorem unbroken_underscore : underscore.Unbroken :=
  (Extent.unbroken_oneOf (by decide)).optional

theorem unbroken_decimals : decimals.Unbroken := unbroken_digits (by decide)

theorem unbroken_point : point.Unbroken := Extent.unbroken_oneOf (by decide)

theorem unbroken_hexDigits : (digits isHex).Unbroken := unbroken_digits (by decide)

theorem unbroken_letter {lower : Char} (h : lower ≠ '\n') : (Extent.letter lower).Unbroken :=
  Extent.unbroken_oneOf (decide_eq_false (Ne.symm h))

theorem unbroken_exponent {mark : Char} (h : mark ≠ '\n') : (exponent mark).Unbroken :=
  have hsign : (Extent.oneOf fun c => c = '+' || c = '-').Unbroken :=
    Extent.unbroken_oneOf (by decide)
  (unbroken_letter h).andThen (hsign.optional.andThen unbroken_decimals)

theorem unbroken_based {base : Char} (hbase : base ≠ '\n') {p : Char → Bool} (hp : p '\n' = false) :
    (based base p).Unbroken :=
  (Extent.unbroken_oneOf (by decide)).andThen
    ((unbroken_letter hbase).andThen (unbroken_underscore.andThen (unbroken_digits hp)))

theorem unbroken_octal : octal.Unbroken :=
  (Extent.unbroken_oneOf (by decide)).andThen
    ((unbroken_letter (by decide)).optional.andThen
      (unbroken_underscore.andThen (unbroken_digits (by decide))))

theorem unbroken_plainInteger : plainInteger.Unbroken := by
  refine Extent.unbroken_longest ⟨Extent.unbroken_oneOf (by decide), ?_⟩
  exact (Extent.unbroken_oneOf (by decide)).andThen
    (unbroken_underscore.andThen unbroken_decimals).optional

theorem unbroken_integer : integer.Unbroken :=
  Extent.unbroken_longest ⟨unbroken_based (by decide) (by decide), unbroken_plainInteger,
    unbroken_octal, unbroken_based (by decide) (by decide)⟩

theorem unbroken_decimalFloat : decimalFloat.Unbroken := by
  have hexponent : (exponent 'e').Unbroken := unbroken_exponent (by decide)
  refine Extent.unbroken_longest ⟨?_, unbroken_decimals.andThen hexponent, ?_⟩
  · exact unbroken_decimals.andThen
      (unbroken_point.andThen (unbroken_decimals.optional.andThen hexponent.optional))
  · exact unbroken_point.andThen (unbroken_decimals.andThen hexponent.optional)

theorem unbroken_hexFloat : hexFloat.Unbroken := by
  have hfraction : (underscore.andThen
      ((digits isHex).andThen (point.andThen (digits isHex).optional))).Unbroken :=
    unbroken_underscore.andThen
      (unbroken_hexDigits.andThen (unbroken_point.andThen unbroken_hexDigits.optional))
  refine (Extent.unbroken_oneOf (by decide)).andThen ((unbroken_letter (by decide)).andThen
    (Extent.Unbroken.andThen (Extent.unbroken_longest ?_) (unbroken_exponent (by decide))))
  exact ⟨hfraction, unbroken_underscore.andThen unbroken_hexDigits,
    unbroken_point.andThen unbroken_hexDigits⟩

theorem unbroken_number : number.Unbroken := by
  have hparts : Extent.Unbroken (.longest [decimals, integer, decimalFloat, hexFloat]) :=
    Extent.unbroken_longest
      ⟨unbroken_decimals, unbroken_integer, unbroken_decimalFloat, unbroken_hexFloat⟩
  have himaginary : imaginary.Unbroken := hparts.andThen (Extent.unbroken_oneOf (by decide))
  exact Extent.unbroken_longest
    ⟨unbroken_integer, unbroken_decimalFloat, unbroken_hexFloat, himaginary⟩

/-! ## Quotes -/

/-- A string in double quotes ends with one. -/
theorem interpretedFrom_eq_some {fuel : Nat} : ∀ {n m : Nat} {cs : List Char},
    interpretedFrom n fuel cs = some m →
    ∃ body rest, cs = body ++ '"' :: rest ∧ m = n + body.length + 1 := by
  induction fuel with
  | zero => intro n m cs h; cases h
  | succ fuel ih =>
    intro n m cs h
    cases cs with
    | nil => cases h
    | cons c cs =>
      simp only [interpretedFrom] at h
      split at h
      · next hc =>
        cases h
        exact ⟨[], cs, by rw [hc]; rfl, rfl⟩
      · split at h
        · cases h
        · split at h
          · split at h
            · next k _ =>
              obtain ⟨body, rest, hdrop, rfl⟩ := ih h
              -- The text goes on behind the escape, so all of it is there.
              have hk : k ≤ cs.length := by
                have hlength := congrArg List.length hdrop
                simp only [List.length_drop, List.length_append, List.length_cons] at hlength
                omega
              refine ⟨c :: (cs.take k ++ body), rest, ?_, ?_⟩
              · rw [List.cons_append, List.append_assoc, ← hdrop, List.take_append_drop]
              · simp only [List.length_cons, List.length_append, List.length_take,
                  Nat.min_eq_left hk]
                omega
            · cases h
          · obtain ⟨body, rest, rfl, rfl⟩ := ih h
            exact ⟨c :: body, rest, rfl, by simp only [List.length_cons]; omega⟩

theorem rawFrom_eq_some {cs : List Char} : ∀ {n m : Nat}, rawFrom n cs = some m →
    ∃ body rest, cs = body ++ '\x60' :: rest ∧ m = n + body.length + 1 := by
  induction cs with
  | nil => intro n m h; cases h
  | cons c cs ih =>
    intro n m h
    simp only [rawFrom] at h
    split at h
    · next hc =>
      cases h
      exact ⟨[], cs, by rw [hc]; rfl, rfl⟩
    · obtain ⟨body, rest, rfl, rfl⟩ := ih h
      exact ⟨c :: body, rest, rfl, by simp only [List.length_cons]; omega⟩

/-- What is taken up to a closing quote ends with it. -/
theorem unbroken_quoted {opening quote : Char} (hquote : quote ≠ '\n') (body rest : List Char) :
    Unbroken ((opening :: (body ++ quote :: rest)).take (1 + body.length + 1)) := by
  have htake : (opening :: (body ++ quote :: rest)).take (1 + body.length + 1) =
      opening :: body ++ [quote] := by
    rw [List.append_cons, ← List.cons_append, ← List.cons_append]
    exact List.take_left' (by simp; omega)
  rw [htake]
  exact unbroken_concat _ hquote

theorem unbroken_string : Extent.Unbroken string := by
  intro cs n h
  unfold string at h
  split at h
  · obtain ⟨body, rest, rfl, rfl⟩ := interpretedFrom_eq_some h
    exact unbroken_quoted (by decide) body rest
  · obtain ⟨body, rest, rfl, rfl⟩ := rawFrom_eq_some h
    exact unbroken_quoted (by decide) body rest
  · cases h

theorem unbroken_rune : Extent.Unbroken rune := by
  intro cs n h
  unfold rune at h
  split at h
  · next cs =>
    obtain ⟨k, -, h⟩ := Option.bind_eq_some_iff.1 h
    obtain ⟨hquote, h⟩ := Option.ite_none_right_eq_some.1 h
    cases h
    rw [List.take_succ_cons, List.take_succ_cons, List.take_add_one, hquote]
    exact unbroken_concat ('\'' :: '\\' :: cs.take k) (by decide)
  · next c _ _ =>
    obtain ⟨-, h⟩ := Option.ite_none_left_eq_some.1 h
    cases h
    exact unbroken_concat ['\'', c] (by decide)
  · cases h

/-! ## Lexemes -/

/-- Whether a lexeme does not end with a line feed, unless it is a space. -/
def Lexeme.Unbroken (l : Lexeme) : Prop := l.isSpace = false → Go.Unbroken l.text.toList

theorem unbroken_name {c : Char} (hc : startsName c = true) (cs : List Char) :
    Unbroken (c :: cs.takeWhile continuesName) := by
  refine unbroken_of_not_mem fun hmem => ?_
  rcases List.mem_cons.1 hmem with rfl | hmem
  · exact absurd hc (by decide)
  · exact absurd (List.mem_takeWhile_imp hmem) (by decide)

theorem unbroken_of_take {c : Char} {cs : List Char} (hc : c ≠ '\n') {n : Nat}
    (h : Unbroken ((c :: cs).take n)) : Unbroken (c :: cs.take (n - 1)) := by
  cases n with
  | zero => exact unbroken_concat [] hc
  | succ n => exact h

theorem lexemeAt_unbroken (c : Char) (cs : List Char) :
    Lexeme.Unbroken
      ⟨(lexemeAt c cs).1, String.ofList (c :: cs.take ((lexemeAt c cs).2 - 1))⟩ := by
  intro hspace
  rw [String.toList_ofList]
  unfold lexemeAt at hspace ⊢
  split at hspace
  · cases hspace
  · next hc =>
    rw [if_neg hc]
    split at hspace
    · cases hspace
    · next hblank =>
      rw [if_neg hblank]
      split at hspace
      · next hname =>
        rw [if_pos hname]
        have htake : cs.take (cs.takeWhile continuesName).length = cs.takeWhile continuesName :=
          (List.prefix_iff_eq_take.1 (List.takeWhile_prefix _)).symm
        dsimp only
        rw [Nat.add_sub_cancel_left, htake]
        exact unbroken_name hname cs
      · next hname =>
        rw [if_neg hname]
        refine unbroken_of_take hc ?_
        split at hspace
        · cases hspace
        · split at hspace
          · next n hn => exact unbroken_string _ _ hn
          · split at hspace
            · next n hn =>
              have hliteral : Extent.Unbroken (.longest [number, rune]) :=
                Extent.unbroken_longest ⟨unbroken_number, unbroken_rune⟩
              exact hliteral _ _ hn
            · exact unbroken_concat [] hc

theorem scanFrom_all {P : Lexeme → Prop}
    (hP : ∀ c cs, P ⟨(lexemeAt c cs).1, String.ofList (c :: cs.take ((lexemeAt c cs).2 - 1))⟩)
    {fuel : Nat} : ∀ {out : List Lexeme} {cs : List Char}, (∀ l ∈ out, P l) →
      ∀ l ∈ scanFrom out fuel cs, P l := by
  induction fuel with
  | zero => intro out cs hout l hl; exact hout l (List.mem_reverse.1 hl)
  | succ fuel ih =>
    intro out cs hout
    cases cs with
    | nil => exact fun l hl => hout l (List.mem_reverse.1 hl)
    | cons c cs => exact ih (List.forall_mem_cons.2 ⟨hP c cs, hout⟩)

/-- **No lexeme of a source ends with a line feed**, but for spaces. -/
theorem scan_unbroken (source : String) : ∀ l ∈ scan source, l.Unbroken := by
  unfold scan
  split
  · exact scanFrom_all lexemeAt_unbroken (List.forall_mem_singleton.2 nofun)
  · exact scanFrom_all lexemeAt_unbroken (List.forall_mem_nil _)

end StaleDocs.Go
