/-
What readers leave of their inputs. Blanks, comments and line ends are passed over only on the way
to a lexeme that matters, so what is read ends with such a lexeme (`Ends`), and what is left is an
end of the input: here for single lexemes and for lists of phrases.
-/
import Mathlib.Data.List.Infix
import StaleDocs.Go.Phrase

namespace StaleDocs.Go

/-- Whether what stands from `s` up to `t` ends with a lexeme that is no space. -/
def Ends (s t : Input) : Prop := ∃ front l, s = front ++ l :: t ∧ l.isSpace = false

/-- Whether the rules end what they read with lexemes that are no spaces. -/
def Rules.End (rules : Rules) : Prop :=
  ∀ {p : Phrase} {s : Input} {form : Form} {t : Input}, rules p s = some (form, t) → Ends s t

variable {s t u v : Input} {l : Lexeme} {c : Char} {word : String} {ends : Bool}

theorem Ends.suffix (h : Ends s t) : t <:+ s := by
  obtain ⟨front, l, rfl, -⟩ := h
  exact (List.suffix_cons l t).trans (List.suffix_append front _)

theorem Ends.of_suffix (h : Ends u t) (hu : u <:+ s) : Ends s t := by
  obtain ⟨front, l, rfl, hl⟩ := h
  obtain ⟨before, rfl⟩ := hu
  exact ⟨before ++ front, l, by rw [List.append_assoc], hl⟩

theorem Ends.trans (h : Ends s u) (h' : Ends u t) : Ends s t := h'.of_suffix h.suffix

theorem ends_cons (hl : l.isSpace = false) : Ends (l :: t) t := ⟨[], l, rfl, hl⟩

/-- With an optional phrase after it. -/
theorem Ends.getD {o : Option Input} (hu : Ends s u) (ho : ∀ {v}, o = some v → Ends u v) :
    Ends s (o.getD u) := by
  cases o with
  | none => exact hu
  | some v => exact hu.trans (ho rfl)

/-! ## Inputs -/

theorem suffix_of_cons (h : l :: t <:+ s) : t <:+ s := (List.suffix_cons l t).trans h

theorem suffix_of_skip (h : t <:+ skip s) : t <:+ s := h.trans (List.dropWhile_suffix _)

theorem suffix_of_skipInline (h : t <:+ skipInline s) : t <:+ s :=
  h.trans (List.dropWhile_suffix _)

theorem suffix_of_look (h : t <:+ look ends s) : t <:+ s := by
  cases ends with
  | true => exact suffix_of_skipInline h
  | false => exact suffix_of_skip h

theorem Ends.of_skip (h : Ends (skip s) t) : Ends s t := h.of_suffix (List.dropWhile_suffix _)

theorem Ends.of_skipInline (h : Ends (skipInline s) t) : Ends s t :=
  h.of_suffix (List.dropWhile_suffix _)

theorem Ends.of_look (h : Ends (look ends s) t) : Ends s t :=
  h.of_suffix (suffix_of_look (List.suffix_refl _))

theorem skip_ends (h : skip s = l :: t) : Ends s t := by
  have hl : l.isSpace = false := by
    have hhead := List.head?_dropWhile_not Lexeme.isSpace s
    rw [← skip, h] at hhead
    simpa using hhead
  exact Ends.of_skip (h ▸ ends_cons hl)

theorem atMark_ends (h : atMark c s = some t) : Ends s t := by
  cases s with
  | nil => cases h
  | cons l s =>
    obtain ⟨hkind, h⟩ := Option.ite_none_right_eq_some.1 h
    cases h
    exact ends_cons (by simp [Lexeme.isSpace, Lexeme.isInline, hkind])

theorem atMarks_suffix {cs : List Char} (h : atMarks cs s = some t) : t <:+ s := by
  induction cs generalizing s with
  | nil =>
    cases h
    exact List.suffix_refl _
  | cons c cs ih =>
    obtain ⟨u, hu, h⟩ := Option.bind_eq_some_iff.1 h
    exact (ih h).trans (atMark_ends hu).suffix

theorem atMarks_ends {cs : List Char} (hcs : cs ≠ []) (h : atMarks cs s = some t) : Ends s t := by
  induction cs generalizing s with
  | nil => exact absurd rfl hcs
  | cons c cs ih =>
    obtain ⟨u, hu, h⟩ := Option.bind_eq_some_iff.1 h
    cases cs with
    | nil =>
      cases h
      exact atMark_ends hu
    | cons d cs => exact (atMark_ends hu).trans (ih (List.cons_ne_nil d cs) h)

theorem mark_ends (h : mark c s = some t) : Ends s t := (atMark_ends h).of_skip

theorem mark_suffix (h : mark c s = some t) : t <:+ s := (mark_ends h).suffix

theorem atKeyword_ends (h : atKeyword word s = some t) : Ends s t := by
  cases s with
  | nil => cases h
  | cons l s =>
    obtain ⟨hword, h⟩ := Option.ite_none_right_eq_some.1 h
    cases h
    have hkind : l.kind = .keyword := by
      rw [Bool.and_eq_true, decide_eq_true_iff] at hword
      exact hword.1
    exact ends_cons (by simp [Lexeme.isSpace, Lexeme.isInline, hkind])

theorem atName_eq_some (h : atName s = some (word, t)) : s = ⟨.name, word⟩ :: t := by
  cases s with
  | nil => cases h
  | cons l s =>
    obtain ⟨hkind, h⟩ := Option.ite_none_right_eq_some.1 h
    obtain ⟨kind, text⟩ := l
    cases hkind
    cases h
    rfl

theorem atName_ends (h : atName s = some (word, t)) : Ends s t :=
  atName_eq_some h ▸ ends_cons rfl

theorem name_ends (h : name s = some (word, t)) : Ends s t := (atName_ends h).of_skip

theorem atString_ends (h : atString s = some t) : Ends s t := by
  cases s with
  | nil => cases h
  | cons l s =>
    obtain ⟨hkind, h⟩ := Option.ite_none_right_eq_some.1 h
    cases h
    exact ends_cons (by simp [Lexeme.isSpace, Lexeme.isInline, hkind])

theorem terminator_suffix (h : terminator s = some t) : t <:+ s := by
  unfold terminator at h
  split at h
  · next l rest hskip =>
    obtain ⟨-, h⟩ := Option.ite_none_right_eq_some.1 h
    cases h
    exact suffix_of_skipInline (hskip ▸ List.suffix_cons l _)
  · cases h

/-! ## Lists of phrases -/

section
variable {sep item : Rule} {close : Char} {strict : Bool} {fuel : Nat}
  (hitem : ∀ {s t}, item s = some t → Ends s t)
include hitem

theorem separated_ends (hsep : ∀ {s t}, sep s = some t → Ends s t)
    (h : separated sep item fuel s = some t) : Ends s t := by
  induction fuel generalizing s with
  | zero => cases h
  | succ fuel ih =>
    obtain ⟨u, hu, h⟩ := Option.bind_eq_some_iff.1 h
    split at h
    · next v hv => exact (hitem hu).trans ((hsep hv).trans (ih h))
    · cases h
      exact hitem hu

/-- A list ends with its closing mark. -/
theorem listed_ends (h : listed close item fuel s = some t) : Ends s t := by
  induction fuel generalizing s with
  | zero => cases h
  | succ fuel ih =>
    unfold listed at h
    split at h
    · next v hv =>
      cases h
      exact mark_ends hv
    · obtain ⟨u, hu, h⟩ := Option.bind_eq_some_iff.1 h
      split at h
      · next v hv => exact (hitem hu).trans ((mark_ends hv).trans (ih h))
      · exact (hitem hu).trans (mark_ends h)

theorem terminated_ends (h : terminated strict close item fuel s = some t) : Ends s t := by
  induction fuel generalizing s with
  | zero => cases h
  | succ fuel ih =>
    unfold terminated at h
    split at h
    · next v hv =>
      cases h
      exact mark_ends hv
    · obtain ⟨u, hu, h⟩ := Option.bind_eq_some_iff.1 h
      have hus : Ends s u := (hitem hu).of_skip
      split at h
      · next v hv => exact hus.trans ((ih h).of_suffix (terminator_suffix hv))
      · split at h
        · cases h
        · exact hus.trans (mark_ends h)

end

end StaleDocs.Go
