/-
Finding one text inside another, and cutting at separators.
-/
namespace StaleDocs.Text

/-- What follows `start` in a text that begins with it. -/
def after? : (start : List Char) → List Char → Option (List Char)
  | [], cs => some cs
  | _ :: _, [] => none
  | p :: ps, c :: cs => if p = c then after? ps cs else none

/-- Whether `needle` stands somewhere in the text. -/
def occursIn (needle : List Char) : List Char → Bool
  | [] => needle.isEmpty
  | c :: cs => (after? needle (c :: cs)).isSome || occursIn needle cs

/-- The text before the first `sep` and the text after it; `before` holds what was passed
already, last character first. -/
def breakAtFrom (sep before : List Char) : List Char → Option (List Char × List Char)
  | [] => if sep.isEmpty then some (before.reverse, []) else none
  | c :: cs =>
    match after? sep (c :: cs) with
    | some rest => some (before.reverse, rest)
    | none => breakAtFrom sep (c :: before) cs

/-- The text before the first `sep` and the text after it. -/
def breakAt? (sep cs : List Char) : Option (List Char × List Char) :=
  breakAtFrom sep [] cs

/-- Whether a string stands in another. -/
def contains (s needle : String) : Bool :=
  occursIn needle.toList s.toList

theorem after?_eq_some_iff {start cs rest : List Char} :
    after? start cs = some rest ↔ cs = start ++ rest := by
  induction start generalizing cs with
  | nil => simp [after?, eq_comm]
  | cons p ps ih =>
    cases cs with
    | nil => simp [after?]
    | cons c cs =>
      by_cases h : p = c
      · subst h; simp [after?, ih]
      · simp [after?, h, Ne.symm h]

theorem after?_append (start rest : List Char) : after? start (start ++ rest) = some rest :=
  after?_eq_some_iff.2 rfl

/-- A text occurs in another exactly when it is an infix of it. -/
theorem occursIn_iff {needle cs : List Char} :
    occursIn needle cs = true ↔ ∃ before rest, cs = before ++ needle ++ rest := by
  induction cs with
  | nil => simp [occursIn, and_comm]
  | cons c cs ih =>
    simp only [occursIn, Bool.or_eq_true, ih, Option.isSome_iff_exists, after?_eq_some_iff]
    constructor
    · rintro (⟨rest, h⟩ | ⟨before, rest, h⟩)
      · exact ⟨[], rest, by simpa using h⟩
      · exact ⟨c :: before, rest, by simp [h]⟩
    · rintro ⟨before, rest, h⟩
      cases before with
      | nil => exact .inl ⟨rest, by simpa using h⟩
      | cons b before =>
        simp only [List.cons_append, List.cons.injEq] at h
        exact .inr ⟨before, rest, h.2⟩

end StaleDocs.Text
