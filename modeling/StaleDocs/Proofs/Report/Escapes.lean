/-
Escapes of workflow commands: what stands for a character that would end a
line, a property or a command. Escapes are undone one kind after another, with
the percent sign last because all of them are written with it, and undoing
takes back what writing did, whatever the text (`Undoable.unescape_spelled`).

One law carries this: undoing a kind leaves each other piece of an escaped
text as it is, wherever it stands (`Escape.Keeps`).
-/
import StaleDocs.Report.Format

namespace StaleDocs.Report

/-- A percent sign and two characters, which stand for one character. -/
structure Escape where
  high : Char
  low : Char
  char : Char
deriving DecidableEq

/-- How an escape is written. -/
def Escape.code (e : Escape) : List Char := ['%', e.high, e.low]

/-- The text with the character wherever its escape stood. -/
def Escape.undo (e : Escape) : List Char → List Char
  | a :: b :: c :: cs =>
    if a = '%' ∧ b = e.high ∧ c = e.low then e.char :: e.undo cs else a :: e.undo (b :: c :: cs)
  | cs => cs

/-- The text with one kind of escape undone after the other. -/
def unescape (es : List Escape) (cs : List Char) : List Char :=
  es.foldl (fun cs e => e.undo cs) cs

/-- The escapes of a message. -/
def messageEscapes : List Escape := [⟨'0', 'D', '\r'⟩, ⟨'0', 'A', '\n'⟩, ⟨'2', '5', '%'⟩]

/-- The escapes of a property. -/
def propertyEscapes : List Escape := ⟨'3', 'A', ':'⟩ :: ⟨'2', 'C', ','⟩ :: messageEscapes

/-- A character, escaped if it has an escape. -/
def spell (es : List Escape) (c : Char) : List Char :=
  match es.find? (·.char = c) with
  | some e => e.code
  | none => [c]

/-! ## Undoing one kind -/

/-- Whether undoing an escape leaves a piece of text as it is, whatever follows. -/
def Escape.Keeps (e : Escape) (piece : List Char) : Prop :=
  ∀ rest, e.undo (piece ++ rest) = piece ++ e.undo rest

theorem Escape.undo_code (e : Escape) (rest : List Char) :
    e.undo (e.code ++ rest) = e.char :: e.undo rest := by
  simp [Escape.code, Escape.undo]

theorem Escape.undo_cons {e : Escape} {c : Char} (hc : c ≠ '%') (rest : List Char) :
    e.undo (c :: rest) = c :: e.undo rest := by
  match rest with
  | [] | [_] => rfl
  | b :: d :: rest => rw [Escape.undo, if_neg fun h => hc h.1]

theorem Escape.keeps_char {e : Escape} {c : Char} (hc : c ≠ '%') : e.Keeps [c] :=
  fun rest => Escape.undo_cons hc rest

/-- Escapes are told apart by their two characters, neither of which starts another. -/
theorem Escape.keeps_code {e e' : Escape} (hhigh : e'.high ≠ '%') (hlow : e'.low ≠ '%')
    (hne : e.code ≠ e'.code) : e.Keeps e'.code := by
  intro rest
  have hne : ¬ (e'.high = e.high ∧ e'.low = e.low) := fun h => hne (by simp [Escape.code, h])
  rw [Escape.code, List.cons_append, List.cons_append, List.cons_append, List.nil_append,
    Escape.undo, if_neg fun h => hne h.2, Escape.undo_cons hhigh, Escape.undo_cons hlow]
  rfl

/-- Without a percent sign there is nothing to undo. -/
theorem Escape.undo_of_not_mem {e : Escape} {cs : List Char} (h : '%' ∉ cs) : e.undo cs = cs := by
  induction cs with
  | nil => rfl
  | cons c cs ih =>
    obtain ⟨hc, hcs⟩ := not_or.1 (mt List.mem_cons.2 h)
    rw [Escape.undo_cons (Ne.symm hc), ih hcs]

/-! ## Undoing all kinds -/

theorem unescape_of_not_mem (es : List Escape) {cs : List Char} (h : '%' ∉ cs) :
    unescape es cs = cs := by
  induction es with
  | nil => rfl
  | cons e es ih => rw [unescape, List.foldl_cons, ← unescape, e.undo_of_not_mem h, ih]

/-- Whether escapes can be undone one after the other: no two are written alike or stand for one
character, and that of the percent sign, with which all are written, comes last. -/
structure Undoable (es : List Escape) : Prop where
  codes : es.Pairwise fun e e' => e.code ≠ e'.code
  chars : es.Pairwise fun e e' => e.char ≠ e'.char
  plain : ∀ e ∈ es, e.high ≠ '%' ∧ e.low ≠ '%'
  last : ∀ e ∈ es.getLast?, e.char = '%'

theorem Undoable.tail {e : Escape} {es : List Escape} (h : Undoable (e :: es)) : Undoable es where
  codes := h.codes.of_cons
  chars := h.chars.of_cons
  plain := fun x hx => h.plain x (List.mem_cons_of_mem e hx)
  last := fun x hx => h.last x (by
    rw [List.getLast?_cons, Option.mem_def.1 hx]
    rfl)

/-- A percent sign has an escape. -/
theorem Undoable.percent {e : Escape} {es : List Escape} (h : Undoable (e :: es)) :
    ∃ x ∈ e :: es, x.char = '%' :=
  ⟨(e :: es).getLast (by simp), List.getLast_mem _, h.last _ (List.getLast?_eq_some_getLast _)⟩

theorem spell_cons (e : Escape) (es : List Escape) (c : Char) :
    spell (e :: es) c = if e.char = c then e.code else spell es c := by
  by_cases h : e.char = c <;> simp [spell, h]

theorem spell_of_not_mem {es : List Escape} {c : Char} (h : ∀ e ∈ es, e.char ≠ c) :
    spell es c = [c] := by
  have hnone : es.find? (·.char = c) = none := by simpa using h
  rw [spell, hnone]

theorem spell_cases (es : List Escape) (c : Char) :
    (∃ e ∈ es, e.char = c ∧ spell es c = e.code) ∨
      (∀ e ∈ es, e.char ≠ c) ∧ spell es c = [c] := by
  by_cases h : ∃ e ∈ es, e.char = c
  · refine .inl ?_
    cases hfind : es.find? (·.char = c) with
    | none =>
      obtain ⟨e, he, hc⟩ := h
      exact absurd hc (by simpa using List.find?_eq_none.1 hfind e he)
    | some e =>
      exact ⟨e, List.mem_of_find?_eq_some hfind, by simpa using List.find?_some hfind,
        by rw [spell, hfind]⟩
  · have hne : ∀ e ∈ es, e.char ≠ c := fun e he hc => h ⟨e, he, hc⟩
    exact .inr ⟨hne, spell_of_not_mem hne⟩

/-- Undoing the first kind leaves a text in which only the others are written. -/
theorem Undoable.undo_spelled {e : Escape} {es : List Escape} (h : Undoable (e :: es))
    (cs : List Char) : e.undo (cs.flatMap (spell (e :: es))) = cs.flatMap (spell es) := by
  obtain ⟨hcodes, -⟩ := List.pairwise_cons.1 h.codes
  obtain ⟨hchars, -⟩ := List.pairwise_cons.1 h.chars
  induction cs with
  | nil => rfl
  | cons c cs ih =>
    rw [List.flatMap_cons, List.flatMap_cons, spell_cons]
    split
    · next hc =>
      subst hc
      rw [e.undo_code, ih, spell_of_not_mem fun x hx => (hchars x hx).symm, List.singleton_append]
    · next hc =>
      have hkeeps : e.Keeps (spell es c) := by
        rcases spell_cases es c with ⟨x, hx, -, hspell⟩ | ⟨hnone, hspell⟩
        · rw [hspell]
          obtain ⟨hhigh, hlow⟩ := h.plain x (List.mem_cons_of_mem e hx)
          exact Escape.keeps_code hhigh hlow (hcodes x hx)
        · rw [hspell]
          refine Escape.keeps_char fun hpercent => ?_
          -- The percent sign has an escape, so it does not stand for itself.
          obtain ⟨x, hx, hchar⟩ := h.percent
          rcases List.mem_cons.1 hx with rfl | hx
          · exact hc (hchar.trans hpercent.symm)
          · exact hnone x hx (hchar.trans hpercent.symm)
      rw [hkeeps, ih]

/-- What is written with escapes is read back by undoing them. -/
theorem Undoable.unescape_spelled {es : List Escape} (h : Undoable es) (cs : List Char) :
    unescape es (cs.flatMap (spell es)) = cs := by
  induction es with
  | nil =>
    change cs.flatMap (fun c => [c]) = cs
    simp
  | cons e es ih =>
    rw [unescape, List.foldl_cons, ← unescape, h.undo_spelled, ih h.tail]

/-- A character that has an escape, and with which none is written, is nowhere in a text that is
written with escapes. -/
theorem not_mem_spelled {es : List Escape} {c : Char} (hescaped : ∃ e ∈ es, e.char = c)
    (hcodes : ∀ e ∈ es, c ∉ e.code) (cs : List Char) : c ∉ cs.flatMap (spell es) := by
  intro hmem
  obtain ⟨d, -, hd⟩ := List.mem_flatMap.1 hmem
  rcases spell_cases es d with ⟨e, he, -, hspell⟩ | ⟨hnone, hspell⟩
  · exact hcodes e he (hspell ▸ hd)
  · rw [hspell, List.mem_singleton] at hd
    obtain ⟨e, he, hc⟩ := hescaped
    exact hnone e he (hc.trans hd)

/-! ## Messages and properties -/

theorem undoable_messageEscapes : Undoable messageEscapes :=
  ⟨by decide, by decide, by decide, by decide⟩

theorem undoable_propertyEscapes : Undoable propertyEscapes :=
  ⟨by decide, by decide, by decide, by decide⟩

theorem escapeMessageChar_eq : escapeMessageChar = spell messageEscapes := by
  funext c
  unfold escapeMessageChar
  split
  · rfl
  · rfl
  · rfl
  · next hpercent hreturn hfeed =>
    refine (spell_of_not_mem ?_).symm
    simp [messageEscapes, Ne.symm hpercent, Ne.symm hreturn, Ne.symm hfeed]

theorem escapePropertyChar_eq : escapePropertyChar = spell propertyEscapes := by
  funext c
  unfold escapePropertyChar
  split
  · rfl
  · rfl
  · next hcolon hcomma =>
    rw [propertyEscapes, spell_cons, if_neg (Ne.symm hcolon), spell_cons, if_neg (Ne.symm hcomma),
      escapeMessageChar_eq]

theorem toList_escapeMessage (s : String) :
    (escapeMessage s).toList = s.toList.flatMap (spell messageEscapes) := by
  rw [escapeMessage, String.toList_ofList, escapeMessageChar_eq]

theorem toList_escapeProperty (s : String) :
    (escapeProperty s).toList = s.toList.flatMap (spell propertyEscapes) := by
  rw [escapeProperty, String.toList_ofList, escapePropertyChar_eq]

end StaleDocs.Report
