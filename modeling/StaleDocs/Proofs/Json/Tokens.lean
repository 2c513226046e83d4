/-
The tokens of a text that is written for a value. Both ways to write a value
put one token after the other, on one line or with white space between
(`writes_compact`, `writes_prettyAt`). Where a token ends is seen from the next
character only for numbers, so each part of a text is told together with
whatever can follow a number (`Writes`).
-/
import StaleDocs.Proofs.Json.Numerals

namespace StaleDocs.Json
open Decimal (Numeral)

/-! ## Strings -/

theorem hexValue?_hexDigit : ∀ d < 16, Text.hexValue? (hexDigit d) = some d := by decide

theorem hexUnit?_control {c : Char} (hc : c.toNat < 0x20) :
    hexUnit? '0' '0' (hexDigit (c.toNat / 16)) (hexDigit (c.toNat % 16)) = some c.toNat := by
  have hzero : Text.hexValue? '0' = some 0 := by decide
  have hhigh := hexValue?_hexDigit (c.toNat / 16) (by omega)
  have hlow := hexValue?_hexDigit (c.toNat % 16) (by omega)
  simp only [hexUnit?, hzero, hhigh, hlow, bind, pure, Option.bind_some]
  congr 1
  omega

theorem ofCode_toNat {c : Char} (hc : c.toNat < 0x20) : StringUnit.ofCode c.toNat = .char c := by
  have hhigh : ¬ 0xd800 ≤ c.toNat := by omega
  have hlow : ¬ 0xdc00 ≤ c.toNat := by omega
  simp [StringUnit.ofCode, hhigh, hlow]

/-- A character is read from how it is written inside a string. -/
theorem scanString_escapeChar (c : Char) (out : List StringUnit) (cs : List Char) :
    scanString out (escapeChar c ++ cs) = scanString (.char c :: out) cs := by
  unfold escapeChar
  split
  -- The seven short escapes are read as written; what is left has a code or stands for itself.
  iterate 7 exact rfl
  next hquote hbackslash _ _ _ _ _ =>
    have hne : c ≠ '\\' := hbackslash
    split
    · next hcontrol =>
      simp [scanString, hexUnit?_control hcontrol, ofCode_toNat hcontrol]
    · next hplain =>
      rw [List.singleton_append, scanString]
      · simp [hplain, hne]
      · exact hquote
      · exact fun _ _ _ _ _ h => absurd h hne
      · exact fun _ _ h => absurd h hne

theorem scanString_escaped (s rest : List Char) : ∀ out : List StringUnit,
    scanString out (s.flatMap escapeChar ++ '"' :: rest) = some (out.reverse ++ s.map .char, rest) := by
  induction s with
  | nil => intro out; simp [scanString]
  | cons c s ih =>
    intro out
    rw [List.flatMap_cons, List.append_assoc, scanString_escapeChar, ih]
    simp

theorem pairUnits_chars (s : List Char) : ∀ out, pairUnits out (s.map .char) = some (out.reverse ++ s) := by
  induction s with
  | nil => intro out; simp [pairUnits]
  | cons c s ih =>
    intro out
    rw [List.map_cons, pairUnits, ih]
    simp

theorem scanToken_quoted (s : String) (rest : List Char) :
    scanToken '"' (s.toList.flatMap escapeChar ++ '"' :: rest) =
      some (.atom (.string (some s)), rest) := by
  have hscan := scanString_escaped s.toList rest []
  have hpair := pairUnits_chars s.toList []
  simp only [List.reverse_nil, List.nil_append] at hscan hpair
  simp [scanToken, hscan, hpair]

/-! ## Texts that are scanned -/

/-- The tokens of a text: white space between them is passed over. -/
inductive Scans : List Char → List Token → Prop
  | nil : Scans [] []
  | space {c : Char} {cs : List Char} {ts : List Token} (hc : isSpace c = true) (h : Scans cs ts) :
    Scans (c :: cs) ts
  | token {c : Char} {cs rest : List Char} {t : Token} {ts : List Token} (hc : isSpace c = false)
    (ht : scanToken c cs = some (t, rest)) (hle : rest.length ≤ cs.length) (h : Scans rest ts) :
    Scans (c :: cs) (t :: ts)

/-- No token takes more steps than characters. -/
theorem Scans.scanFrom_eq {cs : List Char} {ts : List Token} (h : Scans cs ts) :
    ∀ {out : List Token} {fuel : Nat}, cs.length ≤ fuel →
      scanFrom out fuel cs = some (out.reverse ++ ts) := by
  induction h with
  | nil =>
    intro out fuel _
    cases fuel <;> simp [scanFrom]
  | space hc _ ih =>
    intro out fuel hfuel
    cases fuel with
    | zero => exact absurd hfuel (Nat.not_succ_le_zero _)
    | succ fuel =>
      rw [scanFrom, if_pos hc]
      exact ih (Nat.le_of_succ_le_succ hfuel)
  | @token _ _ _ t _ hc ht hle _ ih =>
    intro out fuel hfuel
    cases fuel with
    | zero => exact absurd hfuel (Nat.not_succ_le_zero _)
    | succ fuel =>
      have hrest := @ih (t :: out) fuel (Nat.le_trans hle (Nat.le_of_succ_le_succ hfuel))
      rw [scanFrom, hc, if_neg Bool.false_ne_true, ht]
      simpa using hrest

theorem Scans.ofText? {cs : List Char} {ts : List Token} (h : Scans cs ts) :
    Token.ofText? cs = some ts :=
  h.scanFrom_eq (Nat.le_refl _)

/-- Whether a text is scanned as the given tokens, before whatever can follow a number. -/
def Writes (text : List Char) (us : List Token) : Prop :=
  ∀ (rest : List Char) (ts : List Token), EndsNumeral rest → Scans rest ts →
    Scans (text ++ rest) (us ++ ts)

theorem EndsNumeral.nil : EndsNumeral [] := by simp [EndsNumeral]

theorem EndsNumeral.append {a b : List Char} (ha : EndsNumeral a) (hb : EndsNumeral b) :
    EndsNumeral (a ++ b) := by
  cases a with
  | nil => exact hb
  | cons c cs => exact ha

theorem isSpace_cases {c : Char} (hc : isSpace c = true) :
    c = ' ' ∨ c = '\t' ∨ c = '\n' ∨ c = '\r' := by
  simpa [isSpace, or_assoc] using hc

theorem endsNumeral_space {c : Char} (hc : isSpace c = true) (cs : List Char) :
    EndsNumeral (c :: cs) := by
  rintro d ⟨rfl⟩
  rcases isSpace_cases hc with rfl | rfl | rfl | rfl <;> decide

theorem endsNumeral_gap {gap text : List Char} (hgap : ∀ c ∈ gap, isSpace c = true)
    (htext : EndsNumeral text) : EndsNumeral (gap ++ text) := by
  cases gap with
  | nil => exact htext
  | cons c cs => exact endsNumeral_space (hgap c List.mem_cons_self) _

theorem Writes.nil : Writes [] [] := fun _ _ _ h => h

theorem Writes.append {a b : List Char} {us vs : List Token} (ha : Writes a us) (hb : Writes b vs)
    (hends : EndsNumeral b) : Writes (a ++ b) (us ++ vs) := by
  intro rest ts hrest h
  rw [List.append_assoc, List.append_assoc]
  exact ha _ _ (hends.append hrest) (hb _ _ hrest h)

/-- White space before a text adds no token. -/
theorem Writes.gap {gap text : List Char} {us : List Token} (hgap : ∀ c ∈ gap, isSpace c = true)
    (h : Writes text us) : Writes (gap ++ text) us := by
  induction gap with
  | nil => exact h
  | cons c cs ih =>
    intro rest ts hrest hs
    exact .space (hgap c List.mem_cons_self) (ih (fun d hd => hgap d (.tail _ hd)) _ _ hrest hs)

theorem Writes.mark {c : Char} {t : Token} {text : List Char} {us : List Token}
    (hc : isSpace c = false) (ht : ∀ cs, scanToken c cs = some (t, cs)) (h : Writes text us) :
    Writes (c :: text) (t :: us) :=
  fun _ _ hrest hs => .token hc (ht _) (Nat.le_refl _) (h _ _ hrest hs)

/-- A token that is scanned whatever follows. -/
theorem Writes.token {c : Char} {cs : List Char} {t : Token} (hc : isSpace c = false)
    (ht : ∀ {rest}, EndsNumeral rest → scanToken c (cs ++ rest) = some (t, rest)) :
    Writes (c :: cs) [t] :=
  fun _ _ hrest hs => .token hc (ht hrest) (by simp) hs

theorem Writes.separated {α : Type} {f : α → List Char} {g : α → List Token} {xs : List α}
    (h : ∀ x ∈ xs, Writes (f x) (g x)) :
    Writes ([','].intercalate (xs.map f)) ([Token.comma].intercalate (xs.map g)) := by
  induction xs with
  | nil => exact .nil
  | cons x xs ih =>
    have hx := h x List.mem_cons_self
    cases xs with
    | nil => simpa using hx
    | cons y ys =>
      have hys := ih fun z hz => h z (.tail _ hz)
      simp only [List.map_cons, List.intercalate_cons_cons, List.append_assoc,
        List.singleton_append] at hys ⊢
      exact hx.append (.mark rfl (fun _ => rfl) hys) (by simp [EndsNumeral])

/-! ## Values that are written -/

/-- Whether a value has a text of its own: its numbers follow the grammar, and its strings and
the names of its members denote texts. -/
inductive Value.Written : Value → Prop
  | null : Written .null
  | bool (b : Bool) : Written (.bool b)
  | number {n : Numeral} (hn : n.Written) : Written (.number n)
  | text (s : String) : Written (.text s)
  | array {items : List Value} (h : ∀ v ∈ items, v.Written) : Written (.array items)
  | record {members : List (String × Value)} (h : ∀ m ∈ members, m.2.Written) :
    Written (.record members)

theorem written_ofNat (n : Nat) : (Value.ofNat n).Written :=
  .number (written_toDigits n)

theorem written_ofFloat (x : Float) : (Value.ofFloat x).Written := by
  rw [Value.ofFloat]
  split
  · next b _ => exact .number (numberLayout.written_numeral b.negative b.shortest_digits)
  · exact .null

mutual

/-- The tokens of a value. -/
def Value.tokens : Value → List Token
  | .array items => .openArray :: [Token.comma].intercalate (itemTokens items) ++ [.closeArray]
  | .object members =>
    .openObject :: [Token.comma].intercalate (memberTokens members) ++ [.closeObject]
  | v => [.atom v]

/-- The tokens of each item. -/
def itemTokens : List Value → List (List Token)
  | [] => []
  | v :: vs => v.tokens :: itemTokens vs

/-- The tokens of each member. -/
def memberTokens : List (Option String × Value) → List (List Token)
  | [] => []
  | (name, v) :: ms => (.atom (.string name) :: .colon :: v.tokens) :: memberTokens ms

end

theorem itemTokens_eq (vs : List Value) : itemTokens vs = vs.map Value.tokens := by
  induction vs with
  | nil => rfl
  | cons v vs ih => rw [itemTokens, ih, List.map_cons]

def oneMember (m : Option String × Value) : List Token :=
  .atom (.string m.1) :: .colon :: m.2.tokens

theorem memberTokens_eq (ms : List (Option String × Value)) :
    memberTokens ms = ms.map oneMember := by
  induction ms with
  | nil => rfl
  | cons m ms ih => rw [memberTokens, ih, List.map_cons, oneMember]

/-! ## Both printers -/

/-- The text of a member, with the gap after its colon. -/
def memberText (gap : List Char) (print : Value → List Char) (m : Option String × Value) :
    List Char :=
  stringText m.1 ++ ':' :: (gap ++ print m.2)

/-- What stands between commas is told by its parts. -/
theorem eq_separated {α : Type} {print : List α → List Char} {f : α → List Char}
    (hnil : print [] = []) (hone : ∀ x, print [x] = f x)
    (hmore : ∀ x y ys, print (x :: y :: ys) = f x ++ ',' :: print (y :: ys)) (xs : List α) :
    print xs = [','].intercalate (xs.map f) := by
  induction xs with
  | nil => simpa using hnil
  | cons x xs ih =>
    cases xs with
    | nil => simpa using hone x
    | cons y ys => simp [hmore, ih]

theorem compactItems_eq : ∀ vs, compactItems vs = [','].intercalate (vs.map Value.compact) :=
  eq_separated rfl (fun _ => rfl) (fun _ _ _ => rfl)

theorem compactMembers_eq : ∀ ms, compactMembers ms =
    [','].intercalate (ms.map (memberText [] Value.compact)) :=
  eq_separated rfl (fun _ => rfl) (fun _ _ _ => by simp [compactMembers, memberText])

theorem prettyItems_eq (level : Nat) : ∀ vs, prettyItems level vs =
    [','].intercalate (vs.map fun v => freshLine level ++ v.prettyAt level) :=
  eq_separated rfl (fun _ => rfl) (fun _ _ _ => by simp [prettyItems])

theorem prettyMembers_eq (level : Nat) : ∀ ms, prettyMembers level ms =
    [','].intercalate (ms.map fun m =>
      freshLine level ++ memberText [' '] (Value.prettyAt level) m) :=
  eq_separated rfl (fun _ => by simp [prettyMembers, memberText])
    (fun _ _ _ => by simp [prettyMembers, memberText])

theorem isSpace_nil : ∀ c ∈ ([] : List Char), isSpace c = true := by simp

theorem isSpace_freshLine (level : Nat) : ∀ c ∈ freshLine level, isSpace c = true := by
  simp [freshLine, isSpace]

theorem prettyAt_array (level : Nat) {vs : List Value} (h : vs ≠ []) :
    (Value.array vs).prettyAt level =
      '[' :: prettyItems (level + 1) vs ++ (freshLine level ++ [']']) := by
  obtain ⟨w, ws, rfl⟩ := List.exists_cons_of_ne_nil h
  simp [Value.prettyAt]

theorem prettyAt_object (level : Nat) {ms : List (Option String × Value)} (h : ms ≠ []) :
    (Value.object ms).prettyAt level =
      '{' :: prettyMembers (level + 1) ms ++ (freshLine level ++ ['}']) := by
  obtain ⟨m, ms, rfl⟩ := List.exists_cons_of_ne_nil h
  simp [Value.prettyAt]

/-! ### Tokens of the parts -/

theorem writes_null : Writes "null".toList [.atom .null] :=
  .token rfl fun _ => rfl

theorem writes_bool (b : Bool) : Writes (if b then "true" else "false").toList [.atom (.bool b)] := by
  cases b <;> exact .token rfl fun _ => rfl

theorem writes_text (s : String) : Writes (stringText (some s)) [.atom (.string (some s))] :=
  .token rfl fun {rest} _ => by
    simpa using scanToken_quoted s rest

/-- A numeral starts with its sign or a digit. -/
theorem numeral_text_cons {n : Numeral} (hn : n.Written) :
    ∃ c cs, n.text numberLayout.plus = c :: cs ∧ (c = '-' ∨ c.isDigit = true) := by
  obtain ⟨d, ds, hwhole⟩ := List.exists_cons_of_ne_nil hn.whole_ne_nil
  have hdigit : d.isDigit = true := hn.whole d (by simp [hwhole])
  cases hneg : n.negative <;> simp [Numeral.text, hneg, hwhole, hdigit]

theorem isSpace_numeral {c : Char} (hc : c = '-' ∨ c.isDigit = true) : isSpace c = false := by
  cases hspace : isSpace c with
  | false => rfl
  | true =>
    rcases isSpace_cases hspace with rfl | rfl | rfl | rfl <;> exact absurd hc (by decide)

theorem scanToken_numeral {c : Char} (hc : c = '-' ∨ c.isDigit = true) (cs : List Char) :
    scanToken c cs = (scanNumeral (c :: cs)).map fun (n, rest) => (.atom (.number n), rest) := by
  unfold scanToken
  split
  -- The ten other tokens start with other characters.
  iterate 10 exact absurd hc (by decide)
  cases scanNumeral (c :: cs) <;> rfl

theorem writes_number {n : Numeral} (hn : n.Written) :
    Writes (n.text numberLayout.plus) [.atom (.number n)] := by
  obtain ⟨c, cs, htext, hc⟩ := numeral_text_cons hn
  rw [htext]
  refine .token (isSpace_numeral hc) fun hrest => ?_
  rw [scanToken_numeral hc, ← List.cons_append, ← htext, scanNumeral_text hn hrest]
  rfl

theorem writes_member {gap : List Char} {print : Value → List Char} {name : String} {v : Value}
    (hgap : ∀ c ∈ gap, isSpace c = true) (h : Writes (print v) v.tokens) :
    Writes (memberText gap print (some name, v)) (oneMember (some name, v)) :=
  (writes_text name).append (.mark rfl (fun _ => rfl) (h.gap hgap)) (by simp [EndsNumeral])

/-- A text in brackets, where white space may stand before the closing one. -/
theorem Writes.bracketed {o c : Char} {opening closing : Token} {text gap : List Char}
    {us : List Token} (ho : isSpace o = false) (hopen : ∀ cs, scanToken o cs = some (opening, cs))
    (hc : isSpace c = false) (hclose : ∀ cs, scanToken c cs = some (closing, cs))
    (hends : EndsNumeral [c]) (hgap : ∀ d ∈ gap, isSpace d = true) (h : Writes text us) :
    Writes (o :: text ++ (gap ++ [c])) (opening :: us ++ [closing]) :=
  .mark ho hopen (h.append (.gap hgap (.mark hc hclose .nil)) (endsNumeral_gap hgap hends))

theorem writes_array {text gap : List Char} {us : List Token} (hgap : ∀ c ∈ gap, isSpace c = true)
    (h : Writes text us) : Writes ('[' :: text ++ (gap ++ [']'])) (.openArray :: us ++ [.closeArray]) :=
  .bracketed rfl (fun _ => rfl) rfl (fun _ => rfl) (by simp [EndsNumeral]) hgap h

theorem writes_object {text gap : List Char} {us : List Token} (hgap : ∀ c ∈ gap, isSpace c = true)
    (h : Writes text us) :
    Writes ('{' :: text ++ (gap ++ ['}'])) (.openObject :: us ++ [.closeObject]) :=
  .bracketed rfl (fun _ => rfl) rfl (fun _ => rfl) (by simp [EndsNumeral]) hgap h

theorem writes_compact {v : Value} (h : v.Written) : Writes v.compact v.tokens := by
  induction h with
  | null => exact writes_null
  | bool b => exact writes_bool b
  | number hn => exact writes_number hn
  | text s => exact writes_text s
  | array _ ih =>
    rw [Value.compact, Value.tokens, compactItems_eq, itemTokens_eq]
    exact writes_array isSpace_nil (.separated ih)
  | record _ ih =>
    rw [Value.record, Value.compact, Value.tokens, compactMembers_eq, memberTokens_eq,
      List.map_map, List.map_map]
    exact writes_object isSpace_nil (.separated fun m hm => writes_member isSpace_nil (ih m hm))

theorem writes_prettyAt {v : Value} (h : v.Written) :
    ∀ level, Writes (v.prettyAt level) v.tokens := by
  have hblank : ∀ c ∈ [' '], isSpace c = true := List.forall_mem_singleton.2 rfl
  induction h with
  | null => exact fun _ => writes_null
  | bool b => exact fun _ => writes_bool b
  | number hn => exact fun _ => writes_number hn
  | text s => exact fun _ => writes_text s
  | @array items _ ih =>
    intro level
    by_cases hnil : items = []
    · subst hnil
      exact writes_array isSpace_nil .nil
    · rw [prettyAt_array level hnil, Value.tokens, prettyItems_eq, itemTokens_eq]
      exact writes_array (isSpace_freshLine level)
        (.separated fun w hw => .gap (isSpace_freshLine _) (ih w hw _))
  | @record members _ ih =>
    intro level
    by_cases hnil : members = []
    · subst hnil
      exact writes_object isSpace_nil .nil
    · rw [Value.record, prettyAt_object level (by simpa using hnil), Value.tokens,
        prettyMembers_eq, memberTokens_eq, List.map_map, List.map_map]
      exact writes_object (isSpace_freshLine level) (.separated fun m hm =>
        .gap (isSpace_freshLine _) (writes_member hblank (ih m hm _)))

end StaleDocs.Json
