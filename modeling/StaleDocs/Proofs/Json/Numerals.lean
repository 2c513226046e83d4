/-
Numbers in JSON text. A numeral that follows the grammar (`Numeral.Written`)
is read back as itself from its text, whatever can follow a number
(`scanNumeral_text`). The numerals that are written do follow it: those of
natural numbers, which read as the number they write (`readNat_ofNat`), and
those of doubles, in any layout (`Layout.written_numeral`). That no zero stands
in front of the latter rests on their digits never being all zero
(`Binary.shortest_digits`), since the search for them starts where the value
has a digit.
-/
import Mathlib.Data.List.Basic
import StaleDocs.Json.Record
import StaleDocs.Json.Token

namespace StaleDocs

namespace Decimal

/-! ## Numerals of the grammar -/

/-- Whether a numeral follows the grammar: its parts are digits, the whole part has some, a
zero in front of it stands alone, and only an exponent has a sign. -/
structure Numeral.Written (n : Numeral) : Prop where
  whole : ∀ c ∈ n.whole, c.isDigit = true
  whole_ne_nil : n.whole ≠ []
  leading : n.whole.head? = some '0' → n.whole = ['0']
  fraction : ∀ c ∈ n.fraction, c.isDigit = true
  exponent : ∀ c ∈ n.exponent, c.isDigit = true
  sign : n.exponent = [] → n.exponentNegative = false

theorem isDigit_toDigits {n : Nat} : ∀ c ∈ Nat.toDigits 10 n, c.isDigit = true :=
  fun _ => Nat.isDigit_of_mem_toDigits (by decide) (by decide)

/-- Only zero is written with a zero in front. -/
theorem head?_toDigits {n : Nat} (h : n ≠ 0) : (Nat.toDigits 10 n).head? ≠ some '0' := by
  induction n using Nat.strongRecOn with
  | _ n ih =>
    by_cases hlt : n < 10
    · have hdigits : ∀ n < 10, n ≠ 0 → [n.digitChar].head? ≠ some '0' := by decide
      rw [Nat.toDigits_of_lt_base hlt]
      exact hdigits n hlt h
    · rw [Nat.toDigits_of_base_le (by decide) (by omega),
        List.head?_append_of_ne_nil _ Nat.toDigits_ne_nil]
      exact ih (n / 10) (by omega) (by omega)

theorem ofDigits_toDigits (n : Nat) : ofDigits (Nat.toDigits 10 n) = n :=
  Nat.ofDigitChars_ten_toDigits

/-! ## Digits of a double -/

/-- A fraction that is at least one unit of an exponent. -/
def Reaches (num den : Nat) (exponent : Int) : Prop :=
  den * Nat.pow 10 exponent.toNat ≤ num * Nat.pow 10 (-exponent).toNat

theorem Reaches.pred {num den : Nat} {exponent : Int} (h : Reaches num den exponent) :
    Reaches num den (exponent - 1) := by
  simp only [Reaches] at h ⊢
  by_cases hpos : 0 < exponent
  · obtain ⟨e, rfl⟩ : ∃ e : Nat, exponent = e + 1 := ⟨(exponent - 1).toNat, by omega⟩
    have h₁ : ((e : Int) + 1).toNat = e + 1 := by omega
    have h₂ : (-((e : Int) + 1)).toNat = 0 := by omega
    have h₃ : ((e : Int) + 1 - 1).toNat = e := by omega
    have h₄ : (-((e : Int) + 1 - 1)).toNat = 0 := by omega
    rw [h₁, h₂] at h
    rw [h₃, h₄]
    refine Nat.le_trans (Nat.mul_le_mul_left _ ?_) h
    exact Nat.pow_le_pow_right (by decide) (Nat.le_succ e)
  · have h₁ : exponent.toNat = 0 := by omega
    have h₂ : (exponent - 1).toNat = 0 := by omega
    have h₃ : (-(exponent - 1)).toNat = (-exponent).toNat + 1 := by omega
    rw [h₁] at h
    rw [h₂, h₃]
    refine Nat.le_trans h (Nat.mul_le_mul_left _ ?_)
    exact Nat.pow_le_pow_right (by decide) (Nat.le_succ _)

theorem lt_pow_digitCount (n : Nat) : n < Nat.pow 10 (digitCount n) :=
  (Nat.length_toDigits_le_iff (by decide) Nat.length_toDigits_pos).1 (Nat.le_refl _)

theorem pow_digitCount_le {n k : Nat} (hn : 0 < n) (hk : digitCount n = k + 1) :
    Nat.pow 10 k ≤ n := by
  by_contra hlt
  cases k with
  | zero => exact hlt hn
  | succ k =>
    have hle := (Nat.length_toDigits_le_iff (by decide) (Nat.succ_pos k)).2 (Nat.lt_of_not_le hlt)
    rw [digitCount] at hk
    omega

/-- A positive fraction reaches the exponent of its first digit. -/
theorem reaches_leadingExponent {num den : Nat} (hnum : 0 < num) :
    Reaches num den (leadingExponent num den) := by
  rw [leadingExponent]
  split
  · next h => exact h
  -- One place lower the counts of digits alone are enough.
  obtain ⟨n, hn⟩ : ∃ n, digitCount num = n + 1 :=
    ⟨digitCount num - 1, (Nat.succ_pred_eq_of_pos Nat.length_toDigits_pos).symm⟩
  have hlow := pow_digitCount_le hnum hn
  have hhigh := Nat.le_of_lt (lt_pow_digitCount den)
  rw [Reaches, hn]
  generalize digitCount den = d at hhigh
  change den * 10 ^ _ ≤ num * 10 ^ _
  rcases Nat.le_total d n with hle | hle
  · obtain ⟨k, rfl⟩ := Nat.exists_eq_add_of_le hle
    have h₁ : (((d + k + 1 : Nat) : Int) - d - 1).toNat = k := by omega
    have h₂ : (-(((d + k + 1 : Nat) : Int) - d - 1)).toNat = 0 := by omega
    rw [h₁, h₂, Nat.pow_zero, Nat.mul_one]
    calc den * 10 ^ k ≤ 10 ^ d * 10 ^ k := Nat.mul_le_mul_right _ hhigh
      _ = 10 ^ (d + k) := (Nat.pow_add 10 d k).symm
      _ ≤ num := hlow
  · obtain ⟨k, rfl⟩ := Nat.exists_eq_add_of_le hle
    have h₁ : (((n + 1 : Nat) : Int) - (n + k : Nat) - 1).toNat = 0 := by omega
    have h₂ : (-(((n + 1 : Nat) : Int) - (n + k : Nat) - 1)).toNat = k := by omega
    rw [h₁, h₂, Nat.pow_zero, Nat.mul_one]
    calc den ≤ 10 ^ (n + k) := hhigh
      _ = 10 ^ n * 10 ^ k := Nat.pow_add 10 n k
      _ ≤ num * 10 ^ k := Nat.mul_le_mul_right _ hlow

theorem le_roundDiv (num den : Nat) : num / den ≤ roundDiv num den := by
  rw [roundDiv]
  split <;> omega

theorem Interval.one_le_div {i : Interval} (hden : 0 < i.den) {exponent : Int}
    (h : Reaches i.value i.den exponent) :
    1 ≤ i.value * Nat.pow 10 (-exponent).toNat / (i.den * Nat.pow 10 exponent.toNat) :=
  (Nat.one_le_div_iff (Nat.mul_pos hden (Nat.pow_pos (by decide)))).2 h

theorem Interval.one_le_roundDiv {i : Interval} (hden : 0 < i.den) {exponent : Int}
    (h : Reaches i.value i.den exponent) :
    1 ≤ roundDiv (i.value * Nat.pow 10 (-exponent).toNat) (i.den * Nat.pow 10 exponent.toNat) :=
  Nat.le_trans (i.one_le_div hden h) (le_roundDiv _ _)

theorem Interval.onGrid?_digits {i : Interval} (hden : 0 < i.den) {exponent : Int}
    (h : Reaches i.value i.den exponent) {d : Scaled} (hd : i.onGrid? exponent = some d) :
    d.digits ≠ 0 := by
  have hdown := i.one_le_div hden h
  have hround := i.one_le_roundDiv hden h
  simp only [Interval.onGrid?] at hd
  split at hd <;> cases hd <;> dsimp only <;> omega

/-- A search that starts where the value has a digit does not end with zero. -/
theorem Interval.search_digits {i : Interval} (hden : 0 < i.den) {steps : Nat} :
    ∀ {exponent : Int}, Reaches i.value i.den exponent → (i.search exponent steps).digits ≠ 0 := by
  induction steps with
  | zero =>
    intro exponent h
    exact Nat.one_le_iff_ne_zero.1 (i.one_le_roundDiv hden h)
  | succ steps ih =>
    intro exponent h
    simp only [Interval.search]
    split
    · next hd => exact i.onGrid?_digits hden h hd
    · exact ih h.pred

theorem Scaled.stripFrom_digits {fuel : Nat} : ∀ {d : Scaled}, d.digits ≠ 0 →
    (d.stripFrom fuel).digits ≠ 0 := by
  induction fuel with
  | zero => exact id
  | succ fuel ih =>
    intro d h
    simp only [Scaled.stripFrom]
    split
    · next hzero =>
      refine ih ?_
      simp only [Bool.and_eq_true, decide_eq_true_eq] at hzero
      dsimp only
      omega
    · exact h

/-- The digits of a double are zero only if it is, and then it has the exponent of one. -/
theorem Binary.shortest_digits (b : Binary) : b.shortest.digits ≠ 0 ∨ b.shortest = ⟨0, 0⟩ := by
  rw [Binary.shortest]
  split
  · exact .inr rfl
  · next h =>
    refine .inl (Scaled.stripFrom_digits (Interval.search_digits ?_ (reaches_leadingExponent ?_)))
    · exact Nat.mul_pos (by decide) (Nat.pow_pos (by decide))
    · exact Nat.mul_pos (by omega) (Nat.pow_pos (by decide))

/-! ## Numerals that are written -/

theorem isDigit_replicate {n : Nat} : ∀ c ∈ List.replicate n '0', c.isDigit = true := by
  intro c hc
  rw [List.eq_of_mem_replicate hc]
  decide

/-- Digits with the point where it belongs. A zero in front stands alone if it is the only digit
and has its place before the point or after it. -/
theorem written_positional {negative : Bool} {digits : List Char} {whole : Int}
    (hdigits : ∀ c ∈ digits, c.isDigit = true) (hne : digits ≠ [])
    (hzero : digits.head? = some '0' → digits = ['0'] ∧ whole ≤ 1) :
    (positional negative digits whole).Written := by
  have hnone : ∀ c ∈ ([] : List Char), c.isDigit = true := by simp
  have hone : ∀ c ∈ ['0'], c.isDigit = true := List.forall_mem_singleton.2 rfl
  rw [positional]
  -- All digits stand behind the point, or before it, or it is among them.
  split
  · exact ⟨hone, by simp, fun _ => rfl, List.forall_mem_append.2 ⟨isDigit_replicate, hdigits⟩, hnone,
      fun _ => rfl⟩
  split
  · next hw hlen =>
    refine ⟨List.forall_mem_append.2 ⟨hdigits, isDigit_replicate⟩, by simp [hne], fun hhead => ?_,
      hone, hnone, fun _ => rfl⟩
    dsimp only at hhead ⊢
    rw [List.head?_append_of_ne_nil _ hne] at hhead
    obtain ⟨rfl, hle⟩ := hzero hhead
    have hplace : whole.toNat = 1 := by omega
    simp [hplace]
  · next hw hlen =>
    refine ⟨fun c hc => hdigits c (List.mem_of_mem_take hc), ?_, fun hhead => ?_,
      fun c hc => hdigits c (List.mem_of_mem_drop hc), hnone, fun _ => rfl⟩
    · simp only [ne_eq, List.take_eq_nil_iff, hne, or_false]
      omega
    · dsimp only at hhead
      rw [List.head?_take, if_neg (by omega)] at hhead
      obtain ⟨rfl, -⟩ := hzero hhead
      simp at hlen
      omega

theorem written_scientific {negative : Bool} {digits : List Char} {exponent : Int}
    (hdigits : ∀ c ∈ digits, c.isDigit = true) (hne : digits ≠ []) :
    (scientific negative digits exponent).Written := by
  obtain ⟨c, cs, rfl⟩ := List.exists_cons_of_ne_nil hne
  refine ⟨fun d hd => hdigits d (List.mem_of_mem_take hd), by simp [scientific], fun hhead => ?_,
    fun d hd => hdigits d (List.mem_of_mem_drop hd), isDigit_toDigits, fun hnil => ?_⟩
  · simpa [scientific] using hhead
  · exact absurd hnil Nat.toDigits_ne_nil

/-- Whatever the layout, the numeral of a double follows the grammar. -/
theorem Layout.written_numeral (layout : Layout) (negative : Bool) {d : Scaled}
    (hd : d.digits ≠ 0 ∨ d = ⟨0, 0⟩) : (layout.numeral negative d).Written := by
  rw [Layout.numeral]
  split
  · refine written_positional isDigit_toDigits Nat.toDigits_ne_nil fun hhead => ?_
    rcases hd with hd | rfl
    · exact absurd hhead (head?_toDigits hd)
    · exact ⟨rfl, by decide⟩
  · exact written_scientific isDigit_toDigits Nat.toDigits_ne_nil

end Decimal

namespace Json
open Decimal (Numeral Binary ofDigits maxSignificand)

theorem written_toDigits (n : Nat) : Numeral.Written ⟨false, Nat.toDigits 10 n, [], false, []⟩ where
  whole := Decimal.isDigit_toDigits
  whole_ne_nil := Nat.toDigits_ne_nil
  leading h := by
    by_cases hn : n = 0
    · rw [hn, Nat.toDigits_zero]
    · exact absurd h (Decimal.head?_toDigits hn)
  fraction := by simp
  exponent := by simp
  sign _ := rfl

/-- A number of 64 bits reads as itself. -/
theorem readNat_ofNat {n : Nat} (h : n ≤ Text.maxWord) : readNat (.ofNat n) = some n := by
  have hle : n ≤ maxSignificand := h
  simp [readNat, Value.ofNat, Numeral.toNat?, Numeral.isWhole, Decimal.ofDigits_toDigits, hle]

/-! ## Reading numerals -/

/-- Whether a text does not go on with digits. -/
def NoDigit (cs : List Char) : Prop := ∀ c ∈ cs.head?, c.isDigit = false

/-- Whether a text does not go on with a numeral. -/
def EndsNumeral (cs : List Char) : Prop :=
  ∀ c ∈ cs.head?, c.isDigit = false ∧ c ≠ '.' ∧ c ≠ 'e' ∧ c ≠ 'E'

theorem EndsNumeral.noDigit {cs : List Char} (h : EndsNumeral cs) : NoDigit cs := fun c hc => (h c hc).1

theorem spanDigits_append {ds rest : List Char} (hd : ∀ c ∈ ds, c.isDigit = true)
    (hr : NoDigit rest) : spanDigits (ds ++ rest) = (ds, rest) := by
  rw [spanDigits, List.takeWhile_append_of_pos hd, List.dropWhile_append_of_pos hd]
  cases rest with
  | nil => simp
  | cons c rest => simp [hr c rfl]

/-- The fraction of a numeral behind its point, if it has one. -/
def fractionText (n : Numeral) : List Char := if n.fraction.isEmpty then [] else '.' :: n.fraction

/-- The exponent of a numeral behind its mark, if it has one. -/
def exponentText (n : Numeral) : List Char :=
  if n.exponent.isEmpty then []
  else 'e' :: (if n.exponentNegative then ['-'] else ['+']) ++ n.exponent

theorem scanExponent_text {n : Numeral} (hn : n.Written) {rest : List Char} (hr : EndsNumeral rest) :
    scanExponent (exponentText n ++ rest) = some (n.exponentNegative, n.exponent, rest) := by
  cases he : n.exponent with
  | nil =>
    rw [hn.sign he]
    simp only [exponentText, he, List.isEmpty_nil, if_true, List.nil_append]
    cases rest with
    | nil => rfl
    | cons c rest =>
      obtain ⟨-, -, h₁, h₂⟩ := hr c rfl
      simp [scanExponent, h₁, h₂]
  | cons c cs =>
    have hspan : spanDigits (c :: (cs ++ rest)) = (c :: cs, rest) :=
      spanDigits_append (he ▸ hn.exponent) hr.noDigit
    cases hs : n.exponentNegative <;> simp [exponentText, he, hs, scanExponent, hspan]

theorem exponentText_ends (n : Numeral) {rest : List Char} (hr : EndsNumeral rest) :
    ∀ c ∈ (exponentText n ++ rest).head?, c.isDigit = false ∧ c ≠ '.' := by
  intro c hc
  rw [exponentText] at hc
  split at hc
  · exact ⟨(hr c hc).1, (hr c hc).2.1⟩
  · cases hc
    decide

theorem scanFraction_text {n : Numeral} (hn : n.Written) {rest : List Char}
    (hr : ∀ c ∈ rest.head?, c.isDigit = false ∧ c ≠ '.') :
    scanFraction (fractionText n ++ rest) = some (n.fraction, rest) := by
  cases hf : n.fraction with
  | nil =>
    simp only [fractionText, hf, List.isEmpty_nil, if_true, List.nil_append]
    unfold scanFraction
    split
    · exact absurd rfl (hr _ rfl).2
    · rfl
  | cons c cs =>
    have hspan : spanDigits (c :: (cs ++ rest)) = (c :: cs, rest) :=
      spanDigits_append (hf ▸ hn.fraction) fun d hd => (hr d hd).1
    simp [fractionText, hf, scanFraction, hspan]

theorem fractionText_ends (n : Numeral) {rest : List Char}
    (hr : ∀ c ∈ rest.head?, c.isDigit = false ∧ c ≠ '.') : NoDigit (fractionText n ++ rest) := by
  intro c hc
  rw [fractionText] at hc
  split at hc
  · exact (hr c hc).1
  · cases hc
    decide

/-- A numeral after its sign, and the text after it. -/
def scanUnsigned (negative : Bool) (cs : List Char) : Option (Numeral × List Char) := do
  let (whole, cs) ← match spanDigits cs with
    | ([], _) => none
    | ('0' :: _ :: _, _) => none
    | found => some found
  let (fraction, cs) ← scanFraction cs
  let (exponentNegative, exponent, cs) ← scanExponent cs
  return (⟨negative, whole, fraction, exponentNegative, exponent⟩, cs)

theorem scanNumeral_minus (cs : List Char) : scanNumeral ('-' :: cs) = scanUnsigned true cs := rfl

theorem scanNumeral_digit {c : Char} (hc : c.isDigit = true) (cs : List Char) :
    scanNumeral (c :: cs) = scanUnsigned false (c :: cs) := by
  have hne : c ≠ '-' := by
    rintro rfl
    revert hc
    decide
  unfold scanNumeral
  split
  next negative rest hsign =>
    split at hsign
    · next heq => exact absurd (List.cons.inj heq).1 hne
    · cases hsign
      rfl

theorem scanUnsigned_text {n : Numeral} (hn : n.Written) {rest : List Char} (hr : EndsNumeral rest) :
    scanUnsigned n.negative (n.whole ++ (fractionText n ++ (exponentText n ++ rest))) =
      some (n, rest) := by
  have hspan := spanDigits_append hn.whole (fractionText_ends n (exponentText_ends n hr))
  have hfraction := scanFraction_text hn (exponentText_ends n hr)
  have hexponent := scanExponent_text hn hr
  rw [scanUnsigned, hspan]
  split
  · next heq => exact absurd (Prod.mk.inj heq).1 hn.whole_ne_nil
  · next heq =>
    have hwhole := (Prod.mk.inj heq).1
    have hleading := hn.leading (by simp [hwhole])
    simp [hwhole] at hleading
  · simp [hfraction, hexponent]

theorem scanNumeral_text {n : Numeral} (hn : n.Written) {rest : List Char} (hr : EndsNumeral rest) :
    scanNumeral (n.text numberLayout.plus ++ rest) = some (n, rest) := by
  have htext : n.text numberLayout.plus ++ rest = (if n.negative then ['-'] else []) ++
      (n.whole ++ (fractionText n ++ (exponentText n ++ rest))) := by
    simp [Numeral.text, fractionText, exponentText, numberLayout]
  have hunsigned := scanUnsigned_text hn hr
  rw [htext]
  cases hneg : n.negative with
  | true =>
    rw [← hunsigned, hneg]
    exact scanNumeral_minus _
  | false =>
    obtain ⟨c, cs, hwhole⟩ := List.exists_cons_of_ne_nil hn.whole_ne_nil
    have hdigit : c.isDigit = true := hn.whole c (by simp [hwhole])
    rw [hwhole, hneg] at hunsigned
    rw [← hunsigned, hwhole]
    exact scanNumeral_digit hdigit _

end Json

end StaleDocs
