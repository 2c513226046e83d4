/-
Sums of doubles that begin with one. Rounding never takes a sum below the power
of two from which its first term is (`AtLeastOne.add`), so whatever scores are
added to one, the sum at most one is one (`combine_sum_one`). All that is asked
of the scores is that they are numbers from zero on, and the share of a count
is one as long as the counts are not so large that both become infinite
(`fromZero_ratio`).

Doubles are taken apart as their format says: a number of 53 binary digits with
an exponent, written to 64 bits and read back before each operation.
-/
import Mathlib
import StaleDocs.Relevance.Score

namespace StaleDocs.Relevance
open Float.Model Float.Model.UnpackedFloat

/-! ## Rounding -/

theorem log2_shiftLeft {m : Nat} (hm : m ≠ 0) (n : Nat) : (m <<< n).log2 = m.log2 + n := by
  induction n with
  | zero => rfl
  | succ n ih =>
    have hne : m <<< n ≠ 0 := mt Nat.shiftLeft_eq_zero_iff.1 hm
    rw [Nat.shiftLeft_succ, Nat.log2_two_mul hne, ih]
    omega

theorem log2_div {m : Nat} (n k : Nat) (hm : m.log2 = n + k) (h : m ≠ 0) :
    (m / 2 ^ k).log2 = n := by
  obtain ⟨hlow, hhigh⟩ := (Nat.log2_eq_iff h).1 hm
  have hone : 2 ^ n ≤ m / 2 ^ k :=
    (Nat.le_div_iff_mul_le (Nat.two_pow_pos k)).2 (by rwa [← Nat.pow_add])
  refine (Nat.log2_eq_iff (by have := Nat.two_pow_pos n; omega)).2 ⟨hone, ?_⟩
  rw [Nat.div_lt_iff_lt_mul (Nat.two_pow_pos k), ← Nat.pow_add]
  rwa [show n + 1 + k = n + k + 1 by omega]

theorem mantissa_shiftRight (em : ExtendedMantissa) (n : Nat) :
    (em >>> n).mantissa = em.mantissa / 2 ^ n := by
  induction n with
  | zero => simp [HShiftRight.hShiftRight, Nat.repeat]
  | succ n ih =>
    have hstep : (em >>> (n + 1)).mantissa = (em >>> n).mantissa / 2 := rfl
    rw [hstep, ih, Nat.div_div_eq_div_mul, Nat.pow_succ]

theorem mantissa_ofMantissaAndAccuracy (m : Nat) (a : Accuracy) :
    (ExtendedMantissa.ofMantissaAndAccuracy m a).mantissa = m := by
  rcases a with _ | _ | _ | _ <;> rfl

theorem roundedMantissa_bounds (em : ExtendedMantissa) :
    em.mantissa ≤ em.roundedMantissa ∧ em.roundedMantissa ≤ em.mantissa + 1 := by
  obtain ⟨m, _ | _, _ | _⟩ := em <;>
    simp only [ExtendedMantissa.roundedMantissa, ExtendedMantissa.accuracy,
      Accuracy.roundToNearestEven] <;> omega

theorem decreaseExponent_eq (m : Nat) (e t : Int) :
    decreaseExponent m e t = (m <<< (e - t).toNat, min e t) := by
  rw [decreaseExponent, Prod.mk.injEq]
  exact ⟨rfl, by omega⟩

theorem targetExponent_double {m : Nat} {e : Int} (he : -1074 ≤ e + m.log2 - 52) :
    Format.binary64.targetExponent (totalExponent m e) = e + m.log2 - 52 := by
  simp only [Format.targetExponent, Format.minExponent, Format.mantissaBits, totalExponent]
  omega

/-- A mantissa of at least 53 digits is cut down to 53. -/
theorem shiftToTargetExponent_double {m : Nat} {e : Int} (a : Accuracy) (hm : 52 ≤ m.log2)
    (he : -1074 ≤ e + m.log2 - 52) :
    (shiftToTargetExponent .binary64 m e a).1.mantissa.log2 = 52 ∧
      (shiftToTargetExponent .binary64 m e a).2 = e + m.log2 - 52 := by
  have hne : m ≠ 0 := by rintro rfl; simp at hm
  have hshift : (e + m.log2 - 52 - e).toNat = m.log2 - 52 := by omega
  simp only [shiftToTargetExponent, targetExponent_double he, shiftToExponent, hshift,
    mantissa_shiftRight, mantissa_ofMantissaAndAccuracy]
  exact ⟨log2_div _ _ (by omega) hne, by omega⟩

/-- Rounding leaves 53 digits. The exponent grows by the number of digits that are dropped, and by
one more if the last digit is carried all the way. -/
theorem roundWithAccuracy_double {m : Nat} {e : Int} (s : Sign) (a : Accuracy) (hm : 52 ≤ m.log2)
    (he : -1074 ≤ e + m.log2 - 52) :
    ∃ m' e' h, roundWithAccuracy .binary64 s m e a = .finite s m' e' h ∧ m'.log2 = 52 ∧
      e + m.log2 - 52 ≤ e' ∧ e' ≤ e + m.log2 - 51 := by
  obtain ⟨hcut, he₁⟩ := shiftToTargetExponent_double a hm he
  rw [roundWithAccuracy]
  set first := shiftToTargetExponent .binary64 m e a
  have hne : first.1.mantissa ≠ 0 := by intro h; simp [h] at hcut
  obtain ⟨hlow, hhigh⟩ := (Nat.log2_eq_iff hne).1 hcut
  obtain ⟨hdown, hup⟩ := roundedMantissa_bounds first.1
  -- A carry into a new digit leaves a power of two, which is shifted once more.
  have hr : first.1.roundedMantissa ≠ 0 := by omega
  have hlogr : 52 ≤ first.1.roundedMantissa.log2 := (Nat.le_log2 hr).2 (by omega)
  have hlogr' : first.1.roundedMantissa.log2 < 54 := (Nat.log2_lt hr).2 (by omega)
  obtain ⟨hlog, he₂⟩ := shiftToTargetExponent_double (e := first.2) .exact hlogr (by omega)
  set second := shiftToTargetExponent .binary64 first.1.roundedMantissa first.2 .exact
  have hpos : second.1.mantissa ≠ 0 := by intro h; simp [h] at hlog
  exact ⟨second.1.mantissa, second.2, Nat.pos_of_ne_zero hpos, dif_neg hpos, hlog, by omega,
    by omega⟩

/-- The same where digits may have to be added first. -/
theorem round_double {m : Nat} {e : Int} (s : Sign) (hm : m ≠ 0) (he : -1074 ≤ e + m.log2 - 52) :
    ∃ m' e' h, UnpackedFloat.round .binary64 s m e = .finite s m' e' h ∧ m'.log2 = 52 ∧
      e + m.log2 - 52 ≤ e' ∧ e' ≤ e + m.log2 - 51 := by
  have hlog := log2_shiftLeft hm (e - (e + m.log2 - 52)).toNat
  rw [UnpackedFloat.round, targetExponent_double he, decreaseExponent_eq]
  obtain ⟨m', e', h, heq, hm', hlow, hhigh⟩ :=
    roundWithAccuracy_double (m := m <<< (e - (e + m.log2 - 52)).toNat)
      (e := min e (e + m.log2 - 52)) s .exact (by omega) (by omega)
  exact ⟨m', e', h, heq, hm', by omega, by omega⟩

/-! ## Written to 64 bits and read back -/

@[simp] theorem unpackSign_packComponents {spec : Format} (s : Sign)
    (e : BitVec spec.exponentBits) (m : BitVec spec.mantissaBitsWithoutImplicit) :
    unpackSign (packComponents spec s e m) = s.toBitVec := by
  ext i hi
  obtain rfl : i = 0 := by omega
  simp [unpackSign, packComponents, BitVec.getLsbD_append, BitVec.getElem_append]

@[simp] theorem ofBitVec_toBitVec (s : Sign) : Sign.ofBitVec s.toBitVec = s := by
  cases s <;> rfl

theorem toNat_one_append {n : Nat} (m : BitVec n) : (1#1 ++ m).toNat = 2 ^ n + m.toNat := by
  rw [BitVec.toNat_append, ← Nat.shiftLeft_add_eq_or_of_lt m.isLt]
  simp [Nat.shiftLeft_eq]

theorem ofNat_ne_top {b : Nat} (h : b < 2047) : BitVec.ofNat 11 b ≠ -1#11 := fun heq => by
  have hval : (BitVec.ofNat 11 b).toNat = 2047 := congrArg BitVec.toNat heq
  rw [BitVec.toNat_ofNat] at hval
  omega

theorem unpack_packedInfinity (s : Sign) :
    UnpackedFloat.unpack .binary64 (packedInfinity .binary64 s) = .infinity s := by
  simp only [packedInfinity, UnpackedFloat.unpack, unpackMantissa_packComponents,
    unpackExponent_packComponents, unpackSign_packComponents, ofBitVec_toBitVec, if_true]
  rfl

theorem unpack_packComponents_normal {b : Nat} (s : Sign) (m : BitVec 52) (hb : 0 < b)
    (htop : b < 2047) :
    UnpackedFloat.unpack .binary64 (packComponents .binary64 s (BitVec.ofNat 11 b) m) =
      .finite s (2 ^ 52 + m.toNat) (b - 1075) (by omega) := by
  have hval : (BitVec.ofNat 11 b).toNat = b := by rw [BitVec.toNat_ofNat]; omega
  have hzero : BitVec.ofNat 11 b ≠ 0#11 := fun h => by
    rw [h] at hval
    exact absurd hval (Nat.ne_of_lt hb)
  simp only [UnpackedFloat.unpack, unpackMantissa_packComponents, unpackExponent_packComponents,
    unpackSign_packComponents, ofBitVec_toBitVec, if_neg (ofNat_ne_top htop), if_neg hzero,
    toNat_one_append, hval]
  rfl

theorem pack_normal {m : Nat} {e : Int} (s : Sign) (h : 0 < m) (hm : m.log2 = 52)
    (he : -1074 ≤ e) :
    UnpackedFloat.pack .binary64 (.finite s m e h) =
      if e ≤ 971 then
        packComponents .binary64 s (BitVec.ofNat 11 (e + 1075).toNat) (BitVec.ofNat 52 m)
      else packedInfinity .binary64 s := by
  have hbias : e + (Format.binary64.exponentBias : Nat) + (52 : Nat) = e + 1075 := by
    simp only [Format.exponentBias]
    omega
  simp only [UnpackedFloat.pack, Format.mantissaBits, hm, hbias, Nat.reduceAdd, if_true]
  by_cases hfits : e ≤ 971
  · rw [if_neg (by omega), if_pos hfits]
  · rw [if_pos (by omega), if_neg hfits]

/-- A number of 53 digits is read back as it was, or as infinity if it is too large. -/
theorem unpack_pack_normal {m : Nat} {e : Int} (s : Sign) (h : 0 < m) (hm : m.log2 = 52)
    (he : -1074 ≤ e) :
    (Float.Model.pack (.finite s m e h)).unpack =
      if e ≤ 971 then .finite s m e h else .infinity s := by
  obtain ⟨hlow, hhigh⟩ := (Nat.log2_eq_iff (Nat.ne_of_gt h)).1 hm
  change UnpackedFloat.unpack .binary64 (UnpackedFloat.pack .binary64 _) = _
  rw [pack_normal s h hm he]
  split
  · rw [unpack_packComponents_normal _ _ (by omega) (by omega), UnpackedFloat.finite.injEq,
      BitVec.toNat_ofNat]
    exact ⟨rfl, by omega, by omega⟩
  · exact unpack_packedInfinity s

/-! ## Numbers from zero on -/

/-- Positive zero, and positive numbers of any size. -/
inductive Nonnegative : UnpackedFloat → Prop
  | infinity : Nonnegative (.infinity .positive)
  | zero : Nonnegative (.zero .positive)
  | finite (m : Nat) (e : Int) (h : 0 < m) : Nonnegative (.finite .positive m e h)

theorem nonnegative_unpack_packComponents {spec : Format} {e : BitVec spec.exponentBits}
    {m : BitVec spec.mantissaBitsWithoutImplicit} (h : e = -1#_ → m = 0#_) :
    Nonnegative (UnpackedFloat.unpack spec (packComponents spec .positive e m)) := by
  simp only [UnpackedFloat.unpack, unpackMantissa_packComponents, unpackExponent_packComponents,
    unpackSign_packComponents, ofBitVec_toBitVec]
  split
  · next htop =>
    rw [if_pos (h htop)]
    exact .infinity
  · split
    · split
      · exact .zero
      · exact .finite ..
    · exact .finite ..

theorem Nonnegative.packed {u : UnpackedFloat} (h : Nonnegative u) :
    Nonnegative (Float.Model.pack u).unpack := by
  change Nonnegative (UnpackedFloat.unpack .binary64 (UnpackedFloat.pack .binary64 u))
  cases h with
  | infinity => exact nonnegative_unpack_packComponents fun _ => rfl
  | zero => exact nonnegative_unpack_packComponents fun _ => rfl
  | finite m e h =>
    rw [UnpackedFloat.pack]
    split
    · exact nonnegative_unpack_packComponents fun _ => rfl
    · next hfits =>
      -- The greatest exponent is written for infinity alone.
      have hfits : ¬ 2 ^ 11 ≤ _ + 1 := hfits
      split
      · exact nonnegative_unpack_packComponents fun htop => absurd htop (ofNat_ne_top (by omega))
      · exact nonnegative_unpack_packComponents fun htop => absurd htop (by decide)

theorem nonnegative_roundWithAccuracy (spec : Format) (m : Nat) (e : Int) (a : Accuracy) :
    Nonnegative (roundWithAccuracy spec .positive m e a) := by
  simp only [roundWithAccuracy]
  split
  · exact .zero
  · exact .finite ..

/-- Doubles from zero on. -/
def FromZero (x : Float) : Prop := Nonnegative x.toModel.unpack

/-- A positive double with the 53 digits and the exponent by which it is written. -/
structure Positive (x : Float) (m : Nat) (e : Int) : Prop where
  pos : 0 < m
  digits : m.log2 = 52
  unpack : x.toModel.unpack = .finite .positive m e pos

theorem positive_pack {m : Nat} {e : Int} (h : 0 < m) (hm : m.log2 = 52) (hlow : -1074 ≤ e)
    (hhigh : e ≤ 971) : Positive (.ofModel (Float.Model.pack (.finite .positive m e h))) m e :=
  ⟨h, hm, by rw [unpack_pack_normal .positive h hm hlow, if_pos hhigh]⟩

/-- A product that is neither too small nor too large is written with 53 digits again. -/
theorem positive_mul {m₁ m₂ : Nat} {e₁ e₂ : Int} (h₁ : 0 < m₁) (h₂ : 0 < m₂)
    (hdigits : 52 ≤ (m₁ * m₂).log2) (hlow : -1074 ≤ e₁ + e₂ + (m₁ * m₂).log2 - 52)
    (hhigh : e₁ + e₂ + (m₁ * m₂).log2 - 51 ≤ 971) :
    ∃ m e, Positive (.ofModel (Float.Model.pack (UnpackedFloat.mul .binary64
      (.finite .positive m₁ e₁ h₁) (.finite .positive m₂ e₂ h₂)))) m e := by
  obtain ⟨m, e, h, heq, hm, hlow', hhigh'⟩ :=
    roundWithAccuracy_double (e := e₁ + e₂) .positive .exact hdigits hlow
  refine ⟨m, e, ?_⟩
  change Positive (.ofModel (Float.Model.pack
    (roundWithAccuracy .binary64 .positive (m₁ * m₂) (e₁ + e₂) .exact))) m e
  rw [heq]
  exact positive_pack h hm (by omega) (by omega)

theorem FromZero.mul {x y : Float} (hx : FromZero x) {m : Nat} {e : Int} (hy : Positive y m e) :
    FromZero (x * y) := by
  have hmul : (x * y).toModel.unpack = (Float.Model.pack
      (UnpackedFloat.mul .binary64 x.toModel.unpack y.toModel.unpack)).unpack := rfl
  rw [FromZero] at hx ⊢
  rw [hmul, hy.unpack]
  refine Nonnegative.packed ?_
  generalize x.toModel.unpack = u at hx
  cases hx with
  | infinity => exact .infinity
  | zero => exact .zero
  | finite => exact nonnegative_roundWithAccuracy ..

theorem nonnegative_normalize (spec : Format) (n : Nat) (e : Int) :
    Nonnegative (UnpackedFloat.normalize spec n e .positive) := by
  cases n with
  | zero => exact .zero
  | succ n =>
    have hcompare : compare ((n + 1 : Nat) : Int) 0 = .gt := by
      rw [Int.compare_eq_gt]
      omega
    rw [UnpackedFloat.normalize, hcompare]
    exact nonnegative_roundWithAccuracy ..

theorem Nonnegative.add {u v : UnpackedFloat} (hu : Nonnegative u) (hv : Nonnegative v) :
    Nonnegative (UnpackedFloat.add .binary64 u v) := by
  cases hu with
  | infinity => cases hv <;> exact .infinity
  | zero =>
    cases hv with
    | infinity => exact .infinity
    | zero => exact .zero
    | finite m e h => exact .finite m e h
  | finite m₁ e₁ h₁ =>
    cases hv with
    | infinity => exact .infinity
    | zero => exact .finite m₁ e₁ h₁
    | finite m₂ e₂ h₂ =>
      simp only [UnpackedFloat.add, decreaseExponent_eq, Sign.apply, ← Int.natCast_add]
      exact nonnegative_normalize ..

theorem fromZero_zero : FromZero 0 := .zero

theorem FromZero.add {x y : Float} (hx : FromZero x) (hy : FromZero y) : FromZero (x + y) :=
  (Nonnegative.add hx hy).packed

/-! ## Counts as doubles -/

theorem toFloat_positive {n : Nat} (h : 0 < n) (hn : n < 2 ^ 64) :
    ∃ m e, Positive n.toUInt64.toFloat m e ∧ -52 ≤ e ∧ e ≤ 13 := by
  have hlog : n.log2 < 64 := (Nat.log2_lt (Nat.ne_of_gt h)).2 hn
  obtain ⟨m, e, hpos, heq, hm, hlow, hhigh⟩ :=
    round_double (e := 0) .positive (Nat.ne_of_gt h) (by omega)
  have hval : n.toUInt64.toNat = n := by simp; omega
  have hround : n.toUInt64.toFloat =
      .ofModel (Float.Model.pack (UnpackedFloat.normalize .binary64 n.toUInt64.toNat 0 .positive)) :=
    rfl
  have hcompare : compare (n : Int) 0 = .gt := by rw [Int.compare_eq_gt]; omega
  rw [hround, hval, UnpackedFloat.normalize, hcompare]
  simp only [Int.toNat_natCast, heq]
  exact ⟨m, e, positive_pack hpos hm (by omega) (by omega), by omega, by omega⟩

theorem unpack_powerZero (h : 0 < Float.exactlyRepresentablePowersOfTen.size) :
    Float.exactlyRepresentablePowersOfTen[0].toModel.unpack =
      .finite .positive (2 ^ 52) (-52) (by decide) := by
  have hpower : Float.exactlyRepresentablePowersOfTen[0] = Float.ofBits 0x3FF0000000000000 := by
    rfl
  rw [hpower]
  rfl

theorem ofNat_positive {n : Nat} (h : 0 < n) (hn : n < 2 ^ 64) :
    ∃ m e, Positive (Float.ofNat n) m e := by
  change ∃ m e, Positive (Float.ofScientific n false 0) m e
  rw [Float.ofScientific]
  split
  · obtain ⟨m, e, hm, hlow, hhigh⟩ := toFloat_positive h hn
    have hmul (x y : Float) : x * y = .ofModel (Float.Model.pack
        (UnpackedFloat.mul .binary64 x.toModel.unpack y.toModel.unpack)) := rfl
    have hlog : (m * 2 ^ 52).log2 = 104 := by
      rw [← Nat.shiftLeft_eq, log2_shiftLeft (Nat.ne_of_gt hm.pos), hm.digits]
    simp only [Bool.false_eq_true, if_false, hmul, hm.unpack, unpack_powerZero]
    exact positive_mul _ _ (by omega) (by omega) (by omega)
  · have hlog : (n <<< 53 * 10 ^ 0).log2 = n.log2 + 53 := by
      rw [Nat.pow_zero, Nat.mul_one, log2_shiftLeft (Nat.ne_of_gt h)]
    have hn' : n.log2 < 64 := (Nat.log2_lt (Nat.ne_of_gt h)).2 hn
    have hbits : Format.binary64.mantissaBits = 53 := rfl
    have hexp : Int.toNat 0 = 0 := rfl
    change ∃ m e, Positive
      (.ofModel (Float.Model.pack (UnpackedFloat.ofScientific .binary64 n 0))) m e
    rw [UnpackedFloat.ofScientific, dif_neg (Nat.ne_of_gt h), if_neg (by decide),
      if_neg (by change ¬ (0 : Int) < -(2048 + n.log2); omega), if_pos (by decide)]
    exact positive_mul _ _ (by rw [hbits, hexp]; omega) (by rw [hbits, hexp]; omega)
      (by rw [hbits, hexp]; omega)

theorem fromZero_ratio {a b : Nat} (ha : 0 < a) (hb : 0 < b) (ha' : a < 2 ^ 64)
    (hb' : b < 2 ^ 64) : FromZero (Score.ratio a b) := by
  obtain ⟨m, e, h⟩ := ofNat_positive ha ha'
  obtain ⟨m', e', h'⟩ := ofNat_positive hb hb'
  change Nonnegative (Float.Model.pack (UnpackedFloat.div .binary64
    (Float.ofNat a).toModel.unpack (Float.ofNat b).toModel.unpack)).unpack
  rw [h.unpack, h'.unpack]
  exact Nonnegative.packed (nonnegative_roundWithAccuracy ..)

/-! ## Numbers from one on -/

/-- Numbers from one on, in the form to which numbers are rounded. -/
inductive AtLeastOne : UnpackedFloat → Prop
  | infinity : AtLeastOne (.infinity .positive)
  | finite {m : Nat} {e : Int} (h : 0 < m) (digits : m.log2 = 52) (atLeast : -52 ≤ e) :
      AtLeastOne (.finite .positive m e h)

theorem AtLeastOne.unpack_pack {u : UnpackedFloat} (h : AtLeastOne u) :
    (Float.Model.pack u).unpack = u ∨ (Float.Model.pack u).unpack = .infinity .positive := by
  cases h with
  | infinity => exact .inl (unpack_packedInfinity .positive)
  | finite h hm he =>
    rw [unpack_pack_normal .positive h hm (by omega)]
    split
    · exact .inl rfl
    · exact .inr rfl

theorem AtLeastOne.packed {u : UnpackedFloat} (h : AtLeastOne u) :
    AtLeastOne (Float.Model.pack u).unpack := by
  rcases h.unpack_pack with heq | heq <;> rw [heq]
  · exact h
  · exact .infinity

/-- Nothing is lost of a number from one on by adding to it. -/
theorem AtLeastOne.add {u v : UnpackedFloat} (hu : AtLeastOne u) (hv : Nonnegative v) :
    AtLeastOne (UnpackedFloat.add .binary64 u v) := by
  cases hu with
  | infinity => cases hv <;> exact .infinity
  | @finite m e h hm he =>
    cases hv with
    | infinity => exact .infinity
    | zero => exact .finite h hm he
    | finite m₂ e₂ h₂ =>
      simp only [UnpackedFloat.add, decreaseExponent_eq, Sign.apply]
      -- What is added only makes the mantissa of the first number longer.
      have hlog := log2_shiftLeft (Nat.ne_of_gt h) (e - min e e₂).toNat
      generalize m <<< (e - min e e₂).toNat = wide at hlog ⊢
      generalize m₂ <<< (e₂ - min e e₂).toNat = more
      have hwide : wide ≠ 0 := by rintro rfl; simp at hlog; omega
      have hsum : wide + more ≠ 0 := by omega
      have hmore : wide.log2 ≤ (wide + more).log2 :=
        (Nat.le_log2 hsum).2 (Nat.le_trans ((Nat.le_log2 hwide).1 (Nat.le_refl _)) (by omega))
      obtain ⟨m', e', h', heq, hm', hlow, -⟩ :=
        round_double (e := min e e₂) .positive hsum (by omega)
      have hcompare : compare (wide + more : Int) 0 = .gt := by
        rw [Int.compare_eq_gt]
        omega
      rw [UnpackedFloat.normalize, hcompare]
      simp only [← Int.natCast_add, Int.toNat_natCast, heq]
      exact .finite h' hm' (by omega)

/-- The number one. -/
def unit : UnpackedFloat := .finite .positive (2 ^ 52) (-52) (by decide)

theorem AtLeastOne.eq_or_greater {u : UnpackedFloat} (hu : AtLeastOne u) :
    u = unit ∨ UnpackedFloat.lt unit u = true := by
  cases hu with
  | infinity => exact .inr rfl
  | @finite m e hm hdigits he =>
    have hlow := (Nat.le_log2 (Nat.ne_of_gt hm)).1 (Nat.le_of_eq hdigits.symm)
    simp only [unit, UnpackedFloat.lt, UnpackedFloat.compare]
    rcases Int.lt_or_eq_of_le he with he | rfl
    · rw [Int.compare_eq_lt.2 he]
      exact .inr rfl
    · rcases Nat.lt_or_eq_of_le hlow with hlow | rfl
      · rw [Nat.compare_eq_lt.2 hlow, Int.compare_eq_eq.2 rfl]
        exact .inr rfl
      · exact .inl rfl

theorem AtLeastOne.not_below_zero {u : UnpackedFloat} (hu : AtLeastOne u) :
    UnpackedFloat.lt u (.zero .positive) = false := by
  cases hu <;> rfl

/-- Doubles from one on. -/
def FromOne (x : Float) : Prop := ∃ u, AtLeastOne u ∧ x = .ofModel (Float.Model.pack u)

theorem fromOne_one : FromOne 1 := ⟨unit, .finite _ (by decide) (by decide), by decide⟩

theorem FromOne.add {x y : Float} (hx : FromOne x) (hy : FromZero y) : FromOne (x + y) := by
  obtain ⟨u, hu, rfl⟩ := hx
  exact ⟨_, hu.packed.add hy, rfl⟩

theorem lt_eq (x y : Float) :
    Score.lt x y = UnpackedFloat.lt x.toModel.unpack y.toModel.unpack :=
  Bool.eq_iff_iff.2 (decide_eq_true_iff.trans decide_eq_true_iff)

theorem clamp_of_fromOne {x : Float} (h : FromOne x) : clamp x = 1 := by
  obtain ⟨u, hu, rfl⟩ := h
  have hzero : Score.lt (.ofModel (Float.Model.pack u)) (Score.zero : Float) = false := by
    rw [lt_eq]
    exact hu.packed.not_below_zero
  rw [clamp, hzero, if_neg Bool.false_ne_true]
  rcases hu.eq_or_greater with rfl | hgreater
  · decide
  · have hone : Score.lt (Score.one : Float) (.ofModel (Float.Model.pack u)) = true := by
      rw [lt_eq]
      change UnpackedFloat.lt unit (Float.Model.pack u).unpack = true
      rcases hu.unpack_pack with h | h
      · rwa [h]
      · rw [h]
        rfl
    rw [hone, if_pos rfl]
    rfl

/-- **Scores that begin with one add up to one**, since their sum is from one on. -/
theorem combine_sum_one {scores : List Float} (h : ∀ x ∈ scores, FromZero x) :
    Aggregation.sum.combine (1 :: scores) = 1 := by
  have hone : Score.add Score.zero 1 = (1 : Float) := by decide
  rw [Aggregation.combine, List.foldl_cons, hone]
  refine clamp_of_fromOne (List.foldlRecOn scores Score.add fromOne_one fun sum hsum x hx => ?_)
  exact hsum.add (h x hx)

end StaleDocs.Relevance
