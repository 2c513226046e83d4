/-
UTF-8 told apart from its reader. A sequence of bytes spells a number in the
bits that its marks leave free (`Spells`), and it is well formed if no shorter
one spells the number and the number is that of a character (`Encodes`), so
each character has one (`encodes_toNat_iff`). The reader takes a first
character exactly where its sequence stands (`nextChar_eq_ok_iff`), and so it
goes to the end of the longest well-formed start
(`longestStart_decodeUtf8`).
-/
import StaleDocs.Text.Lines
import StaleDocs.Text.Utf8

namespace StaleDocs.Text

/-! ## Well-formed sequences -/

/-- A byte that continues a sequence with six bits of a number. -/
def tailByte (bits : Nat) : UInt8 := .ofNat (bits + 0x80)

/-- Which number a sequence of bytes spells in the bits that its marks leave free. -/
inductive Spells : List UInt8 → Nat → Prop where
  | one {a : Nat} : a < 0x80 → Spells [.ofNat a] a
  | two {a b : Nat} : a < 0x20 → b < 0x40 → Spells [.ofNat (a + 0xc0), tailByte b] (64 * a + b)
  | three {a b c : Nat} : a < 0x10 → b < 0x40 → c < 0x40 →
      Spells [.ofNat (a + 0xe0), tailByte b, tailByte c] (64 * (64 * a + b) + c)
  | four {a b c d : Nat} : a < 0x08 → b < 0x40 → c < 0x40 → d < 0x40 →
      Spells [.ofNat (a + 0xf0), tailByte b, tailByte c, tailByte d]
        (64 * (64 * (64 * a + b) + c) + d)

/-- Whether a number is that of a character: it is no surrogate and not above U+10FFFF. -/
def IsScalar (code : Nat) : Prop := code < 0xd800 ∨ 0xdfff < code ∧ code ≤ 0x10ffff

/-- Whether a sequence is the well-formed one of a number: no shorter one spells it, and it is the
number of a character. -/
structure Encodes (seq : List UInt8) (code : Nat) : Prop where
  spells : Spells seq code
  shortest : ∀ other, Spells other code → seq.length ≤ other.length
  scalar : IsScalar code

/-- Whether bytes are one well-formed sequence after another. -/
inductive WellFormed : List UInt8 → Prop where
  | nil : WellFormed []
  | cons {seq rest : List UInt8} {code : Nat} : Encodes seq code → WellFormed rest →
      WellFormed (seq ++ rest)

/-- How many numbers the free bits of a sequence of some length can spell. -/
def room : (length : Nat) → Nat
  | 0 => 0
  | 1 => 0x80
  | 2 => 0x800
  | 3 => 0x10000
  | _ + 4 => 0x200000

theorem room_le_succ (n : Nat) : room n ≤ room (n + 1) := by
  match n with
  | 0 | 1 | 2 | 3 => decide
  | n + 4 => exact Nat.le_refl _

theorem room_mono {m n : Nat} (h : m ≤ n) : room m ≤ room n := by
  induction h with
  | refl => exact Nat.le_refl _
  | step _ ih => exact Nat.le_trans ih (room_le_succ _)

theorem Spells.lt_room {seq : List UInt8} {code : Nat} (h : Spells seq code) :
    code < room seq.length := by
  cases h <;> simp only [List.length_cons, List.length_nil, room] <;> omega

/-- A number has at most one sequence of each length. -/
theorem Spells.eq_of_length {seq seq' : List UInt8} {code : Nat} (h : Spells seq code)
    (h' : Spells seq' code) (hlength : seq.length = seq'.length) : seq = seq' := by
  generalize hcode : code = code' at h'
  cases h with
  | one ha => cases h' <;> simp_all
  | @two a b ha hb =>
    cases h' with
    | @two a' b' ha' hb' =>
      have hdigits : a = a' ∧ b = b' := by omega
      rw [hdigits.1, hdigits.2]
    | one | three | four => cases hlength
  | @three a b c ha hb hc =>
    cases h' with
    | @three a' b' c' ha' hb' hc' =>
      have hdigits : a = a' ∧ b = b' ∧ c = c' := by omega
      rw [hdigits.1, hdigits.2.1, hdigits.2.2]
    | one | two | four => cases hlength
  | @four a b c d ha hb hc hd =>
    cases h' with
    | @four a' b' c' d' ha' hb' hc' hd' =>
      have hdigits : a = a' ∧ b = b' ∧ c = c' ∧ d = d' := by omega
      rw [hdigits.1, hdigits.2.1, hdigits.2.2.1, hdigits.2.2.2]
    | one | two | three => cases hlength

/-- A sequence is the shortest one where fewer bytes have no room for the number. -/
theorem Spells.shortest {seq other : List UInt8} {code : Nat} (hroom : room (seq.length - 1) ≤ code)
    (h : Spells other code) : seq.length ≤ other.length := by
  have hlt := h.lt_room
  have hmono : other.length ≤ seq.length - 1 → room other.length ≤ room (seq.length - 1) :=
    room_mono
  omega

theorem Spells.encodes {seq : List UInt8} {code : Nat} (h : Spells seq code)
    (hroom : room (seq.length - 1) ≤ code) (hscalar : IsScalar code) : Encodes seq code :=
  ⟨h, fun _ => Spells.shortest hroom, hscalar⟩

/-! ## The encodings of characters -/

theorem isScalar_toNat (c : Char) : IsScalar c.toNat := by
  have h : c.toNat.isValidChar := c.valid
  unfold Nat.isValidChar at h
  unfold IsScalar
  omega

theorem toNat_ofNat_of_isScalar {code : Nat} (h : IsScalar code) :
    (Char.ofNat code).toNat = code := by
  have hvalid : code.isValidChar := by
    unfold Nat.isValidChar
    unfold IsScalar at h
    omega
  rw [Char.ofNat, dif_pos hvalid]
  rfl

/-- The encoding of a character spells its number, for which fewer bytes have no room. -/
theorem spells_utf8EncodeChar (c : Char) : Spells (String.utf8EncodeChar c) c.toNat ∧
    room ((String.utf8EncodeChar c).length - 1) ≤ c.toNat := by
  have hscalar := isScalar_toNat c
  have hval : c.val.toNat = c.toNat := rfl
  simp only [String.utf8EncodeChar, hval]
  generalize c.toNat = n at hscalar
  unfold IsScalar at hscalar
  split
  · exact ⟨.one (by omega), Nat.zero_le n⟩
  split
  · have hn : 64 * (n / 64 % 32) + n % 64 = n := by omega
    have h : Spells _ (64 * (n / 64 % 32) + n % 64) := .two (by omega) (by omega)
    rw [hn] at h
    exact ⟨h, show 0x80 ≤ n by omega⟩
  split
  · have hn : 64 * (64 * (n / 4096 % 16) + n / 64 % 64) + n % 64 = n := by omega
    have h : Spells _ (64 * (64 * (n / 4096 % 16) + n / 64 % 64) + n % 64) :=
      .three (by omega) (by omega) (by omega)
    rw [hn] at h
    exact ⟨h, show 0x800 ≤ n by omega⟩
  · have hn : 64 * (64 * (64 * (n / 262144 % 8) + n / 4096 % 64) + n / 64 % 64) + n % 64 = n := by
      omega
    have h : Spells _
        (64 * (64 * (64 * (n / 262144 % 8) + n / 4096 % 64) + n / 64 % 64) + n % 64) :=
      .four (by omega) (by omega) (by omega) (by omega)
    rw [hn] at h
    exact ⟨h, show 0x10000 ≤ n by omega⟩

/-- The well-formed sequences are the encodings of characters. -/
theorem encodes_toNat_iff {seq : List UInt8} {c : Char} :
    Encodes seq c.toNat ↔ seq = String.utf8EncodeChar c := by
  obtain ⟨hspells, hroom⟩ := spells_utf8EncodeChar c
  constructor
  · intro h
    refine h.spells.eq_of_length hspells (Nat.le_antisymm (h.shortest _ hspells) ?_)
    exact Spells.shortest hroom h.spells
  · rintro rfl
    exact hspells.encodes hroom (isScalar_toNat c)

theorem Encodes.eq_utf8EncodeChar {seq : List UInt8} {code : Nat} (h : Encodes seq code) :
    seq = String.utf8EncodeChar (Char.ofNat code) :=
  encodes_toNat_iff.1 ((toNat_ofNat_of_isScalar h.scalar).symm ▸ h)

/-! ## First bytes -/

theorem toNat_tailByte {t : Nat} (h : t < 0x40) : (tailByte t).toNat = t + 0x80 :=
  UInt8.toNat_ofNat_of_lt' (show _ < 0x100 by omega)

theorem exists_eq_ofNat_add {b : UInt8} {mark : Nat} (h : mark ≤ b.toNat) :
    ∃ a, b = .ofNat (a + mark) ∧ b.toNat = a + mark :=
  ⟨b.toNat - mark, by rw [Nat.sub_add_cancel h, UInt8.ofNat_toNat], (Nat.sub_add_cancel h).symm⟩

/-- What a first byte promises: its own bits, the range for the bits of the second byte, and how
many bytes follow. -/
inductive Leads : UInt8 → (bits lo hi tails : Nat) → Prop where
  | two {a : Nat} : 2 ≤ a → a < 0x20 → Leads (.ofNat (a + 0xc0)) a 0 0x3f 1
  | three {a : Nat} : a < 0x10 →
      Leads (.ofNat (a + 0xe0)) a (if a = 0 then 0x20 else 0) (if a = 13 then 0x1f else 0x3f) 2
  | four {a : Nat} : a ≤ 4 →
      Leads (.ofNat (a + 0xf0)) a (if a = 0 then 0x10 else 0) (if a = 4 then 0x0f else 0x3f) 3

theorem Leads.lead? {b : UInt8} {bits lo hi tails : Nat} (h : Leads b bits lo hi tails) :
    lead? b = some ⟨bits, tailByte lo, tailByte hi, tails⟩ := by
  cases h with
  | two h2 ha =>
    have hb := UInt8.toNat_ofNat_of_lt' (show bits + 0xc0 < 0x100 by omega)
    simp only [Text.lead?, UInt8.lt_iff_toNat_lt, hb, UInt8.reduceToNat]
    rw [if_neg (by omega), if_pos (by omega), Nat.add_sub_cancel]
    rfl
  | three ha =>
    have hb := UInt8.toNat_ofNat_of_lt' (show bits + 0xe0 < 0x100 by omega)
    simp only [Text.lead?, UInt8.lt_iff_toNat_lt, ← UInt8.toNat_inj, hb, UInt8.reduceToNat]
    rw [if_neg (by omega), if_neg (by omega)]
    by_cases h0 : bits = 0
    · simp [h0, tailByte]
    by_cases h13 : bits = 13
    · simp [h13, tailByte]
    rw [if_neg (by omega), if_neg (by omega), if_pos (by omega), if_neg h0, if_neg h13,
      Nat.add_sub_cancel]
    rfl
  | four ha =>
    have hb := UInt8.toNat_ofNat_of_lt' (show bits + 0xf0 < 0x100 by omega)
    simp only [Text.lead?, UInt8.lt_iff_toNat_lt, ← UInt8.toNat_inj, hb, UInt8.reduceToNat]
    rw [if_neg (by omega), if_neg (by omega), if_neg (by omega), if_neg (by omega),
      if_neg (by omega)]
    by_cases h0 : bits = 0
    · simp [h0, tailByte]
    by_cases h4 : bits = 4
    · simp [h4, tailByte]
    rw [if_neg (by omega), if_pos (by omega), if_neg h0, if_neg h4, Nat.add_sub_cancel]
    rfl

theorem lead?_eq_none {b : UInt8} (h : b.toNat < 0xc2 ∨ 0xf4 < b.toNat) : lead? b = none := by
  simp only [lead?, UInt8.lt_iff_toNat_lt, ← UInt8.toNat_inj, UInt8.reduceToNat]
  split
  · rfl
  rw [if_neg (by omega), if_neg (by omega), if_neg (by omega), if_neg (by omega), if_neg (by omega),
    if_neg (by omega), if_neg (by omega)]

/-- A byte is an ASCII character, promises something, or begins nothing. -/
theorem firstByte_cases (b : UInt8) :
    (∃ a, a < 0x80 ∧ b = .ofNat a) ∨ (∃ bits lo hi tails, Leads b bits lo hi tails) ∨
      (¬ b < 0x80 ∧ lead? b = none) := by
  have hmark (mark : Nat) := @exists_eq_ofNat_add b mark
  by_cases hascii : b.toNat < 0x80
  · exact .inl ⟨b.toNat, hascii, UInt8.ofNat_toNat.symm⟩
  by_cases hnone : b.toNat < 0xc2 ∨ 0xf4 < b.toNat
  · exact .inr (.inr ⟨mt UInt8.lt_iff_toNat_lt.1 hascii, lead?_eq_none hnone⟩)
  refine .inr (.inl ?_)
  by_cases htwo : b.toNat < 0xe0
  · obtain ⟨a, rfl, ha⟩ := hmark 0xc0 (by omega)
    exact ⟨_, _, _, _, .two (by omega) (by omega)⟩
  by_cases hthree : b.toNat < 0xf0
  · obtain ⟨a, rfl, ha⟩ := hmark 0xe0 (by omega)
    exact ⟨_, _, _, _, .three (by omega)⟩
  · obtain ⟨a, rfl, ha⟩ := hmark 0xf0 (by omega)
    exact ⟨_, _, _, _, .four (by omega)⟩

theorem Leads.not_ascii {b : UInt8} {bits lo hi tails : Nat} (h : Leads b bits lo hi tails) :
    ¬ b < 0x80 := by
  rw [UInt8.lt_iff_toNat_lt]
  cases h <;> rw [UInt8.toNat_ofNat_of_lt' (show _ < 0x100 by omega)] <;>
    simp only [UInt8.reduceToNat] <;> omega

/-- The second of three bytes rules out shorter sequences and surrogates. -/
theorem three_range_iff {a t : Nat} :
    ((if a = 0 then 0x20 else 0) ≤ t ∧ t ≤ if a = 13 then 0x1f else 0x3f) ↔
      t < 0x40 ∧ (a = 0 → 0x20 ≤ t) ∧ (a = 13 → t < 0x20) := by
  split <;> split <;> omega

/-- The second of four bytes rules out shorter sequences and numbers above U+10FFFF. -/
theorem four_range_iff {a t : Nat} :
    ((if a = 0 then 0x10 else 0) ≤ t ∧ t ≤ if a = 4 then 0x0f else 0x3f) ↔
      t < 0x40 ∧ (a = 0 → 0x10 ≤ t) ∧ (a = 4 → t < 0x10) := by
  split <;> split <;> omega

theorem Leads.range {b : UInt8} {bits lo hi tails : Nat} (h : Leads b bits lo hi tails) :
    lo < 0x40 ∧ hi < 0x40 := by
  cases h with
  | two => decide
  | three => exact ⟨by split <;> decide, by split <;> decide⟩
  | four => exact ⟨by split <;> decide, by split <;> decide⟩

/-! ## The bytes after the first -/

section Tails
variable {code n lo hi code' : Nat} {bytes rest : List UInt8}

/-- One more byte is read if it continues the sequence with bits within the range. -/
theorem readTails_succ_eq_ok_iff (hlo : lo < 0x40) (hhi : hi < 0x40) :
    readTails code (tailByte lo) (tailByte hi) (n + 1) bytes = .ok (code', rest) ↔
      ∃ t bytes', (lo ≤ t ∧ t ≤ hi) ∧ bytes = tailByte t :: bytes' ∧
        readTails (64 * code + t) (tailByte 0) (tailByte 0x3f) n bytes' = .ok (code', rest) := by
  cases bytes with
  | nil => simp [readTails]
  | cons b bytes =>
    simp only [readTails, Bool.and_eq_true, decide_eq_true_eq, UInt8.le_iff_toNat_le,
      toNat_tailByte hlo, toNat_tailByte hhi]
    constructor
    · intro h
      split at h
      · next hb =>
        obtain ⟨t, rfl, ht⟩ := exists_eq_ofNat_add (show 0x80 ≤ b.toNat by omega)
        rw [ht, Nat.add_sub_cancel] at h
        exact ⟨t, bytes, by omega, rfl, h⟩
      · cases h
    · rintro ⟨t, bytes', hrange, hbytes, h⟩
      obtain ⟨rfl, rfl⟩ := List.cons.inj hbytes
      rw [toNat_tailByte (by omega), if_pos ⟨by omega, by omega⟩, Nat.add_sub_cancel]
      exact h

theorem readTails_one_eq_ok_iff (hlo : lo < 0x40) (hhi : hi < 0x40) :
    readTails code (tailByte lo) (tailByte hi) 1 bytes = .ok (code', rest) ↔
      ∃ t, (lo ≤ t ∧ t ≤ hi) ∧ bytes = tailByte t :: rest ∧ 64 * code + t = code' := by
  rw [readTails_succ_eq_ok_iff hlo hhi]
  simp only [readTails, Except.ok.injEq, Prod.mk.injEq]
  constructor
  · rintro ⟨t, _, ht, rfl, rfl, rfl⟩
    exact ⟨t, ht, rfl, rfl⟩
  · rintro ⟨t, ht, rfl, rfl⟩
    exact ⟨t, rest, ht, rfl, rfl, rfl⟩

theorem readTails_two_eq_ok_iff (hlo : lo < 0x40) (hhi : hi < 0x40) :
    readTails code (tailByte lo) (tailByte hi) 2 bytes = .ok (code', rest) ↔
      ∃ t u, (lo ≤ t ∧ t ≤ hi) ∧ u < 0x40 ∧ bytes = tailByte t :: tailByte u :: rest ∧
        64 * (64 * code + t) + u = code' := by
  rw [readTails_succ_eq_ok_iff hlo hhi]
  simp only [readTails_one_eq_ok_iff (show 0 < 0x40 by decide) (show 0x3f < 0x40 by decide)]
  constructor
  · rintro ⟨t, _, ht, rfl, u, hu, rfl, rfl⟩
    exact ⟨t, u, ht, by omega, rfl, rfl⟩
  · rintro ⟨t, u, ht, hu, rfl, rfl⟩
    exact ⟨t, _, ht, rfl, u, by omega, rfl, rfl⟩

theorem readTails_three_eq_ok_iff (hlo : lo < 0x40) (hhi : hi < 0x40) :
    readTails code (tailByte lo) (tailByte hi) 3 bytes = .ok (code', rest) ↔
      ∃ t u v, (lo ≤ t ∧ t ≤ hi) ∧ u < 0x40 ∧ v < 0x40 ∧
        bytes = tailByte t :: tailByte u :: tailByte v :: rest ∧
        64 * (64 * (64 * code + t) + u) + v = code' := by
  rw [readTails_succ_eq_ok_iff hlo hhi]
  simp only [readTails_two_eq_ok_iff (show 0 < 0x40 by decide) (show 0x3f < 0x40 by decide)]
  constructor
  · rintro ⟨t, _, ht, rfl, u, v, hu, hv, rfl, rfl⟩
    exact ⟨t, u, v, ht, by omega, hv, rfl, rfl⟩
  · rintro ⟨t, u, v, ht, hu, hv, rfl, rfl⟩
    exact ⟨t, _, ht, rfl, u, v, by omega, hv, rfl, rfl⟩

end Tails

/-! ## The first character -/

theorem nextChar_ascii {a : Nat} (ha : a < 0x80) (bytes : List UInt8) :
    nextChar (.ofNat a) bytes = .ok (Char.ofNat a, bytes) := by
  have hascii : UInt8.ofNat a < 0x80 := by
    rw [UInt8.lt_iff_toNat_lt, UInt8.toNat_ofNat_of_lt' (show _ < 0x100 by omega)]
    exact ha
  rw [nextChar, if_pos hascii, UInt8.toNat_ofNat_of_lt' (show _ < 0x100 by omega)]

theorem Leads.nextChar_eq_ok_iff {b : UInt8} {bits lo hi tails : Nat} {bytes rest : List UInt8}
    {c : Char} (h : Leads b bits lo hi tails) : nextChar b bytes = .ok (c, rest) ↔
      ∃ code, readTails bits (tailByte lo) (tailByte hi) tails bytes = .ok (code, rest) ∧
        Char.ofNat code = c := by
  simp only [nextChar, if_neg h.not_ascii, h.lead?]
  cases readTails bits (tailByte lo) (tailByte hi) tails bytes with
  | error _ => simp
  | ok read => simp [Prod.ext_iff, and_assoc, and_comm]

/-- What is read as a character is a well-formed sequence. -/
theorem exists_encodes_of_nextChar {b : UInt8} {bytes rest : List UInt8} {c : Char}
    (h : nextChar b bytes = .ok (c, rest)) :
    ∃ seq code, Encodes seq code ∧ Char.ofNat code = c ∧ b :: bytes = seq ++ rest := by
  rcases firstByte_cases b with ⟨a, ha, rfl⟩ | ⟨bits, lo, hi, tails, hleads⟩ | ⟨hascii, hnone⟩
  · rw [nextChar_ascii ha] at h
    obtain ⟨rfl, rfl⟩ := Prod.mk.inj (Except.ok.inj h)
    have hencodes := (Spells.one ha).encodes (Nat.zero_le a) (.inl (by omega))
    exact ⟨_, a, hencodes, rfl, rfl⟩
  · rw [hleads.nextChar_eq_ok_iff] at h
    obtain ⟨code, h, hc⟩ := h
    obtain ⟨hlo, hhi⟩ := hleads.range
    cases hleads with
    | two h2 ha =>
      obtain ⟨t, ht, rfl, rfl⟩ := (readTails_one_eq_ok_iff hlo hhi).1 h
      have hroom : 0x80 ≤ 64 * bits + t := by omega
      have hscalar : IsScalar (64 * bits + t) := by unfold IsScalar; omega
      exact ⟨_, _, (Spells.two ha (by omega)).encodes hroom hscalar, hc, rfl⟩
    | three ha =>
      obtain ⟨t, u, ht, hu, rfl, rfl⟩ := (readTails_two_eq_ok_iff hlo hhi).1 h
      rw [three_range_iff] at ht
      have hroom : 0x800 ≤ 64 * (64 * bits + t) + u := by omega
      have hscalar : IsScalar (64 * (64 * bits + t) + u) := by unfold IsScalar; omega
      exact ⟨_, _, (Spells.three ha ht.1 hu).encodes hroom hscalar, hc, rfl⟩
    | four ha =>
      obtain ⟨t, u, v, ht, hu, hv, rfl, rfl⟩ := (readTails_three_eq_ok_iff hlo hhi).1 h
      rw [four_range_iff] at ht
      have hroom : 0x10000 ≤ 64 * (64 * (64 * bits + t) + u) + v := by omega
      have hscalar : IsScalar (64 * (64 * (64 * bits + t) + u) + v) := by unfold IsScalar; omega
      exact ⟨_, _, (Spells.four (by omega) ht.1 hu hv).encodes hroom hscalar, hc, rfl⟩
  · simp only [nextChar, if_neg hascii, hnone] at h
    cases h

/-- The encoding of a character is read back. -/
theorem nextChar_of_encoding {b : UInt8} {bytes rest : List UInt8} {c : Char}
    (heq : b :: bytes = String.utf8EncodeChar c ++ rest) : nextChar b bytes = .ok (c, rest) := by
  obtain ⟨hspells, hroom⟩ := spells_utf8EncodeChar c
  have hscalar := isScalar_toNat c
  have hc := Char.ofNat_toNat c
  unfold IsScalar at hscalar
  generalize String.utf8EncodeChar c = seq at *
  generalize c.toNat = code at *
  cases hspells with
  | one ha =>
    obtain ⟨rfl, rfl⟩ := List.cons.inj heq
    rw [nextChar_ascii ha, hc]
  | @two a t ha ht =>
    obtain ⟨rfl, rfl⟩ := List.cons.inj heq
    have hroom : 0x80 ≤ 64 * a + t := hroom
    have hleads := Leads.two (show 2 ≤ a by omega) ha
    refine hleads.nextChar_eq_ok_iff.2 ⟨_, ?_, hc⟩
    exact (readTails_one_eq_ok_iff hleads.range.1 hleads.range.2).2 ⟨t, by omega, rfl, rfl⟩
  | @three a t u ha ht hu =>
    obtain ⟨rfl, rfl⟩ := List.cons.inj heq
    have hroom : 0x800 ≤ 64 * (64 * a + t) + u := hroom
    have hleads := Leads.three ha
    refine hleads.nextChar_eq_ok_iff.2 ⟨_, ?_, hc⟩
    exact (readTails_two_eq_ok_iff hleads.range.1 hleads.range.2).2
      ⟨t, u, three_range_iff.2 (by omega), hu, rfl, rfl⟩
  | @four a t u v ha ht hu hv =>
    obtain ⟨rfl, rfl⟩ := List.cons.inj heq
    have hroom : 0x10000 ≤ 64 * (64 * (64 * a + t) + u) + v := hroom
    have hleads := Leads.four (show a ≤ 4 by omega)
    refine hleads.nextChar_eq_ok_iff.2 ⟨_, ?_, hc⟩
    exact (readTails_three_eq_ok_iff hleads.range.1 hleads.range.2).2
      ⟨t, u, v, four_range_iff.2 (by omega), hu, hv, rfl, rfl⟩

/-- A first character is read exactly where its encoding stands. -/
theorem nextChar_eq_ok_iff {b : UInt8} {bytes rest : List UInt8} {c : Char} :
    nextChar b bytes = .ok (c, rest) ↔ b :: bytes = String.utf8EncodeChar c ++ rest := by
  constructor
  · intro h
    obtain ⟨seq, code, hencodes, rfl, heq⟩ := exists_encodes_of_nextChar h
    rw [heq, hencodes.eq_utf8EncodeChar]
  · exact nextChar_of_encoding

/-! ## Whole texts -/

/-- The bytes of a text. -/
def encoded (cs : List Char) : List UInt8 := cs.flatMap String.utf8EncodeChar

/-- Whether no character stands at the start of some bytes. -/
def Stuck (bytes : List UInt8) : Prop := ∀ c rest, bytes ≠ String.utf8EncodeChar c ++ rest

theorem encoded_cons (c : Char) (cs : List Char) :
    encoded (c :: cs) = String.utf8EncodeChar c ++ encoded cs := List.flatMap_cons

theorem exists_utf8EncodeChar_cons (c : Char) : ∃ b bytes, String.utf8EncodeChar c = b :: bytes :=
  List.exists_cons_of_ne_nil String.utf8EncodeChar_ne_nil

theorem stuck_nil : Stuck [] := by
  intro c rest h
  obtain ⟨b, bytes, hc⟩ := exists_utf8EncodeChar_cons c
  rw [hc] at h
  cases h

/-- No encoding is the start of another. -/
theorem utf8EncodeChar_append_inj {c d : Char} {x y : List UInt8}
    (h : String.utf8EncodeChar c ++ x = String.utf8EncodeChar d ++ y) : c = d ∧ x = y := by
  obtain ⟨b, bytes, hc⟩ := exists_utf8EncodeChar_cons c
  have hx : nextChar b (bytes ++ x) = .ok (c, x) := nextChar_eq_ok_iff.2 (by rw [hc]; rfl)
  have hy : nextChar b (bytes ++ x) = .ok (d, y) := nextChar_eq_ok_iff.2 (by rw [← h, hc]; rfl)
  exact Prod.mk.inj (Except.ok.inj (hx.symm.trans hy))

/-- Bytes are cut in one way into a text and bytes that begin with no character. -/
theorem encoded_append_inj {cs ds : List Char} {x y : List UInt8}
    (h : encoded cs ++ x = encoded ds ++ y) (hx : Stuck x) (hy : Stuck y) : cs = ds ∧ x = y := by
  induction cs generalizing ds with
  | nil =>
    cases ds with
    | nil => exact ⟨rfl, h⟩
    | cons d ds =>
      rw [encoded_cons, List.append_assoc] at h
      exact absurd h (hx d _)
  | cons c cs ih =>
    cases ds with
    | nil =>
      rw [encoded_cons, List.append_assoc] at h
      exact absurd h.symm (hy c _)
    | cons d ds =>
      rw [encoded_cons, encoded_cons, List.append_assoc, List.append_assoc] at h
      obtain ⟨rfl, hrest⟩ := utf8EncodeChar_append_inj h
      obtain ⟨rfl, rfl⟩ := ih hrest
      exact ⟨rfl, rfl⟩

/-- With as many steps as there are bytes, decoding ends where no character stands. -/
theorem decodeFrom_spec (fuel : Nat) : ∀ {bytes : List UInt8} (out : List Char),
    bytes.length ≤ fuel → ∃ cs rest, decodeFrom out fuel bytes = (out.reverse ++ cs, rest) ∧
      bytes = encoded cs ++ rest ∧ Stuck rest := by
  induction fuel with
  | zero =>
    intro bytes out hlength
    obtain rfl := List.length_eq_zero_iff.1 (Nat.le_zero.1 hlength)
    exact ⟨[], [], by simp [decodeFrom], rfl, stuck_nil⟩
  | succ fuel ih =>
    intro bytes out hlength
    cases bytes with
    | nil => exact ⟨[], [], by simp [decodeFrom], rfl, stuck_nil⟩
    | cons b bytes =>
      cases hnext : nextChar b bytes with
      | error left =>
        refine ⟨[], b :: bytes, by simp [decodeFrom, hnext], rfl, fun c rest heq => ?_⟩
        rw [nextChar_of_encoding heq] at hnext
        cases hnext
      | ok read =>
        obtain ⟨c, left⟩ := read
        have heq := nextChar_eq_ok_iff.1 hnext
        have hshorter : left.length ≤ fuel := by
          obtain ⟨first, more, hc⟩ := exists_utf8EncodeChar_cons c
          have := congrArg List.length heq
          rw [hc, List.length_append, List.length_cons, List.length_cons] at this
          rw [List.length_cons] at hlength
          omega
        obtain ⟨cs, rest, hrun, hleft, hstuck⟩ := ih (c :: out) hshorter
        refine ⟨c :: cs, rest, ?_, ?_, hstuck⟩
        · simp [decodeFrom, hnext, hrun]
        · rw [heq, hleft, encoded_cons, List.append_assoc]

/-- Decoding takes characters off the start until none stands there. -/
theorem decodeUtf8_eq_iff {bytes rest : List UInt8} {cs : List Char} :
    decodeUtf8 bytes = (cs, rest) ↔ bytes = encoded cs ++ rest ∧ Stuck rest := by
  obtain ⟨ds, left, hrun, hbytes, hstuck⟩ := decodeFrom_spec bytes.length [] (Nat.le_refl _)
  rw [decodeUtf8, hrun, List.reverse_nil, List.nil_append]
  constructor
  · intro h
    obtain ⟨rfl, rfl⟩ := Prod.mk.inj h
    exact ⟨hbytes, hstuck⟩
  · rintro ⟨heq, hrest⟩
    obtain ⟨rfl, rfl⟩ := encoded_append_inj (hbytes.symm.trans heq) hstuck hrest
    rfl

theorem decodeUtf8_eq_nil_iff {bytes : List UInt8} {cs : List Char} :
    decodeUtf8 bytes = (cs, []) ↔ encoded cs = bytes := by
  rw [decodeUtf8_eq_iff, List.append_nil]
  exact ⟨fun h => h.1.symm, fun h => ⟨h.symm, stuck_nil⟩⟩

/-- The well-formed bytes are those of texts. -/
theorem wellFormed_iff {bytes : List UInt8} : WellFormed bytes ↔ ∃ cs, encoded cs = bytes := by
  constructor
  · intro h
    induction h with
    | nil => exact ⟨[], rfl⟩
    | @cons seq rest code hencodes _ ih =>
      obtain ⟨cs, rfl⟩ := ih
      exact ⟨Char.ofNat code :: cs, by rw [encoded_cons, hencodes.eq_utf8EncodeChar]⟩
  · rintro ⟨cs, rfl⟩
    induction cs with
    | nil => exact .nil
    | cons c cs ih => exact .cons (encodes_toNat_iff.2 rfl) ih

/-- Whether some bytes are the longest well-formed start of others. -/
structure LongestStart (good bytes : List UInt8) : Prop where
  isPrefix : good <+: bytes
  wellFormed : WellFormed good
  longest : ∀ other, other <+: bytes → WellFormed other → other.length ≤ good.length

/-- Decoding goes to the end of the longest well-formed start. -/
theorem longestStart_decodeUtf8 {bytes rest : List UInt8} {cs : List Char}
    (h : decodeUtf8 bytes = (cs, rest)) : LongestStart (encoded cs) bytes := by
  obtain ⟨hbytes, hstuck⟩ := decodeUtf8_eq_iff.1 h
  refine ⟨⟨rest, hbytes.symm⟩, wellFormed_iff.2 ⟨cs, rfl⟩, ?_⟩
  rintro other ⟨more, hother⟩ hwell
  obtain ⟨ds, rfl⟩ := wellFormed_iff.1 hwell
  -- What follows the other start is decoded in turn, so the two texts begin alike.
  obtain ⟨⟨es, left⟩, hmore⟩ : ∃ read, decodeUtf8 more = read := ⟨_, rfl⟩
  obtain ⟨rfl, hleft⟩ := decodeUtf8_eq_iff.1 hmore
  have hsame : encoded cs ++ rest = encoded (ds ++ es) ++ left := by
    rw [← hbytes, ← hother]
    simp [encoded]
  obtain ⟨rfl, -⟩ := encoded_append_inj hsame hstuck hleft
  simp [encoded]

/-! ## Line feeds -/

/-- Only ASCII characters have bytes below 0x80. -/
theorem Spells.high {seq : List UInt8} {code : Nat} (h : Spells seq code) (hcode : 0x80 ≤ code) :
    ∀ b ∈ seq, 0x80 ≤ b.toNat := by
  have htail {t : Nat} (ht : t < 0x40) : 0x80 ≤ (tailByte t).toNat := by
    rw [toNat_tailByte ht]
    omega
  have hlead {a mark : Nat} (hmark : 0x80 ≤ mark) (h : a + mark < 0x100) :
      0x80 ≤ (UInt8.ofNat (a + mark)).toNat := by
    rw [UInt8.toNat_ofNat_of_lt' h]
    omega
  cases h with
  | one ha => omega
  | two ha hb =>
    simp only [List.forall_mem_cons, List.not_mem_nil, false_imp_iff, implies_true, and_true]
    exact ⟨hlead (by decide) (by omega), htail hb⟩
  | three ha hb hc =>
    simp only [List.forall_mem_cons, List.not_mem_nil, false_imp_iff, implies_true, and_true]
    exact ⟨hlead (by decide) (by omega), htail hb, htail hc⟩
  | four ha hb hc hd =>
    simp only [List.forall_mem_cons, List.not_mem_nil, false_imp_iff, implies_true, and_true]
    exact ⟨hlead (by decide) (by omega), htail hb, htail hc, htail hd⟩

theorem utf8EncodeChar_ascii {c : Char} (h : c.toNat < 0x80) :
    String.utf8EncodeChar c = [.ofNat c.toNat] :=
  (encodes_toNat_iff.1 ((Spells.one h).encodes (Nat.zero_le _) (isScalar_toNat c))).symm

/-- A line feed is one byte, which stands in no other sequence. -/
theorem count_utf8EncodeChar (c : Char) :
    (String.utf8EncodeChar c).count 0x0a = [c].count '\n' := by
  by_cases hascii : c.toNat < 0x80
  · have hfeed : UInt8.ofNat c.toNat = 0x0a ↔ c = '\n' := by
      rw [← UInt8.toNat_inj, UInt8.toNat_ofNat_of_lt' (show _ < 0x100 by omega)]
      exact Char.toNat_inj (d := '\n')
    rw [utf8EncodeChar_ascii hascii, List.count_singleton, List.count_singleton]
    simp only [beq_iff_eq, hfeed]
  · have hhigh := (spells_utf8EncodeChar c).1.high (Nat.not_lt.1 hascii)
    have hfeed : 0x0a ∉ String.utf8EncodeChar c := fun hmem => absurd (hhigh _ hmem) (by decide)
    have hc : '\n' ∉ [c] := by
      intro hmem
      rw [← List.mem_singleton.1 hmem] at hascii
      exact hascii (by decide)
    rw [List.count_eq_zero.2 hfeed, List.count_eq_zero.2 hc]

theorem count_encoded (cs : List Char) : (encoded cs).count 0x0a = countFeeds cs := by
  induction cs with
  | nil => rfl
  | cons c cs ih =>
    rw [encoded_cons, List.count_append, count_utf8EncodeChar, ih, countFeeds, countFeeds,
      ← List.count_append, List.singleton_append]

end StaleDocs.Text
