/-
The text of a diff's bytes. It is read exactly if the bytes are well-formed
UTF-8, and then it is the one text with these bytes; else the fault lies on the
line where the longest well-formed start ends (`decode_exact`).
-/
import StaleDocs.Diff.Parser
import StaleDocs.Proofs.Text.Encoding

namespace StaleDocs.Diff
open Text (LongestStart WellFormed decodeUtf8 encoded)

theorem toUTF8_toList (text : String) : text.toUTF8.data.toList = encoded text.toList := by
  have hutf8 : text.toUTF8 = text.toList.utf8Encode := by
    rw [String.toUTF8_eq_toByteArray, ← String.toByteArray_ofList, String.ofList_toList]
  rw [hutf8, List.utf8Encode, List.toList_data_toByteArray, encoded]

theorem decode_of_decodeUtf8_nil {bytes : List UInt8} {cs : List Char}
    (h : decodeUtf8 bytes = (cs, [])) : decode bytes = .ok (String.ofList cs) := by
  rw [decode, h]

theorem decode_of_decodeUtf8_cons {bytes rest : List UInt8} {cs : List Char} {b : UInt8}
    (h : decodeUtf8 bytes = (cs, b :: rest)) :
    decode bytes = .error ⟨Text.countFeeds cs + 1, .encoding⟩ := by
  rw [decode, h]

theorem decode_eq_ok_iff {bytes : List UInt8} {text : String} :
    decode bytes = .ok text ↔ text.toUTF8.data.toList = bytes := by
  rw [toUTF8_toList, ← Text.decodeUtf8_eq_nil_iff]
  obtain ⟨⟨cs, rest⟩, hread⟩ : ∃ read, decodeUtf8 bytes = read := ⟨_, rfl⟩
  cases rest with
  | nil =>
    rw [decode_of_decodeUtf8_nil hread, hread]
    simp [← String.toList_inj]
  | cons b rest =>
    rw [decode_of_decodeUtf8_cons hread, hread]
    simp

/-- **Bytes are read without loss or not at all.** There is a text exactly if the bytes are
well-formed UTF-8; a text is read from its own bytes and no others; and other bytes are refused on
the line that follows as many line feeds as the longest well-formed start holds. -/
theorem decode_exact (bytes : List UInt8) :
    ((∃ text, decode bytes = .ok text) ↔ WellFormed bytes) ∧
    (∀ text, decode bytes = .ok text ↔ text.toUTF8.data.toList = bytes) ∧
    (¬ WellFormed bytes → ∃ good, LongestStart good bytes ∧
      decode bytes = .error ⟨1 + good.count 0x0a, .encoding⟩) := by
  have hwell : (∃ text, decode bytes = .ok text) ↔ WellFormed bytes := by
    simp only [decode_eq_ok_iff, toUTF8_toList, Text.wellFormed_iff]
    constructor
    · rintro ⟨text, rfl⟩
      exact ⟨text.toList, rfl⟩
    · rintro ⟨cs, rfl⟩
      exact ⟨String.ofList cs, by rw [String.toList_ofList]⟩
  refine ⟨hwell, fun text => decode_eq_ok_iff, fun hbad => ?_⟩
  obtain ⟨⟨cs, rest⟩, hread⟩ : ∃ read, decodeUtf8 bytes = read := ⟨_, rfl⟩
  refine ⟨encoded cs, Text.longestStart_decodeUtf8 hread, ?_⟩
  cases rest with
  | nil => exact absurd (hwell.1 ⟨_, decode_of_decodeUtf8_nil hread⟩) hbad
  | cons b rest => rw [decode_of_decodeUtf8_cons hread, Text.count_encoded, Nat.add_comm]

/-- A line, and the start of another that ends within a character of three bytes. -/
def cutCharacter : List UInt8 := [0x2b, 0xc3, 0xa9, 0x0a, 0x2b, 0xe2, 0x82]

theorem decode_exact_cutCharacter :
    ¬ WellFormed cutCharacter ∧ ∃ good, LongestStart good cutCharacter ∧
      decode cutCharacter = .error ⟨1 + good.count 0x0a, .encoding⟩ ∧
      1 + good.count 0x0a = 2 := by
  obtain ⟨hwell, -, hfault⟩ := decode_exact cutCharacter
  have hread : decodeUtf8 cutCharacter = (['+', 'é', '\n', '+'], [0xe2, 0x82]) := by decide +kernel
  have hline : decode cutCharacter = .error ⟨2, .encoding⟩ := decode_of_decodeUtf8_cons hread
  have hbad : ¬ WellFormed cutCharacter := by
    intro h
    obtain ⟨text, htext⟩ := hwell.2 h
    rw [hline] at htext
    cases htext
  obtain ⟨good, hgood, herror⟩ := hfault hbad
  refine ⟨hbad, good, hgood, herror, ?_⟩
  rw [hline] at herror
  exact (congrArg Malformed.line (Except.error.inj herror)).symm

/-- A longer sequence than needed, a surrogate, and a number above the last character's. -/
example : [[0xc1, 0x81], [0xed, 0xa0, 0x80], [0xf4, 0x90, 0x80, 0x80]].map decode =
    List.replicate 3 (.error ⟨1, .encoding⟩) := rfl

end StaleDocs.Diff
