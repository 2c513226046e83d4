/-
Records that survive being written and read. A record is read by the names of
its members, of which each stands once (`fields?_record`), so that it only
matters that each field is read from what is written for it, and that a field
that is left out has the value that is written so. For each kind of record
this is told of its value (`ofJson?_toJson`), given that the `numbers` and the
`floats` of the record are read back; that the value survives its text is told
once, of all values that are written (`survives`).
-/
import StaleDocs.Check.Result
import StaleDocs.Proofs.Json.RoundTrip
import StaleDocs.Proofs.Lists

namespace StaleDocs

namespace Json

/-! ## Fields -/

theorem lookup_cons_ite (name n : String) (v : Value) (ms : List (String × Value)) :
    ((name, v) :: ms).lookup n = if n = name then some v else ms.lookup n := by
  by_cases h : n = name
  · simp [h]
  · simp [List.lookup_cons, beq_eq_false_iff_ne.2 h, h]

/-- A record whose names differ is read by its names. -/
theorem fields?_record (names : List String) {members : List (String × Value)}
    (h : (members.map Prod.fst).Nodup) :
    fields? names (.record members) = some (names.map fun n => members.lookup n) := by
  change Record.collect names (members.map fun m => (some m.1, m.2)) = _
  induction members with
  | nil => simp [Record.collect]
  | cons m ms ih =>
    obtain ⟨name, v⟩ := m
    obtain ⟨hname, hms⟩ := List.nodup_cons.1 h
    -- The name is new, so that no later member repeats it.
    have honce : (ms.map fun m => (some m.1, m.2)).any (·.1 == some name) = false := by
      rw [List.any_eq_false]
      intro w hw heq
      obtain ⟨m, hm, rfl⟩ := List.mem_map.1 hw
      exact hname (List.mem_map.2 ⟨m, hm, by simpa using heq⟩)
    rw [List.map_cons, Record.collect, ih hms]
    by_cases hmem : name ∈ names
    · simp [hmem, honce, map_zip_map, lookup_cons_ite]
    · have hother : names.map (fun n => ms.lookup n) =
          names.map fun n => ((name, v) :: ms).lookup n := by
        refine List.map_congr_left fun n hn => ?_
        rw [lookup_cons_ite, if_neg (ne_of_mem_of_not_mem hn hmem)]
      simp [hmem, hother]

theorem readList_writeList {α : Type} {read : Read α} {write : α → Value} {xs : List α}
    (h : ∀ x ∈ xs, read (write x) = some x) : readList read (writeList write xs) = some xs := by
  change (xs.map write).mapM read = some xs
  induction xs with
  | nil => rfl
  | cons x xs ih =>
    rw [List.forall_mem_cons] at h
    simp [h.1, ih h.2]

theorem readText_text (s : String) : readText (.text s) = some s := rfl

theorem readList_texts (texts : List String) :
    readList readText (writeList .text texts) = some texts :=
  readList_writeList fun s _ => readText_text s

/-- Whether a value is read back from both texts that are written for it. -/
def Survives {α : Type} (write : α → Value) (read : Read α) (x : α) : Prop :=
  (Value.parse? (write x).render).bind read = some x ∧
    (Value.parse? (write x).pretty).bind read = some x

/-- A value survives its text if it survives being made a JSON value. -/
theorem survives {α : Type} {write : α → Value} {read : Read α} {x : α} (hw : (write x).Written)
    (hr : read (write x) = some x) : Survives write read x := by
  rw [Survives, parse?_render hw, parse?_pretty hw]
  exact ⟨hr, hr⟩

/-- Whether a double is read back from its own text, which is to say that it is finite and the
number written for it is rounded to it again. -/
def FloatSurvives (y : Float) : Prop :=
  (Value.parse? (Value.ofFloat y).render).bind readFloat = some y

instance : DecidablePred FloatSurvives := fun y =>
  inferInstanceAs (Decidable ((Value.parse? (Value.ofFloat y).render).bind readFloat = some y))

theorem FloatSurvives.readFloat {y : Float} (h : FloatSurvives y) :
    readFloat (.ofFloat y) = some y := by
  rwa [FloatSurvives, parse?_render (written_ofFloat y)] at h

theorem written_writeList {α : Type} {write : α → Value} {xs : List α}
    (h : ∀ x ∈ xs, (write x).Written) : (writeList write xs).Written :=
  .array (List.forall_mem_map.2 h)

end Json

/-! ## Kinds of record -/

open Json
open Text (maxWord)

/-! ### Changed files -/

namespace Diff

theorem ChangeKind.ofJson?_toJson (k : ChangeKind) : ofJson? k.toJson = some k := by
  cases k <;> rfl

def Hunk.numbers (h : Hunk) : List Nat := [h.oldStart, h.oldCount, h.newStart, h.newCount]

theorem Hunk.written_toJson (h : Hunk) : h.toJson.Written :=
  .record (by simp [written_ofNat])

theorem Hunk.ofJson?_toJson {h : Hunk} (hn : ∀ n ∈ h.numbers, readNat (.ofNat n) = some n) :
    ofJson? h.toJson = some h := by
  simp only [numbers, List.forall_mem_cons] at hn
  rw [ofJson?, toJson, fields?_record _ (by simp)]
  simp [List.lookup_cons, Record.required, hn]

/-- A list of texts is left out only where it is empty. -/
theorem textsField_cases (name : String) (texts : List String) :
    texts = [] ∧ textsField name texts = [] ∨
      textsField name texts = [(name, writeList .text texts)] := by
  cases texts with
  | nil => exact .inl ⟨rfl, rfl⟩
  | cons s ss => exact .inr rfl

theorem written_textsField (name : String) (texts : List String) :
    ∀ m ∈ textsField name texts, m.2.Written := by
  rcases textsField_cases name texts with ⟨-, h⟩ | h <;> rw [h]
  · simp
  · simpa using written_writeList fun s _ => .text s

def FileChange.numbers (c : FileChange) : List Nat := c.hunks.flatMap Hunk.numbers

theorem FileChange.written_toJson (c : FileChange) : c.toJson.Written :=
  .record (List.forall_mem_append.2 ⟨List.forall_mem_append.2 ⟨by
    simp [Value.Written.text, ChangeKind.toJson, written_writeList, Hunk.written_toJson],
    written_textsField _ _⟩, written_textsField _ _⟩)

theorem FileChange.ofJson?_toJson {c : FileChange}
    (hn : ∀ n ∈ c.numbers, readNat (.ofNat n) = some n) : ofJson? c.toJson = some c := by
  have hhunks : readList Hunk.ofJson? (writeList Hunk.toJson c.hunks) = some c.hunks :=
    readList_writeList fun h hh => Hunk.ofJson?_toJson fun n hmem =>
      hn n (List.mem_flatMap.2 ⟨h, hh, hmem⟩)
  obtain ⟨oldPath, newPath, kind, hunks, added, removed⟩ := c
  have hkind := ChangeKind.ofJson?_toJson kind
  rcases textsField_cases "added_lines" added with ⟨rfl, hadded⟩ | hadded <;>
    rcases textsField_cases "removed_lines" removed with ⟨rfl, hremoved⟩ | hremoved <;>
    rw [ofJson?, toJson, hadded, hremoved, fields?_record _ (by simp)] <;>
    simp [List.lookup_cons, Record.required, Record.defaulted, readText_text, readList_texts,
      hkind, hhunks]

end Diff

/-! ### Symbols, segments and bindings -/

theorem Go.SymbolKind.ofJson?_word (k : SymbolKind) : ofJson? (.text k.word) = some k := by
  cases k <;> rfl

def Symbol.numbers (s : Symbol) : List Nat := [s.startLine, s.endLine]

theorem Symbol.written_toJson (s : Symbol) : s.toJson.Written :=
  .record (by simp [Value.Written.text, Diff.ChangeKind.toJson, written_ofNat])

theorem Symbol.ofJson?_toJson {s : Symbol} (hn : ∀ n ∈ s.numbers, readNat (.ofNat n) = some n) :
    ofJson? s.toJson = some s := by
  simp only [numbers, List.forall_mem_cons] at hn
  rw [ofJson?, toJson, fields?_record _ (by simp)]
  simp [List.lookup_cons, Record.required, Record.defaulted, readText_text,
    Go.SymbolKind.ofJson?_word, Diff.ChangeKind.ofJson?_toJson, hn]

namespace Docs

theorem DocKind.ofJson?_word (k : DocKind) : ofJson? (.text k.word) = some k := by
  cases k <;> rfl

def Segment.numbers (s : Segment) : List Nat := [s.level, s.startLine, s.endLine]

theorem Segment.written_toJson (s : Segment) : s.toJson.Written :=
  .record (by simp [Value.Written.text, written_ofNat])

theorem Segment.ofJson?_toJson {s : Segment} (hn : ∀ n ∈ s.numbers, readNat (.ofNat n) = some n) :
    ofJson? s.toJson = some s := by
  simp only [numbers, List.forall_mem_cons] at hn
  rw [ofJson?, toJson, fields?_record _ (by simp)]
  simp [List.lookup_cons, Record.required, Record.defaulted, readText_text, DocKind.ofJson?_word, hn]

def Binding.numbers (b : Binding) : List Nat := [b.docLine, b.endLine]

theorem Binding.written_toJson (b : Binding) : b.toJson.Written :=
  .record (by simp [Value.Written.text, written_ofNat])

theorem Binding.ofJson?_toJson {b : Binding} (hn : ∀ n ∈ b.numbers, readNat (.ofNat n) = some n) :
    ofJson? b.toJson = some b := by
  simp only [numbers, List.forall_mem_cons] at hn
  rw [ofJson?, toJson, fields?_record _ (by simp)]
  simp [List.lookup_cons, Record.required, readText_text, Go.SymbolKind.ofJson?_word, hn]

end Docs

/-! ### Results and reports -/

theorem Judge.textField_cases (name s : String) :
    s = "" ∧ textField name s = [] ∨ textField name s = [(name, .text s)] := by
  by_cases h : s = ""
  · exact .inl ⟨h, by simp [textField, h]⟩
  · exact .inr (by simp [textField, h])

theorem Judge.written_textField (name s : String) : ∀ m ∈ textField name s, m.2.Written := by
  rcases textField_cases name s with ⟨-, h⟩ | h <;> rw [h]
  · simp
  · simpa using Value.Written.text s

namespace Check

def Result.numbers (r : Result) : List Nat := r.symbol.numbers ++ r.segment.numbers

def Result.floats (r : Result) : List Float := [r.confidence, r.matchConfidence]

theorem Result.written_toJson (r : Result) : r.toJson.Written :=
  .record (List.forall_mem_append.2 ⟨by
    simp [Value.Written.text, Value.Written.bool, written_ofFloat, Symbol.written_toJson,
      Docs.Segment.written_toJson], Judge.written_textField _ _⟩)

theorem Result.ofJson?_toJson {r : Result} (hn : ∀ n ∈ r.numbers, readNat (.ofNat n) = some n)
    (hy : ∀ y ∈ r.floats, readFloat (.ofFloat y) = some y) : ofJson? r.toJson = some r := by
  obtain ⟨hsymbol, hsegment⟩ := List.forall_mem_append.1 hn
  have hsymbol := Symbol.ofJson?_toJson hsymbol
  have hsegment := Docs.Segment.ofJson?_toJson hsegment
  simp only [floats, List.forall_mem_cons] at hy
  obtain ⟨symbol, segment, related, consistent, confidence, matched, reason, suggestion⟩ := r
  rcases Judge.textField_cases "suggestion" suggestion with ⟨rfl, hsuggestion⟩ | hsuggestion <;>
    rw [ofJson?, toJson, hsuggestion, fields?_record _ (by simp)] <;>
    simp [List.lookup_cons, Record.required, Record.defaulted, readText_text, readBool, hsymbol,
      hsegment, hy]

/-- All numbers of a report, those of its results among them. -/
def Report.numbers (r : Report) : List Nat :=
  [r.totalSymbols, r.totalSegments, r.relevantPairs, r.inconsistent, r.skippedFiles,
    r.milliseconds] ++ r.results.flatMap Result.numbers

def Report.floats (r : Report) : List Float := r.results.flatMap Result.floats

theorem Report.written_toJson (r : Report) : r.toJson.Written :=
  .record (by simp [written_ofNat, written_writeList, Result.written_toJson])

theorem Report.ofJson?_toJson {r : Report} (hn : ∀ n ∈ r.numbers, readNat (.ofNat n) = some n)
    (hy : ∀ y ∈ r.floats, readFloat (.ofFloat y) = some y) : ofJson? r.toJson = some r := by
  obtain ⟨hown, hresults⟩ := List.forall_mem_append.1 hn
  have hresults : readList Result.ofJson? (writeList Result.toJson r.results) = some r.results :=
    readList_writeList fun x hx => Result.ofJson?_toJson
      (fun n hmem => hresults n (List.mem_flatMap.2 ⟨x, hx, hmem⟩))
      (fun y hmem => hy y (List.mem_flatMap.2 ⟨x, hx, hmem⟩))
  simp only [List.forall_mem_cons] at hown
  rw [ofJson?, toJson, fields?_record _ (by simp)]
  simp [List.lookup_cons, Record.required, hown, hresults]

end Check

/-! ## All records -/

/-- **Records survive their texts**, whatever characters their strings have, whatever numbers of
64 bits they hold and however many entries their lists have; those with doubles do if the
doubles survive theirs. -/
theorem records_survive :
    (∀ c : Diff.FileChange, (∀ n ∈ c.numbers, n ≤ maxWord) →
      Survives Diff.FileChange.toJson Diff.FileChange.ofJson? c) ∧
    (∀ s : Symbol, (∀ n ∈ s.numbers, n ≤ maxWord) → Survives Symbol.toJson Symbol.ofJson? s) ∧
    (∀ s : Docs.Segment, (∀ n ∈ s.numbers, n ≤ maxWord) →
      Survives Docs.Segment.toJson Docs.Segment.ofJson? s) ∧
    (∀ b : Docs.Binding, (∀ n ∈ b.numbers, n ≤ maxWord) →
      Survives Docs.Binding.toJson Docs.Binding.ofJson? b) ∧
    (∀ r : Check.Result, (∀ n ∈ r.numbers, n ≤ maxWord) → (∀ y ∈ r.floats, FloatSurvives y) →
      Survives Check.Result.toJson Check.Result.ofJson? r) ∧
    (∀ r : Check.Report, (∀ n ∈ r.numbers, n ≤ maxWord) → (∀ y ∈ r.floats, FloatSurvives y) →
      Survives Check.Report.toJson Check.Report.ofJson? r) := by
  have hnumbers : ∀ {ns : List Nat}, (∀ n ∈ ns, n ≤ maxWord) →
      ∀ n ∈ ns, readNat (.ofNat n) = some n := fun h n hn => readNat_ofNat (h n hn)
  have hfloats : ∀ {ys : List Float}, (∀ y ∈ ys, FloatSurvives y) →
      ∀ y ∈ ys, readFloat (.ofFloat y) = some y := fun h y hy => (h y hy).readFloat
  refine ⟨fun c hn => ?_, fun s hn => ?_, fun s hn => ?_, fun b hn => ?_, fun r hn hy => ?_,
    fun r hn hy => ?_⟩
  · exact survives c.written_toJson (Diff.FileChange.ofJson?_toJson (hnumbers hn))
  · exact survives s.written_toJson (Symbol.ofJson?_toJson (hnumbers hn))
  · exact survives s.written_toJson (Docs.Segment.ofJson?_toJson (hnumbers hn))
  · exact survives b.written_toJson (Docs.Binding.ofJson?_toJson (hnumbers hn))
  · exact survives r.written_toJson (Check.Result.ofJson?_toJson (hnumbers hn) (hfloats hy))
  · exact survives r.written_toJson (Check.Report.ofJson?_toJson (hnumbers hn) (hfloats hy))

/-- Quotes, a backslash, line ends, control characters and characters above ASCII. -/
def oddText : String := "\"a\\b\"\r\n\t\x00\x1b\x7f \u00e9 \u2028 😀"

/-- A changed file with the largest numbers and one list of lines left out. -/
def oddChange : Diff.FileChange :=
  ⟨oddText, "", .deleted, [⟨0, maxWord, maxWord, 0⟩, ⟨1, 1, 1, 1⟩], [], [oddText, ""]⟩

def oddSymbol : Symbol := ⟨"a.go", oddText, .type, .modified, 0, maxWord, "", ""⟩

def oddSegment : Docs.Segment := ⟨"a.go", oddText, 0, maxWord, 1, oddText, .goComment⟩

def oddBinding : Docs.Binding := ⟨oddText, 1, maxWord, "a.go", .const, oddText, ""⟩

def oddResult (suggestion : String) : Check.Result :=
  ⟨oddSymbol, oddSegment, true, false, 0.9, 1e-9, oddText, suggestion⟩

/-- One result leaves its suggestion out, and one has it. -/
def oddReport : Check.Report :=
  ⟨maxWord, 1, 1, 1, 0, [oddResult "", oddResult oddText], maxWord⟩

theorem records_survive_odd :
    Survives Diff.FileChange.toJson Diff.FileChange.ofJson? oddChange ∧
    Survives Symbol.toJson Symbol.ofJson? oddSymbol ∧
    Survives Docs.Segment.toJson Docs.Segment.ofJson? oddSegment ∧
    Survives Docs.Binding.toJson Docs.Binding.ofJson? oddBinding ∧
    Survives Check.Result.toJson Check.Result.ofJson? (oddResult "") ∧
    Survives Check.Report.toJson Check.Report.ofJson? oddReport := by
  obtain ⟨hchange, hsymbol, hsegment, hbinding, hresult, hreport⟩ := records_survive
  refine ⟨hchange _ (by decide), hsymbol _ (by decide), hsegment _ (by decide),
    hbinding _ (by decide), hresult _ (by decide) ?_, hreport _ (by decide) ?_⟩
  · decide +kernel
  · decide +kernel

end StaleDocs
