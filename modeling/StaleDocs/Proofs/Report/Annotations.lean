/-
Workflow commands as a job on GitHub reads them, and that it reads what was
meant (`annotations_read`): each violation is one line, from which its file,
its line and its message are read back whatever characters they hold, and the
last line is the summary.

No part can end early: the escapes leave no line end in a command, no comma
and no colon in a property (`not_mem_spelled`), so the next two colons are
those before the message.
-/
import Mathlib.Data.List.TakeWhile
import StaleDocs.Proofs.Report.Escapes
import StaleDocs.Proofs.Text.Written
import StaleDocs.Text.Search

namespace StaleDocs

namespace Text

theorem breakAtFrom_append {c : Char} {sep before rest : List Char} (h : c ∉ before) :
    ∀ passed, breakAtFrom (c :: sep) passed (before ++ c :: (sep ++ rest)) =
      some (passed.reverse ++ before, rest) := by
  induction before with
  | nil =>
    intro passed
    have hafter : after? (c :: sep) (c :: (sep ++ rest)) = some rest := after?_append (c :: sep) rest
    simp only [List.nil_append, breakAtFrom, hafter, List.append_nil]
  | cons d before ih =>
    intro passed
    simp only [List.mem_cons, not_or] at h
    have hafter : after? (c :: sep) (d :: (before ++ c :: (sep ++ rest))) = none := by
      rw [after?, if_neg h.1]
    simp only [List.cons_append, breakAtFrom, hafter, ih h.2]
    simp

/-- A text is cut at a separator before which its first character does not occur. -/
theorem breakAt?_append {c : Char} {before : List Char} (h : c ∉ before) (sep rest : List Char) :
    breakAt? (c :: sep) (before ++ c :: (sep ++ rest)) = some (before, rest) :=
  breakAtFrom_append h []

end Text

namespace Report
open Check (Report Result)

/-! ## Reading -/

/-- A workflow command. -/
structure Command where
  name : String
  properties : List (String × String)
  message : String
deriving DecidableEq

/-- A property: its name, an equality sign, and its value. -/
def property? (cs : List Char) : Option (String × String) := do
  let (name, value) ← Text.breakAt? ['='] cs
  return (String.ofList name, String.ofList (unescape propertyEscapes value))

/-- The command on a line: its name, after a blank its properties with commas between them, all
this from two colons to the next two, and its message. -/
def Command.read? (line : String) : Option Command := do
  let (head, message) ← Text.breakAt? [':', ':'] (← Text.after? [':', ':'] line.toList)
  let name := head.takeWhile (· ≠ ' ')
  return { name := String.ofList name
           properties := ((head.drop (name.length + 1)).splitOn ',').filterMap property?
           message := String.ofList (unescape messageEscapes message) }

/-- The number that a text of digits spells. -/
def decimal? (s : String) : Option Nat :=
  if s ≠ "" ∧ s.toList.all Char.isDigit then some (Nat.ofDigitChars 10 s.toList 0) else none

/-- A message on a line of a file. -/
structure LineMessage where
  file : String
  line : Nat
  message : String
deriving DecidableEq

/-- The message that a line of a log makes: that of an error with a file and a line. -/
def LineMessage.read? (line : String) : Option LineMessage := do
  let command ← Command.read? line
  if command.name ≠ "error" then none
  let file ← command.properties.lookup "file"
  let number ← decimal? (← command.properties.lookup "line")
  return ⟨file, number, command.message⟩

/-- The message that a violation calls for. -/
def LineMessage.of (r : Result) : LineMessage :=
  { file := r.segment.file
    line := r.segment.startLine
    message := r.symbol.name ++ " (" ++ r.symbol.file ++ "): " ++ r.reason ++
      (if r.suggestion = "" then "" else "\nSuggestion: " ++ r.suggestion) }

/-! ## What a command is written of -/

/-- The properties of the command for a violation, as written. -/
def writtenProperties (r : Result) : List (List Char × List Char) :=
  [("file".toList, (escapeProperty r.segment.file).toList),
    ("line".toList, Text.digits r.segment.startLine),
    ("title".toList, (escapeProperty "Documentation out of date").toList)]

def writeProperty (p : List Char × List Char) : List Char := p.1 ++ '=' :: p.2

theorem toList_errorCommand (r : Result) :
    (errorCommand r).toList = [':', ':'] ++ ("error".toList ++ ' ' ::
      [','].intercalate ((writtenProperties r).map writeProperty) ++ ':' :: ([':'] ++
        (escapeMessage (violationMessage r)).toList)) := by
  have hstart : "::error file=".toList =
      [':', ':'] ++ ("error".toList ++ ' ' :: ("file".toList ++ ['='])) := by decide
  have hline : ",line=".toList = ',' :: ("line".toList ++ ['=']) := by decide
  have htitle : ",title=".toList = ',' :: ("title".toList ++ ['=']) := by decide
  have hcolons : "::".toList = ':' :: [':'] := by decide
  unfold errorCommand
  simp only [String.toList_append, hstart, hline, htitle, hcolons, writtenProperties, writeProperty,
    Text.digits, List.map_cons, List.map_nil, List.intercalate_cons_cons, List.intercalate_singleton,
    List.append_assoc, List.cons_append, List.nil_append]

/-! ## No part ends early -/

theorem not_mem_escapeProperty {c : Char} (hc : c ∈ ['\n', '\r', ':', ',']) (s : String) :
    c ∉ (escapeProperty s).toList := by
  have hescaped : (∃ e ∈ propertyEscapes, e.char = c) ∧ ∀ e ∈ propertyEscapes, c ∉ e.code := by
    simp only [List.mem_cons, List.not_mem_nil, or_false] at hc
    rcases hc with rfl | rfl | rfl | rfl <;> decide
  rw [toList_escapeProperty]
  exact not_mem_spelled hescaped.1 hescaped.2 s.toList

theorem not_mem_escapeMessage {c : Char} (hc : c ∈ ['\n', '\r']) (s : String) :
    c ∉ (escapeMessage s).toList := by
  have hescaped : (∃ e ∈ messageEscapes, e.char = c) ∧ ∀ e ∈ messageEscapes, c ∉ e.code := by
    simp only [List.mem_cons, List.not_mem_nil, or_false] at hc
    rcases hc with rfl | rfl <;> decide
  rw [toList_escapeMessage]
  exact not_mem_spelled hescaped.1 hescaped.2 s.toList

theorem not_mem_digits {c : Char} (hc : c.isDigit = false) (n : Nat) : c ∉ Text.digits n := by
  intro h
  rw [Text.isDigit_of_mem_digits h] at hc
  cases hc

/-- Neither a line end nor the end of a property or of all properties stands in a property. -/
theorem not_mem_writeProperty {r : Result} {c : Char} (hc : c ∈ ['\n', '\r', ':', ','])
    {p : List Char × List Char} (hp : p ∈ writtenProperties r) : c ∉ writeProperty p := by
  obtain ⟨hequal, hdigit, hfile, hline, htitle⟩ : c ≠ '=' ∧ c.isDigit = false ∧
      c ∉ "file".toList ∧ c ∉ "line".toList ∧ c ∉ "title".toList := by
    simp only [List.mem_cons, List.not_mem_nil, or_false] at hc
    rcases hc with rfl | rfl | rfl | rfl <;> decide
  have hparts : ∀ p ∈ writtenProperties r, c ∉ p.1 ∧ c ∉ p.2 := by
    simp only [writtenProperties, List.forall_mem_cons]
    exact ⟨⟨hfile, not_mem_escapeProperty hc r.segment.file⟩,
      ⟨hline, not_mem_digits hdigit r.segment.startLine⟩,
      ⟨htitle, not_mem_escapeProperty hc "Documentation out of date"⟩, by simp⟩
  simp only [writeProperty, List.mem_append, List.mem_cons, not_or]
  exact ⟨(hparts p hp).1, hequal, (hparts p hp).2⟩

theorem not_mem_properties {r : Result} {c : Char} (hc : c ∈ ['\n', '\r', ':']) :
    c ∉ [','].intercalate ((writtenProperties r).map writeProperty) := by
  obtain ⟨hcomma, hends⟩ : c ≠ ',' ∧ c ∈ ['\n', '\r', ':', ','] := by
    simp only [List.mem_cons, List.not_mem_nil, or_false] at hc
    rcases hc with rfl | rfl | rfl <;> decide
  have hp : ∀ p ∈ writtenProperties r, c ∉ writeProperty p := fun p hp =>
    not_mem_writeProperty hends hp
  simp only [writtenProperties, List.forall_mem_cons] at hp
  simp only [writtenProperties, List.map_cons, List.map_nil, List.intercalate_cons_cons,
    List.intercalate_singleton, List.mem_append, List.mem_singleton, not_or]
  exact ⟨⟨hp.1, hcomma⟩, ⟨hp.2.1, hcomma⟩, hp.2.2.1⟩

theorem not_mem_errorCommand {c : Char} (hc : c ∈ ['\n', '\r']) (r : Result) :
    c ∉ (errorCommand r).toList := by
  obtain ⟨hprops, hcolon, hblank, hname⟩ : c ∈ ['\n', '\r', ':'] ∧ c ≠ ':' ∧ c ≠ ' ' ∧
      c ∉ "error".toList := by
    simp only [List.mem_cons, List.not_mem_nil, or_false] at hc
    rcases hc with rfl | rfl <;> decide
  simp only [toList_errorCommand, List.mem_append, List.mem_cons, List.not_mem_nil, or_false, not_or]
  exact ⟨⟨hcolon, hcolon⟩, ⟨hname, hblank, not_mem_properties hprops⟩, hcolon, hcolon,
    not_mem_escapeMessage hc _⟩

theorem not_mem_summaryCommand {c : Char} (hc : c ∈ ['\n', '\r']) (r : Report) :
    c ∉ (summaryCommand r).toList := by
  obtain ⟨hdigit, hfound, hend, hnotice⟩ : c.isDigit = false ∧ c ∉ "::error::Found ".toList ∧
      c ∉ " documentation inconsistencies".toList ∧
      c ∉ "::notice::Documentation is consistent with the code changes".toList := by
    simp only [List.mem_cons, List.not_mem_nil, or_false] at hc
    rcases hc with rfl | rfl <;> decide
  unfold summaryCommand
  split
  · simp only [String.toList_append, List.mem_append, not_or]
    exact ⟨⟨hfound, not_mem_digits hdigit _⟩, hend⟩
  · exact hnotice

/-! ## What is read -/

theorem property?_writeProperty {name : List Char} (hname : '=' ∉ name) (value : List Char) :
    property? (writeProperty (name, value)) =
      some (String.ofList name, String.ofList (unescape propertyEscapes value)) := by
  have hcut : Text.breakAt? ['='] (writeProperty (name, value)) = some (name, value) :=
    Text.breakAt?_append hname [] value
  rw [property?, hcut]
  rfl

theorem unescape_digits (n : Nat) : unescape propertyEscapes (Text.digits n) = Text.digits n :=
  unescape_of_not_mem _ (not_mem_digits (by decide) n)

theorem unescape_escapeProperty (s : String) :
    String.ofList (unescape propertyEscapes (escapeProperty s).toList) = s := by
  rw [toList_escapeProperty, undoable_propertyEscapes.unescape_spelled, String.ofList_toList]

theorem unescape_escapeMessage (s : String) :
    String.ofList (unescape messageEscapes (escapeMessage s).toList) = s := by
  rw [toList_escapeMessage, undoable_messageEscapes.unescape_spelled, String.ofList_toList]

/-- The properties are cut at the commas between them. -/
theorem read_properties (r : Result) :
    (([','].intercalate ((writtenProperties r).map writeProperty)).splitOn ',').filterMap property? =
      [("file", r.segment.file), ("line", toString r.segment.startLine),
        ("title", "Documentation out of date")] := by
  have hcommas : ∀ l ∈ (writtenProperties r).map writeProperty, ',' ∉ l := by
    intro l hl
    obtain ⟨p, hp, rfl⟩ := List.mem_map.1 hl
    exact not_mem_writeProperty (by decide) hp
  have hnumber : String.ofList (Text.digits r.segment.startLine) = toString r.segment.startLine := by
    rw [Text.digits, String.ofList_toList]
  rw [List.splitOn_intercalate ',' hcommas (by simp [writtenProperties]), List.filterMap_map]
  simp only [writtenProperties, List.filterMap_cons, List.filterMap_nil, Function.comp]
  rw [property?_writeProperty (by decide), property?_writeProperty (by decide),
    property?_writeProperty (by decide)]
  simp only [unescape_digits, unescape_escapeProperty, hnumber, String.ofList_toList]

/-- The name is what stands before the blank. -/
theorem takeWhile_name {name : List Char} (h : ' ' ∉ name) (rest : List Char) :
    (name ++ ' ' :: rest).takeWhile (· ≠ ' ') = name := by
  have hname : ∀ c ∈ name, decide (c ≠ ' ') = true := by
    intro c hc
    exact decide_eq_true fun heq => h (heq ▸ hc)
  rw [List.takeWhile_append_of_pos hname, List.takeWhile_cons_of_neg (by simp), List.append_nil]

theorem Command.read?_errorCommand (r : Result) :
    Command.read? (errorCommand r) =
      some { name := "error"
             properties := [("file", r.segment.file), ("line", toString r.segment.startLine),
               ("title", "Documentation out of date")]
             message := violationMessage r } := by
  have hcolon : ':' ∉ "error".toList ++ ' ' ::
      [','].intercalate ((writtenProperties r).map writeProperty) := by
    have hname : ':' ∉ "error".toList ∧ ':' ≠ ' ' := by decide
    simp only [List.mem_append, List.mem_cons, not_or]
    exact ⟨hname.1, hname.2, not_mem_properties (by decide)⟩
  have hdrop : ("error".toList ++ ' ' ::
      [','].intercalate ((writtenProperties r).map writeProperty)).drop ("error".toList.length + 1) =
      [','].intercalate ((writtenProperties r).map writeProperty) := by
    rw [List.append_cons]
    exact List.drop_left' (by simp)
  simp only [Command.read?, toList_errorCommand, Text.after?_append, bind, Option.bind_some,
    Text.breakAt?_append hcolon, takeWhile_name (by decide : ' ' ∉ "error".toList), hdrop,
    read_properties, unescape_escapeMessage, String.ofList_toList]
  rfl

/-- A command without properties, and without escapes in its message. -/
theorem Command.read?_bare {name message : String} (hcolon : ':' ∉ name.toList)
    (hblank : ' ' ∉ name.toList) (hescape : '%' ∉ message.toList) :
    Command.read? ("::" ++ name ++ "::" ++ message) = some ⟨name, [], message⟩ := by
  have hline : ("::" ++ name ++ "::" ++ message).toList =
      [':', ':'] ++ (name.toList ++ ':' :: ([':'] ++ message.toList)) := by simp
  have hname : name.toList.takeWhile (· ≠ ' ') = name.toList := by
    rw [List.takeWhile_eq_self_iff]
    exact fun c hc => decide_eq_true fun heq => hblank (heq ▸ hc)
  have hnone : (([] : List Char).splitOn ',').filterMap property? = [] := rfl
  simp only [Command.read?, hline, Text.after?_append, bind, Option.bind_some,
    Text.breakAt?_append hcolon, hname, List.drop_of_length_le (Nat.le_succ _), hnone,
    unescape_of_not_mem _ hescape, String.ofList_toList]
  rfl

theorem Command.read?_summaryCommand (r : Report) :
    Command.read? (summaryCommand r) = some (if 0 < r.inconsistent then
        ⟨"error", [], "Found " ++ toString r.inconsistent ++ " documentation inconsistencies"⟩
      else ⟨"notice", [], "Documentation is consistent with the code changes"⟩) := by
  rw [summaryCommand, Report.hasInconsistencies]
  by_cases h : 0 < r.inconsistent
  · have hline : "::error::Found " ++ toString r.inconsistent ++ " documentation inconsistencies" =
        "::" ++ "error" ++ "::" ++
          ("Found " ++ toString r.inconsistent ++ " documentation inconsistencies") := by
      simp [← String.toList_inj]
    have hescape : '%' ∉ ("Found " ++ toString r.inconsistent ++
        " documentation inconsistencies").toList := by
      simp only [String.toList_append, List.mem_append, not_or]
      exact ⟨⟨by decide, not_mem_digits (by decide) _⟩, by decide⟩
    rw [if_pos h, if_pos (decide_eq_true h), hline]
    exact Command.read?_bare (by decide) (by decide) hescape
  · have hline : "::notice::Documentation is consistent with the code changes" =
        "::" ++ "notice" ++ "::" ++ "Documentation is consistent with the code changes" := by
      decide
    rw [if_neg h, if_neg (mt of_decide_eq_true h), hline]
    exact Command.read?_bare (by decide) (by decide) (by decide)

theorem decimal?_toString (n : Nat) : decimal? (toString n) = some n := by
  have hdigits : (toString n).toList = Nat.toDigits 10 n := Text.digits_eq n
  have hne : toString n ≠ "" := by
    intro h
    exact Text.digits_ne_nil n (by rw [Text.digits, h]; rfl)
  have hall : (toString n).toList.all Char.isDigit = true :=
    List.all_eq_true.2 fun c hc => Text.isDigit_of_mem_digits hc
  rw [decimal?, if_pos ⟨hne, hall⟩, hdigits, Nat.ofDigitChars_ten_toDigits]

theorem LineMessage.of_message (r : Result) : (LineMessage.of r).message = violationMessage r := by
  simp [LineMessage.of, violationMessage]

theorem LineMessage.read?_errorCommand (r : Result) :
    LineMessage.read? (errorCommand r) = some (LineMessage.of r) := by
  have hfile : [("file", r.segment.file), ("line", toString r.segment.startLine),
      ("title", "Documentation out of date")].lookup "file" = some r.segment.file := rfl
  have hline : [("file", r.segment.file), ("line", toString r.segment.startLine),
      ("title", "Documentation out of date")].lookup "line" =
        some (toString r.segment.startLine) := rfl
  rw [LineMessage.read?, Command.read?_errorCommand]
  simp only [bind, Option.bind_some, hfile, hline, decimal?_toString, ← LineMessage.of_message]
  rfl

/-! ## Whole reports -/

theorem ofLines_eq (lines : List String) : ofLines lines = Text.writeLines lines := by
  rw [← String.toList_inj, ofLines, String.toList_join, Text.writeLines, String.toList_ofList,
    Text.unlines, List.flatMap_map, List.flatMap_map]
  simp

/-- Lines without line ends in them are read as they were written. -/
theorem linesOf_ofLines {lines : List String}
    (h : ∀ l ∈ lines, '\n' ∉ l.toList ∧ '\r' ∉ l.toList) : Text.linesOf (ofLines lines) = lines := by
  have hstrip : ∀ l ∈ lines, String.ofList (Text.stripReturn l.toList) = l := by
    intro l hl
    have hlast : l.toList.getLast? ≠ some '\r' := fun hr => (h l hl).2 (List.mem_of_getLast? hr)
    rw [Text.stripReturn_of_getLast hlast, String.ofList_toList]
  rw [ofLines_eq, Text.linesOf, Text.lines_writeLines fun l hl => (h l hl).1, List.map_map]
  exact (List.map_congr_left hstrip).trans (List.map_id lines)

/-- **Workflow commands say what they mean**, whatever a report holds: it is written as one line
for each violation and one more, each line but the last is read as a message on the
documented file at the line of the segment with the whole message, in order, and the last is the
summary: an error with the number of inconsistencies, or a notice that there are none. -/
theorem annotations_read (r : Report) (threshold : Float) :
    let written := render r .githubActions threshold
    let violations := r.results.filter (·.isViolation threshold)
    ofLines (Text.linesOf written) = written ∧
    (∀ l ∈ Text.linesOf written, '\n' ∉ l.toList ∧ '\r' ∉ l.toList) ∧
    (Text.linesOf written).length = violations.length + 1 ∧
    (Text.linesOf written).dropLast.map LineMessage.read? =
      violations.map (fun v => some (LineMessage.of v)) ∧
    (Text.linesOf written).getLast? = some (summaryCommand r) ∧
    (Text.linesOf written).getLast?.bind Command.read? =
      some (if 0 < r.inconsistent then
        ⟨"error", [], "Found " ++ toString r.inconsistent ++ " documentation inconsistencies"⟩
      else ⟨"notice", [], "Documentation is consistent with the code changes"⟩) := by
  intro written violations
  have hwritten : written = ofLines (violations.map errorCommand ++ [summaryCommand r]) := rfl
  have hends : ∀ l ∈ violations.map errorCommand ++ [summaryCommand r],
      '\n' ∉ l.toList ∧ '\r' ∉ l.toList := by
    intro l hl
    rcases List.mem_append.1 hl with hl | hl
    · obtain ⟨v, -, rfl⟩ := List.mem_map.1 hl
      exact ⟨not_mem_errorCommand (by decide) v, not_mem_errorCommand (by decide) v⟩
    · obtain rfl := List.mem_singleton.1 hl
      exact ⟨not_mem_summaryCommand (by decide) r, not_mem_summaryCommand (by decide) r⟩
  rw [hwritten, linesOf_ofLines hends]
  refine ⟨rfl, hends, by simp, ?_, by simp, ?_⟩
  · rw [List.dropLast_concat, List.map_map]
    exact List.map_congr_left fun v _ => LineMessage.read?_errorCommand v
  · rw [List.getLast?_concat, Option.bind_some, Command.read?_summaryCommand]

/-- A file name with a comma and a colon, and a message that spells an escape and a command. -/
example : LineMessage.read? "::error file=a%2Cb%3A.md,line=12,title=x::%250A%0A::error::c" =
    some ⟨"a,b:.md", 12, "%0A\n::error::c"⟩ := by decide +kernel

end Report
end StaleDocs
