/-
Hunks and changed files as JSON records. The lists of added and removed lines are left out
when they are empty.
-/
import StaleDocs.Diff.Change
import StaleDocs.Json.Record

namespace StaleDocs.Diff
open Json (Value Read)

/-- A hunk as a record. -/
def Hunk.toJson (h : Hunk) : Value :=
  .record [("old_start", .ofNat h.oldStart), ("old_count", .ofNat h.oldCount),
    ("new_start", .ofNat h.newStart), ("new_count", .ofNat h.newCount)]

/-- The hunk that a record describes. -/
def Hunk.ofJson? : Read Hunk := fun v => do
  match ← Json.fields? ["old_start", "old_count", "new_start", "new_count"] v with
  | [oldStart, oldCount, newStart, newCount] =>
    return { oldStart := ← Record.required Json.readNat oldStart
             oldCount := ← Record.required Json.readNat oldCount
             newStart := ← Record.required Json.readNat newStart
             newCount := ← Record.required Json.readNat newCount }
  | _ => none

/-- A kind of change as its word. -/
def ChangeKind.toJson (k : ChangeKind) : Value :=
  .text k.word

/-- The kind of change that a word names. -/
def ChangeKind.ofJson? : Read ChangeKind :=
  Json.readWord ([.added, .modified, .deleted].map fun k => (ChangeKind.word k, k))

/-- A field with a list of texts, unless the list is empty. -/
def textsField (name : String) (texts : List String) : List (String × Value) :=
  if texts.isEmpty then [] else [(name, Json.writeList .text texts)]

/-- A changed file as a record. -/
def FileChange.toJson (c : FileChange) : Value :=
  .record ([("old_path", .text c.oldPath), ("new_path", .text c.newPath),
    ("change_kind", c.kind.toJson), ("hunks", Json.writeList Hunk.toJson c.hunks)] ++
    textsField "added_lines" c.addedLines ++ textsField "removed_lines" c.removedLines)

/-- The changed file that a record describes. -/
def FileChange.ofJson? : Read FileChange := fun v => do
  match ← Json.fields?
      ["old_path", "new_path", "change_kind", "hunks", "added_lines", "removed_lines"] v with
  | [oldPath, newPath, kind, hunks, added, removed] =>
    return { oldPath := ← Record.required Json.readText oldPath
             newPath := ← Record.required Json.readText newPath
             kind := ← Record.required ChangeKind.ofJson? kind
             hunks := ← Record.required (Json.readList Hunk.ofJson?) hunks
             addedLines := ← Record.defaulted [] (Json.readList Json.readText) added
             removedLines := ← Record.defaulted [] (Json.readList Json.readText) removed }
  | _ => none

end StaleDocs.Diff
