/-
Reading a unified diff. A file header opens a section; lines before the first header say
nothing. While the counts of the last hunk header are not used up, the first character of a
line says to which side it belongs, so text that looks like a header is not taken for one;
a line that fits neither side ends the hunk early. Sections about one pair of paths make one
record.
-/
import StaleDocs.Diff.Change
import StaleDocs.Diff.Header
import StaleDocs.Text.Lines
import StaleDocs.Text.Utf8

namespace StaleDocs.Diff
open Text (after?)

/-- A section being read; its lists are kept last first. -/
structure Section where
  oldPath : String
  newPath : String
  kind : ChangeKind
  hunks : List Hunk
  added : List String
  removed : List String
  /-- Lines of the old side that the current hunk still lacks. -/
  oldLeft : Nat
  /-- Lines of the new side that the current hunk still lacks. -/
  newLeft : Nat

/-- A section right after its header. -/
def Section.start (oldPath newPath : String) : Section :=
  ⟨oldPath, newPath, .modified, [], [], [], 0, 0⟩

/-- The finished record of a section. -/
def Section.change (s : Section) : FileChange :=
  { oldPath := s.oldPath
    newPath := s.newPath
    kind := s.kind
    hunks := normalize s.hunks.reverse
    addedLines := s.added.reverse
    removedLines := s.removed.reverse }

/-- A line of a hunk's body, if the hunk is still open and the line fits it. -/
def Section.body? (s : Section) (line : List Char) : Option Section :=
  if s.oldLeft = 0 && s.newLeft = 0 then none
  else
    match line with
    | '+' :: text => some { s with newLeft := s.newLeft - 1, added := String.ofList text :: s.added }
    | '-' :: text =>
      some { s with oldLeft := s.oldLeft - 1, removed := String.ofList text :: s.removed }
    | ' ' :: _ => some { s with oldLeft := s.oldLeft - 1, newLeft := s.newLeft - 1 }
    | [] => some { s with oldLeft := s.oldLeft - 1, newLeft := s.newLeft - 1 }
    | '\\' :: _ => some s
    | _ => none

/-- The kind of change that an extended header line announces. -/
def modeLine? (line : List Char) : Option ChangeKind :=
  if (after? "new file mode".toList line).isSome then some .added
  else if (after? "deleted file mode".toList line).isSome then some .deleted
  else none

/-- A line outside of hunks that is no header: text behind one sign still counts. -/
def Section.loose (s : Section) (line : List Char) : Section :=
  match line with
  | '+' :: text =>
    if (after? "++".toList text).isSome then s
    else { s with added := String.ofList text :: s.added }
  | '-' :: text =>
    if (after? "--".toList text).isSome then s
    else { s with removed := String.ofList text :: s.removed }
  | _ => s

/-- A line after which no hunk is open, unless it announces one. Mode lines count before the
first hunk only. -/
def Section.outside (s : Section) (line : List Char) : Except Malformation Section := do
  match ← hunk? line with
  | some h => return { s with hunks := h :: s.hunks, oldLeft := h.oldCount, newLeft := h.newCount }
  | none =>
    let s := { s with oldLeft := 0, newLeft := 0 }
    match s.hunks, modeLine? line with
    | [], some kind => return { s with kind := kind }
    | _, _ => return s.loose line

/-- Takes one line of a section. -/
def Section.feed (s : Section) (line : List Char) : Except Malformation Section :=
  match s.body? line with
  | some s => .ok s
  | none => s.outside line

/-- A diff being read: the records of finished sections, and the open section. -/
structure Scan where
  changes : List FileChange
  current : Option Section

/-- The records with the open section finished. -/
def Scan.finish (s : Scan) : List FileChange :=
  match s.current with
  | some sec => record sec.change s.changes
  | none => s.changes

/-- The bytes of a line. -/
def byteLength (line : List Char) : Nat :=
  line.foldl (fun n c => n + c.utf8Size) 0

/-- Takes one line of a diff. -/
def Scan.line (s : Scan) (line : List Char) : Except Malformation Scan :=
  if maxLineBytes < byteLength line then .error .longLine
  else if line.contains '\x00' then .error .nulByte
  else
    match filePaths? line with
    | some (old, new) => .ok ⟨s.finish, some (Section.start old new)⟩
    | none =>
      match s.current with
      | none => .ok s
      | some sec => do return { s with current := some (← sec.feed line) }

/-- Takes one numbered line of a diff. -/
def Scan.step (s : Scan) (numbered : List Char × Nat) : Except Malformed Scan :=
  match s.line numbered.1 with
  | .ok s => .ok s
  | .error cause => .error ⟨numbered.2, cause⟩

/-- The changed files of a diff, in the order of their first sections. -/
def parse (text : String) : Except Malformed (List FileChange) := do
  let s ← ((Text.lines text.toList).zipIdx 1).foldlM Scan.step ⟨[], none⟩
  return s.finish

/-- The text of a command's output; a fault is reported on the line of the first bad byte. -/
def decode (bytes : List UInt8) : Except Malformed String :=
  match Text.decodeUtf8 bytes with
  | (cs, []) => .ok (String.ofList cs)
  | (cs, _) => .error ⟨Text.countFeeds cs + 1, .encoding⟩

end StaleDocs.Diff
