/-
Changes of files as `git` prints them: for each file a section with its
header, the lines that say how the file changed, and its hunks, each with a
header and a body. A printed header line reads as what was printed
(`filePaths?_print`, `hunk?_print`); whole diffs are read back in
`Diff.RoundTrip`.
-/
import Mathlib.Data.List.Infix
import StaleDocs.Diff.Parser
import StaleDocs.Proofs.Diff.Coverage
import StaleDocs.Proofs.Text.Written

namespace StaleDocs.Diff
open Text (digits unlines maxWord after? isDecimal)

/-- A line of a hunk's body. -/
inductive BodyLine where
  | context (text : String)
  | added (text : String)
  | removed (text : String)
  /-- A remark on the line before, such as that it has no line end. -/
  | remark (text : String)
deriving DecidableEq, Repr

/-- A body line behind its sign. -/
def BodyLine.print : BodyLine → List Char
  | .context text => ' ' :: text.toList
  | .added text => '+' :: text.toList
  | .removed text => '-' :: text.toList
  | .remark text => '\\' :: text.toList

/-- Whether the old side has the line. -/
def BodyLine.isOld : BodyLine → Bool
  | .context _ | .removed _ => true
  | .added _ | .remark _ => false

/-- Whether the new side has the line. -/
def BodyLine.isNew : BodyLine → Bool
  | .context _ | .added _ => true
  | .removed _ | .remark _ => false

/-- The text of an added line. -/
def BodyLine.added? : BodyLine → Option String
  | .added text => some text
  | _ => none

/-- The text of a removed line. -/
def BodyLine.removed? : BodyLine → Option String
  | .removed text => some text
  | _ => none

/-- A hunk with its body. The heading is what stands after the numbers, such as the function
that the hunk lies in. -/
structure HunkPatch where
  header : Hunk
  heading : String
  body : List BodyLine
deriving DecidableEq, Repr

/-- A start and a count; a count of one is left out. -/
def printRange (start count : Nat) : List Char :=
  digits start ++ if count = 1 then [] else ',' :: digits count

/-- The numbers of a hunk between their marks. -/
def Hunk.print (h : Hunk) : List Char :=
  "@@ -".toList ++ (printRange h.oldStart h.oldCount ++
    (" +".toList ++ (printRange h.newStart h.newCount ++ " @@".toList)))

def HunkPatch.lines (p : HunkPatch) : List (List Char) :=
  (p.header.print ++ p.heading.toList) :: p.body.map BodyLine.print

/-- The section of a diff about one file. -/
structure FilePatch where
  oldPath : String
  newPath : String
  kind : ChangeKind
  /-- Further lines of the extended header, such as the hashes of both versions. -/
  extended : List String
  /-- Whether the two lines that name the sides are printed; a section without hunks may lack
  them. -/
  sides : Bool
  hunks : List HunkPatch
deriving DecidableEq, Repr

/-- The line that opens a section. -/
def printPaths (oldPath newPath : String) : List Char :=
  "diff --git a/".toList ++ (oldPath.toList ++ (" b/".toList ++ newPath.toList))

/-- The line for a file that was added or deleted. -/
def modeLines : ChangeKind → List (List Char)
  | .added => ["new file mode 100644".toList]
  | .deleted => ["deleted file mode 100644".toList]
  | .modified => []

/-- The lines that name the two sides; a side without the file is called `/dev/null`. -/
def FilePatch.sideLines (p : FilePatch) : List (List Char) :=
  if p.sides then
    ["--- ".toList ++ if p.kind = .added then "/dev/null".toList else "a/".toList ++ p.oldPath.toList,
     "+++ ".toList ++ if p.kind = .deleted then "/dev/null".toList else "b/".toList ++ p.newPath.toList]
  else []

/-- The lines of a section before its hunks. -/
def FilePatch.preamble (p : FilePatch) : List (List Char) :=
  modeLines p.kind ++ (p.extended.map (·.toList) ++ p.sideLines)

def FilePatch.lines (p : FilePatch) : List (List Char) :=
  printPaths p.oldPath p.newPath :: (p.preamble ++ p.hunks.flatMap HunkPatch.lines)

/-- A diff with a section for each of the files. -/
def printDiff (ps : List FilePatch) : String :=
  String.ofList (unlines (ps.flatMap FilePatch.lines))

/-- The record that a section prints. -/
def FilePatch.change (p : FilePatch) : FileChange :=
  { oldPath := p.oldPath
    newPath := p.newPath
    kind := p.kind
    hunks := p.hunks.map (·.header)
    addedLines := p.hunks.flatMap fun h => h.body.filterMap BodyLine.added?
    removedLines := p.hunks.flatMap fun h => h.body.filterMap BodyLine.removed? }

/-- The words that a further line of an extended header may start with. -/
def extendedWords : List String :=
  ["old mode ", "new mode ", "copy from ", "copy to ", "rename from ", "rename to ",
    "similarity index ", "dissimilarity index ", "index "]

/-- A hunk whose numbers fit and count the lines of its body. -/
structure HunkPatch.Counted (p : HunkPatch) : Prop where
  fits : p.header.Fits
  old : p.header.oldCount = p.body.countP BodyLine.isOld
  new : p.header.newCount = p.body.countP BodyLine.isNew

instance : DecidablePred HunkPatch.Counted := fun p =>
  decidable_of_iff (p.header.Fits ∧ p.header.oldCount = p.body.countP BodyLine.isOld ∧
      p.header.newCount = p.body.countP BodyLine.isNew)
    ⟨fun h => ⟨h.1, h.2.1, h.2.2⟩, fun h => ⟨h.fits, h.old, h.new⟩⟩

/-- Whether a printed line can be read: one line without NUL that is not too long. -/
structure Readable (line : List Char) : Prop where
  feed : '\n' ∉ line
  nul : '\x00' ∉ line
  short : byteLength line ≤ maxLineBytes

instance : DecidablePred Readable := fun l =>
  decidable_of_iff ('\n' ∉ l ∧ '\x00' ∉ l ∧ byteLength l ≤ maxLineBytes)
    ⟨fun h => ⟨h.1, h.2.1, h.2.2⟩, fun h => ⟨h.feed, h.nul, h.short⟩⟩

/-- A section that can be printed without loss. The new path may not contain what separates
the paths in a header. -/
structure FilePatch.Printable (p : FilePatch) : Prop where
  readable : ∀ l ∈ p.lines, Readable l
  old : p.oldPath ≠ ""
  new : p.newPath ≠ ""
  separated : ¬ " b/".toList <:+: p.newPath.toList
  extended : ∀ s ∈ p.extended, ∃ w ∈ extendedWords, w.toList <+: s.toList
  counted : ∀ h ∈ p.hunks, h.Counted

instance : DecidablePred FilePatch.Printable := fun p =>
  decidable_of_iff ((∀ l ∈ p.lines, Readable l) ∧ p.oldPath ≠ "" ∧ p.newPath ≠ "" ∧
      ¬ " b/".toList <:+: p.newPath.toList ∧
      (∀ s ∈ p.extended, ∃ w ∈ extendedWords, w.toList <+: s.toList) ∧ ∀ h ∈ p.hunks, h.Counted)
    ⟨fun h => ⟨h.1, h.2.1, h.2.2.1, h.2.2.2.1, h.2.2.2.2.1, h.2.2.2.2.2⟩,
      fun h => ⟨h.readable, h.old, h.new, h.separated, h.extended, h.counted⟩⟩

/-! ## Hunk headers -/

/-- The digits that are printed for a count. -/
def printedCount (count : Nat) : Option (List Char) :=
  if count = 1 then none else some (digits count)

theorem digits?_append {ds rest : List Char} (hne : ds ≠ []) (hd : ∀ c ∈ ds, isDecimal c = true)
    (hr : ∀ c ∈ rest.head?, isDecimal c = false) : digits? (ds ++ rest) = some (ds, rest) := by
  have htake : rest.takeWhile isDecimal = [] := by
    cases rest with
    | nil => rfl
    | cons c cs => simp [hr c rfl]
  have hdrop : rest.dropWhile isDecimal = rest := by
    cases rest with
    | nil => rfl
    | cons c cs => simp [hr c rfl]
  unfold digits?
  rw [List.takeWhile_append_of_pos hd, htake, List.append_nil]
  split
  · exact absurd rfl hne
  · rw [List.dropWhile_append_of_pos hd, hdrop]

theorem digits?_digits (n : Nat) {rest : List Char} (hr : ∀ c ∈ rest.head?, isDecimal c = false) :
    digits? (digits n ++ rest) = some (digits n, rest) :=
  digits?_append (Text.digits_ne_nil n)
    (fun _ hc => Text.isDecimal_of_isDigit (Text.isDigit_of_mem_digits hc)) hr

theorem count?_print (count : Nat) (rest : List Char) :
    count? ((if count = 1 then [] else ',' :: digits count) ++ ' ' :: rest) =
      (printedCount count, ' ' :: rest) := by
  by_cases h : count = 1
  · simp [h, printedCount, count?]
  · have hd : digits? (digits count ++ ' ' :: rest) = some (digits count, ' ' :: rest) :=
      digits?_digits count (by simp; decide)
    simp [h, printedCount, count?, hd]

/-- A range and what follows it: the digits of the start, then those of the count. -/
theorem digits?_printRange (start count : Nat) (rest : List Char) :
    digits? (printRange start count ++ ' ' :: rest) =
      some (digits start, (if count = 1 then [] else ',' :: digits count) ++ ' ' :: rest) := by
  rw [printRange, List.append_assoc]
  refine digits?_digits start fun c hc => ?_
  by_cases h : count = 1
  · simp only [h, if_true, List.nil_append, List.head?_cons, Option.mem_some_iff] at hc
    subst hc; decide
  · simp only [h, if_false, List.cons_append, List.head?_cons, Option.mem_some_iff] at hc
    subst hc; decide

theorem hunkDigits?_print (h : Hunk) (rest : List Char) :
    hunkDigits? (h.print ++ rest) =
      some ⟨digits h.oldStart, printedCount h.oldCount, digits h.newStart,
        printedCount h.newCount⟩ := by
  have hold := digits?_printRange h.oldStart h.oldCount
    ('+' :: (printRange h.newStart h.newCount ++ (" @@".toList ++ rest)))
  have hnew := digits?_printRange h.newStart h.newCount ('@' :: '@' :: rest)
  simp only [Hunk.print, hunkDigits?, List.append_assoc, Text.after?_append, Option.bind_eq_bind,
    Option.bind_some]
  rw [show " +".toList ++ (printRange h.newStart h.newCount ++ (" @@".toList ++ rest)) =
    ' ' :: ('+' :: (printRange h.newStart h.newCount ++ (" @@".toList ++ rest))) from rfl, hold]
  simp only [Option.bind_some, count?_print]
  rw [show ' ' :: ('+' :: (printRange h.newStart h.newCount ++ (" @@".toList ++ rest))) =
    " +".toList ++ (printRange h.newStart h.newCount ++ (" @@".toList ++ rest)) from rfl,
    Text.after?_append, Option.bind_some,
    show " @@".toList ++ rest = ' ' :: '@' :: '@' :: rest from rfl, hnew]
  simp only [Option.bind_some, count?_print]
  rw [show ' ' :: '@' :: '@' :: rest = " @@".toList ++ rest from rfl, Text.after?_append]
  rfl

theorem lineNumber_digits {n : Nat} (h : n ≤ maxWord) : lineNumber (digits n) = .ok n := by
  rw [lineNumber, Text.readNat?_digits h]

theorem lineCount_printedCount {n : Nat} (h : n ≤ maxWord) : lineCount (printedCount n) = .ok n := by
  by_cases h1 : n = 1
  · subst h1; rfl
  · rw [printedCount, if_neg h1, lineCount, lineNumber_digits h]

/-- A printed hunk header reads as its hunk, whatever follows the numbers. -/
theorem hunk?_print {h : Hunk} (hf : h.Fits) (rest : List Char) :
    hunk? (h.print ++ rest) = .ok (some h) := by
  have hold := hf.old
  have hnew := hf.new
  simp only [hunk?, hunkDigits?_print,
    lineNumber_digits (show h.oldStart ≤ maxWord by omega),
    lineNumber_digits (show h.newStart ≤ maxWord by omega),
    lineCount_printedCount (show h.oldCount ≤ maxWord by omega),
    lineCount_printedCount (show h.newCount ≤ maxWord by omega)]
  simp [bind, Except.bind, pure, Except.pure, hold, hnew]

/-! ## File headers -/

/-- Going back through the new path to what separates it from the old one. -/
theorem cutPathsFrom_append {l old : List Char} (hold : old ≠ []) : ∀ {new : List Char},
    l.reverse ++ new ≠ [] → ¬ " b/".toList <:+: l.reverse ++ new →
    cutPathsFrom new (l ++ '/' :: 'b' :: ' ' :: old) = some (old.reverse, l.reverse ++ new) := by
  induction l with
  | nil =>
    intro new hne _
    obtain ⟨o, os, rfl⟩ := List.exists_cons_of_ne_nil hold
    obtain ⟨n, ns, rfl⟩ := List.exists_cons_of_ne_nil (by simpa using hne)
    simp [cutPathsFrom]
  | cons c l ih =>
    intro new hne hsep
    have hne' : l.reverse ++ c :: new ≠ [] := by simp
    have hrest := @ih (c :: new) hne' (by simpa using hsep)
    rw [List.reverse_cons, List.append_assoc, List.singleton_append, ← hrest, List.cons_append]
    -- A cut right here would put the separator inside the new path.
    rw [cutPathsFrom.eq_def]
    split
    · next heq => simp at heq
    · next o os heq =>
      simp only [List.cons.injEq] at heq
      obtain ⟨rfl, heq⟩ := heq
      split
      · next hemp => rw [List.isEmpty_iff] at hemp; rw [hemp, heq]
      · next hemp =>
        exfalso
        match l, heq with
        | [], heq => simp at heq
        | [b], heq => simp at heq
        | b :: s :: l, heq =>
          simp only [List.cons_append, List.cons.injEq] at heq
          obtain ⟨rfl, rfl, -⟩ := heq
          exact hsep ⟨l.reverse, new, by simp⟩
    · next _ heq =>
      simp only [List.cons.injEq] at heq
      obtain ⟨rfl, rfl⟩ := heq
      rfl

/-- A printed file header reads as its two paths. -/
theorem filePaths?_print {old new : String} (hold : old ≠ "") (hnew : new ≠ "")
    (hsep : ¬ " b/".toList <:+: new.toList) :
    filePaths? (printPaths old new) = some (old, new) := by
  have hrev : (old.toList ++ (" b/".toList ++ new.toList)).reverse =
      new.toList.reverse ++ '/' :: 'b' :: ' ' :: old.toList.reverse := by
    rw [List.reverse_append, List.reverse_append, List.append_assoc]
    rfl
  have hcut : cutPathsFrom [] (old.toList ++ (" b/".toList ++ new.toList)).reverse =
      some (old.toList, new.toList) := by
    rw [hrev, cutPathsFrom_append]
    · rw [List.reverse_reverse, List.reverse_reverse, List.append_nil]
    · simpa using hold
    · simpa using hnew
    · rwa [List.reverse_reverse, List.append_nil]
  unfold filePaths? printPaths
  rw [Text.after?_append]
  change (cutPathsFrom [] (old.toList ++ (" b/".toList ++ new.toList)).reverse).bind _ = _
  rw [hcut]
  change some (String.ofList old.toList, String.ofList new.toList) = _
  rw [String.ofList_toList, String.ofList_toList]

end StaleDocs.Diff
