/-
Changes from one version of a file to another as a diff lists them: an edit
script, cut into hunks with any number of unchanged lines around the changes
and between the hunks. The numbers of the hunks follow from the script, count
the lines of their bodies (`Listing.Printed.printable`), and cover every line
that the script inserts (`Listing.covered_of_added`).
-/
import StaleDocs.Proofs.Diff.RoundTrip

namespace StaleDocs.Diff
open Text (maxWord)

/-- A line of a file. Only the last line of a file may lack its end. -/
structure FileLine where
  text : String
  ended : Bool
deriving DecidableEq, Repr

/-- The text of a file. -/
def fileText (ls : List FileLine) : String :=
  String.ofList (ls.flatMap fun l => l.text.toList ++ if l.ended then ['\n'] else [])

/-- What becomes of a line. -/
inductive Edit where
  | keep (line : FileLine)
  | insert (line : FileLine)
  | delete (line : FileLine)
deriving DecidableEq, Repr

/-- The line in the old version. -/
def Edit.old? : Edit → Option FileLine
  | .keep l | .delete l => some l
  | .insert _ => none

/-- The line in the new version. -/
def Edit.new? : Edit → Option FileLine
  | .keep l | .insert l => some l
  | .delete _ => none

/-- The version before some edits. -/
def oldLines (es : List Edit) : List FileLine := es.filterMap Edit.old?

/-- The version after some edits. -/
def newLines (es : List Edit) : List FileLine := es.filterMap Edit.new?

/-- The numbers, from `n` on, of the new lines that edits insert. -/
def addedFrom (n : Nat) : List Edit → List Nat
  | [] => []
  | .keep _ :: es => addedFrom (n + 1) es
  | .insert _ :: es => n :: addedFrom (n + 1) es
  | .delete _ :: es => addedFrom n es

/-- The numbers, from `i` and `n` on, that unchanged lines have in the two versions. -/
def keptFrom (i n : Nat) : List Edit → List (Nat × Nat)
  | [] => []
  | .keep _ :: es => (i, n) :: keptFrom (i + 1) (n + 1) es
  | .insert _ :: es => keptFrom i (n + 1) es
  | .delete _ :: es => keptFrom (i + 1) n es

/-- The edits of one hunk, and the unchanged lines since the hunk before, which are not
listed. -/
structure Chunk where
  gap : List FileLine
  heading : String
  body : List Edit

def Chunk.edits (c : Chunk) : List Edit := c.gap.map .keep ++ c.body

/-- The changes of a file as hunks. The unchanged lines after the last hunk are not listed. -/
structure Listing where
  chunks : List Chunk
  rest : List FileLine

def Listing.edits (d : Listing) : List Edit := d.chunks.flatMap Chunk.edits ++ d.rest.map .keep

/-- The lines that are new. -/
def Listing.added (d : Listing) : List Nat := addedFrom 1 d.edits

/-- The unchanged lines, with their numbers in the old and in the new version. -/
def Listing.kept (d : Listing) : List (Nat × Nat) := keptFrom 1 1 d.edits

/-- A line behind its sign, with a remark if it has no end. -/
def FileLine.print (sign : String → BodyLine) (l : FileLine) : List BodyLine :=
  sign l.text :: if l.ended then [] else [.remark " No newline at end of file"]

def Edit.print : Edit → List BodyLine
  | .keep l => l.print .context
  | .insert l => l.print .added
  | .delete l => l.print .removed

/-- Where a range starts that comes after some lines; an empty one is named by the line before
it. -/
def rangeStart (passed count : Nat) : Nat := if count = 0 then passed else passed + 1

/-- The numbers of edits that come after some lines of both versions. -/
def hunkAt (i n : Nat) (es : List Edit) : Hunk :=
  ⟨rangeStart i (oldLines es).length, (oldLines es).length,
    rangeStart n (newLines es).length, (newLines es).length⟩

/-- The hunks of chunks that come after some lines of both versions. -/
def hunkPatches (i n : Nat) : List Chunk → List HunkPatch
  | [] => []
  | c :: cs =>
    { header := hunkAt (i + c.gap.length) (n + c.gap.length) c.body
      heading := c.heading
      body := c.body.flatMap Edit.print } ::
      hunkPatches (i + (oldLines c.edits).length) (n + (newLines c.edits).length) cs

/-- The section of a diff that lists the changes of the file at a path. -/
def Listing.patch (d : Listing) (path : String) (extended : List String) : FilePatch :=
  { oldPath := path
    newPath := path
    kind := .modified
    extended
    sides := true
    hunks := hunkPatches 0 0 d.chunks }

/-- The numbers of the hunks. -/
def Listing.hunks (d : Listing) : List Hunk := (hunkPatches 0 0 d.chunks).map (·.header)

/-! ## Versions -/

@[simp] theorem oldLines_cons (e : Edit) (es : List Edit) :
    oldLines (e :: es) = e.old?.toList ++ oldLines es := by
  cases h : e.old? <;> simp [oldLines, h]

@[simp] theorem newLines_cons (e : Edit) (es : List Edit) :
    newLines (e :: es) = e.new?.toList ++ newLines es := by
  cases h : e.new? <;> simp [newLines, h]

@[simp] theorem oldLines_append (es es' : List Edit) :
    oldLines (es ++ es') = oldLines es ++ oldLines es' := List.filterMap_append

@[simp] theorem newLines_append (es es' : List Edit) :
    newLines (es ++ es') = newLines es ++ newLines es' := List.filterMap_append

@[simp] theorem oldLines_keep (ls : List FileLine) : oldLines (ls.map .keep) = ls := by
  simp [oldLines, List.filterMap_map, Function.comp_def, Edit.old?]

@[simp] theorem newLines_keep (ls : List FileLine) : newLines (ls.map .keep) = ls := by
  simp [newLines, List.filterMap_map, Function.comp_def, Edit.new?]

theorem addedFrom_append (es es' : List Edit) : ∀ n : Nat,
    addedFrom n (es ++ es') = addedFrom n es ++ addedFrom (n + (newLines es).length) es' := by
  induction es with
  | nil => intro n; rfl
  | cons e es ih =>
    intro n
    cases e with
    | keep l => simp [addedFrom, ih, Edit.new?, Nat.add_assoc, Nat.add_comm 1]
    | insert l => simp [addedFrom, ih, Edit.new?, Nat.add_assoc, Nat.add_comm 1]
    | delete l => simp [addedFrom, ih, Edit.new?]

@[simp] theorem addedFrom_keep (ls : List FileLine) : ∀ n : Nat, addedFrom n (ls.map .keep) = [] := by
  induction ls with
  | nil => intro n; rfl
  | cons l ls ih => intro n; exact ih (n + 1)

/-- Inserted lines lie in the new version. -/
theorem addedFrom_bounds {es : List Edit} : ∀ {n m : Nat}, m ∈ addedFrom n es →
    n ≤ m ∧ m < n + (newLines es).length := by
  induction es with
  | nil => intro n m h; cases h
  | cons e es ih =>
    intro n m h
    rw [newLines_cons, List.length_append]
    cases e with
    | keep l =>
      have := ih h
      simp only [Edit.new?, Option.toList_some, List.length_singleton]
      omega
    | insert l =>
      simp only [Edit.new?, Option.toList_some, List.length_singleton]
      rcases List.mem_cons.1 h with rfl | h
      · omega
      · have := ih h
        omega
    | delete l =>
      have := ih h
      simp only [Edit.new?, Option.toList_none, List.length_nil]
      omega

/-! ## Hunks -/

/-- A line inserted by one of some chunks lies in the new range of that chunk's hunk. -/
theorem covered_hunkPatches {cs : List Chunk} : ∀ {i n m : Nat},
    m ∈ addedFrom (n + 1) (cs.flatMap Chunk.edits) →
    Covered ((hunkPatches i n cs).map (·.header)) m := by
  induction cs with
  | nil => intro i n m h; cases h
  | cons c cs ih =>
    intro i n m h
    rw [List.flatMap_cons, addedFrom_append, List.mem_append] at h
    rw [hunkPatches, List.map_cons, covered_cons]
    rcases h with h | h
    · left
      rw [Chunk.edits, addedFrom_append, addedFrom_keep, List.nil_append, newLines_keep] at h
      have hb := addedFrom_bounds h
      simp only [Hunk.Covers, hunkAt, rangeStart]
      split <;> omega
    · right
      refine ih ?_
      rwa [Nat.add_right_comm] at h

/-- **A diff covers what it adds.** -/
theorem Listing.covered_of_added {d : Listing} {n : Nat} (h : n ∈ d.added) : Covered d.hunks n := by
  rw [Listing.added, Listing.edits, addedFrom_append, addedFrom_keep, List.append_nil] at h
  exact covered_hunkPatches h

theorem countP_print_old (es : List Edit) :
    (es.flatMap Edit.print).countP BodyLine.isOld = (oldLines es).length := by
  have hone : ∀ e : Edit, e.print.countP BodyLine.isOld = e.old?.toList.length := by
    rintro (⟨_, _ | _⟩ | ⟨_, _ | _⟩ | ⟨_, _ | _⟩) <;> rfl
  induction es with
  | nil => rfl
  | cons e es ih =>
    rw [List.flatMap_cons, List.countP_append, ih, hone, oldLines_cons, List.length_append]

theorem countP_print_new (es : List Edit) :
    (es.flatMap Edit.print).countP BodyLine.isNew = (newLines es).length := by
  have hone : ∀ e : Edit, e.print.countP BodyLine.isNew = e.new?.toList.length := by
    rintro (⟨_, _ | _⟩ | ⟨_, _ | _⟩ | ⟨_, _ | _⟩) <;> rfl
  induction es with
  | nil => rfl
  | cons e es ih =>
    rw [List.flatMap_cons, List.countP_append, ih, hone, newLines_cons, List.length_append]

/-- The hunks of chunks within two versions that are not too long. -/
theorem counted_hunkPatches {cs : List Chunk} : ∀ {i n : Nat},
    i + (oldLines (cs.flatMap Chunk.edits)).length < maxWord →
    n + (newLines (cs.flatMap Chunk.edits)).length < maxWord →
    ∀ h ∈ hunkPatches i n cs, h.Counted := by
  induction cs with
  | nil => intro i n _ _ h hh; cases hh
  | cons c cs ih =>
    intro i n hi hn h hh
    rw [List.flatMap_cons, oldLines_append, List.length_append] at hi
    rw [List.flatMap_cons, newLines_append, List.length_append] at hn
    rw [hunkPatches] at hh
    rcases List.mem_cons.1 hh with rfl | hh
    · simp only [Chunk.edits, oldLines_append, newLines_append, oldLines_keep, newLines_keep,
        List.length_append] at hi hn
      refine ⟨⟨?_, ?_⟩, (countP_print_old c.body).symm, (countP_print_new c.body).symm⟩
      · simp only [hunkAt, rangeStart]
        split <;> omega
      · simp only [hunkAt, rangeStart]
        split <;> omega
    · exact ih (by omega) (by omega) h hh

/-- Whether the section about a listing can be printed and read: the path needs no quotes, lines
are no longer than they may be and without NUL, and carriage returns end lines of the file
only. -/
structure Listing.Printed (d : Listing) (path : String) (extended : List String) : Prop where
  named : path ≠ ""
  separated : ¬ " b/".toList <:+: path.toList
  words : ∀ s ∈ extended, ∃ w ∈ extendedWords, w.toList <+: s.toList
  readable : ∀ l ∈ (d.patch path extended).lines, Readable l
  plain : ∀ l ∈ (d.patch path extended).frame, l.getLast? ≠ some '\r'
  old : (oldLines d.edits).length < maxWord
  new : (newLines d.edits).length < maxWord

theorem Listing.Printed.printable {d : Listing} {path : String} {extended : List String}
    (h : d.Printed path extended) : (d.patch path extended).Printable := by
  have hold := h.old
  have hnew := h.new
  simp only [Listing.edits, oldLines_append, newLines_append, List.length_append] at hold hnew
  exact ⟨h.readable, h.named, h.named, h.separated, h.words,
    counted_hunkPatches (by omega) (by omega)⟩

end StaleDocs.Diff
