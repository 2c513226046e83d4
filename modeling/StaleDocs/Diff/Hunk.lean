/-
Hunks: the changed regions of a file. A hunk names a range of lines on the old side and one on
the new side; a list of hunks in normal form is sorted by the new side, and no two new ranges
overlap.
-/
import StaleDocs.Text.Word

namespace StaleDocs.Diff
open Text (maxWord)

/-- A changed region. Starts count from one; a count of zero means that side is empty. -/
structure Hunk where
  oldStart : Nat
  oldCount : Nat
  newStart : Nat
  newCount : Nat
deriving DecidableEq, Repr

/-- The line after the new range, at most the greatest line number. -/
def Hunk.newEnd (h : Hunk) : Nat :=
  min (h.newStart + h.newCount) maxWord

/-- The line after the old range, at most the greatest line number. -/
def Hunk.oldEnd (h : Hunk) : Nat :=
  min (h.oldStart + h.oldCount) maxWord

/-- Whether some line of `first … last` lies in the new range. -/
def Hunk.touches (h : Hunk) (first last : Nat) : Bool :=
  0 < h.newCount && h.newStart ≤ last && first < h.newEnd

/-- By the start of the new range, then of the old one. -/
def Hunk.precedes (a b : Hunk) : Bool :=
  a.newStart < b.newStart || (a.newStart = b.newStart && a.oldStart ≤ b.oldStart)

/-- The smallest hunk over both, where `a` does not start after `b` on the new side. -/
def Hunk.join (a b : Hunk) : Hunk :=
  let oldStart := min a.oldStart b.oldStart
  { oldStart := oldStart
    oldCount := max a.oldEnd b.oldEnd - oldStart
    newStart := a.newStart
    newCount := max a.newEnd b.newEnd - a.newStart }

/-- Joins each hunk of a sorted list to the one before it where their new ranges overlap. -/
def coalesceFrom (last : Hunk) : List Hunk → List Hunk
  | [] => [last]
  | h :: hs =>
    if h.newStart < last.newEnd then coalesceFrom (last.join h) hs
    else last :: coalesceFrom h hs

/-- Joins overlapping neighbours of a sorted list. -/
def coalesce : List Hunk → List Hunk
  | [] => []
  | h :: hs => coalesceFrom h hs

/-- The normal form of a list of hunks. -/
def normalize (hs : List Hunk) : List Hunk :=
  coalesce (hs.mergeSort Hunk.precedes)

end StaleDocs.Diff
