/-
Sets of code points given by the points where membership changes: a code point belongs to
the set when an odd number of the sorted edges lie at or below it.
-/
namespace StaleDocs.Text

/-- Whether a code point lies inside the set with these sorted edges. -/
def withinEdges (edges : List Nat) (code : Nat) : Bool :=
  (edges.takeWhile (· ≤ code)).length % 2 == 1

end StaleDocs.Text
