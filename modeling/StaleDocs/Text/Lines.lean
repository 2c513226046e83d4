/-
Lines of a text. A line ends at a line feed, and a carriage return right before the line feed
belongs to the end of the line; the last line may lack its line feed, and is then kept as it
stands. A text that ends with a line feed has no empty line after it.
-/
namespace StaleDocs.Text

/-- Cutting in progress: the finished lines and the characters of the open one, both last first. -/
structure LineCut where
  finished : List (List Char)
  pending : List Char

/-- The end of a line before its line feed, last character first, without a carriage return. -/
def dropReturn : List Char → List Char
  | '\r' :: cs => cs
  | cs => cs

/-- Takes one more character of the text. -/
def LineCut.push (cut : LineCut) (c : Char) : LineCut :=
  if c = '\n' then ⟨(dropReturn cut.pending).reverse :: cut.finished, []⟩
  else ⟨cut.finished, c :: cut.pending⟩

/-- The lines cut so far, with the open one unless it is empty. -/
def LineCut.lines (cut : LineCut) : List (List Char) :=
  match cut.pending with
  | [] => cut.finished.reverse
  | cs => (cs.reverse :: cut.finished).reverse

/-- The lines of a text, without their ends. -/
def lines (cs : List Char) : List (List Char) :=
  (cs.foldl LineCut.push ⟨[], []⟩).lines

/-- The lines of a string. -/
def linesOf (s : String) : List String :=
  (lines s.toList).map String.ofList

/-- Lines joined by line feeds. -/
def joinLines (ls : List (List Char)) : List Char :=
  List.intercalate ['\n'] ls

/-- How many line feeds a text holds. -/
def countFeeds (cs : List Char) : Nat :=
  cs.count '\n'

end StaleDocs.Text
