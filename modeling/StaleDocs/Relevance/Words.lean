/-
The words of a name in camel case. A new word starts at every upper-case letter after the
first character; underscores belong to words.
-/
import StaleDocs.Text.Case

namespace StaleDocs.Relevance
open Text (isUpper lower)

/-- The words of the rest of a name, in lower case, after those characters of the current word
that were passed, last first. -/
def wordsFrom (current : List Char) : List Char → List (List Char)
  | [] => if current.isEmpty then [] else [lower current.reverse]
  | c :: cs =>
    if isUpper c && !current.isEmpty then lower current.reverse :: wordsFrom [c] cs
    else wordsFrom (c :: current) cs

/-- The words of a name, in lower case. -/
def words (name : List Char) : List (List Char) := wordsFrom [] name

/-- Whether a word is long enough to count on its own. -/
def isSignificant (word : List Char) : Bool := 2 < word.length

end StaleDocs.Relevance
