/-
Lower case of a text. Each character is replaced on its own, with one exception: a capital
sigma becomes the final form ς at the end of a word, that is, after a cased letter and not
before one, where case-ignorable characters between do not count.
-/
import StaleDocs.Text.CaseTable
import StaleDocs.Text.Edges
namespace StaleDocs.Text

/-- Property Uppercase. -/
def isUpper (c : Char) : Bool :=
  if c.toNat < 128 then c.isUpper else withinEdges upperEdges c.toNat

/-- Property Cased. -/
def isCased (c : Char) : Bool :=
  if c.toNat < 128 then c.isAlpha else withinEdges casedEdges c.toNat

/-- Property Case_Ignorable. -/
def isCaseIgnorable (c : Char) : Bool :=
  if c.toNat < 128 then c = '\'' || c = '.' || c = ':' || c = '^' || c = '\x60'
  else withinEdges caseIgnorableEdges c.toNat

/-- The lower case of one character by itself; only the dotted capital I has two characters. -/
def lowerChar (c : Char) : List Char :=
  if c.toNat < 128 then [c.toLower]
  else if c = 'İ' then ['i', '\u0307']
  else
    match lowerRuns.find? (fun run => run.first ≤ c.toNat && c.toNat ≤ run.last) with
    | some run =>
      if (c.toNat - run.first) % run.step = 0 then [Char.ofNat (c.toNat + run.distance).toNat]
      else [c]
    | none => [c]

/-- Whether the first character that is not case-ignorable is cased. -/
def startsCased (cs : List Char) : Bool :=
  match cs.dropWhile isCaseIgnorable with
  | [] => false
  | c :: _ => isCased c

/-- The lower case of a character between the text before it, last character first, and the
text after it. -/
def lowerBetween (before : List Char) (c : Char) (rest : List Char) : List Char :=
  if c = 'Σ' then (if startsCased before && !startsCased rest then ['ς'] else ['σ'])
  else lowerChar c

/-- Lower case of the rest of a text, where `before` was passed and `out` written, both last
first. -/
def lowerFrom (before out : List Char) : List Char → List Char
  | [] => out.reverse
  | c :: rest => lowerFrom (c :: before) ((lowerBetween before c rest).reverse ++ out) rest

/-- The lower case of a text. -/
def lower (cs : List Char) : List Char :=
  if cs.contains 'Σ' then lowerFrom [] [] cs else cs.flatMap lowerChar

/-- The lower case of a string. -/
def lowered (s : String) : String :=
  String.ofList (lower s.toList)

/-- Lower case of ASCII letters only. -/
def loweredAscii (s : String) : String :=
  s.map Char.toLower

end StaleDocs.Text
