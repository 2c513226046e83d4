/-
The characters of YAML: line ends, blanks, those of names, and those a document may hold at
all. In scalars that run over several lines the line ends are folded: one becomes a space, and
of several the first is dropped.
-/
namespace StaleDocs.Yaml

/-- Whether a document may hold a character. -/
def isAllowed (c : Char) : Bool :=
  let n := c.toNat
  n == 9 || n == 10 || n == 13 || (0x20 ≤ n && n ≤ 0x7e) || n == 0x85 ||
    (0xa0 ≤ n && n ≤ 0xfffd) || 0x10000 ≤ n

/-- Line ends. -/
def isBreak (c : Char) : Bool :=
  c = '\n' || c = '\u2028' || c = '\u2029'

/-- Blanks within a line. -/
def isBlank (c : Char) : Bool :=
  c = ' ' || c = '\t'

/-- Blanks and line ends. -/
def isSpace (c : Char) : Bool :=
  isBlank c || isBreak c

/-- The characters of anchors, directives and tag handles. -/
def isNameChar (c : Char) : Bool :=
  c.isAlphanum || c = '_' || c = '-'

/-- Whether a text is at its end or goes on with a blank or a line end. -/
def startsBlank : List Char → Bool
  | [] => true
  | c :: _ => isSpace c

/-- A text with a line feed for each carriage return, for a pair of the two, and for U+0085. -/
def normalizeBreaks (out : List Char) : List Char → List Char
  | [] => out.reverse
  | '\r' :: '\n' :: cs => normalizeBreaks ('\n' :: out) cs
  | c :: cs => normalizeBreaks ((if c = '\r' || c = '\u0085' then '\n' else c) :: out) cs

/-- What blanks and line ends between two words of a scalar stand for. -/
def foldSpace (run : List Char) : List Char :=
  match run.filter isBreak with
  | [] => run
  | ['\n'] => [' ']
  | '\n' :: others => others
  | breaks => breaks

end StaleDocs.Yaml
