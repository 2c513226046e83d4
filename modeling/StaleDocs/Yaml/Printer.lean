/-
Writing records as YAML, every level two columns further right but items level with the name
of their list. A text with line feeds is a literal block; any other is plain where that reads
back as the text, else in single quotes, and in double quotes where it holds what cannot be
shown otherwise.
-/
import StaleDocs.Decimal.Layout
import StaleDocs.Record.Basic
import StaleDocs.Yaml.Character
import StaleDocs.Yaml.Core
import StaleDocs.Yaml.Token

namespace StaleDocs.Yaml
open Record (Content)

/-- Positional from `10 ^ -5` to below `10 ^ 16`, exponents without a plus sign. -/
def numberLayout : Decimal.Layout := ⟨-5, 15, [], ".nan", ".inf"⟩

/-- Whether a character can be shown as it is. -/
def isPrintable (c : Char) : Bool :=
  let n := c.toNat
  n == 10 || (0x20 ≤ n && n ≤ 0x7e) || (0xa0 ≤ n && n ≤ 0xfffd && n ≠ 0xfeff)

/-- Whether some character with `p` stands right before one with `q`. -/
def adjacent (p q : Char → Bool) : List Char → Bool
  | a :: b :: cs => (p a && q b) || adjacent p q (b :: cs)
  | _ => false

/-- Whether a text holds characters that cannot be shown, or a space before a line end. -/
def needsEscapes (cs : List Char) : Bool :=
  cs.any (!isPrintable ·) || adjacent (· = ' ') isBreak cs

/-- Marks that a plain scalar cannot start with. -/
def leadingMarks : List Char :=
  [',', '[', ']', '{', '}', '#', '&', '*', '!', '|', '>', '\'', '"', '%', '@', '\x60']

/-- Whether a text starts like something else than a plain scalar. -/
def startsOtherwise (cs : List Char) : Bool :=
  ['-', '-', '-'].isPrefixOf cs || ['.', '.', '.'].isPrefixOf cs ||
    match cs with
    | [] => true
    | c :: rest => leadingMarks.contains c || (['?', ':', '-'].contains c && startsBlank rest)

/-- Whether a plain scalar would end within a text, before a colon or a comment. -/
def endsWithin (cs : List Char) : Bool :=
  cs.getLast? = some ':' || adjacent (· = ':') isSpace cs || adjacent isSpace (· = '#') cs

/-- Whether a text has blanks or line ends at its start or end, or line ends at all. -/
def hasLooseSpace (cs : List Char) : Bool :=
  cs.head? = some ' ' || cs.getLast? = some ' ' || cs.any isBreak

/-- Whether a text reads back from a plain scalar. -/
def fitsPlain (cs : List Char) : Bool :=
  !(needsEscapes cs || hasLooseSpace cs || startsOtherwise cs || endsWithin cs)

/-- Whether a text reads back from single quotes. -/
def fitsSingle (cs : List Char) : Bool :=
  !(needsEscapes cs || adjacent isBreak (· = ' ') cs)

/-- Whether a text reads back from a literal block. -/
def fitsLiteral (cs : List Char) : Bool :=
  !(needsEscapes cs || cs.getLast? = some ' ')

/-- The style in which a text is written. -/
def styleOf (s : String) : Style :=
  let cs := s.toList
  if cs.contains '\n' then (if fitsLiteral cs then .literal else .doubleQuoted)
  else if !isAmbiguous s && fitsPlain cs then .plain
  else if fitsSingle cs then .singleQuoted
  else .doubleQuoted

/-- Characters, with spaces before each line's first one after a line end. -/
def indented (indent : Nat) (newLine : Bool) (write : Char → List Char) : List Char → List Char
  | [] => []
  | c :: cs =>
    if isBreak c then c :: indented indent true write cs
    else (if newLine then List.replicate indent ' ' else []) ++ write c ++
      indented indent false write cs

/-- A text in single quotes, which are doubled inside. -/
def singleQuoted (indent : Nat) (cs : List Char) : List Char :=
  let closing := if cs.getLast?.any isBreak then List.replicate indent ' ' else []
  '\'' :: indented indent false (fun c => if c = '\'' then ['\'', '\''] else [c]) cs ++
    closing ++ ['\'']

/-- A number of a character in `width` hexadecimal digits, in upper case. -/
def hexDigits (width n : Nat) : List Char :=
  let digits := (Nat.toDigits 16 n).map Char.toUpper
  List.replicate (width - digits.length) '0' ++ digits

/-- What follows the backslash of an escape. -/
def escapeLetters (c : Char) : List Char :=
  match c with
  | '\x00' => ['0']
  | '\x07' => ['a']
  | '\x08' => ['b']
  | '\t' => ['t']
  | '\n' => ['n']
  | '\x0b' => ['v']
  | '\x0c' => ['f']
  | '\r' => ['r']
  | '\x1b' => ['e']
  | '"' => ['"']
  | '\\' => ['\\']
  | '\u0085' => ['N']
  | '\u2028' => ['L']
  | '\u2029' => ['P']
  | c =>
    if c.toNat ≤ 0xff then 'x' :: hexDigits 2 c.toNat
    else if c.toNat ≤ 0xffff then 'u' :: hexDigits 4 c.toNat
    else 'U' :: hexDigits 8 c.toNat

/-- A text in double quotes. -/
def doubleQuoted (cs : List Char) : List Char :=
  '"' :: cs.flatMap (fun c =>
    if !isPrintable c || isBreak c || c = '"' || c = '\\' then '\\' :: escapeLetters c else [c]) ++
    ['"']

/-- The sign that tells which line ends a block has at its end. -/
def chompSign (cs : List Char) : List Char :=
  match cs.reverse with
  | [] => ['-']
  | [c] => if isBreak c then ['+'] else ['-']
  | c :: d :: _ => if !isBreak c then ['-'] else if isBreak d then ['+'] else []

/-- A text as a literal block. Its indentation is told where it starts with a space or a line
end. -/
def literalBlock (indent : Nat) (cs : List Char) : List Char :=
  let hint := if cs.head?.any (fun c => c = ' ' || isBreak c) then ['2'] else []
  '|' :: hint ++ chompSign cs ++ '\n' :: indented indent true (fun c => [c]) cs

/-- A text, whose later lines are indented by `indent`. -/
def writeText (indent : Nat) (s : String) : List Char :=
  match styleOf s with
  | .plain => s.toList
  | .singleQuoted => singleQuoted indent s.toList
  | .doubleQuoted => doubleQuoted s.toList
  | .literal | .folded => literalBlock indent s.toList

/-- A line, with its end unless it has one. -/
def closeLine (cs : List Char) : List Char :=
  if cs.getLast?.any isBreak then cs else cs ++ ['\n']

/-- The start of a line. -/
def margin (indent : Nat) : List Char := List.replicate indent ' '

/-- The items of a list, each on its line. -/
def writeItems (indent : Nat) (items : List String) : List Char :=
  items.flatMap fun s => margin indent ++ closeLine (['-', ' '] ++ writeText (indent + 2) s)

mutual

/-- What follows the name and the colon of a field, to the end of its last line. -/
def writeContent (indent : Nat) : Content → List Char
  | .text s => closeLine (' ' :: writeText (indent + 2) s)
  | .bool b => closeLine (' ' :: (toString b).toList)
  | .nat n => closeLine (' ' :: (toString n).toList)
  | .float x => closeLine (' ' :: (numberLayout.write x).toList)
  | .texts [] => " []\n".toList
  | .texts items => '\n' :: writeItems indent items
  | .record [] => " \x7b\x7d\n".toList
  | .record fields => '\n' :: writeFields (indent + 2) fields

/-- The fields of a record, each from its own line on. -/
def writeFields (indent : Nat) : List (String × Content) → List Char
  | [] => []
  | (name, c) :: fs =>
    margin indent ++ name.toList ++ ':' :: writeContent indent c ++ writeFields indent fs

end

/-- A record as a document. -/
def render (fields : List (String × Content)) : String :=
  String.ofList (writeFields 0 fields)

end StaleDocs.Yaml
