/-
From text to tokens. The column of a line's first token decides which collections it starts or
ends. A key that is written without its sign is only known by the colon after it, so each place
where one may start is kept, and the tokens that announce it are put in there later; such a key
stays on its line and within 1024 characters.
-/
import StaleDocs.Text.Utf8
import StaleDocs.Yaml.Block
import StaleDocs.Yaml.Plain
import StaleDocs.Yaml.Property
import StaleDocs.Yaml.Quoted

namespace StaleDocs.Yaml

/-- A place where a key may have started. -/
structure KeyPlace where
  /-- Nothing but a key can stand there. -/
  required : Bool
  /-- How many tokens are before it. -/
  tokens : Nat
  index : Nat
  line : Nat
  column : Nat

/-- The places of a possible key, the current one and those around the open brackets. -/
structure KeyPlaces where
  current : Option KeyPlace
  outer : List (Option KeyPlace)

/-- A text in the course of being cut into tokens. -/
structure Scan where
  cursor : Cursor
  /-- The indentation of the current collection, `-1` outside of all. -/
  indent : Int
  /-- The indentations around it, innermost first. -/
  indents : List Int
  /-- Whether a key may start here. -/
  keyAllowed : Bool
  keys : KeyPlaces
  /-- The tokens so far, last first. -/
  tokens : List Token
  count : Nat

/-- Whether brackets are open. -/
def Scan.inFlow (s : Scan) : Bool := !s.keys.outer.isEmpty

/-- Adds a token. -/
def Scan.emit (s : Scan) (t : Token) : Scan :=
  { s with tokens := t :: s.tokens, count := s.count + 1 }

/-- Puts a token behind the first `place` ones. -/
def Scan.insert (s : Scan) (place : Nat) (t : Token) : Scan :=
  let later := s.count - place
  { s with
    tokens := s.tokens.take later ++ t :: s.tokens.drop later
    count := s.count + 1 }

/-- Starts a collection behind the first `place` tokens if its column is further right than that
of the current one. -/
def Scan.startBlock (s : Scan) (column place : Nat) (t : Token) : Scan :=
  if !s.inFlow && s.indent < column then
    { s.insert place t with indent := column, indents := s.indent :: s.indents }
  else s

/-- Ends the collections whose column is further right than this one. -/
def endBlocks (column indent : Int) (tokens : List Token) (count : Nat) :
    List Int → (Int × List Int) × List Token × Nat
  | [] => ((indent, []), tokens, count)
  | i :: is =>
    if column < indent then endBlocks column i (.blockEnd :: tokens) (count + 1) is
    else ((indent, i :: is), tokens, count)

/-- Ends the collections further right than a column, unless brackets are open. -/
def Scan.unroll (s : Scan) (column : Int) : Scan :=
  if s.inFlow then s
  else
    let ((indent, indents), tokens, count) := endBlocks column s.indent s.tokens s.count s.indents
    { s with indent := indent, indents := indents, tokens := tokens, count := count }

/-- Gives up the current place of a key; it must not be one where only a key can stand. -/
def Scan.dropKey (s : Scan) : Option Scan :=
  if s.keys.current.any (·.required) then none
  else some { s with keys := { s.keys with current := none } }

/-- Keeps the current place, if a key may start there. -/
def Scan.saveKey (s : Scan) : Option Scan := do
  if s.keyAllowed then
    let c := s.cursor
    let place : KeyPlace :=
      { required := !s.inFlow && s.indent = c.column
        tokens := s.count
        index := c.index
        line := c.line
        column := c.column }
    let s ← s.dropKey
    return { s with keys := { s.keys with current := some place } }
  else return s

/-- Whether a key that started at a place can no longer reach as far as here. -/
def KeyPlace.isStale (k : KeyPlace) (c : Cursor) : Bool :=
  k.line < c.line || k.index + 1024 < c.index

/-- A place that is not yet stale; nothing if only a key can stand there. -/
def freshKey? (c : Cursor) : Option KeyPlace → Option (Option KeyPlace)
  | none => some none
  | some k => if !k.isStale c then some (some k) else if k.required then none else some none

/-- Gives up the places that are stale. -/
def Scan.dropStale (s : Scan) : Option Scan := do
  let current ← freshKey? s.cursor s.keys.current
  let outer ← s.keys.outer.mapM (freshKey? s.cursor)
  return { s with keys := ⟨current, outer⟩ }

/-- The place of the next token, after blanks, comments and line ends, at most `fuel` of these.
A line end in block context allows a key; only where none is allowed a tab is a blank. -/
def Scan.toToken (s : Scan) : (fuel : Nat) → Scan
  | 0 => s
  | fuel + 1 =>
    let c := s.cursor
    let c := if c.index = 0 && c.sees '\ufeff' then c.next else c
    let c := c.past fun x => x = ' ' || ((s.inFlow || !s.keyAllowed) && x = '\t')
    let c := if c.sees '#' then c.past fun x => !isBreak x else c
    if c.rest.head?.any isBreak then
      { s with cursor := c.next, keyAllowed := s.keyAllowed || !s.inFlow }.toToken fuel
    else { s with cursor := c }

/-- A token of some characters. -/
def Scan.mark (s : Scan) (width : Nat) (t : Token) : Scan :=
  { s with cursor := s.cursor.skip width }.emit t

/-- The state before a directive or a mark between documents. -/
def Scan.endDocument (s : Scan) : Option Scan := do
  return { ← (s.unroll (-1)).dropKey with keyAllowed := false }

/-- An opening bracket. -/
def Scan.openFlow (s : Scan) (t : Token) : Option Scan := do
  let s ← s.saveKey
  return { s with keyAllowed := true, keys := ⟨none, s.keys.current :: s.keys.outer⟩ }.mark 1 t

/-- The places of keys after a closing bracket. -/
def KeyPlaces.close (k : KeyPlaces) : KeyPlaces :=
  match k.outer with
  | [] => k
  | current :: outer => ⟨current, outer⟩

/-- A closing bracket. -/
def Scan.closeFlow (s : Scan) (t : Token) : Option Scan := do
  let s ← s.dropKey
  return { s with keyAllowed := false, keys := s.keys.close }.mark 1 t

/-- A comma between items in brackets. -/
def Scan.flowEntry (s : Scan) : Option Scan := do
  return { ← s.dropKey with keyAllowed := true }.mark 1 .flowEntry

/-- Starts a collection at a sign for an item or a key, which needs a place for a key. -/
def Scan.startHere (s : Scan) (t : Token) : Option Scan :=
  if s.inFlow then some s
  else if s.keyAllowed then some (s.startBlock s.cursor.column s.count t)
  else none

/-- A dash before an item. -/
def Scan.blockEntry (s : Scan) : Option Scan := do
  return { ← (← s.startHere .blockSequenceStart).dropKey with keyAllowed := true }.mark 1 .blockEntry

/-- The sign of a key. -/
def Scan.key (s : Scan) : Option Scan := do
  let s ← (← s.startHere .blockMappingStart).dropKey
  return { s with keyAllowed := !s.inFlow }.mark 1 .key

/-- A colon before a value. -/
def Scan.value (s : Scan) : Option Scan := do
  match s.keys.current with
  | some k =>
    let s := (s.insert k.tokens .key).startBlock k.column k.tokens .blockMappingStart
    return { s with keyAllowed := false, keys := { s.keys with current := none } }.mark 1 .value
  | none =>
    let s ← s.startHere .blockMappingStart
    return { s with keyAllowed := !s.inFlow }.mark 1 .value

/-- A token that may start a key, from what is read at a place. -/
def Scan.content (s : Scan) (read : Cursor → Option (Token × Cursor)) : Option Scan := do
  let s ← s.saveKey
  let (token, c) ← read s.cursor
  return { s with keyAllowed := false, cursor := c }.emit token

/-- A scalar in quotes. -/
def Scan.quoted (s : Scan) (q : Quote) (style : Style) (fuel : Nat) : Option Scan :=
  s.content fun c =>
    (scanQuoted q [] fuel c.next).map fun (text, c) => (.scalar style (String.ofList text), c)

/-- A scalar without quotes. -/
def Scan.plain (s : Scan) (fuel : Nat) : Option Scan := do
  let s ← s.saveKey
  let found ← scanPlain s.inFlow (s.indent + 1) [] [] fuel s.cursor
  let s := s.emit (.scalar .plain (String.ofList found.text))
  return { s with keyAllowed := found.endedLine, cursor := found.cursor }

/-- A scalar as a block of lines. -/
def Scan.block (s : Scan) (style : Style) (fuel : Nat) : Option Scan := do
  let s ← s.dropKey
  let (text, c) ← scanBlock (style = .folded) s.indent fuel s.cursor.next
  return { s with keyAllowed := true, cursor := c }.emit (.scalar style (String.ofList text))

/-- Signs that no plain scalar starts with, though the first three may if more follows. -/
def startsNoPlain : List Char :=
  ['-', '?', ':', ',', '[', ']', '{', '}', '#', '&', '*', '!', '|', '>', '\'', '"', '%', '@',
    '\x60']

/-- Whether a plain scalar starts with a character. -/
def startsPlain (flow : Bool) (c : Char) (cs : List Char) : Bool :=
  !(isSpace c || startsNoPlain.contains c) || (c = '-' && !(cs.head?.any isBlank)) ||
    (!flow && (c = '?' || c = ':') && !startsBlank cs)

/-- The token that starts with a character. -/
def Scan.fetch (s : Scan) (fuel : Nat) (c : Char) (cs : List Char) : Option Scan :=
  if s.cursor.column = 0 && c = '%' then do
    let s ← s.endDocument
    let (token, c) ← scanDirective fuel s.cursor.next
    return { s with cursor := c }.emit token
  else if s.cursor.atMark startMark then do return (← s.endDocument).mark 3 .documentStart
  else if s.cursor.atMark endMark then do return (← s.endDocument).mark 3 .documentEnd
  else if c = '[' then s.openFlow .flowSequenceStart
  else if c = '{' then s.openFlow .flowMappingStart
  else if c = ']' then s.closeFlow .flowSequenceEnd
  else if c = '}' then s.closeFlow .flowMappingEnd
  else if c = ',' then s.flowEntry
  else if c = '-' && startsBlank cs then s.blockEntry
  else if c = '?' && (s.inFlow || startsBlank cs) then s.key
  else if c = ':' && (s.inFlow || startsBlank cs) then s.value
  else if c = '*' then s.content fun c => (scanAnchor c.next).map fun (n, c) => (.aliasOf n, c)
  else if c = '&' then s.content fun c => (scanAnchor c.next).map fun (n, c) => (.anchor n, c)
  else if c = '!' then
    s.content fun c => (scanTag s.inFlow fuel c).map fun (n, c) => (.tag n, c)
  else if c = '|' && !s.inFlow then s.block .literal fuel
  else if c = '>' && !s.inFlow then s.block .folded fuel
  else if c = '\'' then s.quoted .single .singleQuoted fuel
  else if c = '"' then s.quoted .double .doubleQuoted fuel
  else if startsPlain s.inFlow c cs then s.plain fuel
  else none

/-- The tokens of a text from some state on, in at most `fuel` steps. -/
def Scan.run : (fuel : Nat) → Scan → Option (List Token)
  | 0, _ => none
  | fuel + 1, s => do
    let s ← (s.toToken fuel).dropStale
    let s := s.unroll s.cursor.column
    match s.cursor.rest with
    | [] => return (← (s.unroll (-1)).dropKey).tokens.reverse
    | c :: cs => Scan.run fuel (← s.fetch fuel c cs)

/-- The state before a text. -/
def Scan.start (cs : List Char) : Scan where
  cursor := ⟨cs, 0, 0, 0⟩
  indent := -1
  indents := []
  keyAllowed := true
  keys := ⟨none, []⟩
  tokens := []
  count := 0

/-- The tokens of a text. -/
def Token.ofText? (cs : List Char) : Option (List Token) :=
  if cs.all isAllowed then
    let cs := normalizeBreaks [] (Text.dropMark cs)
    (Scan.start cs).run (cs.length + 2)
  else none

end StaleDocs.Yaml
