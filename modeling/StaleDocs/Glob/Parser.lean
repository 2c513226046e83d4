/-
Reading patterns. `?` and `*` stand for one and any bytes but slashes, `**` between slashes or
at an end for any directories, `[…]` for one of some characters, and `{…,…}` for one of some
patterns, which may have groups of their own; a backslash takes the next character literally.
-/
import StaleDocs.Glob.Pattern

namespace StaleDocs.Glob

/-- Why a text is no pattern. -/
inductive PatternError where
  | unclosedClass
  | invalidRange (first last : Char)
  | unopenedGroup
  | unclosedGroup
  | danglingEscape
deriving DecidableEq, Repr

/-- The fault in words. -/
def PatternError.message : PatternError → String
  | .unclosedClass => "unclosed character class; missing ']'"
  | .invalidRange first last =>
    "invalid range; '" ++ String.singleton first ++ "' > '" ++ String.singleton last ++ "'"
  | .unopenedGroup =>
    "unopened alternate group; missing '\x7b' (maybe escape '\x7d' with '[\x7d]'?)"
  | .unclosedGroup =>
    "unclosed alternate group; missing '\x7d' (maybe escape '\x7b' with '[\x7b]'?)"
  | .danglingEscape => "dangling '\\'"

/-- What a bracket without its partner stands for. -/
inductive Unclosed where
  /-- It is a fault. -/
  | refused
  /-- It stands for itself, and so do all later ones. -/
  | literal
deriving DecidableEq, Repr

/-- An open class: its ranges, last first, and whether a hyphen waits for its second bound. -/
structure OpenClass where
  ranges : List (Char × Char)
  pending : Bool

/-- Takes one more character of a class. -/
def OpenClass.push (open' : OpenClass) (c : Char) : Except PatternError OpenClass :=
  match open'.ranges, open'.pending with
  | (first, _) :: ranges, true =>
    if c < first then .error (.invalidRange first c) else .ok ⟨(first, c) :: ranges, false⟩
  | ranges, _ =>
    if c = '-' && !ranges.isEmpty then .ok ⟨ranges, true⟩ else .ok ⟨(c, c) :: ranges, false⟩

/-- The ranges of a class, and what follows its bracket; `none` if that is missing. A bracket
at the front belongs to the class, and so does a hyphen that waits at its end. -/
def readClass (open' : OpenClass) :
    List Char → Except PatternError (Option (List (Char × Char) × List Char))
  | [] => .ok none
  | c :: cs =>
    if c = ']' && !open'.ranges.isEmpty then
      .ok (some ((if open'.pending then ('-', '-') :: open'.ranges else open'.ranges).reverse, cs))
    else
      match open'.push c with
      | .error fault => .error fault
      | .ok more => readClass more cs

/-- A class after its opening bracket, and what follows it. -/
def readOneOf (cs : List Char) : Except PatternError (Option (Piece × List Char)) := do
  let (negated, body) := match cs with
    | '!' :: body | '^' :: body => (true, body)
    | _ => (false, cs)
  return (← readClass ⟨[], false⟩ body).map fun (ranges, rest) => (.oneOf negated ranges, rest)

/-- An open group: its finished branches, and the branch before it, all last first. -/
structure Group where
  branches : List (List Piece)
  before : List Piece

/-- A pattern that is being read. -/
structure Reading where
  /-- The pieces of the current branch, last first. -/
  pieces : List Piece
  /-- The open groups, innermost first. -/
  groups : List Group
  /-- The character before. -/
  before : Option Char
  /-- Whether a bracket stands for itself. -/
  plainBrackets : Bool

/-- The reading with one more piece, after a character. -/
def Reading.push (r : Reading) (p : Piece) (c : Char) : Reading :=
  { r with pieces := p :: r.pieces, before := some c }

/-- The reading after two asterisks that stand for themselves. -/
def Reading.pushStars (r : Reading) : Reading :=
  { r with pieces := .star :: .star :: r.pieces, before := some '*' }

/-- The reading after two asterisks between slashes, with `p` for them. The slash before them is
theirs, and directories that were there already stay. -/
def Reading.pushPath (r : Reading) (p : Piece) (c : Char) : Reading :=
  match r.pieces with
  | .leadingPath :: _ | .trailingPath :: _ => { r with before := some c }
  | _ :: pieces => { r with pieces := p :: pieces, before := some c }
  | [] => { r with pieces := [p], before := some c }

/-- The reading after two asterisks, and what follows them. -/
def Reading.doubleStar (r : Reading) (rest : List Char) : Reading × List Char :=
  if r.pieces.isEmpty then
    match rest with
    | [] => (r.push .leadingPath '*', [])
    | '/' :: rest => (r.push .leadingPath '/', rest)
    | rest => (r.pushStars, rest)
  else if r.before = some '/' ||
      (!r.groups.isEmpty && (r.before = some ',' || r.before = some '{')) then
    match rest with
    | [] => (r.pushPath .trailingPath '*', [])
    | '/' :: rest => (r.pushPath .middlePath '/', rest)
    | c :: rest =>
      if !r.groups.isEmpty && (c = ',' || c = '}') then
        (r.pushPath .trailingPath '*', c :: rest)
      else (r.pushStars, c :: rest)
  else (r.pushStars, rest)

/-- Ends the innermost group. -/
def Reading.close (r : Reading) : Except PatternError Reading :=
  match r.groups with
  | [] => .error .unopenedGroup
  | g :: groups =>
    .ok
      { r with
        pieces := .alternatives (r.pieces.reverse :: g.branches).reverse :: g.before
        groups := groups
        before := some '}' }

/-- Ends a branch of the innermost group; outside of groups a comma stands for itself. -/
def Reading.comma (r : Reading) : Reading :=
  match r.groups with
  | [] => r.push (.literal ',') ','
  | g :: groups =>
    { r with
      pieces := []
      groups := { g with branches := r.pieces.reverse :: g.branches } :: groups
      before := some ',' }

/-- Reads a pattern in at most `fuel` steps. -/
def readFrom (unclosed : Unclosed) :
    (fuel : Nat) → Reading → List Char → Except PatternError (List Piece)
  | 0, r, _ | _ + 1, r, [] =>
    if r.groups.isEmpty then .ok r.pieces.reverse else .error .unclosedGroup
  | fuel + 1, r, c :: cs =>
    match c with
    | '?' => readFrom unclosed fuel (r.push .any c) cs
    | '*' =>
      match cs with
      | '*' :: rest =>
        let (r, rest) := r.doubleStar rest
        readFrom unclosed fuel r rest
      | _ => readFrom unclosed fuel (r.push .star c) cs
    | '[' =>
      if r.plainBrackets then readFrom unclosed fuel (r.push (.literal '[') c) cs
      else
        match readOneOf cs with
        | .error fault => .error fault
        | .ok (some (p, rest)) => readFrom unclosed fuel (r.push p ']') rest
        | .ok none =>
          if unclosed = .literal then
            readFrom unclosed fuel ({ r with plainBrackets := true }.push (.literal '[') c) cs
          else .error .unclosedClass
    | '{' =>
      readFrom unclosed fuel
        { r with pieces := [], groups := ⟨[], r.pieces⟩ :: r.groups, before := some c } cs
    | '}' =>
      match r.close with
      | .error fault => .error fault
      | .ok r => readFrom unclosed fuel r cs
    | ',' => readFrom unclosed fuel r.comma cs
    | '\\' =>
      match cs with
      | [] => .error .danglingEscape
      | d :: rest => readFrom unclosed fuel (r.push (.literal d) d) rest
    | c => readFrom unclosed fuel (r.push (.literal c) c) cs

/-- The pattern that a text writes. -/
def parse (unclosed : Unclosed) (text : List Char) : Except PatternError (List Piece) :=
  readFrom unclosed (text.length + 1) ⟨[], [], none, false⟩ text

end StaleDocs.Glob
