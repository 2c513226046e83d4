/-
Patterns of paths, and which paths they match. A pattern is a sequence of pieces; each takes
some bytes from the front of a path. A path is matched byte by byte: a piece that stands for
one character takes one byte.
-/
namespace StaleDocs.Glob

/-- A piece of a pattern. -/
inductive Piece where
  | literal (c : Char)
  /-- Any byte but a slash. -/
  | any
  /-- Any bytes but slashes. -/
  | star
  /-- Any directories, at the start of a pattern. -/
  | leadingPath
  /-- A slash and anything after it. -/
  | trailingPath
  /-- A slash, or any directories between two. -/
  | middlePath
  /-- One byte within the given ranges, or outside all of them. -/
  | oneOf (negated : Bool) (ranges : List (Char × Char))
  /-- One of several patterns. -/
  | alternatives (branches : List (List Piece))

/-- The bytes of a character. -/
def utf8 (c : Char) : List UInt8 := String.utf8EncodeChar c

/-- The ranges of bytes that a range of characters stands for: its bounds are spelled as bytes,
and the range is that between the last byte of the first bound and the first byte of the second
one, while the other bytes stand for themselves. -/
def byteRanges (range : Char × Char) : List (UInt8 × UInt8) :=
  let first := utf8 range.1
  let last := utf8 range.2
  if range.1 = range.2 then first.map fun b => (b, b)
  else
    (first.dropLast.map fun b => (b, b)) ++ [(first.getLastD 0, last.headD 0)] ++
      (last.tail.map fun b => (b, b))

/-- Whether a byte is in a set of bytes. -/
def isOneOf (negated : Bool) (ranges : List (Char × Char)) (b : UInt8) : Bool :=
  ((ranges.flatMap byteRanges).any fun r => r.1 ≤ b && b ≤ r.2) != negated

/-- The byte of a slash. -/
def slash : UInt8 := 47

/-- Everything that may be left after any bytes but slashes. -/
def afterStar : List UInt8 → List (List UInt8)
  | [] => [[]]
  | b :: bs => (b :: bs) :: (if b = slash then [] else afterStar bs)

/-- Everything that may be left after any bytes. -/
def afterAny : List UInt8 → List (List UInt8)
  | [] => [[]]
  | b :: bs => (b :: bs) :: afterAny bs

/-- Everything that may be left after some slash. -/
def afterSlash : List UInt8 → List (List UInt8)
  | [] => []
  | b :: bs => if b = slash then bs :: afterSlash bs else afterSlash bs

/-- What is left after a slash at the front. -/
def pastSlash? : List UInt8 → Option (List UInt8)
  | [] => none
  | b :: bs => if b = slash then some bs else none

/-- What is left after one byte for which `p` holds. -/
def pastByte (p : UInt8 → Bool) : List UInt8 → List (List UInt8)
  | [] => []
  | b :: bs => if p b then [bs] else []

/-- What is left after some bytes at the front. -/
def pastBytes? : List UInt8 → List UInt8 → Option (List UInt8)
  | [], path => some path
  | _ :: _, [] => none
  | b :: bs, c :: path => if b = c then pastBytes? bs path else none

mutual

/-- Whether a piece can take nothing at all, because there is nothing in it. -/
def Piece.isVoid : Piece → Bool
  | .alternatives branches => areVoid branches
  | _ => false

/-- Whether there is nothing in any of some patterns. -/
def areVoid : List (List Piece) → Bool
  | [] => true
  | b :: bs => isVoidPattern b && areVoid bs

/-- Whether there is nothing in a pattern. -/
def isVoidPattern : List Piece → Bool
  | [] => true
  | p :: ps => p.isVoid && isVoidPattern ps

end

mutual

/-- Everything that may be left of a path after a piece. Branches with nothing in them are
left out, and alternatives without branches take nothing. -/
def Piece.rests (path : List UInt8) : Piece → List (List UInt8)
  | .literal c => (pastBytes? (utf8 c) path).toList
  | .any => pastByte (· ≠ slash) path
  | .star => afterStar path
  | .leadingPath => path :: afterSlash path
  | .trailingPath => ((pastSlash? path).map afterAny).getD []
  | .middlePath => ((pastSlash? path).map fun rest => rest :: afterSlash rest).getD []
  | .oneOf negated ranges => pastByte (isOneOf negated ranges) path
  | .alternatives branches => if areVoid branches then [path] else branchRests path branches

/-- Everything that may be left after one of some branches. -/
def branchRests (path : List UInt8) : List (List Piece) → List (List UInt8)
  | [] => []
  | b :: bs =>
    (if isVoidPattern b then [] else patternRests [path] b) ++ branchRests path bs

/-- Everything that may be left of any of some paths after a pattern. -/
def patternRests (paths : List (List UInt8)) : List Piece → List (List UInt8)
  | [] => paths
  | p :: ps => patternRests (paths.flatMap fun path => p.rests path).eraseDups ps

end

/-- Whether a pattern matches a whole path. Any directories alone match everything. -/
def isMatch (pattern : List Piece) (path : String) : Bool :=
  match pattern with
  | [.leadingPath] => true
  | _ => (patternRests [path.toUTF8.toList] pattern).contains []

end StaleDocs.Glob
