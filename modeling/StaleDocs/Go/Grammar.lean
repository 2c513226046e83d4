/-
The rules tied together: how every phrase is read, to a given depth of phrases in one another.
A phrase inside another starts after at most a few others have started at the same place, so a
depth of a small multiple of the number of lexemes is enough.
-/
import StaleDocs.Go.Statement

namespace StaleDocs.Go

/-- How a phrase is read, given how the phrases in it are. -/
def production (n : Nat) (rules : Rules) : Phrase → FormRule
  | .type ends => fun s => (type n rules ends s).map (.plain, ·)
  | .expression mode => expression n rules mode
  | .unary mode => unary n rules mode
  | .parameters => fun s => (parameters n rules s).map (.plain, ·)
  | .literalValue => fun s => (literalValue n rules s).map (.plain, ·)
  | .block => fun s => (block n rules s).map (.plain, ·)
  | .statement => fun s => (statement n rules s).map (.plain, ·)
  | .conditional => fun s => (conditional n rules s).map (.plain, ·)

/-- How phrases are read to a depth. -/
def rulesTo : (depth : Nat) → Rules
  | 0 => fun _ _ => none
  | n + 1 => fun p s => production n (rulesTo n) p s

/-- A depth that is enough for the input. -/
def depthFor (s : Input) : Nat := 8 * s.length + 16

end StaleDocs.Go
