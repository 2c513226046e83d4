/-
The tokens of YAML text. Indentation is turned into tokens of its own that start and end the
collections it stands for, and what may be a key is told apart from what is none.
-/
namespace StaleDocs.Yaml

/-- How a scalar is written. -/
inductive Style where
  | plain
  | singleQuoted
  | doubleQuoted
  | literal
  | folded
deriving DecidableEq

/-- A tag as it is written: the handle stands for the start of the tag. -/
structure TagName where
  handle : String
  rest : String
deriving DecidableEq

/-- A token; the end of the text has none. -/
inductive Token where
  | version (major minor : Nat)
  | tagHandle (handle start : String)
  | documentStart
  | documentEnd
  | blockSequenceStart
  | blockMappingStart
  | blockEnd
  | flowSequenceStart
  | flowSequenceEnd
  | flowMappingStart
  | flowMappingEnd
  | blockEntry
  | flowEntry
  | key
  | value
  | aliasOf (name : String)
  | anchor (name : String)
  | tag (name : TagName)
  | scalar (style : Style) (text : String)
deriving DecidableEq

end StaleDocs.Yaml
