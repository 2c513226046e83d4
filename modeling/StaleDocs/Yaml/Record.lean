/-
Records as YAML: mappings of their fields, or sequences of them in order; where nothing is
written, all fields are missing. Every scalar can be read as a text. A truth value or a number
has to be plain, unless it is a literal block with the tag of its kind.
-/
import StaleDocs.Record.Basic
import StaleDocs.Yaml.Core
import StaleDocs.Yaml.Document

namespace StaleDocs.Yaml

/-- A node, and those that aliases may stand for, the last to start first. -/
structure Located where
  node : Node
  anchors : List (Nat × Node)

/-- A document as a whole. -/
def Located.ofDocument (n : Node) : Located := ⟨n, n.anchors.reverse⟩

/-- Another node of the same document. -/
def Located.withNode (v : Located) (n : Node) : Located := { v with node := n }

/-- The node itself, or the one that it is an alias of. -/
def Located.target (v : Located) : Node :=
  match v.node with
  | .aliasOf number => (v.anchors.lookup number).getD .empty
  | n => n

/-- The tag of a kind of values. -/
def coreTag (kind : String) : String := "tag:yaml.org,2002:" ++ kind

/-- A text. -/
def readText (v : Located) : Option String :=
  match v.target with
  | .scalar _ _ _ text => some text
  | _ => none

/-- The text of a scalar that may be a value of some kind. -/
def readCore (kind : String) (v : Located) : Option String :=
  match v.target with
  | .scalar _ _ .plain text => some text
  | .scalar _ tag .literal text => if tag = some (coreTag kind) then some text else none
  | _ => none

/-- Whether nothing is written. -/
def Node.isMissing : Node → Bool
  | .scalar _ _ .plain text => text.isEmpty
  | _ => false

/-- The items of a sequence. -/
def readItems (v : Located) : Option (List Located) :=
  match v.target with
  | .sequence _ _ items => some (items.map v.withNode)
  | n => if n.isMissing then some [] else none

/-- The values of a record's fields, in the order of their names. -/
def readFields (names : List String) (v : Located) : Option (List (Option Located)) :=
  match v.target with
  | .mapping _ _ entries =>
    Record.collect names (entries.map fun (k, w) => (readText (v.withNode k), v.withNode w))
  | .sequence _ _ items => Record.byPosition? names (items.map v.withNode)
  | n => if n.isMissing then Record.collect names [] else none

/-- The word in a tag of this document's own. -/
def ownWord? (tag : Option String) : Option String := do
  match (← tag).toList with
  | ['!'] => some "!"
  | '!' :: word => some (String.ofList word)
  | _ => none

/-- A word that names one of several things: the text of a scalar, or its tag, and then nothing
else may be written. -/
def readWord (v : Located) : Option String :=
  match v.target with
  | .scalar _ tag style text =>
    match ownWord? tag with
    | none => some text
    | some word => if style = .plain && (text.isEmpty || isNull text) then some word else none
  | _ => none

/-- How YAML is read. -/
def reader : Record.Reader Located where
  fields? := readFields
  text? := readText
  bool? v := (readCore "bool" v).bind bool?
  nat? v := (readCore "int" v).bind nat?
  float? v := (readCore "float" v).bind float?
  items? := readItems
  word? := readWord

end StaleDocs.Yaml
