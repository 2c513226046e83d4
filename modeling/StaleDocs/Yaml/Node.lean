/-
What a YAML document holds: scalars, sequences and mappings, each with a tag if it has one, and
aliases that stand for other nodes. An anchor has a number, which is how many names of anchors
were known when it came; an alias refers to the number that its name has at that point. Where
nodes share a number, the last one to start has it.
-/
import StaleDocs.Yaml.Token

namespace StaleDocs.Yaml

/-- A node of a document, with the number of its anchor and its tag. -/
inductive Node where
  | scalar (anchor : Option Nat) (tag : Option String) (style : Style) (text : String)
  | sequence (anchor : Option Nat) (tag : Option String) (items : List Node)
  | mapping (anchor : Option Nat) (tag : Option String) (entries : List (Node × Node))
  | aliasOf (number : Nat)

/-- The node that stands where nothing is written. -/
def Node.empty : Node := .scalar none none .plain ""

/-- An anchor's number with its node. -/
def anchored (anchor : Option Nat) (n : Node) : List (Nat × Node) :=
  (anchor.map fun number => (number, n)).toList

mutual

/-- The nodes with anchors in a node, in the order of their starts. -/
def Node.anchors : Node → List (Nat × Node)
  | .scalar anchor tag style text => anchored anchor (.scalar anchor tag style text)
  | .sequence anchor tag items =>
    anchored anchor (.sequence anchor tag items) ++ itemAnchors items
  | .mapping anchor tag entries =>
    anchored anchor (.mapping anchor tag entries) ++ entryAnchors entries
  | .aliasOf _ => []

/-- The nodes with anchors in some nodes. -/
def itemAnchors : List Node → List (Nat × Node)
  | [] => []
  | n :: ns => n.anchors ++ itemAnchors ns

/-- The nodes with anchors in the entries of a mapping. -/
def entryAnchors : List (Node × Node) → List (Nat × Node)
  | [] => []
  | (k, v) :: es => k.anchors ++ v.anchors ++ entryAnchors es

end

end StaleDocs.Yaml
