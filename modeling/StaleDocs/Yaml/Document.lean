/-
From tokens to the document they write. A text has at most one document; where a node is
missing, an empty scalar stands for it. A sequence that is the value of a mapping need not be
indented, and an item in brackets may be a mapping of one entry without braces.
-/
import StaleDocs.Yaml.Layout
import StaleDocs.Yaml.Node

namespace StaleDocs.Yaml

/-- What is left to read, and what was declared so far. -/
structure Reading where
  tokens : List Token
  /-- The number of each name of an anchor, the name that came last first. -/
  anchors : List (String × Nat)
  /-- What the handles of tags stand for. -/
  handles : List (String × String)

/-- Reading that may fail. -/
abbrev Read := StateT Reading Option

/-- The next token. -/
def peek : Read (Option Token) := return (← get).tokens.head?

/-- Passes over a token. -/
def skip : Read Unit := modify fun r => { r with tokens := r.tokens.tail }

/-- Whether the next token is one of some tokens. -/
def sees (ts : List Token) : Read Bool := return (← peek).any ts.contains

/-- Passes over this token, which has to come next. -/
def expect (t : Token) : Read Unit := do
  if ← sees [t] then skip else failure

/-- An item, or an empty scalar before one of some tokens. -/
def itemBefore (ends : List Token) (item : Read Node) : Read Node := do
  if ← sees ends then return .empty else item

/-- The items of an indented sequence onto those in `out`, last first, at most `fuel`. -/
def blockItems (item : Read Node) (out : List Node) : (fuel : Nat) → Read (List Node)
  | 0 => failure
  | fuel + 1 => do
    if ← sees [.blockEnd] then
      skip
      return out.reverse
    else
      expect .blockEntry
      let n ← itemBefore [.blockEntry, .blockEnd] item
      blockItems item (n :: out) fuel

/-- The items of a sequence that is not indented, onto those in `out`, at most `fuel`. -/
def flatItems (item : Read Node) (out : List Node) : (fuel : Nat) → Read (List Node)
  | 0 => failure
  | fuel + 1 => do
    if ← sees [.blockEntry] then
      skip
      let n ← itemBefore [.blockEntry, .key, .value, .blockEnd] item
      flatItems item (n :: out) fuel
    else return out.reverse

/-- The tokens before which the key or value of an indented mapping may be missing. -/
def blockEnds : List Token := [.key, .value, .blockEnd]

/-- The value of an entry, which is missing where its sign is. -/
def valueBefore (ends : List Token) (item : Read Node) : Read Node := do
  if ← sees [.value] then
    skip
    itemBefore ends item
  else return .empty

/-- The entries of an indented mapping onto those in `out`, last first, at most `fuel`. -/
def blockEntries (item : Read Node) (out : List (Node × Node)) :
    (fuel : Nat) → Read (List (Node × Node))
  | 0 => failure
  | fuel + 1 => do
    if ← sees [.blockEnd] then
      skip
      return out.reverse
    else
      expect .key
      let k ← itemBefore blockEnds item
      let v ← valueBefore blockEnds item
      blockEntries item ((k, v) :: out) fuel

/-- The key of a single entry in brackets. Where it is missing, the token after its sign is
passed over, whatever it is. -/
def singleKey (item : Read Node) : Read Node := do
  if ← sees [.value, .flowEntry, .flowSequenceEnd] then
    skip
    return .empty
  else item

/-- An item in brackets. -/
def flowItem (item : Read Node) : Read Node := do
  if ← sees [.key] then
    skip
    let k ← singleKey item
    let v ← valueBefore [.flowEntry, .flowSequenceEnd] item
    return .mapping none none [(k, v)]
  else item

/-- What is in brackets up to `close`, onto what is in `out`, last first, with commas between;
at most `fuel` of it. -/
def flowList {α : Type} (close : Token) (item : Read α) (out : List α) :
    (fuel : Nat) → Read (List α)
  | 0 => failure
  | fuel + 1 => do
    if ← sees [close] then
      skip
      return out.reverse
    else
      if !out.isEmpty then expect .flowEntry
      if ← sees [close] then
        skip
        return out.reverse
      else
        let a ← item
        flowList close item (a :: out) fuel

/-- An entry in braces. Without the sign of a key it is a key only. -/
def flowPair (item : Read Node) : Read (Node × Node) := do
  if ← sees [.key] then
    skip
    let k ← itemBefore [.value, .flowEntry, .flowMappingEnd] item
    let v ← valueBefore [.flowEntry, .flowMappingEnd] item
    return (k, v)
  else return (← item, .empty)

/-- The anchor and the tag before a node, in either order. -/
def properties : Read (Option String × Option TagName) := do
  match ← peek with
  | some (.anchor name) =>
    skip
    match ← peek with
    | some (.tag tag) =>
      skip
      return (some name, some tag)
    | _ => return (some name, none)
  | some (.tag tag) =>
    skip
    match ← peek with
    | some (.anchor name) =>
      skip
      return (some name, some tag)
    | _ => return (none, some tag)
  | _ => return (none, none)

/-- A tag in full; its handle has to be known. -/
def resolveTag (tag : TagName) : Read String := do
  if tag.handle.isEmpty then return tag.rest
  else
    match (← get).handles.lookup tag.handle with
    | some start => return start ++ tag.rest
    | none => failure

/-- The number of a new anchor. -/
def declareAnchor (name : String) : Read Nat := do
  let r ← get
  let number := r.anchors.length
  set { r with anchors := (name, number) :: r.anchors.filter fun a => a.1 ≠ name }
  return number

/-- The tag of a scalar; a single exclamation mark is none. -/
def scalarTag (tag : Option String) : Option String :=
  tag.filter (· ≠ "!")

/-- A node, for at most `fuel` levels. An indented collection needs `block`, a sequence that is
not indented `flat`. -/
def node : (fuel : Nat) → (block flat : Bool) → Read Node
  | 0, _, _ => failure
  | fuel + 1, block, flat => do
    if let some (.aliasOf name) ← peek then
      skip
      match (← get).anchors.lookup name with
      | some number => return .aliasOf number
      | none => failure
    else
      let (name, tagName) ← properties
      let tag ← tagName.mapM resolveTag
      let anchor ← name.mapM declareAnchor
      match ← peek with
      | some .blockEntry =>
        if flat then
          return .sequence anchor tag (← flatItems (node fuel true false) [] fuel)
        else if (name.isSome || tag.isSome) then return .scalar anchor tag .plain ""
        else failure
      | some (.scalar style text) =>
        skip
        return .scalar anchor (scalarTag tag) style text
      | some .flowSequenceStart =>
        skip
        return .sequence anchor tag
          (← flowList .flowSequenceEnd (flowItem (node fuel false false)) [] fuel)
      | some .flowMappingStart =>
        skip
        return .mapping anchor tag
          (← flowList .flowMappingEnd (flowPair (node fuel false false)) [] fuel)
      | next =>
        if block && next = some .blockSequenceStart then
          skip
          return .sequence anchor tag (← blockItems (node fuel true false) [] fuel)
        else if block && next = some .blockMappingStart then
          skip
          return .mapping anchor tag (← blockEntries (node fuel true true) [] fuel)
        else if name.isSome || tag.isSome then return .scalar anchor tag .plain ""
        else failure

/-- The handles that are known without a directive. -/
def knownHandles : List (String × String) := [("!", "!"), ("!!", "tag:yaml.org,2002:")]

/-- The directives before a document, at most `fuel`: the version may be told once, each handle
once. The flag says whether the version was told. -/
def directives (versioned : Bool) : (fuel : Nat) → Read Unit
  | 0 => failure
  | fuel + 1 => do
    match ← peek with
    | some (.version major minor) =>
      if versioned || major ≠ 1 || !(minor = 1 || minor = 2) then failure
      else
        skip
        directives true fuel
    | some (.tagHandle handle start) =>
      let r ← get
      if (r.handles.lookup handle).isSome then failure
      else
        set { r with tokens := r.tokens.tail, handles := r.handles ++ [(handle, start)] }
        directives versioned fuel
    | _ => modify fun r => { r with handles := r.handles ++ knownHandles }

/-- Whether a token is a directive. -/
def Token.isDirective : Token → Bool
  | .version .. | .tagHandle .. => true
  | _ => false

/-- Whether a token is outside of documents. -/
def Token.isOutside (t : Token) : Bool :=
  t.isDirective || t = .documentStart || t = .documentEnd

/-- The only document of a text. After directives its mark has to come. -/
def document (fuel : Nat) : Read Node := do
  let first ← peek
  directives false fuel
  let marked ← sees [.documentStart]
  if marked then skip
  if !marked && first.any Token.isDirective then failure
  let content ← if marked && (← peek).all Token.isOutside then pure .empty
    else node fuel true false
  modify fun r => { r with tokens := r.tokens.dropWhile (· = .documentEnd) }
  if (← get).tokens.isEmpty then return content else failure

/-- The document that tokens write. -/
def Node.ofTokens? (ts : List Token) : Option Node :=
  (document (2 * ts.length + 2)).run' ⟨ts, [], []⟩

/-- The document that a text writes. -/
def Node.parse? (s : String) : Option Node := do
  Node.ofTokens? (← Token.ofText? s.toList)

end StaleDocs.Yaml
