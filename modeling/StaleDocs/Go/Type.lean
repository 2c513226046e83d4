/-
Rules for types: names with type arguments, pointers, arrays, slices, structs, interfaces,
maps, channels and functions; and the lists that belong to functions, of parameters and of
type parameters. `n` bounds the length of every list.
-/
import StaleDocs.Go.Phrase

namespace StaleDocs.Go

/-- A union of types, `A | B`. -/
def union (n : Nat) (rules : Rules) (ends : Bool) : Rule :=
  separated (fun s => atMark '|' (look ends s)) (rules.read (.type ends)) n

/-- Type arguments after their opening bracket, at least one. -/
def typeArguments (n : Nat) (rules : Rules) (s : Input) : Option Input :=
  if (mark ']' s).isSome then none else listed ']' (union n rules false) n s

/-- Type arguments in brackets, if there are any. -/
def optionalTypeArguments (n : Nat) (rules : Rules) (ends : Bool) : Rule := fun s =>
  match atMark '[' (look ends s) with
  | some rest => typeArguments n rules rest
  | none => some s

/-- A second name after a point, if there is one. -/
def optionalSecondName (ends : Bool) (s : Input) : Input :=
  match (atMark '.' (look ends s)).bind name with
  | some (_, rest) => rest
  | none => s

/-- A type name from its first name on: the package's name, or the type's. -/
def typeName (n : Nat) (rules : Rules) (ends : Bool) (s : Input) : Option Input := do
  let (_, s) ← name s
  optionalTypeArguments n rules ends (optionalSecondName ends s)

/-- Whether a type other than a parenthesised one may start here. -/
def startsType : Input → Bool
  | l :: s =>
    match l.kind with
    | .name => true
    | .keyword => ["struct", "interface", "map", "chan", "func"].contains l.text
    | .mark c => c = '*' || c = '[' || c = '~' || (c = '<' && startsWith "-" s)
    | _ => false
  | [] => false

/-- The result of a function, if there is one: parameters or a type. -/
def result (rules : Rules) (ends : Bool) (s : Input) : Option Input :=
  let t := look ends s
  if startsWith "(" t then rules.read .parameters t
  else if startsType t then rules.read (.type ends) t
  else some s

/-- Parameters and a result. -/
def signature (rules : Rules) (ends : Bool) : Rule := fun s => do
  result rules ends (← rules.read .parameters s)

/-- Whether a field may end here. -/
def endsField (s : Input) : Bool :=
  (terminator s).isSome || (mark '}' s).isSome || (atString (skipInline s)).isSome

/-- A field from its first name on: an embedded type, or names and their type. -/
def namedField (n : Nat) (rules : Rules) (s : Input) : Option Input := do
  let (_, rest) ← name s
  let t := skipInline rest
  if endsField t then return rest
  else if startsWith "." t then typeName n rules true s
  else
    match (atMark '[' t).bind (typeArguments n rules) with
    | some u => if endsField u then return u else rules.read (.type true) rest
    | none =>
      match atMark ',' t with
      | some rest => do
        rules.read (.type true) (← separated (mark ',') (fun s => (name s).map (·.2)) n rest)
      | none => rules.read (.type true) rest

/-- A field: names and a type, or an embedded type, perhaps a pointer; and its tag. -/
def field (n : Nat) (rules : Rules) (s : Input) : Option Input := do
  let body := match atMark '*' s with
    | some s => typeName n rules true s
    | none => namedField n rules s
  let s ← body
  return (atString (skipInline s)).getD s

/-- A method of an interface, or a union of types. -/
def interfaceElement (n : Nat) (rules : Rules) (s : Input) : Option Input :=
  match name s with
  | some (_, rest) =>
    let t := skipInline rest
    if startsWith "(" t then signature rules true t else union n rules true s
  | none => union n rules true s

/-- An array or slice type after its opening bracket. -/
def arrayType (rules : Rules) (ends : Bool) (s : Input) : Option Input := do
  let s ← match mark ']' s with
    | some rest => some rest
    | none => do mark ']' (← rules.value .inner s)
  rules.read (.type ends) s

/-- A type that starts with a keyword. -/
def keywordType (n : Nat) (rules : Rules) (ends : Bool) (word : String) (s : Input) :
    Option Input :=
  match word with
  | "struct" => do terminated false '}' (field n rules) n (← mark '{' s)
  | "interface" => do terminated false '}' (interfaceElement n rules) n (← mark '{' s)
  | "map" => do
    let s ← rules.read (.type false) (← mark '[' s)
    rules.read (.type ends) (← mark ']' s)
  | "chan" =>
    match atMarks ['<', '-'] (skip s) with
    | some rest => rules.read (.type ends) rest
    | none => rules.read (.type ends) s
  | "func" => signature rules ends s
  | _ => none

/-- A type. -/
def type (n : Nat) (rules : Rules) (ends : Bool) (s : Input) : Option Input :=
  match skip s with
  | [] => none
  | l :: rest =>
    match l.kind with
    | .name => typeName n rules ends (l :: rest)
    | .keyword => keywordType n rules ends l.text rest
    | .mark '(' => do mark ')' (← rules.read (.type false) rest)
    | .mark '*' => rules.read (.type ends) rest
    | .mark '~' => rules.read (.type ends) rest
    | .mark '[' => arrayType rules ends rest
    | .mark '<' => do rules.read (.type ends) (← atKeyword "chan" (skip (← atMark '-' rest)))
    | _ => none

/-- A parameter: a type, a name and a type, or either with three points before the type. -/
def parameter (n : Nat) (rules : Rules) (s : Input) : Option Input :=
  let s := skip s
  let anyType := rules.read (.type false)
  match atMarks ['.', '.', '.'] s with
  | some rest => anyType rest
  | none =>
    match atName s with
    | none => anyType s
    | some (_, rest) =>
      let t := skip rest
      let done := fun (u : Input) => (mark ',' u).isSome || (mark ')' u).isSome
      if done t then some rest
      else
        match atMarks ['.', '.', '.'] t with
        | some u => anyType u
        | none =>
          if startsWith "." t then typeName n rules false s
          else
            match (atMark '[' t).bind (typeArguments n rules) with
            | some u => if done u then some u else anyType rest
            | none => anyType rest

/-- Parameters in parentheses, between which and after which there may be commas; a single
comma may stand alone. -/
def parameters (n : Nat) (rules : Rules) (s : Input) : Option Input := do
  let s ← mark '(' s
  match (mark ',' s).bind (mark ')') with
  | some rest => return rest
  | none => listed ')' (parameter n rules) n s

/-- Type parameters after their opening bracket, where `pending` says that names wait for
their constraint. -/
def typeParametersFrom (n : Nat) (rules : Rules) (pending : Bool) : (fuel : Nat) → Rule
  | 0, _ => none
  | fuel + 1, s =>
    match mark ']' s with
    | some rest => if pending then none else some rest
    | none => do
      let (_, s) ← name s
      match mark ',' s with
      | some rest => typeParametersFrom n rules true fuel rest
      | none => do
        let s ← union n rules false s
        match mark ',' s with
        | some rest => typeParametersFrom n rules false fuel rest
        | none => mark ']' s

/-- Type parameters after their opening bracket, at least one. -/
def typeParameters (n : Nat) (rules : Rules) (s : Input) : Option Input :=
  if (mark ']' s).isSome then none else typeParametersFrom n rules false n s

end StaleDocs.Go
