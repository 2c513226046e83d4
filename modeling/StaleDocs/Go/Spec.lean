/-
Rules for declarations of constants, variables, types and imports, alone or in parentheses.
Each tells what it declares.
-/
import StaleDocs.Go.Expression

namespace StaleDocs.Go

/-- What one specification of a type declaration declares. -/
structure TypeSpec where
  name : String
  /-- Whether it is another name for a type. -/
  isAlias : Bool
  /-- Whether its type is a struct, written out. -/
  struct : Bool
  /-- The lexemes from its name on. -/
  start : Input
  /-- The lexemes after it. -/
  rest : Input

/-- Names with commas between. -/
def nameList : (fuel : Nat) → Input → Option (List String × Input)
  | 0, _ => none
  | fuel + 1, s => do
    let (first, s) ← name s
    match mark ',' s with
    | some rest => do
      let (names, s) ← nameList fuel rest
      return (first :: names, s)
    | none => return ([first], s)

/-- Values with commas between. -/
def valueList (n : Nat) (rules : Rules) (mode : Mode) : Rule :=
  separated (fun s => atMark ',' (look mode.ends s)) (rules.value mode) n

/-- The end of a declaration: an expression that a line end closes. -/
def Mode.closing : Mode := ⟨true, false, false⟩

/-- The names of a constant specification. A type needs values after it. -/
def constSpec (n : Nat) (rules : Rules) (s : Input) : Option (List String × Input) := do
  let (names, s) ← nameList n s
  let t := skipInline s
  let values := valueList n rules .closing
  match atMark '=' t with
  | some rest => return (names, ← values rest)
  | none =>
    if startsType t || startsWith "(" t then do
      return (names, ← values (← mark '=' (← rules.read (.type false) t)))
    else return (names, s)

/-- The names of a variable specification, which has a type, values or both. -/
def varSpec (n : Nat) (rules : Rules) (s : Input) : Option (List String × Input) := do
  let (names, s) ← nameList n s
  let values := valueList n rules .closing
  match mark '=' s with
  | some rest => return (names, ← values rest)
  | none => do
    let s ← rules.read (.type true) s
    match atMark '=' (skipInline s) with
    | some rest => return (names, ← values rest)
    | none => return (names, s)

/-- Whether the next lexeme that matters is the keyword of a struct type. -/
def startsStruct (s : Input) : Bool := (atKeyword "struct" (skip s)).isSome

/-- An array or slice type from its opening bracket on, where it is not one of the lists of
type parameters that look the same. -/
def arrayOfSpec? (rules : Rules) (s : Input) : Option Input := do
  let t ← match mark ']' s with
    | some rest => some rest
    | none => do mark ']' (← rules.value .inner s)
  if (mark '=' t).isSome then none else rules.read (.type true) t

/-- The type of a specification after its name or type parameters: whether it is an alias,
whether it is a struct, and the lexemes after it. -/
def specType (rules : Rules) (s : Input) : Option (Bool × Bool × Input) :=
  match mark '=' s with
  | some rest => do return (true, startsStruct rest, ← rules.read (.type true) rest)
  | none => do return (false, startsStruct s, ← rules.read (.type true) s)

/-- A type specification. Brackets after the name hold type parameters only if they cannot be
read as those of an array type. -/
def typeSpec (n : Nat) (rules : Rules) (s : Input) : Option TypeSpec := do
  let start := skip s
  let (name, s) ← atName start
  match mark '[' s with
  | none => do
    let (isAlias, struct, rest) ← specType rules s
    return ⟨name, isAlias, struct, start, rest⟩
  | some t =>
    match arrayOfSpec? rules t with
    | some rest => return ⟨name, false, false, start, rest⟩
    | none => do
      let (isAlias, struct, rest) ← specType rules (← typeParameters n rules t)
      return ⟨name, isAlias, struct, start, rest⟩

/-- An import: a name, a point or neither, and a path. -/
def importSpec (s : Input) : Option Input :=
  let s := skip s
  match name s with
  | some (_, rest) => atString (skip rest)
  | none =>
    match atMark '.' s with
    | some rest => atString (skip rest)
    | none => atString s

/-- Specifications up to a closing parenthesis, with a terminator between any two and, if
`strict`, after the last too. -/
def specsFrom {α : Type} (strict : Bool) (spec : Input → Option (α × Input)) :
    (fuel : Nat) → Input → Option (List α × Input)
  | 0, _ => none
  | fuel + 1, s =>
    match mark ')' s with
    | some rest => some ([], rest)
    | none => do
      let (first, s) ← spec (skip s)
      match terminator s with
      | some rest => do
        let (others, s) ← specsFrom strict spec fuel rest
        return (first :: others, s)
      | none => if strict then none else return ([first], ← mark ')' s)

/-- Specifications after the keyword of a declaration: a single one, or any number in
parentheses. -/
def specs {α : Type} (strict : Bool) (n : Nat) (spec : Input → Option (α × Input)) (s : Input) :
    Option (List α × Input) :=
  match mark '(' s with
  | some rest => specsFrom strict spec n rest
  | none => do
    let (only, s) ← spec s
    return ([only], s)

/-- The names that a constant declaration binds, from after its keyword on. -/
def constNames (n : Nat) (rules : Rules) (s : Input) : Option (List String × Input) := do
  let (names, s) ← specs true n (constSpec n rules) s
  return (names.flatten, s)

/-- The names that a variable declaration binds, from after its keyword on. -/
def varNames (n : Nat) (rules : Rules) (s : Input) : Option (List String × Input) := do
  let (names, s) ← specs true n (varSpec n rules) s
  return (names.flatten, s)

/-- The specifications of a type declaration, from after its keyword on. -/
def typeSpecs (n : Nat) (rules : Rules) (s : Input) : Option (List TypeSpec × Input) :=
  specs false n (fun s => (typeSpec n rules s).map fun spec => (spec, spec.rest)) s

/-- An import declaration from after its keyword on. -/
def imports (n : Nat) (s : Input) : Option Input :=
  (specs false n (fun s => (importSpec s).map ((), ·)) s).map (·.2)

end StaleDocs.Go
