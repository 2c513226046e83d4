/-
Rules for statements and blocks. The statements of a block are separated by terminators; a
semicolon where a statement may start is a statement itself.
-/
import StaleDocs.Go.Spec

namespace StaleDocs.Go

/-- The assignment operator that the input starts with: whether it defines its left side, and
the lexemes after it. -/
def assignment (s : Input) : Option (Bool × Input) :=
  let operators := ["<<=", ">>=", "&^=", ":=", "+=", "-=", "*=", "/=", "%=", "&=", "|=", "^="]
  match operators.find? fun op => startsWith op s with
  | some op => (atMarks op.toList s).map (op = ":=", ·)
  | none => if startsWith "==" s then none else (atMark '=' s).map (false, ·)

/-- The plain or defining assignment that the input starts with: the lexemes after it. -/
def binding (s : Input) : Option Input :=
  match atMarks [':', '='] s with
  | some rest => some rest
  | none => if startsWith "==" s then none else atMark '=' s

/-- The right side of an assignment or a send. A block cannot follow it in the first part of a
header, so there it may hold composite literals. -/
def Mode.right (mode : Mode) (part : Bool) : Mode := ⟨mode.ends, mode.header && !part, false⟩

/-- What follows the first expression of a simple statement. `form` is that of the expression;
`part` says that the statement is the first part of a header, unless the header ends with it. -/
def simpleRest (n : Nat) (rules : Rules) (mode : Mode) (part : Bool) (form : Form) : FormRule :=
  fun s =>
  let t := look mode.ends s
  if !form.isValue then some (form, s)
  else
    match atMarks ['+', '+'] t, atMarks ['-', '-'] t, atMarks ['<', '-'] t with
    | some rest, _, _ => some (.plain, rest)
    | _, some rest, _ => some (.plain, rest)
    | _, _, some rest => (rules.value (mode.right part) rest).map (.plain, ·)
    | none, none, none => do
      let left := if startsWith "," t then
          (atMark ',' t).bind (valueList n rules ⟨mode.ends, false, true⟩)
        else some s
      let left ← left
      match assignment (look mode.ends left) with
      | some (defines, rest) => do
        let (right, u) ← rules (.expression (mode.right part)) rest
        if defines && right = .typeQuestion then return (.typeQuestion, u)
        else if !right.isValue then none
        else
          match atMark ',' (look mode.ends u) with
          | some v => do return (.plain, ← valueList n rules (mode.right part) v)
          | none => return (.plain, u)
      | none => if startsWith "," t then none else return (form, s)

/-- A simple statement: an expression, whose form it keeps, or something done with one. -/
def simple (n : Nat) (rules : Rules) (mode : Mode) (part : Bool) : FormRule := fun s => do
  let (form, s) ← rules (.expression mode) s
  simpleRest n rules mode part form s

/-- The condition, value or operand at the end of a header. -/
def Mode.head : Mode := ⟨false, true, false⟩

/-- The first part of a header. -/
def Mode.firstHead : Mode := ⟨false, true, true⟩

/-- A statement after an optional label at the end of a list: the label alone. -/
def loneLabel (s : Input) : Option Input := do
  let (_, s) ← name s
  atMark ':' (skip s)

/-- Whether a list of statements ends here. -/
def endsStatements (s : Input) : Bool :=
  let s := skip s
  startsWith "\x7d" s || (atKeyword "case" s).isSome || (atKeyword "default" s).isSome

/-- Statements up to the end of their block or case, which is not read. -/
def statements (rules : Rules) : (fuel : Nat) → Rule
  | 0, _ => none
  | fuel + 1, s =>
    if endsStatements s then some s
    else
      match (loneLabel s).filter endsStatements with
      | some rest => some rest
      | none => do
        let s ← rules.read .statement s
        match terminator s with
        | some rest => statements rules fuel rest
        | none => if endsStatements s then return s else none

/-- A block. -/
def block (n : Nat) (rules : Rules) (s : Input) : Option Input := do
  mark '}' (← statements rules n (← mark '{' s))

/-- An `if` statement after its keyword. -/
def conditional (n : Nat) (rules : Rules) (s : Input) : Option Input := do
  let (form, s) ← simple n rules .firstHead true s
  let s ← match mark ';' s with
    | some rest => if form = .typeQuestion then none else rules.value .head rest
    | none => if form.isValue then some s else none
  let s ← rules.read .block s
  match atKeyword "else" (skipInline s) with
  | none => return s
  | some rest =>
    match atKeyword "if" (skip rest) with
    | some rest => rules.read .conditional rest
    | none => rules.read .block rest

/-- The condition and the last part of a loop's header, after its first semicolon. -/
def loopClause (n : Nat) (rules : Rules) (s : Input) : Option Input := do
  let s ← match mark ';' s with
    | some rest => some rest
    | none => do mark ';' (← rules.value .head s)
  if startsWith "\x7b" (skip s) then return s
  else do
    let (form, s) ← simple n rules .firstHead false s
    if form = .plain || form.isValue then return s else none

/-- The operand of a loop over a range, after the keyword. -/
def rangeOperand (rules : Rules) (s : Input) : Option Input := rules.value .head s

/-- The left side of a loop over a range: the lexemes after the keyword. -/
def rangeLeft (n : Nat) (rules : Rules) (s : Input) : Option Input := do
  let s ← valueList n rules .firstHead s
  atKeyword "range" (skip (← binding (skip s)))

/-- The header of a loop. -/
def loopHeader (n : Nat) (rules : Rules) (s : Input) : Option Input :=
  let s := skip s
  if startsWith "\x7b" s then some s
  else
    match atKeyword "range" s, mark ';' s with
    | some rest, _ => rangeOperand rules rest
    | _, some rest => loopClause n rules rest
    | none, none =>
      match rangeLeft n rules s with
      | some rest => rangeOperand rules rest
      | none => do
        let (form, s) ← simple n rules .firstHead true s
        match mark ';' s with
        | some rest => if form = .typeQuestion then none else loopClause n rules rest
        | none => if form.isValue then return s else none

/-- Cases up to the closing brace, each a keyword, what `guard` reads, and statements. -/
def cases (n : Nat) (rules : Rules) (guard : Rule) : (fuel : Nat) → Rule
  | 0, _ => none
  | fuel + 1, s =>
    match mark '}' s with
    | some rest => some rest
    | none => do
      let s := skip s
      let s ← match atKeyword "default" s with
        | some rest => some rest
        | none => do guard (← atKeyword "case" s)
      cases n rules guard fuel (← statements rules n (← mark ':' s))

/-- Types with commas between. -/
def typeList (n : Nat) (rules : Rules) : Rule :=
  separated (mark ',') (rules.read (.type false)) n

/-- The cases of a switch whose header ended with a phrase of this form. -/
def switchCases (n : Nat) (rules : Rules) (form : Form) (s : Input) : Option Input := do
  let s ← mark '{' s
  if form = .typeQuestion then cases n rules (typeList n rules) n s
  else cases n rules (valueList n rules .inner) n s

/-- A `switch` statement after its keyword. -/
def switch (n : Nat) (rules : Rules) (s : Input) : Option Input :=
  if startsWith "\x7b" (skip s) then switchCases n rules .plain s
  else do
    let (form, s) ← simple n rules .firstHead true s
    match mark ';' s with
    | none => if form = .plain then none else switchCases n rules form s
    | some rest =>
      if form = .typeQuestion then none
      else if startsWith "\x7b" (skip rest) then switchCases n rules .plain rest
      else do
        let (form, s) ← simple n rules .firstHead true rest
        if form.isValue || form = .typeQuestion then switchCases n rules form s else none

/-- What a case of a `select` statement waits for: a value, one sent, or one received. -/
def communication (n : Nat) (rules : Rules) (s : Input) : Option Input := do
  let s ← rules.value ⟨false, false, true⟩ s
  let t := skip s
  match atMarks ['<', '-'] t with
  | some rest => rules.value .inner rest
  | none => do
    let left ← match atMark ',' t with
      | some rest => valueList n rules ⟨false, false, true⟩ rest
      | none => some s
    match binding (skip left) with
    | some rest => rules.value .inner rest
    | none => if startsWith "," t then none else return s

/-- A name on the same line, if there is one. -/
def optionalLabel (s : Input) : Input :=
  match atName (skipInline s) with
  | some (_, rest) => rest
  | none => s

/-- Whether an expression may start on the same line. -/
def startsValue (s : Input) : Bool :=
  match skipInline s with
  | [] => false
  | l :: rest =>
    match l.kind with
    | .name | .literal | .string => true
    | .keyword => ["func", "struct", "map", "chan", "interface"].contains l.text
    | .mark c => "+-!^*&([~".toList.contains c || (c = '<' && startsWith "-" rest)
    | _ => false

/-- A statement that starts with a keyword. -/
def keywordStatement (n : Nat) (rules : Rules) (word : String) (s : Input) : Option Input :=
  match word with
  | "const" => (constNames n rules s).map (·.2)
  | "var" => (varNames n rules s).map (·.2)
  | "type" => (typeSpecs n rules s).map (·.2)
  | "return" => if startsValue s then valueList n rules .closing s else some s
  | "go" | "defer" => rules.value .closing s
  | "if" => rules.read .conditional s
  | "for" => do rules.read .block (← loopHeader n rules s)
  | "switch" => switch n rules s
  | "select" => do cases n rules (communication n rules) n (← mark '{' s)
  | "fallthrough" => some s
  | "break" | "continue" => some (optionalLabel s)
  | "goto" => (name s).map (·.2)
  | _ => none

/-- A simple statement on its own. -/
def simpleStatement (n : Nat) (rules : Rules) (s : Input) : Option Input := do
  let (form, s) ← simple n rules ⟨true, false, true⟩ false s
  if form = .plain || form.isValue then return s else none

/-- A statement. -/
def statement (n : Nat) (rules : Rules) (s : Input) : Option Input :=
  match skip s with
  | [] => none
  | l :: rest =>
    match l.kind with
    | .mark '{' => rules.read .block (l :: rest)
    | .mark ';' => some rest
    | .name =>
      let t := skipInline rest
      match atMark ':' t with
      | some u => if startsWith "=" u then simpleStatement n rules (l :: rest)
        else rules.read .statement u
      | none => simpleStatement n rules (l :: rest)
    | .keyword =>
      match keywordStatement n rules l.text rest with
      | some rest => some rest
      | none => simpleStatement n rules (l :: rest)
    | _ => simpleStatement n rules (l :: rest)

end StaleDocs.Go
