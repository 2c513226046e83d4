/-
Rules for expressions. An operand may have prefix operators before it and selectors, brackets,
arguments and the braces of a composite literal after it; operands are joined by binary
operators. Which of two operators the same marks spell is decided by what may stand there:
where a statement may go on after its first expression, `--` and `<-` are not two operators.
-/
import StaleDocs.Go.Type

namespace StaleDocs.Go

/-- The binary operator that the input starts with, and the lexemes after it. -/
def binaryOperator (leads : Bool) (s : Input) : Option (String × Input) :=
  let starts := fun (m : String) => startsWith m s
  let assigns := leads && ["|=", "&=", "&^=", "+=", "-=", "*=", "/=", "%=", "^=", "<<=", ">>=",
    "++", "--"].any starts
  let sends := leads && starts "<-"
  if assigns || sends then none
  else
    let operators := ["||", "&&", "&^", "==", "!=", "<=", "<<", ">=", ">>",
      "|", "&", "<", ">", "+", "-", "*", "/", "%", "^"]
    match operators.find? starts with
    | some op => (atMarks op.toList s).map fun rest => (op, rest)
    | none => none

/-- The form of two operands with an operator between, if they can have one. -/
def joinedForm? (op : String) (a b : Form) : Option Form :=
  if op = "|" && a.isType && b.isType then
    some (if a.isValue && b.isValue then .either else .otherType)
  else if a.isValue && b.isValue then some .value
  else none

/-- The lexemes from the next one that can go on with a phrase of this form. -/
def Form.look (form : Form) (mode : Mode) (s : Input) : Input :=
  StaleDocs.Go.look (mode.ends && form.isValue) s

/-- More operands after one. -/
def binaryFrom (rules : Rules) (mode : Mode) (form : Form) : (fuel : Nat) → FormRule
  | 0, s => some (form, s)
  | fuel + 1, s =>
    match binaryOperator mode.leads (form.look mode s) with
    | none => some (form, s)
    | some (op, t) => do
      let (right, t) ← rules (.unary mode) t
      binaryFrom rules mode (← joinedForm? op form right) fuel t

/-- An expression or a type. -/
def expression (n : Nat) (rules : Rules) (mode : Mode) : FormRule := fun s => do
  let (form, s) ← rules (.unary mode) s
  binaryFrom rules mode form n s

/-- An argument of a call: an expression, with three points after it or without. -/
def argument (rules : Rules) (s : Input) : Option Input := do
  let s ← rules.value .inner s
  return (atMarks ['.', '.', '.'] (skip s)).getD s

/-- Arguments after their opening parenthesis. -/
def arguments (n : Nat) (rules : Rules) : Rule :=
  listed ')' (argument rules) n

/-- The arguments of `new` and `make` after their opening parenthesis: a type, and expressions
after it. -/
def makerArguments (n : Nat) (rules : Rules) (s : Input) : Option Input :=
  match mark ')' s with
  | some rest => some rest
  | none => do
    let s ← rules.read (.type false) s
    match mark ',' s with
    | some rest => listed ')' (rules.value .inner) n rest
    | none => mark ')' s

/-- The operand of a conversion after its opening parenthesis; a comma may follow it. -/
def conversionOperand (rules : Rules) (s : Input) : Option Input := do
  let s ← rules.value .inner s
  mark ')' ((mark ',' s).getD s)

/-- A key, a value or nested braces in a composite literal. -/
def element (rules : Rules) (s : Input) : Option Input :=
  if startsWith "\x7b" (skip s) then rules.read .literalValue s else rules.value .inner s

/-- An element of a composite literal, with a key or without. -/
def keyedElement (rules : Rules) (s : Input) : Option Input := do
  let s ← element rules s
  match mark ':' s with
  | some rest => element rules rest
  | none => return s

/-- The braces of a composite literal; a single comma may stand alone in them. -/
def literalValue (n : Nat) (rules : Rules) (s : Input) : Option Input := do
  let s ← mark '{' s
  match (mark ',' s).bind (mark '}') with
  | some rest => return rest
  | none => listed '}' (keyedElement rules) n s

/-- The rest of a slice expression after its first colon. -/
def sliceRest (rules : Rules) (s : Input) : Option Input :=
  match mark ']' s with
  | some rest => some rest
  | none => do
    let s ← rules.value .inner s
    match mark ']' s with
    | some rest => return rest
    | none => mark ']' (← rules.value .inner (← mark ':' s))

/-- The form of a phrase with types in brackets after it. -/
def instantiated (form : Form) (s : Input) : Option (Form × Input) :=
  match form with
  | .name | .qualified => some (.generic, s)
  | .value => if startsWith "(" (skip s) then some (.value, s) else none
  | _ => if form.isType then some (.value, s) else none

/-- The form of a phrase with a single phrase in brackets after it. -/
def subscripted (form index : Form) (s : Input) : Option (Form × Input) :=
  if index.isType && (form = .name || form = .qualified) then some (.generic, s)
  else if form.isValue && index.isValue then some (.value, s)
  else if index.isType then instantiated form s
  else none

/-- A phrase with brackets after it, from their contents on: an index, a slice or types. -/
def bracketed (n : Nat) (rules : Rules) (form : Form) : FormRule := fun s =>
  match mark ':' s with
  | some rest => if form.isValue then (sliceRest rules rest).map (.value, ·) else none
  | none => do
    let (index, t) ← rules (.expression .inner) s
    match mark ']' t with
    | some rest => subscripted form index rest
    | none =>
      match mark ':' t with
      | some rest =>
        if form.isValue && index.isValue then (sliceRest rules rest).map (.value, ·) else none
      | none =>
        match mark ',' t with
        | some rest =>
          if index.isType then do instantiated form (← listed ']' (union n rules false) n rest)
          else none
        | none => none

/-- What follows a point after a value: a name, a type in parentheses, or the question of a
type switch. -/
def selected (rules : Rules) (form : Form) : FormRule := fun s =>
  match name s with
  | some (_, rest) => some (if form = .name then .qualified else .value, rest)
  | none => do
    let s ← mark '(' s
    match (atKeyword "type" (skip s)).bind (mark ')') with
    | some rest => return (.typeQuestion, rest)
    | none => return (.value, ← mark ')' (← rules.read (.type false) s))

/-- What may follow an operand, again and again. -/
def postfixFrom (n : Nat) (rules : Rules) (mode : Mode) (form : Form) : (fuel : Nat) → FormRule
  | 0, s => some (form, s)
  | fuel + 1, s =>
    match form.look mode s with
    | [] => some (form, s)
    | l :: t =>
      match l.kind with
      | .mark '.' =>
        if form.isValue && !startsWith "." t then do
          let (form, t) ← selected rules form t
          postfixFrom n rules mode form fuel t
        else some (form, s)
      | .mark '(' =>
        if form.isValue then do postfixFrom n rules mode .value fuel (← arguments n rules t)
        else if form.isType then do postfixFrom n rules mode .value fuel (← conversionOperand rules t)
        else some (form, s)
      | .mark '[' =>
        if form.isValue || form.isType then do
          let (form, t) ← bracketed n rules form t
          postfixFrom n rules mode form fuel t
        else some (form, s)
      | .mark '{' =>
        if form.startsLiteral mode.header then do
          postfixFrom n rules mode .value fuel (← rules.read .literalValue (l :: t))
        else some (form, s)
      | _ => some (form, s)

/-- The form of a phrase in parentheses. -/
def Form.parenthesised? (form : Form) : Option Form :=
  if form.isValue && form.isType then some .either
  else if form.isValue then some .value
  else if form.isType then some .otherType
  else none

/-- An operand that starts with a bracket: an array or slice type, whose length may be left
to a composite literal. -/
def bracketOperand (rules : Rules) (s : Input) : Option (Form × Input) :=
  match atMarks ['.', '.', '.'] (skip s) with
  | some rest => do return (.openArray, ← rules.read (.type false) (← mark ']' rest))
  | none => do return (.literalType, ← arrayType rules false s)

/-- An operand that starts with `func`: a function, if a block follows, or its type. -/
def functionOperand (rules : Rules) (s : Input) : Option (Form × Input) := do
  let s ← signature rules false s
  if startsWith "\x7b" (skip s) then return (.value, ← rules.read .block s)
  else return (.otherType, s)

/-- An operand that starts with a keyword. -/
def keywordOperand (n : Nat) (rules : Rules) (word : String) (s : Input) : Option (Form × Input) :=
  if word = "func" then functionOperand rules s
  else do
    let s ← keywordType n rules false word s
    match word with
    | "struct" | "map" => return (.literalType, s)
    | "chan" => return (.channel, s)
    | _ => return (.otherType, s)

/-- An operand that is a name. Four predeclared names are values only, and `new` and `make`
take a type. -/
def nameOperand (n : Nat) (rules : Rules) (mode : Mode) (word : String) (s : Input) :
    Option (Form × Input) :=
  if ["nil", "true", "false", "iota"].contains word then some (.value, s)
  else if word = "new" || word = "make" then
    match atMark '(' (Form.value.look mode s) with
    | some rest => do return (.value, ← makerArguments n rules rest)
    | none => some (.value, s)
  else some (.name, s)

/-- An operand in parentheses, after the opening one. -/
def parenthesised (rules : Rules) (s : Input) : Option (Form × Input) := do
  let (form, s) ← rules (.expression .inner) s
  return (← form.parenthesised?, ← mark ')' s)

/-- An operand without what may follow it. -/
def bareOperand (n : Nat) (rules : Rules) (mode : Mode) (l : Lexeme) (s : Input) :
    Option (Form × Input) :=
  match l.kind with
  | .name => nameOperand n rules mode l.text s
  | .keyword => keywordOperand n rules l.text s
  | .literal => some (.value, s)
  | .string => some (.value, s)
  | .mark '(' => parenthesised rules s
  | .mark '[' => bracketOperand rules s
  | .mark '~' => (rules.read (.type false) s).map (.otherType, ·)
  | _ => none

/-- An operand with what follows it. -/
def operand (n : Nat) (rules : Rules) (mode : Mode) (l : Lexeme) (s : Input) :
    Option (Form × Input) := do
  let (form, s) ← bareOperand n rules mode l s
  postfixFrom n rules mode form n s

/-- The form of a phrase with `*` before it. -/
def Form.pointed? (form : Form) : Option Form := form.parenthesised?

/-- The form of a phrase with an arrow before it. -/
def Form.received? (form : Form) : Option Form :=
  if form = .channel then some .otherType else if form.isValue then some .value else none

/-- An operand with prefix operators. -/
def unary (n : Nat) (rules : Rules) (mode : Mode) (s : Input) : Option (Form × Input) :=
  match skip s with
  | [] => none
  | l :: s =>
    match l.kind with
    | .mark '*' => do
      let (form, s) ← rules (.unary mode) s
      return (← form.pointed?, s)
    | .mark '<' => do
      let (form, s) ← rules (.unary mode) (← atMark '-' s)
      return (← form.received?, s)
    | .mark c =>
      if c = '+' || c = '-' || c = '!' || c = '^' || c = '&' then do
        let (form, s) ← rules (.unary mode) s
        if form.isValue then return (.value, s) else none
      else operand n rules mode l s
    | _ => operand n rules mode l s

end StaleDocs.Go
