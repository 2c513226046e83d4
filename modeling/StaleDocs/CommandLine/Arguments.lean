/-
Arguments by the options that a command knows. A long option may have its value attached after
an equality sign; else the words that follow are its values, up to the next option. What starts
with a dash is an option, a single dash alone excepted, and after two dashes alone nothing is.
An option that takes no list is given once at most.
-/
import StaleDocs.Text.Path
import StaleDocs.Text.Search

namespace StaleDocs.CommandLine

/-- How many values an option takes. -/
inductive Arity where
  | flag
  | one
  | many
deriving DecidableEq

/-- An option: its name, and which values it takes. -/
structure OptionSpec where
  name : String
  arity : Arity
  accepts : String → Bool

/-- What a command knows. -/
structure CommandSpec where
  options : List OptionSpec
  /-- Whether it takes words that are no options, and which. -/
  accepts : Option (String → Bool)
  /-- Whether it can be asked for the version. -/
  versioned : Bool

/-- Why arguments lead to no command. -/
inductive Stop where
  | help
  | version
  | misuse
deriving DecidableEq

/-- What was given so far. -/
structure Given where
  /-- The options with their values. -/
  options : List (String × List String)
  /-- The other words, last first. -/
  words : List String
  /-- An option that waits for values, with those so far, last first. -/
  pending : Option (OptionSpec × List String)

/-- Nothing given. -/
def Given.nothing : Given := ⟨[], [], none⟩

/-- Adds an option with its values; lists are appended to. -/
def Given.add (g : Given) (o : OptionSpec) (values : List String) : Except Stop Given :=
  if !values.all o.accepts then .error .misuse
  else
    match g.options.lookup o.name with
    | none => .ok { g with options := (o.name, values) :: g.options }
    | some earlier =>
      if o.arity = .many then .ok { g with options := (o.name, earlier ++ values) :: g.options }
      else .error .misuse

/-- Ends the option that waits for values; it needs one at least. -/
def Given.settle (g : Given) : Except Stop Given :=
  match g.pending with
  | none => .ok g
  | some (_, []) => .error .misuse
  | some (o, v :: values) => { g with pending := none }.add o (v :: values).reverse

/-- Adds a word that is no option. -/
def Given.word (g : Given) (spec : CommandSpec) (w : String) : Except Stop Given :=
  match spec.accepts with
  | some accepts => if accepts w then .ok { g with words := w :: g.words } else .error .misuse
  | none => .error .misuse

/-- The name of a long option and the value attached to it. -/
def splitLong (cs : List Char) : String × Option String :=
  match Text.breakAt? ['='] cs with
  | some (name, value) => (String.ofList name, some (String.ofList value))
  | none => (String.ofList cs, none)

/-- Takes a long option after its dashes. -/
def Given.long (g : Given) (spec : CommandSpec) (cs : List Char) : Except Stop Given := do
  let (name, value) := splitLong cs
  match spec.options.find? (·.name = name), value with
  | some o, some v =>
    if o.arity = .flag then throw .misuse else (← g.settle).add o [v]
  | some o, none =>
    let g ← g.settle
    if o.arity = .flag then g.add o [] else return { g with pending := some (o, []) }
  | none, none =>
    let _ ← g.settle
    if name = "help" then throw .help
    else if name = "version" && spec.versioned then throw .version
    else throw .misuse
  | none, some _ => throw .misuse

/-- Takes short options after their dash. All of them end the reading. -/
def Given.short (g : Given) (spec : CommandSpec) (c : Char) : Except Stop Given := do
  let _ ← g.settle
  if c = 'h' then throw .help
  else if c = 'V' && spec.versioned then throw .version
  else throw .misuse

/-- Takes a value of the option that waits for values. -/
def Given.value (g : Given) (o : OptionSpec) (values : List String) (v : String) :
    Except Stop Given :=
  let g := { g with pending := some (o, v :: values) }
  if o.arity = .many then .ok g else g.settle

/-- Takes one argument. -/
def Given.take (g : Given) (spec : CommandSpec) (argument : String) : Except Stop Given :=
  match argument.toList, g.pending with
  | '-' :: '-' :: cs, _ => g.long spec cs
  | '-' :: c :: _, _ => g.short spec c
  | _, some (o, values) => g.value o values argument
  | _, none => g.word spec argument

/-- The arguments of a command. -/
def Given.takeAll (g : Given) (spec : CommandSpec) : List String → Except Stop Given
  | [] => g.settle
  | "--" :: words => do words.foldlM (fun g w => g.word spec w) (← g.settle)
  | argument :: arguments => do (← g.take spec argument).takeAll spec arguments

/-- The only value of an option, if it is given. -/
def Given.value? (g : Given) (name : String) : Option String :=
  (g.options.lookup name).bind List.head?

/-- All values of an option. -/
def Given.values (g : Given) (name : String) : List String := (g.options.lookup name).getD []

/-- Whether an option is given. -/
def Given.has (g : Given) (name : String) : Bool := (g.options.lookup name).isSome

end StaleDocs.CommandLine
