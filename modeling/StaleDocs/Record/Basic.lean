/-
Records in whatever notation. A record with named fields is read from members, which may come
in any order and among members of other names, or from its fields in order, of which the last
ones may be missing. A field that is missing has its default, if it has one.
-/
namespace StaleDocs.Record

/-- The values of the members with the given names: none where there is no such member, and
nothing at all if one of them is repeated or a member's name denotes no text. -/
def collect {ν : Type} (names : List String) :
    List (Option String × ν) → Option (List (Option ν))
  | [] => some (names.map fun _ => none)
  | (none, _) :: _ => none
  | (some name, v) :: ms => do
    let found ← collect names ms
    if names.contains name then
      if ms.any (fun m => m.1 == some name) then none
      else return (names.zip found).map fun (n, w) => if n = name then some v else w
    else return found

/-- The values of fields that are given in their order. -/
def byPosition? {ν : Type} (names : List String) (items : List ν) : Option (List (Option ν)) :=
  if items.length ≤ names.length then
    some (items.map some ++ List.replicate (names.length - items.length) none)
  else none

/-- Reads a field that has to be there. -/
def required {ν α : Type} (read : ν → Option α) : Option ν → Option α
  | some v => read v
  | none => none

/-- Reads a field, or takes its default where it is missing. -/
def defaulted {ν α : Type} (d : α) (read : ν → Option α) : Option ν → Option α
  | some v => read v
  | none => some d

/-- How the values of a notation are read. -/
structure Reader (ν : Type) where
  /-- The fields of a record, in the order of their names. -/
  fields? : List String → ν → Option (List (Option ν))
  text? : ν → Option String
  bool? : ν → Option Bool
  nat? : ν → Option Nat
  float? : ν → Option Float
  items? : ν → Option (List ν)
  /-- A word that names one of several things. -/
  word? : ν → Option String

/-- Reads a list of texts. -/
def Reader.texts? {ν : Type} (r : Reader ν) (v : ν) : Option (List String) := do
  (← r.items? v).mapM r.text?

/-- What a record holds, to be written in some notation. -/
inductive Content where
  | text (s : String)
  | bool (b : Bool)
  | nat (n : Nat)
  | float (x : Float)
  | texts (items : List String)
  | record (fields : List (String × Content))

end StaleDocs.Record
