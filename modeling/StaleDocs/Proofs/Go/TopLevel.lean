/-
The names that a source declares at its top level, and which of them can be
looked up. A declaration starts with the keyword of its family
(`code_declared`), so that the keyword says which kind its names are
looked up with. All names are found with that kind but the blank one of
constants and variables, and types other than structs (`find?_isSome_iff`).
-/
import StaleDocs.Docs.Binding

namespace StaleDocs.Go
open Docs (kindOfKey)

/-! ## Keywords -/

/-- The kind of declaration that a piece of code is, with the names that it declares. -/
def Code.declared? : Code → Option (SymbolKind × List String)
  | .function name => some (.function, [name])
  | .types specs => some (.type, specs.map (·.name))
  | .constants names => some (.const, names)
  | .variables names => some (.var, names)
  | .package _ | .other => none

/-- The keyword of a kind of declaration. -/
def SymbolKind.keyword : SymbolKind → String
  | .function => "func"
  | .type => "type"
  | .const => "const"
  | .var => "var"

theorem kindOfKey_keyword (kind : SymbolKind) : kindOfKey kind.keyword.toList = kind := by
  cases kind <;> decide

theorem topStatement_declared {n : Nat} {rules : Rules} {s rest : Input} {what : Code}
    (h : topStatement n rules s = some (what, rest)) : what.declared? = none := by
  obtain ⟨_, -, h⟩ := Option.bind_eq_some_iff.1 h
  cases h
  rfl

theorem keywordCode_declared {n : Nat} {rules : Rules} {word : String} {s rest rest' : Input}
    {what : Code} (h : keywordCode n rules word s rest = some (what, rest')) {kind : SymbolKind}
    {names : List String} (hd : what.declared? = some (kind, names)) : word = kind.keyword := by
  unfold keywordCode at h
  split at h
  -- Packages and imports declare nothing.
  case h_1 | h_2 =>
    obtain ⟨_, -, h⟩ := Option.bind_eq_some_iff.1 h
    cases h
    cases hd
  case h_3 | h_4 | h_5 =>
    obtain ⟨_, -, h⟩ := Option.bind_eq_some_iff.1 h
    cases h
    cases hd
    rfl
  case h_6 =>
    split at h
    · obtain ⟨_, -, h⟩ := Option.bind_eq_some_iff.1 h
      cases h
      cases hd
      rfl
    · split at h
      · obtain ⟨_, -, h⟩ := Option.bind_eq_some_iff.1 h
        obtain ⟨_, -, h⟩ := Option.bind_eq_some_iff.1 h
        cases h
        cases hd
        rfl
      · rw [topStatement_declared h] at hd
        cases hd
  case h_7 =>
    rw [topStatement_declared h] at hd
    cases hd

/-- A declaration is read from the keyword of its kind on. -/
theorem code_declared {n : Nat} {rules : Rules} {s rest : Input} {what : Code}
    (h : code n rules s = some (what, rest)) {kind : SymbolKind} {names : List String}
    (hd : what.declared? = some (kind, names)) : s.head? = some ⟨.keyword, kind.keyword⟩ := by
  cases s with
  | nil => simp [code] at h
  | cons l s =>
    obtain ⟨lexeme, text⟩ := l
    simp only [code] at h
    split at h
    · next hk =>
      rw [List.head?_cons, hk, keywordCode_declared h hd]
    · rw [topStatement_declared h] at hd
      cases hd

/-- Every piece of code of a source is read by the rules. -/
theorem code_of_mem_nodesFrom {n : Nat} {rules : Rules} {fuel : Nat} : ∀ {unclosed : Bool}
    {line : Nat} {s : Input} {nodes : List Node}, nodesFrom n rules unclosed line fuel s = some nodes →
    ∀ {what : Code} {start : Input} {piece : Piece}, .code what start piece ∈ nodes →
    ∃ rest, code n rules start = some (what, rest) := by
  induction fuel with
  | zero => intro _ _ _ _ h; simp [nodesFrom] at h
  | succ fuel ih =>
    intro unclosed line s nodes h what start piece hmem
    cases s with
    | nil => simp only [nodesFrom, Option.some.injEq] at h; simp [← h] at hmem
    | cons l s =>
      simp only [nodesFrom] at h
      split at h
      · obtain ⟨others, hothers, h⟩ := Option.bind_eq_some_iff.1 h
        cases h
        have hmem : .code what start piece ∈ others := by simpa using hmem
        exact ih hothers hmem
      · exact ih h hmem
      · exact ih h hmem
      · split at h
        · split at h
          · exact ih h hmem
          · cases h
        · obtain ⟨⟨what', rest⟩, hcode, h⟩ := Option.bind_eq_some_iff.1 h
          obtain ⟨others, hothers, h⟩ := Option.bind_eq_some_iff.1 h
          cases h
          rcases List.mem_cons.1 hmem with heq | hmem
          · cases heq
            exact ⟨rest, hcode⟩
          · exact ih hothers hmem

/-- The names that a node declares, if it starts with a keyword. -/
def Node.names (keyword : String) : Node → List String
  | .comment _ => []
  | .code what start _ =>
    if start.head? = some ⟨.keyword, keyword⟩ then (what.declared?.map (·.2)).getD [] else []

/-- Whether a source declares a name at its top level, in a declaration that starts with a
keyword. -/
def Declares (source keyword name : String) : Prop :=
  ∃ nodes, nodes? source = some nodes ∧ ∃ node ∈ nodes, name ∈ node.names keyword

instance (source keyword name : String) : Decidable (Declares source keyword name) :=
  decidable_of_iff (∃ node ∈ (nodes? source).getD [], name ∈ node.names keyword) (by
    cases h : nodes? source <;> simp [Declares, h])

/-! ## Look-up -/

/-- Whether a name can be looked up in a piece of code with a kind: a type has to be a struct,
and a constant or variable may not be blank. -/
inductive Code.Binds : Code → SymbolKind → String → Prop
  | function (name : String) : Code.Binds (.function name) .function name
  | struct {specs : List TypeSpec} {spec : TypeSpec} (hmem : spec ∈ specs)
      (hstruct : spec.struct = true) (halias : spec.isAlias = false) :
      Code.Binds (.types specs) .type spec.name
  | constant {names : List String} {name : String} (hmem : name ∈ names) (hne : name ≠ "_") :
      Code.Binds (.constants names) .const name
  | variable {names : List String} {name : String} (hmem : name ∈ names) (hne : name ≠ "_") :
      Code.Binds (.variables names) .var name

/-- Whether a name can be looked up in a source with a kind. -/
def Binds (source : String) (kind : SymbolKind) (name : String) : Prop :=
  ∃ nodes what start piece, nodes? source = some nodes ∧ .code what start piece ∈ nodes ∧
    what.Binds kind name

/-- The struct types that a node declares. -/
def Node.structs : Node → List String
  | .code (.types specs) _ _ =>
    (specs.filter fun spec => spec.struct && !spec.isAlias).map (·.name)
  | _ => []

/-- Whether a source declares a struct type with a name. -/
def DeclaresStruct (source name : String) : Prop :=
  ∃ nodes, nodes? source = some nodes ∧ ∃ node ∈ nodes, name ∈ node.structs

instance (source name : String) : Decidable (DeclaresStruct source name) :=
  decidable_of_iff (∃ node ∈ (nodes? source).getD [], name ∈ node.structs) (by
    cases h : nodes? source <;> simp [DeclaresStruct, h])

theorem declares_ofPiece {kind kind' : SymbolKind} {names : List String} {p : Piece} {name : String} :
    (Declaration.ofPiece kind names p).declares name kind' = true ↔ kind = kind' ∧ name ∈ names := by
  change (decide (kind = kind') && names.contains name) = true ↔ _
  simp

theorem declares_ofNames {kind kind' : SymbolKind} {names : List String} {p : Piece} {name : String} :
    (∃ d ∈ Declaration.ofNames kind names p, d.declares name kind' = true) ↔
      kind = kind' ∧ name ∈ names ∧ name ≠ "_" := by
  have hmem : name ∈ names ∧ name ≠ "_" ↔ name ∈ names.filter (· ≠ "_") := by simp
  rw [Declaration.ofNames, hmem]
  split
  · next h => simp only [h, List.not_mem_nil, false_and, exists_false, and_false]
  · simp only [List.mem_singleton, exists_eq_left, declares_ofPiece]

theorem declares_iff {what : Code} {start : Input} {piece : Piece} {kind : SymbolKind}
    {name : String} : (∃ d ∈ (Node.code what start piece).declarations, d.declares name kind = true) ↔
      what.Binds kind name := by
  cases what with
  | package _ | other =>
    constructor
    · rintro ⟨d, hd, -⟩
      simp [Node.declarations] at hd
    · rintro ⟨⟩
  | function name' =>
    simp only [Node.declarations, List.mem_singleton, exists_eq_left, declares_ofPiece]
    constructor
    · rintro ⟨rfl, rfl⟩
      exact .function name
    · rintro ⟨⟩
      exact ⟨rfl, rfl⟩
  | types specs =>
    simp only [Node.declarations, Declaration.ofSpecs, List.mem_map, List.mem_filter,
      Bool.not_eq_true', and_assoc]
    constructor
    · rintro ⟨_, ⟨spec, hmem, halias, hstruct, rfl⟩, hdeclares⟩
      obtain ⟨rfl, hname⟩ := declares_ofPiece.1 hdeclares
      rw [List.mem_singleton.1 hname]
      exact .struct hmem hstruct halias
    · rintro ⟨⟩
      exact ⟨_, ⟨_, ‹_›, ‹_›, ‹_›, rfl⟩, declares_ofPiece.2 ⟨rfl, List.mem_singleton_self _⟩⟩
  | constants names | «variables» names =>
    rw [Node.declarations, declares_ofNames]
    constructor
    · rintro ⟨rfl, hmem, hne⟩
      constructor <;> assumption
    · rintro ⟨⟩
      exact ⟨rfl, ‹_›, ‹_›⟩

/-- A look-up finds exactly the names that can be looked up. -/
theorem find?_isSome_iff {source : String} {ds : List Declaration}
    (h : declarations? source = some ds) {name : String} {kind : SymbolKind} :
    (Declaration.find? ds name kind).isSome = true ↔ Binds source kind name := by
  obtain ⟨nodes, hnodes, rfl⟩ := Option.map_eq_some_iff.1 h
  simp only [Declaration.find?, List.find?_isSome, List.mem_flatMap]
  constructor
  · rintro ⟨d, ⟨node, hnode, hd⟩, hdeclares⟩
    cases node with
    | comment => simp [Node.declarations] at hd
    | code what start piece =>
      exact ⟨nodes, what, start, piece, hnodes, hnode, declares_iff.1 ⟨d, hd, hdeclares⟩⟩
  · rintro ⟨nodes', what, start, piece, hnodes', hnode, hbinds⟩
    cases hnodes.symm.trans hnodes'
    obtain ⟨d, hd, hdeclares⟩ := (@declares_iff what start piece kind name).2 hbinds
    exact ⟨d, ⟨_, hnode, hd⟩, hdeclares⟩

theorem binds_type_iff {source name : String} : Binds source .type name ↔ DeclaresStruct source name := by
  constructor
  · rintro ⟨nodes, what, start, piece, hnodes, hnode, hbinds⟩
    cases hbinds with
    | struct hmem hstruct halias =>
      exact ⟨nodes, hnodes, _, hnode, by simpa [Node.structs] using ⟨_, ⟨hmem, hstruct, halias⟩, rfl⟩⟩
  · rintro ⟨nodes, hnodes, node, hnode, hname⟩
    unfold Node.structs at hname
    split at hname
    · next specs start piece =>
      simp only [List.mem_map, List.mem_filter, Bool.and_eq_true, Bool.not_eq_true'] at hname
      obtain ⟨spec, ⟨hmem, hstruct, halias⟩, rfl⟩ := hname
      exact ⟨nodes, _, start, piece, hnodes, hnode, .struct hmem hstruct halias⟩
    · cases hname

/-- A declared name is one of a piece of code of the kind that the keyword stands for. -/
theorem Declares.of_kind {source keyword name : String} (h : Declares source keyword name) :
    ∃ nodes what start piece kind names, nodes? source = some nodes ∧
      .code what start piece ∈ nodes ∧ what.declared? = some (kind, names) ∧ name ∈ names ∧
      keyword = kind.keyword := by
  obtain ⟨nodes, hnodes, node, hnode, hname⟩ := h
  cases node with
  | comment => cases hname
  | code what start piece =>
    simp only [Node.names] at hname
    split at hname
    · next hkeyword =>
      cases hdeclared : what.declared? with
      | none => simp [hdeclared] at hname
      | some declared =>
        have hfrom := hnodes
        simp only [nodes?, Option.ite_none_left_eq_some] at hfrom
        obtain ⟨rest, hcode⟩ := code_of_mem_nodesFrom hfrom.2 hnode
        refine ⟨nodes, what, start, piece, declared.1, declared.2, hnodes, hnode, hdeclared, ?_, ?_⟩
        · simpa [hdeclared] using hname
        · simpa using hkeyword.symm.trans (code_declared hcode hdeclared)
    · cases hname

/-- A declared name can be looked up with the kind that the keyword of its declaration names,
unless it is blank, or the name of a type that is no struct. -/
theorem Declares.binds {source keyword name : String} (h : Declares source keyword name)
    (hname : name ≠ "_") (hstruct : keyword = "type" → DeclaresStruct source name) :
    Binds source (kindOfKey keyword.toList) name := by
  obtain ⟨nodes, what, start, piece, kind, names, hnodes, hnode, hdeclared, hmem, rfl⟩ := h.of_kind
  rw [kindOfKey_keyword]
  cases what with
  | package _ | other => cases hdeclared
  | function =>
    cases hdeclared
    rw [List.mem_singleton.1 hmem]
    exact ⟨nodes, _, start, piece, hnodes, hnode, .function _⟩
  | types specs =>
    cases hdeclared
    exact binds_type_iff.2 (hstruct rfl)
  | constants | «variables» =>
    cases hdeclared
    refine ⟨nodes, _, start, piece, hnodes, hnode, ?_⟩
    constructor <;> assumption

end StaleDocs.Go
