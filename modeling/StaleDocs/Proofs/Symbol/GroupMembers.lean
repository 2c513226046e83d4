/-
Which symbols a modified group of types makes (`typeMembers_apart`). The members of a group are
told apart as long as two of them are no aliases: each struct then has the lines and the code of
its own specification. But aliases are not counted, so a struct that is the only other member
stands for the whole declaration, and a change to any line of the group, those of the aliases
included, is one to the struct.
-/
import StaleDocs.Proofs.Go.Siblings
import StaleDocs.Proofs.Lists
import StaleDocs.Proofs.Symbol.Locality

namespace StaleDocs

namespace Go

/-- The lines of a piece. -/
def Piece.span (p : Piece) : LineSpan := ⟨p.line, p.lastLine⟩

/-- What the piece of a specification is: a part of the source that starts with its name, among
the lines of the declaration. -/
structure TypeSpec.Stands (spec : TypeSpec) (source : String) (start : Input) (p : Piece) :
    Prop where
  source : (spec.piece start p).StandsIn source
  named : (spec.piece start p).lexemes.head? = some ⟨.name, spec.name⟩
  first : p.line ≤ (spec.piece start p).line
  last : (spec.piece start p).lastLine ≤ p.lastLine

theorem TypeSpec.Within.stands {source : String} {before start rest : Input} {spec : TypeSpec}
    (hscan : scan source = before ++ start) (h : spec.Within start rest) :
    spec.Stands source start ⟨1 + lineFeeds before, between start rest⟩ := by
  obtain ⟨tail, htail, hrest⟩ := h.named
  have hspec : spec.rest <:+ spec.start := hrest.trans (htail ▸ List.suffix_cons _ _)
  have hpieces : between start spec.start ++ between spec.start spec.rest ++
      between spec.rest rest = between start rest := by
    rw [between_append_between h.start hspec, between_append_between (hspec.trans h.start) h.rest]
  refine ⟨h.standsIn hscan rfl, ?_, Nat.le_add_right _ _, ?_⟩
  · have hcons : spec.start = (⟨.name, spec.name⟩ :: between tail spec.rest) ++ spec.rest := by
      rw [List.cons_append, between_append hrest, htail]
    have hlexemes : between spec.start spec.rest = ⟨.name, spec.name⟩ :: between tail spec.rest :=
      List.append_cancel_right ((between_append hspec).trans hcons)
    rw [TypeSpec.piece, hlexemes, List.head?_cons]
  · simp only [TypeSpec.piece, Piece.lastLine, ← hpieces, lineFeeds_append]
    omega

/-- All specifications of a type declaration stand in it. -/
theorem typeSpecs_stand {source : String} {nodes : List Node} (h : nodes? source = some nodes)
    {specs : List TypeSpec} {start : Input} {p : Piece}
    (hnode : .code (.types specs) start p ∈ nodes) :
    ∀ spec ∈ specs, spec.Stands source start p := by
  obtain ⟨n, hplaced⟩ := nodes?_placed h
  cases hplaced _ hnode with
  | code hwhole hcode =>
    exact fun spec hspec => (code_types_within (rulesTo_end n) hcode spec hspec).stands hwhole

end Go

namespace Extraction
open Diff (FileChange FilePatch Covered printDiff)
open Go (Declaration LineSpan Node Piece TypeSpec)

/-- The symbols that a modified record makes of a top-level node. -/
def nodeSymbols (c : FileChange) (old : List Declaration) (node : Node) : List Symbol :=
  modifiedSymbols c.newPath old (touched c node.declarations)

theorem modifiedSymbols_nodes (c : FileChange) (old : List Declaration) (nodes : List Node) :
    modifiedSymbols c.newPath old (touched c (nodes.flatMap Node.declarations)) =
      nodes.flatMap (nodeSymbols c old) := by
  simp only [modifiedSymbols, touched, List.filter_flatMap, List.flatMap_assoc]
  rfl

/-- Whether a record covers some line of a piece. -/
def Touches (c : FileChange) (p : Piece) : Prop := ∃ n ∈ p.span.lines, Covered c.hunks n

instance (c : FileChange) (p : Piece) : Decidable (Touches c p) :=
  inferInstanceAs (Decidable (∃ n ∈ p.span.lines, _))

/-- What a symbol says about its place: its name, its lines and its code. -/
def place (s : Symbol) : String × LineSpan × String := (s.name, ⟨s.startLine, s.endLine⟩, s.newCode)

/-- What a symbol that stands for a piece says. -/
def placeOf (name : String) (p : Piece) : String × LineSpan × String := (name, p.span, p.text)

/-- The symbols of a declaration that has one name for each of some pieces. -/
theorem nodeSymbols_pieces {α : Type} {c : FileChange} (hf : c.Fits) (old : List Declaration)
    {node : Node} {xs : List α} {name : α → String} {piece : α → Piece}
    (h : node.declarations = xs.map fun x => .ofPiece .type [name x] (piece x)) :
    (nodeSymbols c old node).map place =
      (xs.filter fun x => Touches c (piece x)).map fun x => placeOf (name x) (piece x) := by
  have hoverlaps : ∀ p : Piece, p.span.overlaps c.hunks = decide (Touches c p) := fun p => by
    rw [Bool.eq_iff_iff, decide_eq_true_iff]
    exact LineSpan.overlaps_iff (Nat.le_add_right _ _) hf
  have htouched : touched c (xs.map fun x => .ofPiece .type [name x] (piece x)) =
      (xs.filter fun x => Touches c (piece x)).map fun x => .ofPiece .type [name x] (piece x) := by
    rw [touched, List.filter_map]
    congr 1
    exact List.filter_congr fun x _ => hoverlaps (piece x)
  rw [nodeSymbols, h, htouched]
  simp only [modifiedSymbols, List.map_flatMap, List.flatMap_map, place, placeOf, symbolOf,
    Declaration.ofPiece, Piece.span, List.map_cons, List.map_nil]
  rw [List.map_eq_flatMap]

/-- The struct types among specifications. -/
def structsOf (specs : List TypeSpec) : List TypeSpec :=
  specs.filter fun spec => spec.struct && !spec.isAlias

/-- Members that are on lines of their own share no line. -/
theorem eq_of_shared_line {specs : List TypeSpec} {start : Go.Input} {p : Piece}
    (hlines : specs.Pairwise fun a b => (a.piece start p).lastLine < (b.piece start p).line)
    {a b : TypeSpec} (ha : a ∈ specs) (hb : b ∈ specs) {n : Nat}
    (hna : n ∈ (a.piece start p).span.lines) (hnb : n ∈ (b.piece start p).span.lines) : a = b := by
  rw [LineSpan.mem_lines] at hna hnb
  have hpair : specs.Pairwise fun a b => ∀ n, (a.piece start p).span.first ≤ n →
      n ≤ (a.piece start p).span.last → (b.piece start p).span.first ≤ n →
      n ≤ (b.piece start p).span.last → a = b := by
    refine hlines.imp fun {a b} h n _ hlast hfirst _ => ?_
    exact absurd (Nat.lt_of_le_of_lt hlast (Nat.lt_of_lt_of_le h hfirst)) (Nat.lt_irrefl n)
  have : Std.Symm fun a b : TypeSpec => ∀ n, (a.piece start p).span.first ≤ n →
      n ≤ (a.piece start p).span.last → (b.piece start p).span.first ≤ n →
      n ≤ (b.piece start p).span.last → a = b :=
    ⟨fun _ _ h n h₁ h₂ h₃ h₄ => (h n h₃ h₄ h₁ h₂).symm⟩
  exact hpair.forall_of_forall (fun _ _ _ _ _ _ _ => rfl) ha hb n hna.1 hna.2 hnb.1 hnb.2

/-- Of two members that are no aliases each stands for itself. -/
theorem ofSpecs_apart {specs : List TypeSpec} {a b : TypeSpec} (ha : a ∈ specs) (hb : b ∈ specs)
    (hne : a ≠ b) (hatype : a.isAlias = false) (hbtype : b.isAlias = false) (start : Go.Input)
    (p : Piece) :
    Declaration.ofSpecs specs start p =
      (structsOf specs).map fun spec => .ofPiece .type [spec.name] (spec.piece start p) := by
  have hlength : (specs.filter fun spec => !spec.isAlias).length ≠ 1 := by
    intro hone
    obtain ⟨only, honly⟩ := List.length_eq_one_iff.1 hone
    have hmem : ∀ {spec}, spec ∈ specs → spec.isAlias = false → spec = only := by
      intro spec hspec htype
      have hfilter : spec ∈ specs.filter fun spec => !spec.isAlias :=
        List.mem_filter.2 ⟨hspec, by rw [htype]; rfl⟩
      rwa [honly, List.mem_singleton] at hfilter
    exact hne ((hmem ha hatype).trans (hmem hb hbtype).symm)
  simp only [Declaration.ofSpecs, hlength, if_false, List.filter_filter, structsOf]

/-- A struct among aliases stands for the whole declaration. -/
theorem ofSpecs_lone {specs : List TypeSpec} (hnodup : specs.Nodup) {spec : TypeSpec}
    (hspec : spec ∈ structsOf specs)
    (halias : ∀ other ∈ specs, other.isAlias = false → other = spec) (start : Go.Input)
    (p : Piece) :
    Declaration.ofSpecs specs start p = [.ofPiece .type [spec.name] p] := by
  have hstruct := (List.mem_filter.1 hspec).2
  rw [Bool.and_eq_true] at hstruct
  have hmem : spec ∈ specs.filter fun spec => !spec.isAlias :=
    List.mem_filter.2 ⟨List.mem_of_mem_filter hspec, hstruct.2⟩
  have hall : ∀ other ∈ specs.filter fun spec => !spec.isAlias, other = spec := fun other hother =>
    halias other (List.mem_of_mem_filter hother) (by simpa using (List.mem_filter.1 hother).2)
  have honly := eq_singleton_of_nodup (hnodup.filter _) hmem hall
  simp [Declaration.ofSpecs, honly, hstruct.1]

/-- A struct whose lines are not covered makes no symbol: the lines that are covered are those of
other members, and no two members share one. -/
theorem place_ne {c : FileChange} {specs : List TypeSpec} {start : Go.Input} {p : Piece}
    {old : List Declaration} {node : Node}
    (hlines : specs.Pairwise fun a b => (a.piece start p).lastLine < (b.piece start p).line)
    (hplaces : (nodeSymbols c old node).map place =
      ((structsOf specs).filter fun spec => Touches c (spec.piece start p)).map
        fun spec => placeOf spec.name (spec.piece start p))
    {spec : TypeSpec} (hspec : spec ∈ specs)
    (hothers : ∀ n, Covered c.hunks n → ∃ other ∈ specs, other ≠ spec ∧
      n ∈ (other.piece start p).span.lines) :
    ∀ s ∈ nodeSymbols c old node, place s ≠ placeOf spec.name (spec.piece start p) := by
  intro s hsym heq
  have hmem : place s ∈ ((structsOf specs).filter fun spec => Touches c (spec.piece start p)).map
      fun spec => placeOf spec.name (spec.piece start p) := hplaces ▸ List.mem_map_of_mem hsym
  rw [heq] at hmem
  obtain ⟨member, hmember, hsame⟩ := List.mem_map.1 hmem
  have hspan : (member.piece start p).span = (spec.piece start p).span :=
    congrArg (fun x => x.2.1) hsame
  obtain ⟨n, hline, hcovered⟩ : Touches c (member.piece start p) := by
    simpa using (List.mem_filter.1 hmember).2
  rw [hspan] at hline
  obtain ⟨other, hother, hne, hline'⟩ := hothers n hcovered
  exact hne (eq_of_shared_line hlines hother hspec hline' hline)

variable (repo : Repository Id) (base : String)

/-- **Members of a group of types are told apart by its types, not by its aliases.** A modified
record makes the symbols of a file node by node. For a type declaration whose members stand on
lines of their own, each in its place in the source: if two of them are no aliases, there is one
symbol for each struct with a line that the record covers, with the lines and the code of that
member, and none for a member if only lines of others are covered. But if all others are
aliases, a struct has the lines and the code of the whole declaration, and is there if any of
its lines is covered. -/
theorem typeMembers_apart {diff text : String} {changes : List FileChange} {c : FileChange}
    {nodes : List Node} {specs : List TypeSpec} {start : Go.Input} {p : Piece}
    (hp : Diff.parse diff = .ok changes) (hc : c ∈ changes) (hk : c.kind = .modified)
    (hs : Go.isSourcePath c.newPath = true) (ht : (repo.current c.newPath).run = .ok text)
    (hn : Go.nodes? text = some nodes) (hnode : .code (.types specs) start p ∈ nodes)
    (hlines : specs.Pairwise fun a b => (a.piece start p).lastLine < (b.piece start p).line) :
    ∃ before after old stats, changes = before ++ c :: after ∧
      (extract repo base diff).run =
        .ok (emittedBy repo base before ++ nodes.flatMap (nodeSymbols c old) ++
          emittedBy repo base after, stats) ∧
      (∀ spec ∈ specs, spec.Stands text start p) ∧
      (∀ a ∈ specs, ∀ b ∈ specs, a ≠ b → a.isAlias = false → b.isAlias = false →
        (nodeSymbols c old (.code (.types specs) start p)).map place =
          ((structsOf specs).filter fun spec => Touches c (spec.piece start p)).map
            (fun spec => placeOf spec.name (spec.piece start p)) ∧
        ∀ spec ∈ structsOf specs,
          (∀ n, Covered c.hunks n → ∃ other ∈ specs, other ≠ spec ∧
            n ∈ (other.piece start p).span.lines) →
          ∀ s ∈ nodeSymbols c old (.code (.types specs) start p),
            place s ≠ placeOf spec.name (spec.piece start p)) ∧
      (∀ spec ∈ structsOf specs, (∀ other ∈ specs, other.isAlias = false → other = spec) →
        (nodeSymbols c old (.code (.types specs) start p)).map place =
          if Touches c p then [placeOf spec.name p] else []) := by
  have hf : c.Fits := (Diff.parse_kept hp).1 c hc
  have hd : Go.declarations? text = some (nodes.flatMap Node.declarations) := by
    rw [Go.declarations?, hn, Option.map_some]
  obtain ⟨before, after, hsplit⟩ := List.append_of_mem hc
  obtain ⟨stats, hrun⟩ := extract_run repo base hp
  have hall : emittedBy repo base changes =
      emittedBy repo base before ++ emitted repo base c ++ emittedBy repo base after := by
    simp [emittedBy, sourceChanges, hsplit, hs]
  rw [emitted_modified repo base hk ht hd, modifiedSymbols_nodes] at hall
  refine ⟨before, after, _, stats, hsplit, hall ▸ hrun, Go.typeSpecs_stand hn hnode, ?_, ?_⟩
  · intro a ha b hb hne hatype hbtype
    have hapart : (Node.code (.types specs) start p).declarations = _ :=
      ofSpecs_apart ha hb hne hatype hbtype start p
    have hplaces := nodeSymbols_pieces hf (oldDeclarations (repo.fileAt c.oldPath base).run) hapart
    exact ⟨hplaces, fun spec hspec => place_ne hlines hplaces (List.mem_of_mem_filter hspec)⟩
  · intro spec hspec halias
    have hnodup : specs.Nodup := hlines.imp fun {a b} h => by
      rintro rfl
      exact absurd h (Nat.not_lt.2 (Nat.le_add_right _ _))
    have hlone : (Node.code (.types specs) start p).declarations =
        [spec].map fun spec => .ofPiece .type [spec.name] p :=
      ofSpecs_lone hnodup hspec halias start p
    rw [nodeSymbols_pieces hf _ hlone]
    split <;> simp [*]

/-- A source with two groups of types: in one two structs and an alias, in the other a struct and
an alias. -/
def twoGroups : String :=
  "package p\n\ntype (\n\tA struct \x7b\n\t\tX int\n\t\x7d\n\tB = int\n\tC struct\x7b\x7d\n)\n\n" ++
    "type (\n\tD struct\x7b\x7d\n\tE = D\n)\n"

/-- A diff that changes the last two members of the one group and the alias of the other. -/
def membersChanged : List FilePatch :=
  [{ oldPath := "p.go", newPath := "p.go", kind := .modified, extended := [], sides := true
     hunks :=
       [{ header := ⟨7, 2, 7, 2⟩, heading := ""
          body :=
            [.removed "\tB = string", .removed "\tC int", .added "\tB = int",
              .added "\tC struct\x7b\x7d"] },
        { header := ⟨13, 1, 13, 1⟩, heading := ""
          body := [.removed "\tE = A", .added "\tE = D"] }] }]

/-- The record of that diff. -/
def membersRecord : FileChange :=
  { oldPath := "p.go"
    newPath := "p.go"
    kind := .modified
    hunks := [⟨7, 2, 7, 2⟩, ⟨13, 1, 13, 1⟩]
    addedLines := ["\tB = int", "\tC struct\x7b\x7d", "\tE = D"]
    removedLines := ["\tB = string", "\tC int", "\tE = A"] }

theorem parse_membersChanged : Diff.parse (printDiff membersChanged) = .ok [membersRecord] := by
  rw [Diff.parse_printDiff_plain (by decide +kernel) (by decide +kernel),
    Diff.recordAll_nil (by decide) (by decide)]
  rfl

/-- The type declarations of a source: their specifications, where they start, and their
pieces. -/
def groups (source : String) : List (List TypeSpec × Go.Input × Piece) :=
  ((Go.nodes? source).getD []).filterMap fun node =>
    match node with
    | .code (.types specs) start p => some (specs, start, p)
    | _ => none

theorem mem_nodes_of_groups {source : String} {nodes : List Node}
    (hn : Go.nodes? source = some nodes) {specs : List TypeSpec} {start : Go.Input} {p : Piece}
    (h : (specs, start, p) ∈ groups source) :
    .code (.types specs) start p ∈ nodes := by
  rw [groups, hn, Option.getD_some, List.mem_filterMap] at h
  obtain ⟨node, hnode, h⟩ := h
  split at h <;> cases h
  exact hnode

/-- In the first group the one struct with changed lines is reported, on its own lines; in the
second the struct is reported for the alias, with the whole declaration. -/
theorem typeMembers_apart_twoGroups : ∃ nodes specs start p specs' start' p' old old',
    Go.nodes? twoGroups = some nodes ∧
    groups twoGroups = [(specs, start, p), (specs', start', p')] ∧
    specs.map (fun spec => (spec.name, spec.struct, spec.isAlias)) =
      [("A", true, false), ("B", false, true), ("C", true, false)] ∧
    specs'.map (fun spec => (spec.name, spec.struct, spec.isAlias)) =
      [("D", true, false), ("E", false, true)] ∧
    (nodeSymbols membersRecord old (.code (.types specs) start p)).map place =
      [("C", ⟨8, 8⟩, "C struct\x7b\x7d")] ∧
    (nodeSymbols membersRecord old' (.code (.types specs') start' p')).map place =
      [("D", ⟨11, 14⟩, "type (\n\tD struct\x7b\x7d\n\tE = D\n)")] := by
  obtain ⟨nodes, hn⟩ := Option.isSome_iff_exists.1
    (by decide +kernel : (Go.nodes? twoGroups).isSome = true)
  obtain ⟨⟨specs, start, p⟩, ⟨specs', start', p'⟩, hgroups⟩ := List.length_eq_two.1
    (by decide +kernel : (groups twoGroups).length = 2)
  obtain ⟨hlines, hfacts, hapart, hlone⟩ :
      (∀ g ∈ groups twoGroups, g.1.Pairwise fun a b =>
        (a.piece g.2.1 g.2.2).lastLine < (b.piece g.2.1 g.2.2).line) ∧
      (groups twoGroups).map (fun g => g.1.map fun spec => (spec.name, spec.struct, spec.isAlias)) =
        [[("A", true, false), ("B", false, true), ("C", true, false)],
          [("D", true, false), ("E", false, true)]] ∧
      (groups twoGroups).head?.map (fun g =>
        ((structsOf g.1).filter fun spec => Touches membersRecord (spec.piece g.2.1 g.2.2)).map
          fun spec => placeOf spec.name (spec.piece g.2.1 g.2.2)) =
        some [("C", ⟨8, 8⟩, "C struct\x7b\x7d")] ∧
      (groups twoGroups).getLast?.map (fun g =>
        if Touches membersRecord g.2.2 then [placeOf "D" g.2.2] else []) =
        some [("D", ⟨11, 14⟩, "type (\n\tD struct\x7b\x7d\n\tE = D\n)")] := by
    decide +kernel
  have hnode : .code (.types specs) start p ∈ nodes := mem_nodes_of_groups hn (by simp [hgroups])
  have hnode' : .code (.types specs') start' p' ∈ nodes :=
    mem_nodes_of_groups hn (by simp [hgroups])
  simp only [hgroups, List.map_cons, List.map_nil, List.cons.injEq, and_true, List.head?_cons,
    List.getLast?_cons_cons, List.getLast?_singleton, Option.map_some, Option.some.injEq,
    List.forall_mem_cons] at hlines hfacts hapart hlone
  let repo : Repository Id := Repository.Snapshot.repository ⟨[], [("p.go", twoGroups)], [], false⟩
  have hsource : Go.isSourcePath "p.go" = true := by decide +kernel
  obtain ⟨-, -, old, -, -, -, -, hmembers, -⟩ := typeMembers_apart repo "HEAD" parse_membersChanged
    List.mem_cons_self rfl hsource rfl hn hnode hlines.1
  obtain ⟨-, -, old', -, -, -, -, -, hwhole⟩ := typeMembers_apart repo "HEAD" parse_membersChanged
    List.mem_cons_self rfl hsource rfl hn hnode' hlines.2.1
  refine ⟨nodes, specs, start, p, specs', start', p', old, old', hn, hgroups, hfacts.1, hfacts.2,
    ?_, ?_⟩
  · obtain ⟨a, b, e, rfl⟩ := List.length_eq_three.1 (by simpa using congrArg List.length hfacts.1)
    have h := hfacts.1
    simp only [List.map_cons, List.map_nil, List.cons.injEq, Prod.mk.injEq, and_true] at h
    obtain ⟨⟨ha, -, hatype⟩, -, he, -, hetype⟩ := h
    have hne : a ≠ e := by
      rintro rfl
      exact absurd (ha.symm.trans he) (by decide)
    exact hapart ▸ (hmembers a (by simp) e (by simp) hne hatype hetype).1
  · obtain ⟨d, e, rfl⟩ := List.length_eq_two.1 (by simpa using congrArg List.length hfacts.2)
    have h := hfacts.2
    simp only [List.map_cons, List.map_nil, List.cons.injEq, Prod.mk.injEq, and_true] at h
    obtain ⟨⟨hd, hstruct, htype⟩, -, -, healias⟩ := h
    have hmem : d ∈ structsOf [d, e] := List.mem_filter.2 ⟨by simp, by simp [hstruct, htype]⟩
    have hplace := hwhole d hmem (by simp [healias])
    rwa [hd, hlone] at hplace

end Extraction
end StaleDocs
