/-
What is read one after another (`Successive`). The rules for declarations tell of names and
specifications in the order in which they stand, between where the declaration starts and where it
ends (`code_stands`), and so do the nodes of a source (`nodes?_successive`), each of which is placed
in it (`nodes?_placed`).
-/
import StaleDocs.Proofs.Go.Placement
import StaleDocs.Proofs.Go.SourceEndings

namespace StaleDocs.Go

/-! ## Things in order -/

/-- Whether things stand one after another from `s` on and before `t`. `Q` says of each where it
starts and what it leaves. -/
inductive Successive {α : Type} (Q : α → Input → Input → Prop) : Input → List α → Input → Prop
  | nil {s t : Input} (h : t <:+ s) : Successive Q s [] t
  | cons {s u v t : Input} {x : α} {xs : List α} (hu : u <:+ s) (hv : v <:+ u) (hx : Q x u v)
      (h : Successive Q v xs t) : Successive Q s (x :: xs) t

section
variable {α β : Type} {Q : α → Input → Input → Prop} {R : β → Input → Input → Prop}
  {s s' t t' u v : Input} {x : α} {xs ys : List α}

theorem Successive.single (hv : v <:+ u) (hx : Q x u v) : Successive Q u [x] v :=
  .cons (List.suffix_refl u) hv hx (.nil (List.suffix_refl v))

theorem Successive.suffix (h : Successive Q s xs t) : t <:+ s := by
  induction h with
  | nil h => exact h
  | cons hu hv _ _ ih => exact ih.trans (hv.trans hu)

theorem Successive.of_suffix (h : Successive Q s xs t) (hs : s <:+ s') : Successive Q s' xs t := by
  cases h with
  | nil h => exact .nil (h.trans hs)
  | cons hu hv hx h => exact .cons (hu.trans hs) hv hx h

theorem Successive.before (h : Successive Q s xs t) (ht : t' <:+ t) : Successive Q s xs t' := by
  induction h with
  | nil h => exact .nil (ht.trans h)
  | cons hu hv hx _ ih => exact .cons hu hv hx (ih ht)

theorem Successive.append (h : Successive Q s xs t) (h' : Successive Q t ys u) :
    Successive Q s (xs ++ ys) u := by
  induction h with
  | nil h => exact h'.of_suffix h
  | cons hu hv hx _ ih => exact .cons hu hv hx (ih h')

/-- What each of the things is made of stands in order, too. -/
theorem Successive.flatMap {f : α → List β} (h : Successive Q s xs t)
    (hf : ∀ {x u v}, x ∈ xs → u <:+ s → v <:+ u → Q x u v → Successive R u (f x) v) :
    Successive R s (xs.flatMap f) t := by
  induction h with
  | nil h => exact .nil h
  | @cons s u v t x xs hu hv hx h ih =>
    have hhead : Successive R s (f x) v := (hf List.mem_cons_self hu hv hx).of_suffix hu
    refine hhead.append (ih fun hmem hu' hv' hx' => ?_)
    exact hf (List.mem_cons_of_mem x hmem) (hu'.trans (hv.trans hu)) hv' hx'

theorem Successive.exists_of_mem (h : Successive Q s xs t) (hx : x ∈ xs) :
    ∃ u v, u <:+ s ∧ t <:+ v ∧ Q x u v := by
  induction h with
  | nil => cases hx
  | @cons s u v t y xs hu hv hy h ih =>
    rcases List.mem_cons.1 hx with rfl | hx
    · exact ⟨u, v, hu, h.suffix, hy⟩
    · obtain ⟨u', v', hu', hv', hx'⟩ := ih hx
      exact ⟨u', v', hu'.trans (hv.trans hu), hv', hx'⟩

end

/-! ## Names and specifications -/

variable {s t u : Input} {word : String} {names : List String} {rules : Rules}
  {n fuel : Nat}

/-- Whether a name is the first lexeme. -/
def NameAt (word : String) (s t : Input) : Prop := s = ⟨.name, word⟩ :: t

theorem name_successive (h : name s = some (word, t)) : Successive NameAt s [word] t := by
  have hskip : NameAt word (skip s) t := atName_eq_some h
  have ht : t <:+ skip s := hskip ▸ List.suffix_cons _ t
  exact (Successive.single ht hskip).of_suffix (List.dropWhile_suffix _)

theorem Successive.name_mem (h : Successive NameAt s names t) :
    ∀ word ∈ names, (⟨.name, word⟩ : Lexeme) ∈ s := by
  intro word hword
  obtain ⟨u, v, hu, -, rfl⟩ := h.exists_of_mem hword
  exact hu.subset List.mem_cons_self

theorem nameList_successive (h : nameList fuel s = some (names, t)) :
    Successive NameAt s names t := by
  induction fuel generalizing s names with
  | zero => cases h
  | succ fuel ih =>
    obtain ⟨⟨first, u⟩, hu, h⟩ := Option.bind_eq_some_iff.1 h
    have hfirst : Successive NameAt s [first] u := name_successive hu
    dsimp only at h
    split at h
    · next v hv =>
      obtain ⟨⟨others, w⟩, hw, h⟩ := Option.bind_eq_some_iff.1 h
      cases h
      exact hfirst.append ((ih hw).of_suffix (mark_suffix hv))
    · cases h
      exact hfirst

theorem constSpec_successive (hr : rules.End) (h : constSpec n rules s = some (names, t)) :
    Successive NameAt s names t := by
  obtain ⟨u, hu, hrest⟩ := constSpec_rest hr h
  have ht : t <:+ u := by
    rcases hrest with rfl | hrest
    · exact List.suffix_refl _
    · exact hrest.suffix
  exact (nameList_successive hu).before ht

theorem varSpec_successive (hr : rules.End) (h : varSpec n rules s = some (names, t)) :
    Successive NameAt s names t := by
  obtain ⟨u, hu, hrest⟩ := varSpec_rest hr h
  exact (nameList_successive hu).before hrest.suffix

/-- Whether a type specification starts and ends where it says. -/
structure TypeSpec.At (spec : TypeSpec) (s t : Input) : Prop where
  start : s = spec.start
  rest : t = spec.rest
  named : ∃ tail, spec.start = ⟨.name, spec.name⟩ :: tail ∧ Ends tail spec.rest

theorem typeSpec_successive (hr : rules.End) {spec : TypeSpec}
    (h : typeSpec n rules s = some spec) : Successive TypeSpec.At s [spec] spec.rest := by
  obtain ⟨tail, hstart, hname, hrest⟩ := typeSpec_rest hr h
  have hspec : spec.rest <:+ spec.start :=
    hrest.suffix.trans (hstart ▸ hname ▸ List.suffix_cons _ _)
  refine (Successive.single hspec ⟨rfl, rfl, tail, hstart ▸ hname, hrest⟩).of_suffix ?_
  exact hstart ▸ List.dropWhile_suffix _

section
variable {α β : Type} {Q : β → Input → Input → Prop} {f : α → List β} {xs : List α} {strict : Bool}
  {spec : Input → Option (α × Input)}
  (hspec : ∀ {s x t}, spec s = some (x, t) → Successive Q s (f x) t)
include hspec

theorem specsFrom_successive (h : specsFrom strict spec fuel s = some (xs, t)) :
    Successive Q s (xs.flatMap f) t := by
  induction fuel generalizing s xs with
  | zero => cases h
  | succ fuel ih =>
    unfold specsFrom at h
    split at h
    · next rest hclose =>
      cases h
      exact .nil (mark_suffix hclose)
    · obtain ⟨⟨first, u⟩, hfirst, h⟩ := Option.bind_eq_some_iff.1 h
      have hfirst : Successive Q s (f first) u :=
        (hspec hfirst).of_suffix (List.dropWhile_suffix _)
      dsimp only at h
      split at h
      · next v hv =>
        obtain ⟨⟨others, w⟩, hothers, h⟩ := Option.bind_eq_some_iff.1 h
        cases h
        exact hfirst.append ((ih hothers).of_suffix (terminator_suffix hv))
      · obtain ⟨-, h⟩ := Option.ite_none_left_eq_some.1 h
        obtain ⟨v, hv, h⟩ := Option.bind_eq_some_iff.1 h
        cases h
        simpa using hfirst.before (mark_suffix hv)

theorem specs_successive (h : specs strict n spec s = some (xs, t)) :
    Successive Q s (xs.flatMap f) t := by
  unfold specs at h
  split at h
  · next u hu => exact (specsFrom_successive hspec h).of_suffix (mark_suffix hu)
  · obtain ⟨⟨only, u⟩, honly, h⟩ := Option.bind_eq_some_iff.1 h
    cases h
    simpa using hspec honly

end

theorem constNames_successive (hr : rules.End) (h : constNames n rules s = some (names, t)) :
    Successive NameAt s names t := by
  obtain ⟨⟨lists, u⟩, hlists, h⟩ := Option.bind_eq_some_iff.1 h
  cases h
  rw [← List.flatMap_id]
  exact specs_successive (constSpec_successive hr) hlists

theorem varNames_successive (hr : rules.End) (h : varNames n rules s = some (names, t)) :
    Successive NameAt s names t := by
  obtain ⟨⟨lists, u⟩, hlists, h⟩ := Option.bind_eq_some_iff.1 h
  cases h
  rw [← List.flatMap_id]
  exact specs_successive (varSpec_successive hr) hlists

theorem typeSpecs_successive (hr : rules.End) {list : List TypeSpec}
    (h : typeSpecs n rules s = some (list, t)) : Successive TypeSpec.At s list t := by
  have hspec : ∀ {s spec t}, (typeSpec n rules s).map (fun spec => (spec, spec.rest)) =
      some (spec, t) → Successive TypeSpec.At s [spec] t := by
    intro s spec t h
    obtain ⟨spec, hspec, h⟩ := Option.map_eq_some_iff.1 h
    cases h
    exact typeSpec_successive hr hspec
  rw [← List.flatMap_singleton' list]
  exact specs_successive hspec h

/-! ## Sources -/

/-- Whether what a piece of code declares stands in it, in order. -/
def Code.Stands (s t : Input) : Code → Prop
  | .function word => Successive NameAt s [word] t
  | .types specs => Successive TypeSpec.At s specs t
  | .constants names | .variables names => Successive NameAt s names t
  | .package _ | .other => True

variable {what : Code}

theorem topStatement_eq_some (h : topStatement n rules s = some (what, t)) :
    what = .other := by
  obtain ⟨_, -, h⟩ := Option.bind_eq_some_iff.1 h
  cases h
  rfl

theorem topStatement_stands (h : topStatement n rules s = some (what, t)) : what.Stands s t := by
  rw [topStatement_eq_some h]
  trivial

theorem methodName?_successive (hr : rules.End) (h : methodName? rules s = some (word, t)) :
    Successive NameAt s [word] t := by
  obtain ⟨u, hu, h⟩ := Option.bind_eq_some_iff.1 h
  obtain ⟨⟨word', v⟩, hv, h⟩ := Option.bind_eq_some_iff.1 h
  obtain ⟨-, h⟩ := Option.ite_none_right_eq_some.1 h
  cases h
  exact (name_successive hv).of_suffix (read_ends hr hu).suffix

theorem keywordCode_stands (hr : rules.End) (h : keywordCode n rules word s u = some (what, t))
    (hu : u <:+ s) : what.Stands s t := by
  unfold keywordCode at h
  split at h
  case h_1 | h_2 =>
    obtain ⟨v, hv, h⟩ := Option.bind_eq_some_iff.1 h
    cases h
    trivial
  case h_3 =>
    obtain ⟨⟨names, v⟩, hv, h⟩ := Option.bind_eq_some_iff.1 h
    cases h
    exact (constNames_successive hr hv).of_suffix hu
  case h_4 =>
    obtain ⟨⟨names, v⟩, hv, h⟩ := Option.bind_eq_some_iff.1 h
    cases h
    exact (varNames_successive hr hv).of_suffix hu
  case h_5 =>
    obtain ⟨⟨list, v⟩, hv, h⟩ := Option.bind_eq_some_iff.1 h
    cases h
    exact (typeSpecs_successive hr hv).of_suffix hu
  case h_6 =>
    split at h
    · next name v hname =>
      obtain ⟨w, hw, h⟩ := Option.bind_eq_some_iff.1 h
      cases h
      exact ((name_successive hname).before (functionRest_ends hr hw).suffix).of_suffix hu
    · split at h
      · next name v hname =>
        obtain ⟨w, hw, h⟩ := Option.bind_eq_some_iff.1 h
        obtain ⟨x, hx, h⟩ := Option.bind_eq_some_iff.1 h
        cases h
        have hrest : Ends v t := optionalBlock_ends hr hx (signature_ends hr hw)
        exact ((methodName?_successive hr hname).before hrest.suffix).of_suffix hu
      · exact topStatement_stands h
  case h_7 => exact topStatement_stands h

theorem code_stands (hr : rules.End) (h : code n rules s = some (what, t)) : what.Stands s t := by
  unfold code at h
  split at h
  · cases h
  · next l u =>
    split at h
    · exact keywordCode_stands hr h (List.suffix_cons l u)
    · exact topStatement_stands h

/-- The specifications of a type declaration stand in it. -/
theorem code_types_within (hr : rules.End) {specs : List TypeSpec}
    (h : code n rules s = some (.types specs, t)) : ∀ spec ∈ specs, spec.Within s t := by
  intro spec hspec
  have hstands : Successive TypeSpec.At s specs t := code_stands hr h
  obtain ⟨u, v, hu, ht, hat⟩ := hstands.exists_of_mem hspec
  obtain ⟨tail, htail, hrest⟩ := hat.named
  exact ⟨hat.start ▸ hu, ⟨tail, htail, hrest.suffix⟩, hat.rest ▸ ht⟩

/-- **Every declared name is a name in the source.** -/
theorem code_declared_mem (hr : rules.End) (h : code n rules s = some (what, t))
    {kind : SymbolKind} (hd : what.declared? = some (kind, names)) :
    ∀ word ∈ names, (⟨.name, word⟩ : Lexeme) ∈ s := by
  have hstands : what.Stands s t := code_stands hr h
  cases what with
  | package | other => cases hd
  | function | constants | «variables» =>
    cases hd
    exact Successive.name_mem hstands
  | types specs =>
    cases hd
    intro word hword
    obtain ⟨spec, hspec, rfl⟩ := List.mem_map.1 hword
    obtain ⟨u, v, hu, -, hat⟩ := Successive.exists_of_mem hstands hspec
    obtain ⟨tail, htail, -⟩ := hat.named
    exact hu.subset (hat.start ▸ htail ▸ List.mem_cons_self)

/-- Where a top-level node stands in a source: a single comment, or what the rules read as a piece
of code, on the line that it is said to start on. -/
inductive Node.At (n : Nat) (rules : Rules) (whole : Input) : Node → Input → Input → Prop
  | comment {l : Lexeme} {rest : Input} (hstart : l :: rest <:+ whole) (hkind : l.kind = .comment) :
      Node.At n rules whole
        (.comment ⟨1 + lineFeeds (between whole (l :: rest)), [l]⟩) (l :: rest) rest
  | code {what : Code} {start rest : Input} (hstart : start <:+ whole)
      (hcode : Go.code n rules start = some (what, rest)) :
      Node.At n rules whole
        (.code what start ⟨1 + lineFeeds (between whole start), between start rest⟩) start rest

theorem Node.At.placed {node : Node} {whole : Input} (h : node.At n rules whole s t) :
    node.Placed n rules whole := by
  cases h with
  | comment hstart hkind => exact .comment (between_append hstart).symm hkind
  | code hstart hcode => exact .code (between_append hstart).symm hcode

theorem nodesFrom_successive (hr : rules.End) {fuel : Nat} :
    ∀ {unclosed : Bool} {before s : Input} {nodes : List Node},
      nodesFrom n rules unclosed (1 + lineFeeds before) fuel s = some nodes →
      Successive (Node.At n rules (before ++ s)) s nodes [] := by
  induction fuel with
  | zero => intro unclosed before s nodes h; cases h
  | succ fuel ih =>
    intro unclosed before s nodes h
    cases s with
    | nil =>
      cases h
      exact .nil (List.suffix_refl _)
    | cons l s =>
      have hnext : 1 + lineFeeds before + l.lineFeeds = 1 + lineFeeds (before ++ [l]) := by
        rw [lineFeeds_append, Nat.add_assoc]
        simp [lineFeeds, Lexeme.lineFeeds]
      have happend : before ++ l :: s = before ++ [l] ++ s := by rw [List.append_cons]
      have hcons : s <:+ l :: s := List.suffix_cons l s
      have hwhole : l :: s <:+ before ++ l :: s := List.suffix_append before (l :: s)
      have hbetween : between (before ++ l :: s) (l :: s) = before :=
        List.append_cancel_right (between_append hwhole)
      have hothers : ∀ {unclosed nodes},
          nodesFrom n rules unclosed (1 + lineFeeds (before ++ [l])) fuel s = some nodes →
          Successive (Node.At n rules (before ++ l :: s)) s nodes [] := fun h => happend ▸ ih h
      simp only [nodesFrom, hnext] at h
      split at h
      · next hkind =>
        obtain ⟨others, hrest, h⟩ := Option.bind_eq_some_iff.1 h
        cases h
        have hat := @Node.At.comment n rules _ l s hwhole hkind
        rw [hbetween] at hat
        exact .cons (List.suffix_refl _) hcons hat (hothers hrest)
      · exact (hothers h).of_suffix hcons
      · exact (hothers h).of_suffix hcons
      · split at h
        · split at h
          · exact (hothers h).of_suffix hcons
          · cases h
        · obtain ⟨⟨what, rest⟩, hcode, h⟩ := Option.bind_eq_some_iff.1 h
          obtain ⟨others, hrest, h⟩ := Option.bind_eq_some_iff.1 h
          cases h
          have hsuffix : rest <:+ l :: s := (code_ends hr hcode).suffix
          have hparts : before ++ l :: s = before ++ between (l :: s) rest ++ rest := by
            rw [List.append_assoc, between_append hsuffix]
          rw [Piece.lastLine, Nat.add_assoc, ← lineFeeds_append] at hrest
          have hafter : Successive (Node.At n rules (before ++ l :: s)) rest others [] :=
            hparts ▸ ih hrest
          have hat := Node.At.code hwhole hcode
          rw [hbetween] at hat
          exact .cons (List.suffix_refl _) hsuffix hat hafter

/-- **The nodes of a source stand in it in order.** -/
theorem nodes?_successive {source : String} {nodes : List Node} (h : nodes? source = some nodes) :
    ∃ n, Successive (Node.At n (rulesTo n) (scan source)) (scan source) nodes [] := by
  simp only [nodes?, Option.ite_none_left_eq_some] at h
  exact ⟨_, @nodesFrom_successive _ _ (rulesTo_end _) _ _ [] _ _ h.2⟩

/-- **Every node of a source stands where it is said to stand.** -/
theorem nodes?_placed {source : String} {nodes : List Node} (h : nodes? source = some nodes) :
    ∃ n, ∀ node ∈ nodes, node.Placed n (rulesTo n) (scan source) := by
  obtain ⟨n, hnodes⟩ := nodes?_successive h
  refine ⟨n, fun node hnode => ?_⟩
  obtain ⟨u, v, -, -, hat⟩ := hnodes.exists_of_mem hnode
  exact hat.placed

end StaleDocs.Go
