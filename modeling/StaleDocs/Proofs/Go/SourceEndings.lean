/-
Where declarations, statements and whole sources end: with lexemes that are no spaces. So the rules
do at every depth (`rulesTo_end`), and every piece of code of a source does (`code_ends`). Only the
statements of a block and the header of a loop may end with a space, or be nothing at all.
-/
import StaleDocs.Go.Source
import StaleDocs.Proofs.Go.Endings

namespace StaleDocs.Go

variable {s t u v : Input} {l : Lexeme} {word : String} {rules : Rules} {n fuel : Nat} {mode : Mode}
  {form form' : Form}

/-! ## Declarations -/

variable {names : List String}

theorem nameList_ends (h : nameList fuel s = some (names, t)) : Ends s t := by
  induction fuel generalizing s names with
  | zero => cases h
  | succ fuel ih =>
    obtain ⟨⟨first, u⟩, hu, h⟩ := Option.bind_eq_some_iff.1 h
    have hname : Ends s u := name_ends hu
    dsimp only at h
    split at h
    · next v hv =>
      obtain ⟨⟨others, w⟩, hw, h⟩ := Option.bind_eq_some_iff.1 h
      cases h
      exact hname.trans ((mark_ends hv).trans (ih hw))
    · cases h
      exact hname

theorem valueList_ends (hr : rules.End) (h : valueList n rules mode s = some t) : Ends s t :=
  separated_ends (value_ends hr) (fun h => (atMark_ends h).of_look) h

/-- A specification of constants ends with its names, or with what stands after them. -/
theorem constSpec_rest (hr : rules.End) (h : constSpec n rules s = some (names, t)) :
    ∃ u, nameList n s = some (names, u) ∧ (t = u ∨ Ends u t) := by
  obtain ⟨⟨list, u⟩, hlist, h⟩ := Option.bind_eq_some_iff.1 h
  dsimp only at h
  split at h
  · next v hv =>
    obtain ⟨w, hw, h⟩ := Option.bind_eq_some_iff.1 h
    cases h
    have hmark : Ends u v := (atMark_ends hv).of_skipInline
    exact ⟨u, hlist, .inr (hmark.trans (valueList_ends hr hw))⟩
  · split at h
    · obtain ⟨v, hv, h⟩ := Option.bind_eq_some_iff.1 h
      obtain ⟨w, hw, h⟩ := Option.bind_eq_some_iff.1 h
      obtain ⟨x, hx, h⟩ := Option.bind_eq_some_iff.1 h
      cases h
      have htype : Ends u v := (read_ends hr hv).of_skipInline
      exact ⟨u, hlist, .inr (htype.trans ((mark_ends hw).trans (valueList_ends hr hx)))⟩
    · cases h
      exact ⟨t, hlist, .inl rfl⟩

theorem constSpec_ends (hr : rules.End) (h : constSpec n rules s = some (names, t)) :
    Ends s t := by
  obtain ⟨u, hu, heq | ht⟩ := constSpec_rest hr h
  · exact heq ▸ nameList_ends hu
  · exact (nameList_ends hu).trans ht

/-- A specification of variables ends with what stands after its names. -/
theorem varSpec_rest (hr : rules.End) (h : varSpec n rules s = some (names, t)) :
    ∃ u, nameList n s = some (names, u) ∧ Ends u t := by
  obtain ⟨⟨list, u⟩, hlist, h⟩ := Option.bind_eq_some_iff.1 h
  dsimp only at h
  split at h
  · next v hv =>
    obtain ⟨w, hw, h⟩ := Option.bind_eq_some_iff.1 h
    cases h
    exact ⟨u, hlist, (mark_ends hv).trans (valueList_ends hr hw)⟩
  · obtain ⟨v, hv, h⟩ := Option.bind_eq_some_iff.1 h
    have htype : Ends u v := read_ends hr hv
    split at h
    · next w hw =>
      obtain ⟨x, hx, h⟩ := Option.bind_eq_some_iff.1 h
      cases h
      have hmark : Ends v w := (atMark_ends hw).of_skipInline
      exact ⟨u, hlist, htype.trans (hmark.trans (valueList_ends hr hx))⟩
    · cases h
      exact ⟨u, hlist, htype⟩

theorem varSpec_ends (hr : rules.End) (h : varSpec n rules s = some (names, t)) : Ends s t := by
  obtain ⟨u, hu, ht⟩ := varSpec_rest hr h
  exact (nameList_ends hu).trans ht

theorem arrayOfSpec?_ends (hr : rules.End) (h : arrayOfSpec? rules s = some t) : Ends s t := by
  unfold arrayOfSpec? at h
  dsimp only at h
  split at h
  · next u hu =>
    obtain ⟨v, hv, h⟩ := Option.bind_eq_some_iff.1 h
    cases hv
    obtain ⟨-, h⟩ := Option.ite_none_left_eq_some.1 h
    exact (mark_ends hu).trans (read_ends hr h)
  · obtain ⟨u, hu, h⟩ := Option.bind_eq_some_iff.1 h
    obtain ⟨v, hv, h⟩ := Option.bind_eq_some_iff.1 h
    obtain ⟨-, h⟩ := Option.ite_none_left_eq_some.1 h
    exact (value_ends hr hu).trans ((mark_ends hv).trans (read_ends hr h))

theorem specType_ends (hr : rules.End) {isAlias struct : Bool}
    (h : specType rules s = some (isAlias, struct, t)) : Ends s t := by
  unfold specType at h
  split at h
  · next u hu =>
    obtain ⟨v, hv, h⟩ := Option.bind_eq_some_iff.1 h
    cases h
    exact (mark_ends hu).trans (read_ends hr hv)
  · obtain ⟨u, hu, h⟩ := Option.bind_eq_some_iff.1 h
    cases h
    exact read_ends hr hu

/-- A type specification ends with what stands after its name. -/
theorem typeSpec_rest (hr : rules.End) {spec : TypeSpec} (h : typeSpec n rules s = some spec) :
    ∃ tail, spec.start = skip s ∧ skip s = ⟨.name, spec.name⟩ :: tail ∧ Ends tail spec.rest := by
  obtain ⟨⟨word, u⟩, hu, h⟩ := Option.bind_eq_some_iff.1 h
  have hname : skip s = ⟨.name, word⟩ :: u := atName_eq_some hu
  dsimp only at h
  split at h
  · obtain ⟨⟨isAlias, struct, rest⟩, hrest, h⟩ := Option.bind_eq_some_iff.1 h
    cases h
    exact ⟨u, rfl, hname, specType_ends hr hrest⟩
  · next v hv =>
    split at h
    · next rest hrest =>
      cases h
      exact ⟨u, rfl, hname, (mark_ends hv).trans (arrayOfSpec?_ends hr hrest)⟩
    · obtain ⟨w, hw, h⟩ := Option.bind_eq_some_iff.1 h
      obtain ⟨⟨isAlias, struct, rest⟩, hrest, h⟩ := Option.bind_eq_some_iff.1 h
      cases h
      have htype : Ends v rest := (typeParameters_ends hr hw).trans (specType_ends hr hrest)
      exact ⟨u, rfl, hname, (mark_ends hv).trans htype⟩

theorem typeSpec_ends (hr : rules.End) {spec : TypeSpec} (h : typeSpec n rules s = some spec) :
    Ends s spec.rest := by
  obtain ⟨tail, -, hname, hrest⟩ := typeSpec_rest hr h
  exact (skip_ends hname).trans hrest

theorem importSpec_ends (h : importSpec s = some t) : Ends s t := by
  unfold importSpec at h
  dsimp only at h
  refine Ends.of_skip ?_
  split at h
  · next word rest hname => exact (name_ends hname).trans (atString_ends h).of_skip
  · split at h
    · next rest hpoint => exact (atMark_ends hpoint).trans (atString_ends h).of_skip
    · exact atString_ends h

section
variable {α : Type} {spec : Input → Option (α × Input)} {xs : List α} {strict : Bool}
  (hspec : ∀ {s x t}, spec s = some (x, t) → Ends s t)
include hspec

theorem specsFrom_ends (h : specsFrom strict spec fuel s = some (xs, t)) : Ends s t := by
  induction fuel generalizing s xs with
  | zero => cases h
  | succ fuel ih =>
    unfold specsFrom at h
    split at h
    · next rest hclose =>
      cases h
      exact mark_ends hclose
    · obtain ⟨⟨first, u⟩, hfirst, h⟩ := Option.bind_eq_some_iff.1 h
      have hu : Ends s u := (hspec hfirst).of_skip
      dsimp only at h
      split at h
      · next v hv =>
        obtain ⟨⟨others, w⟩, hothers, h⟩ := Option.bind_eq_some_iff.1 h
        cases h
        exact hu.trans ((ih hothers).of_suffix (terminator_suffix hv))
      · obtain ⟨-, h⟩ := Option.ite_none_left_eq_some.1 h
        obtain ⟨v, hv, h⟩ := Option.bind_eq_some_iff.1 h
        cases h
        exact hu.trans (mark_ends hv)

theorem specs_ends (h : specs strict n spec s = some (xs, t)) : Ends s t := by
  unfold specs at h
  split at h
  · next u hu => exact (mark_ends hu).trans (specsFrom_ends hspec h)
  · obtain ⟨⟨only, u⟩, honly, h⟩ := Option.bind_eq_some_iff.1 h
    cases h
    exact hspec honly

end

theorem constNames_ends (hr : rules.End) (h : constNames n rules s = some (names, t)) :
    Ends s t := by
  obtain ⟨⟨lists, u⟩, hlists, h⟩ := Option.bind_eq_some_iff.1 h
  cases h
  exact specs_ends (constSpec_ends hr) hlists

theorem varNames_ends (hr : rules.End) (h : varNames n rules s = some (names, t)) : Ends s t := by
  obtain ⟨⟨lists, u⟩, hlists, h⟩ := Option.bind_eq_some_iff.1 h
  cases h
  exact specs_ends (varSpec_ends hr) hlists

theorem typeSpecs_ends (hr : rules.End) {list : List TypeSpec}
    (h : typeSpecs n rules s = some (list, t)) : Ends s t := by
  refine specs_ends (fun {s x t} h => ?_) h
  obtain ⟨spec, hspec, h⟩ := Option.map_eq_some_iff.1 h
  cases h
  exact typeSpec_ends hr hspec

theorem imports_ends (h : imports n s = some t) : Ends s t := by
  obtain ⟨⟨units, u⟩, hunits, rfl⟩ := Option.map_eq_some_iff.1 h
  refine specs_ends (fun {s x t} h => ?_) hunits
  obtain ⟨v, hv, h⟩ := Option.map_eq_some_iff.1 h
  cases h
  exact importSpec_ends hv

/-! ## Statements -/

variable {part : Bool}

theorem assignment_suffix {defines : Bool} (h : assignment s = some (defines, t)) : t <:+ s := by
  unfold assignment at h
  dsimp only at h
  split at h
  · obtain ⟨u, hu, h⟩ := Option.map_eq_some_iff.1 h
    cases h
    exact atMarks_suffix hu
  · obtain ⟨-, h⟩ := Option.ite_none_left_eq_some.1 h
    obtain ⟨u, hu, h⟩ := Option.map_eq_some_iff.1 h
    cases h
    exact (atMark_ends hu).suffix

theorem binding_ends (h : binding s = some t) : Ends s t := by
  unfold binding at h
  split at h
  · next u hu =>
    cases h
    exact atMarks_ends (List.cons_ne_nil _ _) hu
  · obtain ⟨-, h⟩ := Option.ite_none_left_eq_some.1 h
    exact atMark_ends h

theorem simpleRest_ends (hr : rules.End)
    (h : simpleRest n rules mode part form u = some (form', t)) (hu : Ends s u) : Ends s t := by
  unfold simpleRest at h
  dsimp only at h
  split at h
  · cases h
    exact hu
  · split at h
    case h_1 rest hrest | h_2 rest hrest _ =>
      cases h
      exact hu.trans (atMarks_ends (List.cons_ne_nil _ _) hrest).of_look
    case h_3 rest hrest _ _ =>
      obtain ⟨v, hv, h⟩ := Option.map_eq_some_iff.1 h
      cases h
      have harrow : Ends u rest := (atMarks_ends (List.cons_ne_nil _ _) hrest).of_look
      exact hu.trans (harrow.trans (value_ends hr hv))
    case h_4 =>
      obtain ⟨left, hleft, h⟩ := Option.bind_eq_some_iff.1 h
      have hleft : left <:+ u := by
        split at hleft
        · obtain ⟨v, hv, hleft⟩ := Option.bind_eq_some_iff.1 hleft
          exact ((atMark_ends hv).of_look.trans (valueList_ends hr hleft)).suffix
        · cases hleft
          exact List.suffix_refl u
      split at h
      · next defines rest hrest =>
        obtain ⟨⟨right, v⟩, hv, h⟩ := Option.bind_eq_some_iff.1 h
        have hright : Ends s v := hu.trans
          ((hr hv).of_suffix ((suffix_of_look (assignment_suffix hrest)).trans hleft))
        dsimp only at h
        split at h
        · cases h
          exact hright
        · split at h
          · cases h
          · split at h
            · next w hw =>
              obtain ⟨x, hx, h⟩ := Option.bind_eq_some_iff.1 h
              cases h
              exact hright.trans ((atMark_ends hw).of_look.trans (valueList_ends hr hx))
            · cases h
              exact hright
      · obtain ⟨-, h⟩ := Option.ite_none_left_eq_some.1 h
        cases h
        exact hu

theorem simple_ends (hr : rules.End) (h : simple n rules mode part s = some (form, t)) :
    Ends s t := by
  obtain ⟨⟨first, u⟩, hu, h⟩ := Option.bind_eq_some_iff.1 h
  exact simpleRest_ends hr h (hr hu)

theorem loneLabel_ends (h : loneLabel s = some t) : Ends s t := by
  obtain ⟨⟨word, u⟩, hu, h⟩ := Option.bind_eq_some_iff.1 h
  exact (name_ends hu).trans (atMark_ends h).of_skip

theorem statements_suffix (hr : rules.End) (h : statements rules fuel s = some t) : t <:+ s := by
  induction fuel generalizing s with
  | zero => cases h
  | succ fuel ih =>
    unfold statements at h
    split at h
    · cases h
      exact List.suffix_refl _
    · split at h
      · next u hu =>
        cases h
        exact (loneLabel_ends (Option.filter_eq_some_iff.1 hu).1).suffix
      · obtain ⟨u, hu, h⟩ := Option.bind_eq_some_iff.1 h
        have hus : u <:+ s := (read_ends hr hu).suffix
        split at h
        · next v hv => exact (ih h).trans ((terminator_suffix hv).trans hus)
        · obtain ⟨-, h⟩ := Option.ite_none_right_eq_some.1 h
          cases h
          exact hus

theorem block_ends (hr : rules.End) (h : block n rules s = some t) : Ends s t := by
  obtain ⟨u, hu, h⟩ := Option.bind_eq_some_iff.1 h
  obtain ⟨v, hv, h⟩ := Option.bind_eq_some_iff.1 h
  exact (mark_ends hu).trans ((mark_ends h).of_suffix (statements_suffix hr hv))

theorem conditional_ends (hr : rules.End) (h : conditional n rules s = some t) : Ends s t := by
  obtain ⟨⟨form, u⟩, hu, h⟩ := Option.bind_eq_some_iff.1 h
  have hsimple : Ends s u := simple_ends hr hu
  dsimp only at h
  split at h <;> split at h
  case h_1.isTrue | h_2.isFalse => cases h
  case' h_1.isFalse rest hrest _ =>
    obtain ⟨v, hv, h⟩ := Option.bind_eq_some_iff.1 h
    have hhead : Ends s v := hsimple.trans ((mark_ends hrest).trans (value_ends hr hv))
  case' h_2.isTrue =>
    obtain ⟨v, hv, h⟩ := Option.bind_eq_some_iff.1 h
    have hhead : Ends s v := Option.some.inj hv ▸ hsimple
  -- The block and what follows it stand behind either header.
  all_goals
    obtain ⟨x, hx, h⟩ := Option.bind_eq_some_iff.1 h
    have hx : Ends s x := hhead.trans (read_ends hr hx)
    split at h
    · cases h
      exact hx
    · next y hy =>
      have hy : Ends s y := hx.trans ((atKeyword_ends hy).of_skipInline)
      split at h
      · next z hz => exact hy.trans ((atKeyword_ends hz).of_skip.trans (read_ends hr h))
      · exact hy.trans (read_ends hr h)

theorem loopClause_ends (hr : rules.End) (h : loopClause n rules s = some t) : Ends s t := by
  unfold loopClause at h
  dsimp only at h
  split at h
  case' h_1 rest hrest =>
    obtain ⟨v, hv, h⟩ := Option.bind_eq_some_iff.1 h
    have hfirst : Ends s v := Option.some.inj hv ▸ mark_ends hrest
  case' h_2 =>
    obtain ⟨u, hu, h⟩ := Option.bind_eq_some_iff.1 h
    obtain ⟨v, hv, h⟩ := Option.bind_eq_some_iff.1 h
    have hfirst : Ends s v := (value_ends hr hu).trans (mark_ends hv)
  -- The last part of the header stands behind either semicolon.
  all_goals
    split at h
    · cases h
      exact hfirst
    · obtain ⟨⟨form, w⟩, hw, h⟩ := Option.bind_eq_some_iff.1 h
      obtain ⟨-, h⟩ := Option.ite_none_right_eq_some.1 h
      cases h
      exact hfirst.trans (simple_ends hr hw)

theorem rangeLeft_ends (hr : rules.End) (h : rangeLeft n rules s = some t) : Ends s t := by
  obtain ⟨u, hu, h⟩ := Option.bind_eq_some_iff.1 h
  obtain ⟨v, hv, h⟩ := Option.bind_eq_some_iff.1 h
  have hbinding : Ends u v := (binding_ends hv).of_skip
  exact (valueList_ends hr hu).trans (hbinding.trans (atKeyword_ends h).of_skip)

theorem loopHeader_suffix (hr : rules.End) (h : loopHeader n rules s = some t) : t <:+ s := by
  refine suffix_of_skip ?_
  unfold loopHeader at h
  dsimp only at h
  split at h
  · cases h
    exact List.suffix_refl _
  · split at h
    case h_1 rest _ hrest =>
      exact ((atKeyword_ends hrest).trans (value_ends hr h)).suffix
    case h_2 rest hrest _ =>
      exact ((mark_ends hrest).trans (loopClause_ends hr h)).suffix
    case h_3 =>
      split at h
      · next rest hrest => exact ((rangeLeft_ends hr hrest).trans (value_ends hr h)).suffix
      · obtain ⟨⟨form, u⟩, hu, h⟩ := Option.bind_eq_some_iff.1 h
        have hsimple : Ends (skip s) u := simple_ends hr hu
        dsimp only at h
        split at h
        · next rest hrest =>
          obtain ⟨-, h⟩ := Option.ite_none_left_eq_some.1 h
          exact (hsimple.trans ((mark_ends hrest).trans (loopClause_ends hr h))).suffix
        · obtain ⟨-, h⟩ := Option.ite_none_right_eq_some.1 h
          cases h
          exact hsimple.suffix

theorem cases_ends (hr : rules.End) {guard : Rule} (hguard : ∀ {s t}, guard s = some t → Ends s t)
    (h : cases n rules guard fuel s = some t) : Ends s t := by
  induction fuel generalizing s with
  | zero => cases h
  | succ fuel ih =>
    unfold cases at h
    split at h
    · next rest hclose =>
      cases h
      exact mark_ends hclose
    · have hcase : ∀ {u}, u <:+ s → (mark ':' u >>= fun s => statements rules n s >>= fun s =>
          cases n rules guard fuel s) = some t → Ends s t := by
        intro u hu h
        obtain ⟨v, hv, h⟩ := Option.bind_eq_some_iff.1 h
        obtain ⟨x, hx, h⟩ := Option.bind_eq_some_iff.1 h
        exact (ih h).of_suffix
          ((statements_suffix hr hx).trans ((mark_suffix hv).trans hu))
      dsimp only at h
      split at h
      · next u hu => exact hcase (atKeyword_ends hu).of_skip.suffix h
      · obtain ⟨u, hu, h⟩ := Option.bind_eq_some_iff.1 h
        obtain ⟨v, hv, h⟩ := Option.bind_eq_some_iff.1 h
        exact hcase ((atKeyword_ends hu).of_skip.trans (hguard hv)).suffix h

theorem typeList_ends (hr : rules.End) (h : typeList n rules s = some t) : Ends s t :=
  separated_ends (read_ends hr) mark_ends h

theorem switchCases_ends (hr : rules.End) (h : switchCases n rules form s = some t) :
    Ends s t := by
  obtain ⟨u, hu, h⟩ := Option.bind_eq_some_iff.1 h
  split at h
  · exact (mark_ends hu).trans (cases_ends hr (typeList_ends hr) h)
  · exact (mark_ends hu).trans (cases_ends hr (valueList_ends hr) h)

theorem switch_ends (hr : rules.End) (h : switch n rules s = some t) : Ends s t := by
  unfold switch at h
  split at h
  · exact switchCases_ends hr h
  · obtain ⟨⟨form, u⟩, hu, h⟩ := Option.bind_eq_some_iff.1 h
    have hsimple : Ends s u := simple_ends hr hu
    dsimp only at h
    split at h
    · obtain ⟨-, h⟩ := Option.ite_none_left_eq_some.1 h
      exact hsimple.trans (switchCases_ends hr h)
    · next rest hrest =>
      have hmark : Ends s rest := hsimple.trans (mark_ends hrest)
      split at h
      · cases h
      · split at h
        · exact hmark.trans (switchCases_ends hr h)
        · obtain ⟨⟨form, v⟩, hv, h⟩ := Option.bind_eq_some_iff.1 h
          obtain ⟨-, h⟩ := Option.ite_none_right_eq_some.1 h
          exact hmark.trans ((simple_ends hr hv).trans (switchCases_ends hr h))

theorem communication_ends (hr : rules.End) (h : communication n rules s = some t) :
    Ends s t := by
  obtain ⟨u, hu, h⟩ := Option.bind_eq_some_iff.1 h
  have hvalue : Ends s u := value_ends hr hu
  dsimp only at h
  split at h
  · next v hv =>
    have harrow : Ends u v := (atMarks_ends (List.cons_ne_nil _ _) hv).of_skip
    exact hvalue.trans (harrow.trans (value_ends hr h))
  · split at h
    case' h_1 v hv =>
      obtain ⟨left, hleft, h⟩ := Option.bind_eq_some_iff.1 h
      have hlist : Ends v left := valueList_ends hr hleft
      have hall : Ends s left := hvalue.trans ((atMark_ends hv).of_skip.trans hlist)
    case' h_2 =>
      obtain ⟨left, hleft, h⟩ := Option.bind_eq_some_iff.1 h
      have hall : Ends s left := Option.some.inj hleft ▸ hvalue
    -- What is bound may be one name or more.
    all_goals
      split at h
      · next w hw => exact hall.trans ((binding_ends hw).of_skip.trans (value_ends hr h))
      · obtain ⟨-, h⟩ := Option.ite_none_left_eq_some.1 h
        cases h
        exact hvalue

theorem optionalLabel_ends (hu : Ends s u) : Ends s (optionalLabel u) := by
  unfold optionalLabel
  split
  · next word rest hname =>
    exact hu.trans ((atName_ends hname).of_skipInline)
  · exact hu

theorem keywordStatement_ends (hr : rules.End)
    (h : keywordStatement n rules word u = some t) (hu : Ends s u) : Ends s t := by
  unfold keywordStatement at h
  split at h
  case h_1 =>
    obtain ⟨⟨names, v⟩, hv, rfl⟩ := Option.map_eq_some_iff.1 h
    exact hu.trans (constNames_ends hr hv)
  case h_2 =>
    obtain ⟨⟨names, v⟩, hv, rfl⟩ := Option.map_eq_some_iff.1 h
    exact hu.trans (varNames_ends hr hv)
  case h_3 =>
    obtain ⟨⟨list, v⟩, hv, rfl⟩ := Option.map_eq_some_iff.1 h
    exact hu.trans (typeSpecs_ends hr hv)
  case h_4 =>
    split at h
    · exact hu.trans (valueList_ends hr h)
    · cases h
      exact hu
  case h_5 | h_6 => exact hu.trans (value_ends hr h)
  case h_7 => exact hu.trans (read_ends hr h)
  case h_8 =>
    obtain ⟨v, hv, h⟩ := Option.bind_eq_some_iff.1 h
    exact hu.trans ((read_ends hr h).of_suffix (loopHeader_suffix hr hv))
  case h_9 => exact hu.trans (switch_ends hr h)
  case h_10 =>
    obtain ⟨v, hv, h⟩ := Option.bind_eq_some_iff.1 h
    exact hu.trans ((mark_ends hv).trans (cases_ends hr (communication_ends hr) h))
  case h_11 =>
    cases h
    exact hu
  case h_12 | h_13 =>
    cases h
    exact optionalLabel_ends hu
  case h_14 =>
    obtain ⟨⟨word, v⟩, hv, rfl⟩ := Option.map_eq_some_iff.1 h
    exact hu.trans (name_ends hv)
  case h_15 => cases h

theorem simpleStatement_ends (hr : rules.End) (h : simpleStatement n rules s = some t) :
    Ends s t := by
  obtain ⟨⟨form, u⟩, hu, h⟩ := Option.bind_eq_some_iff.1 h
  obtain ⟨-, h⟩ := Option.ite_none_right_eq_some.1 h
  cases h
  exact simple_ends hr hu

theorem statement_ends (hr : rules.End) (h : statement n rules s = some t) : Ends s t := by
  unfold statement at h
  split at h
  · cases h
  · next l rest hskip =>
    have hl : Ends s rest := skip_ends hskip
    have hwhole : l :: rest <:+ s := suffix_of_skip (by rw [hskip])
    split at h
    case h_1 => exact (read_ends hr h).of_suffix hwhole
    case h_2 =>
      cases h
      exact hl
    case h_3 =>
      dsimp only at h
      split at h
      · next u hu =>
        split at h
        · exact (simpleStatement_ends hr h).of_suffix hwhole
        · have hlabel : Ends rest u := (atMark_ends hu).of_skipInline
          exact hl.trans (hlabel.trans (read_ends hr h))
      · exact (simpleStatement_ends hr h).of_suffix hwhole
    case h_4 =>
      split at h
      · next u hu =>
        cases h
        exact keywordStatement_ends hr hu hl
      · exact (simpleStatement_ends hr h).of_suffix hwhole
    case h_5 => exact (simpleStatement_ends hr h).of_suffix hwhole

/-! ## Sources -/

theorem some_of_plain {o : Option Input} (h : o.map (Form.plain, ·) = some (form, t)) :
    o = some t := by
  obtain ⟨u, rfl, h⟩ := Option.map_eq_some_iff.1 h
  cases h
  rfl

theorem production_end (hr : rules.End) : Rules.End (production n rules) := by
  intro p s form t h
  cases p with
  | type ends => exact type_ends hr (some_of_plain h)
  | expression mode =>
    unfold production at h
    exact expression_ends hr h
  | unary mode =>
    unfold production at h
    exact unary_ends hr h
  | parameters => exact parameters_ends hr (some_of_plain h)
  | literalValue => exact literalValue_ends hr (some_of_plain h)
  | block => exact block_ends hr (some_of_plain h)
  | statement => exact statement_ends hr (some_of_plain h)
  | conditional => exact conditional_ends hr (some_of_plain h)

/-- **Every rule ends what it reads with a lexeme that is no space**, to any depth. -/
theorem rulesTo_end (n : Nat) : (rulesTo n).End := by
  induction n with
  | zero => intro p s form t h; cases h
  | succ n ih => exact production_end ih

theorem optionalBlock_ends (hr : rules.End) (h : optionalBlock rules u = some t) (hu : Ends s u) :
    Ends s t := by
  unfold optionalBlock at h
  dsimp only at h
  split at h
  · exact hu.trans ((read_ends hr h).of_skipInline)
  · cases h
    exact hu

theorem functionRest_ends (hr : rules.End) (h : functionRest n rules s = some t) : Ends s t := by
  have hafter : ∀ {v}, v <:+ s → (signature rules true v >>= optionalBlock rules) = some t →
      Ends s t := by
    intro v hv h
    obtain ⟨u, hu, h⟩ := Option.bind_eq_some_iff.1 h
    exact optionalBlock_ends hr h ((signature_ends hr hu).of_suffix hv)
  unfold functionRest at h
  dsimp only at h
  split at h
  · next u hu =>
    obtain ⟨v, hv, h⟩ := Option.bind_eq_some_iff.1 h
    exact hafter ((mark_ends hu).trans (typeParameters_ends hr hv)).suffix h
  · exact hafter (List.suffix_refl s) h

theorem methodName?_ends (hr : rules.End) (h : methodName? rules s = some (word, t)) :
    Ends s t := by
  obtain ⟨u, hu, h⟩ := Option.bind_eq_some_iff.1 h
  obtain ⟨⟨word', v⟩, hv, h⟩ := Option.bind_eq_some_iff.1 h
  obtain ⟨-, h⟩ := Option.ite_none_right_eq_some.1 h
  cases h
  exact (read_ends hr hu).trans (name_ends hv)

variable {what : Code}

theorem topStatement_ends (hr : rules.End) (h : topStatement n rules s = some (what, t)) :
    Ends s t := by
  obtain ⟨u, hu, h⟩ := Option.bind_eq_some_iff.1 h
  cases h
  exact statement_ends hr hu

theorem keywordCode_ends (hr : rules.End) (h : keywordCode n rules word s u = some (what, t))
    (hu : Ends s u) : Ends s t := by
  unfold keywordCode at h
  split at h
  case h_1 =>
    obtain ⟨⟨name, v⟩, hv, h⟩ := Option.bind_eq_some_iff.1 h
    cases h
    exact hu.trans (name_ends hv)
  case h_2 =>
    obtain ⟨v, hv, h⟩ := Option.bind_eq_some_iff.1 h
    cases h
    exact hu.trans (imports_ends hv)
  case h_3 =>
    obtain ⟨⟨names, v⟩, hv, h⟩ := Option.bind_eq_some_iff.1 h
    cases h
    exact hu.trans (constNames_ends hr hv)
  case h_4 =>
    obtain ⟨⟨names, v⟩, hv, h⟩ := Option.bind_eq_some_iff.1 h
    cases h
    exact hu.trans (varNames_ends hr hv)
  case h_5 =>
    obtain ⟨⟨list, v⟩, hv, h⟩ := Option.bind_eq_some_iff.1 h
    cases h
    exact hu.trans (typeSpecs_ends hr hv)
  case h_6 =>
    split at h
    · next name v hname =>
      obtain ⟨w, hw, h⟩ := Option.bind_eq_some_iff.1 h
      cases h
      exact hu.trans ((name_ends hname).trans (functionRest_ends hr hw))
    · split at h
      · next name v hname =>
        obtain ⟨w, hw, h⟩ := Option.bind_eq_some_iff.1 h
        obtain ⟨x, hx, h⟩ := Option.bind_eq_some_iff.1 h
        cases h
        have hmethod : Ends s v := hu.trans (methodName?_ends hr hname)
        exact optionalBlock_ends hr hx (hmethod.trans (signature_ends hr hw))
      · exact topStatement_ends hr h
  case h_7 => exact topStatement_ends hr h

/-- A piece of code ends with a lexeme that is no space. -/
theorem code_ends (hr : rules.End) (h : code n rules s = some (what, t)) : Ends s t := by
  unfold code at h
  split at h
  · cases h
  · next l u =>
    split at h
    · next hkind =>
      have hl : l.isSpace = false := by simp [Lexeme.isSpace, Lexeme.isInline, hkind]
      exact keywordCode_ends hr h (ends_cons hl)
    · exact topStatement_ends hr h

end StaleDocs.Go
