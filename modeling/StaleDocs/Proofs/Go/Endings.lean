/-
Where types and expressions end: with lexemes that are no spaces, given that the phrases in them do.
-/
import StaleDocs.Go.Expression
import StaleDocs.Proofs.Go.Remainder

namespace StaleDocs.Go

variable {s t u v : Input} {l : Lexeme} {word : String} {ends : Bool}

/-! ## Types -/

variable {rules : Rules} {p : Phrase} {n fuel : Nat} {mode : Mode} {form form' : Form}

theorem read_ends (hr : rules.End) (h : rules.read p s = some t) : Ends s t := by
  obtain ⟨⟨form, u⟩, hu, rfl⟩ := Option.map_eq_some_iff.1 h
  exact hr hu

theorem value_ends (hr : rules.End) (h : rules.value mode s = some t) : Ends s t := by
  obtain ⟨⟨form, u⟩, hu, h⟩ := Option.bind_eq_some_iff.1 h
  obtain ⟨-, h⟩ := Option.ite_none_right_eq_some.1 h
  cases h
  exact hr hu

theorem union_ends (hr : rules.End) (h : union n rules ends s = some t) : Ends s t :=
  separated_ends (read_ends hr) (fun h => (atMark_ends h).of_look) h

theorem typeArguments_ends (hr : rules.End) (h : typeArguments n rules s = some t) : Ends s t := by
  obtain ⟨-, h⟩ := Option.ite_none_left_eq_some.1 h
  exact listed_ends (union_ends hr) h

theorem optionalTypeArguments_ends (hr : rules.End)
    (h : optionalTypeArguments n rules ends u = some t) (hu : Ends s u) : Ends s t := by
  unfold optionalTypeArguments at h
  split at h
  · next v hv => exact hu.trans ((atMark_ends hv).of_look.trans (typeArguments_ends hr h))
  · cases h
    exact hu

theorem optionalSecondName_ends (hu : Ends s u) : Ends s (optionalSecondName ends u) := by
  unfold optionalSecondName
  split
  · next word rest h =>
    obtain ⟨v, hv, hname⟩ := Option.bind_eq_some_iff.1 h
    exact hu.trans ((atMark_ends hv).of_look.trans (name_ends hname))
  · exact hu

theorem typeName_ends (hr : rules.End) (h : typeName n rules ends s = some t) : Ends s t := by
  obtain ⟨⟨word, u⟩, hu, h⟩ := Option.bind_eq_some_iff.1 h
  exact optionalTypeArguments_ends hr h (optionalSecondName_ends (name_ends hu))

theorem result_ends (hr : rules.End) (h : result rules ends u = some t) (hu : Ends s u) :
    Ends s t := by
  unfold result at h
  dsimp only at h
  split at h
  · exact hu.trans (read_ends hr h).of_look
  · split at h
    · exact hu.trans (read_ends hr h).of_look
    · cases h
      exact hu

theorem signature_ends (hr : rules.End) (h : signature rules ends s = some t) : Ends s t := by
  obtain ⟨u, hu, h⟩ := Option.bind_eq_some_iff.1 h
  exact result_ends hr h (read_ends hr hu)

theorem names_ends (h : separated (mark ',') (fun s => (name s).map (·.2)) n s = some t) :
    Ends s t := by
  refine separated_ends (fun h => ?_) mark_ends h
  obtain ⟨⟨word, u⟩, hu, rfl⟩ := Option.map_eq_some_iff.1 h
  exact name_ends hu

theorem namedField_ends (hr : rules.End) (h : namedField n rules s = some t) : Ends s t := by
  obtain ⟨⟨word, u⟩, hu, h⟩ := Option.bind_eq_some_iff.1 h
  have hname : Ends s u := name_ends hu
  dsimp only at h
  split at h
  · cases h
    exact hname
  · split at h
    · exact typeName_ends hr h
    · split at h
      · next v hv =>
        obtain ⟨w, hw, hv⟩ := Option.bind_eq_some_iff.1 hv
        split at h
        · cases h
          exact hname.trans ((atMark_ends hw).of_skipInline.trans (typeArguments_ends hr hv))
        · exact hname.trans (read_ends hr h)
      · split at h
        · next v hv =>
          obtain ⟨w, hw, h⟩ := Option.bind_eq_some_iff.1 h
          have hnames : Ends u w := (atMark_ends hv).of_skipInline.trans (names_ends hw)
          exact hname.trans (hnames.trans (read_ends hr h))
        · exact hname.trans (read_ends hr h)

theorem field_ends (hr : rules.End) (h : field n rules s = some t) : Ends s t := by
  obtain ⟨u, hu, h⟩ := Option.bind_eq_some_iff.1 h
  have hbody : Ends s u := by
    split at hu
    · next v hv => exact (atMark_ends hv).trans (typeName_ends hr hu)
    · exact namedField_ends hr hu
  cases h
  exact hbody.getD fun hv => (atString_ends hv).of_skipInline

theorem interfaceElement_ends (hr : rules.End) (h : interfaceElement n rules s = some t) :
    Ends s t := by
  unfold interfaceElement at h
  split at h
  · next word u hu =>
    dsimp only at h
    split at h
    · exact (name_ends hu).trans (signature_ends hr h).of_skipInline
    · exact union_ends hr h
  · exact union_ends hr h

theorem arrayType_ends (hr : rules.End) (h : arrayType rules ends s = some t) : Ends s t := by
  unfold arrayType at h
  dsimp only at h
  split at h
  · next u hu =>
    have hread : rules.read (.type ends) u = some t := h
    exact (mark_ends hu).trans (read_ends hr hread)
  · obtain ⟨u, hu, h⟩ := Option.bind_eq_some_iff.1 h
    obtain ⟨v, hv, h⟩ := Option.bind_eq_some_iff.1 h
    exact (value_ends hr hu).trans ((mark_ends hv).trans (read_ends hr h))

theorem keywordType_ends (hr : rules.End) (h : keywordType n rules ends word s = some t) :
    Ends s t := by
  unfold keywordType at h
  split at h
  case h_1 =>
    obtain ⟨u, hu, h⟩ := Option.bind_eq_some_iff.1 h
    exact (mark_ends hu).trans (terminated_ends (field_ends hr) h)
  case h_2 =>
    obtain ⟨u, hu, h⟩ := Option.bind_eq_some_iff.1 h
    exact (mark_ends hu).trans (terminated_ends (interfaceElement_ends hr) h)
  case h_3 =>
    obtain ⟨u, hu, h⟩ := Option.bind_eq_some_iff.1 h
    obtain ⟨v, hv, h⟩ := Option.bind_eq_some_iff.1 h
    obtain ⟨w, hw, h⟩ := Option.bind_eq_some_iff.1 h
    exact (mark_ends hu).trans ((read_ends hr hv).trans ((mark_ends hw).trans (read_ends hr h)))
  case h_4 =>
    split at h
    · next u hu => exact (atMarks_ends (List.cons_ne_nil _ _) hu).of_skip.trans (read_ends hr h)
    · exact read_ends hr h
  case h_5 => exact signature_ends hr h
  case h_6 => cases h

theorem type_ends (hr : rules.End) (h : type n rules ends s = some t) : Ends s t := by
  unfold type at h
  split at h
  · cases h
  · next l rest hskip =>
    have hl : Ends s rest := skip_ends hskip
    split at h
    case h_1 => exact Ends.of_skip (hskip ▸ typeName_ends hr h)
    case h_2 => exact hl.trans (keywordType_ends hr h)
    case h_3 =>
      obtain ⟨u, hu, h⟩ := Option.bind_eq_some_iff.1 h
      exact hl.trans ((read_ends hr hu).trans (mark_ends h))
    case h_4 | h_5 => exact hl.trans (read_ends hr h)
    case h_6 => exact hl.trans (arrayType_ends hr h)
    case h_7 =>
      obtain ⟨u, hu, h⟩ := Option.bind_eq_some_iff.1 h
      obtain ⟨v, hv, h⟩ := Option.bind_eq_some_iff.1 h
      exact hl.trans ((atMark_ends hu).trans ((atKeyword_ends hv).of_skip.trans (read_ends hr h)))
    case h_8 => cases h

theorem parameter_ends (hr : rules.End) (h : parameter n rules s = some t) : Ends s t := by
  refine Ends.of_skip ?_
  unfold parameter at h
  dsimp only at h
  split at h
  · next u hu => exact (atMarks_ends (List.cons_ne_nil _ _) hu).trans (read_ends hr h)
  · split at h
    · exact read_ends hr h
    · next word u hu =>
      have hname : Ends (skip s) u := atName_ends hu
      split at h
      · cases h
        exact hname
      · split at h
        · next v hv =>
          have hpoints : Ends u v := (atMarks_ends (List.cons_ne_nil _ _) hv).of_skip
          exact hname.trans (hpoints.trans (read_ends hr h))
        · split at h
          · exact typeName_ends hr h
          · split at h
            · next v hv =>
              obtain ⟨w, hw, hv⟩ := Option.bind_eq_some_iff.1 hv
              split at h
              · cases h
                exact hname.trans ((atMark_ends hw).of_skip.trans (typeArguments_ends hr hv))
              · exact hname.trans (read_ends hr h)
            · exact hname.trans (read_ends hr h)

theorem parameters_ends (hr : rules.End) (h : parameters n rules s = some t) : Ends s t := by
  obtain ⟨u, hu, h⟩ := Option.bind_eq_some_iff.1 h
  split at h
  · next rest hrest =>
    cases h
    obtain ⟨v, hv, hrest⟩ := Option.bind_eq_some_iff.1 hrest
    exact (mark_ends hu).trans ((mark_ends hv).trans (mark_ends hrest))
  · exact (mark_ends hu).trans (listed_ends (parameter_ends hr) h)

theorem typeParametersFrom_ends (hr : rules.End) {pending : Bool}
    (h : typeParametersFrom n rules pending fuel s = some t) : Ends s t := by
  induction fuel generalizing s pending with
  | zero => cases h
  | succ fuel ih =>
    unfold typeParametersFrom at h
    split at h
    · next rest hrest =>
      obtain ⟨-, h⟩ := Option.ite_none_left_eq_some.1 h
      cases h
      exact mark_ends hrest
    · obtain ⟨⟨word, u⟩, hu, h⟩ := Option.bind_eq_some_iff.1 h
      have hname : Ends s u := name_ends hu
      dsimp only at h
      split at h
      · next v hv => exact hname.trans ((mark_ends hv).trans (ih h))
      · obtain ⟨v, hv, h⟩ := Option.bind_eq_some_iff.1 h
        have hunion : Ends s v := hname.trans (union_ends hr hv)
        split at h
        · next w hw => exact hunion.trans ((mark_ends hw).trans (ih h))
        · exact hunion.trans (mark_ends h)

theorem typeParameters_ends (hr : rules.End) (h : typeParameters n rules s = some t) :
    Ends s t := by
  obtain ⟨-, h⟩ := Option.ite_none_left_eq_some.1 h
  exact typeParametersFrom_ends hr h

/-! ## Expressions -/

theorem binaryOperator_suffix {leads : Bool} {op : String}
    (h : binaryOperator leads s = some (op, t)) : t <:+ s := by
  unfold binaryOperator at h
  obtain ⟨-, h⟩ := Option.ite_none_left_eq_some.1 h
  dsimp only at h
  split at h
  · obtain ⟨u, hu, h⟩ := Option.map_eq_some_iff.1 h
    cases h
    exact atMarks_suffix hu
  · cases h

theorem suffix_of_formLook (h : t <:+ form.look mode s) : t <:+ s := suffix_of_look h

theorem Ends.of_formLook (h : Ends (form.look mode s) t) : Ends s t := Ends.of_look h

theorem binaryFrom_ends (hr : rules.End)
    (h : binaryFrom rules mode form fuel u = some (form', t)) (hu : Ends s u) : Ends s t := by
  induction fuel generalizing u form with
  | zero =>
    cases h
    exact hu
  | succ fuel ih =>
    unfold binaryFrom at h
    split at h
    · cases h
      exact hu
    · next op v hv =>
      obtain ⟨⟨right, w⟩, hw, h⟩ := Option.bind_eq_some_iff.1 h
      obtain ⟨joined, -, h⟩ := Option.bind_eq_some_iff.1 h
      have hvu : v <:+ u := suffix_of_formLook (binaryOperator_suffix hv)
      exact ih h (hu.trans ((hr hw).of_suffix hvu))

theorem expression_ends (hr : rules.End) (h : expression n rules mode s = some (form, t)) :
    Ends s t := by
  obtain ⟨⟨first, u⟩, hu, h⟩ := Option.bind_eq_some_iff.1 h
  exact binaryFrom_ends hr h (hr hu)

theorem argument_ends (hr : rules.End) (h : argument rules s = some t) : Ends s t := by
  obtain ⟨u, hu, h⟩ := Option.bind_eq_some_iff.1 h
  cases h
  exact (value_ends hr hu).getD fun hv => (atMarks_ends (List.cons_ne_nil _ _) hv).of_skip

theorem arguments_ends (hr : rules.End) (h : arguments n rules s = some t) : Ends s t :=
  listed_ends (argument_ends hr) h

theorem makerArguments_ends (hr : rules.End) (h : makerArguments n rules s = some t) :
    Ends s t := by
  unfold makerArguments at h
  split at h
  · next u hu =>
    cases h
    exact mark_ends hu
  · obtain ⟨u, hu, h⟩ := Option.bind_eq_some_iff.1 h
    have hread : Ends s u := read_ends hr hu
    split at h
    · next v hv =>
      exact hread.trans ((mark_ends hv).trans (listed_ends (value_ends hr) h))
    · exact hread.trans (mark_ends h)

theorem conversionOperand_ends (hr : rules.End) (h : conversionOperand rules s = some t) :
    Ends s t := by
  obtain ⟨u, hu, h⟩ := Option.bind_eq_some_iff.1 h
  exact ((value_ends hr hu).getD mark_ends).trans (mark_ends h)

theorem element_ends (hr : rules.End) (h : element rules s = some t) : Ends s t := by
  unfold element at h
  split at h
  · exact read_ends hr h
  · exact value_ends hr h

theorem keyedElement_ends (hr : rules.End) (h : keyedElement rules s = some t) : Ends s t := by
  obtain ⟨u, hu, h⟩ := Option.bind_eq_some_iff.1 h
  split at h
  · next v hv => exact (element_ends hr hu).trans ((mark_ends hv).trans (element_ends hr h))
  · cases h
    exact element_ends hr hu

theorem literalValue_ends (hr : rules.End) (h : literalValue n rules s = some t) : Ends s t := by
  obtain ⟨u, hu, h⟩ := Option.bind_eq_some_iff.1 h
  split at h
  · next rest hrest =>
    cases h
    obtain ⟨v, hv, hrest⟩ := Option.bind_eq_some_iff.1 hrest
    exact (mark_ends hu).trans ((mark_ends hv).trans (mark_ends hrest))
  · exact (mark_ends hu).trans (listed_ends (keyedElement_ends hr) h)

theorem sliceRest_ends (hr : rules.End) (h : sliceRest rules s = some t) : Ends s t := by
  unfold sliceRest at h
  split at h
  · next u hu =>
    cases h
    exact mark_ends hu
  · obtain ⟨u, hu, h⟩ := Option.bind_eq_some_iff.1 h
    have hvalue : Ends s u := value_ends hr hu
    split at h
    · next v hv =>
      cases h
      exact hvalue.trans (mark_ends hv)
    · obtain ⟨v, hv, h⟩ := Option.bind_eq_some_iff.1 h
      obtain ⟨w, hw, h⟩ := Option.bind_eq_some_iff.1 h
      exact hvalue.trans ((mark_ends hv).trans ((value_ends hr hw).trans (mark_ends h)))

/-- Types in brackets change the form of a phrase only. -/
theorem instantiated_eq (h : instantiated form s = some (form', t)) : t = s := by
  unfold instantiated at h
  split at h
  case h_1 | h_2 =>
    cases h
    rfl
  case h_3 | h_4 =>
    obtain ⟨-, h⟩ := Option.ite_none_right_eq_some.1 h
    cases h
    rfl

theorem subscripted_eq {index : Form} (h : subscripted form index s = some (form', t)) : t = s := by
  unfold subscripted at h
  split at h
  · cases h
    rfl
  · split at h
    · cases h
      rfl
    · obtain ⟨-, h⟩ := Option.ite_none_right_eq_some.1 h
      exact instantiated_eq h

theorem bracketed_ends (hr : rules.End) (h : bracketed n rules form s = some (form', t)) :
    Ends s t := by
  unfold bracketed at h
  split at h
  · next u hu =>
    obtain ⟨-, h⟩ := Option.ite_none_right_eq_some.1 h
    obtain ⟨v, hv, h⟩ := Option.map_eq_some_iff.1 h
    cases h
    exact (mark_ends hu).trans (sliceRest_ends hr hv)
  · obtain ⟨⟨index, u⟩, hu, h⟩ := Option.bind_eq_some_iff.1 h
    have hindex : Ends s u := hr hu
    dsimp only at h
    split at h
    · next v hv =>
      rw [subscripted_eq h]
      exact hindex.trans (mark_ends hv)
    · split at h
      · next v hv =>
        obtain ⟨-, h⟩ := Option.ite_none_right_eq_some.1 h
        obtain ⟨w, hw, h⟩ := Option.map_eq_some_iff.1 h
        cases h
        exact hindex.trans ((mark_ends hv).trans (sliceRest_ends hr hw))
      · split at h
        · next v hv =>
          obtain ⟨-, h⟩ := Option.ite_none_right_eq_some.1 h
          obtain ⟨w, hw, h⟩ := Option.bind_eq_some_iff.1 h
          rw [instantiated_eq h]
          have htypes : Ends v w := listed_ends (union_ends hr) hw
          exact hindex.trans ((mark_ends hv).trans htypes)
        · cases h

theorem selected_ends (hr : rules.End) (h : selected rules form s = some (form', t)) :
    Ends s t := by
  unfold selected at h
  split at h
  · next word rest hname =>
    cases h
    exact name_ends hname
  · obtain ⟨u, hu, h⟩ := Option.bind_eq_some_iff.1 h
    have hopen : Ends s u := mark_ends hu
    split at h
    · next rest hrest =>
      cases h
      obtain ⟨v, hv, hrest⟩ := Option.bind_eq_some_iff.1 hrest
      exact hopen.trans ((atKeyword_ends hv).of_skip.trans (mark_ends hrest))
    · obtain ⟨v, hv, h⟩ := Option.bind_eq_some_iff.1 h
      obtain ⟨w, hw, h⟩ := Option.bind_eq_some_iff.1 h
      cases h
      exact hopen.trans ((read_ends hr hv).trans (mark_ends hw))

theorem postfixFrom_ends (hr : rules.End)
    (h : postfixFrom n rules mode form fuel u = some (form', t)) (hu : Ends s u) : Ends s t := by
  induction fuel generalizing u form with
  | zero =>
    cases h
    exact hu
  | succ fuel ih =>
    unfold postfixFrom at h
    split at h
    · cases h
      exact hu
    · next l v hlook =>
      have hv : l :: v <:+ u := suffix_of_formLook (by rw [hlook])
      have hopen : ∀ {w}, Ends v w → Ends s w := fun h =>
        hu.trans (h.of_suffix ((List.suffix_cons l v).trans hv))
      split at h
      case h_1 =>
        split at h
        · obtain ⟨⟨selected, w⟩, hw, h⟩ := Option.bind_eq_some_iff.1 h
          exact ih h (hopen (selected_ends hr hw))
        · cases h
          exact hu
      case h_2 =>
        split at h
        · obtain ⟨w, hw, h⟩ := Option.bind_eq_some_iff.1 h
          exact ih h (hopen (arguments_ends hr hw))
        · split at h
          · obtain ⟨w, hw, h⟩ := Option.bind_eq_some_iff.1 h
            exact ih h (hopen (conversionOperand_ends hr hw))
          · cases h
            exact hu
      case h_3 =>
        split at h
        · obtain ⟨⟨bracketed, w⟩, hw, h⟩ := Option.bind_eq_some_iff.1 h
          exact ih h (hopen (bracketed_ends hr hw))
        · cases h
          exact hu
      case h_4 =>
        split at h
        · obtain ⟨w, hw, h⟩ := Option.bind_eq_some_iff.1 h
          exact ih h (hu.trans ((read_ends hr hw).of_suffix hv))
        · cases h
          exact hu
      case h_5 =>
        cases h
        exact hu

theorem bracketOperand_ends (hr : rules.End) (h : bracketOperand rules s = some (form, t)) :
    Ends s t := by
  unfold bracketOperand at h
  split at h
  · next u hu =>
    obtain ⟨v, hv, h⟩ := Option.bind_eq_some_iff.1 h
    obtain ⟨w, hw, h⟩ := Option.bind_eq_some_iff.1 h
    cases h
    have hpoints : Ends s u := (atMarks_ends (List.cons_ne_nil _ _) hu).of_skip
    exact hpoints.trans ((mark_ends hv).trans (read_ends hr hw))
  · obtain ⟨u, hu, h⟩ := Option.bind_eq_some_iff.1 h
    cases h
    exact arrayType_ends hr hu

theorem functionOperand_ends (hr : rules.End) (h : functionOperand rules s = some (form, t)) :
    Ends s t := by
  obtain ⟨u, hu, h⟩ := Option.bind_eq_some_iff.1 h
  split at h
  · obtain ⟨v, hv, h⟩ := Option.bind_eq_some_iff.1 h
    cases h
    exact (signature_ends hr hu).trans (read_ends hr hv)
  · cases h
    exact signature_ends hr hu

theorem keywordOperand_ends (hr : rules.End)
    (h : keywordOperand n rules word s = some (form, t)) : Ends s t := by
  unfold keywordOperand at h
  split at h
  · exact functionOperand_ends hr h
  · obtain ⟨u, hu, h⟩ := Option.bind_eq_some_iff.1 h
    have hut : t = u := by
      split at h <;> cases h <;> rfl
    exact hut ▸ keywordType_ends hr hu

/-- An operand that is a name ends with the name, or with the arguments after it. -/
theorem nameOperand_ends (hr : rules.End)
    (h : nameOperand n rules mode word u = some (form, t)) (hu : Ends s u) : Ends s t := by
  unfold nameOperand at h
  split at h
  · cases h
    exact hu
  · split at h
    · split at h
      · next v hv =>
        obtain ⟨w, hw, h⟩ := Option.bind_eq_some_iff.1 h
        cases h
        exact hu.trans ((atMark_ends hv).of_formLook.trans (makerArguments_ends hr hw))
      · cases h
        exact hu
    · cases h
      exact hu

theorem parenthesised_ends (hr : rules.End) (h : parenthesised rules s = some (form, t)) :
    Ends s t := by
  obtain ⟨⟨inner, u⟩, hu, h⟩ := Option.bind_eq_some_iff.1 h
  obtain ⟨outer, -, h⟩ := Option.bind_eq_some_iff.1 h
  obtain ⟨v, hv, h⟩ := Option.bind_eq_some_iff.1 h
  cases h
  exact (hr hu).trans (mark_ends hv)

theorem bareOperand_ends (hr : rules.End) (h : bareOperand n rules mode l u = some (form, t))
    (hu : Ends s u) : Ends s t := by
  unfold bareOperand at h
  split at h
  case h_1 => exact nameOperand_ends hr h hu
  case h_2 => exact hu.trans (keywordOperand_ends hr h)
  case h_3 | h_4 =>
    cases h
    exact hu
  case h_5 => exact hu.trans (parenthesised_ends hr h)
  case h_6 => exact hu.trans (bracketOperand_ends hr h)
  case h_7 =>
    obtain ⟨v, hv, h⟩ := Option.map_eq_some_iff.1 h
    cases h
    exact hu.trans (read_ends hr hv)
  case h_8 => cases h

theorem operand_ends (hr : rules.End) (h : operand n rules mode l u = some (form, t))
    (hu : Ends s u) : Ends s t := by
  obtain ⟨⟨bare, v⟩, hv, h⟩ := Option.bind_eq_some_iff.1 h
  exact postfixFrom_ends hr h (bareOperand_ends hr hv hu)

theorem unary_ends (hr : rules.End) (h : unary n rules mode s = some (form, t)) : Ends s t := by
  unfold unary at h
  split at h
  · cases h
  · next l u hskip =>
    have hu : Ends s u := skip_ends hskip
    split at h
    case h_1 =>
      obtain ⟨⟨inner, v⟩, hv, h⟩ := Option.bind_eq_some_iff.1 h
      obtain ⟨outer, -, h⟩ := Option.bind_eq_some_iff.1 h
      cases h
      exact hu.trans (hr hv)
    case h_2 =>
      obtain ⟨v, hv, h⟩ := Option.bind_eq_some_iff.1 h
      obtain ⟨⟨inner, w⟩, hw, h⟩ := Option.bind_eq_some_iff.1 h
      obtain ⟨outer, -, h⟩ := Option.bind_eq_some_iff.1 h
      cases h
      exact hu.trans ((atMark_ends hv).trans (hr hw))
    case h_3 =>
      split at h
      · obtain ⟨⟨inner, v⟩, hv, h⟩ := Option.bind_eq_some_iff.1 h
        obtain ⟨-, h⟩ := Option.ite_none_right_eq_some.1 h
        cases h
        exact hu.trans (hr hv)
      · exact operand_ends hr h hu
    case h_4 => exact operand_ends hr h hu

end StaleDocs.Go
