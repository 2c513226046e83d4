/-
Texts of objects. A value whose first token opens an object is an object
(`parse?_openBrace`): however much is read inside, the outermost bracket stays
that of an object (`Reading.InObject`). A record of one field is read by the
values that stand under its name (`fields?_single`).
-/
import StaleDocs.Json.Record
import StaleDocs.Proofs.Json.RoundTrip

namespace StaleDocs.Json

/-! ## The outermost bracket -/

/-- Whether the outermost bracket is that of an object, inside one of its members. -/
def OuterObject (frames : List Frame) : Prop :=
  ∃ members name, frames.getLast? = some (.object members name)

theorem OuterObject.cons {frames : List Frame} (h : OuterObject frames) (f : Frame) :
    OuterObject (f :: frames) := by
  obtain ⟨members, name, hlast⟩ := h
  refine ⟨members, name, ?_⟩
  rw [List.getLast?_cons, hlast]
  rfl

theorem OuterObject.of_cons {f : Frame} {frames : List Frame} (h : OuterObject (f :: frames)) :
    OuterObject frames ∨ frames = [] ∧ ∃ members name, f = .object members name := by
  obtain ⟨members, name, hlast⟩ := h
  cases frames with
  | nil => exact .inr ⟨rfl, members, name, Option.some.inj hlast⟩
  | cons g frames => exact .inl ⟨members, name, by rwa [List.getLast?_cons_cons] at hlast⟩

theorem OuterObject.of_array {items : List Value} {frames : List Frame}
    (h : OuterObject (.array items :: frames)) : OuterObject frames := by
  rcases h.of_cons with h | ⟨-, members, name, hf⟩
  · exact h
  · cases hf

/-- Whether what is read is an object, as yet open or at its end. -/
inductive Reading.InObject : Reading → Prop
  | firstName : InObject ⟨[], .firstName⟩
  | name (members : List (Option String × Value)) : InObject ⟨[], .name members⟩
  | colon (members : List (Option String × Value)) (name : Option String) :
      InObject ⟨[], .colon members name⟩
  | inside {frames : List Frame} (h : OuterObject frames) (expected : Expected) :
      InObject ⟨frames, expected⟩
  | after (members : List (Option String × Value)) : InObject ⟨[], .after (.object members)⟩

theorem Reading.InObject.step {r r' : Reading} {t : Token} (h : r.InObject)
    (hstep : r.step t = some r') : r'.InObject := by
  cases h with
  | firstName =>
    cases t with
    | closeObject =>
      cases hstep
      exact .after []
    | atom v =>
      cases v with
      | string name =>
        cases hstep
        exact .colon [] name
      | _ => cases hstep
    | _ => cases hstep
  | name members =>
    cases t with
    | atom v =>
      cases v with
      | string name =>
        cases hstep
        exact .colon members name
      | _ => cases hstep
    | _ => cases hstep
  | colon members name =>
    cases t with
    | colon =>
      cases hstep
      exact .inside ⟨members, name, rfl⟩ .value
    | _ => cases hstep
  | inside h expected =>
    simp only [Reading.step] at hstep
    split at hstep <;> cases hstep
    case h_12.refl => exact .inside (h.of_array.cons _) _
    case h_13.refl => exact .inside h.of_array _
    -- What ends a member may end one of the outermost object.
    case h_14.refl =>
      rcases h.of_cons with h | ⟨rfl, -⟩
      · exact .inside h _
      · exact .name _
    case h_15.refl =>
      rcases h.of_cons with h | ⟨rfl, -⟩
      · exact .inside h _
      · exact .after _
    all_goals first | exact .inside h _ | exact .inside (h.cons _) _
  | after members => cases t <;> cases hstep

theorem Reading.InObject.steps {ts : List Token} : ∀ {r r' : Reading}, r.InObject → Runs r ts r' →
    r'.InObject := by
  induction ts with
  | nil =>
    intro r r' h hruns
    exact Option.some.inj hruns ▸ h
  | cons t ts ih =>
    intro r r' h hruns
    rw [Runs, List.foldlM_cons] at hruns
    obtain ⟨next, hstep, hruns⟩ := Option.bind_eq_some_iff.1 hruns
    exact ih (h.step hstep) hruns

/-! ## Texts that open an object -/

theorem scanFrom_prefix {fuel : Nat} : ∀ {out ts : List Token} {cs : List Char},
    scanFrom out fuel cs = some ts → ∃ us, ts = out.reverse ++ us := by
  induction fuel with
  | zero =>
    intro out ts cs h
    simp only [scanFrom] at h
    split at h
    · exact ⟨[], by simpa using (Option.some.inj h).symm⟩
    · cases h
  | succ fuel ih =>
    intro out ts cs h
    cases cs with
    | nil => exact ⟨[], by simpa using (Option.some.inj h).symm⟩
    | cons c cs =>
      simp only [scanFrom] at h
      split at h
      · exact ih h
      · split at h
        · next t rest _ =>
          obtain ⟨us, hus⟩ := ih h
          exact ⟨t :: us, by simpa using hus⟩
        · cases h

theorem ofText?_openBrace {cs : List Char} {ts : List Token}
    (h : Token.ofText? ('{' :: cs) = some ts) : ∃ us, ts = .openObject :: us := by
  have hscan : scanFrom [.openObject] cs.length cs = some ts := h
  exact scanFrom_prefix hscan

/-- A text that starts with an opening brace is that of an object. -/
theorem parse?_openBrace {cs : List Char} {v : Value}
    (h : Value.parse? (String.ofList ('{' :: cs)) = some v) : ∃ members, v = .object members := by
  obtain ⟨ts, hts, hvalue⟩ := Option.bind_eq_some_iff.1 h
  rw [String.toList_ofList] at hts
  obtain ⟨us, rfl⟩ := ofText?_openBrace hts
  rw [Value.ofTokens?] at hvalue
  split at hvalue
  · next w hruns =>
    have hobject : Reading.InObject ⟨[], .after w⟩ := Reading.InObject.firstName.steps hruns
    cases Option.some.inj hvalue
    cases hobject with
    | inside houter =>
      obtain ⟨members, name, hlast⟩ := houter
      cases hlast
    | after members => exact ⟨members, rfl⟩
  · cases hvalue

/-! ## Records of one field -/

/-- The values of the members with a name. -/
def valuesOf (name : String) (members : List (String × Value)) : List Value :=
  (members.filter fun m => m.1 = name).map Prod.snd

theorem valuesOf_eq_nil_iff {name : String} {members : List (String × Value)} :
    valuesOf name members = [] ↔ ∀ m ∈ members, m.1 ≠ name := by
  simp [valuesOf, List.filter_eq_nil_iff]

theorem mem_of_valuesOf {name : String} {members : List (String × Value)} {v : Value}
    (h : v ∈ valuesOf name members) : (name, v) ∈ members := by
  obtain ⟨m, hm, rfl⟩ := List.mem_map.1 h
  obtain ⟨hmem, hname⟩ := List.mem_filter.1 hm
  obtain rfl := of_decide_eq_true hname
  exact hmem

/-- An object with a member whose name denotes no text is no record. -/
theorem record_of_fields? {names : List String} {members : List (Option String × Value)}
    {found : List (Option Value)} (h : fields? names (.object members) = some found) :
    ∃ ms, Value.object members = .record ms := by
  have hnames : ∃ ms : List (String × Value), members = ms.map fun m => (some m.1, m.2) := by
    rw [fields?] at h
    induction members generalizing found with
    | nil => exact ⟨[], rfl⟩
    | cons m members ih =>
      obtain ⟨name, v⟩ := m
      cases name with
      | none => cases h
      | some name =>
        rw [Record.collect] at h
        obtain ⟨others, hothers, -⟩ := Option.bind_eq_some_iff.1 h
        obtain ⟨ms, rfl⟩ := ih hothers
        exact ⟨(name, v) :: ms, rfl⟩
  obtain ⟨ms, rfl⟩ := hnames
  exact ⟨ms, rfl⟩

theorem fields?_single (name : String) (members : List (String × Value)) :
    fields? [name] (.record members) = match valuesOf name members with
      | [] => some [none]
      | [v] => some [some v]
      | _ => none := by
  change Record.collect [name] (members.map fun m => (some m.1, m.2)) = _
  induction members with
  | nil => rfl
  | cons m ms ih =>
    obtain ⟨n, v⟩ := m
    rw [List.map_cons, Record.collect, ih]
    by_cases hn : n = name
    · have hvalues : valuesOf name ((n, v) :: ms) = v :: valuesOf name ms := by simp [valuesOf, hn]
      rw [hvalues]
      cases hms : valuesOf name ms with
      | nil =>
        have hnew : ∀ x, (name, x) ∉ ms := fun x hx => valuesOf_eq_nil_iff.1 hms _ hx rfl
        simp [hn, hnew]
      | cons w ws =>
        have hagain : (name, w) ∈ ms := mem_of_valuesOf (hms ▸ List.mem_cons_self)
        cases ws with
        | nil => simpa [hn] using ⟨w, hagain⟩
        | cons => simp [hn]
    · have hvalues : valuesOf name ((n, v) :: ms) = valuesOf name ms := by simp [valuesOf, hn]
      rw [hvalues]
      simp [hn]

end StaleDocs.Json
