/-
Reading what was written. The tokens of a value are read back as the value,
inside whatever brackets are open (`Reads`), so a value that has a text of its
own is read back from its text on one line (`parse?_render`) and from the one
over several (`parse?_pretty`).
-/
import StaleDocs.Json.Reader
import StaleDocs.Proofs.Json.Tokens

namespace StaleDocs.Json

/-! ## Runs over tokens -/

/-- Whether tokens take one reading to another. -/
def Runs (r : Reading) (ts : List Token) (r' : Reading) : Prop :=
  ts.foldlM Reading.step r = some r'

theorem Runs.nil (r : Reading) : Runs r [] r := rfl

theorem Runs.cons {r r' r'' : Reading} {t : Token} {ts : List Token} (ht : r.step t = some r')
    (h : Runs r' ts r'') : Runs r (t :: ts) r'' := by
  rw [Runs, List.foldlM_cons, ht]
  exact h

theorem Runs.append {r r' r'' : Reading} {ts us : List Token} (h : Runs r ts r')
    (h' : Runs r' us r'') : Runs r (ts ++ us) r'' := by
  rw [Runs, List.foldlM_append, h]
  exact h'

/-- Whether tokens are read as a value, inside whatever brackets are open. -/
def Reads (ts : List Token) (v : Value) : Prop :=
  ∀ fs, Runs ⟨fs, .value⟩ ts ⟨fs, .after v⟩

/-- What is left inside a bracket, up to its end: `start` is where the next part begins, given
those already read, last first, and `after` where it ends. -/
theorem runs_separated {α : Type} {start : List α → Reading} {after : α → List α → Reading}
    {final : List α → Reading} {close : Token} {part : α → List Token}
    (hcomma : ∀ x done, (after x done).step .comma = some (start (x :: done)))
    (hclose : ∀ x done, (after x done).step close = some (final (x :: done).reverse))
    {xs : List α} : ∀ {x : α} {done : List α},
    (∀ y ∈ x :: xs, ∀ done, Runs (start done) (part y) (after y done)) →
    Runs (start done) ([Token.comma].intercalate ((x :: xs).map part) ++ [close])
      (final (done.reverse ++ x :: xs)) := by
  induction xs with
  | nil =>
    intro x done h
    have hx := h x List.mem_cons_self done
    rw [List.map_singleton, List.intercalate_singleton, ← List.reverse_cons]
    exact hx.append (.cons (hclose x done) (.nil _))
  | cons y ys ih =>
    intro x done h
    have hx := h x List.mem_cons_self done
    have hys := @ih y (x :: done) fun z hz => h z (.tail _ hz)
    rw [List.reverse_cons, List.append_assoc, List.singleton_append] at hys
    rw [List.map_cons, List.map_cons, List.intercalate_cons_cons, ← List.map_cons,
      List.append_assoc, List.append_assoc]
    exact hx.append (.cons (hcomma x done) hys)

theorem runs_items {fs : List Frame} {v : Value} {vs : List Value}
    (h : ∀ w ∈ v :: vs, Reads w.tokens w) :
    Runs ⟨.array [] :: fs, .value⟩
      ([Token.comma].intercalate ((v :: vs).map Value.tokens) ++ [Token.closeArray])
      ⟨fs, .after (.array (v :: vs))⟩ :=
  @runs_separated _ (fun done => ⟨.array done :: fs, .value⟩)
    (fun w done => ⟨.array done :: fs, .after w⟩) (fun ws => ⟨fs, .after (.array ws)⟩) _ _
    (fun _ _ => rfl) (fun _ _ => rfl) _ _ [] fun w hw _ => h w hw _

theorem runs_members {fs : List Frame} {m : Option String × Value}
    {ms : List (Option String × Value)} (h : ∀ w ∈ m :: ms, Reads w.2.tokens w.2) :
    Runs ⟨fs, .name []⟩
      ([Token.comma].intercalate ((m :: ms).map oneMember) ++ [Token.closeObject])
      ⟨fs, .after (.object (m :: ms))⟩ :=
  @runs_separated _ (fun done => ⟨fs, .name done⟩)
    (fun w done => ⟨.object done w.1 :: fs, .after w.2⟩) (fun ws => ⟨fs, .after (.object ws)⟩) _ _
    (fun _ _ => rfl) (fun _ _ => rfl) _ _ [] fun w hw _ => .cons rfl (.cons rfl (h w hw _))

/-- The first item of an array is read as any other one. -/
theorem Runs.firstItem {fs : List Frame} {v : Value} {vs : List Value} {ts : List Token}
    {r : Reading} (h : Runs ⟨.array [] :: fs, .value⟩
      ([Token.comma].intercalate ((v :: vs).map Value.tokens) ++ ts) r) :
    Runs ⟨fs, .firstItem⟩ ([Token.comma].intercalate ((v :: vs).map Value.tokens) ++ ts) r := by
  cases vs <;> cases v <;> exact h

theorem Runs.firstName {fs : List Frame} {m : Option String × Value}
    {ms : List (Option String × Value)} {ts : List Token} {r : Reading}
    (h : Runs ⟨fs, .name []⟩ ([Token.comma].intercalate ((m :: ms).map oneMember) ++ ts) r) :
    Runs ⟨fs, .firstName⟩ ([Token.comma].intercalate ((m :: ms).map oneMember) ++ ts) r := by
  cases ms <;> exact h

theorem reads_tokens {v : Value} (h : v.Written) : Reads v.tokens v := by
  induction h with
  | null | bool | number | text => exact fun _ => rfl
  | @array items _ ih =>
    intro fs
    rw [Value.tokens, itemTokens_eq]
    cases items with
    | nil => rfl
    | cons v vs => exact .cons rfl (.firstItem (runs_items ih))
  | @record members _ ih =>
    intro fs
    have hmembers : ∀ w ∈ members.map fun m => (some m.1, m.2), Reads w.2.tokens w.2 :=
      List.forall_mem_map.2 ih
    rw [Value.record, Value.tokens, memberTokens_eq]
    cases members with
    | nil => rfl
    | cons m ms => exact .cons rfl (.firstName (runs_members hmembers))

theorem ofTokens?_tokens {v : Value} (h : v.Written) : Value.ofTokens? v.tokens = some v := by
  have hrun : v.tokens.foldlM Reading.step ⟨[], .value⟩ = some ⟨[], .after v⟩ := reads_tokens h []
  rw [Value.ofTokens?, hrun]

/-- A value is read back from its text on one line. -/
theorem parse?_render {v : Value} (h : v.Written) : Value.parse? v.render = some v := by
  have htokens := (writes_compact h [] [] .nil .nil).ofText?
  simp only [List.append_nil] at htokens
  simp [Value.parse?, Value.render, htokens, ofTokens?_tokens h]

theorem parse?_pretty {v : Value} (h : v.Written) : Value.parse? v.pretty = some v := by
  have htokens := (writes_prettyAt h 0 [] [] .nil .nil).ofText?
  simp only [List.append_nil] at htokens
  simp [Value.parse?, Value.pretty, htokens, ofTokens?_tokens h]

end StaleDocs.Json
