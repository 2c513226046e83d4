/-
What is read of a reply (`replies_read`). The prose around its object makes no
difference, as long as the object's first brace opens the first of all braces
and its last closes the last (`objectText?_between`). A verdict is in order
whatever the object says, and positions are those that the object lists and
that there are, each where it is listed first (`positions_named`).
-/
import StaleDocs.Judge.Reply
import StaleDocs.Proofs.Check.Verdicts
import StaleDocs.Proofs.Json.Objects
import StaleDocs.Proofs.Lists

namespace StaleDocs.Judge
open Json (Value valuesOf)

/-! ## The object of a reply -/

/-- The object is found between a text without opening and one without closing braces. -/
theorem objectText?_between {before inner after : List Char} (hbefore : '{' ∉ before)
    (hafter : '}' ∉ after) :
    objectText? (before ++ '{' :: inner ++ '}' :: after) = some ('{' :: inner ++ ['}']) := by
  have hfirst : (before ++ '{' :: inner ++ '}' :: after).dropWhile (· ≠ '{') =
      '{' :: inner ++ '}' :: after := by
    rw [List.append_assoc, List.dropWhile_append_of_pos fun c hc => ?_]
    · rfl
    · exact decide_eq_true (ne_of_mem_of_not_mem hc hbefore)
  have hlast : ('{' :: inner ++ '}' :: after).reverse.dropWhile (· ≠ '}') =
      '}' :: ('{' :: inner).reverse := by
    rw [List.reverse_append, List.reverse_cons, List.append_assoc,
      List.dropWhile_append_of_pos fun c hc => ?_]
    · rfl
    · exact decide_eq_true (ne_of_mem_of_not_mem (List.mem_reverse.1 hc) hafter)
  rw [objectText?, hfirst, hlast]
  simp

theorem eq_braced {object : List Char} (hopen : object.head? = some '{')
    (hclose : object.getLast? = some '}') : ∃ inner, object = '{' :: inner ++ ['}'] := by
  obtain ⟨front, rfl⟩ := List.getLast?_eq_some_iff.1 hclose
  cases front with
  | nil => cases hopen
  | cons c inner =>
    obtain rfl := Option.some.inj hopen
    exact ⟨inner, rfl⟩

theorem readReply_between {α : Type} (read : Json.Read α) {before object after : String}
    (hbefore : '{' ∉ before.toList) (hafter : '}' ∉ after.toList)
    (hopen : object.toList.head? = some '{') (hclose : object.toList.getLast? = some '}') :
    readReply read (before ++ object ++ after) = readReply read object := by
  obtain ⟨inner, hinner⟩ := eq_braced hopen hclose
  have halone : objectText? object.toList = some ('{' :: inner ++ ['}']) := by
    rw [hinner]
    exact objectText?_between List.not_mem_nil List.not_mem_nil
  have hprose : objectText? (before ++ object ++ after).toList = some ('{' :: inner ++ ['}']) := by
    rw [String.toList_append, String.toList_append, hinner, ← objectText?_between hbefore hafter]
    simp
  rw [readReply, readReply, halone, hprose]

theorem objectText?_openBrace {reply object : List Char} (h : objectText? reply = some object) :
    ∃ inner, object = '{' :: inner := by
  rw [objectText?] at h
  split at h
  · cases h
  · next hne =>
    have hprefix : object <+: reply.dropWhile (· ≠ '{') := by
      rw [← Option.some.inj h, ← List.reverse_suffix, List.reverse_reverse]
      exact List.dropWhile_suffix _
    obtain ⟨front, hfront⟩ := hprefix
    cases object with
    | nil => exact absurd (List.reverse_eq_nil_iff.1 (Option.some.inj h)) hne
    | cons c inner =>
      have hhead := List.head?_dropWhile_not (fun c => decide (c ≠ '{')) reply
      rw [← hfront] at hhead
      obtain rfl : c = '{' := by simpa using hhead
      exact ⟨inner, rfl⟩

/-! ## The integers that are listed -/

/-- Whether a reply lists integers as relevant: it has an object with an array of them under that
name, or with nothing under that name, and then there are none. -/
def Lists (reply : String) (found : List Int) : Prop :=
  ∃ object members, objectText? reply.toList = some object ∧
    Value.parse? (String.ofList object) = some (.record members) ∧
    (valuesOf "relevant" members = [] ∧ found = [] ∨
      ∃ items, valuesOf "relevant" members = [.array items] ∧
        List.Forall₂ (fun v i => Json.readInt v = some i) items found)

theorem relevantField?_record {members : List (String × Value)} {found : List Int} :
    relevantField? (.record members) = some found ↔
      (valuesOf "relevant" members = [] ∧ found = [] ∨
        ∃ items, valuesOf "relevant" members = [.array items] ∧
          List.Forall₂ (fun v i => Json.readInt v = some i) items found) := by
  rw [relevantField?, Json.fields?_single]
  cases hvalues : valuesOf "relevant" members with
  | nil =>
    constructor
    · intro h
      exact .inl ⟨rfl, (Option.some.inj h).symm⟩
    · rintro (⟨-, rfl⟩ | ⟨items, hitems, -⟩)
      · rfl
      · cases hitems
  | cons v vs =>
    cases vs with
    | nil =>
      change Json.readList Json.readInt v = some found ↔ _
      cases v with
      | array items =>
        rw [Json.readList, mapM_eq_some_iff]
        simp
      | _ => simp [Json.readList]
    | cons w ws => simp

theorem readReply_relevant {reply : String} {found : List Int} :
    readReply relevantField? reply = .ok found ↔ Lists reply found := by
  rw [readReply, Lists]
  cases hobject : objectText? reply.toList with
  | none => simp
  | some object =>
    obtain ⟨inner, rfl⟩ := objectText?_openBrace hobject
    constructor
    · intro h
      simp only at h
      split at h
      · next found' hread =>
        cases h
        obtain ⟨v, hvalue, hfield⟩ := Option.bind_eq_some_iff.1 hread
        obtain ⟨members, rfl⟩ := Json.parse?_openBrace hvalue
        obtain ⟨fields, hfields, -⟩ := Option.bind_eq_some_iff.1 hfield
        obtain ⟨ms, hms⟩ := Json.record_of_fields? hfields
        rw [hms] at hvalue hfield
        exact ⟨_, ms, rfl, hvalue, relevantField?_record.1 hfield⟩
      · cases h
    · rintro ⟨object, members, hsome, hvalue, hlisted⟩
      cases hsome
      simp only [hvalue, Option.bind_some, relevantField?_record.2 hlisted]

/-! ## Positions -/

theorem positions_concat (n : Nat) (found : List Int) (i : Int) :
    positions n (found ++ [i]) =
      if (0 ≤ i ∧ i < (n : Int)) ∧ i.toNat ∉ positions n found then positions n found ++ [i.toNat]
      else positions n found := by
  rw [positions, List.filter_append, List.map_append]
  by_cases hrange : 0 ≤ i ∧ i < (n : Int)
  · rw [List.filter_singleton, decide_eq_true hrange, cond_true, List.map_singleton,
      eraseDups_concat]
    by_cases hmem : i.toNat ∈ positions n found
    · rw [if_pos (List.mem_eraseDups.1 hmem), if_neg fun h => h.2 hmem]
      rfl
    · rw [if_neg (mt List.mem_eraseDups.2 hmem), if_pos ⟨hrange, hmem⟩]
      rfl
  · rw [List.filter_singleton, decide_eq_false hrange, cond_false, List.map_nil, List.append_nil,
      if_neg fun h => hrange h.1]
    rfl

/-- Whether positions are those below a number that are named among integers, each once, in the
order in which they are named first. -/
structure NamesPositions (found : List Int) (n : Nat) (ps : List Nat) : Prop where
  distinct : ps.Nodup
  named : ∀ p, p ∈ ps ↔ p < n ∧ (p : Int) ∈ found
  inOrder : ps.Pairwise fun (p q : Nat) => found.idxOf (p : Int) < found.idxOf (q : Int)

theorem namesPositions (n : Nat) (found : List Int) :
    NamesPositions found n (positions n found) := by
  induction found using List.reverseRecOn with
  | nil => exact ⟨.nil, by simp [positions], .nil⟩
  | append_singleton found i ih =>
    have hmem : ∀ p ∈ positions n found, (p : Int) ∈ found := fun p hp => ((ih.named p).1 hp).2
    have hbefore : (positions n found).Pairwise fun (p q : Nat) =>
        (found ++ [i]).idxOf (p : Int) < (found ++ [i]).idxOf (q : Int) := by
      refine ih.inOrder.imp_of_mem fun {p q} hp hq hlt => ?_
      rwa [List.idxOf_append_of_mem (hmem p hp), List.idxOf_append_of_mem (hmem q hq)]
    rw [positions_concat]
    split
    · next h =>
      obtain ⟨⟨hzero, hn⟩, hnew⟩ := h
      obtain ⟨p, rfl⟩ := Int.eq_ofNat_of_zero_le hzero
      rw [Int.toNat_natCast] at hnew ⊢
      have hlt : p < n := Int.ofNat_lt.1 hn
      have hfresh : (p : Int) ∉ found := fun h => hnew ((ih.named p).2 ⟨hlt, h⟩)
      refine ⟨?_, fun q => ?_, ?_⟩
      · exact List.nodup_append.2 ⟨ih.distinct, List.nodup_singleton p, by
          simpa using fun q hq => ne_of_mem_of_not_mem hq hnew⟩
      · rw [List.mem_append, ih.named, List.mem_singleton, List.mem_append, List.mem_singleton,
          Int.natCast_inj]
        constructor
        · rintro (⟨hq, hfound⟩ | rfl)
          · exact ⟨hq, .inl hfound⟩
          · exact ⟨hlt, .inr rfl⟩
        · rintro ⟨hq, hfound | rfl⟩
          · exact .inl ⟨hq, hfound⟩
          · exact .inr rfl
      · refine List.pairwise_append.2 ⟨hbefore, List.pairwise_singleton _ _, fun q hq r hr => ?_⟩
        obtain rfl := List.mem_singleton.1 hr
        rw [List.idxOf_append_of_mem (hmem q hq), List.idxOf_append_of_notMem hfresh]
        exact Nat.lt_add_right _ (List.idxOf_lt_length_of_mem (hmem q hq))
    · next h =>
      refine ⟨ih.distinct, fun q => ?_, hbefore⟩
      rw [ih.named, List.mem_append, List.mem_singleton]
      constructor
      · rintro ⟨hq, hfound⟩
        exact ⟨hq, .inl hfound⟩
      · rintro ⟨hq, hfound | rfl⟩
        · exact ⟨hq, hfound⟩
        -- It is in the range, so it is left out because it is named already.
        · have hnamed : q ∈ positions n found := by
            by_contra hnew
            exact h ⟨⟨Int.natCast_nonneg q, Int.ofNat_lt.2 hq⟩, by rwa [Int.toNat_natCast]⟩
          exact (ih.named q).1 hnamed

theorem NamesPositions.unique {found : List Int} {n : Nat} {ps qs : List Nat}
    (hp : NamesPositions found n ps) (hq : NamesPositions found n qs) : ps = qs := by
  have hperm : ps.Perm qs := (List.perm_ext_iff_of_nodup hp.distinct hq.distinct).2 fun p => by
    rw [hp.named, hq.named]
  refine hperm.eq_of_pairwise (fun p q _ _ h h' => ?_) hp.inOrder hq.inOrder
  exact absurd h' h.asymm

theorem parseRelevant_eq_ok_iff {reply : String} {n : Nat} {ps : List Nat} :
    parseRelevant reply n = .ok ps ↔ ∃ found, Lists reply found ∧ NamesPositions found n ps := by
  rw [parseRelevant]
  constructor
  · intro h
    cases hread : readReply relevantField? reply with
    | error fault =>
      rw [hread] at h
      cases h
    | ok found =>
      rw [hread] at h
      cases h
      exact ⟨found, readReply_relevant.1 hread, namesPositions n found⟩
  · rintro ⟨found, hlists, hnames⟩
    rw [readReply_relevant.2 hlists, hnames.unique (namesPositions n found)]
    rfl

/-! ## Verdicts -/

/-- Whether a verdict is in order: its confidence is from zero to one, and what it finds at odds
is related. -/
structure Verdict.InOrder (v : Verdict) : Prop where
  confidence : InUnit v.confidence
  agrees : v.related = true ∨ v.consistent = true

theorem inOrder_of_parseVerdict {reply : String} {v : Verdict} (h : parseVerdict reply = .ok v) :
    v.InOrder := by
  rw [parseVerdict] at h
  cases hread : readReply Verdict.ofJson? reply with
  | error fault =>
    rw [hread] at h
    cases h
  | ok w =>
    rw [hread] at h
    cases h
    exact ⟨w.inUnit_normalized, w.normalized_agrees⟩

/-- **Replies are read through any prose.** An object says the same between any text without an
opening brace and any without a closing one. A verdict that is read is in order, and the positions
that are read are those below `n` among the integers that the reply lists, each once, in the order
in which they are listed first. -/
theorem replies_read :
    (∀ before object after : String, '{' ∉ before.toList → '}' ∉ after.toList →
      object.toList.head? = some '{' → object.toList.getLast? = some '}' →
      parseVerdict (before ++ object ++ after) = parseVerdict object ∧
        ∀ n, parseRelevant (before ++ object ++ after) n = parseRelevant object n) ∧
    (∀ reply v, parseVerdict reply = .ok v → v.InOrder) ∧
    ∀ reply n ps, parseRelevant reply n = .ok ps ↔
      ∃ found, Lists reply found ∧ NamesPositions found n ps := by
  refine ⟨fun before object after hbefore hafter hopen hclose => ⟨?_, fun n => ?_⟩,
    fun reply v h => inOrder_of_parseVerdict h, fun reply n ps => parseRelevant_eq_ok_iff⟩
  · rw [parseVerdict, parseVerdict, readReply_between _ hbefore hafter hopen hclose]
  · rw [parseRelevant, parseRelevant, readReply_between _ hbefore hafter hopen hclose]

/-- Prose with a closing brace before an object and an opening one after it. -/
def wrapped (object : String) : String :=
  "Sure \x7d see: " ++ object ++ "\n\x7bdone"

def relevantObject : String := "\x7b\"relevant\": [2, 0, 7, -1, 2]\x7d"

def verdictObject : String :=
  "\x7b\"related\": false, \"consistent\": false, \"confidence\": 7\x7d"

/-- Of the positions that are listed, one is repeated, one negative and one too large; the verdict
is at odds with what is not related, and more than certain. -/
theorem replies_read_wrapped :
    parseRelevant (wrapped relevantObject) 3 = .ok [2, 0] ∧
    ∃ v, parseVerdict (wrapped verdictObject) = .ok v ∧ v.related = false ∧ v.InOrder := by
  obtain ⟨hprose, hverdicts, hpositions⟩ := replies_read
  have hrelevant := (hprose "Sure \x7d see: " relevantObject "\n\x7bdone" (by decide) (by decide)
    (by decide) (by decide)).2 3
  have hverdict := (hprose "Sure \x7d see: " verdictObject "\n\x7bdone" (by decide) (by decide)
    (by decide) (by decide)).1
  refine ⟨hrelevant.trans ?_, ?_⟩
  · decide +kernel
  · have hsays : (parseVerdict verdictObject).toOption.map (·.related) = some false := by
      decide +kernel
    cases hread : parseVerdict verdictObject with
    | error fault =>
      rw [hread] at hsays
      cases hsays
    | ok v =>
      rw [hread] at hsays
      exact ⟨v, hverdict.trans hread, Option.some.inj hsays, hverdicts _ v hread⟩

end StaleDocs.Judge
