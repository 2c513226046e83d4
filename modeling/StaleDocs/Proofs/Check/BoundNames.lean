/-
Bindings to names that their files declare. A binding whose marker has the
keyword of a declaration as its key is never reported as bound to a missing
symbol (`checkBindings_found`), with one exception: types are found only if
they are structs, whatever else declares them (`checkBindings_interface`).
The words for a missing symbol can then come from the judge only
(`reason_eq_missing`).
-/
import StaleDocs.Proofs.Check.Bindings
import StaleDocs.Proofs.Go.TopLevel

namespace StaleDocs.Check
open Docs (Binding kindOfKey)
open Go (Declaration Declares DeclaresStruct)
open Repository (LookupError)

variable {σ : Type}

/-- Whether a result is about a declaration that a binding was found to name: what the judge
says of the two, if there is a judge. That no symbol was found is said only by the judge then. -/
def Setup.Found (s : Setup (StateM σ)) (b : Binding) (ds : List Declaration) (r : Result) : Prop :=
  ∃ d ∈ ds, d.declares b.symbol b.kind = true ∧
    ∃ st, let answer := ((s.ask (boundPair b d)).run st).1
      r = settle (boundPair b d) answer ∧
      (r.reason = (missing b).reason → ∃ v, answer = some (.ok v) ∧ v.reason = (missing b).reason)

/-- Of the results of a binding that was found, only a verdict can say that it was not. -/
theorem reason_eq_missing {b : Binding} {d : Declaration} {answer : Answer}
    (h : (settle (boundPair b d) answer).reason = (missing b).reason) :
    ∃ v, answer = some (.ok v) ∧ v.reason = (missing b).reason := by
  match answer, h with
  | some (.ok v), h => exact ⟨v, rfl, h⟩
  | none, h | some (.error _), h =>
    -- The words of a result without a verdict start with another letter.
    have hfirst := congrArg (fun reason => reason.toList.head?) h
    simp [settle, unjudged, boundPair, missing] at hfirst

variable {s : Setup (StateM σ)}

theorem bindingResult_found {b : Binding} {ds : List Declaration}
    (h : (Declaration.find? ds b.symbol b.kind).isSome = true) :
    Always (s.Found b ds) (s.bindingResult b ds) := by
  obtain ⟨d, hd⟩ := Option.isSome_iff_exists.1 h
  have hask : s.bindingResult b ds = settle (boundPair b d) <$> s.ask (boundPair b d) := by
    rw [← judgeBinding_eq, ← judgePair_eq, Setup.judgeBinding, hd]
    rfl
  have hdeclares : d.declares b.symbol b.kind = true := by
    simpa using List.find?_some hd
  rw [hask]
  exact fun st => ⟨d, List.mem_of_find?_eq_some hd, hdeclares, st, rfl, reason_eq_missing⟩

theorem bindingResult_missing {b : Binding} {ds : List Declaration}
    (h : Declaration.find? ds b.symbol b.kind = none) :
    Always (· = missing b) (s.bindingResult b ds) := by
  rw [Setup.bindingResult, h]
  exact .pure rfl

/-- What is known of the result of a binding to a declared name, if the marker of the binding
has the keyword of a declaration of the name as its key. -/
structure Setup.Tells (s : Setup (StateM σ)) (source keyword : String) (b : Binding)
    (ds : List Declaration) (r : Result) : Prop where
  found : (keyword = "type" → DeclaresStruct source b.symbol) → s.Found b ds r
  missing : keyword = "type" → ¬ DeclaresStruct source b.symbol → r = missing b

theorem bindingResult_tells {source keyword : String} {b : Binding} {ds : List Declaration}
    (hds : Go.declarations? source = some ds) (hdeclares : Declares source keyword b.symbol)
    (hname : b.symbol ≠ "_") (hkind : b.kind = kindOfKey keyword.toList) :
    Always (s.Tells source keyword b ds) (s.bindingResult b ds) := by
  by_cases hstruct : keyword = "type" → DeclaresStruct source b.symbol
  · have hbinds := hdeclares.binds hname hstruct
    rw [← hkind, ← Go.find?_isSome_iff hds] at hbinds
    exact (bindingResult_found hbinds).mono fun r hr => ⟨fun _ => hr, fun hkeyword hnot =>
      absurd (hstruct hkeyword) hnot⟩
  · obtain ⟨rfl, hnot⟩ := Classical.not_imp.1 hstruct
    have hnone : Declaration.find? ds b.symbol b.kind = none := by
      rw [← Option.not_isSome_iff_eq_none, Go.find?_isSome_iff hds, hkind]
      exact fun hbinds => hnot (Go.binds_type_iff.1 hbinds)
    exact (bindingResult_missing hnone).mono fun r hr => ⟨fun h => absurd (h rfl) hnot, fun _ _ => hr⟩

/-- **A declared name is found.** Whatever the judge, and whatever else is bound: where a source
declares a name, not the blank one, the check of a binding to it with the keyword of the
declaration as its key has a result, and that is about a declaration of the name. Only a type
has to be a struct: other types, and other names for types, are reported as missing. -/
theorem checkBindings_found {files : σ → String → Except LookupError String} (h : s.Steady files)
    {st : σ} {path source keyword name : String} (hfile : files st path = .ok source)
    (hdeclares : Declares source keyword name) (hname : name ≠ "_") (bs : List Binding) :
    ∃ ds, Go.declarations? source = some ds ∧
      (∀ b ∈ bs, b.codeFile = path → (b, ds) ∈ readable (files st) bs) ∧
      List.Forall₂ (fun known r => known.1.codeFile = path → known.1.symbol = name →
          known.1.kind = kindOfKey keyword.toList → s.Tells source keyword known.1 ds r)
        (readable (files st) bs) ((s.checkBindings bs).run st).1.results := by
  obtain ⟨nodes, hnodes, -⟩ := id hdeclares
  obtain ⟨ds, hds⟩ : ∃ ds, Go.declarations? source = some ds := by simp [Go.declarations?, hnodes]
  have hread : declarationsIn (files st) path = some ds := by
    simp only [declarationsIn, hfile, hds]
  refine ⟨ds, hds, fun b hb hpath => ?_, ?_⟩
  · exact List.mem_filterMap.2 ⟨b, hb, by rw [hpath, hread, Option.map_some]⟩
  · rw [h.run_checkBindings]
    refine Always.forall₂_mapM (fun known hknown => ?_) st
    obtain ⟨b, -, hb⟩ := List.mem_filterMap.1 hknown
    obtain ⟨ds', hds', rfl⟩ := Option.map_eq_some_iff.1 hb
    by_cases hall : b.codeFile = path ∧ b.symbol = name ∧ b.kind = kindOfKey keyword.toList
    · obtain ⟨rfl, rfl, hkind⟩ := hall
      cases hread.symm.trans hds'
      exact (bindingResult_tells hds hdeclares hname hkind).mono fun r hr _ _ _ => hr
    · exact fun st h₁ h₂ h₃ => absurd ⟨h₁, h₂, h₃⟩ hall

/-- A source file that declares a struct and an interface in one group. -/
def shopSource : String :=
  "package p\n\ntype (\n\tOrder struct\x7b\x7d\n\tShipper interface\x7b\x7d\n)\n\nfunc (o Order) Ship() \x7b\n\x7d\n"

def shopSetup : Setup (StateM Nat) :=
  { fickleSetup with
    repository := Repository.Snapshot.repository ⟨[], [("shop.go", shopSource)], [], false⟩ }

def typeBinding (name : String) : Binding := ⟨"guide.md", 2, 4, "shop.go", .type, name, "runs"⟩

theorem checkBindings_found_order :
    Declares shopSource "type" "Order" ∧ DeclaresStruct shopSource "Order" ∧
    ∃ ds r, ((shopSetup.checkBindings [typeBinding "Order"]).run 0).1.results = [r] ∧
      shopSetup.Found (typeBinding "Order") ds r := by
  have hdeclares : Declares shopSource "type" "Order" := by decide +kernel
  have hstruct : DeclaresStruct shopSource "Order" := by decide +kernel
  have hsteady : shopSetup.Steady fun _ =>
      Repository.Snapshot.current? ⟨[], [("shop.go", shopSource)], [], false⟩ := .of_pure fun _ => rfl
  obtain ⟨ds, hds, -, hresults⟩ := @checkBindings_found _ shopSetup _ hsteady 0 "shop.go" _ _ _ rfl
    hdeclares (by decide) [typeBinding "Order"]
  have hreadable : readable (Repository.Snapshot.current?
      ⟨[], [("shop.go", shopSource)], [], false⟩) [typeBinding "Order"] = [(typeBinding "Order", ds)] := by
    have hread : declarationsIn (Repository.Snapshot.current?
      ⟨[], [("shop.go", shopSource)], [], false⟩) "shop.go" = some ds := hds
    simp [readable, typeBinding, hread]
  rw [hreadable] at hresults
  obtain ⟨r, rest, hr, hrest, heq⟩ := List.forall₂_cons_left_iff.1 hresults
  cases hrest
  exact ⟨hdeclares, hstruct, ds, r, heq, (hr rfl rfl rfl).found fun _ => hstruct⟩

/-- An interface is declared, and reported as missing. -/
theorem checkBindings_interface :
    Declares shopSource "type" "Shipper" ∧ "Shipper" ≠ "_" ∧
    (typeBinding "Shipper").kind = kindOfKey "type".toList ∧
    ((shopSetup.checkBindings [typeBinding "Shipper"]).run 0).1.results.map
        (fun r => (r.consistent, r.reason)) =
      [(false, "symbol Shipper not found in file shop.go")] :=
  ⟨by decide +kernel, by decide, by decide, by decide +kernel⟩

end StaleDocs.Check
