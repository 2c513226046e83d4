/-
When settings have a key for the judge once the environment was added. A
reference is followed to its variable, and the two variables for keys stand in
for a key that is empty, or whose reference has no value (`isConfigured_iff`).
So with a value for one of the two there is a key, unless the settings' own key
is white space (`isConfigured_of_variable`): that is not empty, so nothing
stands in for it, and blank, so it is no key either.
-/
import StaleDocs.Settings.Environment

namespace StaleDocs.Settings
open Text (isBlankText)

/-- Whether a variable has a value that is not blank. -/
def Holds (env : Environment) (name : String) : Prop :=
  ∃ value, env name = some value ∧ isBlankText value.toList = false

variable {env : Environment} {name key : String}

theorem valueOf_eq_some_iff {value : String} :
    valueOf env name = some value ↔ env name = some value ∧ isBlankText value.toList = false := by
  simp [valueOf, Option.filter_eq_some_iff]

theorem isSome_valueOf_iff : (valueOf env name).isSome = true ↔ Holds env name := by
  rw [Option.isSome_iff_exists]
  exact exists_congr fun _ => valueOf_eq_some_iff

/-! ## References -/

/-- A reference is no blank text. -/
theorem isBlankText_of_referenced? (h : referenced? key = some name) :
    isBlankText key.toList = false := by
  refine Bool.eq_false_iff.2 fun hblank => ?_
  have hstart : Text.trimStart key.toList = [] := (Text.trimStart_eq_nil_iff _).2 hblank
  have htrim : Text.trim key.toList = [] := by
    rw [Text.trim, hstart]
    rfl
  rw [referenced?, htrim] at h
  cases h

/-- The value of a reference, or nothing. -/
theorem followed_of_referenced? (h : referenced? key = some name) :
    followed env key = (valueOf env name).getD "" := by
  rw [followed, h]

theorem followed_of_plain (h : referenced? key = none) : followed env key = key := by
  rw [followed, h]

/-! ## Stand-ins -/

theorem orElse_of_ne {value : String} (h : value ≠ "") (names : List String) :
    orElse env value names = value := by
  have hempty : value.isEmpty = false := by simpa using h
  simp [orElse, hempty]

theorem isBlankText_orElse_empty {names : List String} :
    isBlankText (orElse env "" names).toList = false ↔ ∃ name ∈ names, Holds env name := by
  have hempty : orElse env "" names = (names.findSome? (valueOf env)).getD "" := rfl
  rw [hempty]
  cases hfound : names.findSome? (valueOf env) with
  | none =>
    -- None of the variables has a value, and the empty text is blank.
    have hnone : ∀ name ∈ names, valueOf env name = none := List.findSome?_eq_none_iff.1 hfound
    constructor
    · intro h
      exact absurd h (by decide)
    · rintro ⟨name, hname, hholds⟩
      have hsome := isSome_valueOf_iff.2 hholds
      rw [hnone name hname] at hsome
      cases hsome
  | some value =>
    obtain ⟨name, hname, hvalue⟩ := List.exists_of_findSome?_eq_some hfound
    constructor
    · intro _
      exact ⟨name, hname, isSome_valueOf_iff.1 (by rw [hvalue]; rfl)⟩
    · intro _
      exact (valueOf_eq_some_iff.1 hvalue).2

/-! ## Keys -/

/-- Whether variables stand in for a key: it is empty, or a reference without a value. -/
def Lacks (env : Environment) (key : String) : Prop :=
  key = "" ∨ ∃ name, referenced? key = some name ∧ ¬ Holds env name

theorem isConfigured_eq (a : JudgeAccess) (env : Environment) :
    (a.withEnvironment env).isConfigured = true ↔
      isBlankText (orElse env (followed env a.apiKey) keyVariables).toList = false := by
  simp [JudgeAccess.isConfigured, JudgeAccess.withEnvironment]

/-- There is a key exactly if the settings refer to a variable with a value, or have a key that is
neither blank nor a reference, or if they lack one and a variable stands in for it. -/
theorem isConfigured_iff (a : JudgeAccess) (env : Environment) :
    (a.withEnvironment env).isConfigured = true ↔
      (∃ name, referenced? a.apiKey = some name ∧ Holds env name) ∨
      (referenced? a.apiKey = none ∧ isBlankText a.apiKey.toList = false) ∨
      (Lacks env a.apiKey ∧ ∃ name ∈ keyVariables, Holds env name) := by
  rw [isConfigured_eq]
  cases hkey : referenced? a.apiKey with
  | some name =>
    have hne : a.apiKey ≠ "" := fun hempty => by
      have hblank := isBlankText_of_referenced? hkey
      rw [hempty] at hblank
      cases hblank
    rw [followed_of_referenced? hkey]
    cases hvalue : valueOf env name with
    | some value =>
      have hholds : Holds env name := isSome_valueOf_iff.1 (by rw [hvalue]; rfl)
      have hblank := (valueOf_eq_some_iff.1 hvalue).2
      have hvalue' : value ≠ "" := fun hempty => by
        rw [hempty] at hblank
        cases hblank
      rw [Option.getD_some, orElse_of_ne hvalue']
      simp [hblank, hholds]
    | none =>
      have hholds : ¬ Holds env name := fun h => by
        have hsome := isSome_valueOf_iff.2 h
        rw [hvalue] at hsome
        cases hsome
      rw [Option.getD_none, isBlankText_orElse_empty]
      simp [Lacks, hkey, hholds, hne]
  | none =>
    rw [followed_of_plain hkey]
    by_cases hempty : a.apiKey = ""
    · rw [hempty, isBlankText_orElse_empty]
      have hblank : isBlankText [] = true := rfl
      simp [Lacks, hblank]
    · rw [orElse_of_ne hempty]
      simp [Lacks, hkey, hempty]

/-- **A variable for keys gives the judge a key, unless the settings have white space for one.** -/
theorem isConfigured_of_variable {s : Settings} {env : Environment}
    (h : ∃ name ∈ keyVariables, Holds env name) :
    (s.withEnvironment env).judge.isConfigured = true ↔
      s.judge.apiKey = "" ∨ isBlankText s.judge.apiKey.toList = false := by
  change (s.judge.withEnvironment env).isConfigured = true ↔ _
  rw [isConfigured_iff]
  constructor
  · rintro (⟨name, hkey, -⟩ | ⟨-, hblank⟩ | ⟨hempty | ⟨name, hkey, -⟩, -⟩)
    · exact .inr (isBlankText_of_referenced? hkey)
    · exact .inr hblank
    · exact .inl hempty
    · exact .inr (isBlankText_of_referenced? hkey)
  · rintro (hempty | hblank)
    · exact .inr (.inr ⟨.inl hempty, h⟩)
    · cases hkey : referenced? s.judge.apiKey with
      | none => exact .inr (.inl ⟨rfl, hblank⟩)
      | some name =>
        by_cases hholds : Holds env name
        · exact .inl ⟨name, rfl, hholds⟩
        · exact .inr (.inr ⟨.inr ⟨name, hkey, hholds⟩, h⟩)

/-- The standard settings with a key. -/
def withKey (key : String) : Settings :=
  { standard with judge := { standard.judge with apiKey := key } }

/-- An environment with one variable for keys, and a blank one. -/
def oneKey : Environment
  | "OPENAI_API_KEY" => some "oa"
  | "BLANK" => some " "
  | _ => none

/-- No key, a literal one, and references to a variable with a value, without one and with a blank
one all end with a key. Two blanks stay what they are, which is none. -/
theorem isConfigured_of_variable_oneKey :
    (∃ name ∈ keyVariables, Holds oneKey name) ∧
    (∀ key ∈ ["", "literal", "$\x7bOPENAI_API_KEY\x7d", " $\x7bUNSET\x7d ", "$\x7bBLANK\x7d"],
      ((withKey key).withEnvironment oneKey).judge.isConfigured = true) ∧
    ((withKey "  ").withEnvironment oneKey).judge.isConfigured = false ∧
    ((withKey "  ").withEnvironment oneKey).judge.apiKey = "  " := by
  have hheld : ∃ name ∈ keyVariables, Holds oneKey name :=
    ⟨"OPENAI_API_KEY", by decide, "oa", rfl, by decide⟩
  refine ⟨hheld, fun key hkey => ?_, ?_, by decide⟩
  · refine (isConfigured_of_variable hheld).2 ?_
    revert key
    decide
  · refine Bool.eq_false_iff.2 (mt (isConfigured_of_variable hheld).1 ?_)
    decide

end StaleDocs.Settings
