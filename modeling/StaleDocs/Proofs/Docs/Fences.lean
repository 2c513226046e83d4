/-
The lines of Markdown that count, in the words of their patterns: a fence line
is an indent, a run and a rest (`fenceRun?_eq_some_iff`), a heading line is
number signs, blanks and a title (`heading?_eq_some_iff`). From these it is
told without a state where no fence is open: after plain lines and whole
fenced blocks (`unfenced_iff`), so never again after a fence that no line
closes.
-/
import Mathlib.Data.List.Induction
import StaleDocs.Docs.Markdown

namespace StaleDocs

namespace Text

/-- How often a text starts with a character, told by what comes after. -/
theorem length_takeWhile_eq_iff {c : Char} {cs : List Char} {n : Nat} :
    (cs.takeWhile (· = c)).length = n ↔
      ∃ rest, cs = List.replicate n c ++ rest ∧ rest.head? ≠ some c := by
  induction cs generalizing n with
  | nil => cases n <;> simp [List.replicate_succ]
  | cons d cs ih =>
    by_cases hd : d = c
    · subst hd
      cases n with
      | zero => simp
      | succ n => simp [List.replicate_succ, ih]
    · cases n with
      | zero => simp [hd]
      | succ n => simp [hd, List.replicate_succ]

theorem trimStart_append_of_blank {blanks : List Char} (h : ∀ c ∈ blanks, isBlank c = true)
    (cs : List Char) : trimStart (blanks ++ cs) = trimStart cs := by
  rw [trimStart, List.dropWhile_append_of_pos h, trimStart]

theorem trim_append_of_blank {blanks : List Char} (h : ∀ c ∈ blanks, isBlank c = true)
    (cs : List Char) : trim (blanks ++ cs) = trim cs := by
  rw [trim, trimStart_append_of_blank h, trim]

end Text

namespace Docs
open Text (isBlank isBlankText)

/-! ## Lines -/

/-- Whether a line starts with a fence: at most three spaces, then a backtick or a tilde at
least three times, and something else after these. -/
structure FenceLine (line : List Char) (fence : Fence) (rest : List Char) : Prop where
  marker : fence.marker = backtick ∨ fence.marker = '~'
  length : 3 ≤ fence.length
  spelled : ∃ indent ≤ 3,
    line = List.replicate indent ' ' ++ (List.replicate fence.length fence.marker ++ rest)
  ends : rest.head? ≠ some fence.marker

theorem FenceLine.head {line rest : List Char} {fence : Fence} (h : FenceLine line fence rest) :
    (List.replicate fence.length fence.marker ++ rest).head? = some fence.marker := by
  obtain ⟨n, hn⟩ := Nat.exists_eq_add_of_le h.length
  simp [hn, Nat.add_comm 3 n, List.replicate_succ]

theorem fenceRun?_eq_some_iff {line rest : List Char} {fence : Fence} :
    fenceRun? line = some (fence, rest) ↔ FenceLine line fence rest := by
  constructor
  · intro h
    simp only [fenceRun?] at h
    generalize hn : (line.takeWhile (· = ' ')).length = indent at h
    obtain ⟨run, rfl, -⟩ := Text.length_takeWhile_eq_iff.1 hn
    rw [List.drop_left' List.length_replicate] at h
    cases run with
    | nil => cases h
    | cons c cs =>
      simp only at h
      generalize hm : ((c :: cs).takeWhile (· = c)).length = length at h
      obtain ⟨after, hspelled, hends⟩ := Text.length_takeWhile_eq_iff.1 hm
      rw [hspelled, List.drop_left' List.length_replicate] at h
      split at h
      · next hc =>
        simp only [Bool.and_eq_true, Bool.or_eq_true, decide_eq_true_eq] at hc
        cases h
        exact ⟨hc.1.2, hc.2, ⟨indent, hc.1.1, by rw [hspelled]⟩, hends⟩
      · cases h
  · intro h
    obtain ⟨indent, hindent, rfl⟩ := h.spelled
    have hhead := h.head
    -- The marker is no space, so the indent ends where the run starts.
    have hspace : fence.marker ≠ ' ' := by
      rcases h.marker with hm | hm <;> rw [hm] <;> decide
    have hn : ((List.replicate indent ' ' ++ (List.replicate fence.length fence.marker ++ rest)).takeWhile
        (· = ' ')).length = indent :=
      Text.length_takeWhile_eq_iff.2 ⟨_, rfl, by rw [hhead]; simpa using hspace⟩
    have hm : ((List.replicate fence.length fence.marker ++ rest).takeWhile
        (· = fence.marker)).length = fence.length :=
      Text.length_takeWhile_eq_iff.2 ⟨_, rfl, h.ends⟩
    have hmarker : (decide (fence.marker = backtick) || decide (fence.marker = '~')) = true := by
      simpa using h.marker
    simp only [fenceRun?, hn, List.drop_left' List.length_replicate]
    split
    · next hnil => rw [hnil] at hhead; cases hhead
    · next c cs hcons =>
      obtain rfl : c = fence.marker := by rw [hcons] at hhead; simpa using hhead
      rw [hm, List.drop_left' List.length_replicate, if_pos]
      simp [hindent, hmarker, h.length]

/-- Whether a line opens a fence: after backticks there is no further one. -/
def Opens (line : List Char) (fence : Fence) : Prop :=
  ∃ rest, FenceLine line fence rest ∧ (fence.marker = backtick → backtick ∉ rest)

/-- Whether a line closes a fence: the same character, at least as often, and only blanks after
it. -/
def Closes (line : List Char) (fence : Fence) : Prop :=
  ∃ run rest, FenceLine line run rest ∧ run.marker = fence.marker ∧ fence.length ≤ run.length ∧
    ∀ c ∈ rest, isBlank c = true

theorem opensFence?_eq_some_iff {line : List Char} {fence : Fence} :
    opensFence? line = some fence ↔ Opens line fence := by
  simp only [Opens, ← fenceRun?_eq_some_iff, opensFence?]
  cases fenceRun? line with
  | none => simp
  | some found =>
    obtain ⟨run, rest⟩ := found
    simp only [Option.some.injEq, Prod.mk.injEq, Bool.and_eq_true, decide_eq_true_eq,
      List.contains_iff_mem]
    constructor
    · intro h
      split at h
      · cases h
      · next hopen =>
        cases h
        exact ⟨rest, ⟨rfl, rfl⟩, fun hm hr => hopen ⟨hm, hr⟩⟩
    · rintro ⟨_, ⟨rfl, rfl⟩, hopen⟩
      rw [if_neg fun h => hopen h.1 h.2]

theorem closedBy_iff {line : List Char} {fence : Fence} :
    fence.closedBy line = true ↔ Closes line fence := by
  simp only [Closes, ← fenceRun?_eq_some_iff, Fence.closedBy]
  cases fenceRun? line with
  | none => simp
  | some found =>
    obtain ⟨run, rest⟩ := found
    simp only [Option.some.injEq, Prod.mk.injEq, isBlankText, Bool.and_eq_true, decide_eq_true_eq,
      List.all_eq_true, and_assoc]
    constructor
    · rintro ⟨hmarker, hlength, hblank⟩
      exact ⟨run, rest, rfl, rfl, hmarker, hlength, hblank⟩
    · rintro ⟨_, _, rfl, rfl, hmarker, hlength, hblank⟩
      exact ⟨hmarker, hlength, hblank⟩

/-- Whether a line is a heading: one to six number signs, blanks, and a title, which may be
blank itself. -/
def HeadingLine (line : List Char) (level : Nat) (text : List Char) : Prop :=
  ∃ blanks title, 1 ≤ level ∧ level ≤ 6 ∧ blanks ≠ [] ∧ (∀ c ∈ blanks, isBlank c = true) ∧
    title ≠ [] ∧ line = List.replicate level '#' ++ (blanks ++ title) ∧ text = Text.trim title

theorem heading?_eq_some_iff {line text : List Char} {level : Nat} :
    heading? line = some (level, text) ↔ HeadingLine line level text := by
  constructor
  · intro h
    simp only [heading?] at h
    generalize hn : (line.takeWhile (· = '#')).length = n at h
    obtain ⟨after, rfl, -⟩ := Text.length_takeWhile_eq_iff.1 hn
    rw [List.drop_left' List.length_replicate] at h
    split at h
    · next c d rest =>
      split at h
      · next hc =>
        simp only [Bool.and_eq_true, decide_eq_true_eq] at hc
        cases h
        have hblank : ∀ x ∈ [c], isBlank x = true := by simpa using hc.2
        exact ⟨[c], d :: rest, hc.1.1, hc.1.2, by simp, hblank, by simp, rfl,
          Text.trim_append_of_blank hblank (d :: rest)⟩
      · cases h
    · cases h
  · rintro ⟨blanks, title, hlow, hhigh, hne, hblank, htitle, rfl, rfl⟩
    obtain ⟨c, blanks, rfl⟩ := List.exists_cons_of_ne_nil hne
    obtain ⟨d, title, rfl⟩ := List.exists_cons_of_ne_nil htitle
    have hc : isBlank c = true := hblank c (by simp)
    -- However the blanks are cut from the title, trimming leaves the same of both.
    obtain ⟨e, rest, hrest⟩ : ∃ e rest, blanks ++ d :: title = e :: rest :=
      List.exists_cons_of_ne_nil (by simp)
    have htrim : Text.trim (c :: e :: rest) = Text.trim (d :: title) := by
      rw [← hrest, ← Text.trim_append_of_blank hblank (d :: title), List.cons_append]
    rw [List.cons_append, hrest]
    have hn : ((List.replicate level '#' ++ c :: e :: rest).takeWhile (· = '#')).length = level := by
      refine Text.length_takeWhile_eq_iff.2 ⟨_, rfl, ?_⟩
      rintro ⟨rfl⟩
      exact absurd hc (by decide)
    simp only [heading?, hn, List.drop_left' List.length_replicate]
    rw [if_pos (by simp [hlow, hhigh, hc]), htrim]

theorem HeadingLine.not_opens {line text : List Char} {level : Nat}
    (h : HeadingLine line level text) (fence : Fence) : ¬ Opens line fence := by
  obtain ⟨blanks, title, hlow, -, -, -, -, hline, -⟩ := h
  rintro ⟨rest, hfence, -⟩
  obtain ⟨indent, -, hspelled⟩ := hfence.spelled
  obtain ⟨n, rfl⟩ := Nat.exists_eq_add_of_le hlow
  -- A fence line starts with a space or the marker, and neither is a number sign.
  have hhash : line.head? = some '#' := by
    simp [hline, Nat.add_comm 1 n, List.replicate_succ]
  cases indent with
  | zero =>
    rw [hspelled, List.replicate_zero, List.nil_append, hfence.head, Option.some.injEq] at hhash
    rcases hfence.marker with hm | hm <;> rw [hm] at hhash <;> exact absurd hhash (by decide)
  | succ indent =>
    simp [hspelled, List.replicate_succ] at hhash

theorem HeadingLine.opensFence?_eq_none {line text : List Char} {level : Nat}
    (h : HeadingLine line level text) : opensFence? line = none :=
  Option.eq_none_iff_forall_ne_some.2 fun fence hf => h.not_opens fence (opensFence?_eq_some_iff.1 hf)

/-! ## Fences over lines -/

/-- Lines after which no fence is open: blocks from a line that opens a fence to the first that
closes it, and lines outside of them that open none. -/
inductive Unfenced : List (List Char) → Prop
  | nil : Unfenced []
  | line {before : List (List Char)} {l : List Char} (h : Unfenced before)
      (hline : ∀ fence, ¬ Opens l fence) : Unfenced (before ++ [l])
  | block {before inside : List (List Char)} {opening closing : List Char} {fence : Fence}
      (h : Unfenced before) (hopen : Opens opening fence) (hinside : ∀ l ∈ inside, ¬ Closes l fence)
      (hclose : Closes closing fence) : Unfenced (before ++ opening :: inside ++ [closing])

/-- Lines after which a fence is open: nothing closes it after the line that opens it. -/
def FencedIn (ls : List (List Char)) (fence : Fence) : Prop :=
  ∃ before opening inside, ls = before ++ opening :: inside ∧ Unfenced before ∧
    Opens opening fence ∧ ∀ l ∈ inside, ¬ Closes l fence

/-- The fence that is open after lines. -/
def fenceAfterLines (ls : List (List Char)) : Option Fence := ls.foldl fenceAfter none

theorem fenceAfterLines_concat (ls : List (List Char)) (l : List Char) :
    fenceAfterLines (ls ++ [l]) = fenceAfter (fenceAfterLines ls) l := by
  simp [fenceAfterLines]

theorem fenceAfter_none (l : List Char) : fenceAfter none l = opensFence? l := rfl

theorem fenceAfter_some (fence : Fence) (l : List Char) :
    fenceAfter (some fence) l = if fence.closedBy l then none else some fence := rfl

/-- A fence stays open in lines that do not close it. -/
theorem foldl_fenceAfter_of_not_closes {fence : Fence} {ls : List (List Char)}
    (h : ∀ l ∈ ls, ¬ Closes l fence) : ls.foldl fenceAfter (some fence) = some fence := by
  induction ls with
  | nil => rfl
  | cons l ls ih =>
    have hl : ¬ fence.closedBy l = true := fun hc => h l (by simp) (closedBy_iff.1 hc)
    rw [List.foldl_cons, fenceAfter_some, if_neg hl, ih fun x hx => h x (by simp [hx])]

theorem Unfenced.fenceAfterLines_eq {ls : List (List Char)} (h : Unfenced ls) :
    fenceAfterLines ls = none := by
  induction h with
  | nil => rfl
  | @line before l _ hline ih =>
    rw [fenceAfterLines_concat, ih, fenceAfter_none, Option.eq_none_iff_forall_ne_some]
    exact fun fence hf => hline fence (opensFence?_eq_some_iff.1 hf)
  | @block before inside opening closing fence _ hopen hinside hclose ih =>
    have hin : fenceAfterLines (before ++ opening :: inside) = some fence := by
      rw [fenceAfterLines, List.foldl_append, ← fenceAfterLines, ih, List.foldl_cons,
        fenceAfter_none, opensFence?_eq_some_iff.2 hopen, foldl_fenceAfter_of_not_closes hinside]
    rw [fenceAfterLines_concat, hin, fenceAfter_some, if_pos (closedBy_iff.2 hclose)]

/-- What is known of the lines from the fence that is open after them. -/
theorem fenceAfterLines_cases (ls : List (List Char)) :
    (fenceAfterLines ls = none → Unfenced ls) ∧
      ∀ fence, fenceAfterLines ls = some fence → FencedIn ls fence := by
  induction ls using List.reverseRecOn with
  | nil => exact ⟨fun _ => .nil, nofun⟩
  | append_singleton ls l ih =>
    rw [fenceAfterLines_concat]
    cases hstate : fenceAfterLines ls with
    | none =>
      have hls := ih.1 hstate
      rw [fenceAfter_none]
      refine ⟨fun h => hls.line fun fence ho => ?_, fun fence h => ?_⟩
      · rw [opensFence?_eq_some_iff.2 ho] at h
        cases h
      · exact ⟨ls, l, [], rfl, hls, opensFence?_eq_some_iff.1 h, by simp⟩
    | some f =>
      -- The next line makes a block of the open fence, or is one more inside of it.
      obtain ⟨before, opening, inside, rfl, hbefore, hopen, hinside⟩ := ih.2 f hstate
      rw [fenceAfter_some]
      split
      · next hclose =>
        exact ⟨fun _ => hbefore.block hopen hinside (closedBy_iff.1 hclose), nofun⟩
      · next hclose =>
        refine ⟨nofun, fun fence h => ?_⟩
        cases h
        refine ⟨before, opening, inside ++ [l], by simp, hbefore, hopen, ?_⟩
        intro x hx
        rcases List.mem_append.1 hx with hx | hx
        · exact hinside x hx
        · rw [List.mem_singleton.1 hx]
          exact fun hc => hclose (closedBy_iff.2 hc)

/-- No fence is open exactly after plain lines and whole blocks. -/
theorem unfenced_iff {ls : List (List Char)} : Unfenced ls ↔ fenceAfterLines ls = none :=
  ⟨Unfenced.fenceAfterLines_eq, (fenceAfterLines_cases ls).1⟩

end Docs
end StaleDocs
