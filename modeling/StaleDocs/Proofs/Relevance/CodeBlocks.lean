/-
Code blocks as they are found in a text, by their marks alone
(`codeBlocks_cons`). Lines without a mark hold no block
(`codeBlocks_line`), and a mark has its block only if it stands again on a later line
(`codeBlocks_fenced`, `codeBlocks_unclosed`).
-/
import StaleDocs.Proofs.Docs.Fences
import StaleDocs.Proofs.Text.Search
import StaleDocs.Relevance.Pairing

namespace StaleDocs.Relevance
open Docs (Closes Fence FenceLine Opens backtick)
open Text (breakAt? isBlank unlines)

/-- The mark of a code block: a fence character three times. -/
def mark (c : Char) : List Char := List.replicate 3 c

/-- Whether a text holds no mark of a code block. -/
structure Unmarked (cs : List Char) : Prop where
  backticks : ¬ mark backtick <:+: cs
  tildes : ¬ mark '~' <:+: cs

theorem Unmarked.no_mark {c : Char} {cs : List Char} (h : Unmarked cs)
    (hc : c = backtick ∨ c = '~') : ¬ mark c <:+: cs := by
  rcases hc with rfl | rfl
  · exact h.backticks
  · exact h.tildes

/-! ## One block -/

theorem codeBlockAt?_of_not_starts {m cs : List Char} (h : ¬ m <+: cs) :
    codeBlockAt? m cs = none := by
  have hafter : Text.after? m cs = none := by
    rw [Option.eq_none_iff_forall_ne_some]
    exact fun rest hrest => h ⟨rest, (Text.after?_eq_some_iff.1 hrest).symm⟩
  rw [codeBlockAt?, hafter]
  rfl

theorem dropWhile_line {line : List Char} (h : '\n' ∉ line) (rest : List Char) :
    (line ++ rest).dropWhile (· ≠ '\n') = rest.dropWhile (· ≠ '\n') :=
  List.dropWhile_append_of_pos fun c hc => by
    have hne : c ≠ '\n' := by
      rintro rfl
      exact h hc
    simpa using hne

theorem codeBlockAt?_of_not_mem {m line : List Char} (h : '\n' ∉ line) :
    codeBlockAt? m (m ++ line) = none := by
  have hdrop := dropWhile_line h []
  rw [List.append_nil] at hdrop
  rw [codeBlockAt?, Text.after?_append]
  simp only [Option.bind_eq_bind, Option.bind_some, hdrop, List.dropWhile_nil]

theorem codeBlockAt?_line {m line : List Char} (h : '\n' ∉ line) (body : List Char) :
    codeBlockAt? m (m ++ (line ++ '\n' :: body)) = breakAt? m body := by
  rw [codeBlockAt?, Text.after?_append]
  simp only [Option.bind_eq_bind, Option.bind_some, dropWhile_line h]
  simp

/-- A text starts with no mark, or with one on its last line, or with one before the line feed
behind which the mark is looked for again. -/
theorem mark_cases (m cs : List Char) :
    ¬ m <+: cs ∨ (∃ line, '\n' ∉ line ∧ cs = m ++ line) ∨
      ∃ line body, '\n' ∉ line ∧ cs = m ++ (line ++ '\n' :: body) := by
  by_cases h : m <+: cs
  · obtain ⟨tail, rfl⟩ := h
    by_cases hn : '\n' ∈ tail
    · obtain ⟨line, body, rfl, hline⟩ := List.eq_append_cons_of_mem hn
      exact .inr (.inr ⟨line, body, hline, rfl⟩)
    · exact .inr (.inl ⟨tail, hn, rfl⟩)
  · exact .inl h

theorem length_codeBlockAt? {m cs body rest : List Char}
    (h : codeBlockAt? m cs = some (body, rest)) : rest.length < cs.length := by
  rcases mark_cases m cs with hm | ⟨line, hline, rfl⟩ | ⟨line, text, hline, rfl⟩
  · rw [codeBlockAt?_of_not_starts hm] at h
    cases h
  · rw [codeBlockAt?_of_not_mem hline] at h
    cases h
  · rw [codeBlockAt?_line hline] at h
    rw [Text.eq_append_of_breakAt? h]
    simp
    omega

/-- The code block that a text starts with, of backticks or of tildes. -/
def blockAt? (cs : List Char) : Option (List Char × List Char) :=
  (codeBlockAt? (mark backtick) cs).or (codeBlockAt? (mark '~') cs)

theorem length_blockAt? {cs body rest : List Char} (h : blockAt? cs = some (body, rest)) :
    rest.length < cs.length := by
  rcases Option.or_eq_some_iff.1 h with h | ⟨-, h⟩ <;> exact length_codeBlockAt? h

/-! ## All blocks -/

theorem codeBlocksFrom_cons (fuel : Nat) (c : Char) (cs : List Char) :
    codeBlocksFrom (fuel + 1) (c :: cs) =
      match blockAt? (c :: cs) with
      | some (body, rest) => body :: codeBlocksFrom fuel rest
      | none => codeBlocksFrom fuel cs := by
  have hticks : "\x60\x60\x60".toList = mark backtick := by decide
  have htildes : "~~~".toList = mark '~' := by decide
  rw [codeBlocksFrom, hticks, htildes, blockAt?]
  cases codeBlockAt? (mark backtick) (c :: cs) <;> rfl

/-- The steps are enough if there are more of them than characters. -/
theorem codeBlocksFrom_eq {fuel fuel' : Nat} {cs : List Char} (h : cs.length < fuel)
    (h' : cs.length < fuel') : codeBlocksFrom fuel cs = codeBlocksFrom fuel' cs := by
  induction fuel generalizing fuel' cs with
  | zero => omega
  | succ fuel ih =>
    obtain ⟨fuel', rfl⟩ : ∃ n, fuel' = n + 1 := ⟨fuel' - 1, by omega⟩
    cases cs with
    | nil => rfl
    | cons c cs =>
      simp only [List.length_cons] at h h'
      rw [codeBlocksFrom_cons, codeBlocksFrom_cons]
      split
      · next body rest hblock =>
        have hrest := length_blockAt? hblock
        simp only [List.length_cons] at hrest
        rw [@ih fuel' rest (by omega) (by omega)]
      · exact ih (by omega) (by omega)

theorem codeBlocks_cons (c : Char) (cs : List Char) :
    codeBlocks (c :: cs) =
      match blockAt? (c :: cs) with
      | some (body, rest) => body :: codeBlocks rest
      | none => codeBlocks cs := by
  rw [codeBlocks, codeBlocksFrom_cons]
  split
  · next body rest hblock =>
    have hrest := length_blockAt? hblock
    rw [codeBlocks, codeBlocksFrom_eq hrest (Nat.lt_succ_self _)]
  · rfl

theorem codeBlocks_cons_of_none {c : Char} {cs : List Char} (h : blockAt? (c :: cs) = none) :
    codeBlocks (c :: cs) = codeBlocks cs := by
  rw [codeBlocks_cons, h]

theorem blockAt?_of_none {cs : List Char}
    (h : ∀ c, c = backtick ∨ c = '~' → codeBlockAt? (mark c) cs = none) : blockAt? cs = none := by
  rw [blockAt?, h backtick (.inl rfl), h '~' (.inr rfl)]
  rfl

theorem blockAt?_of_not_starts {cs : List Char}
    (h : ∀ c, c = backtick ∨ c = '~' → ¬ mark c <+: cs) : blockAt? cs = none :=
  blockAt?_of_none fun c hc => codeBlockAt?_of_not_starts (h c hc)

/-! ## Lines without a mark -/

theorem Unmarked.blockAt?_eq_none {cs : List Char} (h : Unmarked cs) : blockAt? cs = none :=
  blockAt?_of_not_starts fun _ hc hp => h.no_mark hc hp.isInfix

theorem Unmarked.of_part {as bs : List Char} (h : Unmarked bs) (hi : as <:+: bs) : Unmarked as :=
  ⟨fun ha => h.backticks (ha.trans hi), fun ha => h.tildes (ha.trans hi)⟩

theorem Unmarked.codeBlocks_eq_nil {cs : List Char} (h : Unmarked cs) : codeBlocks cs = [] := by
  induction cs with
  | nil => rfl
  | cons c cs ih =>
    rw [codeBlocks_cons_of_none h.blockAt?_eq_none]
    exact ih (h.of_part (List.suffix_cons c cs).isInfix)

theorem mark_ne_nil (c : Char) : mark c ≠ [] := by simp [mark]

theorem not_mem_mark {c d : Char} (hc : c = backtick ∨ c = '~') (hd : isBlank d = true) :
    d ∉ mark c := by
  rw [mark, List.mem_replicate]
  rintro ⟨-, rfl⟩
  rcases hc with rfl | rfl <;> exact absurd hd (by decide)

theorem not_infix_blanks {c : Char} (hc : c = backtick ∨ c = '~') {blanks : List Char}
    (h : ∀ d ∈ blanks, isBlank d = true) : ¬ mark c <:+: blanks := fun hi => by
  have hnil := (Text.infix_append_iff (x := []) (mark_ne_nil c)
    fun d hd => not_mem_mark hc (h d hd)).1 hi
  exact mark_ne_nil c (List.infix_nil.1 hnil)

theorem unmarked_blanks {blanks : List Char} (h : ∀ d ∈ blanks, isBlank d = true) :
    Unmarked blanks :=
  ⟨not_infix_blanks (.inl rfl) h, not_infix_blanks (.inr rfl) h⟩

/-- A mark that a line does not start with does not reach over its end. -/
theorem not_starts_line {c : Char} (hc : c = backtick ∨ c = '~') {l : List Char}
    (h : ¬ mark c <+: l) (cs : List Char) : ¬ mark c <+: l ++ '\n' :: cs := by
  rwa [Text.prefix_append_cons_iff (not_mem_mark hc (by decide))]

theorem Unmarked.blockAt?_line {l : List Char} (h : Unmarked l) (cs : List Char) :
    blockAt? (l ++ '\n' :: cs) = none :=
  blockAt?_of_not_starts fun _ hc => not_starts_line hc (fun hp => h.no_mark hc hp.isInfix) cs

/-- A line without a mark makes no difference. -/
theorem codeBlocks_line {l : List Char} (h : Unmarked l) (cs : List Char) :
    codeBlocks (l ++ '\n' :: cs) = codeBlocks cs := by
  induction l with
  | nil => exact codeBlocks_cons_of_none (h.blockAt?_line cs)
  | cons c l ih =>
    have hnone := h.blockAt?_line cs
    rw [List.cons_append] at hnone ⊢
    rw [codeBlocks_cons_of_none hnone]
    exact ih (h.of_part (List.suffix_cons c l).isInfix)

/-! ## Blanks behind a text -/

section Blanks

variable {blanks : List Char} (hblanks : ∀ d ∈ blanks, isBlank d = true)
include hblanks

theorem codeBlockAt?_append_blanks {c : Char} (hc : c = backtick ∨ c = '~') (cs : List Char) :
    codeBlockAt? (mark c) (cs ++ blanks) =
      (codeBlockAt? (mark c) cs).map fun found => (found.1, found.2 ++ blanks) := by
  have hapart : ∀ d ∈ blanks, d ∉ mark c := fun d hd => not_mem_mark hc (hblanks d hd)
  rcases mark_cases (mark c) cs with hm | ⟨line, hline, rfl⟩ | ⟨line, body, hline, rfl⟩
  · have hm' : ¬ mark c <+: cs ++ blanks := by rwa [Text.prefix_append_iff hapart]
    rw [codeBlockAt?_of_not_starts hm, codeBlockAt?_of_not_starts hm', Option.map_none]
  · rw [codeBlockAt?_of_not_mem hline, Option.map_none, List.append_assoc]
    -- What is behind a line feed among the blanks holds no mark.
    by_cases hn : '\n' ∈ blanks
    · obtain ⟨as, bs, rfl, has⟩ := List.eq_append_cons_of_mem hn
      rw [← List.append_assoc line, codeBlockAt?_line (by simp [hline, has]),
        Text.breakAt?_eq_none (not_infix_blanks hc fun d hd => hblanks d (by simp [hd]))]
    · exact codeBlockAt?_of_not_mem (by simp [hline, hn])
  · rw [List.append_assoc, List.append_assoc, List.cons_append, codeBlockAt?_line hline,
      codeBlockAt?_line hline, Text.breakAt?_append_of_disjoint (mark_ne_nil c) hapart]

theorem blockAt?_append_blanks (cs : List Char) :
    blockAt? (cs ++ blanks) = (blockAt? cs).map fun found => (found.1, found.2 ++ blanks) := by
  rw [blockAt?, blockAt?, codeBlockAt?_append_blanks hblanks (.inl rfl),
    codeBlockAt?_append_blanks hblanks (.inr rfl), Option.map_or]

/-- Blanks behind a text make no difference to its code blocks. -/
theorem codeBlocks_append_blanks (cs : List Char) : codeBlocks (cs ++ blanks) = codeBlocks cs := by
  cases cs with
  | nil => exact (unmarked_blanks hblanks).codeBlocks_eq_nil
  | cons c cs =>
    have hblock := blockAt?_append_blanks hblanks (c :: cs)
    rw [List.cons_append] at hblock ⊢
    rw [codeBlocks_cons, codeBlocks_cons, hblock]
    cases hfound : blockAt? (c :: cs) with
    | none => exact codeBlocks_append_blanks cs
    | some found =>
      obtain ⟨body, rest⟩ := found
      have hrest := length_blockAt? hfound
      exact congrArg (body :: ·) (codeBlocks_append_blanks rest)
termination_by cs.length
decreasing_by
  · exact Nat.lt_succ_self _
  · exact hrest

end Blanks

/-! ## Fenced lines -/

theorem not_prefix_cons {c d : Char} (h : d ≠ c) (cs : List Char) : ¬ mark c <+: d :: cs := fun hp =>
  h (List.cons_prefix_cons.1 hp).1.symm

theorem codeBlocks_of_some {cs body rest : List Char} (h : blockAt? cs = some (body, rest)) :
    codeBlocks cs = body :: codeBlocks rest := by
  cases cs with
  | nil => cases h
  | cons c cs => rw [codeBlocks_cons, h]

theorem codeBlocks_indent (n : Nat) (cs : List Char) :
    codeBlocks (List.replicate n ' ' ++ cs) = codeBlocks cs := by
  induction n with
  | zero => rfl
  | succ n ih =>
    rw [List.replicate_succ, List.cons_append, codeBlocks_cons_of_none, ih]
    refine blockAt?_of_not_starts fun c hc => not_prefix_cons ?_ _
    rcases hc with rfl | rfl <;> decide

theorem blockAt?_mark {c : Char} (hc : c = backtick ∨ c = '~') {line body : List Char}
    (hline : '\n' ∉ line) {found : List Char × List Char}
    (h : breakAt? (mark c) body = some found) :
    blockAt? (mark c ++ (line ++ '\n' :: body)) = some found := by
  have hblock : codeBlockAt? (mark c) (mark c ++ (line ++ '\n' :: body)) = some found := by
    rw [codeBlockAt?_line hline, h]
  rcases hc with rfl | rfl
  · rw [blockAt?, hblock]
    rfl
  · have hticks : ¬ mark backtick <+: mark '~' ++ (line ++ '\n' :: body) :=
      not_prefix_cons (by decide) _
    rw [blockAt?, codeBlockAt?_of_not_starts hticks, hblock]
    rfl

theorem unmarked_short {c : Char} {k : Nat} (hk : k < 3) {blanks : List Char}
    (hblanks : ∀ d ∈ blanks, isBlank d = true) : Unmarked (List.replicate k c ++ blanks) := by
  have hshort {d : Char} (hd : d = backtick ∨ d = '~') :
      ¬ mark d <:+: List.replicate k c ++ blanks := by
    rw [Text.infix_append_iff (mark_ne_nil d) fun x hx => not_mem_mark hd (hblanks x hx)]
    intro hi
    have hlength := hi.length_le
    simp [mark] at hlength
    omega
  exact ⟨hshort (.inl rfl), hshort (.inr rfl)⟩

/-- A fence line in terms of the mark. -/
theorem mark_of_fenceLine {line rest : List Char} {fence : Fence} (h : FenceLine line fence rest) :
    ∃ n k, line = List.replicate n ' ' ++ (mark fence.marker ++
      (List.replicate k fence.marker ++ rest)) := by
  obtain ⟨n, -, hline⟩ := h.spelled
  obtain ⟨k, hk⟩ := Nat.exists_eq_add_of_le h.length
  refine ⟨n, k, ?_⟩
  rw [hline, hk, mark, ← List.append_assoc (List.replicate 3 _), List.replicate_append_replicate]

/-- A fenced block is found with its lines, and the indent of the line that closes it, if its mark
stands in none of the lines and only once in the closing one. -/
theorem codeBlocks_fenced {opening closing : List Char} {fence : Fence} {inside : List (List Char)}
    (hopen : Opens opening fence) (hline : '\n' ∉ opening)
    (hinside : ∀ l ∈ inside, ¬ mark fence.marker <:+: l) (hclose : Closes closing fence)
    (honce : ¬ mark fence.marker ++ mark fence.marker <:+: closing) (cs : List Char) :
    ∃ n, codeBlocks (opening ++ '\n' :: (unlines inside ++ (closing ++ '\n' :: cs))) =
      (unlines inside ++ List.replicate n ' ') :: codeBlocks cs := by
  obtain ⟨rest, hfence, -⟩ := hopen
  obtain ⟨run, tail, hrun, hmarker, -, hblanks⟩ := hclose
  have hc := hfence.marker
  obtain ⟨i, j, rfl⟩ := mark_of_fenceLine hfence
  obtain ⟨n, k, rfl⟩ := mark_of_fenceLine hrun
  rw [hmarker] at honce ⊢
  have hshort : k < 3 := Nat.lt_of_not_le fun hk => honce (by
    obtain ⟨k, rfl⟩ := Nat.exists_eq_add_of_le hk
    refine ⟨List.replicate n ' ', List.replicate k fence.marker ++ tail, ?_⟩
    simp [mark, ← List.replicate_append_replicate])
  have hspace : ∀ d ∈ List.replicate n ' ', d ∉ mark fence.marker := fun d hd =>
    not_mem_mark hc (by rw [List.eq_of_mem_replicate hd]; decide)
  have hfree : ¬ mark fence.marker <:+: unlines inside ++ List.replicate n ' ' := by
    rw [Text.infix_append_iff (mark_ne_nil _) hspace,
      Text.infix_unlines_iff (mark_ne_nil _) (not_mem_mark hc (by decide))]
    rintro ⟨l, hl, hi⟩
    exact hinside l hl hi
  -- What stands before the closing mark ends with a space or a line feed.
  have hlast : ∀ d ∈ (unlines inside ++ List.replicate n ' ').getLast?, d ∉ mark fence.marker := by
    intro d hd
    cases n with
    | zero =>
      rw [List.replicate_zero, List.append_nil] at hd
      rcases Text.closed_unlines inside d hd with rfl
      exact not_mem_mark hc (by decide)
    | succ n =>
      rw [List.replicate_succ', ← List.append_assoc, List.getLast?_concat] at hd
      cases hd
      exact not_mem_mark hc (by decide)
  have hbreak := Text.breakAt?_of_free hfree hlast
    (List.replicate k fence.marker ++ (tail ++ '\n' :: cs))
  have hafter : '\n' ∉ List.replicate j fence.marker ++ rest := fun hmem =>
    hline (List.mem_append_right _ (List.mem_append_right _ hmem))
  have hblock := blockAt?_mark hc hafter hbreak
  have hrest : codeBlocks (List.replicate k fence.marker ++ (tail ++ '\n' :: cs)) = codeBlocks cs := by
    rw [← List.append_assoc, codeBlocks_line (unmarked_short hshort hblanks)]
  refine ⟨n, ?_⟩
  have hfound := codeBlocks_of_some hblock
  rw [hrest] at hfound
  simp only [List.append_assoc, codeBlocks_indent] at hfound ⊢
  exact hfound

theorem not_infix_unlines {c : Char} (hc : c = backtick ∨ c = '~') {ls : List (List Char)}
    (h : ∀ l ∈ ls, Unmarked l) : ¬ mark c <:+: unlines ls := by
  rw [Text.infix_unlines_iff (mark_ne_nil c) (not_mem_mark hc (by decide))]
  rintro ⟨l, hl, hi⟩
  exact (h l hl).no_mark hc hi

/-- A mark has no block if no other one stands behind its line. -/
theorem codeBlocks_unclosed {opening : List Char} {inside : List (List Char)}
    (hline : '\n' ∉ opening) (hinside : ∀ l ∈ inside, Unmarked l) :
    codeBlocks (opening ++ '\n' :: unlines inside) = [] := by
  induction opening with
  | nil =>
    rw [codeBlocks_line ⟨by decide, by decide⟩]
    exact Unmarked.codeBlocks_eq_nil
      ⟨not_infix_unlines (.inl rfl) hinside, not_infix_unlines (.inr rfl) hinside⟩
  | cons d opening ih =>
    have hblock : blockAt? (d :: opening ++ '\n' :: unlines inside) = none := by
      refine blockAt?_of_none fun c hc => ?_
      by_cases hp : mark c <+: d :: opening
      · obtain ⟨rest, hrest⟩ := hp
        have hrest' : '\n' ∉ rest := fun h => hline (hrest ▸ List.mem_append_right _ h)
        rw [← hrest, List.append_assoc, codeBlockAt?_line hrest',
          Text.breakAt?_eq_none (not_infix_unlines hc hinside)]
      · exact codeBlockAt?_of_not_starts (not_starts_line hc hp _)
    rw [List.cons_append] at hblock ⊢
    rw [codeBlocks_cons_of_none hblock]
    exact ih fun h => hline (List.mem_cons_of_mem d h)

end StaleDocs.Relevance
