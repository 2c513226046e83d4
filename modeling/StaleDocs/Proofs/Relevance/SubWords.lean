/-
The words of a name. Cutting a name loses no character of it: without capital
sigmas the words one after another are the name in lower case
(`flatten_wordsFrom`), so each word is a part of it (`infix_of_mem_words`), and
where the name is mentioned all words that count are found
(`countMentions_words`).
-/
import StaleDocs.Proofs.Relevance.Mentions
import StaleDocs.Proofs.Text.Search

namespace StaleDocs.Relevance
open Docs (Segment)
open Text (isUpper lower occursIn)

/-! ## The words of a name -/

theorem ne_nil_of_mem_wordsFrom {current cs w : List Char} (h : w ∈ wordsFrom current cs) :
    w ≠ [] := by
  induction cs generalizing current with
  | nil =>
    rw [wordsFrom] at h
    split at h
    · cases h
    · next hcurrent =>
      rw [List.mem_singleton.1 h]
      exact Text.lower_ne_nil (by simpa using hcurrent)
  | cons c cs ih =>
    rw [wordsFrom] at h
    split at h
    · next hcut =>
      rcases List.mem_cons.1 h with rfl | h
      · exact Text.lower_ne_nil (by simp_all)
      · exact ih h
    · exact ih h

/-- The words of the rest of a name go on from those characters of the current one that were
passed. -/
theorem flatten_wordsFrom {current cs : List Char} (hcurrent : 'Σ' ∉ current) (hcs : 'Σ' ∉ cs) :
    (wordsFrom current cs).flatten = lower (current.reverse ++ cs) := by
  induction cs generalizing current with
  | nil =>
    rw [wordsFrom]
    cases current <;> simp [lower]
  | cons c cs ih =>
    obtain ⟨hc, hcs⟩ : 'Σ' ≠ c ∧ 'Σ' ∉ cs := by simpa using hcs
    rw [wordsFrom]
    split
    · rw [List.flatten_cons, ih (by simpa using hc) hcs, List.reverse_singleton,
        List.singleton_append,
        Text.lower_append_of_no_sigma (by simpa using hcurrent) (by simp [hc, hcs])]
    · rw [ih (by simp [hc, hcurrent]) hcs, List.reverse_cons, List.append_assoc,
        List.singleton_append]

/-- After the first character a word begins at each upper-case letter. -/
theorem length_wordsFrom {current : List Char} (h : current ≠ []) (cs : List Char) :
    (wordsFrom current cs).length = 1 + cs.countP isUpper := by
  induction cs generalizing current with
  | nil => simp [wordsFrom, h]
  | cons c cs ih =>
    have hopen : (!current.isEmpty) = true := by simpa using h
    rw [wordsFrom, hopen, Bool.and_true, List.countP_cons]
    split
    · rw [List.length_cons, ih (by simp)]
      omega
    · rw [ih (by simp)]
      rfl

theorem words_cons (c : Char) (cs : List Char) : words (c :: cs) = wordsFrom [c] cs := by
  rw [words, wordsFrom, List.isEmpty_nil, Bool.not_true, Bool.and_false]
  rfl

/-- A word is a part of the name in lower case. -/
theorem infix_of_mem_words {name w : List Char} (hsigma : 'Σ' ∉ name) (h : w ∈ words name) :
    w <:+: lower name := by
  obtain ⟨before, after, hwords⟩ := List.append_of_mem h
  have hflatten : (words name).flatten = lower name := flatten_wordsFrom (by simp) hsigma
  rw [hwords] at hflatten
  exact ⟨before.flatten, after.flatten, by simpa using hflatten⟩

theorem mentions_iff {l : Lowered} {text : List Char} :
    l.mentions text = true ↔ text <:+: l.content ∨ text <:+: l.heading := by
  rw [Lowered.mentions, Bool.or_eq_true, Text.occursIn_iff_isInfix, Text.occursIn_iff_isInfix]

/-- Where a name is mentioned all words that count are found. -/
theorem countMentions_words {name : List Char} (hsigma : 'Σ' ∉ name) {l : Lowered}
    (h : l.mentions (lower name) = true) :
    countMentions l (words name) = (words name).countP isSignificant := by
  rw [countMentions, ← List.countP_eq_length_filter]
  refine List.countP_congr fun w hw => ?_
  have hword := infix_of_mem_words hsigma hw
  have hmentions : l.mentions w = true :=
    mentions_iff.2 ((mentions_iff.1 h).imp hword.trans hword.trans)
  rw [hmentions, Bool.and_true]

/-- A name stands in the lower case of a text in which it stands as it is written. -/
theorem mentions_of_verbatim {name : List Char} (hsigma : 'Σ' ∉ name) {segment : Segment}
    (h : name <:+: segment.heading.toList ∨ name <:+: segment.content.toList) :
    (lowered segment).mentions (lower name) = true := by
  have hlower {cs : List Char} (hcs : name <:+: cs) : lower name <:+: lower cs :=
    Text.lower_infix_of_no_sigma hsigma hcs
  exact mentions_iff.2 (h.symm.imp hlower hlower)

theorem keyword_share_of_mentions {σ : Type} [Score σ] {name : List Char} (hsigma : 'Σ' ∉ name)
    {l : Lowered} (h : l.mentions (lower name) = true) (content : List Char) :
    (Heuristic.keyword.share? name content l : Option σ) =
      if (words name).countP isSignificant = 0 then none
      else some (Score.ratio ((words name).countP isSignificant) (words name).length) := by
  simp only [Heuristic.share?, countMentions_words hsigma h]
  split
  · next hzero => rw [hzero, if_pos rfl]
  · next n hsucc => rw [hsucc, if_neg (Nat.succ_ne_zero n)]

/-- **Cutting a name loses no character.** Without capital sigmas the words of a name are texts
that make up its lower case one after another, one more of them than there are upper-case letters
after the first character. So a text has every word in which the name occurs in lower case, and a
segment in which it stands as written has every word that counts, and earns for words the share of
these among all. -/
theorem words_lossless {σ : Type} [Score σ] {name : List Char} (hsigma : 'Σ' ∉ name) :
    (∀ w ∈ words name, w ≠ []) ∧
    (words name).flatten = lower name ∧
    (words name).length = (if name = [] then 0 else 1 + name.tail.countP isUpper) ∧
    (∀ text, occursIn (lower name) text = true → ∀ w ∈ words name, occursIn w text = true) ∧
    (∀ segment : Segment,
      name <:+: segment.heading.toList ∨ name <:+: segment.content.toList →
        (lowered segment).mentions (lower name) = true) ∧
    ∀ segment : Segment, (lowered segment).mentions (lower name) = true →
      countMentions (lowered segment) (words name) = (words name).countP isSignificant ∧
      (Heuristic.keyword.share? name segment.content.toList (lowered segment) : Option σ) =
        if (words name).countP isSignificant = 0 then none
        else some (Score.ratio ((words name).countP isSignificant) (words name).length) := by
  refine ⟨fun w hw => ne_nil_of_mem_wordsFrom hw, flatten_wordsFrom (by simp) hsigma, ?_, ?_,
    fun segment h => mentions_of_verbatim hsigma h,
    fun segment h => ⟨countMentions_words hsigma h, keyword_share_of_mentions hsigma h _⟩⟩
  · cases name with
    | nil => rfl
    | cons c cs =>
      rw [words_cons, length_wordsFrom (List.cons_ne_nil c []), if_neg (List.cons_ne_nil c cs)]
      rfl
  · intro text h w hw
    rw [Text.occursIn_iff_isInfix] at h ⊢
    exact (infix_of_mem_words hsigma hw).trans h

def retryGuide : Segment :=
  ⟨"guide.md", "Retry", 1, 1, 2, "# Retry\nSet maxİdRetry to 3.", .markdown⟩

/-- Three words, the second of which has one character more in lower case. -/
theorem words_lossless_retry :
    'Σ' ∉ "maxİdRetry".toList ∧
    words "maxİdRetry".toList = ["max".toList, "i\u0307d".toList, "retry".toList] ∧
    (words "maxİdRetry".toList).flatten = lower "maxİdRetry".toList ∧
    (words "maxİdRetry".toList).length = 1 + 2 ∧
    countMentions (lowered retryGuide) (words "maxİdRetry".toList) = 3 := by
  have hsigma : 'Σ' ∉ "maxİdRetry".toList := by decide
  have hverbatim : "maxİdRetry".toList <:+: retryGuide.content.toList :=
    ⟨"# Retry\nSet ".toList, " to 3.".toList, by decide⟩
  obtain ⟨-, hflatten, hlength, -, hmentions, hcount⟩ := words_lossless (σ := Rat) hsigma
  refine ⟨hsigma, by decide, hflatten, ?_, ?_⟩
  · rw [hlength]
    decide
  · rw [(hcount retryGuide (hmentions retryGuide (.inr hverbatim))).1]
    decide

/-- A capital sigma at the end of a name is alone in its word, where it has no final form. -/
example : (words "ΟΣ".toList).flatten = "οσ".toList ∧ lower "ΟΣ".toList = "ος".toList := by
  decide +kernel

end StaleDocs.Relevance
