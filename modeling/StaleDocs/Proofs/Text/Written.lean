/-
What is written is read back: lines, each closed by a line feed, are the lines
of their text up to a carriage return at an end (`lines_unlines`), the lines
of two texts are those of the one and of the other where the first is closed
(`lines_append`), and a number in decimal digits reads as itself
(`readNat?_digits`).
-/
import StaleDocs.Text.Lines
import StaleDocs.Text.Word

namespace StaleDocs.Text

/-! ## Lines -/

/-- The text of lines, each with a line feed after it. -/
def unlines (ls : List (List Char)) : List Char := ls.flatMap (· ++ ['\n'])

/-- A line as it is read: without a carriage return at its end. -/
def stripReturn (l : List Char) : List Char := (dropReturn l.reverse).reverse

theorem dropReturn_cons {c : Char} (hc : c ≠ '\r') (cs : List Char) :
    dropReturn (c :: cs) = c :: cs := by
  unfold dropReturn
  split
  · next heq => cases heq; exact absurd rfl hc
  · rfl

theorem stripReturn_of_getLast {l : List Char} (h : l.getLast? ≠ some '\r') : stripReturn l = l := by
  rw [List.getLast?_eq_head?_reverse] at h
  rw [stripReturn]
  cases hr : l.reverse with
  | nil => rw [List.reverse_eq_nil_iff.1 hr]; rfl
  | cons c cs =>
    rw [hr, List.head?_cons, Ne, Option.some.injEq] at h
    rw [dropReturn_cons h, ← hr, List.reverse_reverse]

theorem dropReturn_suffix (cs : List Char) : dropReturn cs <:+ cs := by
  unfold dropReturn
  split
  · exact List.suffix_cons _ _
  · exact List.suffix_refl _

theorem stripReturn_prefix (l : List Char) : stripReturn l <+: l := by
  simpa [stripReturn] using List.reverse_prefix.2 (dropReturn_suffix l.reverse)

/-- A first character other than a carriage return stays. -/
theorem stripReturn_cons {c : Char} (hc : c ≠ '\r') (l : List Char) :
    stripReturn (c :: l) = c :: stripReturn l := by
  simp only [stripReturn, List.reverse_cons]
  cases l.reverse with
  | nil => rw [List.nil_append, dropReturn_cons hc]; rfl
  | cons d r =>
    by_cases hd : d = '\r'
    · subst hd; simp [dropReturn]
    · rw [List.cons_append, dropReturn_cons hd, dropReturn_cons hd]; simp

theorem stripReturn_append {start : List Char} (h : '\r' ∉ start) (l : List Char) :
    stripReturn (start ++ l) = start ++ stripReturn l := by
  induction start with
  | nil => rfl
  | cons c start ih =>
    simp only [List.mem_cons, not_or] at h
    rw [List.cons_append, stripReturn_cons (Ne.symm h.1), ih h.2, List.cons_append]

/-- Characters other than line feeds stay in the open line. -/
theorem foldl_push {l : List Char} : ∀ {cut : LineCut}, '\n' ∉ l →
    l.foldl LineCut.push cut = ⟨cut.finished, l.reverse ++ cut.pending⟩ := by
  induction l with
  | nil => intro cut _; rfl
  | cons c l ih =>
    intro cut h
    obtain ⟨hc, hl⟩ : c ≠ '\n' ∧ '\n' ∉ l := by
      simp only [List.mem_cons, not_or] at h
      exact ⟨Ne.symm h.1, h.2⟩
    rw [List.foldl_cons, ih hl, LineCut.push, if_neg hc]
    simp

theorem foldl_push_unlines {ls : List (List Char)} : ∀ {cut : LineCut}, (∀ l ∈ ls, '\n' ∉ l) →
    cut.pending = [] →
    (unlines ls).foldl LineCut.push cut = ⟨(ls.map stripReturn).reverse ++ cut.finished, []⟩ := by
  induction ls with
  | nil => intro cut _ hp; cases cut; simp_all [unlines]
  | cons l ls ih =>
    intro cut h hp
    have hl := h l (by simp)
    have hstep : (l ++ ['\n']).foldl LineCut.push cut = ⟨stripReturn l :: cut.finished, []⟩ := by
      rw [List.foldl_append, foldl_push hl, hp]
      simp [LineCut.push, stripReturn]
    rw [unlines, List.flatMap_cons, List.foldl_append, hstep]
    have := @ih ⟨stripReturn l :: cut.finished, []⟩ (fun x hx => h x (by simp [hx])) rfl
    rw [unlines] at this
    simp [this]

/-- What holds of all characters but line feeds holds of all characters of lines. -/
theorem foldl_push_forall {P : Char → Prop} (cs : List Char) : ∀ {cut : LineCut},
    (∀ c ∈ cs, c ≠ '\n' → P c) → (∀ c ∈ cut.pending, P c) → (∀ l ∈ cut.finished, ∀ c ∈ l, P c) →
    (∀ c ∈ (cs.foldl LineCut.push cut).pending, P c) ∧
      ∀ l ∈ (cs.foldl LineCut.push cut).finished, ∀ c ∈ l, P c := by
  induction cs with
  | nil => exact fun _ hp hf => ⟨hp, hf⟩
  | cons c cs ih =>
    intro cut h hp hf
    obtain ⟨hc, hcs⟩ := List.forall_mem_cons.1 h
    rw [List.foldl_cons]
    by_cases hfeed : c = '\n'
    · rw [LineCut.push, if_pos hfeed]
      refine ih hcs (by simp) (List.forall_mem_cons.2 ⟨fun d hd => ?_, hf⟩)
      exact hp d ((dropReturn_suffix cut.pending).subset (List.mem_reverse.1 hd))
    · rw [LineCut.push, if_neg hfeed]
      exact ih hcs (List.forall_mem_cons.2 ⟨hc hfeed, hp⟩) hf

theorem forall_mem_lines {P : Char → Prop} {cs l : List Char} (h : ∀ c ∈ cs, c ≠ '\n' → P c)
    (hl : l ∈ lines cs) : ∀ c ∈ l, P c := by
  obtain ⟨hp, hf⟩ := @foldl_push_forall P cs ⟨[], []⟩ h (by simp) (by simp)
  simp only [lines, LineCut.lines] at hl
  split at hl
  · exact hf l (List.mem_reverse.1 hl)
  · rcases List.mem_cons.1 (List.mem_reverse.1 hl) with rfl | hl
    · exact fun c hc => hp c (List.mem_reverse.1 hc)
    · exact hf l hl

theorem not_mem_lines {cs l : List Char} (h : l ∈ lines cs) : '\n' ∉ l := fun hc =>
  @forall_mem_lines (· ≠ '\n') cs l (fun _ _ hne => hne) h '\n' hc rfl

/-- A line has no character that its text lacks. -/
theorem not_mem_of_mem_lines {c : Char} {cs l : List Char} (hc : c ∉ cs) (h : l ∈ lines cs) :
    c ∉ l := fun hcl => hc (@forall_mem_lines (· ∈ cs) cs l (fun _ hd _ => hd) h c hcl)

/-- The text of lines, but for the last line feed. -/
theorem unlines_eq_joinLines {ls : List (List Char)} (h : ls ≠ []) :
    unlines ls = joinLines ls ++ ['\n'] := by
  induction ls with
  | nil => exact absurd rfl h
  | cons l ls ih =>
    cases ls with
    | nil => simp [unlines, joinLines]
    | cons l' ls =>
      have hrest := ih (by simp)
      simp only [unlines, joinLines, List.flatMap_cons, List.intercalate_cons_cons] at hrest ⊢
      rw [hrest]
      simp

/-- The lines of a text that was written line by line. -/
theorem lines_unlines {ls : List (List Char)} (h : ∀ l ∈ ls, '\n' ∉ l) :
    lines (unlines ls) = ls.map stripReturn := by
  rw [lines, foldl_push_unlines h rfl]
  simp [LineCut.lines]

/-- Whether a text is empty or ends with a line feed. -/
def Closed (cs : List Char) : Prop := ∀ c ∈ cs.getLast?, c = '\n'

instance : DecidablePred Closed := fun cs => Option.decidableForallMem cs.getLast?

theorem closed_append {a b : List Char} (h : Closed b) (hb : b ≠ []) : Closed (a ++ b) := by
  intro c hc
  rw [List.getLast?_append, List.getLast?_eq_some_getLast hb, Option.some_or] at hc
  exact h c (List.getLast?_eq_some_getLast hb ▸ hc)

/-- Cutting goes on in the open line, and leaves the finished ones as they are. -/
theorem foldl_push_finished (cs : List Char) : ∀ cut : LineCut,
    cs.foldl LineCut.push cut =
      ⟨(cs.foldl LineCut.push ⟨[], cut.pending⟩).finished ++ cut.finished,
        (cs.foldl LineCut.push ⟨[], cut.pending⟩).pending⟩ := by
  induction cs with
  | nil => intro cut; rfl
  | cons c cs ih =>
    intro cut
    by_cases hc : c = '\n'
    · simp only [List.foldl_cons, LineCut.push, if_pos hc]
      rw [ih, ih ⟨[(dropReturn cut.pending).reverse], []⟩]
      simp
    · simp only [List.foldl_cons, LineCut.push, if_neg hc]
      rw [ih]

/-- No line is open after a closed text. -/
theorem pending_of_closed {cs : List Char} (h : Closed cs) :
    (cs.foldl LineCut.push ⟨[], []⟩).pending = [] := by
  rcases List.eq_nil_or_concat cs with rfl | ⟨cs, c, rfl⟩
  · rfl
  · have hc : c = '\n' := h c (by simp)
    rw [List.concat_eq_append, List.foldl_append]
    simp [LineCut.push, hc]

theorem lines_append {a b : List Char} (h : Closed a) : lines (a ++ b) = lines a ++ lines b := by
  have ha := pending_of_closed h
  simp only [lines, List.foldl_append]
  rw [foldl_push_finished b, ha]
  simp only [LineCut.lines, ha]
  split <;> simp

/-- The text of lines given as strings. -/
def writeLines (ls : List String) : String := String.ofList (unlines (ls.map (·.toList)))

theorem lines_writeLines {ls : List String} (h : ∀ l ∈ ls, '\n' ∉ l.toList) :
    lines (writeLines ls).toList = ls.map fun l => stripReturn l.toList := by
  rw [writeLines, String.toList_ofList, lines_unlines (by simpa using h), List.map_map]
  rfl

theorem writeLines_append (ls ls' : List String) :
    writeLines ls ++ writeLines ls' = writeLines (ls ++ ls') := by
  simp [writeLines, unlines, ← String.ofList_append]

theorem closed_unlines (ls : List (List Char)) : Closed (unlines ls) := by
  intro c hc
  rcases List.eq_nil_or_concat ls with rfl | ⟨ls, l, rfl⟩
  · cases hc
  · simpa [unlines, eq_comm] using hc

theorem joinLines_cons {ls : List (List Char)} (h : ls ≠ []) (l : List Char) :
    joinLines (l :: ls) = l ++ '\n' :: joinLines ls := by
  cases ls with
  | nil => exact absurd rfl h
  | cons l' ls => simp [joinLines, List.intercalate_cons_cons]

theorem joinLines_concat (ls : List (List Char)) (l : List Char) :
    joinLines (ls ++ [l]) = unlines ls ++ l := by
  induction ls with
  | nil => simp [joinLines, unlines]
  | cons l' ls ih =>
    rw [List.cons_append, joinLines_cons (by simp), ih]
    simp [unlines]

/-- The lines of a text that was written with line feeds between its lines, the last of which is
not empty. -/
theorem lines_joinLines {ls : List (List Char)} {l : List Char} (h : ∀ x ∈ ls ++ [l], '\n' ∉ x)
    (hl : l ≠ []) : lines (joinLines (ls ++ [l])) = ls.map stripReturn ++ [l] := by
  have hlast : lines l = [l] := by
    simp only [lines, foldl_push (h l (by simp)), LineCut.lines, List.append_nil]
    split
    · next hnil => exact absurd (List.reverse_eq_nil_iff.1 hnil) hl
    · simp
  rw [joinLines_concat, lines_append (closed_unlines ls),
    lines_unlines fun x hx => h x (List.mem_append_left _ hx), hlast]

theorem closed_writeLines (ls : List String) : Closed (writeLines ls).toList := by
  rw [writeLines, String.toList_ofList]
  exact closed_unlines _

/-! ## Numbers -/

/-- The decimal digits of a number. -/
def digits (n : Nat) : List Char := (toString n).toList

theorem digits_eq (n : Nat) : digits n = Nat.toDigits 10 n := by
  simp [digits]

theorem isDigit_of_mem_digits {n : Nat} {c : Char} (h : c ∈ digits n) : c.isDigit = true :=
  Nat.isDigit_of_mem_toDigits (by decide) (by decide) (digits_eq n ▸ h)

theorem digits_ne_nil (n : Nat) : digits n ≠ [] := by
  rw [digits_eq]
  exact Nat.toDigits_ne_nil

theorem isDecimal_of_isDigit {c : Char} (h : c.isDigit = true) : isDecimal c = true := by
  have hlt : c.toNat < 128 := by
    have hle : c.toNat ≤ 57 := (Char.isDigit_iff_toNat.1 h).2
    omega
  rw [isDecimal, if_pos hlt, h]

theorem readNatFrom_append {limit : Nat} {a : List Char} : ∀ {v : Nat} {b : List Char},
    readNatFrom limit v (a ++ b) = (readNatFrom limit v a).bind (readNatFrom limit · b) := by
  induction a with
  | nil => intro v b; rfl
  | cons c a ih =>
    intro v b
    simp only [List.cons_append, readNatFrom]
    split
    · split
      · exact ih
      · rfl
    · rfl

/-- One digit more than `v` has. -/
theorem readNatFrom_digitChar {limit v d : Nat} (hd : d < 10) (h : 10 * v + d ≤ limit) :
    readNatFrom limit v [d.digitChar] = some (10 * v + d) := by
  have hdig : d.digitChar.isDigit = true := by simp [Nat.isDigit_digitChar, hd]
  simp [readNatFrom, hdig, Nat.toNat_digitChar_sub_48_of_lt_ten hd, h]

theorem readNatFrom_toDigits {limit n : Nat} (h : n ≤ limit) :
    readNatFrom limit 0 (Nat.toDigits 10 n) = some n := by
  induction n using Nat.strongRecOn with
  | _ n ih =>
    by_cases hlt : n < 10
    · rw [Nat.toDigits_of_lt_base hlt, readNatFrom_digitChar hlt (by omega)]
      simp
    · have hprefix := ih (n / 10) (by omega) (by omega)
      rw [Nat.toDigits_of_base_le (by decide) (by omega), readNatFrom_append, hprefix,
        Option.bind_some, readNatFrom_digitChar (by omega) (by omega)]
      congr 1
      omega

/-- The digits of a number within the limit read as the number. -/
theorem readNat?_digits {limit n : Nat} (h : n ≤ limit) : readNat? limit (digits n) = some n := by
  have hread := readNatFrom_toDigits h
  rw [← digits_eq] at hread
  have hne := digits_ne_nil n
  cases hd : digits n with
  | nil => exact absurd hd hne
  | cons c cs => rw [hd] at hread; exact hread

end StaleDocs.Text
