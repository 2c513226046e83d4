/-
Blocks are read as they were written (`bindings_written`): a start line, a
marker that quotes the file and the name, the text and an end line give back
the binding that they were written for, at the lines of its marker and of its
end, whatever stands around the blocks that starts none.

What a marker quotes can close no comment and open none, so the marker line has
one role (`role_marker`), and the lines of a text are all that its block gathers
(`bindingsFrom_block`). Line numbers are counted in the text above.
-/
import StaleDocs.Proofs.Docs.BoundBlocks
import StaleDocs.Proofs.Docs.Rescan
import StaleDocs.Proofs.Go.TopLevel

namespace StaleDocs

/-! ## Lines of a text -/

namespace Text

/-- A text is lines that are closed and one that is open. -/
theorem exists_unlines_append (cs : List Char) :
    ∃ ls l, cs = unlines ls ++ l ∧ ∀ x ∈ ls ++ [l], '\n' ∉ x := by
  induction cs with
  | nil => exact ⟨[], [], rfl, by simp⟩
  | cons c cs ih =>
    obtain ⟨ls, l, rfl, hfeed⟩ := ih
    by_cases hc : c = '\n'
    · subst hc
      exact ⟨[] :: ls, l, rfl, by simpa using hfeed⟩
    · cases ls with
      | nil => exact ⟨[], c :: l, rfl, by simpa [Ne.symm hc] using hfeed⟩
      | cons l' ls => exact ⟨(c :: l') :: ls, l, rfl, by simpa [Ne.symm hc] using hfeed⟩

theorem countFeeds_unlines {ls : List (List Char)} (h : ∀ l ∈ ls, '\n' ∉ l) :
    countFeeds (unlines ls) = ls.length := by
  induction ls with
  | nil => rfl
  | cons l ls ih =>
    obtain ⟨hl, hls⟩ := List.forall_mem_cons.1 h
    have hcons : unlines (l :: ls) = l ++ '\n' :: unlines ls := by simp [unlines]
    have hrest := ih hls
    rw [countFeeds] at hrest ⊢
    rw [hcons, List.count_append, List.count_eq_zero.2 hl, List.count_cons_self, hrest,
      List.length_cons, Nat.zero_add]

/-- A closed text has as many lines as line feeds. -/
theorem length_lines {cs : List Char} (h : Closed cs) : (lines cs).length = countFeeds cs := by
  obtain ⟨ls, l, rfl, hfeed⟩ := exists_unlines_append cs
  obtain rfl : l = [] := by
    rcases List.eq_nil_or_concat l with rfl | ⟨l, c, rfl⟩
    · rfl
    · have hc : c = '\n' := h c (by simp)
      exact absurd (hc ▸ hfeed (l.concat c) (by simp)) (by simp)
  have hls : ∀ l ∈ ls, '\n' ∉ l := fun l hl => hfeed l (by simp [hl])
  rw [List.append_nil, lines_unlines hls, countFeeds_unlines hls, List.length_map]

/-- The lines of a text that was closed, joined again. -/
theorem joinLines_lines {cs : List Char} (hreturn : '\r' ∉ cs) :
    joinLines (lines (cs ++ ['\n'])) = cs := by
  obtain ⟨ls, l, rfl, hfeed⟩ := exists_unlines_append cs
  rw [← joinLines_concat] at hreturn ⊢
  have hparts : ∀ x ∈ ls ++ [l], ∀ c ∈ x, c ∈ joinLines (ls ++ [l]) := by
    intro x hx c hc
    have hclosed : c ∈ unlines (ls ++ [l]) :=
      List.mem_flatMap.2 ⟨x, hx, List.mem_append_left _ hc⟩
    rw [unlines_eq_joinLines (by simp)] at hclosed
    refine (List.mem_append.1 hclosed).resolve_right fun hc' => hfeed x hx ?_
    rwa [← List.mem_singleton.1 hc']
  have hstrip : ∀ x ∈ ls ++ [l], stripReturn x = x := fun x hx =>
    stripReturn_of_getLast fun hlast => hreturn (hparts x hx _ (List.mem_of_getLast? hlast))
  rw [← unlines_eq_joinLines (by simp), lines_unlines hfeed,
    (List.map_congr_left hstrip).trans (List.map_id _)]

/-- Closing a text adds no line to one that ends in no line end. -/
theorem lines_close {cs : List Char} {c : Char} (hfeed : c ≠ '\n') (hreturn : c ≠ '\r') :
    lines (cs ++ [c] ++ ['\n']) = lines (cs ++ [c]) := by
  simp [lines, LineCut.push, hfeed, dropReturn_cons hreturn, LineCut.lines]

/-- What is trimmed ends in no blank. -/
theorem not_blank_of_trim_eq {cs : List Char} {c : Char} (h : trim (cs ++ [c]) = cs ++ [c]) :
    isBlank c = false := by
  have hend : trimEnd (cs ++ [c]) = cs ++ [c] := by
    rw [← h, trim, trimEnd_trimEnd]
  have hlast := List.rdropWhile_eq_self_iff.1 hend (by simp)
  simpa using hlast

end Text

namespace Docs
open Text (lines unlines joinLines writeLines countFeeds)

/-! ## Marker lines -/

section Matching
variable {α : Type} {read : List Char → Option α} {cs rest : List Char} {word : String}

/-- What can only be read at a character is read nowhere in a text that lacks it. -/
theorem firstMatch?_eq_none {c : Char}
    (hread : ∀ cs : List Char, cs.head? ≠ some c → read cs = none)
    (h : c ∉ cs) : firstMatch? read cs = none := by
  induction cs with
  | nil => exact hread [] nofun
  | cons d cs ih =>
    simp only [List.mem_cons, not_or] at h
    have hhead : read (d :: cs) = none := hread _ (by simpa using Ne.symm h.1)
    simp only [firstMatch?, hhead, ih h.2]

theorem openMarker?_eq_none (h : cs.head? ≠ some '<') : openMarker? word cs = none := by
  have hafter : Text.after? "<!--".toList cs = none := by
    refine Option.eq_none_iff_forall_ne_some.2 fun rest hrest => h ?_
    rw [Text.after?_eq_some_iff.1 hrest]
    rfl
  rw [openMarker?, hafter]
  rfl

/-- A line that opens a comment once has a marker if it starts with it. -/
theorem hasMarker_cons (h : '<' ∉ rest) :
    hasMarker word ('<' :: rest) = ((openMarker? word ('<' :: rest)).bind closeMarker?).isSome := by
  have hrest : firstMatch? (fun cs => (openMarker? word cs).bind closeMarker?) rest = none :=
    firstMatch?_eq_none (fun cs hcs => by rw [openMarker?_eq_none hcs, Option.bind_none]) h
  rw [hasMarker, firstMatch?]
  cases (openMarker? word ('<' :: rest)).bind closeMarker? with
  | none => rw [hrest]
  | some _ => rfl

end Matching

theorem quotedValue?_quoted {value rest : List Char} (hne : value ≠ []) (h : '"' ∉ value) :
    quotedValue? ('"' :: value ++ '"' :: rest) = some (value, rest) := by
  have hall : ∀ c ∈ value, decide (c ≠ '"') = true := fun c hc => by
    simpa using fun heq : c = '"' => h (heq ▸ hc)
  have hafter : Text.after? ['"'] ('"' :: value ++ '"' :: rest) = some (value ++ '"' :: rest) :=
    Text.after?_append ['"'] _
  have htake : (value ++ '"' :: rest).takeWhile (fun c => decide (c ≠ '"')) = value := by
    rw [List.takeWhile_append_of_pos hall]
    simp
  have hdrop : (value ++ '"' :: rest).dropWhile (fun c => decide (c ≠ '"')) = '"' :: rest := by
    rw [List.dropWhile_append_of_pos hall]
    simp
  obtain ⟨c, cs, rfl⟩ := List.exists_cons_of_ne_nil hne
  rw [quotedValue?, hafter, Option.bind_eq_bind, Option.bind_some, htake, hdrop]
  rfl

/-! ## Writing -/

/-- A text in double quotes. -/
def quoted (s : String) : String := "\"" ++ s ++ "\""

/-- The line that starts a block. -/
def blockStart : String := "<!-- docuguard:start -->"

/-- The line that ends a block. -/
def blockEnd : String := "<!-- docuguard:end -->"

/-- The line that says what a block is bound to. -/
def Binding.marker (b : Binding) : String :=
  "<!-- docuguard:bindCode path=" ++ quoted b.codeFile ++ " " ++ b.kind.keyword ++ "=" ++
    quoted b.symbol ++ " -->"

/-- A bound block as it is written. -/
def Binding.block (b : Binding) : String :=
  writeLines [blockStart, b.marker, b.docContent, blockEnd]

/-- Whether a text can stand in a marker: it has a character, and none that ends the quotes or
the line or opens a comment. -/
structure Quotable (s : String) : Prop where
  nonempty : s ≠ ""
  noQuote : '"' ∉ s.toList
  noComment : '<' ∉ s.toList
  noFeed : '\n' ∉ s.toList

/-- Whether a block can be written for a binding. -/
structure Binding.Writable (b : Binding) : Prop where
  file : Quotable b.codeFile
  symbol : Quotable b.symbol
  trimmed : Text.trim b.docContent.toList = b.docContent.toList
  noReturn : '\r' ∉ b.docContent.toList
  plain : ∀ l ∈ lines b.docContent.toList, role l = .plain

variable {b : Binding}

theorem quoted_toList (s : String) : (quoted s).toList = '"' :: s.toList ++ ['"'] := by
  simp [quoted]

/-- What a marker says after its first equals sign. -/
def Binding.quotes (b : Binding) : List Char :=
  '"' :: b.codeFile.toList ++ '"' :: ' ' ::
    (b.kind.keyword.toList ++ '=' :: ('"' :: b.symbol.toList ++ '"' :: " -->".toList))

theorem marker_toList (b : Binding) :
    b.marker.toList = "<!-- docuguard:bindCode path=".toList ++ b.quotes := by
  unfold Binding.marker Binding.quotes
  simp only [String.toList_append, quoted_toList, List.append_assoc, List.cons_append]
  congr 1

theorem not_mem_quotes (hf : Quotable b.codeFile) (hs : Quotable b.symbol) : '<' ∉ b.quotes := by
  have hkey : '<' ∉ b.kind.keyword.toList := by cases b.kind <;> decide
  simp [Binding.quotes, hf.noComment, hs.noComment, hkey]

/-- A key is read as a word: blanks stand before it and an equals sign after it. -/
theorem read_key (kind : Go.SymbolKind) (rest : List Char) :
    afterBlanks? (' ' :: (kind.keyword.toList ++ rest)) = some (kind.keyword.toList ++ rest) ∧
    (kind.keyword.toList ++ '=' :: rest).takeWhile Text.isWord = kind.keyword.toList ∧
    (kind.keyword.toList ++ '=' :: rest).dropWhile Text.isWord = '=' :: rest ∧
    kind.keyword.toList.isEmpty = false := by
  have hword : ∀ c ∈ kind.keyword.toList, Text.isWord c = true :=
    List.all_eq_true.1 (by cases kind <;> decide)
  have hmark : Text.isWord '=' = false := by decide
  refine ⟨by cases kind <;> rfl, ?_, ?_, by cases kind <;> rfl⟩
  · rw [List.takeWhile_append_of_pos hword, List.takeWhile_cons_of_neg (by simp [hmark]),
      List.append_nil]
  · rw [List.dropWhile_append_of_pos hword, List.dropWhile_cons_of_neg (by simp [hmark])]

theorem targetAt?_marker (hf : Quotable b.codeFile) (hs : Quotable b.symbol) :
    targetAt? b.marker.toList =
      some ⟨b.codeFile.toList, b.kind.keyword.toList, b.symbol.toList⟩ := by
  have hmarker : openMarker? "docuguard:bindCode" b.marker.toList =
      some (" path=".toList ++ b.quotes) := by
    rw [marker_toList]
    rfl
  have hpath : afterBlanks? (" path=".toList ++ b.quotes) = some ("path=".toList ++ b.quotes) := rfl
  have hfile : quotedValue? b.quotes = some (b.codeFile.toList, ' ' ::
      (b.kind.keyword.toList ++ '=' :: ('"' :: b.symbol.toList ++ '"' :: " -->".toList))) :=
    quotedValue?_quoted (by simpa using hf.nonempty) hf.noQuote
  have hsymbol : quotedValue? ('"' :: b.symbol.toList ++ '"' :: " -->".toList) =
      some (b.symbol.toList, " -->".toList) :=
    quotedValue?_quoted (by simpa using hs.nonempty) hs.noQuote
  have hclose : closeMarker? " -->".toList = some () := rfl
  have hequals : ∀ rest, Text.after? ['='] ('=' :: rest) = some rest := Text.after?_append ['=']
  obtain ⟨hblank, -, -, -⟩ :=
    read_key b.kind ('=' :: ('"' :: b.symbol.toList ++ '"' :: " -->".toList))
  obtain ⟨-, htake, hdrop, hkey⟩ := read_key b.kind ('"' :: b.symbol.toList ++ '"' :: " -->".toList)
  rw [targetAt?, hmarker]
  simp only [Option.bind_eq_bind, Option.bind_some, hpath, Text.after?_append, hfile, hblank, htake,
    hdrop, hkey, hequals, hsymbol, hclose]
  rfl

/-- The marker of a binding is one, with the binding's file, key and name, and nothing else. -/
theorem role_marker (hf : Quotable b.codeFile) (hs : Quotable b.symbol) :
    role b.marker.toList =
      .marker ⟨b.codeFile.toList, b.kind.keyword.toList, b.symbol.toList⟩ := by
  have hline : b.marker.toList = '<' :: ("!-- docuguard:bindCode path=".toList ++ b.quotes) :=
    marker_toList b
  have hfree : '<' ∉ "!-- docuguard:bindCode path=".toList ++ b.quotes :=
    fun h => (List.mem_append.1 h).elim (by decide) (not_mem_quotes hf hs)
  have hstart : isStart b.marker.toList = false := by
    rw [hline, isStart, hasMarker_cons hfree]
    rfl
  have hend : isEnd b.marker.toList = false := by
    rw [hline, isEnd, hasMarker_cons hfree]
    rfl
  have htarget : target? b.marker.toList =
      some ⟨b.codeFile.toList, b.kind.keyword.toList, b.symbol.toList⟩ := by
    have hat := targetAt?_marker hf hs
    rw [hline] at hat ⊢
    rw [target?, firstMatch?, hat]
  rw [role, hstart, hend, htarget]
  rfl

theorem role_blockStart : role blockStart.toList = .start := rfl

theorem role_blockEnd : role blockEnd.toList = .stop := rfl

/-! ## Reading -/

variable {file : String} {n : Nat} {ls rest : List (List Char)}

theorem role_ne_start {l : List Char} (h : isStart l = false) : role l ≠ .start := by
  rw [role, h]
  cases isEnd l <;> cases target? l <;> simp

/-- Outside of blocks all lines are passed over but those that start one. -/
theorem bindingsFrom_outside (h : ∀ l ∈ ls, isStart l = false) :
    bindingsFrom file false none n (ls ++ rest) =
      bindingsFrom file false none (n + ls.length) rest := by
  induction ls generalizing n with
  | nil => rfl
  | cons l ls ih =>
    obtain ⟨hl, hls⟩ := List.forall_mem_cons.1 h
    have hnext : n + 1 + ls.length = n + (l :: ls).length := by
      rw [List.length_cons]
      omega
    rw [List.cons_append, bindingsFrom_cons]
    cases hr : role l with
    | start => exact absurd hr (role_ne_start hl)
    | stop | marker | plain => exact (ih hls).trans (hnext ▸ rfl)

/-- After a marker, plain lines are the text. -/
theorem bindingsFrom_plain {o : OpenBinding} (h : ∀ l ∈ ls, role l = .plain) :
    bindingsFrom file true (some o) n (ls ++ rest) =
      bindingsFrom file true (some { o with lines := ls.reverse ++ o.lines }) (n + ls.length)
        rest := by
  induction ls generalizing n o with
  | nil => rfl
  | cons l ls ih =>
    obtain ⟨hl, hls⟩ := List.forall_mem_cons.1 h
    have hnext : n + 1 + ls.length = n + (l :: ls).length := by
      rw [List.length_cons]
      omega
    rw [List.cons_append, bindingsFrom_cons, hl]
    simp only [Option.map_some]
    rw [ih hls, hnext]
    simp

/-- The lines of a block make the binding that they were written for. -/
theorem bindingsFrom_block (hf : Quotable b.codeFile) (hs : Quotable b.symbol)
    (hplain : ∀ l ∈ ls, role l = .plain)
    (htext : Text.trim (joinLines ls) = b.docContent.toList) :
    bindingsFrom file false none n
        (blockStart.toList :: b.marker.toList :: (ls ++ blockEnd.toList :: rest)) =
      { b with docFile := file, docLine := n + 1, endLine := n + 2 + ls.length } ::
        bindingsFrom file false none (n + 3 + ls.length) rest := by
  have hend : n + 1 + 1 + ls.length = n + 2 + ls.length := by omega
  have hnext : n + 2 + ls.length + 1 = n + 3 + ls.length := by omega
  rw [bindingsFrom_cons, role_blockStart, bindingsFrom_cons, role_marker hf hs]
  simp only
  rw [bindingsFrom_plain hplain, bindingsFrom_cons, role_blockEnd, hend, hnext]
  simp [OpenBinding.close, htext, Go.kindOfKey_keyword b.kind]

/-! ## Blocks in a text -/

/-- A block with the text above it, from the block before on. -/
structure Passage where
  above : String
  binding : Binding

/-- Whether a passage can be written: its block can, after whole lines that start no block. -/
structure Passage.Writable (p : Passage) : Prop where
  closed : Text.Closed p.above.toList
  outside : ∀ l ∈ lines p.above.toList, isStart l = false
  block : p.binding.Writable

/-- The text of a passage. -/
def Passage.text (p : Passage) : String := p.above ++ p.binding.block

/-- The text of passages, with what stands below the last. -/
def written (ps : List Passage) (below : String) : String :=
  String.join (ps.map Passage.text) ++ below

/-- The number of the line below a text that is closed. -/
def lineBelow (text : String) : Nat := countFeeds text.toList + 1

/-- The binding of a passage after a text: on the line of its marker, down to the line of its
end. -/
def Passage.placed (file before : String) (p : Passage) : Binding :=
  { p.binding with
    docFile := file
    docLine := lineBelow (before ++ p.above ++ writeLines [blockStart])
    endLine := lineBelow
      (before ++ p.above ++ writeLines [blockStart, p.binding.marker, p.binding.docContent]) }

/-- The bindings of passages after a text. -/
def placedFrom (file before : String) : List Passage → List Binding
  | [] => []
  | p :: ps => p.placed file before :: placedFrom file (before ++ p.text) ps

theorem marker_getLast (b : Binding) : b.marker.toList.getLast? = some '>' := by
  have hquotes : b.quotes = '"' :: b.codeFile.toList ++ '"' :: ' ' :: (b.kind.keyword.toList ++
      '=' :: ('"' :: b.symbol.toList ++ ['"', ' ', '-', '-'])) ++ ['>'] := by
    simp [Binding.quotes]
  rw [marker_toList, hquotes, ← List.append_assoc, List.getLast?_concat]

theorem not_mem_marker (hf : Quotable b.codeFile) (hs : Quotable b.symbol) :
    '\n' ∉ b.marker.toList := by
  have hkey : '\n' ∉ b.kind.keyword.toList := by cases b.kind <;> decide
  rw [marker_toList]
  simp [Binding.quotes, hf.noFeed, hs.noFeed, hkey]

/-- The lines of a block above its end. -/
theorem lines_opening (hf : Quotable b.codeFile) (hs : Quotable b.symbol) :
    lines (writeLines [blockStart, b.marker, b.docContent]).toList =
      blockStart.toList :: b.marker.toList :: lines (b.docContent.toList ++ ['\n']) := by
  have hfeed : ∀ l ∈ [blockStart, b.marker], '\n' ∉ l.toList := by
    simpa using ⟨by decide, not_mem_marker hf hs⟩
  have hmarker : Text.stripReturn b.marker.toList = b.marker.toList :=
    Text.stripReturn_of_getLast (by rw [marker_getLast]; decide)
  have hhead : lines (writeLines [blockStart, b.marker]).toList =
      [blockStart.toList, b.marker.toList] := by
    rw [Text.lines_writeLines hfeed, List.map_cons, List.map_singleton, hmarker]
    rfl
  have htext : (writeLines [b.docContent]).toList = b.docContent.toList ++ ['\n'] := by
    simp [writeLines, unlines]
  have hparts : writeLines [blockStart, b.marker, b.docContent] =
      writeLines [blockStart, b.marker] ++ writeLines [b.docContent] := by
    rw [Text.writeLines_append, List.cons_append, List.singleton_append]
  rw [hparts, String.toList_append, Text.lines_append (Text.closed_writeLines _), hhead, htext,
    List.cons_append, List.singleton_append]

/-- The lines of a block. -/
theorem lines_block (hf : Quotable b.codeFile) (hs : Quotable b.symbol) :
    lines b.block.toList = blockStart.toList :: b.marker.toList ::
      (lines (b.docContent.toList ++ ['\n']) ++ [blockEnd.toList]) := by
  have hparts : b.block =
      writeLines [blockStart, b.marker, b.docContent] ++ writeLines [blockEnd] := by
    rw [Text.writeLines_append, Binding.block]
    rfl
  have hend : lines (writeLines [blockEnd]).toList = [blockEnd.toList] := rfl
  rw [hparts, String.toList_append, Text.lines_append (Text.closed_writeLines _),
    lines_opening hf hs, hend, List.cons_append, List.cons_append]

/-- The lines of a text that can be written are plain. -/
theorem Binding.Writable.plain_lines (h : b.Writable) :
    ∀ l ∈ lines (b.docContent.toList ++ ['\n']), role l = .plain := by
  have htrim := h.trimmed
  have hplain := h.plain
  rcases List.eq_nil_or_concat b.docContent.toList with hnil | ⟨cs, c, hcs⟩
  · rw [hnil]
    exact List.forall_mem_singleton.2 rfl
  · rw [List.concat_eq_append] at hcs
    rw [hcs] at htrim hplain ⊢
    have hblank := Text.not_blank_of_trim_eq htrim
    have hne : ∀ d, Text.isBlank d = true → c ≠ d := by
      rintro d hd rfl
      rw [hd] at hblank
      cases hblank
    rwa [Text.lines_close (hne _ rfl) (hne _ rfl)]

theorem lineBelow_append {text : String} (before : String) (h : Text.Closed text.toList) :
    lineBelow (before ++ text) = lineBelow before + (lines text.toList).length := by
  rw [Text.length_lines h, lineBelow, String.toList_append, countFeeds, List.count_append,
    ← countFeeds, ← countFeeds, lineBelow]
  omega

theorem closed_block (b : Binding) : Text.Closed b.block.toList := Text.closed_writeLines _

/-- The line below a passage. -/
theorem Passage.Writable.lineBelow_text {p : Passage} (h : p.Writable) (before : String) :
    lineBelow (before ++ p.text) =
      lineBelow before + (lines p.above.toList).length + 3 +
        (lines (p.binding.docContent.toList ++ ['\n'])).length := by
  rw [Passage.text, ← String.append_assoc, lineBelow_append _ (closed_block _),
    lineBelow_append _ h.closed, lines_block h.block.file h.block.symbol]
  simp only [List.length_cons, List.length_append, List.length_nil]
  omega

/-- Where the binding of a passage stands, by the lines of its text. -/
theorem Passage.Writable.placed_eq {p : Passage} (h : p.Writable) (before : String) :
    p.placed file before =
      { p.binding with
        docFile := file
        docLine := lineBelow before + (lines p.above.toList).length + 1
        endLine := lineBelow before + (lines p.above.toList).length + 2 +
          (lines (p.binding.docContent.toList ++ ['\n'])).length } := by
  have hopening :
      Text.Closed (writeLines [blockStart, p.binding.marker, p.binding.docContent]).toList :=
    Text.closed_writeLines _
  have hdoc : lineBelow (before ++ p.above ++ writeLines [blockStart]) =
      lineBelow before + (lines p.above.toList).length + 1 := by
    rw [lineBelow_append _ (Text.closed_writeLines _), lineBelow_append _ h.closed]
    rfl
  have hend : lineBelow (before ++ p.above ++
      writeLines [blockStart, p.binding.marker, p.binding.docContent]) =
        lineBelow before + (lines p.above.toList).length + 2 +
          (lines (p.binding.docContent.toList ++ ['\n'])).length := by
    rw [lineBelow_append _ hopening, lineBelow_append _ h.closed,
      lines_opening h.block.file h.block.symbol]
    simp only [List.length_cons]
    omega
  rw [Passage.placed, hdoc, hend]

/-- The lines from a passage on make its binding first. -/
theorem bindingsFrom_passage {p : Passage} (h : p.Writable) (before : String) :
    bindingsFrom file false none (lineBelow before) (lines p.text.toList ++ rest) =
      p.placed file before :: bindingsFrom file false none (lineBelow (before ++ p.text)) rest := by
  have hf := h.block.file
  have hs := h.block.symbol
  have htext : Text.trim (joinLines (lines (p.binding.docContent.toList ++ ['\n']))) =
      p.binding.docContent.toList := by
    rw [Text.joinLines_lines h.block.noReturn, h.block.trimmed]
  rw [h.lineBelow_text, h.placed_eq, Passage.text, String.toList_append,
    Text.lines_append h.closed, lines_block hf hs, List.append_assoc,
    bindingsFrom_outside h.outside]
  simp only [List.cons_append, List.append_assoc, List.nil_append]
  exact bindingsFrom_block hf hs h.block.plain_lines htext

theorem written_cons (p : Passage) (ps : List Passage) (below : String) :
    written (p :: ps) below = p.text ++ written ps below := by
  simp [written, String.append_assoc]

theorem Passage.closed_text (p : Passage) : Text.Closed p.text.toList := by
  rw [Passage.text, String.toList_append]
  exact Text.closed_append (closed_block _) (by simp [Binding.block, writeLines, unlines])

/-- The lines from some passages on make their bindings, and nothing else. -/
theorem bindingsFrom_written {ps : List Passage} {below : String} (hps : ∀ p ∈ ps, p.Writable)
    (hbelow : ∀ l ∈ lines below.toList, isStart l = false) (before : String) :
    bindingsFrom file false none (lineBelow before) (lines (written ps below).toList) =
      placedFrom file before ps := by
  induction ps generalizing before with
  | nil =>
    have houtside :
        bindingsFrom file false none (lineBelow before) (lines below.toList ++ []) = [] :=
      bindingsFrom_outside hbelow
    simpa [written, placedFrom] using houtside
  | cons p ps ih =>
    obtain ⟨hp, hps⟩ := List.forall_mem_cons.1 hps
    rw [written_cons, String.toList_append, Text.lines_append p.closed_text,
      bindingsFrom_passage hp, ih hps, placedFrom]

/-- The line below a closed text is the next that is written. -/
theorem getElem?_lineBelow {above line : String} (habove : Text.Closed above.toList)
    (hfeed : '\n' ∉ line.toList) (hlast : line.toList.getLast? ≠ some '\r') (after : String) :
    (lines (above ++ writeLines [line] ++ after).toList)[lineBelow above - 1]? =
      some line.toList := by
  have hindex : lineBelow above - 1 = (lines above.toList).length := (Text.length_lines habove).symm
  have hline : lines (writeLines [line]).toList = [line.toList] := by
    rw [Text.lines_writeLines (by simpa using hfeed), List.map_singleton,
      Text.stripReturn_of_getLast hlast]
  rw [String.append_assoc, String.toList_append, Text.lines_append habove, String.toList_append,
    Text.lines_append (Text.closed_writeLines _), hline, hindex,
    List.getElem?_append_right (Nat.le_refl _), Nat.sub_self]
  rfl

/-- The lines that a binding is placed on are those of its marker and of its end. -/
theorem Passage.Writable.placed_lines {p : Passage} (h : p.Writable) (before after : String) :
    (lines (before ++ p.text ++ after).toList)[(p.placed file before).docLine - 1]? =
        some p.binding.marker.toList ∧
      (lines (before ++ p.text ++ after).toList)[(p.placed file before).endLine - 1]? =
        some blockEnd.toList := by
  have hclosed : ∀ l ls, Text.Closed (before ++ p.above ++ writeLines (l :: ls)).toList := by
    intro l ls
    rw [String.toList_append]
    exact Text.closed_append (Text.closed_writeLines _) (by simp [writeLines, unlines])
  have hmarker : p.binding.block = writeLines [blockStart] ++ writeLines [p.binding.marker] ++
      writeLines [p.binding.docContent, blockEnd] := by
    rw [Text.writeLines_append, Text.writeLines_append, Binding.block]
    rfl
  have hend : p.binding.block =
      writeLines [blockStart, p.binding.marker, p.binding.docContent] ++ writeLines [blockEnd] := by
    rw [Text.writeLines_append, Binding.block]
    rfl
  have hlast : p.binding.marker.toList.getLast? ≠ some '\r' := by
    rw [marker_getLast]
    decide
  constructor
  · have hline := getElem?_lineBelow (hclosed blockStart [])
      (not_mem_marker h.block.file h.block.symbol) hlast
      (writeLines [p.binding.docContent, blockEnd] ++ after)
    rw [Passage.text, hmarker]
    simpa only [Passage.placed, String.append_assoc] using hline
  · have hfeed : '\n' ∉ blockEnd.toList := by decide
    have hline := getElem?_lineBelow (hclosed blockStart [p.binding.marker, p.binding.docContent])
      hfeed (by decide) after
    rw [Passage.text, hend]
    simpa only [Passage.placed, String.append_assoc] using hline

/-- Every binding of some passages stands on the lines of its marker and of its end. -/
theorem placedFrom_lines {ps : List Passage} {below : String} (hps : ∀ p ∈ ps, p.Writable)
    (before : String) : ∀ g ∈ placedFrom file before ps,
      (lines (before ++ written ps below).toList)[g.docLine - 1]? = some g.marker.toList ∧
        (lines (before ++ written ps below).toList)[g.endLine - 1]? = some blockEnd.toList := by
  induction ps generalizing before with
  | nil => nofun
  | cons p ps ih =>
    obtain ⟨hp, hps⟩ := List.forall_mem_cons.1 hps
    rw [placedFrom, written_cons, ← String.append_assoc]
    exact List.forall_mem_cons.2 ⟨hp.placed_lines before (written ps below), ih hps _⟩

/-- **Bound blocks are read as they were written.** Blocks for any list of bindings, with any
whole lines above each and any text below the last that start no block, make exactly these
bindings, in order: their file, kind, name and text are as they were, and they stand on the lines
of their markers and of their ends. -/
theorem bindings_written {file : String} {ps : List Passage} {below : String}
    (hps : ∀ p ∈ ps, p.Writable) (hbelow : ∀ l ∈ lines below.toList, isStart l = false) :
    bindings file (written ps below) = placedFrom file "" ps ∧
      ∀ g ∈ bindings file (written ps below),
        (lines (written ps below).toList)[g.docLine - 1]? = some g.marker.toList ∧
          (lines (written ps below).toList)[g.endLine - 1]? = some blockEnd.toList := by
  have hread : bindings file (written ps below) = placedFrom file "" ps :=
    bindingsFrom_written hps hbelow ""
  have hlines := @placedFrom_lines file ps below hps ""
  rw [String.empty_append] at hlines
  exact ⟨hread, hread ▸ hlines⟩

/-- Two passages whose marks look like others: an end line above a block, a name and a text with
marks in them, and a text that is empty. -/
def lookalikes : List Passage :=
  [{ above := "# Fees\n<!-- docuguard:end -->\n"
     binding :=
      { docFile := "", docLine := 0, endLine := 0, codeFile := "shop/a-->.go", kind := .type
        symbol := "docuguard:end -->", docContent := "<!-- docuguard:start\n\n-->" } },
   { above := ""
     binding :=
      { docFile := "", docLine := 0, endLine := 0, codeFile := "p.go", kind := .var
        symbol := "V", docContent := "" } }]

theorem writable_lookalikes : ∀ p ∈ lookalikes, p.Writable := by
  have hname :
      Quotable "shop/a-->.go" ∧ Quotable "docuguard:end -->" ∧ Quotable "p.go" ∧ Quotable "V" := by
    refine ⟨⟨?_, ?_, ?_, ?_⟩, ⟨?_, ?_, ?_, ?_⟩, ⟨?_, ?_, ?_, ?_⟩, ⟨?_, ?_, ?_, ?_⟩⟩ <;> decide
  have habove : ∀ l ∈ lines "# Fees\n<!-- docuguard:end -->\n".toList, isStart l = false := by
    decide +kernel
  have hplain : ∀ l ∈ ["<!-- docuguard:start".toList, [], "-->".toList], role l = .plain := by
    simpa only [List.forall_mem_cons, List.not_mem_nil, false_implies, implies_true, and_true] using
      ⟨rfl, rfl, rfl⟩
  simp only [lookalikes, List.forall_mem_cons, List.not_mem_nil, false_implies, implies_true,
    and_true]
  refine ⟨⟨by decide +kernel, habove, hname.1, hname.2.1, by decide +kernel, by decide +kernel,
    hplain⟩, ⟨by decide, nofun, hname.2.2.1, hname.2.2.2, by decide, by decide, nofun⟩⟩

theorem bindings_written_lookalikes :
    (∀ p ∈ lookalikes, p.Writable) ∧
    (∀ l ∈ lines "The end".toList, isStart l = false) ∧
    bindings "guide.md" (written lookalikes "The end") =
      [{ docFile := "guide.md", docLine := 4, endLine := 8, codeFile := "shop/a-->.go", kind := .type
         symbol := "docuguard:end -->", docContent := "<!-- docuguard:start\n\n-->" },
       { docFile := "guide.md", docLine := 10, endLine := 12, codeFile := "p.go", kind := .var
         symbol := "V", docContent := "" }] := by
  have hbelow : ∀ l ∈ lines "The end".toList, isStart l = false := by decide +kernel
  have hpassages := writable_lookalikes
  refine ⟨hpassages, hbelow, (bindings_written hpassages hbelow).1.trans ?_⟩
  simp only [lookalikes, List.forall_mem_cons] at hpassages
  rw [lookalikes, placedFrom, placedFrom, placedFrom, hpassages.1.placed_eq,
    hpassages.2.1.placed_eq, hpassages.1.lineBelow_text]
  decide +kernel

end Docs

end StaleDocs
