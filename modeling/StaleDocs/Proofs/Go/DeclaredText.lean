/-
Where declarations stand in their source (`declarations?_located`). Each stands from one lexeme to
another (`Declaration.At`), and all in order (`declarations?_successive`). The characters of these
lexemes are its text: so it starts and ends on the lines that it is said to, because the last lexeme
is no space and ends with no line feed, and no two texts share a character.
-/
import StaleDocs.Proofs.Go.LexemeEnds
import StaleDocs.Proofs.Go.Siblings
import StaleDocs.Text.Lines

namespace StaleDocs

/-! ## Lines and positions -/

namespace Text

/-- The line that the character at a position stands on. -/
def lineAt (cs : List Char) (i : Nat) : Nat := 1 + (cs.take i).count '\n'

theorem lineAt_mono (cs : List Char) {i j : Nat} (h : i ≤ j) : lineAt cs i ≤ lineAt cs j :=
  Nat.add_le_add_left ((List.take_sublist_take_left h).count_le _) 1

theorem length_lines_le (cut : LineCut) : cut.lines.length ≤ cut.finished.length + 1 := by
  unfold LineCut.lines
  split <;> simp

/-- The line of a character is there once it is taken. -/
theorem length_lines_push (cut : LineCut) (c : Char) :
    (cut.push c).lines.length = cut.finished.length + 1 := by
  unfold LineCut.push
  split <;> simp [LineCut.lines]

theorem length_finished (cs : List Char) : ∀ cut : LineCut,
    (cs.foldl LineCut.push cut).finished.length = cut.finished.length + cs.count '\n' := by
  induction cs with
  | nil => intro cut; rfl
  | cons c cs ih =>
    intro cut
    rw [List.foldl_cons, ih, List.count_cons, LineCut.push]
    by_cases hc : c = '\n'
    · rw [if_pos hc, hc, List.length_cons]
      simp
      omega
    · rw [if_neg hc]
      simp [hc]

theorem length_lines_foldl (cs : List Char) : ∀ cut : LineCut,
    cut.lines.length ≤ (cs.foldl LineCut.push cut).lines.length := by
  induction cs with
  | nil => intro cut; exact Nat.le_refl _
  | cons c cs ih =>
    intro cut
    exact (length_lines_le cut).trans (length_lines_push cut c ▸ ih (cut.push c))

/-- Every character of a text stands on one of its lines. -/
theorem lineAt_le_length_lines {cs : List Char} {i : Nat} (h : i < cs.length) :
    lineAt cs i ≤ (lines cs).length := by
  have hcut := length_finished (cs.take i) ⟨[], []⟩
  have hpush := length_lines_push ((cs.take i).foldl LineCut.push ⟨[], []⟩) cs[i]
  have hrest := length_lines_foldl (cs.drop (i + 1))
    (((cs.take i).foldl LineCut.push ⟨[], []⟩).push cs[i])
  rw [← List.foldl_cons, ← List.drop_eq_getElem_cons h, ← List.foldl_append,
    List.take_append_drop] at hrest
  rw [lineAt, lines]
  simp only [List.length_nil] at hcut
  omega

end Text

namespace Go
open Text (lineAt)

variable {whole s t u v : Input} {l : Lexeme} {source : String} {d : Declaration}
  {ds : List Declaration} {rules : Rules} {n : Nat}

/-! ## Declarations among lexemes -/

/-- Whether a declaration stands among the lexemes of a source, from one to before another. -/
structure Declaration.At (whole : Input) (d : Declaration) (u v : Input) : Prop where
  start : u <:+ whole
  ends : Ends u v
  code : d.code = spell (between u v)
  first : d.span.first = 1 + lineFeeds (between whole u)
  last : d.span.last = d.span.first + lineFeeds (between u v)
  named : ∀ name ∈ d.names, (⟨.name, name⟩ : Lexeme) ∈ between u v

theorem mem_between (h : l :: t <:+ s) (hu : u <:+ t) : l ∈ between s u := by
  have hs : between s u ++ u = s := between_append (hu.trans (suffix_of_cons h))
  obtain ⟨front, rfl⟩ := h
  obtain ⟨middle, rfl⟩ := hu
  have hparts : between (front ++ l :: (middle ++ u)) u = front ++ l :: middle := by
    refine List.append_cancel_right (hs.trans ?_)
    rw [List.append_assoc, List.cons_append]
  rw [hparts]
  exact List.mem_append_right front List.mem_cons_self

theorem Successive.mem_between {names : List String} (h : Successive NameAt u names v) :
    ∀ name ∈ names, (⟨.name, name⟩ : Lexeme) ∈ between u v := by
  intro name hname
  obtain ⟨s, t, hs, ht, rfl⟩ := h.exists_of_mem hname
  exact Go.mem_between hs ht

theorem Declaration.at_ofPiece {kind : SymbolKind} {names : List String} (hu : u <:+ whole)
    (hends : Ends u v) (hnames : ∀ name ∈ names, (⟨.name, name⟩ : Lexeme) ∈ between u v) :
    (Declaration.ofPiece kind names ⟨1 + lineFeeds (between whole u), between u v⟩).At whole u v :=
  ⟨hu, hends, rfl, rfl, rfl, hnames⟩

theorem Declaration.ofNames_successive {kind : SymbolKind} {names : List String} (hu : u <:+ whole)
    (hends : Ends u v) (h : Successive NameAt u names v) :
    Successive (Declaration.At whole) u
      (Declaration.ofNames kind names ⟨1 + lineFeeds (between whole u), between u v⟩) v := by
  unfold Declaration.ofNames
  split
  · exact .nil hends.suffix
  · refine .single hends.suffix (Declaration.at_ofPiece hu hends fun name hname => ?_)
    exact h.mem_between name (List.mem_of_mem_filter hname)

theorem Successive.filter {α : Type} {Q : α → Input → Input → Prop} {xs : List α} (p : α → Bool)
    (h : Successive Q s xs t) : Successive Q s (xs.filter p) t := by
  induction h with
  | nil h => exact .nil h
  | @cons s u v t x xs hu hv hx h ih =>
    rw [List.filter_cons]
    split
    · exact .cons hu hv hx ih
    · exact ih.of_suffix (hv.trans hu)

/-- The piece of a specification stands where the specification does. -/
theorem TypeSpec.At.declaration {spec : TypeSpec} (h : spec.At u v) {start rest : Input}
    (hstart : start <:+ whole) (hu : u <:+ start) :
    (Declaration.ofPiece .type [spec.name] (spec.piece start
      ⟨1 + lineFeeds (between whole start), between start rest⟩)).At whole u v := by
  obtain ⟨rfl, rfl, tail, htail, hends⟩ := h
  have hline : 1 + lineFeeds (between whole start) + lineFeeds (between start spec.start) =
      1 + lineFeeds (between whole spec.start) := by
    rw [Nat.add_assoc, ← lineFeeds_append, between_append_between hstart hu]
  have hname : ⟨.name, spec.name⟩ :: tail <:+ spec.start := by rw [htail]
  have hmem : ∀ name ∈ [spec.name], (⟨.name, name⟩ : Lexeme) ∈ between spec.start spec.rest :=
    List.forall_mem_singleton.2 (mem_between hname hends.suffix)
  exact ⟨hu.trans hstart, hends.of_suffix (suffix_of_cons hname), rfl, hline, rfl, hmem⟩

theorem Declaration.ofSpecs_successive {specs : List TypeSpec} (hu : u <:+ whole) (hends : Ends u v)
    (h : Successive TypeSpec.At u specs v) :
    Successive (Declaration.At whole) u
      (Declaration.ofSpecs specs u ⟨1 + lineFeeds (between whole u), between u v⟩) v := by
  unfold Declaration.ofSpecs
  dsimp only
  by_cases hone : (specs.filter fun spec => !spec.isAlias).length = 1
  · obtain ⟨only, honly⟩ := List.length_eq_one_iff.1 hone
    rw [honly, List.filter_singleton]
    cases only.struct with
    | false => exact .nil hends.suffix
    | true =>
      refine .single hends.suffix (Declaration.at_ofPiece hu hends ?_)
      have hmem : only ∈ specs := List.mem_of_mem_filter (honly ▸ List.mem_singleton_self only)
      obtain ⟨_, _, hs, ht, rfl, rfl, tail, htail, hrest⟩ := h.exists_of_mem hmem
      exact List.forall_mem_singleton.2
        (mem_between (htail ▸ hs) (ht.trans hrest.suffix))
  · simp only [hone, if_false]
    rw [List.map_eq_flatMap]
    refine ((h.filter _).filter _).flatMap fun _ hs ht hat => ?_
    exact .single ht (hat.declaration hu hs)

theorem Node.At.declarations {node : Node} (hr : rules.End) (h : node.At n rules whole u v) :
    Successive (Declaration.At whole) u node.declarations v := by
  cases h with
  | comment => exact .nil (List.suffix_cons _ v)
  | @code what _ _ hstart hcode =>
    have hends : Ends u v := code_ends hr hcode
    have hstands : what.Stands u v := code_stands hr hcode
    cases what with
    | package | other => exact .nil hends.suffix
    | function word =>
      have hnames := Successive.mem_between hstands
      exact .single hends.suffix (Declaration.at_ofPiece hstart hends hnames)
    | types specs => exact Declaration.ofSpecs_successive hstart hends hstands
    | constants names => exact Declaration.ofNames_successive hstart hends hstands
    | «variables» names => exact Declaration.ofNames_successive hstart hends hstands

theorem declarations?_successive (h : declarations? source = some ds) :
    Successive (Declaration.At (scan source)) (scan source) ds [] := by
  obtain ⟨nodes, hnodes, rfl⟩ := Option.map_eq_some_iff.1 h
  obtain ⟨n, hn⟩ := nodes?_successive hnodes
  exact hn.flatMap fun _ _ _ hx => hx.declarations (rulesTo_end n)

/-! ## Declarations in the text -/

/-- Whether a declaration says where in a source its text stands, from a position on: the lines of
its first and its last character, and the line feeds and the names in it. -/
structure Declaration.Locates (d : Declaration) (source : String) (start : Nat) : Prop where
  nonempty : d.code ≠ ""
  text : (source.toList.drop start).take d.code.length = d.code.toList
  first : d.span.first = lineAt source.toList start
  last : d.span.last = lineAt source.toList (start + d.code.length - 1)
  feeds : d.span.last = d.span.first + d.code.toList.count '\n'
  named : ∀ name ∈ d.names, name.toList <:+: d.code.toList

/-- The position of the character that the lexemes of `u` start with. -/
def position (whole u : Input) : Nat := (spell (between whole u)).length

theorem spell_append (as bs : List Lexeme) :
    (spell (as ++ bs)).toList = (spell as).toList ++ (spell bs).toList := by
  simp [spell_toList]

theorem lineFeeds_eq (ls : List Lexeme) : lineFeeds ls = (spell ls).toList.count '\n' := by
  rw [spell_toList]
  rfl

theorem position_add (hv : v <:+ u) (hu : u <:+ whole) :
    position whole v = position whole u + (spell (between u v)).length := by
  rw [position, ← between_append_between hu hv, ← String.length_toList, spell_append,
    List.length_append, String.length_toList, String.length_toList, position]

theorem Declaration.At.text (h : d.At (scan source) u v) :
    source.toList =
      (spell (between (scan source) u)).toList ++ d.code.toList ++ (spell v).toList := by
  rw [h.code, ← spell_append, ← spell_append, between_append_between h.start h.ends.suffix,
    between_append (h.ends.suffix.trans h.start), spell_scan]

/-- The text of a declaration is not empty and does not end with a line feed. -/
theorem Declaration.At.exists_concat (h : d.At (scan source) u v) :
    ∃ front c, d.code.toList = front ++ [c] ∧ c ≠ '\n' := by
  obtain ⟨front, l, hfront, hl⟩ := h.ends
  have hbetween : between u v = front ++ [l] :=
    List.append_cancel_right ((between_append h.ends.suffix).trans (hfront.trans (by simp)))
  have hmem : l ∈ scan source :=
    h.start.subset (hfront ▸ List.mem_append_right _ List.mem_cons_self)
  have hne : l.text.toList ≠ [] := by
    simpa using ((scan_eq source).2 l hmem).nonempty
  have hunbroken : Unbroken l.text.toList := scan_unbroken source l hmem hl
  obtain ⟨chars, c, hc⟩ := (List.eq_nil_or_concat' l.text.toList).resolve_left hne
  refine ⟨(spell front).toList ++ chars, c, ?_, ?_⟩
  · rw [h.code, hbetween, spell_append, List.append_assoc]
    simp [spell_toList, hc]
  · rintro rfl
    exact hunbroken (by rw [hc, List.getLast?_concat])

theorem infix_spell {ls : List Lexeme} (h : l ∈ ls) : l.text.toList <:+: (spell ls).toList := by
  rw [spell_toList]
  exact List.infix_of_mem_flatten (List.mem_map_of_mem h)

theorem Declaration.At.locates (h : d.At (scan source) u v) :
    d.Locates source (position (scan source) u) := by
  obtain ⟨front, c, hcode, hc⟩ := h.exists_concat
  have hsource := h.text
  have hstart : position (scan source) u = (spell (between (scan source) u)).toList.length :=
    String.length_toList.symm
  have hlength : d.code.length = d.code.toList.length := String.length_toList.symm
  have hfirst : d.span.first = 1 + (spell (between (scan source) u)).toList.count '\n' := by
    rw [h.first, lineFeeds_eq]
  have hfeeds : d.span.last = d.span.first + d.code.toList.count '\n' := by
    rw [h.last, lineFeeds_eq, h.code]
  -- From here on the text is three lists of characters.
  generalize (spell (between (scan source) u)).toList = above at hsource hstart hfirst
  generalize (spell v).toList = below at hsource
  refine ⟨?_, ?_, ?_, ?_, hfeeds, fun name hname => ?_⟩
  · rintro hempty
    rw [hempty] at hcode
    cases front <;> cases hcode
  · rw [hsource, hstart, hlength, List.append_assoc, List.drop_left, List.take_left]
  · rw [lineAt, hsource, hstart, List.append_assoc, List.take_left, hfirst]
  · have hlast : position (scan source) u + d.code.length - 1 = (above ++ front).length := by
      rw [hstart, hlength, hcode]
      simp
    rw [lineAt, hlast, hsource, hcode, ← List.append_assoc, List.append_assoc, List.take_left]
    rw [hfeeds, hfirst, hcode, List.count_append, List.count_append, List.count_singleton]
    simp [hc, Nat.add_assoc]
  · rw [h.code]
    exact infix_spell (h.named name hname)

/-- The names of a declaration are parts of the source. -/
theorem infix_of_mem_names (h : declarations? source = some ds) {d : Declaration} (hd : d ∈ ds)
    {name : String} (hname : name ∈ d.names) : name.toList <:+: source.toList := by
  obtain ⟨u, v, -, -, hat⟩ := (declarations?_successive h).exists_of_mem hd
  have hcode : d.code.toList <:+: source.toList := ⟨_, _, hat.text.symm⟩
  exact (hat.locates.named name hname).trans hcode

/-- The line of the last character is a line of the source. -/
theorem Declaration.Locates.last_le {start : Nat} (h : d.Locates source start) :
    d.span.last ≤ (Text.lines source.toList).length := by
  have hcode : d.code.toList.length = d.code.length := String.length_toList
  have hpos : 0 < d.code.toList.length := List.length_pos_iff.2 (by simpa using h.nonempty)
  have htaken := congrArg List.length h.text
  rw [List.length_take, List.length_drop] at htaken
  rw [h.last]
  exact Text.lineAt_le_length_lines (by omega)

/-- Declarations that stand in order have texts that do. -/
theorem Successive.exists_positions (h : Successive (Declaration.At (scan source)) s ds t)
    (hs : s <:+ scan source) :
    ∃ places : List (Nat × Declaration), places.map Prod.snd = ds ∧
      (∀ p ∈ places, p.2.Locates source p.1 ∧ position (scan source) s ≤ p.1) ∧
      places.Pairwise fun p q => p.1 + p.2.code.length ≤ q.1 := by
  induction h with
  | nil => exact ⟨[], rfl, List.forall_mem_nil _, .nil⟩
  | @cons s u v t d ds hu hv hd h ih =>
    obtain ⟨places, rfl, hplaces, hpairs⟩ := ih (hv.trans (hu.trans hs))
    have hnext : position (scan source) v = position (scan source) u + d.code.length := by
      rw [hd.code, position_add hv (hu.trans hs)]
    have hstart : position (scan source) s ≤ position (scan source) u :=
      position_add hu hs ▸ Nat.le_add_right _ _
    refine ⟨(position (scan source) u, d) :: places, rfl,
      List.forall_mem_cons.2 ⟨⟨hd.locates, hstart⟩, fun p hp => ?_⟩,
      List.pairwise_cons.2 ⟨fun q hq => hnext ▸ (hplaces q hq).2, hpairs⟩⟩
    obtain ⟨hlocates, hle⟩ := hplaces p hp
    exact ⟨hlocates, by omega⟩

/-- **Declarations locate their own text.** A source that follows the grammar is cut by the texts of
its declarations, in order and without overlap, and each is told with the lines on which its text
starts and ends, which are lines of the source. -/
theorem declarations?_located (h : declarations? source = some ds) :
    (∃ places : List (Nat × Declaration), places.map Prod.snd = ds ∧
      (∀ p ∈ places, p.2.Locates source p.1) ∧
      places.Pairwise fun p q => p.1 + p.2.code.length ≤ q.1) ∧
    (∀ d ∈ ds, 1 ≤ d.span.first ∧ d.span.first ≤ d.span.last ∧
      d.span.last ≤ (Text.lines source.toList).length) ∧
    ds.Pairwise fun d e => d.span.first ≤ e.span.first := by
  obtain ⟨places, rfl, hplaces, hpairs⟩ :=
    (declarations?_successive h).exists_positions (List.suffix_refl _)
  refine ⟨⟨places, rfl, fun p hp => (hplaces p hp).1, hpairs⟩, ?_, ?_⟩
  · intro d hd
    obtain ⟨p, hp, rfl⟩ := List.mem_map.1 hd
    have hlocates := (hplaces p hp).1
    refine ⟨?_, ?_, hlocates.last_le⟩
    · rw [hlocates.first]
      exact Nat.le_add_right 1 _
    · rw [hlocates.feeds]
      exact Nat.le_add_right _ _
  · refine List.pairwise_map.2 (hpairs.imp_of_mem fun {p q} hp hq hle => ?_)
    rw [(hplaces p hp).1.first, (hplaces q hq).1.first]
    exact Text.lineAt_mono _ ((Nat.le_add_right _ _).trans hle)

/-- A source with a byte order mark, a function without a body, a group of types with an alias among
them, and declarations that share a line. -/
def crowdedSource : String :=
  "\ufeffpackage p\n\nfunc Fast(x int) int // elsewhere\n\n// Kinds.\n" ++
  "type (\n\tA struct\x7b\x7d\n\tB = int\n\tD struct \x7b N int \x7d\n)\n" ++
  "const X, _ = 1, 2; var Y = \x60\n\x60\n\n" ++
  "type C struct\x7b\x7d; func (c C) M() \x7b\x7d\n"

theorem declarations?_located_crowded : ∃ ds, declarations? crowdedSource = some ds ∧
    ds.map (fun d => (d.names, d.span)) =
      [(["Fast"], ⟨3, 3⟩), (["A"], ⟨7, 7⟩), (["D"], ⟨9, 9⟩), (["X"], ⟨11, 11⟩), (["Y"], ⟨11, 12⟩),
        (["C"], ⟨14, 14⟩), (["M"], ⟨14, 14⟩)] ∧
    ∃ places : List (Nat × Declaration), places.map Prod.snd = ds ∧
      (∀ p ∈ places, p.2.Locates crowdedSource p.1) ∧
      places.Pairwise fun p q => p.1 + p.2.code.length ≤ q.1 := by
  have hread : (declarations? crowdedSource).map (·.map fun d => (d.names, d.span)) =
      some [(["Fast"], ⟨3, 3⟩), (["A"], ⟨7, 7⟩), (["D"], ⟨9, 9⟩), (["X"], ⟨11, 11⟩),
        (["Y"], ⟨11, 12⟩), (["C"], ⟨14, 14⟩), (["M"], ⟨14, 14⟩)] := by
    decide +kernel
  obtain ⟨ds, hds, hspans⟩ := Option.map_eq_some_iff.1 hread
  exact ⟨ds, hds, hspans, (declarations?_located hds).1⟩

end Go

end StaleDocs
