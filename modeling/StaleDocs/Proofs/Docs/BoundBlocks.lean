/-
The bindings of a text are its bound blocks (`bindings_exact`): a bound block
runs from a start line to the first start or end line below it, which is an end
line, and has a marker between, the last of which says what it is bound to.

Each line has one role, the first that it matches. What carries the proof is
that the state of the pass tells the block that is open after the lines read so
far (`BlockPass`): whether there is one, and the last marker in it.
-/
import Mathlib.Data.Nat.Find
import StaleDocs.Docs.Binding
import StaleDocs.Proofs.Docs.Sections

namespace StaleDocs.Docs

/-! ## Lines and their roles -/

/-- What a line is to blocks. -/
inductive LineRole where
  | start
  | stop
  | marker (target : Target)
  | plain

/-- The role of a line: it starts a block, else it ends one, else it is a marker, else it is
plain. -/
def role (line : List Char) : LineRole :=
  if isStart line then .start
  else if isEnd line then .stop
  else
    match target? line with
    | some target => .marker target
    | none => .plain

/-- Whether the line with a number has a role. -/
def RoleAt (ls : List (List Char)) (n : Nat) (r : LineRole) : Prop :=
  0 < n ∧ ∃ l, ls[n - 1]? = some l ∧ role l = r

variable {ls : List (List Char)} {n s b e : Nat} {target : Target}

theorem RoleAt.unique {r r' : LineRole} (h : RoleAt ls n r) (h' : RoleAt ls n r') : r = r' := by
  obtain ⟨-, l, hl, rfl⟩ := h
  obtain ⟨-, l', hl', rfl⟩ := h'
  rw [hl] at hl'
  cases hl'
  rfl

/-- A line has no other role than its own. -/
theorem RoleAt.not {r r' : LineRole} (h : RoleAt ls n r) (hne : r ≠ r') : ¬ RoleAt ls n r' :=
  fun h' => hne (h.unique h')

/-! ## Blocks -/

/-- Whether a block that starts on a line is open above another: there is no start or end line
between. -/
structure OpenBlock (ls : List (List Char)) (s e : Nat) : Prop where
  start : RoleAt ls s .start
  above : s < e
  nearest : ∀ n, s < n → n < e → ¬ RoleAt ls n .start ∧ ¬ RoleAt ls n .stop

/-- Whether the block that is open above a line has a marker, the last of them on a line `b`. -/
structure MarkedBlock (ls : List (List Char)) (s b e : Nat) (target : Target) : Prop where
  opened : OpenBlock ls s e
  marker : RoleAt ls b (.marker target)
  inside : s < b ∧ b < e
  last : ∀ n t, b < n → n < e → ¬ RoleAt ls n (.marker t)

/-- A marked block down to its end line. -/
structure BoundBlock (ls : List (List Char)) (s b e : Nat) (target : Target) : Prop where
  marked : MarkedBlock ls s b e target
  stop : RoleAt ls e .stop

/-- The binding that a bound block makes. -/
def blockBinding (file : String) (ls : List (List Char)) (b e : Nat) (target : Target) : Binding :=
  { docFile := file
    docLine := b
    endLine := e
    codeFile := String.ofList target.codeFile
    kind := kindOfKey target.key
    symbol := String.ofList target.symbol
    docContent := String.ofList (Text.trim (Text.joinLines (linesBetween ls (b + 1) (e - 1)))) }

theorem MarkedBlock.unique {s' b' : Nat} {target' : Target} (h : MarkedBlock ls s b e target)
    (h' : MarkedBlock ls s' b' e target') : b = b' ∧ target = target' := by
  rcases Nat.lt_trichotomy b b' with hlt | rfl | hlt
  · exact absurd h'.marker (h.last b' target' hlt h'.inside.2)
  · exact ⟨rfl, LineRole.marker.inj (h.marker.unique h'.marker)⟩
  · exact absurd h.marker (h'.last b target hlt h.inside.2)

/-- Of the markers in an open block one is the last. -/
theorem OpenBlock.exists_markedBlock (h : OpenBlock ls s e)
    (hmarker : ∃ b t, s < b ∧ b < e ∧ RoleAt ls b (.marker t)) :
    ∃ b t, MarkedBlock ls s b e t := by
  classical
  obtain ⟨b, t, hsb, hbe, hb⟩ := hmarker
  let IsMarker (m : Nat) : Prop := ∃ t, RoleAt ls m (.marker t)
  have hle : b ≤ Nat.findGreatest IsMarker (e - 1) := Nat.le_findGreatest (by omega) ⟨t, hb⟩
  have hge : Nat.findGreatest IsMarker (e - 1) ≤ e - 1 := Nat.findGreatest_le (e - 1)
  obtain ⟨t', hlast⟩ : IsMarker (Nat.findGreatest IsMarker (e - 1)) :=
    Nat.findGreatest_spec (by omega) ⟨t, hb⟩
  exact ⟨_, t', h, hlast, ⟨by omega, by omega⟩, fun m u hm hlt hu =>
    Nat.findGreatest_is_greatest hm (by omega) ⟨u, hu⟩⟩

/-- A block that is open below an end line starts below it. -/
theorem OpenBlock.below_stop (h : OpenBlock ls s e) (hr : RoleAt ls n .stop) (hlt : n < e) :
    n < s := by
  rcases Nat.lt_trichotomy s n with habove | rfl | hbelow
  · exact absurd hr (h.nearest n habove hlt).2
  · exact absurd hr (h.start.not nofun)
  · exact hbelow

/-! ## One more line -/

/-- A start line opens a block, whatever was open above it. -/
theorem openBlock_start (hr : RoleAt ls n .start) : OpenBlock ls s (n + 1) ↔ s = n := by
  constructor
  · intro h
    have habove := h.above
    by_contra hne
    exact (h.nearest n (by omega) (by omega)).1 hr
  · rintro rfl
    exact ⟨hr, by omega, by omega⟩

theorem not_openBlock_stop (hr : RoleAt ls n .stop) : ¬ OpenBlock ls s (n + 1) := by
  intro h
  have habove := h.above
  have hbelow := h.below_stop hr (Nat.lt_succ_self n)
  omega

/-- Any other line leaves a block open. -/
theorem openBlock_inner (hstart : ¬ RoleAt ls n .start) (hstop : ¬ RoleAt ls n .stop) :
    OpenBlock ls s (n + 1) ↔ OpenBlock ls s n := by
  constructor
  · rintro ⟨hs, habove, hnearest⟩
    have hne : s ≠ n := by
      rintro rfl
      exact hstart hs
    exact ⟨hs, by omega, fun m hm hlt => hnearest m hm (by omega)⟩
  · rintro ⟨hs, habove, hnearest⟩
    refine ⟨hs, by omega, fun m hm hlt => ?_⟩
    rcases Nat.eq_or_lt_of_le (Nat.le_of_lt_succ hlt) with rfl | hlt
    · exact ⟨hstart, hstop⟩
    · exact hnearest m hm hlt

/-- A marker in a block is the last of those above the next line. -/
theorem markedBlock_marker (hr : RoleAt ls n (.marker target)) (ho : OpenBlock ls s n) :
    MarkedBlock ls s n (n + 1) target where
  opened := (openBlock_inner (hr.not nofun) (hr.not nofun)).2 ho
  marker := hr
  inside := ⟨ho.above, by omega⟩
  last := by omega

/-- A plain line changes no marker. -/
theorem markedBlock_plain (hr : RoleAt ls n .plain) :
    MarkedBlock ls s b (n + 1) target ↔ MarkedBlock ls s b n target := by
  have hopen : OpenBlock ls s (n + 1) ↔ OpenBlock ls s n :=
    openBlock_inner (hr.not nofun) (hr.not nofun)
  constructor
  · rintro ⟨ho, hb, ⟨hsb, hbn⟩, hlast⟩
    have hne : b ≠ n := by
      rintro rfl
      exact absurd hb (hr.not nofun)
    exact ⟨hopen.1 ho, hb, ⟨hsb, by omega⟩, fun m t hm hlt => hlast m t hm (by omega)⟩
  · rintro ⟨ho, hb, ⟨hsb, hbn⟩, hlast⟩
    refine ⟨hopen.2 ho, hb, ⟨hsb, by omega⟩, fun m t hm hlt => ?_⟩
    rcases Nat.eq_or_lt_of_le (Nat.le_of_lt_succ hlt) with rfl | hlt
    · exact hr.not nofun
    · exact hlast m t hm hlt

/-! ## The pass -/

/-- What the state of the pass tells of the lines above a line. -/
structure BlockPass (ls : List (List Char)) (n : Nat) (inBlock : Bool)
    (current : Option OpenBinding) : Prop where
  block : inBlock = true ↔ ∃ s, OpenBlock ls s n
  unmarked : current = none → ∀ s b target, ¬ MarkedBlock ls s b n target
  marked : ∀ o ∈ current, ∃ s, MarkedBlock ls s o.line n o.target
  lines : ∀ o ∈ current, o.lines.reverse = linesBetween ls (o.line + 1) (n - 1)

variable {file : String} {inBlock : Bool} {current : Option OpenBinding} {l : List Char}
  {rest : List (List Char)}

/-- With no block open there is no marker either. -/
theorem BlockPass.of_closed (h : ∀ s, ¬ OpenBlock ls s n) : BlockPass ls n false none where
  block := by simpa using h
  unmarked := fun _ s _ _ hm => h s hm.opened
  marked := by simp
  lines := by simp

theorem BlockPass.first : BlockPass ls 1 false none :=
  .of_closed fun _ ⟨⟨hpos, _⟩, habove, _⟩ => by omega

theorem BlockPass.start (hr : RoleAt ls n .start) : BlockPass ls (n + 1) true none where
  block := by simp [openBlock_start hr]
  unmarked := by
    rintro - s b t hm
    have hs := (openBlock_start hr).1 hm.opened
    have hinside := hm.inside
    omega
  marked := by simp
  lines := by simp

theorem BlockPass.stop (hr : RoleAt ls n .stop) : BlockPass ls (n + 1) false none :=
  .of_closed fun _ => not_openBlock_stop hr

/-- Lines that stand in no block change nothing. -/
theorem BlockPass.outside (h : BlockPass ls n false current) (hstart : ¬ RoleAt ls n .start)
    (hstop : ¬ RoleAt ls n .stop) : BlockPass ls (n + 1) false current := by
  have hclosed : ∀ s, ¬ OpenBlock ls s n := by simpa using h.block
  have hcur : current = none := by
    cases hc : current with
    | none => rfl
    | some o =>
      obtain ⟨s, hm⟩ := h.marked o hc
      exact absurd hm.opened (hclosed s)
  rw [hcur]
  exact .of_closed fun s => mt (openBlock_inner hstart hstop).1 (hclosed s)

theorem BlockPass.marker (h : BlockPass ls n true current) (hr : RoleAt ls n (.marker target)) :
    BlockPass ls (n + 1) true (some ⟨n, target, []⟩) := by
  obtain ⟨s, hs⟩ := h.block.1 rfl
  have hm := markedBlock_marker hr hs
  refine ⟨by simpa using ⟨s, hm.opened⟩, nofun, ?_, ?_⟩
  · rintro o ⟨⟩
    exact ⟨s, hm⟩
  · rintro o ⟨⟩
    simp [linesBetween]

/-- The lines down to a line end with it. -/
theorem linesBetween_concat (hb : b < n) (hl : ls[n - 1]? = some l) :
    linesBetween ls (b + 1) n = linesBetween ls (b + 1) (n - 1) ++ [l] := by
  obtain ⟨k, rfl⟩ : ∃ k, n = k + 1 := ⟨n - 1, by omega⟩
  rw [Nat.add_sub_cancel] at hl ⊢
  obtain ⟨hlt, -⟩ := List.getElem?_eq_some_iff.1 hl
  rw [linesBetween, linesBetween, List.take_add_one, hl, Option.toList_some, Nat.add_sub_cancel,
    List.drop_append_of_le_length (by rw [List.length_take]; omega)]

theorem BlockPass.plain (h : BlockPass ls n true current) (hr : RoleAt ls n .plain)
    (hl : ls[n - 1]? = some l) :
    BlockPass ls (n + 1) true (current.map fun o => { o with lines := l :: o.lines }) where
  block := by
    rw [h.block]
    simp only [openBlock_inner (hr.not nofun) (hr.not nofun)]
  unmarked := by
    intro hnone s b t hm
    exact h.unmarked (Option.map_eq_none_iff.1 hnone) s b t ((markedBlock_plain hr).1 hm)
  marked := by
    intro o' ho'
    obtain ⟨o, ho, rfl⟩ := Option.map_eq_some_iff.1 ho'
    obtain ⟨s, hm⟩ := h.marked o ho
    exact ⟨s, (markedBlock_plain hr).2 hm⟩
  lines := by
    intro o' ho'
    obtain ⟨o, ho, rfl⟩ := Option.map_eq_some_iff.1 ho'
    obtain ⟨s, hm⟩ := h.marked o ho
    rw [List.reverse_cons, h.lines o ho, Nat.add_sub_cancel, linesBetween_concat hm.inside.2 hl]

/-- On an end line, closing what is open gives the binding of the block that ends there. -/
theorem BlockPass.mem_close (h : BlockPass ls n inBlock current) (hr : RoleAt ls n .stop)
    {g : Binding} :
    g ∈ (current.map (OpenBinding.close file n)).toList ↔
      ∃ s b target, BoundBlock ls s b n target ∧ g = blockBinding file ls b n target := by
  simp only [Option.mem_toList, Option.map_eq_some_iff]
  constructor
  · rintro ⟨o, ho, rfl⟩
    obtain ⟨s, hm⟩ := h.marked o ho
    refine ⟨s, o.line, o.target, ⟨hm, hr⟩, ?_⟩
    rw [OpenBinding.close, h.lines o ho]
    rfl
  · rintro ⟨s, b, t, ⟨hm, -⟩, rfl⟩
    cases hc : current with
    | none => exact absurd hm (h.unmarked hc s b t)
    | some o =>
      obtain ⟨s', hm'⟩ := h.marked o hc
      obtain ⟨rfl, rfl⟩ := hm.unique hm'
      refine ⟨o, rfl, ?_⟩
      rw [OpenBinding.close, h.lines o hc]
      rfl

/-! ## All bindings -/

/-- Whether bindings are those of the bound blocks that end no higher than a line, each above
those after it. -/
structure Collected (file : String) (ls : List (List Char)) (low : Nat) (gs : List Binding) :
    Prop where
  mem : ∀ g, g ∈ gs ↔
    ∃ s b e target, BoundBlock ls s b e target ∧ low ≤ e ∧ g = blockBinding file ls b e target
  ordered : gs.Pairwise fun g g' => g.endLine < g'.docLine

variable {gs : List Binding}

/-- No block ends on a line that is not an end line. -/
theorem Collected.skip (h : Collected file ls (n + 1) gs) (hr : ¬ RoleAt ls n .stop) :
    Collected file ls n gs := by
  refine ⟨fun g => ?_, h.ordered⟩
  rw [h.mem]
  constructor
  · rintro ⟨s, b, e, t, hb, hle, rfl⟩
    exact ⟨s, b, e, t, hb, by omega, rfl⟩
  · rintro ⟨s, b, e, t, hb, hle, rfl⟩
    have hne : n ≠ e := by
      rintro rfl
      exact hr hb.stop
    exact ⟨s, b, e, t, hb, by omega, rfl⟩

/-- On an end line at most one block ends, and those that end below start below. -/
theorem Collected.stop (h : Collected file ls (n + 1) gs) (hp : BlockPass ls n inBlock current)
    (hr : RoleAt ls n .stop) :
    Collected file ls n ((current.map (OpenBinding.close file n)).toList ++ gs) := by
  refine ⟨fun g => ?_, List.pairwise_append.2 ⟨?_, h.ordered, ?_⟩⟩
  · rw [List.mem_append, hp.mem_close hr, h.mem]
    constructor
    · rintro (⟨s, b, t, hb, rfl⟩ | ⟨s, b, e, t, hb, hle, rfl⟩)
      · exact ⟨s, b, n, t, hb, Nat.le_refl n, rfl⟩
      · exact ⟨s, b, e, t, hb, by omega, rfl⟩
    · rintro ⟨s, b, e, t, hb, hle, rfl⟩
      rcases Nat.eq_or_lt_of_le hle with rfl | hlt
      · exact .inl ⟨s, b, t, hb, rfl⟩
      · exact .inr ⟨s, b, e, t, hb, hlt, rfl⟩
  · cases current <;> simp
  · intro g hg g' hg'
    obtain ⟨s, b, t, -, rfl⟩ := (hp.mem_close hr).1 hg
    obtain ⟨s', b', e', t', hb', hlt, rfl⟩ := (h.mem g').1 hg'
    exact Nat.lt_trans (hb'.marked.opened.below_stop hr hlt) hb'.marked.inside.1

theorem collected_nil (hn : ls.length < n) : Collected file ls n [] := by
  refine ⟨fun g => ⟨nofun, ?_⟩, .nil⟩
  rintro ⟨s, b, e, t, ⟨-, -, l, hl, -⟩, hle, -⟩
  obtain ⟨hlt, -⟩ := List.getElem?_eq_some_iff.1 hl
  omega

/-- What the pass does on a line by its role, which outside a block only a start line changes. -/
theorem bindingsFrom_cons :
    bindingsFrom file inBlock current n (l :: rest) =
      match role l, inBlock with
      | .start, _ => bindingsFrom file true none (n + 1) rest
      | .stop, _ =>
        (current.map (OpenBinding.close file n)).toList ++
          bindingsFrom file false none (n + 1) rest
      | _, false => bindingsFrom file false current (n + 1) rest
      | .marker target, true => bindingsFrom file true (some ⟨n, target, []⟩) (n + 1) rest
      | .plain, true =>
        bindingsFrom file true (current.map fun o => { o with lines := l :: o.lines }) (n + 1)
          rest := by
  rw [bindingsFrom, role]
  cases isStart l <;> cases isEnd l <;> cases inBlock <;> cases target? l <;> rfl

/-- The bindings of the lines that are left are those of the blocks that end there. -/
theorem BlockPass.collected (h : BlockPass ls (n + 1) inBlock current) (hrest : ls.drop n = rest) :
    Collected file ls (n + 1) (bindingsFrom file inBlock current (n + 1) rest) := by
  induction rest generalizing n inBlock current with
  | nil => exact collected_nil (Nat.lt_succ_of_le (List.drop_eq_nil_iff.1 hrest))
  | cons l rest ih =>
    have hl : ls[n]? = some l := by
      rw [← Nat.add_zero n, ← List.getElem?_drop, hrest, List.getElem?_cons_zero]
    have hnext : ls.drop (n + 1) = rest := by
      rw [← List.tail_drop, hrest, List.tail_cons]
    have hrole : RoleAt ls (n + 1) (role l) := ⟨by omega, l, hl, rfl⟩
    rw [bindingsFrom_cons]
    cases hr : role l with
    | start =>
      rw [hr] at hrole
      exact (ih (.start hrole) hnext).skip (hrole.not nofun)
    | stop =>
      rw [hr] at hrole
      exact (ih (.stop hrole) hnext).stop h hrole
    | marker target =>
      rw [hr] at hrole
      cases inBlock with
      | false =>
        exact (ih (h.outside (hrole.not nofun) (hrole.not nofun)) hnext).skip (hrole.not nofun)
      | true => exact (ih (h.marker hrole) hnext).skip (hrole.not nofun)
    | plain =>
      rw [hr] at hrole
      cases inBlock with
      | false =>
        exact (ih (h.outside (hrole.not nofun) (hrole.not nofun)) hnext).skip (hrole.not nofun)
      | true => exact (ih (h.plain hrole hl) hnext).skip (hrole.not nofun)

/-- A list of bindings has one for each bound block, by its end line. -/
theorem Collected.existsUnique (h : Collected file ls n gs) (hb : BoundBlock ls s b e target)
    (hle : n ≤ e) : ∃! g, g ∈ gs ∧ g.endLine = e := by
  refine ⟨blockBinding file ls b e target, ⟨(h.mem _).2 ⟨s, b, e, target, hb, hle, rfl⟩, rfl⟩, ?_⟩
  rintro g ⟨hg, hend⟩
  obtain ⟨s', b', e', t', hb', -, rfl⟩ := (h.mem g).1 hg
  obtain rfl : e' = e := hend
  obtain ⟨rfl, rfl⟩ := hb'.marked.unique hb.marked
  rfl

/-- The bindings of a text are those of its bound blocks, in order and one above the other:
there is one for each end line above which the nearest start or end line is a start line, if a
marker lies between. So a block that is never closed, that is started again before its end or
that has no marker makes none. -/
theorem bindings_exact (file text : String) :
    (∀ g, g ∈ bindings file text ↔
      ∃ s b e target, BoundBlock (Text.lines text.toList) s b e target ∧
        g = blockBinding file (Text.lines text.toList) b e target) ∧
    (∀ s e, OpenBlock (Text.lines text.toList) s e → RoleAt (Text.lines text.toList) e .stop →
      (∃ b t, s < b ∧ b < e ∧ RoleAt (Text.lines text.toList) b (.marker t)) →
      ∃! g, g ∈ bindings file text ∧ g.endLine = e) ∧
    (∀ g ∈ bindings file text, g.docLine < g.endLine) ∧
    (bindings file text).Pairwise fun g g' => g.endLine < g'.docLine := by
  have h : Collected file (Text.lines text.toList) 1 (bindings file text) :=
    BlockPass.first.collected rfl
  have hmem : ∀ g, g ∈ bindings file text ↔
      ∃ s b e target, BoundBlock (Text.lines text.toList) s b e target ∧
        g = blockBinding file (Text.lines text.toList) b e target := by
    intro g
    rw [h.mem]
    constructor
    · rintro ⟨s, b, e, t, hb, -, rfl⟩
      exact ⟨s, b, e, t, hb, rfl⟩
    · rintro ⟨s, b, e, t, hb, rfl⟩
      exact ⟨s, b, e, t, hb, hb.stop.1, rfl⟩
  refine ⟨hmem, fun s e hopen hstop hmarker => ?_, fun g hg => ?_, h.ordered⟩
  · obtain ⟨b, t, hm⟩ := hopen.exists_markedBlock hmarker
    exact h.existsUnique ⟨hm, hstop⟩ hstop.1
  · obtain ⟨s, b, e, t, hb, rfl⟩ := (hmem g).1 hg
    exact hb.marked.inside.2

end StaleDocs.Docs
