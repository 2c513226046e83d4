/-
Lists: what remains of one when each element counts once, in the order in which
the elements were first seen, the elements at positions and under keys, and
steps taken for each element.
-/
import Mathlib.Data.List.Forall2
import Mathlib.Data.List.Induction
import Mathlib.Data.List.Nodup

namespace StaleDocs

/-! ## Each element once -/

theorem nodup_eraseDups {α : Type} [BEq α] [LawfulBEq α] : ∀ l : List α, l.eraseDups.Nodup
  | [] => by simp
  | a :: l => by
    rw [List.eraseDups_cons, List.nodup_cons]
    refine ⟨?_, nodup_eraseDups _⟩
    simp [List.mem_eraseDups]
termination_by l => l.length
decreasing_by exact Nat.lt_succ_of_le (List.length_filter_le _ _)

theorem eraseDups_concat {α : Type} [BEq α] [LawfulBEq α] [DecidableEq α] (l : List α) (a : α) :
    (l ++ [a]).eraseDups = if a ∈ l then l.eraseDups else l.eraseDups ++ [a] := by
  rw [List.eraseDups_append]
  split
  · next h => simp [List.removeAll, h]
  · next h => simp [List.removeAll, h, List.eraseDups_cons]

theorem eraseDups_ne_nil {α : Type} [BEq α] [LawfulBEq α] {l : List α} (h : l ≠ []) :
    l.eraseDups ≠ [] := by
  obtain ⟨a, l, rfl⟩ := List.exists_cons_of_ne_nil h
  rw [List.eraseDups_cons]
  exact List.cons_ne_nil _ _

theorem eraseDups_of_nodup {α : Type} [BEq α] [LawfulBEq α] [DecidableEq α] {l : List α}
    (h : l.Nodup) : l.eraseDups = l := by
  induction l using List.reverseRecOn with
  | nil => rfl
  | append_singleton l a ih =>
    obtain ⟨hl, -, hnew⟩ := List.nodup_append.1 h
    rw [eraseDups_concat, if_neg fun ha => hnew a ha a (by simp) rfl, ih hl]

theorem eq_singleton_of_nodup {α : Type} {l : List α} {a : α} (hnodup : l.Nodup) (hmem : a ∈ l)
    (hall : ∀ b ∈ l, b = a) : l = [a] := by
  have hreplicate : l = List.replicate l.length a := List.eq_replicate_length.2 hall
  have hle : l.length ≤ 1 := List.nodup_replicate.1 (hreplicate ▸ hnodup)
  have hone : l.length = 1 := Nat.le_antisymm hle (List.length_pos_of_mem hmem)
  rw [hreplicate, hone, List.replicate_one]

/-! ## Positions and keys -/

theorem filterMap_range_getElem? {α : Type} (xs : List α) :
    (List.range xs.length).filterMap (fun i => xs[i]?) = xs := by
  have hmap : (List.range xs.length).map (fun i => xs[i]?) = xs.map some :=
    List.ext_getElem (by simp) (by simp)
  calc (List.range xs.length).filterMap (fun i => xs[i]?)
      = ((List.range xs.length).map (fun i => xs[i]?)).filterMap id := by simp [List.filterMap_map]
    _ = (xs.map some).filterMap id := by rw [hmap]
    _ = xs := by simp

theorem pairwise_zipIdx {α : Type} (xs : List α) : xs.zipIdx.Pairwise fun x y => x.2 < y.2 := by
  refine List.pairwise_map.1 ?_
  rw [List.zipIdx_map_snd]
  exact List.pairwise_lt_range'

theorem mem_of_lookup {α β : Type} [BEq α] [LawfulBEq α] {l : List (α × β)} {a : α} {b : β}
    (h : l.lookup a = some b) : (a, b) ∈ l := by
  obtain ⟨before, after, rfl, -⟩ := List.lookup_eq_some_iff.1 h
  exact List.mem_append_right before List.mem_cons_self

/-! ## Element by element -/

theorem flatMap_ite {α β : Type} (p : α → Bool) (f : α → β) (xs : List α) :
    xs.flatMap (fun x => if p x then [f x] else []) = (xs.filter p).map f := by
  induction xs with
  | nil => rfl
  | cons x xs ih =>
    rw [List.flatMap_cons, ih, List.filter_cons]
    split <;> rfl

theorem map_zip_map {α β γ : Type} (f : α → β) (g : α × β → γ) (xs : List α) :
    (xs.zip (xs.map f)).map g = xs.map fun x => g (x, f x) := by
  induction xs with
  | nil => rfl
  | cons x xs ih => simp [ih]

theorem mapM_eq_some_iff {α β : Type} {f : α → Option β} : ∀ {xs : List α} {ys : List β},
    xs.mapM f = some ys ↔ List.Forall₂ (fun x y => f x = some y) xs ys
  | [], ys => by
    rw [List.mapM_nil, List.forall₂_nil_left_iff]
    exact ⟨fun h => (Option.some.inj h).symm, fun h => congrArg some h.symm⟩
  | x :: xs, ys => by
    rw [List.mapM_cons, List.forall₂_cons_left_iff]
    simp only [Option.bind_eq_bind, Option.bind_eq_some_iff, mapM_eq_some_iff, Option.pure_def,
      Option.some.injEq]
    constructor
    · rintro ⟨y, hy, zs, hzs, rfl⟩
      exact ⟨y, zs, hy, hzs, rfl⟩
    · rintro ⟨y, zs, hy, hzs, rfl⟩
      exact ⟨y, hy, zs, hzs, rfl⟩

/-- Steps whose results are told from questions, told from all questions asked first. -/
theorem mapM_eq_zipWith {m : Type → Type} [Monad m] [LawfulMonad m] {α β γ : Type}
    {f : α → m γ} {ask : α → m β} {g : α → β → γ} (h : ∀ a, f a = g a <$> ask a) (as : List α) :
    as.mapM f = List.zipWith g as <$> as.mapM ask := by
  induction as with
  | nil => simp
  | cons a as ih => simp [List.mapM_cons, h, ih]

end StaleDocs
