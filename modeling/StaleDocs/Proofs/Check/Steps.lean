/-
Steps of a state: what one does after another, and what is certain of their
results whatever the state (`Always`).
-/
import StaleDocs.Proofs.Lists

namespace StaleDocs.Check

variable {σ α β : Type}

theorem run_bind_eq_iff {x : StateM σ α} {f : α → StateM σ β} {st st' : σ} {b : β} :
    (x >>= f).run st = (b, st') ↔ ∃ a st₁, x.run st = (a, st₁) ∧ (f a).run st₁ = (b, st') := by
  rw [StateT.run_bind]
  exact ⟨fun h => ⟨_, _, rfl, h⟩, fun ⟨a, st₁, hx, hf⟩ => by rw [hx]; exact hf⟩

theorem run_mapM_cons {f : α → StateM σ β} {a : α} {st st₁ : σ} {b : β}
    (h : (f a).run st = (b, st₁)) (as : List α) :
    ((a :: as).mapM f).run st = (b :: ((as.mapM f).run st₁).1, ((as.mapM f).run st₁).2) := by
  rw [List.mapM_cons, StateT.run_bind, h]
  rfl

/-- Whether a step has results of a kind only, whatever the state. -/
def Always (P : α → Prop) (x : StateM σ α) : Prop := ∀ st, P (x.run st).1

theorem Always.pure {P : α → Prop} {a : α} (h : P a) : Always P (pure a : StateM σ α) := fun _ => h

theorem Always.bind {P : α → Prop} {Q : β → Prop} {x : StateM σ α} {f : α → StateM σ β}
    (hx : Always P x) (hf : ∀ a, P a → Always Q (f a)) : Always Q (x >>= f) := fun st =>
  hf _ (hx st) (x.run st).2

theorem Always.mono {P Q : α → Prop} {x : StateM σ α} (hx : Always P x) (h : ∀ a, P a → Q a) :
    Always Q x := fun st => h _ (hx st)

theorem Always.mapM {P : β → Prop} {f : α → StateM σ β} : ∀ {l : List α},
    (∀ a ∈ l, Always P (f a)) → Always (fun bs => bs.length = l.length ∧ ∀ b ∈ bs, P b) (l.mapM f)
  | [], _ => by
    rw [List.mapM_nil]
    exact .pure ⟨rfl, by simp⟩
  | a :: l, h => by
    rw [List.mapM_cons]
    refine (h a (by simp)).bind fun b hb => ?_
    refine (Always.mapM fun x hx => h x (by simp [hx])).bind fun bs hbs => ?_
    exact .pure ⟨by simp [hbs.1], List.forall_mem_cons.2 ⟨hb, hbs.2⟩⟩

theorem Always.forall₂_mapM {R : α → β → Prop} {f : α → StateM σ β} : ∀ {l : List α},
    (∀ a ∈ l, Always (R a) (f a)) → Always (fun bs => List.Forall₂ R l bs) (l.mapM f)
  | [], _ => by
    rw [List.mapM_nil]
    exact .pure .nil
  | a :: l, h => by
    rw [List.mapM_cons]
    refine (h a (by simp)).bind fun b hb => ?_
    refine (Always.forall₂_mapM fun x hx => h x (by simp [hx])).bind fun bs hbs => ?_
    exact .pure (.cons hb hbs)

end StaleDocs.Check
