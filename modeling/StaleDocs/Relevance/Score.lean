/-
Scores: the numbers in which relevance is measured. Doubles are used in a run, and rational
numbers to say exactly what is computed.
-/
namespace StaleDocs.Relevance

/-- Numbers that can be added, multiplied, compared, and made from a ratio of counts. -/
class Score (σ : Type) where
  zero : σ
  one : σ
  add : σ → σ → σ
  mul : σ → σ → σ
  ratio : Nat → Nat → σ
  lt : σ → σ → Bool

instance : Score Float where
  zero := 0
  one := 1
  add := (· + ·)
  mul := (· * ·)
  ratio a b := Float.ofNat a / Float.ofNat b
  lt a b := a < b

instance : Score Rat where
  zero := 0
  one := 1
  add := (· + ·)
  mul := (· * ·)
  ratio a b := (a : Rat) / (b : Rat)
  lt a b := a < b

variable {σ : Type} [Score σ]

/-- A number cut off below zero and above one. What can be compared with neither, as a double
that is no number, stays what it is. -/
def clamp (x : σ) : σ :=
  if Score.lt x Score.zero then Score.zero
  else if Score.lt Score.one x then Score.one
  else x

/-- How several scores for one thing become one. -/
inductive Aggregation where
  /-- Their sum, at most one. -/
  | sum
  /-- The greatest. -/
  | max
deriving DecidableEq, Repr

/-- The greater of two scores. -/
def greater (a b : σ) : σ :=
  if Score.lt a b then b else a

/-- Several scores as one, cut off below zero and above one. -/
def Aggregation.combine (a : Aggregation) (scores : List σ) : σ :=
  clamp (match a with
    | .sum => scores.foldl Score.add Score.zero
    | .max => scores.foldl greater Score.zero)

end StaleDocs.Relevance
