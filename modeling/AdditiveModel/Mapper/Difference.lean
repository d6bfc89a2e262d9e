import AdditiveModel.Mapper.Input

/-!
Forward differences. Each coordinate of the point is moved on its own, by a step that grows with the
size of the coordinate and is never zero.
-/

namespace AdditiveModel.Mapper.Difference

variable {F : Type} [Scalar F]

def defaultStep : F := Scalar.ofDecimal 1 (-6)

def stepAt (step x : F) : F := step * (Scalar.abs x + Scalar.one)

def moved (step : F) (x : List F) (i : Nat) : List F :=
  x.modify i fun v => v + stepAt step v

def column? (f : List F → Except Error (List F)) (step : F) (x base : List F) (i : Nat) :
    Except Error (List F) := do
  let difference ← lift (pairwise? (· - ·) (← f (moved step x i)) base)
  let quotient := difference.map (· / stepAt step (x.getD i Scalar.zero))
  lift (fit? base.length quotient)

def transpose (count : Nat) (columns : List (List F)) : List (List F) :=
  (List.range count).map fun i => columns.map fun c => c.getD i Scalar.zero

def jacobian? (f : List F → Except Error (List F)) (step : F) (x : List F) :
    Except Error (List (List F)) := do
  let base ← f x
  let columns ← (List.range x.length).mapM (column? f step x base)
  return transpose base.length columns

end AdditiveModel.Mapper.Difference
