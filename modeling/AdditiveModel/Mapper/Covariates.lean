import AdditiveModel.Mapper.Input

/-!
Effects that are linear in given covariates: one row of covariates for each point, one coefficient for
each column.
-/

namespace AdditiveModel.Mapper.Covariates

variable {F : Type} [Scalar F]

def rowsOf (count width : Nat) (cells : List F) : List (List F) :=
  (List.range count).map fun i => (cells.drop (i * width)).take width

/-- The covariates of `n` columns: a single value is one row, a vector one column. -/
def ofMain? (n : Int) (main : Value F) : Except Error (List (List F)) := do
  let (shape, cells) ← lift (Grid.realsOfValue main)
  let shape := match shape with
    | [] => [1, 1]
    | [k] => [k, 1]
    | shape => shape
  match shape with
  | [count, width] =>
    if (width : Int) == n then return rowsOf count width cells
    else throw (.covariateShape n shape)
  | _ => throw (.covariateShape n shape)

def evaluate? (n : Int) (input : Option (Input F)) (state : Value F) : Except Error (List F) := do
  let coefficients ← latent? n state
  let rows ← ofMain? n (← required? input).main
  return rows.map fun row => Scalar.dot row coefficients

def jacobian? (n : Int) (input : Option (Input F)) : Except Error (Sparse F) := do
  let rows ← ofMain? n (← required? input).main
  return Sparse.ofRows n.toNat rows

end AdditiveModel.Mapper.Covariates
