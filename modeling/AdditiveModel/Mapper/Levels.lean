import AdditiveModel.Mapper.Input
import AdditiveModel.Value.Items

/-!
Effects with one latent variable for each known level. A main value selects the variable of the level
that it is found under; a value that is no level has effect zero and is reported as invalid.
-/

namespace AdditiveModel.Mapper.Levels

variable {F : Type} [Scalar F]

def position? (levels : List (Value F)) (key : Value F) : Option Nat :=
  levels.findIdx? (Value.found · key)

def allDistinct : List (Value F) → Bool
  | [] => true
  | v :: vs => !vs.any (Value.found v) && allDistinct vs

def ofItems? (items : List (Value F)) : Except Error (List (Value F)) := do
  let levels := items.map Value.key
  if !Value.areKeys levels then throw (.fault .type)
  if allDistinct levels then return levels else throw .repeatedLevels

def ofValue? (levels : Value F) : Except Error (List (Value F)) := do
  ofItems? (← lift levels.items?)

def ofObserved? (values : Value F) : Except Error (List (Value F)) := do
  let g ← lift (Grid.ofValue values)
  ofItems? ((← lift (Value.distinct? g)).map (Value.element g.kind))

def positions? (levels : List (Value F)) (main : Value F) : Except Fault (List (Option Nat)) :=
  let keys := (Grid.objects main).cells.map Value.plain
  if Value.areKeys keys then .ok (keys.map (position? levels)) else .error .type

def evaluate? (levels : List (Value F)) (input : Option (Input F)) (state : Value F) :
    Except Error (List F) := do
  let values ← latent? levels.length state
  let positions ← lift (positions? levels (← required? input).main)
  return positions.map fun p => (p.map fun i => values.getD i Scalar.zero).getD Scalar.zero

/-- One entry for each point with a known position, in the column of the position. -/
def selection (columns : Nat) (positions : List (Option Nat)) : Sparse F :=
  ⟨positions.length, columns,
    positions.zipIdx.filterMap fun (p, i) => p.map fun j => (i, j, Scalar.one)⟩

def jacobian? (levels : List (Value F)) (input : Option (Input F)) : Except Error (Sparse F) := do
  let positions ← lift (positions? levels (← required? input).main)
  return selection levels.length positions

def invalid? (levels : List (Value F)) (input : Option (Input F)) : Except Error (List Bool) := do
  let positions ← lift (positions? levels (← required? input).main)
  return positions.map (·.isNone)

end AdditiveModel.Mapper.Levels
