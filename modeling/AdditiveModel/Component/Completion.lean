import AdditiveModel.Component.Input

/-!
Completing components: a missing mapper is built from the main values, groups and replicates of all
data objects together.
-/

namespace AdditiveModel.Component

variable {F : Type} [Scalar F]

/-- The greatest index, as an integer; one when there are no indices. -/
def greatestIndex? (v : Value F) : Except Fault Int :=
  match v with
  | .null => .ok 1
  | v => do
    let (_, xs) ← Grid.realsOfValue v
    match xs with
    | [] => throw .value
    | x :: rest => Value.truncate? (rest.foldl greater x)
where
  greater (a b : F) : F :=
    if Scalar.isNaN a then a else if Scalar.isNaN b || Scalar.lt a b then b else a

def inferCount? (given : Option Int) (indices : List (Value F)) : Except Fault Int :=
  match given with
  | some n => .ok n
  | none => do
    match ← indices.mapM greatestIndex? with
    | [] => throw .value
    | n :: rest => return rest.foldl max n

/-- The component with its mapper, built from data where it is missing. -/
def complete? (c : Component F) (data : List (Value F)) : Except Error (Component F) := do
  match c.mapper with
  | some _ => return c
  | none =>
    let inputs ← data.mapM c.input?
    if inputs.isEmpty then throw (.needsData c.quotedLabel)
    let main ← lift (Joining.concat? (inputs.map (·.main)))
    let groups ← lift (inferCount? c.groups (inputs.map (·.group)))
    let replicates ← lift (inferCount? c.replicates (inputs.map (·.replicate)))
    let m ← Mapper.ofModel? (.str c.model) (Value.ofGrid main) c.options
    return { c with groups := some groups, replicates := some replicates }.withMapper m

end AdditiveModel.Component
