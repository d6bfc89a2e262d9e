import AdditiveModel.Component.Basic

/-!
The inputs of components for given data. A single value is repeated for every observation.
-/

namespace AdditiveModel.Component

variable {F : Type} [Scalar F]

def specValue? (spec data : Value F) : Except Error (Value F) :=
  match spec with
  | .str s => do
    let e ← Expression.ofText s
    e.evaluate (← lift (Data.scope? data))
  | .function f => f.apply (Arguments.ofList [data])
  | v => .ok v

def spread? (size : Nat) (v : Value F) : Except Fault (Value F) :=
  match v with
  | .null => .ok .null
  | v => do
    let g ← Grid.ofValue v
    match g.shape, g.cells with
    | [], [x] => return .array g.kind [size] (List.replicate size x)
    | [1], [x] => return if size > 1 then .array g.kind [size] (List.replicate size x) else Value.ofGrid g
    | _, _ => return Value.ofGrid g

/-- The main input; without a specification it is the data field named like the component. -/
def mainSpec (c : Component F) : Value F :=
  match c.main with
  | .null => .str c.label
  | v => v

def input? (c : Component F) (data : Value F) : Except Error (Mapper.Input F) := do
  let size ← lift (Data.length? data)
  let one (spec : Value F) : Except Error (Value F) := do lift (spread? size (← specValue? spec data))
  return { main := ← one c.mainSpec, group := ← one c.group, replicate := ← one c.replicate,
           scale := ← one c.weights }

end AdditiveModel.Component
