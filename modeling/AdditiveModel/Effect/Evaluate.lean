import AdditiveModel.Effect.Simplified

/-!
Effects of all components for latent states. A component without an entry in a state has the zero
vector there.
-/

namespace AdditiveModel

abbrev Effects (F : Type) := Named (List F)

namespace Effects

variable {F : Type} [Scalar F]

def ofSimplified? (mappers : Simplified F) (inputs : Named (Mapper.Input F)) (state : Named (Value F)) :
    Except Error (Effects F) :=
  mappers.mapM fun (label, m) => do
    let s := (Named.value? state label).getD .null
    return (label, ← m.evaluate? (Named.value? inputs label) s)

def ofComponents (cs : Components F) (inputs : Named (Mapper.Input F)) (state : Named (Value F)) :
    Run (List Warning) (Effects F) := do
  let mappers ← Simplified.ofComponents cs inputs
  liftError (ofSimplified? mappers inputs state)

def ofStates? (mappers : Simplified F) (inputs : Named (Mapper.Input F))
    (states : List (Named (Value F))) : Except Error (List (Effects F)) :=
  states.mapM (ofSimplified? mappers inputs)

def ofComponentsAndStates (cs : Components F) (inputs : Named (Mapper.Input F))
    (states : List (Named (Value F))) : Run (List Warning) (List (Effects F)) := do
  let mappers ← Simplified.ofComponents cs inputs
  liftError (ofStates? mappers inputs states)

/-- What effects can be evaluated of, and what cannot. -/
inductive Operation where
  | single
  | multi

def Operation.name : Operation → String
  | single => "evaluate_effect_single"
  | multi => "evaluate_effect_multi"

def refusal (operation : Operation) (v : Value F) : Error := .notEvaluable operation.name v.typeName

end Effects

end AdditiveModel
