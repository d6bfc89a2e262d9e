import AdditiveModel.Effect.Evaluate
import AdditiveModel.Model.Basic
import AdditiveModel.Predictor.Evaluate
import AdditiveModel.Summary.Table

/-!
Evaluating a model: inputs from data, effects of the included components for each state, and a
predictor over them. A prediction samples states, evaluates the predictor in each and summarizes.
-/

namespace AdditiveModel.Model

variable {F : Type} [Scalar F]

/-- What is evaluated; inputs and ready mappers can be given in place of data. -/
structure Evaluation (F : Type) where
  states : Option (List (State F))
  data : Value F := .null
  inputs : Option (Named (Mapper.Input F)) := none
  simplified : Option (Simplified F) := none
  predictor : Value F := .null
  format : Value F := .null
  includes : Value F := .null
  excludes : Value F := .null
  generator : Option Generator := none
  seed : Value F := .int 0

/-- What an evaluation gives: effects without a predictor, where there are inputs, and the value of the
predictor otherwise. -/
inductive Outcome (F : Type) where
  | effects (states : Option (List (Effects F)))
  | predicted (value : Value F)

def effectsValue (e : Effects F) : Named (Value F) := e.map fun (label, xs) => (label, .ofReals xs)

def Outcome.toValue : Outcome F → Value F
  | effects none => .null
  | effects (some states) => .list (states.map fun e => .dict (effectsValue e))
  | predicted v => v

/-- The inputs of an evaluation: given ones, or those for its data. -/
def inputsFor? (cs : Components F) (e : Evaluation F) :
    Except Error (Option (Named (Mapper.Input F))) :=
  match e.inputs, e.data with
  | some inputs, _ => .ok (some inputs)
  | none, .null => .ok none
  | none, data => do return some (← cs.inputs? data)

/-- The ready mappers of an evaluation: given ones, or those for its inputs. -/
def simplifiedFor (cs : Components F) (e : Evaluation F) (inputs : Option (Named (Mapper.Input F))) :
    Run (List Warning) (Option (Simplified F)) :=
  match e.simplified, inputs with
  | some mappers, _ => pure (some mappers)
  | none, none => pure none
  | none, some inputs => do return some (← Simplified.ofComponents cs inputs)

/-- The format that is asked for; a value that is false asks for none. -/
def formatFor? (v : Value F) : Except Fault (Value F) := do
  return if ← v.truth? then v else .str "auto"

/-- Effects of the included components, or the predictor over them. -/
def evaluate (m : Model F) (e : Evaluation F) : Run (Session F) (Outcome F) := do
  let included ← liftError (Inclusion.ofNames? m.labels e.includes e.excludes)
  match e.states with
  | none => throw Error.withoutStates
  | some states =>
    let cs ← liftError (m.components.subset? included)
    let inputs ← liftError (inputsFor? cs e)
    let mappers ← Session.warning (simplifiedFor cs e inputs)
    let effects ← liftError (mappers.mapM fun ms => Effects.ofStates? ms (inputs.getD []) states)
    match e.predictor with
    | .null => return .effects effects
    | predictor =>
      let task : Predictor.Task F :=
        { components := m.components, data := e.data, states,
          effects := effects.map (·.map effectsValue), predictor,
          format := ← lift (formatFor? e.format) }
      return .predicted (← Session.drawing (Predictor.evaluate task e.generator e.seed))

structure Prediction (F : Type) where
  predictor : Value F
  data : Value F := .null
  count : Value F := .int 100
  seed : Value F := .int 0
  interval : Option (List (Value F)) := none
  includes : Value F := .null
  excludes : Value F := .null

def predict [Factor.Decompositions F] (m : Model F) (posterior : Option (Gaussian F)) (p : Prediction F) :
    Run (Session F) (Value F) := do
  let states ← State.extract m.components posterior
    { property := .str "sample", count := p.count, seed := p.seed }
  let outcome ← m.evaluate
    { states := some states, data := p.data, predictor := p.predictor, format := .str "matrix",
      includes := p.includes, excludes := p.excludes, seed := p.seed }
  liftError (Summary.ofValue? outcome.toValue .null p.interval)

end AdditiveModel.Model
