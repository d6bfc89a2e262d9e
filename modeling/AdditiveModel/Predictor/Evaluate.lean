import AdditiveModel.Component.Collection
import AdditiveModel.Posterior.States
import AdditiveModel.Predictor.Evaluator

/-!
Predictors: an expression evaluated once for each latent state. The scope holds the data, the latent
vectors and hyperparameters of the state, the effects of the components and an evaluator for each
component. The values become the columns of a matrix or the items of a list; the first value decides
when neither is asked for.
-/

namespace AdditiveModel.Predictor

variable {F : Type} [Scalar F]

inductive Format where
  | auto
  | matrix
  | list
  deriving DecidableEq, Repr

def Format.ofValue? (v : Value F) : Except Error Format :=
  match v.plain with
  | .null => .ok .auto
  | .str "auto" => .ok .auto
  | .str "matrix" => .ok .matrix
  | .str "list" => .ok .list
  | _ => .error (.format v.display)

/-- Where the values go: into a list, or into columns with the given number of rows and, where the
first value has labels for its rows, those labels. -/
inductive Layout (F : Type) where
  | list
  | matrix (rows : Nat) (index : Option (List (Value F)))

/-- Whether a value is a number or a single column of elements that can be numbers. -/
def isColumn : Value F → Bool
  | .bool _ | .int _ | .float _ => true
  | .cell kind _ => kind.isNumeric
  | .series .. => true
  | .table _ columns => columns.length == 1
  | .array kind shape _ =>
    kind != .any && match shape with
      | [] | [_] | [_, 1] => true
      | _ => false
  | _ => false

def rowLabels : Value F → Option (List (Value F))
  | .series index _ _ => some index
  | .table index _ => some index
  | _ => none

def Layout.ofFirst (format : Format) (v : Value F) : Layout F :=
  let columns := match format with
    | .auto => isColumn v
    | .matrix => true
    | .list => false
  if columns then .matrix v.rows (rowLabels v) else .list

def Layout.admit? (layout : Layout F) (k : Nat) (v : Value F) : Except Error (Value F) :=
  match layout with
  | .list => .ok v
  | .matrix rows _ =>
    match v.vector? >>= Mapper.fit? rows with
    | .ok column => .ok (.ofReals column)
    | .error .type => .error (.misfit k rows (.fault .type))
    | .error .value => .error (.misfit k rows (.fault .value))
    | .error f => .error (.fault f)

def Layout.collect (layout : Layout F) (values : List (Value F)) : Value F :=
  match layout with
  | .list => .list values
  | .matrix rows index =>
    let columns := values.map fun
      | .array _ _ cells => cells
      | _ => []
    match index with
    | some labels =>
      .table labels (columns.zipIdx.map fun (cells, k) => (toString k, .double, cells))
    | none =>
      let stores := columns.map List.toArray
      .array .double [rows, values.length]
        ((List.range rows).flatMap fun i => stores.map fun c => c.getD i .null)

structure Task (F : Type) where
  components : Components F
  data : Value F
  states : List (State F)
  /-- The effects of each state, by label. -/
  effects : Option (List (Named (Value F)))
  predictor : Value F
  format : Value F

def boundName (cs : Components F) (name : String) : String :=
  if cs.contains name then Evaluator.latentName name else name

/-- The names that are bound once: data, and evaluators of the components with an entry in the first
state. -/
def baseScope? (cs : Components F) (data : Value F) (first : State F) : Except Error (Scope F) := do
  let scope ← lift (Data.scope? data)
  let evaluators := (first.filter fun (name, _) => cs.contains name).map fun (name, _) =>
    (Evaluator.nameFor name, Value.function (.evaluator name))
  return (scope.update evaluators).bind "component_eval" (.function .genericEvaluator)

def bindState? (cs : Components F) (scope : Scope F) (state : State F) : Except Fault (Scope F) :=
  state.foldlM (fun scope (name, v) => do
    return scope.bind (boundName cs name) (Value.ofGrid (← Grid.ofValue v))) scope

def bindEffects? (effects : Option (List (Named (Value F)))) (k : Nat) (scope : Scope F) :
    Except Fault (Scope F) :=
  match effects with
  | none => .ok scope
  | some effects =>
    match effects[k]? with
    | some e => .ok (scope.update e)
    | none => .error .index

def meaning (cs : Components F) (generator : Generator) (scope : Scope F) :
    Expr.Meaning (Run (Context F)) F :=
  Callable.inScope scope (Callable.applyWith (fun label a => do
    Evaluator.call (← liftError (cs.get? label)) scope generator a) Callable.deepest)

/-- The scope of state `k`, after the scope of the state before it. -/
def stateScope? (t : Task F) (k : Nat) (scope : Scope F) (state : State F) : Except Fault (Scope F) := do
  bindEffects? t.effects k (← bindState? t.components scope state)

/-- The value of the predictor in state `k`, and the scope it was evaluated in. -/
def evaluateState (t : Task F) (e : Expression) (generator : Generator) (k : Nat) (scope : Scope F)
    (state : State F) : Run (Context F) (Value F × Scope F) := do
  Run.change (·.advance (some k))
  let scope ← lift (stateScope? t k scope state)
  return (← e.evaluateWith (meaning t.components generator scope), scope)

def evaluateRest (t : Task F) (e : Expression) (generator : Generator) (layout : Layout F) :
    Nat → Scope F → List (State F) → Run (Context F) (List (Value F))
  | _, _, [] => pure []
  | k, scope, state :: rest => do
    let (v, scope) ← evaluateState t e generator k scope state
    let placed ← liftError (layout.admit? k v)
    return placed :: (← evaluateRest t e generator layout (k + 1) scope rest)

/-- The generator for unknown levels: the given one, one made from the seed, or the shared one. -/
def generatorFor (given : Option Generator) (seed : Value F) : Run (Source F) Generator :=
  match given with
  | some g => pure g
  | none => do
    if ← lift (Value.compare? .ne seed (.int 0)) then Random.fromSeed (.list [seed, .int 1])
    else return .evaluation

def evaluate (t : Task F) (given : Option Generator) (seed : Value F) : Run (Source F) (Value F) := do
  let format ← liftError (Format.ofValue? t.format)
  match t.states with
  | [] => throw Error.withoutStates
  | first :: rest =>
    let e ← liftError (Expression.ofValue t.predictor)
    let generator ← generatorFor given seed
    let scope ← liftError (baseScope? t.components t.data first)
    Context.fresh do
      let (v, scope) ← evaluateState t e generator 0 scope first
      let layout := Layout.ofFirst format v
      let placed ← liftError (layout.admit? 0 v)
      return layout.collect (placed :: (← evaluateRest t e generator layout 1 scope rest))

end AdditiveModel.Predictor
