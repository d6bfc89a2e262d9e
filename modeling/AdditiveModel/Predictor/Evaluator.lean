import AdditiveModel.Component.Basic
import AdditiveModel.Predictor.Context

/-!
Evaluators: a component evaluated at inputs that a predictor chooses. For an unstructured effect, a
level without a latent variable gets a normal deviate with the precision of the component, drawn once
for each level and state.
-/

namespace AdditiveModel.Evaluator

variable {F : Type} [Scalar F]

def nameFor (label : String) : String := label ++ "_eval"

def latentName (label : String) : String := label ++ "_latent"

def precisionName (label : String) : String := "Precision_for_" ++ label

/-- The latent vector that is used when none is given. Offsets and constants do without one. -/
def latentState? (c : Component F) (scope : Scope F) (given : Value F) : Except Error (Value F) :=
  match given with
  | .null =>
    match c.role with
    | .offset | .const => .ok ((scope.get? (latentName c.label)).getD .null)
    | _ => scope.lookup (latentName c.label)
  | v => .ok v

/-- The deviation that belongs to the precision in a scope. A negative precision has none. -/
def deviation? (c : Component F) (scope : Scope F) : Except Error F := do
  let v ← scope.lookup (precisionName c.label)
  match ← lift v.vector? with
  | [] => throw (.fault .index)
  | p :: _ =>
    if Scalar.isZero p then throw (.fault .zeroDivision)
    if Scalar.lt p Scalar.zero && Scalar.isFinite p then throw (.fault .type)
    return Scalar.pow p (Scalar.ofRatio (-1) 2)

def keysAt (main : Grid F) (marked : List Bool) : List String :=
  ((main.cells.zip marked).filter (·.2)).map fun (v, _) => v.plain.plainText

def missing (deviates : Deviates F) (label : String) (keys : List String) : List String :=
  (keys.eraseDups).filter fun k => (deviates.lookup label k).isNone

def draw (label : String) (generator : Generator) (sd : F) (key : String) : Run (Context F) Unit := do
  let v ← Context.drawing (Random.normal generator Scalar.zero sd)
  Run.change fun s => { s with deviates := s.deviates.store label key v }

def drawMissing (c : Component F) (scope : Scope F) (generator : Generator) (keys : List String) :
    Run (Context F) Unit := do
  let context ← Run.read
  match missing context.deviates c.label keys with
  | [] => return
  | absent =>
    let sd ← liftError (deviation? c scope)
    absent.forM (draw c.label generator sd)

def replaceMarked (values : List F) (marked : List Bool) (news : List F) : List F :=
  match values, marked, news with
  | _ :: values, true :: marked, v :: news => v :: replaceMarked values marked news
  | v :: values, _ :: marked, news => v :: replaceMarked values marked news
  | values, _, _ => values

/-- The values with deviates at the points of unknown levels; the marks must fit the values. -/
def substitute (c : Component F) (scope : Scope F) (generator : Generator) (main : Grid F)
    (unknown : List Bool) (values : List F) : Run (Context F) (List F) := do
  let keys := keysAt main unknown
  drawMissing c scope generator keys
  if values.length != unknown.length then throw (Error.fault .index)
  let context ← Run.read
  let news := keys.map fun k => (context.deviates.lookup c.label k).getD Scalar.nan
  return replaceMarked values unknown news

/-- A value as the main input of an evaluator: without one, a single one. -/
def mainGrid? (main : Value F) : Except Fault (Grid F) :=
  match main with
  | .null => .ok (Grid.ofFloats [Scalar.one])
  | v => do
    let g ← Grid.ofValue v
    return if g.shape.isEmpty then { g with shape := [1] } else g

def blockInput (size : Nat) (v : Value F) : Value F :=
  match v with
  | .null => .ofReals (List.replicate size Scalar.one)
  | v => v

def parameters : List String := ["main", "group", "replicate", "weights", "state"]

/-- What a call evaluates: the main input, the value of the mapper at each point, and the points of
unknown levels. -/
structure Reading (F : Type) where
  main : Grid F
  values : List F
  unknown : List Bool

/-- The points of unknown levels; only unstructured effects ask for them. -/
def unknown? (c : Component F) (m : Mapper F) (main : Value F) : Except Error (List Bool) :=
  if c.role == .iid then m.firstStage.invalid? (some (Mapper.Input.ofMain main)) else .ok []

def reading? (c : Component F) (scope : Scope F) (a : Arguments F) : Except Error (Reading F) := do
  let values ← lift (a.bind? parameters)
  let argument (i : Nat) : Value F := ((values[i]?).join).getD .null
  let main ← lift (mainGrid? (argument 0))
  let mainValue := Value.ofGrid main
  let size := mainValue.rows
  let state ← latentState? c scope (argument 4)
  let m ← match c.mapper with
    | some m => pure m
    | none => throw (Error.fault .attribute)
  let input : Mapper.Input F :=
    { main := mainValue, group := blockInput size (argument 1),
      replicate := blockInput size (argument 2), scale := argument 3 }
  let values ← m.evaluate? (some input) state
  return ⟨main, values, ← unknown? c m mainValue⟩

def column (values : List F) : Value F := .array .double [values.length, 1] (values.map .float)

/-- The component at the given inputs, one value for each point, as a column. -/
def call (c : Component F) (scope : Scope F) (generator : Generator) (a : Arguments F) :
    Run (Context F) (Value F) := do
  let r ← liftError (reading? c scope a)
  if r.unknown.any id then
    return column (← substitute c scope generator r.main r.unknown r.values)
  else return column r.values

def display (label : String) : String := "ComponentEvaluator(" ++ Text.Quoted.quote label ++ ")"

end AdditiveModel.Evaluator
