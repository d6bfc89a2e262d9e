import AdditiveModel.Mapper.Block
import AdditiveModel.Mapper.Covariates
import AdditiveModel.Mapper.Difference
import AdditiveModel.Mapper.Levels
import AdditiveModel.Scope.Evaluate

/-!
Mappers: what a component does with its inputs and its latent vector. A mapper has a number of latent
variables, a value at each point, the derivative of these values, and a report of the points that it
has no variable for. A linear mapper is determined by its value at one vector and its derivative,
which is what `expanded` mappers are made of.
-/

namespace AdditiveModel

inductive Mapper (F : Type) where
  /-- Covariates times coefficients. -/
  | linear (n : Int)
  /-- The main input itself. -/
  | offset
  /-- One latent variable for each level. -/
  | index (levels : List (Value F))
  /-- A function of the main input and the latent vector. -/
  | function (name : String) (f : Value F → List F → Except Error (Value F)) (n : Int) (declared : Bool)
  /-- A mapper for every group and replicate, with weights. -/
  | component (main : Mapper F) (groups replicates : Int)
  /-- Fixed values plus a matrix times the distance from an origin. -/
  | expanded (fixed : List F) (matrix : Sparse F) (origin : Option (List F))
  deriving Inhabited

namespace Mapper

variable {F : Type}

def n : Mapper F → Int
  | linear n => n
  | offset => 0
  | index levels => levels.length
  | function _ _ n _ => n
  | component main groups replicates => main.n * groups * replicates
  | expanded _ A _ => A.columns

def isLinear : Mapper F → Bool
  | function _ _ _ declared => declared
  | component main _ _ => main.isLinear
  | _ => true

def firstStage : Mapper F → Mapper F
  | component main _ _ => main
  | m => m

variable [Scalar F]

/-- The value of a function at each point; a single value stands for all points. -/
def functionValues? (f : Value F → List F → Except Error (Value F)) (n : Int)
    (input : Option (Input F)) (state : Value F) : Except Error (List F) := do
  let input ← required? input
  let values ← lift (← f input.main (← latent? n state)).vector?
  match values with
  | [v] => return if input.size > 1 then List.replicate input.size v else [v]
  | values => return values

/-- The fixed values plus the matrix times the distance from the origin. -/
def expandedValues? (fixed : List F) (A : Sparse F) (origin : Option (List F)) (state : Value F) :
    Except Error (List F) := do
  if A.columns == 0 then return fixed
  let s ← latent? A.columns state
  let distance := match origin with
    | none => s
    | some s₀ => List.zipWith (· - ·) s s₀
  return List.zipWith (· + ·) fixed (A.apply distance)

def evaluate? : Mapper F → Option (Input F) → Value F → Except Error (List F)
  | linear n, input, state => Covariates.evaluate? n input state
  | offset, input, _ => do lift (Grid.realsOfValue (← required? input).main >>= fun r => pure r.2)
  | index levels, input, state => Levels.evaluate? levels input state
  | function _ f n _, input, state => functionValues? f n input state
  | component main groups replicates, input, state =>
    Block.evaluate? (fun input s => evaluate? main (some input) (Value.ofReals s))
      main.n groups replicates input state
  | expanded fixed A origin, _, state => expandedValues? fixed A origin state

/-- The derivative of the values in the latent variables, at a state where that matters. -/
def jacobian? : Mapper F → Option (Input F) → Value F → Except Error (Sparse F)
  | linear n, input, _ => Covariates.jacobian? n input
  | offset, input, _ => do return Sparse.empty (← required? input).size 0
  | index levels, input, _ => Levels.jacobian? levels input
  | function _ f n _, input, state => do
    let s ← latent? n state
    let rows ← Difference.jacobian? (fun s => functionValues? f n input (Value.ofReals s))
      Difference.defaultStep s
    return Sparse.ofRows s.length rows
  | component main groups replicates, input, state =>
    Block.jacobian? (fun input s => jacobian? main (some input) (Value.ofReals s))
      main.n groups replicates input state
  | expanded _ A _, _, _ => .ok A

def invalid? : Mapper F → Option (Input F) → Except Error (List Bool)
  | index levels, input => Levels.invalid? levels input
  | component main _ _, input => do invalid? main (some (Input.ofMain (← required? input).main))
  | expanded fixed _ _, _ => .ok (fixed.map fun _ => false)
  | _, input => do return List.replicate (← required? input).size false

def expanded? (fixed : List F) (A : Sparse F) (origin : Value F) : Except Error (Mapper F) := do
  let origin ← match origin with
    | .null => pure none
    | s => some <$> latent? A.columns s
  if A.rows != fixed.length then throw (.jacobianRows A.rows fixed.length)
  return expanded fixed A origin

def ofLinear? (m : Mapper F) (input : Option (Input F)) : Except Error (Mapper F) := do
  let fixed ← m.evaluate? input .null
  expanded? fixed (← m.jacobian? input .null) .null

/-- The expansion of first order of a mapper on fixed inputs around a state. -/
def linearize? (m : Mapper F) (input : Option (Input F)) (state : Value F) :
    Except Error (Mapper F) := do
  let s := Value.ofReals (← latent? m.n state)
  let fixed ← m.evaluate? input s
  expanded? fixed (← m.jacobian? input s) s

/-- A mapper for a component: one for every group and replicate, unless it is one already. -/
def forComponent (m : Mapper F) (groups replicates : Int) : Mapper F :=
  match m with
  | component .. => m
  | m => component m groups replicates

def display : Mapper F → String
  | linear n => "LinearMapper(n=" ++ toString n ++ ")"
  | offset => "OffsetMapper()"
  | index levels => "IndexMapper(n=" ++ toString levels.length ++ ")"
  | function name _ n declared =>
    "FunctionMapper(" ++ name ++ ", n=" ++ toString n ++ ", linear="
      ++ (if declared then "True" else "False") ++ ")"
  | component main groups replicates =>
    "ComponentMapper(" ++ main.display ++ ", n_group=" ++ toString groups ++ ", n_replicate="
      ++ toString replicates ++ ")"
  | expanded fixed A _ =>
    "TaylorMapper(n=" ++ toString A.columns ++ ", n_out=" ++ toString fixed.length ++ ")"

/-- A function as a mapper. A function without a name is shown as one. -/
def ofFunction? (f n declared : Value F) : Except Error (Mapper F) := do
  let name := match f with
    | .function g => g.ownName?
    | _ => none
  let apply (x : Value F) (s : List F) : Except Error (Value F) :=
    match f with
    | .function g => g.apply (Arguments.ofList [x, Value.ofReals s])
    | _ => .error (.fault .type)
  let n ← lift n.toInt?
  return function (name.getD "func") apply n (← lift declared.truth?)

def option (options : Named (Value F)) (name : String) (default : Value F) : Value F :=
  (Named.value? options name).getD default

def onlyOptions (options : Named (Value F)) (names : List String) : Except Error Unit :=
  if options.all (names.contains ·.1) then .ok () else .error (.fault .type)

/-- The linear mapper for observed covariates: a coefficient for each column. -/
def ofCovariates? (values : Value F) (options : Named (Value F)) :
    Except Error (Mapper F) := do
  match values, Named.value? options "n" with
  | .null, _ | _, some _ =>
    onlyOptions options ["n"]
    return linear (← lift (option options "n" (.int 1)).toInt?)
  | values, none =>
    match (← lift (Grid.ofValue values)).shape with
    | _ :: width :: _ => return linear width
    | _ => return linear 1

def ofLevels? (values : Value F) (options : Named (Value F)) : Except Error (Mapper F) := do
  onlyOptions options ["levels"]
  match option options "levels" .null, values with
  | .null, .null => throw .withoutLevels
  | .null, values => return index (← Levels.ofObserved? values)
  | levels, _ => return index (← Levels.ofValue? levels)

/-- The main mapper of a named model, for the main values that were observed. -/
def ofModel? (model values : Value F) (options : Named (Value F)) :
    Except Error (Mapper F) := do
  if !model.isKey then throw (.fault .type)
  match model.plain with
  | .str "linear" | .str "intercept" => ofCovariates? values options
  | .str "offset" => return offset
  | .str "iid" => ofLevels? values options
  | .str "function" =>
    onlyOptions options ["func", "n", "linear"]
    match Named.value? options "func" with
    | some f => ofFunction? f (option options "n" (.int 1)) (option options "linear" (.bool false))
    | none => throw (.fault .type)
  | _ => throw (.mapperModel model.display)

end Mapper

end AdditiveModel
