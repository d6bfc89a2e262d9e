import AdditiveModel.Text.Quoted

/-!
Everything that can go wrong, by cause. `Error.message` is the wording of the causes that this
library states itself; a `Fault` is a failed elementary operation, which has no wording of its own.
Values inside an error are kept as quoted texts.
-/

namespace AdditiveModel

inductive Fault where
  | type
  | value
  | index
  | key
  | zeroDivision
  | overflow
  | attribute
  | grammar
  | indentation
  | recursion
  deriving DecidableEq, Repr, Inhabited

/-- The kind of failure that an error is reported as. -/
inductive Category where
  | configuration
  | evaluation
  | plain (fault : Fault)
  deriving DecidableEq, Repr

inductive Filter where
  | includes
  | excludes
  deriving DecidableEq, Repr

def Filter.word : Filter → String
  | .includes => "include"
  | .excludes => "exclude"

inductive BlockIndex where
  | group
  | replicate
  deriving DecidableEq, Repr

def BlockIndex.word : BlockIndex → String
  | .group => "group"
  | .replicate => "replicate"

inductive Error where
  /-- A failed elementary operation. -/
  | fault (kind : Fault)
  -- Configuration.
  | filterLabels (filter : Filter) (unknown available : List String)
  | subsetLabels (unknown : List String)
  | duplicateLabel (label : String)
  | withoutMapper (label : String)
  | withoutInput (label : String)
  | needsData (label : String)
  | componentType (given : String)
  | property (given : String)
  | sampleCount (given : String)
  | format (given : String)
  | withoutStates
  -- Expressions.
  | unbound (name : String)
  | notCallable (name : String)
  | unsupported (node text : String)
  | callee (text : String)
  | grammar (text : String) (kind : Fault)
  | failed (text : String) (inner : Error)
  | misfit (state rows : Nat) (inner : Error)
  | genericEvaluator
  | notExpression (type : String)
  -- Mappers.
  | stateLength (found : Nat) (expected : Int)
  | covariateShape (columns : Int) (shape : List Nat)
  | repeatedLevels
  | withoutLevels
  | blockLength (index : BlockIndex) (found size : Nat)
  | blockRange (index : BlockIndex) (count : Int)
  | jacobianRows (rows values : Nat)
  | mapperModel (given : String)
  -- Effects, posterior and summaries.
  | notEvaluable (operation type : String)
  | covarianceShape (size : Nat) (shape : List Nat)
  | hyperparameter (name : String)
  | sampleAsSummary
  | twoIntervals
  | summaryShape (shape : List Nat)
  | labelled (label : String)
  deriving Repr, Inhabited

namespace Error

open Text

def shapeText (shape : List Nat) : String := Quoted.tuple (shape.map toString)

def componentTypes : List String := ["fixed", "offset", "const", "iid", "other"]

def mapperModels : List String := ["linear", "intercept", "offset", "iid", "function"]

def propertyNames : List String := ["mode", "mean", "sd", "median", "sample"]

def formatNames : List String := ["auto", "matrix", "list"]

def choices (names : List String) : String := Quoted.tuple (names.map Quoted.quote)

/-- The wording; none for a failed elementary operation. A cause inside an evaluation is appended
when it has a wording itself. -/
def message : Error → Option String
  | fault _ => none
  | filterLabels filter unknown available =>
    some ("Unknown component label(s) in " ++ filter.word ++ ": " ++ Quoted.list unknown
      ++ ". Available: " ++ Quoted.tuple available)
  | subsetLabels unknown => some ("Unknown component label(s): " ++ Quoted.list unknown ++ ".")
  | duplicateLabel label => some ("Duplicate component label " ++ label ++ ".")
  | withoutMapper label =>
    some ("Component " ++ label ++ " has no mapper yet; build the model with data first.")
  | withoutInput label => some ("No input evaluated for component " ++ label ++ ".")
  | needsData label => some ("Component " ++ label ++ " needs data to construct its mapper.")
  | componentType given =>
    some ("Unknown component type " ++ given ++ ". Available: " ++ choices componentTypes)
  | property given =>
    some ("Unknown state property " ++ given ++ ". Use one of " ++ choices propertyNames
      ++ " or '<p>quant', e.g. '0.025quant'.")
  | sampleCount given => some ("n must be >= 1; got " ++ given ++ ".")
  | format given => some ("Unknown format " ++ given ++ ". Available: " ++ choices formatNames)
  | withoutStates => some "Not enough information to evaluate model states."
  | unbound name => some ("object " ++ Quoted.quote name ++ " not found")
  | notCallable name => some (Quoted.quote name ++ " is not a function.")
  | unsupported node text =>
    some ("Unsupported syntax " ++ Quoted.quote node ++ " in expression " ++ Quoted.quote text ++ ".")
  | callee text => some ("Only named functions can be called in expression " ++ Quoted.quote text ++ ".")
  | grammar text _ => some ("Invalid expression " ++ Quoted.quote text)
  | failed text inner => some ("Error evaluating " ++ Quoted.quote text ++ tail inner.message)
  | misfit state rows inner =>
    some ("Predictor value for state " ++ toString state ++ " does not fit a column of "
      ++ toString rows ++ " rows" ++ tail inner.message)
  | genericEvaluator =>
    some "In your predictor expression, use 'mylabel_eval(...)' instead of 'component_eval(...)'."
  | notExpression type => some ("Expected an expression string; got " ++ type ++ ".")
  | stateLength found expected =>
    some ("State vector has length " ++ toString found ++ "; mapper expects " ++ toString expected
      ++ ".")
  | covariateShape columns shape =>
    some ("Linear mapper expects covariates with " ++ toString columns ++ " column(s); got shape "
      ++ shapeText shape ++ ".")
  | repeatedLevels => some "IndexMapper levels must be unique."
  | withoutLevels => some "IndexMapper needs either levels=... or observed values."
  | blockLength index found size =>
    some (index.word ++ " has " ++ toString found ++ " values; main has " ++ toString size ++ ".")
  | blockRange index count => some (index.word ++ " values must lie in 1.." ++ toString count ++ ".")
  | jacobianRows rows values =>
    some ("Jacobian has " ++ toString rows ++ " rows but offset has " ++ toString values ++ " values.")
  | mapperModel given =>
    some ("Unknown component model " ++ given ++ ". Available: " ++ choices mapperModels)
  | notEvaluable operation type =>
    some (operation ++ " expects a Mapper, SimplifiedMappers or ComponentList; got " ++ type ++ ".")
  | covarianceShape size shape =>
    some ("cov must have shape " ++ shapeText [size, size] ++ " for the given mean blocks; got "
      ++ shapeText shape ++ ".")
  | hyperparameter name => some ("Hyperparameter " ++ name ++ " needs value > 0 and sd >= 0.")
  | sampleAsSummary => some "Use posterior_sample() to draw samples."
  | twoIntervals => some "Provide only one of level= or conf_int=."
  | summaryShape shape =>
    some ("values must be a (rows, states) matrix; got shape " ++ shapeText shape ++ ".")
  | labelled label => some (Quoted.quote ("No component labelled " ++ label ++ "."))
where
  tail : Option String → String
    | none => ""
    | some text => ": " ++ text

def category : Error → Category
  | fault kind => .plain kind
  | filterLabels .. | subsetLabels .. | duplicateLabel .. | withoutMapper .. | withoutInput ..
  | needsData .. | componentType .. | property .. | sampleCount .. | format ..
  | withoutStates => .configuration
  | unbound .. | notCallable .. | unsupported .. | callee .. | grammar .. | failed .. | misfit ..
  | genericEvaluator => .evaluation
  | notExpression .. | notEvaluable .. => .plain .type
  | labelled .. => .plain .key
  | stateLength .. | covariateShape .. | repeatedLevels | withoutLevels | blockLength ..
  | blockRange .. | jacobianRows .. | mapperModel .. | covarianceShape .. | hyperparameter ..
  | sampleAsSummary | twoIntervals | summaryShape .. => .plain .value

/-- The elementary operation behind an evaluation that failed without a wording. -/
def cause : Error → Option Fault
  | grammar _ kind => some kind
  | failed _ (fault kind) | misfit _ _ (fault kind) => some kind
  | _ => none

end Error

section Lifting

variable {m : Type → Type} [Monad m] [MonadExceptOf Error m] {α : Type}

def lift (r : Except Fault α) : m α :=
  match r with
  | .ok v => pure v
  | .error kind => throw (Error.fault kind)

def liftError (r : Except Error α) : m α :=
  match r with
  | .ok v => pure v
  | .error e => throw e

end Lifting

end AdditiveModel
