import AdditiveModel.Function.Arguments
import AdditiveModel.Function.Joining
import AdditiveModel.Function.Normal
import AdditiveModel.Operation.Reduction

/-!
The functions that every data scope offers, by name, and what a call of each of them gives.
-/

namespace AdditiveModel.Builtin

variable {F : Type} [Scalar F]

open Value

def table : List (String × Builtin) :=
  [("exp", exp), ("log", log), ("log1p", log1p), ("expm1", expm1), ("sqrt", sqrt), ("sin", sin),
   ("cos", cos), ("tan", tan), ("abs", abs), ("sum", sum), ("mean", mean), ("min", min),
   ("max", max), ("pmin", pmin), ("pmax", pmax), ("ifelse", ifelse), ("array", array),
   ("rep", rep), ("c", c), ("cbind", cbind), ("length", length), ("plogis", plogis),
   ("qlogis", qlogis), ("pnorm", pnorm), ("qnorm", qnorm), ("dnorm", dnorm)]

def ownName : Builtin → String
  | abs => "absolute"
  | pmin => "minimum"
  | pmax => "maximum"
  | ifelse => "where"
  | array => "asarray"
  | rep => "repeat"
  | c => "_concat"
  | cbind => "_cbind"
  | length => "nrow"
  | plogis => "expit"
  | qlogis => "logit"
  | pnorm => "cdf"
  | qnorm => "ppf"
  | dnorm => "pdf"
  | f => ((table.find? (·.2 == f)).map (·.1)).getD ""

abbrev Pair (F : Type) := Number.Pair F

def half (x : F) : F := x * Scalar.ofRatio 1 2

def sinh (x : F) : F := half (Scalar.exp x - Scalar.exp (-x))

def cosh (x : F) : F := half (Scalar.exp x + Scalar.exp (-x))

def expPair (z : Pair F) : Pair F :=
  let size := Scalar.exp z.1
  (size * Scalar.cos z.2, size * Scalar.sin z.2)

def logPair (z : Pair F) : Pair F := (Scalar.log (Number.modulus z), Scalar.angle z.2 z.1)

def sqrtPair (z : Pair F) : Pair F :=
  if Number.isZeroPair z then (Scalar.zero, z.2)
  else
    let size := Scalar.sqrt (half (Number.modulus z + Scalar.abs z.1))
    let other := half (Scalar.abs z.2) / size
    if Scalar.signed z.1 then (other, Number.withSignOf size z.2)
    else (size, Number.withSignOf other z.2)

def sinPair (z : Pair F) : Pair F :=
  (Scalar.sin z.1 * cosh z.2, Scalar.cos z.1 * sinh z.2)

def cosPair (z : Pair F) : Pair F :=
  (Scalar.cos z.1 * cosh z.2, -(Scalar.sin z.1 * sinh z.2))

/-- An elementwise function: on real numbers, and on complex numbers where it extends to them. -/
def real? : Builtin → Option ((F → F) × (Pair F → Option (Pair F)))
  | exp => some (Scalar.exp, fun z => some (expPair z))
  | log => some (Scalar.log, fun z => some (logPair z))
  | log1p => some (Scalar.log1p, fun z => some (logPair (Scalar.one + z.1, z.2)))
  | expm1 => some (Scalar.expm1, fun z => some (Number.subPair (expPair z) (Scalar.one, Scalar.zero)))
  | sqrt => some (Scalar.sqrt, fun z => some (sqrtPair z))
  | sin => some (Scalar.sin, fun z => some (sinPair z))
  | cos => some (Scalar.cos, fun z => some (cosPair z))
  | tan => some (Scalar.tan, fun z => some (Number.divPair (sinPair z) (cosPair z)))
  | _ => none

/-- An elementwise function that always gives real numbers of full precision. -/
def fullReal? : Builtin → Option (F → F)
  | plogis => some Scalar.logistic
  | qlogis => some Scalar.logit
  | _ => none

def applyFull? (f : F → F) (g : Grid F) : Except Fault (Grid F) :=
  match g.kind with
  | .text | .any | .complex => .error .type
  | _ => do Pointwise.function? f (fun _ => none) (← g.cast? .double)

def elementwise? (f : Grid F → Except Fault (Grid F)) (v : Value F) : Except Fault (Value F) :=
  if Labelled.isLabelled v then Labelled.map? f v
  else do return ofResult (← f (← Grid.ofValue v))

def extreme? (larger : Bool) (a b : Value F) : Except Fault (Value F) :=
  if Labelled.isLabelled a || Labelled.isLabelled b then
    Labelled.zip? true (Pointwise.extreme? larger) a b
  else (Pointwise.extreme? larger a b).map ofResult

def single? (a : Arguments F) : Except Fault (Value F) :=
  match a.args, a.keywords with
  | [v], [] => .ok v
  | _, _ => .error .type

/-- Reductions take an axis, and the extremes and sums a first element. -/
def reduce? (r : Reduction) (a : Arguments F) : Except Fault (Value F) := do
  let parameters := match r with
    | .sum => ["a", "axis", "dtype", "out", "keepdims", "initial"]
    | .mean => ["a", "axis", "dtype", "out", "keepdims"]
    | .min | .max => ["a", "axis", "out", "keepdims", "initial"]
  let values ← a.bindRequired? 1 parameters
  let get (name : String) : Value F := ((parameters.zip values).find? (·.1 == name)).elim null (·.2)
  let isNull : Value F → Bool
    | null => true
    | _ => false
  if !(isNull (get "dtype") && isNull (get "out")) then throw .type
  let start := if isNull (get "initial") then none else some (plain (get "initial"))
  r.value? (get "a") (get "axis") (← truth? (get "keepdims")) start

/-- The location and scale of a normal distribution; they default to 0 and 1. -/
def normal? (first : String) (f : Value F → Value F → Value F → Except Fault (Value F))
    (a : Arguments F) : Except Fault (Value F) := do
  match ← a.bind? [first, "loc", "scale"] with
  | [some x, loc, scale] => f x (loc.getD (int 0)) (scale.getD (int 1))
  | _ => throw .type

def call? (f : Builtin) (a : Arguments F) : Except Fault (Value F) :=
  match f with
  | abs => do elementwise? Pointwise.abs? (← single? a)
  | sum => reduce? .sum a
  | mean => reduce? .mean a
  | min => reduce? .min a
  | max => reduce? .max a
  | pmin => do
    match ← a.positional? with
    | [x, y] => extreme? false x y
    | _ => throw .type
  | pmax => do
    match ← a.positional? with
    | [x, y] => extreme? true x y
    | _ => throw .type
  | ifelse => do
    match ← a.positional? with
    | [condition] => Joining.truePositions? condition
    | [condition, yes, no] => return ofGrid (← Joining.choose? condition yes no)
    | [_, _] => throw .value
    | _ => throw .type
  | array => do
    match ← a.bindRequired? 1 ["a", "dtype"] with
    | [v, kind] => return ofGrid (← Joining.array? v kind)
    | _ => throw .type
  | rep => do
    match ← a.bindRequired? 2 ["a", "repeats", "axis"] with
    | [v, counts, axis] => Joining.repeat? v counts axis
    | _ => throw .type
  | c => do return ofGrid (← Joining.concat? (← a.positional?))
  | cbind => do return ofGrid (← Joining.columns? (← a.positional?))
  | length => do
    match ← a.bindRequired? 1 ["x"] with
    | [v] => return int v.rows
    | _ => throw .type
  | pnorm => normal? "x" Normal.cdf? a
  | qnorm => normal? "q" Normal.quantile? a
  | dnorm => normal? "x" Normal.pdf? a
  | f => do
    let v ← single? a
    match real? f, fullReal? f with
    | some (g, h), _ => elementwise? (Pointwise.function? g h) v
    | none, some g => elementwise? (applyFull? g) v
    | none, none => throw .type

end AdditiveModel.Builtin
