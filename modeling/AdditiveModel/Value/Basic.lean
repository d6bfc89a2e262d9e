import AdditiveModel.Error
import AdditiveModel.Expr.Expression
import AdditiveModel.Named
import AdditiveModel.Value.Kind

/-!
The values that expressions work on: plain values, arrays with their elements in row-major order,
labelled columns and tables, and functions.
-/

namespace AdditiveModel

inductive Builtin where
  | exp | log | log1p | expm1 | sqrt | sin | cos | tan | abs
  | sum | mean | min | max | pmin | pmax | ifelse | array | rep | c | cbind | length
  | plogis | qlogis | pnorm | qnorm | dnorm
  deriving DecidableEq, Repr, Inhabited

inductive Callable where
  | builtin (function : Builtin)
  /-- A formula in `x` and `s`, its two arguments. -/
  | formula (body : Expression) (name : Option String)
  /-- A formula in the fields of its argument. -/
  | ofData (body : Expression) (name : Option String)
  /-- The evaluator of the component with a label. -/
  | evaluator (label : String)
  /-- Stands for the name of a component in the evaluator's name, and only explains itself. -/
  | genericEvaluator
  deriving Repr, Inhabited

inductive Value (F : Type) where
  | null
  | bool (b : Bool)
  | int (n : Int)
  | float (x : F)
  | complex (re im : F)
  | str (s : String)
  | bytes (octets : List UInt8)
  | ellipsis
  | list (items : List (Value F))
  | tuple (items : List (Value F))
  | dict (entries : List (String × Value F))
  | slice (lower upper step : Value F)
  /-- A single element of an array. -/
  | cell (kind : Kind) (value : Value F)
  /-- An array: `cells` are plain values in row-major order. -/
  | array (kind : Kind) (shape : List Nat) (cells : List (Value F))
  /-- A column with a label for each row. -/
  | series (index : List (Value F)) (kind : Kind) (cells : List (Value F))
  /-- Columns with common row labels. -/
  | table (index : List (Value F)) (columns : List (String × Kind × List (Value F)))
  /-- A matrix given by its entries. -/
  | sparse (rows columns : Nat) (entries : List (Nat × Nat × F))
  | function (f : Callable)
  | expression (e : Expression)
  deriving Inhabited

structure Grid (F : Type) where
  kind : Kind
  shape : List Nat
  cells : List (Value F)
  deriving Inhabited

namespace Shape

def count (shape : List Nat) : Nat := shape.foldl (· * ·) 1

def strides : List Nat → List Nat
  | [] => []
  | _ :: shape => count shape :: strides shape

/-- The shape that two shapes extend to: axes are matched from the last one, and an axis of length
one stretches. -/
def broadcastReversed : List Nat → List Nat → Except Fault (List Nat)
  | [], ys => .ok ys
  | xs, [] => .ok xs
  | x :: xs, y :: ys => do
    let rest ← broadcastReversed xs ys
    if x == y then return x :: rest
    else if x == 1 then return y :: rest
    else if y == 1 then return x :: rest
    else throw .value

def broadcast (a b : List Nat) : Except Fault (List Nat) :=
  (broadcastReversed a.reverse b.reverse).map List.reverse

def broadcastAll (shapes : List (List Nat)) : Except Fault (List Nat) :=
  shapes.foldlM broadcast []

/-- For each element of a stretched shape, row-major, the offset of the element that it repeats. -/
def offsets (strideOf : List (Nat × Nat)) : List Nat :=
  strideOf.foldl (fun acc (extent, stride) =>
    acc.flatMap fun o => (List.range extent).map fun i => o + i * stride) [0]

/-- Extents of `target` with the strides that `shape` has there; a stretched axis does not move. -/
def stretched (shape target : List Nat) : List (Nat × Nat) :=
  let missing := target.length - shape.length
  let padded := List.replicate missing 0 ++
    (shape.zip (strides shape)).map fun (extent, stride) => if extent == 1 then 0 else stride
  target.zip padded

end Shape

namespace Value

variable {F : Type}

def ofGrid (g : Grid F) : Value F := .array g.kind g.shape g.cells

/-- A grid as the result of an elementwise operation: one without axes is its element. -/
def ofResult (g : Grid F) : Value F :=
  match g.kind, g.shape, g.cells with
  | .any, [], [v] => v
  | .text, [], [v] => v
  | kind, [], [v] => .cell kind v
  | kind, shape, cells => .array kind shape cells

def typeName : Value F → String
  | null => "NoneType"
  | bool _ => "bool"
  | int _ => "int"
  | float _ => "float"
  | complex _ _ => "complex"
  | str _ => "str"
  | bytes _ => "bytes"
  | ellipsis => "ellipsis"
  | list _ => "list"
  | tuple _ => "tuple"
  | dict _ => "dict"
  | slice _ _ _ => "slice"
  | cell .bool _ => "bool"
  | cell .int8 _ => "int8"
  | cell .int64 _ => "int64"
  | cell .uint64 _ => "uint64"
  | cell .half _ => "float16"
  | cell .double _ => "float64"
  | cell .complex _ => "complex128"
  | cell .text _ => "str_"
  | cell .any v => typeName v
  | array _ _ _ => "ndarray"
  | series _ _ _ => "Series"
  | table _ _ => "DataFrame"
  | sparse _ _ _ => "csr_matrix"
  | function (.builtin f) => builtinTypeName f
  | function (.formula _ _) => "Fn"
  | function (.ofData _ _) => "DataFn"
  | function (.evaluator _) => "ComponentEvaluator"
  | function .genericEvaluator => "function"
  | expression _ => "Expression"
where
  builtinTypeName : Builtin → String
    | .sum | .mean | .min | .max | .ifelse | .rep => "_ArrayFunctionDispatcher"
    | .array => "builtin_function_or_method"
    | .c | .cbind | .length => "function"
    | .pnorm | .qnorm | .dnorm => "method"
    | _ => "ufunc"

def plain : Value F → Value F
  | cell _ v => v
  | v => v

def isCallable : Value F → Bool
  | function _ => true
  | _ => false

/-- The number of rows: the first extent of a shape, the length of a list, and one otherwise. -/
def rows : Value F → Nat
  | array _ (n :: _) _ => n
  | series index _ _ => index.length
  | table index _ => index.length
  | sparse n _ _ => n
  | list items | tuple items => items.length
  | _ => 1

end Value

namespace Grid

variable {F : Type}

def scalar (kind : Kind) (v : Value F) : Grid F := ⟨kind, [], [v]⟩

def vector (kind : Kind) (cells : List (Value F)) : Grid F := ⟨kind, [cells.length], cells⟩

def ofFloats (xs : List F) : Grid F := vector .double (xs.map .float)

def ofBools (bs : List Bool) : Grid F := vector .bool (bs.map .bool)

def ofInts (ns : List Int) : Grid F := vector .int64 (ns.map .int)

def gather (cells : List (Value F)) (offsets : List Nat) : List (Value F) :=
  let store := cells.toArray
  offsets.map fun o => store.getD o .null

def stretch (g : Grid F) (shape : List Nat) : List (Value F) :=
  if g.shape == shape then g.cells
  else gather g.cells (Shape.offsets (Shape.stretched g.shape shape))

/-- The element at each row-major position, one sub-array per step of the first axis. -/
def slabs (g : Grid F) : List (List (Value F)) :=
  match g.shape with
  | [] => []
  | n :: rest =>
    let size := Shape.count rest
    (List.range n).map fun i => (g.cells.drop (i * size)).take size

/-- The transposed matrix; other shapes reverse their axes as well. -/
def transpose (g : Grid F) : Grid F :=
  let axes := (g.shape.zip (Shape.strides g.shape)).reverse
  ⟨g.kind, g.shape.reverse, gather g.cells (Shape.offsets axes)⟩

end Grid

end AdditiveModel
