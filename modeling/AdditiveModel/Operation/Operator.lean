import AdditiveModel.Operation.Labelled
import AdditiveModel.Operation.Matrix

/-!
The operators of the expression language. Plain values follow plain arithmetic; as soon as an array,
an element of one or labelled data takes part, the operation is elementwise.
-/

namespace AdditiveModel.Operator

variable {F : Type} [Scalar F]

open Value

def isArrayed : Value F → Bool
  | cell _ _ | array .. | series .. | table .. | sparse .. => true
  | _ => false

/-- Whether a value is a list or an array for a product of matrices. -/
def isOperandOfProduct : Value F → Bool
  | array .. | series .. | table .. => true
  | _ => false

def repetition? (a b : Value F) : Option (Except Fault (Value F)) :=
  if Plain.isSequence a then times a b else if Plain.isSequence b then times b a else none
where
  times (v count : Value F) : Option (Except Fault (Value F)) :=
    match count with
    | cell .bool _ => some (.error .type)
    | cell _ (int n) => some (Plain.repeatSequence? v n)
    | cell _ _ => some (.error .type)
    | _ => none

/-- Whether an operation is the square root of an array of real numbers. -/
def isSquareRoot (op : BinaryOp) (a b : Value F) : Bool :=
  match op, a, b with
  | .pow, array kind _ _, float y | .pow, series _ kind _, float y =>
    kind.isReal && Scalar.eq y (Scalar.ofRatio 1 2)
  | _, _, _ => false

def squareRoot? (a : Value F) : Except Fault (Grid F) := do
  let g ← Grid.ofValue a
  Pointwise.function? Scalar.sqrt (fun _ => none) g

def elementwise? (op : BinaryOp) (a b : Value F) : Except Fault (Grid F) :=
  if isSquareRoot op a b then squareRoot? a else Pointwise.binary? op a b

def binary? (op : BinaryOp) (a b : Value F) : Except Fault (Value F) :=
  match op, a, b with
  | .mod, str s, b => Plain.fillText? s b
  | .matMul, a, b =>
    if isOperandOfProduct a || isOperandOfProduct b then do
      return ofResult (← Matrix.product? (← Grid.ofValue a) (← Grid.ofValue b))
    else .error .type
  | _, .complex _ _, cell .double (float y) => Plain.binary? op a (float y)
  | _, _, _ =>
    if Labelled.isLabelled a || Labelled.isLabelled b then
      Labelled.zip? true (fun x y =>
        if isSquareRoot op x y then squareRoot? x else Labelled.columnOp? op x y) a b
    else if isArrayed a || isArrayed b then
      match op == .mul, repetition? a b with
      | true, some result => result
      | _, _ => (elementwise? op a b).map ofResult
    else Plain.binary? op a b

def unary? (op : UnaryOp) (v : Value F) : Except Fault (Value F) :=
  if Labelled.isLabelled v then Labelled.map? (Pointwise.unary? op) v
  else if op == .not || isArrayed v then do
    return ofResult (← Pointwise.unary? op (← Grid.ofValue v))
  else Plain.unary? op v

def compare? (op : Comparison) (a b : Value F) : Except Fault (Value F) :=
  if Labelled.isLabelled a || Labelled.isLabelled b then
    Labelled.zip? false (Pointwise.compare? op) a b
  else if isArrayed a || isArrayed b then (Pointwise.compare? op a b).map ofResult
  else (Value.compare? op a b).map .bool

def both? (a b : Value F) : Except Fault (Value F) := do
  let join (x y : Value F) : Except Fault (Grid F) := do
    Pointwise.both? (← Grid.ofValue x) (← Grid.ofValue y)
  if Labelled.isLabelled a || Labelled.isLabelled b then Labelled.zip? true join a b
  else return ofResult (← join a b)

end AdditiveModel.Operator
