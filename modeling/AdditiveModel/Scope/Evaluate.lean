import AdditiveModel.Operation.Subscript
import AdditiveModel.Scope.Data

/-!
The meaning of expressions: operands and arguments from left to right, each exactly once. What a call
does is a parameter, so that the same evaluation serves functions without effects and evaluators that
draw random numbers. A failed operation is reported with the text of the expression.
-/

namespace AdditiveModel

variable {F : Type} [Scalar F] {m : Type → Type} [Monad m] [MonadExceptOf Error m]

def Literal.value : Literal → Value F
  | .null => .null
  | .bool b => .bool b
  | .int n => .int n
  | .decimal mantissa exponent => .float (Scalar.ofDecimal mantissa exponent)
  | .imaginary mantissa exponent => .complex Scalar.zero (Scalar.ofDecimal mantissa exponent)
  | .str s => .str s
  | .bytes octets => .bytes octets
  | .ellipsis => .ellipsis

namespace Expr

structure Meaning (m : Type → Type) (F : Type) where
  lookup : String → m (Value F)
  call : Value F → Arguments F → m (Value F)

variable (I : Meaning m F)

mutual

def evaluate : Expr → m (Value F)
  | literal v => pure v.value
  | name x => I.lookup x
  | tuple items => do return .tuple (← evaluateAll items)
  | list items => do return .list (← evaluateAll items)
  | binary op left right => do
    let a ← evaluate left
    let b ← evaluate right
    lift (Operator.binary? op a b)
  | unary op operand => do
    let a ← evaluate operand
    lift (Operator.unary? op a)
  | compare first rest => do
    let a ← evaluate first
    evaluateChain (.bool true) a rest
  | subscript value index => do
    let v ← evaluate value
    let k ← evaluate index
    lift (Subscript.value? v k)
  | slice lower upper step => do
    let a ← evaluateOption lower
    let b ← evaluateOption upper
    let c ← evaluateOption step
    return .slice a b c
  | call f args keywords => do
    let g ← I.lookup f
    if !g.isCallable then throw (Error.notCallable f)
    let vs ← evaluateAll args
    let ks ← evaluateKeywords [] keywords
    I.call g ⟨vs, ks⟩

def evaluateAll : List Expr → m (List (Value F))
  | [] => pure []
  | e :: es => do
    let v ← evaluate e
    return v :: (← evaluateAll es)

/-- The rest of a comparison chain after the value `left`; `result` holds the comparisons so far. -/
def evaluateChain (result left : Value F) : List (Comparison × Expr) → m (Value F)
  | [] => pure result
  | (op, e) :: rest => do
    let right ← evaluate e
    let holds ← lift (Operator.compare? op left right)
    let result ← lift (Operator.both? result holds)
    evaluateChain result right rest

def evaluateKeywords (done : List (Option String × Value F)) :
    List (Option String × Expr) → m (List (Option String × Value F))
  | [] => pure done
  | (k, e) :: rest => do
    let v ← evaluate e
    evaluateKeywords (Arguments.setKeyword done k v) rest

def evaluateOption : Option Expr → m (Value F)
  | none => pure .null
  | some e => evaluate e

end

end Expr

namespace Expression

/-- Evaluates an expression. A failure that is no evaluation error yet becomes one. -/
def evaluateWith (I : Expr.Meaning m F) (e : Expression) : m (Value F) :=
  tryCatchThe Error (e.tree.evaluate I) fun err =>
    match err.category with
    | .evaluation => throw err
    | _ => throw (Error.failed e.text err)

end Expression

namespace Expression

/-- The expression that a value gives: itself, or the one that its text stands for. -/
def ofValue {F : Type} : Value F → Except Error Expression
  | .expression e => .ok e
  | .str s => ofText s
  | v => .error (.notExpression v.typeName)

end Expression

namespace Callable

/-- Calls nested deeper than this fail. An interpreter has room for about a thousand frames, and a call
of a formula takes eight: the call, the evaluation, and the nodes on the way to the next call. -/
def deepest : Nat := 120

/-- The names of a scope, with the given meaning of calls of functions. -/
def inScope (scope : Scope F) (apply : Callable → Arguments F → m (Value F)) : Expr.Meaning m F where
  lookup x := liftError (scope.lookup x)
  call g a :=
    match g with
    | .function f => apply f a
    | _ => throw (Error.fault .type)

def formulaScope (x s : Value F) : Scope F :=
  Scope.ofSymbols (Scope.functions ++ [("x", x), ("s", s)])

/-- The value of a call. `evaluator` answers calls of component evaluators. -/
def applyWith (evaluator : String → Arguments F → m (Value F)) :
    Nat → Callable → Arguments F → m (Value F)
  | 0, _, _ => throw (Error.fault .recursion)
  | depth + 1, f, a =>
    match f, a.args, a.keywords with
    | builtin f, _, _ => lift (f.call? a)
    | formula body _, [x, s], [] =>
      body.evaluateWith (inScope (formulaScope x s) (applyWith evaluator depth))
    | ofData body _, [data], [] => do
      body.evaluateWith (inScope (← lift (Data.scope? data)) (applyWith evaluator depth))
    | .evaluator label, _, _ => evaluator label a
    | genericEvaluator, _, _ => throw Error.genericEvaluator
    | _, _, _ => throw (Error.fault .type)

def ownName? : Callable → Option String
  | builtin f => some f.ownName
  | formula _ name | ofData _ name => name
  | .evaluator _ => none
  | genericEvaluator => some "component_eval"

def apply (f : Callable) (a : Arguments F) : Except Error (Value F) :=
  applyWith (fun _ _ => throw (Error.fault .type)) deepest f a

end Callable

namespace Scope

def meaning (s : Scope F) : Expr.Meaning (Except Error) F := Callable.inScope s Callable.apply

end Scope

namespace Expression

def evaluate (e : Expression) (scope : Scope F) : Except Error (Value F) :=
  e.evaluateWith scope.meaning

end Expression

end AdditiveModel
