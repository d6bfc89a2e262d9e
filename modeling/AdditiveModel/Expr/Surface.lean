import AdditiveModel.Expr.Basic
import AdditiveModel.Error

/-!
What a text can be read as before it is checked: the restricted language, and a leaf for each
construct that the language leaves out. `Surface.toExpr?` keeps exactly the trees without such a
leaf whose calls all call a name, and `Surface.refusal?` finds the first offence, level by level.
-/

namespace AdditiveModel

/-- A tree as read. The foreign constructs are leaves, because nothing below one is ever looked at. -/
inductive Surface where
  | literal (value : Literal)
  | name (name : String)
  | tuple (items : List Surface)
  | list (items : List Surface)
  | binary (op : BinaryOp) (left right : Surface)
  /-- A binary operation whose operator is foreign. -/
  | strange (left : Surface) (operator : String) (right : Surface)
  | unary (op : UnaryOp) (operand : Surface)
  /-- A comparison chain; an operator that is not one of the six is kept by name. -/
  | compare (first : Surface) (rest : List (Except String Comparison × Surface))
  | subscript (value index : Surface)
  | slice (lower upper step : Option Surface)
  | call (function : Surface) (args : List Surface) (keywords : List (Option String × Surface))
  /-- The node around the value of a keyword argument. -/
  | argument (value : Surface)
  | foreign (construct : String)
  deriving Inhabited

namespace Surface

inductive Refusal where
  | unsupported (construct : String)
  | callee
  deriving DecidableEq, Repr

def Refusal.error (text : String) : Refusal → Error
  | unsupported construct => .unsupported construct text
  | callee => .callee text

def ofOperator : Except String Comparison → Option Surface
  | .error construct => some (foreign construct)
  | .ok _ => none

/-- The nodes directly below a node, operators that are foreign included. -/
def children : Surface → List Surface
  | literal _ | name _ | foreign _ => []
  | tuple items | list items => items
  | binary _ left right => [left, right]
  | strange left operator right => [left, foreign operator, right]
  | unary _ operand => [operand]
  | compare first rest => first :: (rest.filterMap (ofOperator ·.1) ++ rest.map (·.2))
  | subscript value index => [value, index]
  | slice lower upper step => lower.toList ++ upper.toList ++ step.toList
  | call function args keywords => function :: (args ++ keywords.map (argument ·.2))
  | argument value => [value]

def offence? : Surface → Option Refusal
  | foreign construct => some (.unsupported construct)
  | call (name _) _ _ => none
  | call _ _ _ => some .callee
  | _ => none

mutual

def depth : Surface → Nat
  | literal _ | name _ | foreign _ => 1
  | tuple items | list items => 1 + depthOfList items
  | binary _ left right => 1 + max (depth left) (depth right)
  | strange left _ right => 1 + max 1 (max (depth left) (depth right))
  | unary _ operand => 1 + depth operand
  | compare first rest => 1 + max 1 (max (depth first) (depthOfRest rest))
  | subscript value index => 1 + max (depth value) (depth index)
  | slice lower upper step =>
    1 + max (depthOfOption lower) (max (depthOfOption upper) (depthOfOption step))
  | call function args keywords =>
    1 + max (depth function) (max (depthOfList args) (1 + depthOfKeywords keywords))
  | argument value => 1 + depth value

def depthOfList : List Surface → Nat
  | [] => 0
  | s :: rest => max (depth s) (depthOfList rest)

def depthOfRest : List (Except String Comparison × Surface) → Nat
  | [] => 0
  | (_, s) :: rest => max (depth s) (depthOfRest rest)

def depthOfKeywords : List (Option String × Surface) → Nat
  | [] => 0
  | (_, s) :: rest => max (depth s) (depthOfKeywords rest)

def depthOfOption : Option Surface → Nat
  | none => 0
  | some s => depth s

end

/-- The first offence in the given levels, each level from left to right before the next. -/
def refusalFrom : Nat → List Surface → Option Refusal
  | 0, _ => none
  | levels + 1, nodes =>
    match nodes.findSome? offence? with
    | some refusal => some refusal
    | none => refusalFrom levels (nodes.flatMap children)

def refusal? (s : Surface) : Option Refusal := refusalFrom s.depth [s]

mutual

def toExpr? : Surface → Option Expr
  | literal value => some (.literal value)
  | name x => some (.name x)
  | tuple items => (listToExpr? items).map .tuple
  | list items => (listToExpr? items).map .list
  | binary op left right => do return .binary op (← toExpr? left) (← toExpr? right)
  | unary op operand => (toExpr? operand).map (.unary op)
  | compare first rest => do return .compare (← toExpr? first) (← restToExpr? rest)
  | subscript value index => do return .subscript (← toExpr? value) (← toExpr? index)
  | slice lower upper step => do
    return .slice (← optionToExpr? lower) (← optionToExpr? upper) (← optionToExpr? step)
  | call (name f) args keywords => do
    return .call f (← listToExpr? args) (← keywordsToExpr? keywords)
  | argument value => toExpr? value
  | strange _ _ _ | call _ _ _ | foreign _ => none

def listToExpr? : List Surface → Option (List Expr)
  | [] => some []
  | s :: rest => do return (← toExpr? s) :: (← listToExpr? rest)

def restToExpr? : List (Except String Comparison × Surface) → Option (List (Comparison × Expr))
  | [] => some []
  | (.ok op, s) :: rest => do return (op, ← toExpr? s) :: (← restToExpr? rest)
  | (.error _, _) :: _ => none

def keywordsToExpr? : List (Option String × Surface) → Option (List (Option String × Expr))
  | [] => some []
  | (x, s) :: rest => do return (x, ← toExpr? s) :: (← keywordsToExpr? rest)

def optionToExpr? : Option Surface → Option (Option Expr)
  | none => some none
  | some s => do return some (← toExpr? s)

end

end Surface

end AdditiveModel
