/-!
Expressions of the restricted language: literals, names, arithmetic, comparison chains, subscripts
and calls of named functions. Every tree of this type can be evaluated; what a text may contain
besides is in `Expr.Surface`.
-/

namespace AdditiveModel

/-- Constants as written; number texts are kept exactly. -/
inductive Literal where
  | null
  | bool (value : Bool)
  | int (value : Nat)
  /-- The number `mantissa * 10 ^ exponent`. -/
  | decimal (mantissa : Nat) (exponent : Int)
  | imaginary (mantissa : Nat) (exponent : Int)
  | str (value : String)
  | bytes (octets : List UInt8)
  | ellipsis
  deriving DecidableEq, Repr, Inhabited

inductive BinaryOp where
  | add | sub | mul | matMul | div | floorDiv | mod | pow | bitAnd | bitOr
  deriving DecidableEq, Repr, Inhabited

inductive UnaryOp where
  | neg | pos | not | invert
  deriving DecidableEq, Repr, Inhabited

inductive Comparison where
  | eq | ne | lt | le | gt | ge
  deriving DecidableEq, Repr, Inhabited

/-- A keyword argument without a name stands for an unpacked table. -/
inductive Expr where
  | literal (value : Literal)
  | name (name : String)
  | tuple (items : List Expr)
  | list (items : List Expr)
  | binary (op : BinaryOp) (left right : Expr)
  | unary (op : UnaryOp) (operand : Expr)
  | compare (first : Expr) (rest : List (Comparison × Expr))
  | subscript (value index : Expr)
  | slice (lower upper step : Option Expr)
  | call (function : String) (args : List Expr) (keywords : List (Option String × Expr))
  deriving Repr, Inhabited

namespace Expr

mutual

/-- The names that an expression refers to, called functions included, in order of appearance. -/
def names : Expr → List String
  | literal _ => []
  | name x => [x]
  | tuple items | list items => namesOfList items
  | binary _ left right => names left ++ names right
  | unary _ operand => names operand
  | compare first rest => names first ++ namesOfRest rest
  | subscript value index => names value ++ names index
  | slice lower upper step => namesOfOption lower ++ namesOfOption upper ++ namesOfOption step
  | call function args keywords => function :: (namesOfList args ++ namesOfKeywords keywords)

def namesOfList : List Expr → List String
  | [] => []
  | e :: es => names e ++ namesOfList es

def namesOfRest : List (Comparison × Expr) → List String
  | [] => []
  | (_, e) :: es => names e ++ namesOfRest es

def namesOfKeywords : List (Option String × Expr) → List String
  | [] => []
  | (_, e) :: es => names e ++ namesOfKeywords es

def namesOfOption : Option Expr → List String
  | none => []
  | some e => names e

end

end Expr

end AdditiveModel
