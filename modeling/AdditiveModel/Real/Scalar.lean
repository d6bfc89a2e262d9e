/-!
Real arithmetic as the library uses it. Everything that computes with numbers is written over
`Scalar F`: binary64 runs (`Real.Binary64`), and a statement about exact arithmetic takes an exact
`F` instead.
-/

namespace AdditiveModel

/-- Storage precisions that an intermediate result can be rounded to. -/
inductive Precision where
  | half
  | single
  | double
  deriving DecidableEq, Repr, Inhabited

/-- The number operations of the library. Comparisons are Boolean, so an `F` may have values that
are not ordered. -/
class Scalar (F : Type) extends Add F, Sub F, Mul F, Div F, Neg F where
  /-- The nearest representable value of an integer. -/
  ofInt : Int → F
  /-- The nearest representable value of a quotient of integers. -/
  ofRatio : Int → Nat → F
  /-- The nearest representable value of `mantissa * 10 ^ exponent`. -/
  ofDecimal : Int → Int → F
  nan : F
  infinity : F
  isNaN : F → Bool
  eq : F → F → Bool
  /-- Whether two values that are no numbers are one object. The copies of a value are, and what two
  computations give is not. -/
  identical : F → F → Bool := fun _ _ => false
  lt : F → F → Bool
  le : F → F → Bool
  /-- Whether the sign is negative; a negative zero counts. -/
  signed : F → Bool
  /-- The greatest integer that is not above the value; none for a value that is not finite. -/
  floor? : F → Option Int
  /-- The remainder of the division truncated toward zero. -/
  remainder : F → F → F
  sqrt : F → F
  pow : F → F → F
  exp : F → F
  expm1 : F → F
  log : F → F
  log1p : F → F
  sin : F → F
  cos : F → F
  tan : F → F
  /-- The angle of the point with the given ordinate and abscissa. -/
  angle : F → F → F
  erf : F → F
  /-- The standard normal distribution function. -/
  normalCdf : F → F
  /-- The standard normal quantile function. -/
  normalQuantile : F → F
  /-- The standard normal density. -/
  normalDensity : F → F
  logistic : F → F
  logit : F → F
  /-- Rounds to a storage precision. -/
  round : Precision → F → F
  /-- The shortest decimal text that reads back. -/
  text : F → String
  /-- Scientific notation with the given number of significant digits. -/
  scientific : Nat → F → String
  /-- At most six significant digits, without trailing zeros. -/
  brief : F → String

namespace Scalar

variable {F : Type} [Scalar F]

def zero : F := ofInt 0

def one : F := ofInt 1

instance : Inhabited F := ⟨zero⟩

def isFinite (x : F) : Bool := (floor? x).isSome

def isZero (x : F) : Bool := eq x zero

def renew (x : F) : F := if isNaN x then nan else x

def abs (x : F) : F := if signed x then -x else x

def truncate? (x : F) : Option Int :=
  if signed x then (floor? (-x)).map (- ·) else floor? x

def sum (xs : List F) : F := xs.foldl (· + ·) zero

def dot (xs ys : List F) : F := sum (List.zipWith (· * ·) xs ys)

end Scalar

end AdditiveModel
