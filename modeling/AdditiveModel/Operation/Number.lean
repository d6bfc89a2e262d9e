import AdditiveModel.Real.Scalar

/-!
Operations on single numbers that are more than one step of `Scalar`: division with a floored
quotient, powers, complex numbers, and comparisons between integers and reals, which are exact.
-/

namespace AdditiveModel.Number

variable {F : Type} [Scalar F]

open Scalar

/-- The floor of a real number as a real number; values that are not finite stay. -/
def floor (x : F) : F :=
  match floor? x with
  | some n => if isZero x then x else ofInt n
  | none => x

def withSignOf (magnitude sign : F) : F := if signed sign then -(abs magnitude) else abs magnitude

/-- The floored quotient and its remainder, for a divisor that is not zero. -/
def divMod (a b : F) : F × F :=
  let r := remainder a b
  let q := (a - r) / b
  let (q, r) :=
    if isZero r then (q, withSignOf zero b)
    else if lt b zero != lt r zero then (q - one, r + b)
    else (q, r)
  if isZero q then (withSignOf zero (a / b), r)
  else
    let f := floor q
    (if lt (ofRatio 1 2) (q - f) then f + one else f, r)

def floorDiv (a b : F) : F := if isZero b then a / b else (divMod a b).1

/-- The remainder with the sign of the divisor; division by zero is not caught. -/
def floorMod (a b : F) : F := if isZero b then remainder a b else (divMod a b).2

def isIntegral (x : F) : Bool :=
  match floor? x with
  | some n => eq x (ofInt n)
  | none => false

def intEq (n : Int) (x : F) : Bool := isIntegral x && floor? x == some n

def intLt (n : Int) (x : F) : Bool :=
  match floor? x with
  | some m => n < m || (n == m && !isIntegral x)
  | none => lt zero x

def ltInt (x : F) (n : Int) : Bool :=
  match floor? x with
  | some m => m < n
  | none => lt x zero

abbrev Pair (F : Type) := F × F

def addPair (a b : Pair F) : Pair F := (a.1 + b.1, a.2 + b.2)

def subPair (a b : Pair F) : Pair F := (a.1 - b.1, a.2 - b.2)

def mulPair (a b : Pair F) : Pair F := (a.1 * b.1 - a.2 * b.2, a.1 * b.2 + a.2 * b.1)

def divPair (a b : Pair F) : Pair F :=
  if le (abs b.2) (abs b.1) then
    let ratio := b.2 / b.1
    let denominator := b.1 + b.2 * ratio
    ((a.1 + a.2 * ratio) / denominator, (a.2 - a.1 * ratio) / denominator)
  else
    let ratio := b.1 / b.2
    let denominator := b.1 * ratio + b.2
    ((a.1 * ratio + a.2) / denominator, (a.2 * ratio - a.1) / denominator)

def isZeroPair (a : Pair F) : Bool := isZero a.1 && isZero a.2

def isInfinite (x : F) : Bool := !isFinite x && !isNaN x

def modulus (a : Pair F) : F :=
  if isInfinite a.1 || isInfinite a.2 then infinity
  else if isZero a.1 then abs a.2
  else if isZero a.2 then abs a.1
  else
    let (small, large) :=
      if lt (abs a.1) (abs a.2) then (abs a.1, abs a.2) else (abs a.2, abs a.1)
    let ratio := small / large
    large * sqrt (one + ratio * ratio)

/-- A power with a natural exponent, by squaring. The fuel is the exponent. -/
def powNat (square : Pair F) (acc : Pair F) : Nat → Nat → Pair F
  | 0, _ | _, 0 => acc
  | fuel + 1, n =>
    let acc := if n % 2 == 1 then mulPair acc square else acc
    powNat (mulPair square square) acc fuel (n / 2)

def multipliedOut : Nat := 100

/-- The exponent as an integer, where the power is multiplied out. -/
def smallExponent? (b : Pair F) : Option Int :=
  let whole := if isZero b.2 && isIntegral b.1 then floor? b.1 else none
  whole.filter fun n => n.natAbs ≤ multipliedOut

def powPhase (a b : Pair F) : F :=
  let phase := Scalar.angle a.2 a.1 * b.1
  if isZero b.2 then phase else phase + b.2 * log (modulus a)

/-- A power of a number that is not zero, by its size and its angle. -/
def powPolar (a b : Pair F) : Pair F :=
  let length := pow (modulus a) b.1
  let length := if isZero b.2 then length else length / exp (Scalar.angle a.2 a.1 * b.2)
  let phase := powPhase a b
  (length * cos phase, length * sin phase)

/-- A complex power; none for zero to a power that is not a nonnegative real. -/
def powPair? (a b : Pair F) : Option (Pair F) :=
  if isZeroPair b then some (one, zero)
  else
    match smallExponent? b with
    | some n =>
      let p := powNat a (one, zero) n.natAbs n.natAbs
      if n < 0 then if isZeroPair p then none else some (divPair (one, zero) p) else some p
    | none =>
      if isZeroPair a then if isZero b.2 && lt zero b.1 then some (zero, zero) else none
      else some (powPolar a b)

end AdditiveModel.Number
