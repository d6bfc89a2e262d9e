/-!
Decimal digits of exact positive quotients: rounding to a number of significant digits, a half to
the even neighbour, and the two neighbours of a quotient on a decimal grid.
-/

namespace AdditiveModel.Real.Digits

/-- The quotient rounded to the nearest integer, a half to the even one. -/
def roundDiv (num den : Nat) : Nat :=
  let q := num / den
  let r := num % den
  if 2 * r < den then q
  else if den < 2 * r then q + 1
  else if q % 2 = 0 then q else q + 1

def scale (num den : Nat) (power : Int) : Nat × Nat :=
  if power < 0 then (num, den * Nat.pow 10 power.natAbs) else (num * Nat.pow 10 power.toNat, den)

def width (n : Nat) : Nat := (Nat.toDigits 10 n).length

/-- The exponent `k` with `10 ^ k ≤ num / den < 10 ^ (k + 1)`, for a positive quotient. -/
def magnitude (num den : Nat) : Int :=
  let guess : Int := (width num : Int) - (width den : Int)
  let (n, d) := scale num den (-guess)
  if n < d then guess - 1 else guess

/-- The `digits` leading digits as an integer, and the power of ten of the first one. -/
def leading (num den digits : Nat) : Nat × Int :=
  let k := magnitude num den
  let (n, d) := scale num den ((digits : Int) - 1 - k)
  let q := roundDiv n d
  if q = Nat.pow 10 digits then (Nat.pow 10 (digits - 1), k + 1) else (q, k)

/-- The two neighbours of the quotient among the integers with `digits` leading digits, the nearer
first, with the power of ten of the first digit of the lower one. -/
def neighbours (num den digits : Nat) : List Nat × Int :=
  let k := magnitude num den
  let (n, d) := scale num den ((digits : Int) - 1 - k)
  let q := n / d
  if roundDiv n d = q then ([q, q + 1], k) else ([q + 1, q], k)

def text (n : Nat) : List Char := Nat.toDigits 10 n

def dropTrailingZeros (cs : List Char) : List Char :=
  (cs.reverse.dropWhile (· == '0')).reverse

def exponentText (k : Int) : List Char :=
  let ds := text k.natAbs
  'e' :: (if k < 0 then '-' else '+') :: (if ds.length < 2 then '0' :: ds else ds)

def pointed : List Char → List Char
  | [] => []
  | [c] => [c]
  | c :: cs => c :: '.' :: cs

/-- Positional notation of digits whose first one has the power `k`. -/
def positional (ds : List Char) (k : Int) : List Char :=
  if k < 0 then '0' :: '.' :: (List.replicate (k.natAbs - 1) '0' ++ ds)
  else
    let whole := k.toNat + 1
    if ds.length ≤ whole then ds ++ List.replicate (whole - ds.length) '0'
    else ds.take whole ++ '.' :: ds.drop whole

end AdditiveModel.Real.Digits
