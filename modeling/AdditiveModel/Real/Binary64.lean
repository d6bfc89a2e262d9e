import AdditiveModel.Real.Digits
import AdditiveModel.Real.Scalar

/-!
Binary64 numbers as exact dyadic quotients: decoding, correctly rounded encoding, remainders,
rounding to narrower storage, and decimal text.
-/

namespace AdditiveModel.Real.Binary64

open AdditiveModel.Real

/-- A finite number is `(-1) ^ negative * mantissa * 2 ^ exponent`. -/
structure Dyadic where
  negative : Bool
  mantissa : Nat
  exponent : Int
  deriving Repr, Inhabited

def isInfinite (x : Float) : Bool := x.isInf

/-- The exact value; none for an infinity or a value that is no number. -/
def decode? (x : Float) : Option Dyadic :=
  let bits := x.toBits.toNat
  let e := bits / Nat.pow 2 52 % Nat.pow 2 11
  let f := bits % Nat.pow 2 52
  let negative := decide (Nat.pow 2 63 ≤ bits)
  if e = 2047 then none
  else if e = 0 then some ⟨negative, f, -1074⟩
  else some ⟨negative, f + Nat.pow 2 52, (Int.ofNat e) - 1075⟩

def positiveInfinity : Float := Float.ofBits 0x7ff0000000000000

def notANumber : Float := Float.ofBits 0x7ff8000000000000

def withSign (negative : Bool) (x : Float) : Float := if negative then -x else x

/-- A positive quotient rounded to `digits` binary digits with least exponent `least`, a half to
the even neighbour: mantissa and exponent. -/
def roundBinary (digits : Nat) (least : Int) (num den : Nat) : Nat × Int :=
  let guess : Int := (num.log2 : Int) - (den.log2 : Int) - (digits : Int)
  let at_ (e : Int) : Nat × Nat :=
    if e < 0 then (num * Nat.pow 2 e.natAbs, den) else (num, den * Nat.pow 2 e.toNat)
  let (n, d) := at_ guess
  -- The quotient at `guess` has `digits` or `digits + 1` binary digits.
  let e := max least (if n / d < Nat.pow 2 digits then guess else guess + 1)
  let (n, d) := at_ e
  (Digits.roundDiv n d, e)

/-- Encodes `mantissa * 2 ^ exponent`, which must have at most 53 binary digits and an exponent of at
least -1074; what is too large becomes an infinity. -/
def encode (mantissa : Nat) (exponent : Int) : Float :=
  if mantissa = 0 then 0
  else
    let (m, e) := if mantissa = Nat.pow 2 53 then (Nat.pow 2 52, exponent + 1) else (mantissa, exponent)
    -- Normalise so that the leading digit stands at position 52 where the exponent allows it.
    let up := min (52 - m.log2) (e + 1074).toNat
    let m := m * Nat.pow 2 up
    let e := e - up
    if 971 < e then positiveInfinity
    else if m < Nat.pow 2 52 then Float.ofBits (UInt64.ofNat m)
    else Float.ofBits (UInt64.ofNat (m - Nat.pow 2 52 + (e + 1075).toNat * Nat.pow 2 52))

/-- The number nearest to a quotient of naturals, a half to the even one. -/
def ofRatioNat (num den : Nat) : Float :=
  if num = 0 then 0
  else if den = 0 then positiveInfinity
  else
    let (m, e) := roundBinary 53 (-1074) num den
    encode m e

def ofRatio (num : Int) (den : Nat) : Float := withSign (decide (num < 0)) (ofRatioNat num.natAbs den)

def ofInt (n : Int) : Float := ofRatio n 1

/-- The number nearest to `mantissa * 10 ^ exponent`; exponents far out of range are not expanded. -/
def ofDecimal (mantissa exponent : Int) : Float :=
  let m := mantissa.natAbs
  let negative := decide (mantissa < 0)
  if m = 0 then 0
  else if 400 < (Digits.width m : Int) + exponent then withSign negative positiveInfinity
  else if (Digits.width m : Int) + exponent < -400 then withSign negative 0
  else if exponent < 0 then withSign negative (ofRatioNat m (Nat.pow 10 exponent.natAbs))
  else withSign negative (ofRatioNat (m * Nat.pow 10 exponent.toNat) 1)

def Dyadic.ratio (d : Dyadic) : Nat × Nat :=
  if d.exponent < 0 then (d.mantissa, Nat.pow 2 d.exponent.natAbs)
  else (d.mantissa * Nat.pow 2 d.exponent.toNat, 1)

def floor? (x : Float) : Option Int :=
  (decode? x).map fun d =>
    let (n, k) := d.ratio
    if d.negative then -(((n + k - 1) / k : Nat) : Int) else ((n / k : Nat) : Int)

def remainder (x y : Float) : Float :=
  match decode? x, decode? y with
  | some a, some b =>
    if b.mantissa = 0 then notANumber
    else
      let e := min a.exponent b.exponent
      let units (d : Dyadic) : Nat := d.mantissa * Nat.pow 2 (d.exponent - e).toNat
      withSign a.negative (encode (units a % units b) e)
  | some _, none => if y.isNaN then notANumber else x
  | none, _ => notANumber

/-- Rounds to a binary format with `digits` digits, least exponent `least` and greatest exponent
`greatest`. -/
def narrow (digits : Nat) (least greatest : Int) (x : Float) : Float :=
  match decode? x with
  | none => x
  | some d =>
    if d.mantissa = 0 then x
    else
      let (n, k) := d.ratio
      let (m, e) := roundBinary digits least n k
      if greatest < e + (m.log2 : Int) then withSign d.negative positiveInfinity
      else withSign d.negative (ofRatioNat (if e < 0 then m else m * Nat.pow 2 e.toNat)
        (if e < 0 then Nat.pow 2 e.natAbs else 1))

def round : Precision → Float → Float
  | .half, x => narrow 11 (-24) 15 x
  | .single, x => narrow 24 (-149) 127 x
  | .double, x => x

def exceptionalText (x : Float) : String :=
  if x.isNaN then "nan" else if x < 0 then "-inf" else "inf"

/-- The fewest digits that read back, with the power of ten of the first one; for a positive value.
Of two candidates of one length the nearer wins. -/
def shortestDigits (num den : Nat) (x : Float) : List Char × Int :=
  let candidate (digits : Nat) : Option (Nat × Int) :=
    let (qs, k) := Digits.neighbours num den digits
    let low : Int := k + 1 - digits
    (qs.find? fun q => (ofDecimal (Int.ofNat q) low).toBits == x.toBits).map (·, low)
  let (q, low) := ((List.range 17).findSome? fun i => candidate (i + 1)).getD
    (let (q, k) := Digits.leading num den 17; (q, k - 16))
  let ds := Digits.text q
  (Digits.dropTrailingZeros ds, low + ds.length - 1)

/-- The shortest text that reads back: positional for exponents from -4 up to 15, with a point in
every case. -/
def text (x : Float) : String :=
  match decode? x with
  | none => exceptionalText x
  | some d =>
    let body :=
      if d.mantissa = 0 then "0.0".toList
      else
        let (n, k) := d.ratio
        let (ds, p) := shortestDigits n k x.abs
        if -4 ≤ p ∧ p < 16 then
          let cs := Digits.positional ds p
          if cs.contains '.' then cs else cs ++ ['.', '0']
        else Digits.pointed ds ++ Digits.exponentText p
    String.ofList (if d.negative then '-' :: body else body)

/-- Scientific notation with `digits` significant digits, correctly rounded from the exact value. -/
def scientific (digits : Nat) (x : Float) : String :=
  match decode? x with
  | none => exceptionalText x
  | some d =>
    let body :=
      if d.mantissa = 0 then Digits.pointed (List.replicate digits '0') ++ Digits.exponentText 0
      else
        let (n, k) := d.ratio
        let (q, p) := Digits.leading n k digits
        Digits.pointed (Digits.text q) ++ Digits.exponentText p
    String.ofList (if d.negative then '-' :: body else body)

/-- Six significant digits without trailing zeros: positional for exponents from -4 up to 5. -/
def brief (x : Float) : String :=
  match decode? x with
  | none => exceptionalText x
  | some d =>
    let body :=
      if d.mantissa = 0 then ['0']
      else
        let (n, k) := d.ratio
        let (q, p) := Digits.leading n k 6
        let ds := Digits.dropTrailingZeros (Digits.text q)
        if -4 ≤ p ∧ p < 6 then Digits.positional ds p
        else Digits.pointed ds ++ Digits.exponentText p
    String.ofList (if d.negative then '-' :: body else body)

end AdditiveModel.Real.Binary64
