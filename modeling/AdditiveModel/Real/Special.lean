import AdditiveModel.Real.Binary64

/-!
Special functions on binary64: exponential and logarithm near one, the error function and the
standard normal distribution. Each is a piecewise rational approximation or an identity that avoids
cancellation, good to a few units in the last place.
-/

namespace AdditiveModel.Real.Special

def polynomial (coefficients : List Float) (x : Float) : Float :=
  coefficients.foldr (fun c acc => c + x * acc) 0

def expm1 (x : Float) : Float :=
  let u := Float.exp x
  if x.isNaN || u.isInf then u
  else if u == 1 then x
  else if u - 1 == -1 then -1
  else (u - 1) * x / Float.log u

def log1p (x : Float) : Float :=
  let u := 1 + x
  if x.isInf then Float.log u
  else if u == 1 then x
  else Float.log u * x / (u - 1)

def erfNear (x : Float) : Float :=
  let z := x * x
  let p := polynomial [1.28379167095512558561e-01, -3.25042107247001499370e-01,
    -2.84817495755985104766e-02, -5.77027029648944159157e-03, -2.37630166566501626084e-05] z
  let q := polynomial [1, 3.97917223959155352819e-01, 6.50222499887672944485e-02,
    5.08130628187576562776e-03, 1.32494738004321644526e-04, -3.96022827877536812320e-06] z
  x + x * (p / q)

/-- The distance of `erf` from its rounded value at one, for arguments near one. -/
def erfMiddle (x : Float) : Float :=
  let s := x - 1
  let p := polynomial [-2.36211856075265944077e-03, 4.14856118683748331666e-01,
    -3.72207876035701323847e-01, 3.18346619901161753674e-01, -1.10894694282396677476e-01,
    3.54783043256182359371e-02, -2.16637559486879084300e-03] s
  let q := polynomial [1, 1.06420880400844228286e-01, 5.40397917702171048937e-01,
    7.18286544141962662868e-02, 1.26171219808761642112e-01, 1.36370839120290507362e-02,
    1.19844998467991074170e-02] s
  p / q

def erfAtOne : Float := 8.45062911510467529297e-01

/-- The complement of `erf` for arguments of at least 1.25, with the square of the argument split so
that its rounding error does not reach the exponential. -/
def erfcFar (x : Float) : Float :=
  let s := 1 / (x * x)
  let (r, t) :=
    if x < 2.857142857142857 then
      (polynomial [-9.86494403484714822705e-03, -6.93858572707181764372e-01,
        -1.05586262253232909814e+01, -6.23753324503260060396e+01, -1.62396669462573470355e+02,
        -1.84605092906711035994e+02, -8.12874355063065934246e+01, -9.81432934416914548592e+00] s,
       polynomial [1, 1.96512716674392571292e+01, 1.37657754143519042600e+02,
        4.34565877475229228821e+02, 6.45387271733267880336e+02, 4.29008140027567833386e+02,
        1.08635005541779435134e+02, 6.57024977031928170135e+00, -6.04244152148580987438e-02] s)
    else
      (polynomial [-9.86494292470009928597e-03, -7.99283237680523006574e-01,
        -1.77579549177547519889e+01, -1.60636384855821916062e+02, -6.37566443368389627722e+02,
        -1.02509513161107724954e+03, -4.83519191608651397019e+02] s,
       polynomial [1, 3.03380607434824582924e+01, 3.25792512996573918826e+02,
        1.53672958608443695994e+03, 3.19985821950859553908e+03, 2.55305040643316442583e+03,
        4.74528541206955367215e+02, -2.24409524465858183362e+01] s)
  let z := Float.ofBits (x.toBits &&& 0xffffffff00000000)
  Float.exp (-z * z - 0.5625) * Float.exp ((z - x) * (z + x) + r / t) / x

def erf (x : Float) : Float :=
  let a := x.abs
  if x.isNaN then x
  else if a < 0.84375 then erfNear x
  else
    let y :=
      if a < 1.25 then erfAtOne + erfMiddle a
      else if a < 6 then 1 - erfcFar a
      else 1
    if x < 0 then -y else y

def erfc (x : Float) : Float :=
  if x.isNaN then x
  else if x.abs < 0.84375 then
    if x < 0.25 then 1 - erfNear x else 0.5 - (erfNear x - 0.5)
  else if x.abs < 1.25 then
    if x < 0 then 1 + (erfAtOne + erfMiddle x.abs) else 1 - erfAtOne - erfMiddle x
  else if x < 0 then (if x < -6 then 2 else 2 - erfcFar x.abs)
  else if 28 < x then 0
  else erfcFar x

def sqrtTwo : Float := 1.4142135623730951

def sqrtTwoPi : Float := 2.5066282746310002

def normalCdf (x : Float) : Float := 0.5 * erfc (-x / sqrtTwo)

def normalDensity (x : Float) : Float := Float.exp (-(x * x) / 2) / sqrtTwoPi

/-- A rational approximation of the normal quantile for `0 < p ≤ 1/2`, good to nine digits. -/
def quantileStart (p : Float) : Float :=
  if p < 0.02425 then
    let q := Float.sqrt (-2 * Float.log p)
    polynomial [2.938163982698783, 4.374664141464968, -2.549732539343734, -2.400758277161838,
        -0.3223964580411365, -0.007784894002430293] q /
      polynomial [1, 3.754408661907416, 2.445134137142996, 0.3224671290700398,
        0.007784695709041462] q
  else
    let q := p - 0.5
    let r := q * q
    q * polynomial [2.506628277459239, -30.66479806614716, 138.3577518672690, -275.9285104469687,
        220.9460984245205, -39.69683028665376] r /
      polynomial [1, -13.28068155288572, 66.80131188771972, -155.6989798598866,
        161.5858368580409, -54.47609879822406] r

/-- The normal quantile for `0 < p ≤ 1/2`: third-order steps from the rational approximation. -/
def lowerQuantile (p : Float) : Float :=
  let step (x : Float) : Float :=
    let d := normalDensity x
    if d == 0 then x
    else
      let above := if p < 0.25 then normalCdf x - p else 0.5 * erf (x / sqrtTwo) - (p - 0.5)
      let u := above / d
      x - u / (1 + x * u / 2)
  step (step (quantileStart p))

def normalQuantile (p : Float) : Float :=
  if p.isNaN || p < 0 || 1 < p then Binary64.notANumber
  else if p == 0 then -Binary64.positiveInfinity
  else if p == 1 then Binary64.positiveInfinity
  else if p == 0.5 then 0
  else if p < 0.5 then lowerQuantile p
  else -lowerQuantile (1 - p)

def logistic (x : Float) : Float := 1 / (1 + Float.exp (-x))

def logit (p : Float) : Float :=
  if p < 0.3 || 0.65 < p then Float.log (p / (1 - p))
  else
    let s := 2 * (p - 0.5)
    log1p s - log1p (-s)

end AdditiveModel.Real.Special
