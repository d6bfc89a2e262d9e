import AdditiveModel.Real.Binary64
import AdditiveModel.Real.Decomposition
import AdditiveModel.Real.Special

/-!
Binary64 as the scalar type that runs.
-/

namespace AdditiveModel.Real

instance : Scalar Float where
  ofInt := Binary64.ofInt
  ofRatio := Binary64.ofRatio
  ofDecimal := Binary64.ofDecimal
  nan := Binary64.notANumber
  infinity := Binary64.positiveInfinity
  isNaN := Float.isNaN
  eq x y := x == y
  lt x y := decide (x < y)
  le x y := decide (x ≤ y)
  signed x := decide (Nat.pow 2 63 ≤ x.toBits.toNat)
  floor? := Binary64.floor?
  remainder := Binary64.remainder
  sqrt := Float.sqrt
  pow := Float.pow
  exp := Float.exp
  expm1 := Special.expm1
  log := Float.log
  log1p := Special.log1p
  sin := Float.sin
  cos := Float.cos
  tan := Float.tan
  angle := Float.atan2
  erf := Special.erf
  normalCdf := Special.normalCdf
  normalQuantile := Special.normalQuantile
  normalDensity := Special.normalDensity
  logistic := Special.logistic
  logit := Special.logit
  round := Binary64.round
  text := Binary64.text
  scientific := Binary64.scientific
  brief := Binary64.brief

instance : Factor.Decompositions Float := .byElimination

end AdditiveModel.Real
