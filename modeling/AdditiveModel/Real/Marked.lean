import AdditiveModel.Real.Decomposition
import AdditiveModel.Real.Scalar

/-!
Numbers with a mark of the object that they are. The mark stays with a number that is passed on, and what
is computed has none, so that a value that equals nothing can be recognized in an array of objects.
-/

namespace AdditiveModel.Real

structure Marked (F : Type) where
  number : F
  mark : Option Nat

namespace Marked

variable {F : Type}

def plain (x : F) : Marked F := ⟨x, none⟩

def map (f : F → F) (x : Marked F) : Marked F := plain (f x.number)

def map₂ (f : F → F → F) (x y : Marked F) : Marked F := plain (f x.number y.number)

def identical [Scalar F] (x y : Marked F) : Bool :=
  Scalar.isNaN x.number && Scalar.isNaN y.number && x.mark.isSome && x.mark == y.mark

end Marked

open Marked

instance {F : Type} [Scalar F] : Scalar (Marked F) where
  add := map₂ (· + ·)
  sub := map₂ (· - ·)
  mul := map₂ (· * ·)
  div := map₂ (· / ·)
  neg := map (- ·)
  ofInt n := plain (Scalar.ofInt n)
  ofRatio n d := plain (Scalar.ofRatio n d)
  ofDecimal m e := plain (Scalar.ofDecimal m e)
  nan := plain Scalar.nan
  infinity := plain Scalar.infinity
  isNaN x := Scalar.isNaN x.number
  eq x y := Scalar.eq x.number y.number
  identical := identical
  lt x y := Scalar.lt x.number y.number
  le x y := Scalar.le x.number y.number
  signed x := Scalar.signed x.number
  floor? x := Scalar.floor? x.number
  remainder := map₂ Scalar.remainder
  sqrt := map Scalar.sqrt
  pow := map₂ Scalar.pow
  exp := map Scalar.exp
  expm1 := map Scalar.expm1
  log := map Scalar.log
  log1p := map Scalar.log1p
  sin := map Scalar.sin
  cos := map Scalar.cos
  tan := map Scalar.tan
  angle := map₂ Scalar.angle
  erf := map Scalar.erf
  normalCdf := map Scalar.normalCdf
  normalQuantile := map Scalar.normalQuantile
  normalDensity := map Scalar.normalDensity
  logistic := map Scalar.logistic
  logit := map Scalar.logit
  round p := map (Scalar.round p)
  text x := Scalar.text x.number
  scientific n x := Scalar.scientific n x.number
  brief x := Scalar.brief x.number

instance {F : Type} [Scalar F] : Factor.Decompositions (Marked F) := .byElimination

end AdditiveModel.Real
