import AdditiveModel.Real.Scalar

/-!
Quantiles of a list of numbers by linear interpolation between neighbours in ascending order. The
neighbours are interpolated from the nearer one. A list that holds something that is no number has no
quantile.
-/

namespace AdditiveModel.Quantile

variable {F : Type} [Scalar F]

open Scalar

def between (a b t : F) : F :=
  let d := b - a
  if le (ofRatio 1 2) t then b - d * (one - t) else a + d * t

def ofSorted (xs : List F) (p : F) : F :=
  let last := xs.length - 1
  let place := ofInt last * p
  match floor? place with
  | none => nan
  | some k =>
    let i := min k.toNat last
    let j := min (i + 1) last
    between (xs.getD i nan) (xs.getD j nan) (place - ofInt k)

def ascending (xs : List F) : List F := xs.mergeSort le

def ofList (xs : List F) (p : F) : F :=
  if xs.any isNaN then nan else ofSorted (ascending xs) p

end AdditiveModel.Quantile
