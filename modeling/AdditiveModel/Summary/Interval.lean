import AdditiveModel.Value.Coercion

/-!
Probabilities that bound an interval: given ones, or those of a central interval of a normal variable
that reaches a number of deviations to each side.
-/

namespace AdditiveModel.Interval

variable {F : Type} [Scalar F]

open Scalar

def cdf (z : F) : F := ofRatio 1 2 * (one + erf (z / sqrt (ofInt 2)))

/-- The probabilities of the interval that reaches `level` deviations to each side. -/
def ofLevel (level : F) : F × F := (cdf (-level), cdf level)

def default : F × F := (ofDecimal 25 (-3), ofDecimal 975 (-3))

def ofItems? (items : List (Value F)) : Except Fault (F × F) := do
  match ← items.mapM Value.toReal? with
  | [lo, hi] => return (lo, hi)
  | _ => throw .value

def choose? (level : Value F) (items : Option (List (Value F))) : Except Error (F × F) :=
  match level, items with
  | .null, none => .ok default
  | .null, some items => lift (ofItems? items)
  | level, none => do return ofLevel (← lift level.toReal?)
  | _, some _ => .error .twoIntervals

end AdditiveModel.Interval
