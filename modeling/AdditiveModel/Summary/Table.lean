import AdditiveModel.Mapper.Covariates
import AdditiveModel.Named
import AdditiveModel.Real.Summation
import AdditiveModel.Summary.Interval
import AdditiveModel.Summary.Quantile
import AdditiveModel.Value.Column

/-!
The summary of a matrix with a row for each point and a column for each state: mean, deviation, median
and two quantiles of every row.
-/

namespace AdditiveModel.Summary

variable {F : Type} [Scalar F]

open Scalar

def quantileName (p : F) : String := "q" ++ brief p

def deviation (row : List F) : F := if row.length > 1 then Summation.deviation row else zero

/-- The columns of the summary. A later column replaces an earlier one of its name. -/
def columns (lo hi : F) (rows : List (List F)) : Named (List F) :=
  Named.ofList [("mean", rows.map Summation.mean), ("sd", rows.map deviation),
    (quantileName lo, rows.map (Quantile.ofList · lo)),
    ("median", rows.map (Quantile.ofList · (ofRatio 1 2))),
    (quantileName hi, rows.map (Quantile.ofList · hi))]

def isProbability (p : F) : Bool := le zero p && le p one

/-- The summary with two probabilities. A vector is a single state. -/
def withInterval? (values : Value F) (interval : F × F) : Except Error (Value F) := do
  let (shape, cells) ← lift (Grid.realsOfValue values)
  let shape := match shape with
    | [n] => [n, 1]
    | shape => shape
  let rows ← match shape with
    | [n, m + 1] => pure (Mapper.Covariates.rowsOf n (m + 1) cells)
    | _ => throw (.summaryShape shape)
  let (lo, hi) := interval
  if !isProbability lo || !isProbability hi then throw (.fault .value)
  let index := match values with
    | .table index _ => index
    | _ => Column.defaultIndex rows.length
  return .table index ((columns lo hi rows).map fun (name, xs) => (name, .double, xs.map .float))

/-- The summary with given probabilities, or those of a level, or 95 percent. -/
def ofValue? (values level : Value F) (items : Option (List (Value F))) : Except Error (Value F) := do
  withInterval? values (← Interval.choose? level items)

end AdditiveModel.Summary
