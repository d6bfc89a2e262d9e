import AdditiveModel.Scope.Basic
import AdditiveModel.Value.Column

/-!
Data objects: their named fields, their number of observations and the scope that they give.
-/

namespace AdditiveModel.Data

variable {F : Type} [Scalar F]

open Value

def columnFields (columns : List (String × Kind × List (Value F))) : Named (Value F) :=
  columns.map fun (name, kind, cells) => (name, array kind [cells.length] cells)

def fields? (data : Value F) : Except Fault (Named (Value F)) :=
  match data with
  | null => .ok []
  | table _ columns => .ok (columnFields columns)
  | dict entries => .ok entries
  | data => (Column.ofData? data).map columnFields

/-- The number of observations: one without data, and for fields the largest number of rows. -/
def length? (data : Value F) : Except Fault Nat :=
  match data with
  | null => .ok 1
  | table index _ => .ok index.length
  | data => do
    match (← fields? data).map fun f => f.2.rows with
    | [] => return 1
    | n :: ns => return ns.foldl max n

def scope? (data : Value F) : Except Fault (Scope F) := do
  return ((Scope.ofSymbols Scope.functions).update (← fields? data)).bind Scope.dataName data

end AdditiveModel.Data
