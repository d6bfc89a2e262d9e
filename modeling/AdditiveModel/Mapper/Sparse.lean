import AdditiveModel.Value.Coercion

/-!
Matrices given by their entries. An entry that is left out is zero; what such a matrix means is its
product with a vector, which adds the entries of a row in their order.
-/

namespace AdditiveModel

/-- A matrix given by the rows, columns and values of its entries. -/
structure Sparse (F : Type) where
  rows : Nat
  columns : Nat
  entries : List (Nat × Nat × F)
  deriving Inhabited

namespace Sparse

variable {F : Type} [Scalar F]

def empty (rows columns : Nat) : Sparse F := ⟨rows, columns, []⟩

def row (A : Sparse F) (i : Nat) : List (Nat × F) :=
  A.entries.filterMap fun (r, c, v) => if r == i then some (c, v) else none

def rowProduct (entries : List (Nat × F)) (x : List F) : F :=
  Scalar.sum (entries.map fun (c, v) => v * x.getD c Scalar.zero)

def apply (A : Sparse F) (x : List F) : List F :=
  (List.range A.rows).map fun i => rowProduct (A.row i) x

def scaleRows (A : Sparse F) (factors : List F) : Sparse F :=
  { A with entries := A.entries.map fun (r, c, v) => (r, c, factors.getD r Scalar.zero * v) }

def entriesOfRow (i : Nat) (row : List F) : List (Nat × Nat × F) :=
  row.zipIdx.filterMap fun (v, j) => if Scalar.isZero v then none else some (i, j, v)

def ofRows (columns : Nat) (rows : List (List F)) : Sparse F :=
  ⟨rows.length, columns, rows.zipIdx.flatMap fun (row, i) => entriesOfRow i row⟩

def toValue (A : Sparse F) : Value F := .sparse A.rows A.columns A.entries

def ofValue? : Value F → Except Fault (Sparse F)
  | .sparse rows columns entries => .ok ⟨rows, columns, entries⟩
  | v => do
    let g ← Grid.ofValue v
    let (rows, columns) ← match g.shape with
      | [] => pure (1, 1)
      | [n] => pure (1, n)
      | [n, m] => pure (n, m)
      | _ => throw .type
    let present := g.cells.zipIdx.filter fun (c, _) => Value.elementTruth c
    let entries ← present.mapM fun (c, p) => do
      return (p / columns, p % columns, ← Grid.cellToReal? g.kind c)
    return ⟨rows, columns, entries⟩

end Sparse

end AdditiveModel
