import AdditiveModel.Operation.Pointwise

/-!
Products of vectors and matrices.
-/

namespace AdditiveModel.Matrix

variable {F : Type} [Scalar F]

def inner? (kind : Kind) (xs ys : List (Value F)) : Except Fault (Value F) := do
  let products ← (xs.zip ys).mapM fun (x, y) => Pointwise.cellOp? .mul kind x y
  match products with
  | [] =>
    match kind with
    | .bool => return .bool false
    | .any => return .int 0
    | .complex => return .complex Scalar.zero Scalar.zero
    | .half | .double => return .float Scalar.zero
    | _ => return .int 0
  | p :: ps => ps.foldlM (Pointwise.cellOp? .add kind) p

def product? (a b : Grid F) : Except Fault (Grid F) := do
  let kind := a.kind.promote b.kind
  if kind == .text then throw .type
  let x ← a.cast? kind
  let y ← b.cast? kind
  let columns (g : Grid F) : List (List (Value F)) := g.transpose.slabs
  match x.shape, y.shape with
  | [n], [m] => if n == m then return Grid.scalar kind (← inner? kind x.cells y.cells) else throw .value
  | [_, n], [m] =>
    if n != m then throw .value
    return ⟨kind, x.shape.take 1, ← x.slabs.mapM fun row => inner? kind row y.cells⟩
  | [n], [m, _] =>
    if n != m then throw .value
    return ⟨kind, y.shape.drop 1, ← (columns y).mapM fun col => inner? kind x.cells col⟩
  | [r, n], [m, c] =>
    if n != m then throw .value
    let rows ← x.slabs.mapM fun row => (columns y).mapM fun col => inner? kind row col
    return ⟨kind, [r, c], rows.flatten⟩
  | _, _ => throw .value

end AdditiveModel.Matrix
