import AdditiveModel.Operation.Operator
import AdditiveModel.Real.Summation

/-!
Sums, means and extremes of arrays, over all elements or along some axes. Labelled columns leave
missing values out.
-/

namespace AdditiveModel

inductive Reduction where
  | sum | mean | min | max
  deriving DecidableEq, Repr, Inhabited

namespace Reduction

variable {F : Type} [Scalar F]

open Value

def axes? (rank : Nat) (v : Value F) : Except Fault (Option (List Nat)) := do
  let one (v : Value F) : Except Fault Nat :=
    match toIndex? v with
    | some i =>
      match positionOf rank i with
      | some p => .ok p
      | none => .error .value
    | none => .error .type
  match v with
  | null => return none
  | tuple items =>
    let found ← items.mapM one
    if found.eraseDups.length != found.length then throw .value
    return some found
  | v => return some [← one v]
where
  positionOf (rank : Nat) (i : Int) : Option Nat :=
    let j := if i < 0 then i + rank else i
    if 0 ≤ j && j < rank then some j.toNat else none

/-- The elements that are reduced together, for each place of the result, and the result's shape. -/
def groups (g : Grid F) (reduced : List Nat) : List Nat × List (List (Value F)) :=
  let axes := (g.shape.zip (Shape.strides g.shape)).zipIdx
  let inner := (axes.filter fun a => reduced.contains a.2).map (·.1)
  let outer := (axes.filter fun a => !reduced.contains a.2).map (·.1)
  let steps := Shape.offsets inner
  (outer.map (·.1), (Shape.offsets outer).map fun o => Grid.gather g.cells (steps.map (o + ·)))

/-- Whether the reduced axes are the last ones, so that their elements are neighbours. -/
def isLast (rank : Nat) (reduced : List Nat) : Bool :=
  (List.range rank).all fun i => reduced.contains i == decide (rank - reduced.length ≤ i)

def sumKind? : Kind → Option Kind
  | .bool | .int8 | .int64 => some .int64
  | .text => none
  | k => some k

def sumReals (neighbours : Bool) (xs : List F) : F :=
  if neighbours then Summation.sum xs else Scalar.sum xs

def sumCells? (neighbours : Bool) (kind : Kind) (cells : List (Value F)) : Except Fault (Value F) :=
  match kind with
  | .half | .double =>
    .ok (float (Scalar.round kind.precision (sumReals neighbours (cells.map Grid.realOf))))
  | .complex => cells.foldlM (Pointwise.cellOp? .add .complex) (complex Scalar.zero Scalar.zero)
  | .any =>
    match cells with
    | [] => .ok (int 0)
    | v :: vs => vs.foldlM (Operator.binary? .add) v
  | kind => cells.foldlM (Pointwise.cellOp? .add kind) (int 0)

def meanCells? (neighbours : Bool) (kind : Kind) (cells : List (Value F)) : Except Fault (Value F) := do
  let count : F := Scalar.ofInt cells.length
  match kind with
  | .any =>
    if cells.isEmpty then return float Scalar.nan
    Operator.binary? .div (← sumCells? neighbours .any cells) (int cells.length)
  | .complex =>
    match ← sumCells? neighbours .complex cells with
    | complex re im => return complex (re / count) (im / count)
    | _ => throw .type
  | .half | .double =>
    let total := sumReals neighbours (cells.map Grid.realOf)
    return float (Scalar.round kind.precision (total / count))
  | _ =>
    let reals ← castAll? kind .double cells
    return float (sumReals neighbours (reals.map Grid.realOf) / count)

def extremeCells? (larger : Bool) : List (Value F) → Except Fault (Value F)
  | [] => .error .value
  | v :: vs => vs.foldlM (Pointwise.cellExtreme? larger) v

/-- The kind of the results for elements of a kind; none when they cannot be reduced. -/
def resultKind? (r : Reduction) (k : Kind) : Option Kind :=
  match r, k with
  | _, .text => none
  | sum, k => sumKind? k
  | mean, .half => some .half
  | mean, .complex => some .complex
  | mean, .any => some .any
  | mean, _ => some .double
  | min, k | max, k => some k

/-- Reduces one group of elements; `start` is an additional first element. -/
def group? (r : Reduction) (neighbours : Bool) (kind : Kind) (start : Option (Value F))
    (cells : List (Value F)) : Except Fault (Value F) :=
  match r with
  | sum => do
    let kind' := (sumKind? kind).getD kind
    let total ← sumCells? neighbours kind' (← castAll? kind kind' cells)
    match start with
    | some v => Pointwise.cellOp? .add kind' (← Value.cast? kind' v) total
    | none => return total
  | mean => meanCells? neighbours kind cells
  | min => do extremeCells? false ((← start.toList.mapM (Value.cast? kind)) ++ cells)
  | max => do extremeCells? true ((← start.toList.mapM (Value.cast? kind)) ++ cells)

def namesOnlyAxis (r : Reduction) (v : Value F) : Bool :=
  r != mean && match toIndex? v with
    | some i => i == 0 || i == -1
    | none => false

/-- Reduces an array. Reduced axes stay with length one when `keep` holds. -/
def ofGrid? (r : Reduction) (g : Grid F) (axis : Value F) (keep : Bool) (start : Option (Value F)) :
    Except Fault (Value F) := do
  let rank := g.shape.length
  let chosen ← if rank == 0 && namesOnlyAxis r axis then .ok none else axes? rank axis
  let reduced := chosen.getD (List.range rank)
  match resultKind? r g.kind with
  | none => throw .type
  | some kind =>
    let (shape, parts) := groups g reduced
    let cells ← parts.mapM (group? r (isLast rank reduced) g.kind start)
    let shape := if keep then
        (g.shape.zipIdx).map fun (n, i) => if reduced.contains i then 1 else n
      else shape
    return ofResult ⟨kind, shape, cells⟩

def isMissing : Value F → Bool
  | null => true
  | float x => Scalar.isNaN x
  | _ => false

def ofSeries? (r : Reduction) (kind : Kind) (cells : List (Value F)) : Except Fault (Value F) := do
  let present := cells.filter fun v => !isMissing v
  match r, present with
  | min, [] | max, [] => return cell .double (float Scalar.nan)
  | _, _ =>
    match resultKind? r kind with
    | none => throw .type
    | some k => return ofResult (Grid.scalar k (← group? r true kind none present))

def ofTable? (r : Reduction) (index : List (Value F))
    (columns : List (String × Kind × List (Value F))) (axis : Value F) : Except Fault (Value F) := do
  match axis with
  | null =>
    let g ← tableGrid index.length columns
    ofSeries? r g.kind g.cells
  | axis =>
    let g ← tableGrid index.length columns
    let along ← axes? 2 axis
    let build (labels : List (Value F)) (results : List (Value F)) : Except Fault (Value F) := do
      let stacked ← Grid.stack? (← results.mapM Grid.ofValue)
      return series labels stacked.kind stacked.cells
    match along with
    | some [0] =>
      let results ← columns.mapM fun (_, kind, cells) => ofSeries? r kind cells
      build (columns.map fun (name, _, _) => str name) results
    | _ => build index (← g.slabs.mapM (ofSeries? r g.kind))

def value? (r : Reduction) (v axis : Value F) (keep : Bool) (start : Option (Value F)) :
    Except Fault (Value F) :=
  match v with
  | series _ kind cells => ofSeries? r kind cells
  | table index columns => ofTable? r index columns axis
  | v => do ofGrid? r (← Grid.ofValue v) axis keep start

end Reduction

end AdditiveModel
