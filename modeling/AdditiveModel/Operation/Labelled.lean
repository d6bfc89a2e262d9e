import AdditiveModel.Operation.Pointwise

/-!
Elementwise operations on labelled columns and tables. Two columns are matched by their row labels,
and a label of only one of them gives a missing value; a table works column by column.
-/

namespace AdditiveModel.Labelled

variable {F : Type} [Scalar F]

open Value

def isLabelled : Value F → Bool
  | series .. | table .. => true
  | _ => false

def sameLabels (xs ys : List (Value F)) : Bool :=
  xs.length == ys.length && (xs.zip ys).all fun (a, b) => same a b

def unionLabels (xs ys : List (Value F)) : List (Value F) :=
  let all := xs ++ ys.filter fun y => !xs.any (same y)
  let ordered := all.all fun a => all.all fun b =>
    match less? false a b with
    | .ok _ => true
    | .error _ => false
  let before (a b : Value F) : Bool :=
    match less? true a b with
    | .ok r => r
    | .error _ => true
  if ordered then all.mergeSort before else all

/-- The elements at the given labels; a missing one makes the column real or mixed. -/
def reindex (labels index : List (Value F)) (kind : Kind) (cells : List (Value F)) :
    Except Fault (Kind × List (Value F)) := do
  let found := labels.map fun l => ((index.zip cells).find? fun (i, _) => same i l).map (·.2)
  if found.all (·.isSome) then return (kind, found.filterMap id)
  let kind' := if kind.isInteger then .double else if kind.isInexact then kind else .any
  let filled ← found.mapM fun
    | some v => Value.cast? kind' v
    | none => .ok (float Scalar.nan)
  return (kind', filled)

def needsReals (op : BinaryOp) (a b : Grid F) : Bool :=
  (op == .floorDiv || op == .mod) && (a.kind.isInteger || a.kind == .bool)
    && (b.kind.isInteger || b.kind == .bool) && b.cells.any fun v => !elementTruth v

/-- An arithmetic operation on unlabelled columns. A zero divisor of integers gives infinite and
missing values. -/
def columnOp? (op : BinaryOp) (a b : Value F) : Except Fault (Grid F) := do
  let x ← Grid.ofValue a
  let y ← Grid.ofValue b
  if needsReals op x y then
    let x ← x.cast? .double
    let y ← y.cast? .double
    match op with
    | .mod =>
      Pointwise.zip? .double (fun
        | .float p, .float q => .ok (.float (if Scalar.isZero q then Scalar.nan else Number.floorMod p q))
        | _, _ => .error .type) x y
    | _ => Pointwise.binary? op (ofGrid x) (ofGrid y)
  else Pointwise.binary? op a b

/-- A grid as a column with the given labels; its length must be theirs. -/
def relabel? (index : List (Value F)) (g : Grid F) : Except Fault (Value F) :=
  if g.shape == [index.length] then .ok (series index g.kind g.cells) else .error .value

/-- The columns of a table as grids with the same operation applied to each. -/
def eachColumn? (index : List (Value F)) (columns : List (String × Kind × List (Value F)))
    (f : Value F → Except Fault (Grid F)) : Except Fault (Value F) := do
  let results ← columns.mapM fun (name, kind, cells) => do
    let g ← f (array kind [cells.length] cells)
    return (name, g.kind, g.cells)
  return table index results

/-- Applies an operation on one operand to a column or to each column of a table. -/
def map? (f : Grid F → Except Fault (Grid F)) : Value F → Except Fault (Value F)
  | series index kind cells => do relabel? index (← f (Grid.vector kind cells))
  | table index columns =>
    eachColumn? index columns fun v => do f (← Grid.ofValue v)
  | _ => .error .type

def isSingle : Value F → Bool
  | list _ | tuple _ | array _ (_ :: _) _ | series .. | table .. => false
  | _ => true

/-- The parts of the second operand of a table that belong to its columns. -/
def partsFor? (columns : List (String × Kind × List (Value F))) (rows : Nat) (v : Value F) :
    Except Fault (List (Value F)) := do
  if isSingle v then return columns.map fun _ => v
  match v with
  | table index others =>
    if index.length == rows && others.map (·.1) == columns.map (·.1) then
      return others.map fun (_, kind, cells) => array kind [cells.length] cells
    else throw .value
  | _ =>
    let g ← Grid.ofValue v
    match g.shape with
    | [n] =>
      if n == columns.length then return g.cells.map fun c => cell g.kind c else throw .value
    | [n, k] =>
      if n == rows && k == columns.length then
        return g.transpose.slabs.map fun cells => array g.kind [rows] cells
      else throw .value
    | _ => throw .value

/-- Applies an operation on two operands of which at least one is labelled. `aligned` holds when
columns with different labels are matched. -/
def zip? (aligned : Bool) (f : Value F → Value F → Except Fault (Grid F)) (a b : Value F) :
    Except Fault (Value F) :=
  match a, b with
  | series i k xs, series j l ys => do
    if sameLabels i j then relabel? i (← f (array k [xs.length] xs) (array l [ys.length] ys))
    else if aligned then
      let labels := unionLabels i j
      let (k, xs) ← reindex labels i k xs
      let (l, ys) ← reindex labels j l ys
      relabel? labels (← f (array k [labels.length] xs) (array l [labels.length] ys))
    else throw .value
  | table i xs, b => do
    let parts ← partsFor? xs i.length b
    let results ← (xs.zip parts).mapM fun ((name, kind, cells), part) => do
      let g ← f (array kind [cells.length] cells) part
      return (name, g.kind, g.cells)
    return table i results
  | a, table i ys => do
    let parts ← partsFor? ys i.length a
    let results ← (ys.zip parts).mapM fun ((name, kind, cells), part) => do
      let g ← f part (array kind [cells.length] cells)
      return (name, g.kind, g.cells)
    return table i results
  | series i k xs, b => do relabel? i (← f (array k [xs.length] xs) b)
  | a, series j l ys => do relabel? j (← f a (array l [ys.length] ys))
  | _, _ => .error .type

end AdditiveModel.Labelled
