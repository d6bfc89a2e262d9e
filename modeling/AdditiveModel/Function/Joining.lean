import AdditiveModel.Operation.Operator

/-!
Functions that build arrays from values: joining, repeating, choosing and converting.
-/

namespace AdditiveModel.Joining

variable {F : Type} [Scalar F]

open Value

/-- Arrays with the same shape but for one axis, one after the other along it. -/
def along? (axis : Nat) (parts : List (Grid F)) : Except Fault (Grid F) :=
  match parts with
  | [] => .error .value
  | first :: rest =>
    let others (shape : List Nat) : List Nat := shape.eraseIdx axis
    if first.shape.length ≤ axis
      || rest.any fun g => g.shape.length != first.shape.length || others g.shape != others first.shape
    then .error .value
    else do
      let kind := Kind.promoteAll (parts.map (·.kind))
      let parts ← parts.mapM (Grid.cast? kind)
      let outer := Shape.count (first.shape.take axis)
      let pieces := (List.range outer).flatMap fun i => parts.flatMap fun g =>
        let size := Shape.count (g.shape.drop axis)
        (g.cells.drop (i * size)).take size
      let length := (parts.map fun g => g.shape.getD axis 0).foldl (· + ·) 0
      return ⟨kind, first.shape.set axis length, pieces⟩

/-- Values one after the other; a single value counts as a vector of length one. -/
def concat? (values : List (Value F)) : Except Fault (Grid F) := do
  let parts ← values.mapM Grid.ofValue
  along? 0 (parts.map fun g => if g.shape.isEmpty then { g with shape := [1] } else g)

def asColumns (g : Grid F) : Grid F :=
  match g.shape with
  | [] => { g with shape := [1, 1] }
  | [n] => { g with shape := [n, 1] }
  | _ => g

def columns? (values : List (Value F)) : Except Fault (Grid F) := do
  let parts ← values.mapM Grid.ofValue
  along? 1 (parts.map asColumns)

def counts? (length : Nat) (v : Value F) : Except Fault (List Nat) := do
  let g ← Grid.ofValue v
  if !(g.kind == .bool || g.kind.isInteger) then throw .type
  if 1 < g.shape.length then throw .value
  let ns ← g.cells.mapM toInt?
  let ns := match ns with
    | [n] => List.replicate length n
    | ns => ns
  if ns.length != length || ns.any (· < 0) then throw .value
  return ns.map Int.toNat

/-- Repeats the elements along an axis, or all elements as one list. -/
def repeat? (v counts axis : Value F) : Except Fault (Value F) := do
  match v, axis with
  | series index kind cells, _ =>
    let ns ← counts? cells.length counts
    let spread {α : Type} (xs : List α) : List α :=
      (xs.zip ns).flatMap fun (x, n) => List.replicate n x
    return series (spread index) kind (spread cells)
  | v, null =>
    let g ← Grid.ofValue v
    let ns ← counts? g.cells.length counts
    return ofGrid (Grid.vector g.kind ((g.cells.zip ns).flatMap fun (x, n) => List.replicate n x))
  | v, axis =>
    let g ← Grid.ofValue v
    match toIndex? axis with
    | none => throw .type
    | some i =>
      let rank := g.shape.length
      let i := if i < 0 then i + rank else i
      if i < 0 || (rank : Int) ≤ i then throw .value
      let axis := i.toNat
      let ns ← counts? (g.shape.getD axis 0) counts
      let size := Shape.count (g.shape.drop (axis + 1))
      let outer := Shape.count (g.shape.take axis)
      let block := size * g.shape.getD axis 0
      let cells := (List.range outer).flatMap fun o =>
        ns.zipIdx.flatMap fun (n, k) =>
          (List.replicate n ((g.cells.drop (o * block + k * size)).take size)).flatten
      return ofGrid ⟨g.kind, g.shape.set axis (ns.foldl (· + ·) 0), cells⟩

/-- The elements of the second or the third array, as the first one says. -/
def choose? (condition yes no : Value F) : Except Fault (Grid F) := do
  let c ← Grid.ofValue condition
  let a ← Operand.ofValue yes
  let b ← Operand.ofValue no
  let kind := a.meet b
  let a ← a.cells? kind
  let b ← b.cells? kind
  let shape ← Shape.broadcastAll [c.shape, a.shape, b.shape]
  let cells := (c.stretch shape).zip ((a.stretch shape).zip (b.stretch shape))
  return ⟨kind, shape, cells.map fun (t, x, y) => if elementTruth t then x else y⟩

/-- The positions of the true elements, as one array for each axis. -/
def truePositions? (v : Value F) : Except Fault (Value F) := do
  let g ← Grid.ofValue v
  if g.shape.isEmpty then throw .value
  let found := (g.cells.zipIdx.filter fun (c, _) => elementTruth c).map (·.2)
  let axes := g.shape.zip (Shape.strides g.shape)
  return tuple (axes.map fun (n, stride) =>
    ofGrid (Grid.ofInts (found.map fun p => ((p / stride % n : Nat) : Int))))

def kindOfName? : String → Option Kind
  | "float" | "float64" | "f8" | "d" | "double" => some .double
  | "int" | "int64" | "i8" | "l" => some .int64
  | "bool" | "?" => some .bool
  | "object" | "O" => some .any
  | "str" | "U" => some .text
  | "complex" | "complex128" => some .complex
  | "float16" | "half" => some .half
  | "int8" => some .int8
  | "uint64" => some .uint64
  | _ => none

def array? (v kind : Value F) : Except Fault (Grid F) :=
  match kind with
  | null => Grid.ofValue v
  | str name =>
    match kindOfName? name with
    | some .double => do
      let (shape, xs) ← Grid.realsOfValue v
      return ⟨.double, shape, xs.map float⟩
    | some k => do (← Grid.ofValue v).cast? k
    | none => .error .type
  | _ => .error .type

end AdditiveModel.Joining
