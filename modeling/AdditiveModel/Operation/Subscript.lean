import AdditiveModel.Operation.Labelled

/-!
Subscripts. A list takes an index or a slice; an array takes one item for each axis, where lists of
positions and truth values select along their axes together; labelled data are selected by label.
Items are checked against the shape first, so that collecting the elements cannot fail.
-/

namespace AdditiveModel.Subscript

variable {F : Type} [Scalar F]

open Value

/-- The position that an index stands for; a negative one counts from the end. -/
def position? (length : Nat) (i : Int) : Except Fault Nat :=
  let j := if i < 0 then i + length else i
  if 0 ≤ j && j < length then .ok j.toNat else .error .index

def bound? : Value F → Except Fault (Option Int)
  | null => .ok none
  | v =>
    match toIndex? v with
    | some i => .ok (some i)
    | none => .error .type

def clampBound (length : Nat) (least : Int) (i : Int) (greatest : Int) : Int :=
  let i := if i < 0 then i + length else i
  if i < least then least else if greatest < i then greatest else i

def slicePositions? (length : Nat) (lower upper step : Value F) : Except Fault (List Nat) := do
  let step := (← bound? step).getD 1
  let lower ← bound? lower
  let upper ← bound? upper
  if step == 0 then throw .value
  let n : Int := length
  if 0 < step then
    let start := clampBound length 0 (lower.getD 0) n
    let stop := clampBound length 0 (upper.getD n) n
    let count := ((stop - start + step - 1) / step).toNat
    return (List.range count).map fun (i : Nat) => (start + i * step).toNat
  else
    let start := match lower with
      | some l => clampBound length (-1) l (n - 1)
      | none => n - 1
    let stop := match upper with
      | some u => clampBound length (-1) u (n - 1)
      | none => -1
    let count := ((start - stop - step - 1) / -step).toNat
    return (List.range count).map fun (i : Nat) => (start + i * step).toNat

/-- An index or a slice of a list; `one` and `many` build the results. -/
def ofList? {α : Type} (items : List α) (one : α → Value F) (many : List α → Value F) (key : Value F) :
    Except Fault (Value F) :=
  match key with
  | slice lower upper step => do
    let positions ← slicePositions? items.length lower upper step
    let store := items.toArray
    return many (positions.filterMap fun p => store[p]?)
  | key =>
    match toIndex? key with
    | some i => do
      match items[← position? items.length i]? with
      | some item => return one item
      | none => throw .index
    | none => .error .type

inductive Item where
  | index (i : Int)
  | positions (of : Nat → Except Fault (List Nat))
  | newAxis
  | ellipsis
  /-- Positions along one axis, in the shape of the result. -/
  | fancy (shape : List Nat) (positions : List Int)
  /-- Truth values over one axis or more. -/
  | mask (shape : List Nat) (bits : List Bool)

def item? (v : Value F) : Except Fault Item :=
  match v with
  | .ellipsis => .ok .ellipsis
  | null => .ok .newAxis
  | slice lower upper step => .ok (.positions fun n => slicePositions? n lower upper step)
  | .bool b => .ok (.mask [] [b])
  | int i => .ok (.index i)
  | str _ | bytes _ | float _ | complex _ _ => .error .index
  | v => do
    let g ← Grid.ofValue v
    match g.kind, g.shape, g.cells with
    | .bool, shape, cells => return .mask shape (cells.map elementTruth)
    | k, [], [int i] => if k.isInteger then return .index i else throw .index
    | k, shape, cells =>
      let isList := match v with
        | list _ | tuple _ => true
        | _ => false
      if k.isInteger then
        return .fancy shape (cells.map fun
          | int i => i
          | _ => 0)
      else if isList && cells.isEmpty then return .fancy shape []
      else throw .index

def axesUsed : Item → Nat
  | .index _ | .positions _ | .fancy _ _ => 1
  | .newAxis | .ellipsis => 0
  | .mask shape _ => shape.length

def isFancy : Item → Bool
  | .fancy _ _ | .mask _ _ => true
  | _ => false

def expand? (rank : Nat) (items : List Item) : Except Fault (List Item) :=
  let used := (items.map axesUsed).foldl (· + ·) 0
  let dots := items.countP fun
    | .ellipsis => true
    | _ => false
  if rank < used || 1 < dots then .error .index
  else
    let whole : List Item := List.replicate (rank - used) (.positions fun n => .ok (List.range n))
    .ok (if dots == 0 then items ++ whole
      else items.flatMap fun
        | .ellipsis => whole
        | item => [item])

/-- Part of a result: its axes, and for each place the distance from the first element. -/
structure Block where
  shape : List Nat
  offsets : List Nat

/-- A selection along some axes: a block, or positions that are combined with others. -/
inductive Selection where
  | block (b : Block)
  | joint (shape : List Nat) (offsets : List Nat)

def maskOffsets (axes : List (Nat × Nat)) (bits : List Bool) : List Nat :=
  ((Shape.offsets axes).zip bits).filterMap fun (o, b) => if b then some o else none

/-- The selection of each item along the axes, which are given with their strides. Indices join the
positions of other items when there are any. -/
def select? (joined : Bool) : List Item → List (Nat × Nat) → Except Fault (List Selection)
  | [], _ => .ok []
  | .newAxis :: items, axes => do
    return .block ⟨[1], [0]⟩ :: (← select? joined items axes)
  | .mask shape bits :: items, axes => do
    let own := axes.take shape.length
    if own.map (·.1) != shape then throw .index
    let offsets := maskOffsets own bits
    return .joint [offsets.length] offsets :: (← select? joined items (axes.drop shape.length))
  | .index i :: items, (n, stride) :: axes => do
    let p ← position? n i
    let rest ← select? joined items axes
    if joined then return .joint [] [p * stride] :: rest
    return .block ⟨[], [p * stride]⟩ :: rest
  | .positions of :: items, (n, stride) :: axes => do
    let ps ← of n
    return .block ⟨[ps.length], ps.map (· * stride)⟩ :: (← select? joined items axes)
  | .fancy shape positions :: items, (n, stride) :: axes => do
    let ps ← positions.mapM (position? n)
    return .joint shape (ps.map (· * stride)) :: (← select? joined items axes)
  | .ellipsis :: items, axes => select? joined items axes
  | _ :: _, [] => .error .index

def stretchOffsets (shape target : List Nat) (offsets : List Nat) : List Nat :=
  let store := offsets.toArray
  (Shape.offsets (Shape.stretched shape target)).map fun i => store.getD i 0

def jointBlock? (parts : List (List Nat × List Nat)) : Except Fault Block := do
  let shape ← match Shape.broadcastAll (parts.map (·.1)) with
    | .ok s => .ok s
    | .error _ => .error .index
  let columns := parts.map fun (s, offsets) => stretchOffsets s shape offsets
  let start := List.replicate (Shape.count shape) 0
  return ⟨shape, columns.foldl (List.zipWith (· + ·)) start⟩

def joint? : Selection → Option (List Nat × List Nat)
  | .joint shape offsets => some (shape, offsets)
  | .block _ => none

/-- The blocks in the order of the result. Joint selections that stand together keep their place, and
come first otherwise. -/
def arrange? (selections : List Selection) : Except Fault (List Block) := do
  let parts := selections.filterMap joint?
  let plain (s : List Selection) : List Block := s.filterMap fun
    | .block b => some b
    | .joint _ _ => none
  if parts.isEmpty then return plain selections
  let block ← jointBlock? parts
  let before := selections.takeWhile fun s => (joint? s).isNone
  let rest := selections.drop before.length
  let after := rest.dropWhile fun s => (joint? s).isSome
  if after.any fun s => (joint? s).isSome then return block :: plain selections
  return plain before ++ block :: plain after

def collect (g : Grid F) (blocks : List Block) : Grid F :=
  let offsets := blocks.foldl (fun acc b => acc.flatMap fun o => b.offsets.map (o + ·)) [0]
  ⟨g.kind, (blocks.map (·.shape)).flatten, Grid.gather g.cells offsets⟩

def ofGrid? (g : Grid F) (key : Value F) : Except Fault (Value F) := do
  let keys := match key with
    | tuple items => items
    | key => [key]
  let items ← keys.mapM item?
  let dotted := items.any fun
    | .ellipsis => true
    | _ => false
  let joined := items.any isFancy
  let expanded ← expand? g.shape.length items
  let axes := g.shape.zip (Shape.strides g.shape)
  let result := collect g (← arrange? (← select? joined expanded axes))
  return if dotted then ofGrid result else ofResult result

def isLabel : Value F → Bool
  | list _ | dict _ | slice .. | array _ (_ :: _) _ | series .. | table .. => false
  | tuple items => items.all fun
    | list _ | dict _ | array _ (_ :: _) _ => false
    | _ => true
  | _ => true

def pick {α : Type} (items : List α) (positions : List Nat) : List α :=
  let store := items.toArray
  positions.filterMap fun p => store[p]?

def labelPositions (index : List (Value F)) (label : Value F) : List Nat :=
  (index.zipIdx.filter fun (l, _) => same l label).map (·.2)

/-- Positions by a slice: integers count rows, labels include their end. -/
def sliceRows? (index : List (Value F)) (lower upper step : Value F) : Except Fault (List Nat) := do
  let place? (v : Value F) (last : Bool) : Except Fault (Value F) :=
    match v with
    | str _ =>
      match if last then (labelPositions index v).getLast? else (labelPositions index v).head? with
      | some p => .ok (int (if last then p + 1 else p))
      | none => .error .key
    | v => .ok v
  slicePositions? index.length (← place? lower false) (← place? upper true) step

/-- Positions by a list: truth values select rows, anything else names labels. -/
def listRows? (index : List (Value F)) (key : Value F) : Except Fault (List Nat) := do
  let g ← Grid.ofValue key
  if g.kind == .bool then
    if g.cells.length != index.length then throw .index
    return (g.cells.zipIdx.filter fun (v, _) => elementTruth v).map (·.2)
  let found := g.cells.map (labelPositions index)
  if found.any (·.isEmpty) then throw .key
  return found.flatten

def ofSeries? (index : List (Value F)) (kind : Kind) (cells : List (Value F)) (key : Value F) :
    Except Fault (Value F) := do
  let rows (ps : List Nat) : Value F := series (pick index ps) kind (pick cells ps)
  match key with
  | slice lower upper step => return rows (← sliceRows? index lower upper step)
  | list _ | array _ (_ :: _) _ | series .. => return rows (← listRows? index key)
  | .ellipsis => return series index kind cells
  | key =>
    if !isLabel key then throw .type
    match labelPositions index key with
    | [] => throw .key
    | [p] =>
      match cells[p]? with
      | some v => return ofResult (Grid.scalar kind v)
      | none => throw .key
    | ps => return rows ps

def ofTable? (index : List (Value F)) (columns : List (String × Kind × List (Value F)))
    (key : Value F) : Except Fault (Value F) := do
  let rows (ps : List Nat) : Value F :=
    table (pick index ps) (columns.map fun (name, kind, cells) => (name, kind, pick cells ps))
  match key with
  | slice lower upper step => return rows (← sliceRows? index lower upper step)
  | list _ | array _ (_ :: _) _ | series .. =>
    let g ← Grid.ofValue key
    if g.kind == .bool then return rows (← listRows? index key)
    let chosen ← g.cells.mapM fun
      | str name =>
        match columns.find? (·.1 == name) with
        | some c => .ok c
        | none => .error .key
      | _ => .error .key
    return table index chosen
  | str name =>
    match columns.find? (·.1 == name) with
    | some (_, kind, cells) => return series index kind cells
    | none => throw .key
  | key => if isLabel key then throw .key else throw .type

def value? (v key : Value F) : Except Fault (Value F) :=
  match v with
  | str s => ofList? s.toList (fun c => str (String.ofList [c])) (fun cs => str (String.ofList cs)) key
  | bytes octets => ofList? octets (fun o => int o.toNat) .bytes key
  | list items => ofList? items id .list key
  | tuple items => ofList? items id .tuple key
  | dict entries =>
    match key with
    | str k =>
      match Named.value? entries k with
      | some v => .ok v
      | none => .error .key
    | key => if isLabel key then .error .key else .error .type
  | cell kind v =>
    match ofGrid? (Grid.scalar kind v) key with
    | .ok r => .ok r
    | .error _ => .error .index
  | array kind shape cells => ofGrid? ⟨kind, shape, cells⟩ key
  | series index kind cells => ofSeries? index kind cells key
  | table index columns => ofTable? index columns key
  | _ => .error .type

end AdditiveModel.Subscript
