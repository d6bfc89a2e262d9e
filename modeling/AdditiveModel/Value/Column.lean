import AdditiveModel.Value.Coercion

/-!
Columns built from values. The kind of a column is the narrowest that fits its values; a missing value
among numbers or texts becomes the number that is none, and values of several types stay as they are.
-/

namespace AdditiveModel.Column

variable {F : Type} [Scalar F]

open Value

def isNull : Value F → Bool
  | null => true
  | _ => false

def isBool : Value F → Bool
  | .bool _ => true
  | _ => false

def isInt : Value F → Bool
  | int _ => true
  | _ => false

def isReal : Value F → Bool
  | int _ | float _ => true
  | _ => false

def isText : Value F → Bool
  | str _ => true
  | _ => false

def isNaN : Value F → Bool
  | float x => Scalar.isNaN x
  | _ => false

def fillMissing : Value F → Value F
  | null => float Scalar.nan
  | v => v

def infer (items : List (Value F)) : Kind × List (Value F) :=
  let items := items.map plain
  let present := items.filter fun v => !isNull v
  let reals (vs : List (Value F)) : List (Value F) := vs.map fun
    | int n => float (Scalar.ofInt n)
    | null => float Scalar.nan
    | v => v
  if present.isEmpty then (.any, items)
  else if items.all isBool then (.bool, items)
  else if items.all isInt then
    (Kind.promoteAll (items.map fun
      | int n => Kind.ofInt n
      | _ => .int64), items)
  else if present.all isReal then (.double, reals items)
  else if present.all fun v => isText v || isNaN v then (.any, items.map fillMissing)
  else (.any, items)

def ofGrid (g : Grid F) : Kind × List (Value F) :=
  if g.kind == .text then (.any, g.cells) else (g.kind, g.cells)

def ofValue? (v : Value F) : Except Fault (Kind × List (Value F)) :=
  match v with
  | list items | tuple items => .ok (infer items)
  | series _ kind cells => .ok (kind, cells)
  | array kind [n] cells => .ok (ofGrid ⟨kind, [n], cells⟩)
  | array _ (_ :: _ :: _) _ => .error .value
  | _ => .error .type

def isSingle : Value F → Bool
  | list _ | tuple _ | series .. | array _ (_ :: _) _ => false
  | _ => true

def defaultIndex (n : Nat) : List (Value F) := (List.range n).map fun (i : Nat) => int i

/-- A table with the given columns. Columns have one length; single values are repeated. -/
def table? (index : Option (List (Value F))) (columns : List (String × Value F)) :
    Except Fault (Value F) := do
  let lengths ← (columns.filter fun c => !isSingle c.2).mapM fun (_, v) => do
    return (← ofValue? v).2.length
  let rows ← match index, lengths with
    | some labels, _ => .ok labels.length
    | none, n :: _ => .ok n
    | none, [] => if columns.isEmpty then .ok 0 else .error .value
  if lengths.any (· != rows) then throw .value
  let built ← columns.mapM fun (name, v) => do
    let (kind, cells) ←
      if isSingle v then .ok (infer (List.replicate rows v)) else ofValue? v
    return (name, kind, cells)
  return table (index.getD (defaultIndex rows)) built

def series? (index : Option (List (Value F))) (v : Value F) : Except Fault (Value F) := do
  let (kind, cells) ← ofValue? v
  let labels := index.getD (defaultIndex cells.length)
  if labels.length != cells.length then throw .value
  return series labels kind cells

/-- The values of a record list by key, with null where a record has no entry. -/
def ofRecords (records : List (List (String × Value F))) : List (String × List (Value F)) :=
  let keys := (records.flatMap fun r => r.map (·.1)).eraseDups
  keys.map fun k => (k, records.map fun r => (Named.value? r k).getD (float Scalar.nan))

def rowItems? : Value F → Option (List (Value F))
  | list items | tuple items => some items
  | array kind [_] cells => some (cells.map (cell kind))
  | series _ kind cells => some (cells.map (cell kind))
  | _ => none

def ofRows (rows : List (List (Value F))) : List (List (Value F)) :=
  let width := (rows.map List.length).foldl max 0
  (List.range width).map fun i => rows.map fun r => (r[i]?).getD null

def named (columns : List (Kind × List (Value F))) : List (String × Kind × List (Value F)) :=
  columns.zipIdx.map fun ((kind, cells), i) => (toString i, kind, cells)

/-- The columns of data that is neither a table nor named fields: records, rows or a vector. -/
def ofData? (v : Value F) : Except Fault (List (String × Kind × List (Value F))) :=
  match v with
  | list items | tuple items =>
    match items.mapM (fun | dict entries => some entries | _ => none) with
    | some records =>
      .ok ((ofRecords records).map fun (name, cells) =>
        let (kind, cells) := infer cells
        (name, kind, cells))
    | none =>
      match items.mapM rowItems? with
      | some rows => .ok (named ((ofRows rows).map infer))
      | none => .ok (named [infer items])
  | series _ kind cells => .ok (named [(kind, cells)])
  | array kind [n] cells => .ok (named [ofGrid ⟨kind, [n], cells⟩])
  | array kind [n, m] cells =>
    let g : Grid F := ⟨kind, [n, m], cells⟩
    .ok (named (g.transpose.slabs.map fun cells => ofGrid ⟨kind, [n], cells⟩))
  | _ => .error .value

end AdditiveModel.Column
