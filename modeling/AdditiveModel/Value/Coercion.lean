import AdditiveModel.Text.Numeral
import AdditiveModel.Value.Display

/-!
Reading values as numbers, truth values and arrays. Lists of equal shape nest to an array whose kind
is the one all elements meet in; everything that is no list, array or labelled data is one element.
-/

namespace AdditiveModel

open Text

variable {F : Type} [Scalar F]

/-- The nearest real number of an integer; an integer out of range overflows. -/
def Number.ofInt? (n : Int) : Except Fault F :=
  let x : F := Scalar.ofInt n
  if Scalar.isFinite x then .ok x else .error .overflow

def Numeral.toReal : Numeral → F
  | .decimal negative mantissa exponent =>
    let x : F := Scalar.ofDecimal mantissa exponent
    if negative then -x else x
  | .infinity negative => if negative then -Scalar.infinity else Scalar.infinity
  | .nan => Scalar.nan

namespace Value

def textToReal? (s : String) : Except Fault F :=
  match Numeral.ofText? s with
  | some n => .ok (Numeral.toReal n)
  | none => .error .value

def octetText (octets : List UInt8) : String := String.ofList (octets.map fun o => Char.ofNat o.toNat)

def toReal? : Value F → Except Fault F
  | bool b | cell _ (bool b) => .ok (Scalar.ofInt (if b then 1 else 0))
  | int n | cell _ (int n) => Number.ofInt? n
  | float x | cell _ (float x) => .ok x
  | cell _ (complex re _) => .ok re
  | str s | cell _ (str s) => textToReal? s
  | bytes octets => textToReal? (octetText octets)
  | array _ [] [bool b] => .ok (Scalar.ofInt (if b then 1 else 0))
  | array _ [] [int n] => Number.ofInt? n
  | array _ [] [float x] => .ok x
  | array _ [] [complex re _] => .ok re
  | array _ [] [str s] => textToReal? s
  | _ => .error .type

/-- An element of an array as a real number: a missing value is not a number, and a list is no
element at all. -/
def elementToReal? : Value F → Except Fault F
  | null | cell _ null => .ok Scalar.nan
  | list _ | tuple _ | array _ (_ :: _) _ | series .. | table .. | sparse .. => .error .value
  | v => toReal? v

def truncate? (x : F) : Except Fault Int :=
  match Scalar.truncate? x with
  | some n => .ok n
  | none => if Scalar.isNaN x then .error .value else .error .overflow

def textToInt? (s : String) : Except Fault Int :=
  match Numeral.integerOfText? s with
  | some n => .ok n
  | none => .error .value

def toInt? : Value F → Except Fault Int
  | bool b | cell _ (bool b) => .ok (if b then 1 else 0)
  | int n | cell _ (int n) => .ok n
  | float x | cell _ (float x) => truncate? x
  | cell _ (complex re _) => truncate? re
  | str s | cell _ (str s) => textToInt? s
  | bytes octets => textToInt? (octetText octets)
  | array _ [] [bool b] => .ok (if b then 1 else 0)
  | array _ [] [int n] => .ok n
  | array _ [] [float x] => truncate? x
  | array _ [] [str s] => textToInt? s
  | _ => .error .type

/-- A value that can stand for an index: an integer or a plain truth value. -/
def toIndex? : Value F → Option Int
  | bool b => some (if b then 1 else 0)
  | int n => some n
  | cell .bool _ => none
  | cell _ (int n) => some n
  | array .bool [] _ => none
  | array _ [] [int n] => some n
  | _ => none

def elementTruth : Value F → Bool
  | null => false
  | bool b => b
  | int n => n != 0
  | float x => !Scalar.isZero x
  | complex re im => !(Scalar.isZero re && Scalar.isZero im)
  | str s => !s.isEmpty
  | bytes octets => !octets.isEmpty
  | list items | tuple items => !items.isEmpty
  | dict entries => !entries.isEmpty
  | _ => true

def truth? : Value F → Except Fault Bool
  | cell _ v => .ok (elementTruth v)
  | array _ _ [v] => .ok (elementTruth v)
  | array .. | series .. | table .. | sparse .. => .error .value
  | v => .ok (elementTruth v)

/-- Out of range, a real number becomes the least integer of 64 bits. -/
def leastInt64 : Int := -(Nat.pow 2 63)

def realToWord (kind : Kind) (x : F) : Int :=
  match Scalar.truncate? x with
  | some n => if Kind.int64.holds n then kind.wrap n else kind.wrap leastInt64
  | none => kind.wrap leastInt64

def cast? (kind : Kind) (v : Value F) : Except Fault (Value F) :=
  match kind, v with
  | .any, v => .ok v
  | .text, v => .ok (str (plainText v))
  | .bool, v => .ok (bool (elementTruth v))
  | .complex, complex re im => .ok (complex re im)
  | .complex, v => (elementToReal? v).map (complex · Scalar.zero)
  | .half, complex re _ => .ok (float (Scalar.round .half re))
  | .double, complex re _ => .ok (float re)
  | .half, v => (elementToReal? v).map fun x => float (Scalar.round .half x)
  | .double, v => (elementToReal? v).map float
  | _, float x => .ok (int (realToWord kind x))
  | _, int n => .ok (int (kind.wrap n))
  | _, v => do
    let n ← toInt? v
    if kind.holds n then return int n else throw .overflow

def castAll? (source target : Kind) (cells : List (Value F)) : Except Fault (List (Value F)) :=
  if source == target then .ok cells else cells.mapM (cast? target)

/-- The kind that columns of a table meet in; truth values and numbers do not mix. -/
def tableKind (kinds : List Kind) : Kind :=
  let k := Kind.promoteAll kinds
  if kinds.all (· == .bool) || !kinds.contains .bool then (if k == .text then .any else k) else .any

def tableGrid (rows : Nat) (columns : List (String × Kind × List (Value F))) :
    Except Fault (Grid F) := do
  let kind := tableKind (columns.map (·.2.1))
  let cells ← columns.mapM fun (_, k, cells) => castAll? k kind cells
  let byColumn : Grid F := ⟨kind, [columns.length, rows], cells.flatten⟩
  return { byColumn.transpose with shape := [rows, columns.length] }

/-- The dense form of a matrix given by its entries; entries at one place are summed. -/
def denseCells (rows columns : Nat) (entries : List (Nat × Nat × F)) : List F :=
  (List.range rows).flatMap fun i =>
    let row := entries.filter (·.1 == i)
    (List.range columns).map fun j =>
      ((row.filter (·.2.1 == j)).map (·.2.2)).foldl (· + ·) Scalar.zero

end Value

namespace Grid

def stack? (parts : List (Grid F)) : Except Fault (Grid F) :=
  match parts with
  | [] => .ok ⟨.double, [0], []⟩
  | first :: rest =>
    if rest.all (·.shape == first.shape) then do
      let kind := Kind.promoteAll (parts.map (·.kind))
      let cells ← parts.mapM fun g => Value.castAll? g.kind kind g.cells
      return ⟨kind, parts.length :: first.shape, cells.flatten⟩
    else .error .value

mutual

def ofValue : Value F → Except Fault (Grid F)
  | .bool b => .ok (scalar .bool (.bool b))
  | .int n => .ok (scalar (Kind.ofInt n) (.int n))
  | .float x => .ok (scalar .double (.float x))
  | .complex re im => .ok (scalar .complex (.complex re im))
  | .str s => .ok (scalar .text (.str s))
  | .list items | .tuple items => do stack? (← ofValues items)
  | .cell kind v => .ok (scalar kind v)
  | .array kind shape cells => .ok ⟨kind, shape, cells⟩
  | .series _ kind cells => .ok (vector (if kind == .text then .any else kind) cells)
  | .table index columns => Value.tableGrid index.length columns
  | v => .ok (scalar .any v)

def ofValues : List (Value F) → Except Fault (List (Grid F))
  | [] => .ok []
  | v :: vs => do return (← ofValue v) :: (← ofValues vs)

end

mutual

/-- A value as an array of values as they are. Lists nest as long as their items agree in shape. -/
def objectsOf : Value F → List Nat × List (Value F)
  | .list items | .tuple items =>
    match objectsOfAll items with
    | [] => ([0], [])
    | (shape, cells) :: rest =>
      if rest.all (·.1 == shape) then
        (items.length :: shape, cells ++ (rest.map (·.2)).flatten)
      else ([items.length], items)
  | .cell _ v => ([], [v])
  | .array _ shape cells => (shape, cells)
  | .series _ _ cells => ([cells.length], cells)
  | .table index columns =>
    match Value.tableGrid index.length columns with
    | .ok g => (g.shape, g.cells)
    | .error _ => ([], [])
  | v => ([], [v])

def objectsOfAll : List (Value F) → List (List Nat × List (Value F))
  | [] => []
  | v :: vs => objectsOf v :: objectsOfAll vs

end

def objects (v : Value F) : Grid F :=
  let (shape, cells) := objectsOf v
  ⟨.any, shape, cells⟩

def cast? (kind : Kind) (g : Grid F) : Except Fault (Grid F) := do
  return { g with kind := kind, cells := ← Value.castAll? g.kind kind g.cells }

def realOf : Value F → F
  | .float x => x
  | _ => Scalar.nan

/-- An element of an array of the given kind as a real number; a complex array gives real parts. -/
def cellToReal? (kind : Kind) (v : Value F) : Except Fault F :=
  match kind, v with
  | .complex, .complex re _ => .ok re
  | _, v => Value.elementToReal? v

mutual

def realsOfValue : Value F → Except Fault (List Nat × List F)
  | .list items | .tuple items => do
    let parts ← realsOfValues items
    match parts with
    | [] => return ([0], [])
    | (shape, _) :: rest =>
      if rest.all (·.1 == shape) then return (parts.length :: shape, (parts.map (·.2)).flatten)
      else throw .value
  | .cell kind v => (cellToReal? kind v).map fun x => ([], [x])
  | .array kind shape cells =>
    (cells.mapM (cellToReal? kind)).map fun xs => (shape, xs)
  | .series _ kind cells => (cells.mapM (cellToReal? kind)).map fun xs => ([cells.length], xs)
  | .table index columns => do
    let g ← Value.tableGrid index.length columns
    return (g.shape, ← g.cells.mapM (cellToReal? g.kind))
  | v => (Value.elementToReal? v).map fun x => ([], [x])

def realsOfValues : List (Value F) → Except Fault (List (List Nat × List F))
  | [] => .ok []
  | v :: vs => do return (← realsOfValue v) :: (← realsOfValues vs)

end

end Grid

namespace Value

/-- All elements of a value as real numbers, without regard to its shape. -/
def vector? : Value F → Except Fault (List F)
  | sparse rows columns entries => .ok (denseCells rows columns entries)
  | v => (Grid.realsOfValue v).map (·.2)

def ofReals (xs : List F) : Value F := ofGrid (Grid.ofFloats xs)

end Value

end AdditiveModel
