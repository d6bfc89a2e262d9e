import AdditiveModel.Operation.Plain

/-!
Elementwise operations on arrays. The operands meet in one kind, a plain number adapting to the kind
of the other operand, and are stretched to one shape. Integers wrap around, and division by zero
gives an infinite value or none instead of an error. The kind is settled before the shape.
-/

namespace AdditiveModel

variable {F : Type} [Scalar F]

/-- An operand. A plain number is `weak`: its kind gives way. -/
structure Operand (F : Type) where
  grid : Grid F
  weak : Bool

namespace Operand

def ofValue (v : Value F) : Except Fault (Operand F) := do
  let weak := match v with
    | .int _ | .float _ | .complex _ _ => true
    | _ => false
  return ⟨← Grid.ofValue v, weak⟩

def meet (a b : Operand F) : Kind :=
  if a.weak == b.weak then a.grid.kind.promote b.grid.kind
  else if b.weak then a.grid.kind.adapt b.grid.kind
  else b.grid.kind.adapt a.grid.kind

def cells? (a : Operand F) (kind : Kind) : Except Fault (Grid F) :=
  match a.weak, a.grid.cells with
  | true, [.int n] =>
    if kind.isInteger then
      if kind.holds n then .ok (Grid.scalar kind (.int n)) else .error .overflow
    else a.grid.cast? kind
  | _, _ => a.grid.cast? kind

end Operand

namespace Pointwise

open Value Scalar

/-- The kind that an operation computes in and the kind of its results, for operands that meet in a
kind; none when the operation is not defined there. -/
def loop? (op : BinaryOp) (k : Kind) : Option (Kind × Kind) :=
  match op, k with
  | .matMul, _ => none
  | _, .any => some (.any, .any)
  | .add, _ => some (k, k)
  | _, .text => none
  | .mul, _ => some (k, k)
  | .sub, .bool => none
  | .sub, _ => some (k, k)
  | .div, .bool | .div, .int8 | .div, .int64 | .div, .uint64 => some (.double, .double)
  | .div, _ => some (k, k)
  | .floorDiv, .complex | .mod, .complex => none
  | .floorDiv, .bool | .mod, .bool | .pow, .bool => some (.int8, .int8)
  | .floorDiv, _ | .mod, _ | .pow, _ => some (k, k)
  | .bitAnd, _ | .bitOr, _ => if k == .bool || k.isInteger then some (k, k) else none

/-- A power of integers modulo a power of two. The fuel bounds the number of binary digits. -/
def powWrapped (kind : Kind) : Nat → Int → Int → Nat → Int
  | 0, acc, _, _ => acc
  | _, acc, _, 0 => acc
  | fuel + 1, acc, square, n =>
    let acc := if n % 2 == 1 then kind.wrap (acc * square) else acc
    powWrapped kind fuel acc (kind.wrap (square * square)) (n / 2)

def wordOp? (op : BinaryOp) (kind : Kind) (a b : Int) : Except Fault Int :=
  match op with
  | .add => .ok (kind.wrap (a + b))
  | .sub => .ok (kind.wrap (a - b))
  | .mul => .ok (kind.wrap (a * b))
  | .floorDiv => .ok (if b == 0 then 0 else kind.wrap (Int.fdiv a b))
  | .mod => .ok (if b == 0 then 0 else kind.wrap (Int.fmod a b))
  | .pow => if b < 0 then .error .value else .ok (powWrapped kind 64 1 a b.toNat)
  | .bitAnd => .ok (kind.wrap (Plain.bitwise (· &&& ·) a b))
  | .bitOr => .ok (kind.wrap (Plain.bitwise (· ||| ·) a b))
  | .div | .matMul => .error .type

def realOp? (op : BinaryOp) (x y : F) : Except Fault F :=
  match op with
  | .add => .ok (x + y)
  | .sub => .ok (x - y)
  | .mul => .ok (x * y)
  | .div => .ok (x / y)
  | .floorDiv => .ok (Number.floorDiv x y)
  | .mod => .ok (Number.floorMod x y)
  | .pow => .ok (Scalar.pow x y)
  | .bitAnd | .bitOr | .matMul => .error .type

def complexOp? (op : BinaryOp) (p q : Number.Pair F) : Except Fault (Number.Pair F) :=
  match op with
  | .add => .ok (Number.addPair p q)
  | .sub => .ok (Number.subPair p q)
  | .mul => .ok (Number.mulPair p q)
  | .div =>
    .ok (if Number.isZeroPair q then (p.1 / zero, p.2 / zero) else Number.divPair p q)
  | .pow => .ok ((Number.powPair? p q).getD (nan, nan))
  | _ => .error .type

/-- One step of an operation; both elements are of the given kind. -/
def cellOp? (op : BinaryOp) (kind : Kind) (a b : Value F) : Except Fault (Value F) :=
  match kind, a, b with
  | .any, a, b => Plain.binary? op a b
  | .bool, .bool x, .bool y =>
    match op with
    | .add | .bitOr => .ok (.bool (x || y))
    | .mul | .bitAnd => .ok (.bool (x && y))
    | _ => .error .type
  | .text, .str x, .str y => .ok (.str (x ++ y))
  | .complex, .complex p q, .complex r s =>
    (complexOp? op (p, q) (r, s)).map fun z => .complex z.1 z.2
  | _, .int x, .int y => (wordOp? op kind x y).map .int
  | _, .float x, .float y => (realOp? op x y).map fun z => .float (round kind.precision z)
  | _, _, _ => .error .type

/-- Combines the elements of two arrays after stretching them to one shape. -/
def zip? (kind : Kind) (f : Value F → Value F → Except Fault (Value F)) (a b : Grid F) :
    Except Fault (Grid F) := do
  let shape ← Shape.broadcast a.shape b.shape
  let cells ← ((a.stretch shape).zip (b.stretch shape)).mapM fun (x, y) => f x y
  return ⟨kind, shape, cells⟩

def map? (kind : Kind) (f : Value F → Except Fault (Value F)) (g : Grid F) : Except Fault (Grid F) := do
  return ⟨kind, g.shape, ← g.cells.mapM f⟩

def textsAgree (a b : Operand F) : Bool := (a.grid.kind == .text) == (b.grid.kind == .text)

def binaryOperands? (op : BinaryOp) (a b : Operand F) : Except Fault (Grid F) :=
  let k := a.meet b
  if k == .text && !textsAgree a b then .error .type
  else
    match loop? op k with
    | none => .error .type
    | some (computing, result) => do
      zip? result (cellOp? op computing) (← a.cells? computing) (← b.cells? computing)

def binary? (op : BinaryOp) (a b : Value F) : Except Fault (Grid F) := do
  binaryOperands? op (← Operand.ofValue a) (← Operand.ofValue b)

def complexLess (orEqual : Bool) (p q : Number.Pair F) : Bool :=
  lt p.1 q.1 || (eq p.1 q.1 && (if orEqual then le p.2 q.2 else lt p.2 q.2))

def cellCompare? (op : Comparison) (kind : Kind) (a b : Value F) : Except Fault (Value F) :=
  match kind, a, b, op with
  | .complex, .complex p q, .complex r s, .lt => .ok (.bool (complexLess false (p, q) (r, s)))
  | .complex, .complex p q, .complex r s, .le => .ok (.bool (complexLess true (p, q) (r, s)))
  | .complex, .complex p q, .complex r s, .gt => .ok (.bool (complexLess false (r, s) (p, q)))
  | .complex, .complex p q, .complex r s, .ge => .ok (.bool (complexLess true (r, s) (p, q)))
  | _, a, b, op => (Value.compare? op a b).map .bool

/-- The kind that a comparison is made in. Integers of all kinds compare as they are. -/
def compareKind (a b : Operand F) : Kind :=
  let whole (k : Kind) : Bool := k == .bool || k.isInteger
  if (whole a.grid.kind || (a.weak && a.grid.kind == .any))
    && (whole b.grid.kind || (b.weak && b.grid.kind == .any)) then .any
  else a.meet b

def compareOperands? (op : Comparison) (a b : Operand F) : Except Fault (Grid F) :=
  let k := compareKind a b
  if k == .text && !textsAgree a b then
    match op with
    | .eq | .ne => zip? .bool (fun _ _ => .ok (.bool (op == .ne))) a.grid b.grid
    | _ => .error .type
  else do
    zip? .bool (cellCompare? op k) (← a.cells? k) (← b.cells? k)

def compare? (op : Comparison) (a b : Value F) : Except Fault (Grid F) := do
  compareOperands? op (← Operand.ofValue a) (← Operand.ofValue b)

/-- The larger or the smaller of two elements; one that is not a number wins. -/
def cellExtreme? (larger : Bool) (a b : Value F) : Except Fault (Value F) :=
  let missing := match a, b with
    | .float x, _ => if isNaN x then some a else none
    | _, _ => none
  match missing with
  | some v => .ok v
  | none =>
    match b with
    | .float y =>
      if isNaN y then .ok b else do
        return if ← Value.compare? (if larger then .ge else .le) a b then a else b
    | .complex r s =>
      match a with
      | .complex p q =>
        .ok (if (if larger then complexLess true (r, s) (p, q) else complexLess true (p, q) (r, s))
          then a else b)
      | _ => .error .type
    | _ => do return if ← Value.compare? (if larger then .ge else .le) a b then a else b

def extreme? (larger : Bool) (a b : Value F) : Except Fault (Grid F) := do
  let x ← Operand.ofValue a
  let y ← Operand.ofValue b
  let k := x.meet y
  if k == .text then throw .type
  zip? k (cellExtreme? larger) (← x.cells? k) (← y.cells? k)

def both? (a b : Grid F) : Except Fault (Grid F) :=
  zip? .bool (fun x y => .ok (.bool (elementTruth x && elementTruth y))) a b

def not? (g : Grid F) : Except Fault (Grid F) :=
  if g.kind == .text then .error .type
  else map? .bool (fun v => (truth? v).map fun b => .bool (!b)) g

def cellUnary? (op : UnaryOp) (kind : Kind) (v : Value F) : Except Fault (Value F) :=
  match op, kind, v with
  | .invert, .bool, .bool b => .ok (.bool (!b))
  | _, .any, v => Plain.unary? op v
  | .neg, _, .int n => .ok (.int (kind.wrap (-n)))
  | .invert, _, .int n => .ok (.int (kind.wrap (-n - 1)))
  | _, _, v => Plain.unary? op v

def unary? (op : UnaryOp) (g : Grid F) : Except Fault (Grid F) :=
  match op, g.kind with
  | .not, _ => not? g
  | _, .text => .error .type
  | .neg, .bool | .pos, .bool => .error .type
  | .invert, .half | .invert, .double | .invert, .complex => .error .type
  | _, k => map? k (cellUnary? op k) g

def abs? (g : Grid F) : Except Fault (Grid F) :=
  match g.kind with
  | .text => .error .type
  | .bool => .ok g
  | .complex => map? .double Plain.magnitude? g
  | k => map? k (fun v => do
      match ← Plain.magnitude? v with
      | .int n => return .int (k.wrap n)
      | w => return w) g

def realKind? : Kind → Option Kind
  | .bool | .int8 | .half => some .half
  | .int64 | .uint64 | .double => some .double
  | .complex => some .complex
  | .text | .any => none

/-- Applies a real function, or its extension to complex numbers, to all elements. -/
def function? (f : F → F) (g : Number.Pair F → Option (Number.Pair F)) (grid : Grid F) :
    Except Fault (Grid F) :=
  match realKind? grid.kind with
  | none => if grid.kind == .any && grid.cells.isEmpty then .ok grid else .error .type
  | some .complex => map? .complex (fun
      | .complex re im =>
        match g (re, im) with
        | some z => .ok (.complex z.1 z.2)
        | none => .error .type
      | _ => .error .type) grid
  | some k => do
    let reals ← grid.cast? .double
    map? k (fun
      | .float x => .ok (.float (round k.precision (f x)))
      | _ => .error .type) reals

end Pointwise

end AdditiveModel
