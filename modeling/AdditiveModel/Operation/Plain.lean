import AdditiveModel.Value.Coercion
import AdditiveModel.Value.Compare

/-!
Arithmetic of plain values: unbounded integers, real numbers that report division by zero and
overflow, complex numbers, and the joining and repeating of lists and texts.
-/

namespace AdditiveModel.Plain

variable {F : Type} [Scalar F]

open Value Scalar

def reals? (a b : PlainNumber F) : Except Fault (Option (F × F)) :=
  match a, b with
  | .int x, .int y => do return some (← Number.ofInt? x, ← Number.ofInt? y)
  | .int x, .real y => do return some (← Number.ofInt? x, y)
  | .real x, .int y => do return some (x, ← Number.ofInt? y)
  | .real x, .real y => .ok (some (x, y))
  | _, _ => .ok none

def pair? : PlainNumber F → Except Fault (Number.Pair F)
  | .int n => do return (← Number.ofInt? n, zero)
  | .real x => .ok (x, zero)
  | .complex p => .ok p

def divInt? (a b : Int) : Except Fault (Value F) :=
  if b == 0 then .error .zeroDivision
  else
    let x : F := ofRatio (if b < 0 then -a else a) b.natAbs
    if isFinite x then .ok (float x) else .error .overflow

/-- The power of complex numbers. A power without a direction counts as a division by zero, and an
infinite one is out of range. -/
def powComplex? (p q : Number.Pair F) : Except Fault (Value F) :=
  if (Number.smallExponent? q).isNone && !Number.isZeroPair p && Number.isInfinite (Number.powPhase p q) then
    .error .zeroDivision
  else
    match Number.powPair? p q with
    | some r => if Number.isInfinite r.1 || Number.isInfinite r.2 then .error .overflow else .ok (complex r.1 r.2)
    | none => .error .zeroDivision

/-- The power of real numbers. A negative base with a fractional exponent gives a complex number. -/
def powReal? (x y : F) : Except Fault (Value F) :=
  if isZero x && lt y zero && isFinite y then .error .zeroDivision
  else if lt x zero && isFinite x && isFinite y && !Number.isIntegral y then
    powComplex? (x, zero) (y, zero)
  else
    let r := pow x y
    if isFinite x && isFinite y && !isFinite r then .error .overflow else .ok (float r)

/-- A power with a natural exponent; the exponent is not limited where the base stays small. -/
def powNat (a : Int) (n : Nat) : Int :=
  if a == 1 || n == 0 then 1
  else if a == 0 then 0
  else if a == -1 then (if n % 2 == 0 then 1 else -1)
  else Int.pow a n

def powInt? (a b : Int) : Except Fault (Value F) :=
  if 0 ≤ b then .ok (int (powNat a b.toNat))
  else do
    let x ← Number.ofInt? a
    let y ← Number.ofInt? b
    powReal? x y

def complexOp? (op : BinaryOp) (p q : Number.Pair F) : Except Fault (Value F) :=
  let give (r : Number.Pair F) : Value F := complex r.1 r.2
  match op with
  | .add => .ok (give (Number.addPair p q))
  | .sub => .ok (give (Number.subPair p q))
  | .mul => .ok (give (Number.mulPair p q))
  | .div => if Number.isZeroPair q then .error .zeroDivision else .ok (give (Number.divPair p q))
  | .pow => powComplex? p q
  | _ => .error .type

def realOp? (op : BinaryOp) (x y : F) : Except Fault (Value F) :=
  match op with
  | .add => .ok (float (x + y))
  | .sub => .ok (float (x - y))
  | .mul => .ok (float (x * y))
  | .div => if isZero y then .error .zeroDivision else .ok (float (x / y))
  | .floorDiv => if isZero y then .error .zeroDivision else .ok (float (Number.floorDiv x y))
  | .mod => if isZero y then .error .zeroDivision else .ok (float (Number.floorMod x y))
  | .pow => powReal? x y
  | .matMul | .bitAnd | .bitOr => .error .type

/-- The bits of integers, each extended by its sign; computed on enough bits for both. -/
def bitwise (f : Nat → Nat → Nat) (a b : Int) : Int :=
  let width := max (Nat.log2 a.natAbs) (Nat.log2 b.natAbs) + 2
  let modulus := Nat.pow 2 width
  (f (a % modulus).toNat (b % modulus).toNat : Int).bmod modulus

def intOp? (op : BinaryOp) (a b : Int) : Except Fault (Value F) :=
  match op with
  | .add => .ok (int (a + b))
  | .sub => .ok (int (a - b))
  | .mul => .ok (int (a * b))
  | .div => divInt? a b
  | .floorDiv => if b == 0 then .error .zeroDivision else .ok (int (Int.fdiv a b))
  | .mod => if b == 0 then .error .zeroDivision else .ok (int (Int.fmod a b))
  | .pow => powInt? a b
  | .bitAnd => .ok (int (bitwise (· &&& ·) a b))
  | .bitOr => .ok (int (bitwise (· ||| ·) a b))
  | .matMul => .error .type

def numberOp? (op : BinaryOp) (a b : PlainNumber F) : Except Fault (Value F) :=
  match a, b with
  | .int x, .int y => intOp? op x y
  | .complex _, _ | _, .complex _ => do
    match op with
    | .floorDiv | .mod | .bitAnd | .bitOr | .matMul => throw .type
    | _ => complexOp? op (← pair? a) (← pair? b)
  | _, _ => do
    match op with
    | .bitAnd | .bitOr | .matMul => throw .type
    | _ =>
      match ← reals? a b with
      | some (x, y) => realOp? op x y
      | none => throw .type

def repeated {α : Type} (xs : List α) (n : Int) : List α :=
  (List.replicate n.toNat xs).flatten

def isSequence : Value F → Bool
  | list _ | tuple _ | str _ | bytes _ => true
  | _ => false

def repeatSequence? (v : Value F) (n : Int) : Except Fault (Value F) :=
  if !Kind.int64.holds n then .error .overflow
  else
    match v with
    | list items => .ok (list (repeated items n))
    | tuple items => .ok (tuple (repeated items n))
    | str s => .ok (str (String.ofList (repeated s.toList n)))
    | bytes octets => .ok (bytes (repeated octets n))
    | _ => .error .type

/-- Entries of the second table after those of the first; a key of both takes the second value. -/
def mergeEntries (xs ys : List (String × Value F)) : List (String × Value F) :=
  ys.foldl (fun acc (k, v) =>
    if acc.any (·.1 == k) then acc.map fun e => if e.1 == k then (k, v) else e
    else acc ++ [(k, v)]) xs

def fillMarks? (args : List (Value F)) : List Char → Except Fault (List Char × List (Value F))
  | [] => .ok ([], args)
  | '%' :: c :: cs =>
    if c == '%' then (fillMarks? args cs).map fun (t, left) => ('%' :: t, left)
    else
      match args with
      | [] => .error .type
      | v :: rest => do
        let piece ←
          if c == 's' then .ok (plainText v)
          else if c == 'r' then .ok (display v)
          else if c == 'd' || c == 'i' then
            match number? v with
            | some (.int n) => .ok (toString n)
            | some (.real x) => (Value.truncate? x).map toString
            | _ => .error .type
          else .error .value
        let (t, left) ← fillMarks? rest cs
        return (piece.toList ++ t, left)
  | ['%'] => .error .value
  | c :: cs => (fillMarks? args cs).map fun (t, left) => (c :: t, left)

/-- A text with its marks replaced. A single value that is no list or table must be used up. -/
def fillText? (s : String) (v : Value F) : Except Fault (Value F) := do
  let (args, spare) := match v with
    | tuple items => (items, false)
    | list _ | dict _ | array .. | series .. | table .. => ([v], true)
    | v => ([v], false)
  let (text, left) ← fillMarks? args s.toList
  if left.isEmpty || spare then return str (String.ofList text) else throw .type

def binary? (op : BinaryOp) (a b : Value F) : Except Fault (Value F) :=
  match op, a, b with
  | .bitAnd, .bool x, .bool y => .ok (.bool (x && y))
  | .bitOr, .bool x, .bool y => .ok (.bool (x || y))
  | .mod, str s, v => fillText? s v
  | _, _, _ =>
    match number? a, number? b with
    | some x, some y => numberOp? op x y
    | _, _ =>
      match op, a, b with
      | .add, list xs, list ys => .ok (list (xs ++ ys))
      | .add, tuple xs, tuple ys => .ok (tuple (xs ++ ys))
      | .add, str x, str y => .ok (str (x ++ y))
      | .add, bytes xs, bytes ys => .ok (bytes (xs ++ ys))
      | .bitOr, dict xs, dict ys => .ok (dict (mergeEntries xs ys))
      | .mul, a, b =>
        match isSequence a, toIndex? b, isSequence b, toIndex? a with
        | true, some n, _, _ => repeatSequence? a n
        | _, _, true, some n => repeatSequence? b n
        | _, _, _, _ => .error .type
      | _, _, _ => .error .type

def magnitude? (v : Value F) : Except Fault (Value F) :=
  match number? v with
  | some (.int n) => .ok (int n.natAbs)
  | some (.real x) => .ok (float (Scalar.abs x))
  | some (.complex p) => .ok (float (Number.modulus p))
  | none => .error .type

def unary? (op : UnaryOp) (v : Value F) : Except Fault (Value F) :=
  match op, number? v with
  | .not, _ => (truth? v).map fun b => .bool (!b)
  | .neg, some (.int n) => .ok (int (-n))
  | .neg, some (.real x) => .ok (float (-x))
  | .neg, some (.complex p) => .ok (complex (-p.1) (-p.2))
  | .pos, some (.int n) => .ok (int n)
  | .pos, some (.real x) => .ok (float x)
  | .pos, some (.complex p) => .ok (complex p.1 p.2)
  | .invert, some (.int n) => .ok (int (-n - 1))
  | _, _ => .error .type

end AdditiveModel.Plain
