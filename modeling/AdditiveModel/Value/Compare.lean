import AdditiveModel.Operation.Number
import AdditiveModel.Value.Basic

/-!
Equality and order of plain values. Numbers of different types compare by value and exactly; lists
compare item by item. An array inside a list compares as a whole only when it has a single element.
A value that is no number equals nothing, but as an item or a key it is found again as the same object.
-/

namespace AdditiveModel

inductive PlainNumber (F : Type) where
  | int (n : Int)
  | real (x : F)
  | complex (p : Number.Pair F)
  deriving Inhabited

variable {F : Type} [Scalar F]

namespace PlainNumber

def eq : PlainNumber F → PlainNumber F → Bool
  | int a, int b => a == b
  | int a, real y | real y, int a => Number.intEq a y
  | real x, real y => Scalar.eq x y
  | complex p, complex q => Scalar.eq p.1 q.1 && Scalar.eq p.2 q.2
  | complex p, int b | int b, complex p => Number.intEq b p.1 && Scalar.isZero p.2
  | complex p, real y | real y, complex p => Scalar.eq p.1 y && Scalar.isZero p.2

def found : PlainNumber F → PlainNumber F → Bool
  | real x, real y => samePart x y
  | complex p, complex q => samePart p.1 q.1 && samePart p.2 q.2
  | x, y => x.eq y
where
  samePart (x y : F) : Bool := Scalar.eq x y || Scalar.identical x y

def lt? : PlainNumber F → PlainNumber F → Option Bool
  | int a, int b => some (a < b)
  | int a, real y => some (Number.intLt a y)
  | real x, int b => some (Number.ltInt x b)
  | real x, real y => some (Scalar.lt x y)
  | _, _ => none

def isNaN : PlainNumber F → Bool
  | real x => Scalar.isNaN x
  | _ => false

end PlainNumber

namespace Value

def number? : Value F → Option (PlainNumber F)
  | bool b => some (.int (if b then 1 else 0))
  | int n => some (.int n)
  | float x => some (.real x)
  | complex re im => some (.complex (re, im))
  | cell _ (bool b) => some (.int (if b then 1 else 0))
  | cell _ (int n) => some (.int n)
  | cell _ (float x) => some (.real x)
  | cell _ (complex re im) => some (.complex (re, im))
  | _ => none

/-- Whether two values are numbers that equal each other or are one object. -/
def sameNumber (a b : Value F) : Bool :=
  match number? a, number? b with
  | some x, some y => x.found y
  | _, _ => false

def sameFunction : Callable → Callable → Bool
  | .builtin f, .builtin g => f == g
  | .formula a m, .formula b n | .ofData a m, .ofData b n => a.text == b.text && m == n
  | .evaluator a, .evaluator b => a == b
  | .genericEvaluator, .genericEvaluator => true
  | _, _ => false

/-- The truth of a comparison of arrays, which must have a single element. -/
def truthOfAll : List Bool → Except Fault Bool
  | [b] => .ok b
  | _ => .error .value

mutual

def equal? : Value F → Value F → Except Fault Bool
  | list xs, list ys | tuple xs, tuple ys => equalItems? xs ys
  | dict xs, dict ys => do
    if xs.length != ys.length then return false
    entriesIn? xs ys
  | str a, str b => .ok (a == b)
  | bytes a, bytes b => .ok (a == b)
  | null, null | ellipsis, ellipsis => .ok true
  | function f, function g => .ok (sameFunction f g)
  | expression a, expression b => .ok (a.text == b.text)
  | slice a b c, slice x y z => do
    if !(← equal? a x) then return false
    if !(← equal? b y) then return false
    equal? c z
  | array _ _ [a], array _ _ [b] => equal? a b
  | array _ _ [a], b => equal? a b
  | array _ _ xs, _ => truthOfAll (xs.map fun _ => false)
  | a, array _ _ [b] =>
    match number? a, number? b with
    | some x, some y => .ok (x.eq y)
    | _, _ => .ok false
  | _, array _ _ ys => truthOfAll (ys.map fun _ => false)
  | series .., _ | _, series .. | table .., _ | _, table .. => .error .value
  | a, b =>
    match number? a, number? b with
    | some x, some y => .ok (x.eq y)
    | _, _ => .ok false

def equalItems? : List (Value F) → List (Value F) → Except Fault Bool
  | [], [] => .ok true
  | x :: xs, y :: ys => do
    if xs.length != ys.length then return false
    if sameNumber x y || (← equal? x y) then equalItems? xs ys else return false
  | _, _ => .ok false

def entriesIn? : List (String × Value F) → List (String × Value F) → Except Fault Bool
  | [], _ => .ok true
  | (k, v) :: rest, ys =>
    match Named.value? ys k with
    | some w => do if sameNumber v w || (← equal? v w) then entriesIn? rest ys else return false
    | none => .ok false

end

def same (a b : Value F) : Bool :=
  match equal? a b with
  | .ok b => b
  | .error _ => false

def found (a b : Value F) : Bool := sameNumber a b || same a b

mutual

/-- Whether the first value is smaller, or smaller or equal when `orEqual` holds. -/
def less? (orEqual : Bool) : Value F → Value F → Except Fault Bool
  | str a, str b => .ok (if orEqual then decide (a ≤ b) else decide (a < b))
  | bytes a, bytes b =>
    let xs := a.map UInt8.toNat
    let ys := b.map UInt8.toNat
    .ok (if orEqual then decide (xs ≤ ys) else decide (xs < ys))
  | list xs, list ys | tuple xs, tuple ys => lessItems? orEqual xs ys
  | a, b =>
    match number? a, number? b with
    | some x, some y =>
      match x.lt? y, y.lt? x with
      | some before, some after =>
        .ok (before || (orEqual && !after && !x.isNaN && !y.isNaN))
      | _, _ => .error .type
    | _, _ => .error .type

def lessItems? (orEqual : Bool) : List (Value F) → List (Value F) → Except Fault Bool
  | [], [] => .ok orEqual
  | [], _ :: _ => .ok true
  | _ :: _, [] => .ok false
  | x :: xs, y :: ys => do
    if sameNumber x y || (← equal? x y) then lessItems? orEqual xs ys else less? orEqual x y

end

def compare? (op : Comparison) (a b : Value F) : Except Fault Bool :=
  match op with
  | .eq => equal? a b
  | .ne => (equal? a b).map (! ·)
  | .lt => less? false a b
  | .le => less? true a b
  | .gt => less? false b a
  | .ge => less? true b a

end Value

end AdditiveModel
