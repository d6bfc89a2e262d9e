import AdditiveModel.Value.Coercion
import AdditiveModel.Value.Compare

/-!
Values as collections: the items that a value gives, which values can be keys, and the distinct items
of an array in order.
-/

namespace AdditiveModel.Value

variable {F : Type} [Scalar F]

instance : BEq (Value F) := ⟨same⟩

def element (kind : Kind) (v : Value F) : Value F :=
  match kind with
  | .text | .any => v
  | _ => cell kind v.plain

/-- A value as a key: a single element of an array gives its number as a new object. -/
def key : Value F → Value F
  | cell _ (float x) => float (Scalar.renew x)
  | cell _ (complex x y) => complex (Scalar.renew x) (Scalar.renew y)
  | cell _ v => v
  | v => v

/-- The items of a value from first to last: of a text its characters, of named fields their names. -/
def items? : Value F → Except Fault (List (Value F))
  | list items | tuple items => .ok items
  | str s => .ok (s.toList.map fun c => str (String.ofList [c]))
  | bytes octets => .ok (octets.map fun o => int o.toNat)
  | dict entries => .ok (entries.map fun (k, _) => str k)
  | array kind [_] cells => .ok (cells.map (element kind))
  | array kind (n :: shape) cells =>
    .ok ((Grid.slabs ⟨kind, n :: shape, cells⟩).map fun cells => array kind shape cells)
  | series _ _ cells => .ok cells
  | table _ columns => .ok (columns.map fun (name, _) => str name)
  | _ => .error .type

mutual

def isKey : Value F → Bool
  | tuple items => areKeys items
  | list _ | dict _ | slice .. | array .. | series .. | table .. | sparse .. => false
  | _ => true

def areKeys : List (Value F) → Bool
  | [] => true
  | v :: vs => isKey v && areKeys vs

end

/-- The order of the elements of one kind; a number that is none comes last. -/
def before? (kind : Kind) (a b : Value F) : Except Fault Bool :=
  match kind, a, b with
  | .any, a, b => less? false a b
  | _, float x, float y => .ok (Scalar.lt x y || (Scalar.isNaN y && !Scalar.isNaN x))
  | _, complex x x', complex y y' => .ok (Scalar.lt x y || (Scalar.eq x y && Scalar.lt x' y'))
  | _, a, b => less? false a b

def coincides (kind : Kind) (a b : Value F) : Bool :=
  match kind, a, b with
  | .double, float x, float y | .half, float x, float y =>
    Scalar.eq x y || (Scalar.isNaN x && Scalar.isNaN y)
  | _, a, b => same a b

/-- The first of every run of values that coincide; `last` is the value kept before. -/
def runHeads (kind : Kind) (last : Option (Value F)) : List (Value F) → List (Value F)
  | [] => []
  | b :: rest =>
    if last.any (coincides kind · b) then runHeads kind last rest
    else b :: runHeads kind (some b) rest

/-- The distinct elements of an array in ascending order. Elements without an order are refused. -/
def distinct? (g : Grid F) : Except Fault (List (Value F)) := do
  if g.kind == .any then
    let _ ← g.cells.zipIdx.mapM fun (a, i) => (g.cells.drop (i + 1)).mapM fun b => before? .any b a
  let after (a b : Value F) : Bool :=
    match before? g.kind b a with
    | .ok t => t
    | .error _ => false
  return runHeads g.kind none (g.cells.mergeSort fun a b => !after a b)

end AdditiveModel.Value
