import AdditiveModel.Mapper.Sparse

/-!
What a mapper is evaluated on: the inputs of a component at a list of points, and a latent vector.
-/

namespace AdditiveModel.Mapper

variable {F : Type}

/-- The inputs of one component. Null stands for an input that is left out. -/
structure Input (F : Type) where
  main : Value F
  group : Value F
  replicate : Value F
  scale : Value F
  deriving Inhabited

namespace Input

def ofMain (main : Value F) : Input F := ⟨main, .null, .null, .null⟩

def size (input : Input F) : Nat := input.main.rows

end Input

def required? : Option (Input F) → Except Error (Input F)
  | some input => .ok input
  | none => .error (.fault .attribute)

variable [Scalar F]

def latent? (n : Int) (state : Value F) : Except Error (List F) :=
  match state with
  | .null => if n < 0 then .error (.fault .value) else .ok (List.replicate n.toNat Scalar.zero)
  | v => do
    let (_, xs) ← lift (Grid.realsOfValue v)
    if (xs.length : Int) == n then return xs else throw (.stateLength xs.length n)

def fit? (k : Nat) (values : List F) : Except Fault (List F) :=
  if values.length == k then .ok values
  else match values with
    | [v] => .ok (List.replicate k v)
    | _ => .error .value

/-- An operation of two vectors; a vector of length one is used at every place. -/
def pairwise? (op : F → F → F) (xs ys : List F) : Except Fault (List F) :=
  if xs.length == ys.length then .ok (List.zipWith op xs ys)
  else match xs, ys with
    | [x], ys => .ok (ys.map fun y => op x y)
    | xs, [y] => .ok (xs.map fun x => op x y)
    | _, _ => .error .value

end AdditiveModel.Mapper
