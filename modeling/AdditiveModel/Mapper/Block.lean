import AdditiveModel.Mapper.Input

/-!
Repeating a mapper over groups and replicates. Every pair of a group and a replicate has a latent
vector of its own; the vectors lie one after the other, groups varying fastest. A point uses the block
of its own pair, and its value is multiplied by its weight.
-/

namespace AdditiveModel.Mapper.Block

variable {F : Type} [Scalar F]

def blockOf (groups group replicate : Int) : Int := (group - 1) + groups * (replicate - 1)

def integerOf : Value F → Int
  | .int n => n
  | _ => 0

def spread {α : Type} (size : Nat) : List α → List α
  | [v] => if size > 1 then List.replicate size v else [v]
  | cells => cells

/-- The values of a block index for `size` points: one when there are none, a single value for all. -/
def indices? (index : BlockIndex) (count : Int) (size : Nat) (values : Value F) :
    Except Error (List Int) :=
  match values with
  | .null => .ok (List.replicate size 1)
  | values => do
    let g ← lift (Grid.ofValue values)
    let cells ← lift (Value.castAll? g.kind .int64 (spread size g.cells))
    let found := cells.map integerOf
    if found.length != size then throw (.blockLength index found.length size)
    if found.any fun k => k < 1 || count < k then throw (.blockRange index count)
    return found

def blocks? (groups replicates : Int) (input : Input F) : Except Error (List Int) := do
  let g ← indices? .group groups input.size input.group
  let r ← indices? .replicate replicates input.size input.replicate
  return List.zipWith (blockOf groups) g r

def occurring (blocks : List Int) : List Int := blocks.eraseDups.mergeSort (· ≤ ·)

def rowsOf (blocks : List Int) (b : Int) : List Nat :=
  blocks.zipIdx.filterMap fun (c, i) => if c == b then some i else none

def latentOf (m : Nat) (state : List F) (b : Int) : List F := (state.drop (b.toNat * m)).take m

def take? (main : Value F) (rows : List Nat) : Except Fault (Value F) := do
  let g ← Grid.ofValue main
  match g.shape with
  | [] => return .array g.kind [1] g.cells
  | _ :: shape =>
    let slabs := g.slabs.toArray
    let picked ← rows.mapM fun i =>
      match slabs[i]? with
      | some cells => .ok cells
      | none => .error .index
    return .array g.kind (rows.length :: shape) picked.flatten

def weights? (input : Input F) : Except Fault (Option (List F)) :=
  match input.scale with
  | .null => .ok none
  | v => do
    match ← v.vector? with
    | [w] => return some (List.replicate input.size w)
    | ws => return some ws

def scatter (out : List F) (rows : List Nat) (values : List F) : List F :=
  (rows.zip values).foldl (fun out (i, v) => out.set i v) out

/-- The values of a main mapper with `m` latent variables at the points of one block. -/
def values? (main : Input F → List F → Except Error (List F)) (m : Nat) (s : List F)
    (blocks : List Int) (values : Value F) (b : Int) : Except Error (List F) := do
  let rows := rowsOf blocks b
  let part ← lift (take? values rows)
  let values ← main (Input.ofMain part) (latentOf m s b)
  lift (fit? rows.length values)

def weighted? (input : Input F) (out : List F) : Except Fault (List F) := do
  match ← weights? input with
  | none => return out
  | some ws => pairwise? (· * ·) out ws

/-- The value at each point, with the values of a main mapper with `m` latent variables. -/
def evaluate? (main : Input F → List F → Except Error (List F)) (m groups replicates : Int)
    (input : Option (Input F)) (state : Value F) : Except Error (List F) := do
  let s ← latent? (m * groups * replicates) state
  let input ← required? input
  let blocks ← blocks? groups replicates input
  let out ← (occurring blocks).foldlM (fun out b => do
    return scatter out (rowsOf blocks b) (← values? main m.toNat s blocks input.main b))
    (List.replicate input.size Scalar.zero)
  lift (weighted? input out)

def placed? (m : Nat) (rows : List Nat) (b : Int) (J : Sparse F) :
    Except Fault (List (Nat × Nat × F)) :=
  J.entries.mapM fun (i, j, v) =>
    match rows[i]? with
    | some row => .ok (row, j + b.toNat * m, v)
    | none => .error .index

def entries? (main : Input F → List F → Except Error (Sparse F)) (m : Nat) (s : List F)
    (blocks : List Int) (values : Value F) (b : Int) : Except Error (List (Nat × Nat × F)) := do
  let rows := rowsOf blocks b
  let part ← lift (take? values rows)
  let J ← main (Input.ofMain part) (latentOf m s b)
  lift (placed? m rows b J)

def weightedRows? (input : Input F) (A : Sparse F) : Except Fault (Sparse F) := do
  match ← weights? input with
  | none => return A
  | some ws => if ws.length == A.rows then return A.scaleRows ws else throw .value

/-- The derivative of the value at each point in every latent variable. -/
def jacobian? (main : Input F → List F → Except Error (Sparse F)) (m groups replicates : Int)
    (input : Option (Input F)) (state : Value F) : Except Error (Sparse F) := do
  let n := m * groups * replicates
  let s ← latent? n state
  let input ← required? input
  let blocks ← blocks? groups replicates input
  let entries ← (occurring blocks).mapM (entries? main m.toNat s blocks input.main)
  let A : Sparse F := ⟨input.size, n.toNat, entries.flatten⟩
  if n < 0 || A.entries.any fun (_, j, _) => A.columns ≤ j then throw (.fault .value)
  if entries.isEmpty then return A else lift (weightedRows? input A)

end AdditiveModel.Mapper.Block
