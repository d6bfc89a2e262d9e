import AdditiveModel.Real.Scalar

/-!
Decompositions of symmetric matrices, as they come from a library of linear algebra. What is built on
them takes any; `byElimination` computes both with the operations of the scalars.
-/

namespace AdditiveModel.Factor

abbrev Rows (F : Type) := List (List F)

/-- What a library of linear algebra finds about a symmetric matrix. -/
class Decompositions (F : Type) where
  /-- The lower triangular matrix whose product with its own transpose is the given one; none when that
  is found not to be positive definite. -/
  cholesky? : Rows F → Option (Rows F)
  /-- The eigenvalues, and the eigenvectors as columns; none when the search for them does not end. -/
  eigh? : Rows F → Option (List F × Rows F)

variable {F : Type} [Scalar F]

open Scalar

def entryAt (A : Rows F) (i j : Nat) : F := (A.getD i []).getD j zero

def build (n m : Nat) (f : Nat → Nat → F) : Rows F :=
  (List.range n).map fun i => (List.range m).map fun j => f i j

/-- The part of a new row below the diagonal, from the rows before it. -/
def belowDiagonal (done : Rows F) (row : List F) : List F :=
  (done.zip row).foldl (fun acc (l, a) => acc ++ [(a - dot acc l) / l.getD acc.length zero]) []

/-- The rows of the triangular factor up to the diagonal; none when a pivot is not positive. -/
def triangularFrom (done : Rows F) : Rows F → Option (Rows F)
  | [] => some done
  | row :: rest =>
    let left := belowDiagonal done row
    let pivot := row.getD left.length zero - dot left left
    if lt zero pivot then triangularFrom (done ++ [left ++ [sqrt pivot]]) rest else none

def triangular? (A : Rows F) : Option (Rows F) :=
  (triangularFrom [] A).map fun L => L.map fun row =>
    row ++ List.replicate (A.length - row.length) zero

/-- Rotates the axes `p` and `q` so that their entry in a symmetric matrix vanishes. -/
def rotate (n p q : Nat) (A V : Rows F) : Rows F × Rows F :=
  let a := entryAt A p q
  if isZero a then (A, V)
  else
    let θ := (entryAt A q q - entryAt A p p) / (ofInt 2 * a)
    let size := one / (abs θ + sqrt (θ * θ + one))
    let t := if signed θ then -size else size
    let c := one / sqrt (t * t + one)
    let s := t * c
    let mixed (M : Rows F) : Rows F := M.map fun row =>
      let x := row.getD p zero
      let y := row.getD q zero
      (row.set p (c * x - s * y)).set q (s * x + c * y)
    let B := mixed A
    let turned := build n n fun i j =>
      if i == p && j == q || i == q && j == p then zero
      else if i == p then c * entryAt B p j - s * entryAt B q j
      else if i == q then s * entryAt B p j + c * entryAt B q j
      else entryAt B i j
    (turned, mixed V)

def axisPairs (n : Nat) : List (Nat × Nat) :=
  (List.range n).flatMap fun p => (List.range n).filterMap fun q => if p < q then some (p, q) else none

def sweeps : Nat := 30

/-- Eigenvalues in ascending order, and eigenvectors as columns, after rotations in all planes. -/
def eigen (n : Nat) (A : Rows F) : List F × Rows F :=
  let identity := build n n fun i j => if i == j then one else zero
  let (D, V) := (List.range sweeps).foldl (fun acc _ =>
    (axisPairs n).foldl (fun (A, V) (p, q) => rotate n p q A V) acc) (A, identity)
  let order := (List.range n).mergeSort fun i j => !lt (entryAt D j j) (entryAt D i i)
  (order.map fun i => entryAt D i i, V.map fun row => order.map fun i => row.getD i zero)

/-- Triangular factors by elimination and eigenvectors by rotations; only a matrix that is finite, or
has a single entry, has eigenvectors. -/
@[reducible]
def Decompositions.byElimination : Decompositions F where
  cholesky? := triangular?
  eigh? A :=
    if A.length > 1 && A.any (·.any fun x => !isFinite x) then none else some (eigen A.length A)

end AdditiveModel.Factor
