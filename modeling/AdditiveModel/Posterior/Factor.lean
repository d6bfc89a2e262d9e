import AdditiveModel.Mapper.Covariates
import AdditiveModel.Real.Decomposition

/-!
A matrix whose product with its own transpose is a given covariance. The triangular factor is tried
first, with growing amounts added to the diagonal; when all fail, the factor is made of eigenvectors
scaled by the roots of the eigenvalues, negative eigenvalues counting as zero.
-/

namespace AdditiveModel.Factor

variable {F : Type} [Scalar F]

open Scalar

def gram (L : Rows F) : Rows F := L.map fun a => L.map fun b => dot a b

def tries : Nat := 6

/-- What is added to the diagonal after try `i` has failed with `jitter`. -/
def nextJitter (scale jitter : F) (i : Nat) : F :=
  let grown := if isZero jitter then zero else jitter * ofInt 10
  ofDecimal 1 (-(tries - i : Int)) * ofDecimal 1 (-6) * scale + grown

def addToDiagonal (A : Rows F) (jitter : F) : Rows F :=
  A.zipIdx.map fun (row, i) => row.zipIdx.map fun (x, j) => x + jitter * (if i == j then one else zero)

def greater (a b : F) : F := if isNaN a then a else if isNaN b || lt a b then b else a

/-- The size of the diagonal: its greatest entry when that is positive and finite, and one. -/
def scaleOf (diagonal : List F) : F :=
  match diagonal with
  | [] => one
  | d :: rest =>
    let greatest := rest.foldl greater d
    if isFinite greatest && lt zero greatest then greatest else one

/-- Half the sum of a matrix and its transpose, where a single row or column stands for a square one;
a vector is the row of a matrix with equal rows. -/
def symmetric? (shape : List Nat) (cells : List F) : Except Fault (Rows F) :=
  let half : F := ofRatio 1 2
  match shape with
  | [n] => .ok (List.replicate n (cells.map fun x => half * (x + x)))
  | [n, m] =>
    let A := Mapper.Covariates.rowsOf n m cells
    if n == m || n == 1 || m == 1 then
      let size := if n == 1 then m else n
      let cell (i j : Nat) : F := entryAt A (if n == 1 then 0 else i) (if m == 1 then 0 else j)
      .ok (build size size fun i j => half * (cell i j + cell j i))
    else .error .value
  | _ => .error .value

def diagonal (shape : List Nat) (A : Rows F) : List F :=
  let n := A.length
  let entries := (List.range n).map fun i => entryAt A i i
  if shape.length == 1 && n > 1 then zero :: entries else entries

def timesDiagonal (V : Rows F) (ds : List F) : Rows F :=
  V.map fun row => (List.range ds.length).map fun j =>
    dot row (ds.zipIdx.map fun (d, k) => if k == j then d else zero)

variable [Decompositions F]

/-- The first triangular factor in the tries `i` to `i + fuel - 1`. -/
def jittered? (A : Rows F) (scale : F) : Nat → Nat → F → Option (Rows F)
  | 0, _, _ => none
  | fuel + 1, i, jitter =>
    match Decompositions.cholesky? (addToDiagonal A jitter) with
    | some L => some L
    | none => jittered? A scale fuel (i + 1) (nextJitter scale jitter i)

def spectral? (A : Rows F) : Except Fault (Rows F) :=
  match Decompositions.eigh? A with
  | some (values, V) =>
    .ok (timesDiagonal V (values.map fun w => sqrt (if lt w zero then zero else w)))
  | none => .error .value

def ofCovariance? (shape : List Nat) (cells : List F) : Except Fault (Rows F) := do
  let A ← symmetric? shape cells
  match jittered? A (scaleOf (diagonal shape A)) tries 0 zero with
  | some L => return L
  | none => if shape.length == 1 then throw .value else spectral? A

end AdditiveModel.Factor
