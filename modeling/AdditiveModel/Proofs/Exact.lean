import AdditiveModel.Real.Decomposition
import Mathlib.Algebra.Field.Rat
import Mathlib.Algebra.Ring.MinimalAxioms
import Mathlib.Data.Rat.Floor
import Mathlib.Data.Rat.Sqrt

/-! Arithmetic without rounding. Statements about values that are equal only when nothing is
rounded are made over an exact scalar type; the rational numbers are one. -/

namespace AdditiveModel

/-- The field operations follow the laws of a field, and equality is decided exactly. -/
class Exact (F : Type) [Scalar F] : Prop where
  add_assoc (x y z : F) : x + y + z = x + (y + z)
  zero_add (x : F) : Scalar.zero + x = x
  neg_add_cancel (x : F) : -x + x = Scalar.zero
  sub_eq_add_neg (x y : F) : x - y = x + -y
  mul_assoc (x y z : F) : x * y * z = x * (y * z)
  mul_comm (x y : F) : x * y = y * x
  one_mul (x : F) : Scalar.one * x = x
  mul_add (x y z : F) : x * (y + z) = x * y + x * z
  div_mul_cancel (x : F) {y : F} : y ≠ Scalar.zero → x / y * y = x
  eq_iff (x y : F) : Scalar.eq x y = true ↔ x = y

namespace Exact

variable {F : Type} [Scalar F] [Exact F]

variable (F) in
@[reducible] def commRing : CommRing F :=
  letI : Zero F := ⟨Scalar.zero⟩
  letI : One F := ⟨Scalar.one⟩
  { CommRing.ofMinimalAxioms (R := F) add_assoc zero_add neg_add_cancel mul_assoc mul_comm one_mul
      mul_add with
    sub := (· - ·)
    sub_eq_add_neg := sub_eq_add_neg }

theorem isZero_iff {x : F} : Scalar.isZero x = true ↔ x = Scalar.zero := eq_iff x _

theorem sum_cons (x : F) (xs : List F) : Scalar.sum (x :: xs) = x + Scalar.sum xs := by
  let := commRing F
  have : Std.Associative (α := F) (· + ·) := ⟨add_assoc⟩
  have hx : Scalar.zero + x = x + Scalar.zero := add_comm _ _
  rw [Scalar.sum, List.foldl_cons, hx]
  exact List.foldl_assoc

end Exact

/-- The rational numbers. A square root that is not rational is rounded down in numerator and
denominator, and the other functions, which have no rational values, are zero. -/
instance : Scalar ℚ where
  ofInt n := n
  ofRatio n d := n / d
  ofDecimal m e := m * 10 ^ e
  nan := 0
  infinity := 0
  isNaN _ := false
  eq x y := x == y
  lt x y := decide (x < y)
  le x y := decide (x ≤ y)
  signed x := decide (x < 0)
  floor? x := some x.floor
  remainder x y := x - y * (if x / y < 0 then -(-(x / y)).floor else (x / y).floor)
  sqrt := Rat.sqrt
  pow x y := if y.den = 1 then x ^ y.num else Rat.sqrt x ^ y.num
  exp _ := 0
  expm1 _ := 0
  log _ := 0
  log1p _ := 0
  sin _ := 0
  cos _ := 0
  tan _ := 0
  angle _ _ := 0
  erf _ := 0
  normalCdf _ := 0
  normalQuantile _ := 0
  normalDensity _ := 0
  logistic _ := 0
  logit _ := 0
  round _ x := x
  text x := toString x
  scientific _ x := toString x
  brief x := toString x

instance : Factor.Decompositions ℚ := .byElimination

instance : Exact ℚ where
  add_assoc := add_assoc
  zero_add x := by simp [Scalar.zero, Scalar.ofInt]
  neg_add_cancel x := by simp [Scalar.zero, Scalar.ofInt]
  sub_eq_add_neg := sub_eq_add_neg
  mul_assoc := mul_assoc
  mul_comm := mul_comm
  one_mul x := by simp [Scalar.one, Scalar.ofInt]
  mul_add := mul_add
  div_mul_cancel x y h := div_mul_cancel₀ x h
  eq_iff x y := by simp [Scalar.eq]

end AdditiveModel
