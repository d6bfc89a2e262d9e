import AdditiveModel.Proofs.Exact
import Mathlib.Algebra.Order.Field.Power
import Mathlib.Tactic.Linarith

/-! Exact numbers in their order. Comparisons, signs, integer parts and decimals are those of an ordered
field in which every number lies between two integers; of square roots only the zeros are known, so the
rational numbers are such numbers too. -/

namespace AdditiveModel

open Scalar

/-- The numbers are ordered as a field is, and each of them has an integer part. -/
class ExactOrder (F : Type) [Scalar F] : Prop extends Exact F where
  le_total (x y : F) : le x y = true ∨ le y x = true
  le_trans {x y z : F} : le x y = true → le y z = true → le x z = true
  le_antisymm {x y : F} : le x y = true → le y x = true → x = y
  lt_iff {x y : F} : lt x y = true ↔ le y x = false
  add_le_add {x y : F} : le x y = true → ∀ z, le (x + z) (y + z) = true
  mul_pos {x y : F} : lt zero x = true → lt zero y = true → lt zero (x * y) = true
  one_pos : lt (zero : F) one = true
  ofInt_add (m n : Int) : (ofInt (m + n) : F) = ofInt m + ofInt n
  ofDecimal_pos {m : Int} (e : Int) : 0 < m → lt (zero : F) (ofDecimal m e) = true
  isNaN_eq (x : F) : isNaN x = false
  signed_iff {x : F} : signed x = true ↔ lt x zero = true
  exists_floor (x : F) : ∃ k, floor? x = some k ∧ le (ofInt k) x = true ∧ lt x (ofInt (k + 1)) = true
  sqrt_eq_zero {x : F} : le zero x = true → (sqrt x = zero ↔ x = zero)

namespace ExactOrder

variable (F : Type) [Scalar F] [ExactOrder F]

@[reducible] def linearOrder : LinearOrder F where
  le x y := le x y = true
  lt x y := lt x y = true
  le_refl x := (le_total x x).elim id id
  le_trans _ _ _ := le_trans
  le_antisymm _ _ := le_antisymm
  le_total := le_total
  lt_iff_le_not_ge x y := by
    rw [lt_iff, Bool.not_eq_true]
    exact ⟨fun h => ⟨(le_total x y).resolve_right (Bool.eq_false_iff.1 h), h⟩, And.right⟩
  toDecidableLE _ _ := inferInstanceAs (Decidable (_ = true))

theorem isStrictOrderedRing :
    letI := Exact.commRing F
    letI := linearOrder F
    IsStrictOrderedRing F := by
  let := Exact.commRing F
  let := linearOrder F
  have hadd : IsOrderedAddMonoid F := { add_le_add_left _ _ h z := add_le_add h z }
  have hone : (0 : F) < 1 := one_pos
  have : ZeroLEOneClass F := ⟨hone.le⟩
  have : Nontrivial F := ⟨0, 1, hone.ne⟩
  exact .of_mul_pos fun _ _ => mul_pos

variable {F}

theorem ofInt_eq (n : Int) :
    letI := Exact.commRing F
    (ofInt n : F) = n := by
  let := Exact.commRing F
  have hneg (n : Int) : (ofInt (-n) : F) = -ofInt n := by
    rw [← sub_eq_zero, sub_neg_eq_add, ← ofInt_add, neg_add_cancel]
    rfl
  have hnat (n : Nat) : (ofInt n : F) = n := by
    induction n with
    | zero => exact Nat.cast_zero.symm
    | succ n ih =>
      rw [Int.natCast_succ, ofInt_add, ih, Nat.cast_succ]
      rfl
  cases n with
  | ofNat n => rw [Int.ofNat_eq_natCast, hnat, Int.cast_natCast]
  | negSucc n => rw [Int.negSucc_eq, hneg, ← Int.natCast_succ, hnat, Int.cast_neg, Int.cast_natCast]

theorem abs_nonneg (x : F) : le zero (Scalar.abs x) = true := by
  let := Exact.commRing F
  let := linearOrder F
  have := isStrictOrderedRing F
  rw [Scalar.abs]
  split
  · rename_i h
    have hneg : x < 0 := signed_iff.1 h
    exact (neg_pos.2 hneg).le
  · rename_i h
    have hnonneg : ¬ x < 0 := fun hneg => h (signed_iff.2 hneg)
    exact not_lt.1 hnonneg

end ExactOrder

/-- A rational number whose root is rounded to zero has no positive numerator. -/
theorem rat_sqrt_eq_zero {x : ℚ} (h : 0 ≤ x) : Rat.sqrt x = 0 ↔ x = 0 := by
  have hden : x.den.sqrt ≠ 0 := (Nat.sqrt_pos.2 x.pos).ne'
  have hnum : 0 ≤ x.num := Rat.num_nonneg.2 h
  rw [Rat.sqrt, Rat.mkRat_eq_zero hden, Int.sqrt, ← Rat.num_eq_zero]
  have hroot : x.num.toNat.sqrt = 0 ↔ x.num.toNat = 0 := by
    simpa using (Nat.sqrt_pos (n := x.num.toNat)).not
  omega

instance : ExactOrder ℚ where
  le_total x y := by simpa [le] using le_total x y
  le_trans h h' := by simpa [le] using (of_decide_eq_true h).trans (of_decide_eq_true h')
  le_antisymm h h' := le_antisymm (of_decide_eq_true h) (of_decide_eq_true h')
  lt_iff := by simp [lt, le]
  add_le_add h z := by simpa [le] using h
  mul_pos h h' := decide_eq_true (mul_pos (of_decide_eq_true h) (of_decide_eq_true h'))
  one_pos := by decide
  ofInt_add m n := by simp [ofInt]
  ofDecimal_pos {m} e h := by
    have hm : (0 : ℚ) < m := by exact_mod_cast h
    have hvalue : (0 : ℚ) < m * 10 ^ e := mul_pos hm (zpow_pos (by norm_num) e)
    exact decide_eq_true hvalue
  isNaN_eq _ := rfl
  signed_iff := by simp [signed, lt, zero, ofInt]
  exists_floor x := by
    refine ⟨x.floor, rfl, decide_eq_true (Rat.floor_le x), decide_eq_true ?_⟩
    exact Rat.lt_floor_add_one x
  sqrt_eq_zero h := by
    have hnonneg := of_decide_eq_true h
    simp only [zero, ofInt, Int.cast_zero] at hnonneg ⊢
    exact rat_sqrt_eq_zero hnonneg

end AdditiveModel
