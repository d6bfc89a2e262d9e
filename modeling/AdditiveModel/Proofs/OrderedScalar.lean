import AdditiveModel.Proofs.Signs

/-! Numbers with an order. A finite number is scaled by a positive one and moved by any other without
a change of order, and an infinity is beyond every number; nothing is said about a result that is no
number. Quantiles of the standard normal distribution, exponentials and logarithms are known by their
order and by the values at which they meet. Binary64 numbers are ordered in this way, and so are the
extended real numbers. -/

namespace AdditiveModel

namespace Scalar

def half {F : Type} [Scalar F] : F := ofRatio 1 2

end Scalar

open Scalar

/-- An order that scaling by a positive number and moving keep. -/
class OrderedScalar (F : Type) [Scalar F] : Prop where
  le_trans {x y z : F} : le x y = true → le y z = true → le x z = true
  eq_iff {x y : F} : eq x y = true ↔ le x y = true ∧ le y x = true
  lt_iff {x y : F} : lt x y = true ↔ le x y = true ∧ le y x = false
  le_refl {x : F} : isFinite x = true → le x x = true
  le_self {x y : F} : le x y = true → le x x = true
  isNaN_eq {x : F} : isFinite x = true → isNaN x = false
  le_infinity {x : F} : le x x = true → le (-infinity) x = true ∧ le x infinity = true
  infinity_refl : le (-infinity : F) (-infinity) = true ∧ le (infinity : F) infinity = true
  mul_add_le {x y s l : F} : le x y = true → lt zero s = true → isFinite s = true → isFinite l = true →
    le (x * s + l) (y * s + l) = true
  mul_add_eq {x s l : F} : eq x zero = true → lt zero s = true → isFinite s = true → isFinite l = true →
    eq (x * s + l) l = true
  half_between : lt (zero : F) half = true ∧ lt (half : F) one = true
  half_eq : eq (ofDecimal 5 (-1)) (half : F) = true
  div_not_pos {x y : F} : eq x zero = true → lt zero y = true → lt zero (x / y) = false
  pos_of_intLt {x : F} : Number.intLt 0 x = true → lt zero x = true
  pos_ofInt {n : Int} : 0 < n → lt (zero : F) (ofInt n) = true

/-- The quantile function of the standard normal distribution grows and is zero at one half, and the
exponential function grows and takes the logarithm back. -/
class NormalLaws (F : Type) [Scalar F] : Prop where
  quantile_le {p q : F} : lt zero p = true → le p q = true → lt q one = true →
    le (normalQuantile p) (normalQuantile q) = true
  quantile_half : eq (normalQuantile (half : F)) zero = true
  exp_le {x y : F} : le x y = true → le (exp x) (exp y) = true
  exp_log {x : F} : lt zero x = true → isFinite x = true → eq (exp (log x)) x = true

namespace OrderedScalar

variable {F : Type} [Scalar F] [OrderedScalar F] {x y z : F}

theorem eq_refl (h : isFinite x = true) : eq x x = true := eq_iff.2 ⟨le_refl h, le_refl h⟩

theorem eq_symm (h : eq x y = true) : eq y x = true := eq_iff.2 (eq_iff.1 h).symm

theorem eq_trans (h : eq x y = true) (h' : eq y z = true) : eq x z = true := by
  obtain ⟨hxy, hyx⟩ := eq_iff.1 h
  obtain ⟨hyz, hzy⟩ := eq_iff.1 h'
  exact eq_iff.2 ⟨le_trans hxy hyz, le_trans hzy hyx⟩

theorem not_lt_of_le (h : le x y = true) : lt y x = false := by
  by_contra hlt
  rw [Bool.not_eq_false] at hlt
  exact Bool.noConfusion (h.symm.trans (lt_iff.1 hlt).2)

theorem not_lt_of_eq (h : eq x y = true) : lt x y = false := not_lt_of_le (eq_iff.1 h).2

theorem lt_of_lt_of_le (h : lt x y = true) (h' : le y z = true) : lt x z = true := by
  obtain ⟨hxy, hyx⟩ := lt_iff.1 h
  refine lt_iff.2 ⟨le_trans hxy h', ?_⟩
  by_contra hzx
  rw [Bool.not_eq_false] at hzx
  rw [le_trans h' hzx] at hyx
  cases hyx

theorem lt_of_le_of_lt (h : le x y = true) (h' : lt y z = true) : lt x z = true := by
  obtain ⟨hyz, hzy⟩ := lt_iff.1 h'
  refine lt_iff.2 ⟨le_trans h hyz, ?_⟩
  by_contra hzx
  rw [Bool.not_eq_false] at hzx
  rw [le_trans hzx h] at hzy
  cases hzy

theorem ne_of_lt (h : lt x y = true) : eq x y = false := by
  by_contra heq
  rw [Bool.not_eq_false] at heq
  exact Bool.noConfusion (h.symm.trans (not_lt_of_eq heq))

theorem lt_of_le_of_ne (h : le x y = true) (hne : eq x y = false) : lt x y = true := by
  refine lt_iff.2 ⟨h, ?_⟩
  by_contra hyx
  rw [Bool.not_eq_false] at hyx
  rw [eq_iff.2 ⟨h, hyx⟩] at hne
  cases hne

end OrderedScalar

end AdditiveModel
