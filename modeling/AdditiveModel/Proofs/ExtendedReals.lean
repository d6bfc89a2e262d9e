import Mathlib
import AdditiveModel.Proofs.Binary64Decimals
import AdditiveModel.Proofs.OrderedScalar

/-! The extended real numbers as numbers. Nothing is rounded, so the exponential and the logarithm are
inverse to each other, and the quantile function is that of the standard normal distribution. -/

namespace AdditiveModel

open MeasureTheory ProbabilityTheory Set

/-- The chance that a standard normal variable is at most a number. -/
noncomputable def standardNormal (x : ℝ) : ℝ := (gaussianReal 0 1).real (Iic x)

/-- The extended real numbers. Zero stands in for what is no number, and the functions that no posterior
uses are zero. -/
noncomputable instance : Scalar EReal where
  ofInt n := ((n : ℝ) : EReal)
  ofRatio n d := ((n / d : ℝ) : EReal)
  ofDecimal m e := ((m * 10 ^ e : ℝ) : EReal)
  nan := 0
  infinity := ⊤
  isNaN _ := false
  eq x y := decide (x = y)
  lt x y := decide (x < y)
  le x y := decide (x ≤ y)
  signed x := decide (x < 0)
  floor? x := if x = ⊤ ∨ x = ⊥ then none else some ⌊x.toReal⌋
  remainder _ _ := 0
  sqrt x := if x = ⊤ then ⊤ else (√x.toReal : ℝ)
  pow _ _ := 0
  exp x := (EReal.exp x : EReal)
  expm1 _ := 0
  log x := ENNReal.log x.toENNReal
  log1p _ := 0
  sin _ := 0
  cos _ := 0
  tan _ := 0
  angle _ _ := 0
  erf _ := 0
  normalCdf x := (standardNormal x.toReal : EReal)
  normalQuantile p := sInf {x : EReal | ∃ r : ℝ, x = r ∧ p ≤ standardNormal r}
  normalDensity _ := 0
  logistic _ := 0
  logit _ := 0
  round _ x := x
  text _ := ""
  scientific _ _ := ""
  brief _ := ""

namespace ExtendedReals

open Scalar

theorem le_iff {x y : EReal} : le x y = true ↔ x ≤ y := decide_eq_true_iff

theorem lt_iff {x y : EReal} : lt x y = true ↔ x < y := decide_eq_true_iff

theorem eq_iff {x y : EReal} : eq x y = true ↔ x = y := decide_eq_true_iff

theorem zero_eq : (zero : EReal) = 0 := by
  simp [zero, ofInt]

theorem one_eq : (one : EReal) = 1 := by
  simp [one, ofInt]

theorem half_eq : (half : EReal) = ((1 / 2 : ℝ) : EReal) := by
  simp [half, ofRatio]

theorem isFinite_iff {x : EReal} : isFinite x = true ↔ ∃ r : ℝ, x = r := by
  induction x with
  | bot => simp [isFinite, floor?]
  | top => simp [isFinite, floor?]
  | coe r => simp [isFinite, floor?]

instance : UnitDecimals EReal where
  bounds {m k} h := by
    have hpos : (0 : ℝ) < 10 ^ k := by positivity
    have hle : (m : ℝ) ≤ 10 ^ k := by exact_mod_cast h
    have hvalue : (ofDecimal m (-(k : Int)) : EReal) = ((m / 10 ^ k : ℝ) : EReal) := by
      simp [ofDecimal, div_eq_mul_inv]
    rw [le_iff, le_iff, zero_eq, one_eq, hvalue]
    constructor
    · exact_mod_cast div_nonneg (Nat.cast_nonneg m) hpos.le
    · exact_mod_cast (div_le_one hpos).2 hle

instance : OrderedScalar EReal where
  le_trans h h' := le_iff.2 (le_iff.1 h |>.trans (le_iff.1 h'))
  eq_iff := by
    intro x y
    rw [eq_iff, le_iff, le_iff]
    exact le_antisymm_iff
  lt_iff := by
    intro x y
    rw [lt_iff, le_iff, ← Bool.not_eq_true, le_iff, not_le]
    exact ⟨fun h => ⟨h.le, h⟩, And.right⟩
  le_refl _ := le_iff.2 le_rfl
  le_self _ := le_iff.2 le_rfl
  isNaN_eq _ := rfl
  le_infinity _ := ⟨le_iff.2 bot_le, le_iff.2 le_top⟩
  infinity_refl := ⟨le_iff.2 le_rfl, le_iff.2 le_rfl⟩
  mul_add_le {x y s l} h hs _ _ := by
    rw [le_iff] at h ⊢
    rw [lt_iff, zero_eq] at hs
    exact add_le_add_left (mul_le_mul_of_nonneg_right h hs.le) l
  mul_add_eq {x s l} h _ _ _ := by
    rw [eq_iff, zero_eq] at h
    rw [eq_iff, h, zero_mul, zero_add]
  half_between := by
    rw [lt_iff, lt_iff, half_eq, zero_eq, one_eq]
    norm_cast
    norm_num
  half_eq := by
    rw [eq_iff, half_eq]
    simp only [ofDecimal]
    norm_num
  div_not_pos {x y} h _ := by
    rw [eq_iff, zero_eq] at h
    rw [← Bool.not_eq_true, lt_iff, h, zero_eq, EReal.zero_div]
    exact lt_irrefl 0
  pos_of_intLt {x} h := by
    rw [lt_iff, zero_eq]
    induction x with
    | bot => simp [Number.intLt, floor?, lt, zero_eq] at h
    | top => exact EReal.zero_lt_top
    | coe r =>
      have hfloor : 0 < ⌊r⌋ ∨ 0 = ⌊r⌋ ∧ (r : EReal) ≠ ((⌊r⌋ : ℝ) : EReal) := by
        simpa [Number.intLt, Number.isIntegral, floor?, eq, ofInt] using h
      rcases hfloor with hpos | ⟨hzero, hne⟩
      · exact_mod_cast Int.floor_pos.1 hpos |>.trans_lt' one_pos
      · have hnonneg : 0 ≤ r := Int.floor_nonneg.1 hzero.le
        rw [← hzero, Int.cast_zero, EReal.coe_zero] at hne
        exact_mod_cast lt_of_le_of_ne hnonneg fun h => hne (by rw [← h, EReal.coe_zero])
  pos_ofInt {n} h := by
    rw [lt_iff, zero_eq]
    simp only [ofInt]
    exact_mod_cast h

theorem finite_ofInt (n : Int) : isFinite (ofInt n : EReal) = true := isFinite_iff.2 ⟨n, rfl⟩

theorem finite_sqrt {x : EReal} (h : isFinite x = true) : isFinite (sqrt x) = true := by
  obtain ⟨r, rfl⟩ := isFinite_iff.1 h
  exact isFinite_iff.2 ⟨√r, by simp [sqrt]⟩

theorem finite_div {x y : EReal} (hx : isFinite x = true) (hy : isFinite y = true) :
    isFinite (x / y) = true := by
  obtain ⟨r, rfl⟩ := isFinite_iff.1 hx
  obtain ⟨s, rfl⟩ := isFinite_iff.1 hy
  exact isFinite_iff.2 ⟨r / s, (EReal.coe_div r s).symm⟩

theorem finite_log {x : EReal} (hx : isFinite x = true) (hpos : lt zero x = true) :
    isFinite (log x) = true := by
  obtain ⟨r, rfl⟩ := isFinite_iff.1 hx
  rw [lt_iff, zero_eq] at hpos
  have hr : 0 < r := by exact_mod_cast hpos
  refine isFinite_iff.2 ⟨Real.log r, ?_⟩
  change ENNReal.log (r : EReal).toENNReal = _
  rw [EReal.toENNReal_of_ne_top (EReal.coe_ne_top r), EReal.toReal_coe, ENNReal.log_ofReal_of_pos hr]

theorem standardNormal_zero : standardNormal 0 = 1 / 2 := by
  have hmirror : (gaussianReal 0 1).map (fun x => -x) = gaussianReal 0 1 := by
    rw [gaussianReal_map_neg, neg_zero]
  have habove : (gaussianReal 0 1).real (Ioi 0) = standardNormal 0 := by
    have hpoint : NullSingletonClass (gaussianReal 0 1) := nullSingletonClass_gaussianReal one_ne_zero
    have hpreimage : Set.preimage (fun x : ℝ => -x) (Ioi 0) = Iio 0 := by
      ext x
      simp
    calc (gaussianReal 0 1).real (Ioi 0)
        = ((gaussianReal 0 1).map fun x => -x).real (Ioi 0) := by rw [hmirror]
      _ = (gaussianReal 0 1).real (Iio 0) := by
          rw [map_measureReal_apply measurable_neg measurableSet_Ioi, hpreimage]
      _ = standardNormal 0 := measureReal_congr Iio_ae_eq_Iic
  have hsum := measureReal_add_measureReal_compl (μ := gaussianReal 0 1) (s := Iic (0 : ℝ)) measurableSet_Iic
  rw [compl_Iic, habove, probReal_univ, ← standardNormal] at hsum
  linarith

theorem standardNormal_lt {x : ℝ} (h : x < 0) : standardNormal x < 1 / 2 := by
  have hpart : 0 < (gaussianReal 0 1).real (Ioc x 0) := by
    refine lt_of_le_of_ne measureReal_nonneg fun hnone => ?_
    have hnull : gaussianReal 0 1 (Ioc x 0) = 0 := (measureReal_eq_zero_iff).1 hnone.symm
    have hlength := gaussianReal_absolutelyContinuous' 0 one_ne_zero hnull
    rw [Real.volume_Ioc, ENNReal.ofReal_eq_zero] at hlength
    linarith
  have hsplit : standardNormal 0 = standardNormal x + (gaussianReal 0 1).real (Ioc x 0) := by
    rw [standardNormal, ← Iic_union_Ioc_eq_Iic h.le,
      measureReal_union (Iic_disjoint_Ioc le_rfl) measurableSet_Ioc, standardNormal]
  rw [standardNormal_zero] at hsplit
  linarith

instance : NormalLaws EReal where
  quantile_le {p q} _ hle _ := by
    rw [le_iff] at hle ⊢
    refine sInf_le_sInf ?_
    rintro x ⟨r, rfl, hr⟩
    exact ⟨r, rfl, hle.trans hr⟩
  quantile_half := by
    rw [eq_iff, zero_eq]
    refine le_antisymm (sInf_le ⟨0, by simp, ?_⟩) (le_sInf ?_)
    · rw [half_eq, standardNormal_zero]
    · rintro x ⟨r, rfl, hr⟩
      by_contra hneg
      rw [not_le] at hneg
      rw [half_eq, EReal.coe_le_coe_iff] at hr
      exact absurd (standardNormal_lt (by exact_mod_cast hneg)) (not_lt.2 hr)
  exp_le h := by
    rw [le_iff] at h ⊢
    change ((EReal.exp _ : ENNReal) : EReal) ≤ (EReal.exp _ : ENNReal)
    exact EReal.coe_ennreal_le_coe_ennreal_iff.2 (EReal.exp_monotone h)
  exp_log {x} h _ := by
    rw [lt_iff, zero_eq] at h
    rw [eq_iff]
    change ((EReal.exp (ENNReal.log x.toENNReal) : ENNReal) : EReal) = x
    rw [ENNReal.exp_log, EReal.coe_toENNReal h.le]

end ExtendedReals

end AdditiveModel
