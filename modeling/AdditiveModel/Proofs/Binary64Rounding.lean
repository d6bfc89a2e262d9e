import AdditiveModel.Proofs.Binary64Decimals

/-! Rounding to binary64. Whatever is done with a half, the nearest number grows with the number that is
rounded. A mantissa is rounded by shifts to the right that keep two bits of what is dropped; the result is
nearest on the grid of the numbers with 53 binary digits, and so are the product and the sum of two
numbers, as long as no exponent is too great. -/

namespace AdditiveModel.Real.Binary64

open Float.Model

open UnpackedFloat (Accuracy ExtendedMantissa)

def OnGrid (x : ℝ) : Prop := ∃ m e : Int, |m| ≤ 2 ^ 53 ∧ -1074 ≤ e ∧ x = m * 2 ^ e

noncomputable def beyond : ℝ := 2 ^ (1024 : Int)

theorem beyond_pos : 0 < beyond := by
  unfold beyond
  positivity

/-- A number of the grid that no other number of the grid is nearer than. -/
structure Nearest (v g : ℝ) : Prop where
  onGrid : OnGrid g
  le : ∀ h, OnGrid h → |g - v| ≤ |h - v|

theorem OnGrid.neg {x : ℝ} (h : OnGrid x) : OnGrid (-x) := by
  obtain ⟨m, e, hm, he, rfl⟩ := h
  exact ⟨-m, e, by rwa [abs_neg], he, by push_cast; ring⟩

theorem Nearest.neg {v g : ℝ} (h : Nearest v g) : Nearest (-v) (-g) where
  onGrid := h.onGrid.neg
  le x hx := by
    calc |-g - -v| = |g - v| := by rw [neg_sub_neg, abs_sub_comm]
      _ ≤ |-x - v| := h.le (-x) hx.neg
      _ = |x - -v| := by rw [abs_sub_comm, sub_neg_eq_add, sub_neg_eq_add, add_comm]

theorem OnGrid.nearest {v : ℝ} (h : OnGrid v) : Nearest v v where
  onGrid := h
  le x _ := by
    rw [sub_self, abs_zero]
    exact abs_nonneg _

theorem Nearest.mono {v w g h : ℝ} (hv : Nearest v g) (hw : Nearest w h) (hlt : v < w) : g ≤ h := by
  have hg := sq_le_sq.2 (hv.le h hw.onGrid)
  have hh := sq_le_sq.2 (hw.le g hv.onGrid)
  by_contra hgt
  rw [not_le] at hgt
  nlinarith

theorem abs_sub_le_of_half {v : ℝ} {q : Nat} {e : Int} (hhalf : |q * 2 ^ e - v| ≤ 2 ^ e / 2) (k : Int) :
    |q * 2 ^ e - v| ≤ |k * 2 ^ e - v| := by
  have hpos : (0 : ℝ) < 2 ^ e := by positivity
  rcases eq_or_ne (q : Int) k with rfl | hne
  · simp
  · have hdistance : (1 : ℝ) ≤ |(k : ℝ) - q| := by
      have h : (1 : Int) ≤ |k - q| := Int.one_le_abs (sub_ne_zero.2 hne.symm)
      exact_mod_cast h
    have hapart : 2 ^ e ≤ |(k : ℝ) * 2 ^ e - q * 2 ^ e| := by
      rw [← sub_mul, abs_mul, abs_of_pos hpos]
      exact le_mul_of_one_le_left hpos.le hdistance
    have htriangle := abs_sub_le ((k : ℝ) * 2 ^ e) v (q * 2 ^ e)
    rw [abs_sub_comm v] at htriangle
    linarith

/-- The nearest multiple is nearest on the grid where the grid has no finer numbers. -/
theorem nearest_of_half {v : ℝ} {q : Nat} {e : Int} (hq : q ≤ 2 ^ 53) (he : -1074 ≤ e)
    (hhalf : |q * 2 ^ e - v| ≤ 2 ^ e / 2) (hlow : e = -1074 ∨ 2 ^ 52 * 2 ^ e ≤ v) :
    Nearest v (q * 2 ^ e) := by
  refine ⟨⟨q, e, by rw [Nat.abs_cast]; exact_mod_cast hq, he, rfl⟩, ?_⟩
  rintro _ ⟨m, f, hm, hf, rfl⟩
  rcases le_or_gt e f with hle | hlt
  · obtain ⟨k, rfl⟩ := Int.exists_add_of_le hle
    have hsame : (m : ℝ) * 2 ^ (e + k) = (m * 2 ^ k : Int) * 2 ^ e := by
      rw [zpow_add₀ two_ne_zero, zpow_natCast]
      push_cast
      ring
    rw [hsame]
    exact abs_sub_le_of_half hhalf _
  · -- what is finer than the unit is below every number with the unit's leading one
    have hlow := hlow.resolve_left (by omega)
    have hsmall : (m : ℝ) * 2 ^ f ≤ 2 ^ 52 * 2 ^ e := by
      calc (m : ℝ) * 2 ^ f ≤ 2 ^ 53 * 2 ^ f := by
            have hm : (m : ℝ) ≤ 2 ^ 53 := by exact_mod_cast (le_abs_self m).trans hm
            gcongr
        _ = 2 ^ 52 * 2 ^ (f + 1) := by rw [zpow_add_one₀ two_ne_zero]; ring
        _ ≤ 2 ^ 52 * 2 ^ e := by gcongr <;> [norm_num; omega]
    have hlowest := abs_sub_le_of_half hhalf (2 ^ 52)
    push_cast at hlowest
    refine hlowest.trans ?_
    rw [abs_of_nonpos (by linarith), abs_of_nonpos (by linarith)]
    linarith

def signedValue (s : UnpackedFloat.Sign) (x : ℝ) : ℝ :=
  match s with
  | .positive => x
  | .negative => -x

/-- The number that an unpacked number stands for; there is none for what is no number. -/
noncomputable def value? : UnpackedFloat → Option EReal
  | .notANumber => none
  | .infinity .positive => some ⊤
  | .infinity .negative => some ⊥
  | .zero _ => some 0
  | .finite s m e _ => some (signedValue s (m * 2 ^ e))

/-- Either the leading one stands in front or the exponent is the least one. -/
def Canonical : UnpackedFloat → Prop
  | .finite _ m e _ => m < 2 ^ 53 ∧ -1074 ≤ e ∧ (e = -1074 ∨ 2 ^ 52 ≤ m)
  | _ => True

theorem real_cases {u : UnpackedFloat} {x : ℝ} (h : value? u = some (x : EReal)) :
    (∃ s, u = .zero s ∧ x = 0) ∨ ∃ s m e hm, u = .finite s m e hm ∧ x = signedValue s (m * 2 ^ e) := by
  cases u with
  | notANumber => cases h
  | infinity s =>
    cases s with
    | positive => exact absurd (Option.some.inj h).symm (EReal.coe_ne_top x)
    | negative => exact absurd (Option.some.inj h).symm (EReal.coe_ne_bot x)
  | zero s => exact .inl ⟨s, rfl, (EReal.coe_injective (Option.some.inj h)).symm⟩
  | finite s m e hm => exact .inr ⟨s, m, e, hm, rfl, (EReal.coe_injective (Option.some.inj h)).symm⟩

theorem Nearest.signed {v g : ℝ} (h : Nearest v g) (s : UnpackedFloat.Sign) :
    Nearest (signedValue s v) (signedValue s g) := by
  cases s with
  | positive => exact h
  | negative => exact h.neg

theorem onGrid_of_canonical {u : UnpackedFloat} (hu : Canonical u) {x : ℝ}
    (hx : value? u = some (x : EReal)) : OnGrid x := by
  rcases real_cases hx with ⟨s, rfl, rfl⟩ | ⟨s, m, e, hm, rfl, rfl⟩
  · exact ⟨0, 0, by norm_num, by norm_num, by norm_num⟩
  · have hgrid : OnGrid ((m : ℝ) * 2 ^ e) :=
      ⟨m, e, by rw [Nat.abs_cast]; exact_mod_cast hu.1.le, hu.2.1, by push_cast; rfl⟩
    cases s with
    | positive => exact hgrid
    | negative => exact hgrid.neg

/-- The number is the nearest one to the real number, before it is packed. -/
def RoundedTo (v : ℝ) (u : UnpackedFloat) : Prop :=
  Canonical u ∧ ∃ g : ℝ, value? u = some (g : EReal) ∧ Nearest v g

theorem roundedTo_self {u : UnpackedFloat} (hu : Canonical u) {x : ℝ} (hx : value? u = some (x : EReal)) :
    RoundedTo x u :=
  ⟨hu, x, hx, (onGrid_of_canonical hu hx).nearest⟩

theorem roundedTo_zero (s : UnpackedFloat.Sign) : RoundedTo 0 (.zero s) :=
  roundedTo_self (u := .zero s) trivial rfl

/-- What is left of a mantissa after a shift to the right, and what the two bits say of the rest. -/
structure Shifted (m k : Nat) (shifted : ExtendedMantissa) : Prop where
  mantissa : shifted.mantissa = m / 2 ^ k
  round : shifted.roundBit = true ↔ 2 ^ k ≤ 2 * (m % 2 ^ k)
  sticky : shifted.stickyBit = false ↔ m % 2 ^ k = 0 ∨ 2 * (m % 2 ^ k) = 2 ^ k

theorem Shifted.step {m k : Nat} {shifted : ExtendedMantissa} (h : Shifted m k shifted) :
    Shifted m (k + 1) shifted.shiftRightOne := by
  obtain ⟨hmantissa, hround, hsticky⟩ := h
  have hlt : m % 2 ^ k < 2 ^ k := Nat.mod_lt _ (Nat.two_pow_pos k)
  have hrest : m % 2 ^ (k + 1) = m % 2 ^ k + 2 ^ k * (m / 2 ^ k % 2) := Nat.mod_pow_succ
  have hbit : m / 2 ^ k % 2 = 0 ∨ m / 2 ^ k % 2 = 1 := Nat.mod_two_eq_zero_or_one _
  refine ⟨?_, ?_, ?_⟩
  · rw [ExtendedMantissa.shiftRightOne, hmantissa, Nat.div_div_eq_div_mul, pow_succ]
  · rw [ExtendedMantissa.shiftRightOne, hmantissa, hrest, pow_succ, bne_iff_ne]
    rcases hbit with hbit | hbit <;> rw [hbit] <;> omega
  · rw [ExtendedMantissa.shiftRightOne, Bool.or_eq_false_iff, hsticky, ← Bool.not_eq_true, hround, hrest,
      pow_succ]
    rcases hbit with hbit | hbit <;> rw [hbit] <;> omega

theorem shifted_exact (m k : Nat) :
    Shifted m k (ExtendedMantissa.ofMantissaAndAccuracy m .exact >>> k) := by
  induction k with
  | zero => exact ⟨(Nat.div_one m).symm, by simp [Nat.mod_one]; rfl, by simp [Nat.mod_one]; rfl⟩
  | succ k ih => exact ih.step

theorem Shifted.rounded {m k : Nat} {shifted : ExtendedMantissa} (h : Shifted m k shifted) :
    2 * m ≤ 2 * (shifted.roundedMantissa * 2 ^ k) + 2 ^ k ∧
      2 * (shifted.roundedMantissa * 2 ^ k) ≤ 2 * m + 2 ^ k ∧
      m / 2 ^ k ≤ shifted.roundedMantissa ∧ shifted.roundedMantissa ≤ m / 2 ^ k + 1 := by
  obtain ⟨mantissa, roundBit, stickyBit⟩ := shifted
  obtain ⟨rfl, hround, hsticky⟩ := h
  have hsplit : m / 2 ^ k * 2 ^ k + m % 2 ^ k = m := Nat.div_add_mod' m (2 ^ k)
  have hlt : m % 2 ^ k < 2 ^ k := Nat.mod_lt _ (Nat.two_pow_pos k)
  have hparity : m / 2 ^ k % 2 = 0 ∨ m / 2 ^ k % 2 = 1 := Nat.mod_two_eq_zero_or_one _
  dsimp only at hround hsticky
  cases roundBit <;> cases stickyBit <;>
    simp only [ExtendedMantissa.roundedMantissa, ExtendedMantissa.accuracy, Accuracy.roundToNearestEven,
      Nat.add_mul, Nat.one_mul, reduceCtorEq, false_iff, true_iff, not_or, not_le] at hround hsticky ⊢
  · omega
  · omega
  · rcases hparity with hparity | hparity <;> rw [hparity] <;> omega
  · omega

theorem targetExponent_eq (m : Nat) (e : Int) :
    Format.targetExponent Format.binary64 (totalExponent m e) = max (m.log2 + 1 + e - 53) (-1074) := rfl

theorem shiftToTargetExponent_eq {m : Nat} {e : Int} {k : Nat}
    (h : e + k = max e (max (m.log2 + 1 + e - 53) (-1074))) :
    UnpackedFloat.shiftToTargetExponent Format.binary64 m e .exact =
      (ExtendedMantissa.ofMantissaAndAccuracy m .exact >>> k, e + k) := by
  have hk : (max ((m.log2 : Int) + 1 + e - 53) (-1074) - e).toNat = k := by omega
  rw [UnpackedFloat.shiftToTargetExponent, targetExponent_eq, UnpackedFloat.shiftToExponent, hk]

/-- A mantissa of at most 53 digits needs no shift, unless it has been rounded up to the next power of
two. -/
theorem shift_again {q : Nat} {e : Int} (hq : q ≤ 2 ^ 53) (he : -1074 ≤ e)
    (hlow : e = -1074 ∨ 2 ^ 52 ≤ q) :
    ∃ q' e', UnpackedFloat.shiftToTargetExponent Format.binary64 q e .exact =
        (ExtendedMantissa.ofMantissaAndAccuracy q' .exact, e') ∧
      q' < 2 ^ 53 ∧ -1074 ≤ e' ∧ (e' = -1074 ∨ 2 ^ 52 ≤ q') ∧ (q : ℝ) * 2 ^ e = q' * 2 ^ e' := by
  rcases hq.lt_or_eq with hlt | rfl
  · have hlog : q.log2 ≤ 52 := by
      rcases Nat.eq_zero_or_pos q with rfl | hpos
      · decide
      · exact Nat.lt_succ_iff.1 ((Nat.log2_lt hpos.ne').2 hlt)
    refine ⟨q, e, ?_, hlt, he, hlow, rfl⟩
    rw [shiftToTargetExponent_eq (k := 0) (by omega)]
    simp only [Int.natCast_zero, add_zero]
    rfl
  · have hlog : (2 ^ 53 : Nat).log2 = 53 := by rw [Nat.log2_two_pow]
    refine ⟨2 ^ 52, e + 1, ?_, by norm_num, by omega, .inr le_rfl, ?_⟩
    · rw [shiftToTargetExponent_eq (k := 1) (by rw [hlog]; omega)]
      rfl
    · rw [zpow_add_one₀ two_ne_zero]
      push_cast
      ring

/-- A mantissa is cut to 53 binary digits, or to fewer at the least exponent. -/
theorem quotient_bounds {m k : Nat} {e : Int} (hm : 0 < m)
    (hk : max ((m.log2 : Int) + 1 + e - 53) (-1074) = e + k) :
    m / 2 ^ k < 2 ^ 53 ∧ (e + k = -1074 ∨ 2 ^ 52 ≤ m / 2 ^ k) := by
  constructor
  · apply Nat.div_lt_of_lt_mul
    calc m < 2 ^ (m.log2 + 1) := Nat.lt_log2_self
      _ ≤ 2 ^ (k + 53) := Nat.pow_le_pow_right (by decide) (by omega)
      _ = 2 ^ k * 2 ^ 53 := pow_add 2 k 53
  · rcases eq_or_ne (e + k) (-1074) with hleast | hne
    · exact .inl hleast
    · have hlog : m.log2 = 52 + k := by omega
      refine .inr ((Nat.le_div_iff_mul_le (Nat.two_pow_pos k)).2 ?_)
      rw [← pow_add, ← hlog]
      exact Nat.log2_self_le hm.ne'

theorem Shifted.nearest {m k : Nat} {e : Int} {shifted : ExtendedMantissa} (h : Shifted m k shifted)
    (hm : 0 < m) (hk : max ((m.log2 : Int) + 1 + e - 53) (-1074) = e + k) :
    Nearest (m * 2 ^ e) (shifted.roundedMantissa * 2 ^ (e + k)) := by
  obtain ⟨hhigh, hlow⟩ := quotient_bounds hm hk
  obtain ⟨hup, hdown, hfloor, hceil⟩ := h.rounded
  have hpos : (0 : ℝ) < 2 ^ e := by positivity
  have hpower : (2 : ℝ) ^ (e + k) = 2 ^ k * 2 ^ e := by
    rw [zpow_add₀ two_ne_zero, zpow_natCast, mul_comm]
  refine nearest_of_half (hceil.trans hhigh) (hk ▸ le_max_right _ _) ?_ (hlow.imp_right fun h => ?_)
  · generalize shifted.roundedMantissa = q at *
    have hup : (2 : ℝ) * m ≤ 2 * (q * 2 ^ k) + 2 ^ k := by exact_mod_cast hup
    have hdown : (2 : ℝ) * (q * 2 ^ k) ≤ 2 * m + 2 ^ k := by exact_mod_cast hdown
    have hdistance : |(q : ℝ) * 2 ^ k - m| ≤ 2 ^ k / 2 := abs_le.2 ⟨by linarith, by linarith⟩
    calc |(q : ℝ) * 2 ^ (e + k) - m * 2 ^ e| = |(q : ℝ) * 2 ^ k - m| * 2 ^ e := by
          rw [hpower, ← mul_assoc, ← sub_mul, abs_mul, abs_of_pos hpos]
      _ ≤ 2 ^ k / 2 * 2 ^ e := mul_le_mul_of_nonneg_right hdistance hpos.le
      _ = 2 ^ (e + k) / 2 := by rw [hpower]; ring
  · have hdigits : (2 : ℝ) ^ 52 * 2 ^ k ≤ m := by
      exact_mod_cast (Nat.le_div_iff_mul_le (Nat.two_pow_pos k)).1 h
    rw [hpower, ← mul_assoc]
    exact mul_le_mul_of_nonneg_right hdigits hpos.le

/-- A positive number is rounded to the nearest, if its exponent is not too great for the digits that the
mantissa has. -/
theorem roundedTo_exact (s : UnpackedFloat.Sign) {m : Nat} {e : Int} (hm : 0 < m)
    (he : e ≤ max (m.log2 + 1 + e - 53) (-1074)) :
    RoundedTo (signedValue s (m * 2 ^ e))
      (UnpackedFloat.roundWithAccuracy Format.binary64 s m e .exact) := by
  obtain ⟨k, hk⟩ := Int.exists_add_of_le he
  have hfirst := shiftToTargetExponent_eq (m := m) (e := e) (k := k) (by omega)
  have hnearest := (shifted_exact m k).nearest hm hk
  obtain ⟨hhigh, hlow⟩ := quotient_bounds hm hk
  obtain ⟨-, -, hfloor, hceil⟩ := (shifted_exact m k).rounded
  obtain ⟨q, e', hsecond, hlt, he', hcanonical, hsame⟩ :=
    shift_again (hceil.trans hhigh) (hk ▸ le_max_right _ _) (hlow.imp_right fun h => h.trans hfloor)
  unfold UnpackedFloat.roundWithAccuracy
  rw [hfirst]
  dsimp only
  rw [hsecond]
  refine ⟨?_, signedValue s (q * 2 ^ e'), ?_, (hsame ▸ hnearest).signed s⟩
  · split
    · trivial
    · exact ⟨hlt, he', hcanonical⟩
  · split
    · rename_i hzero
      change q = 0 at hzero
      cases s <;> simp [hzero, value?, signedValue]
    · rfl

theorem roundedTo_round (s : UnpackedFloat.Sign) {m : Nat} (e : Int) (hm : 0 < m) :
    RoundedTo (signedValue s (m * 2 ^ e)) (UnpackedFloat.round Format.binary64 s m e) := by
  unfold UnpackedFloat.round UnpackedFloat.decreaseExponent
  rw [targetExponent_eq]
  dsimp only
  generalize hk : (e - max ((m.log2 : Int) + 1 + e - 53) (-1074)).toNat = k
  have hshift : m <<< k = m * 2 ^ k := Nat.shiftLeft_eq m k
  have hlog : (m * 2 ^ k).log2 = m.log2 + k := by
    rw [Nat.log2_eq_iff (Nat.mul_pos hm (Nat.two_pow_pos k)).ne', Nat.add_right_comm, pow_add, pow_add]
    exact ⟨Nat.mul_le_mul_right _ (Nat.log2_self_le hm.ne'),
      Nat.mul_lt_mul_of_pos_right Nat.lt_log2_self (Nat.two_pow_pos k)⟩
  have hround := roundedTo_exact s (m := m * 2 ^ k) (e := e - k) (Nat.mul_pos hm (Nat.two_pow_pos k))
    (by rw [hlog]; omega)
  have hsame : ((m * 2 ^ k : Nat) : ℝ) * 2 ^ (e - k) = m * 2 ^ e := by
    rw [zpow_sub₀ two_ne_zero, zpow_natCast]
    push_cast
    field_simp
  rwa [hsame, ← hshift] at hround

theorem roundedTo_normalize (m e : Int) (s : UnpackedFloat.Sign) :
    RoundedTo (m * 2 ^ e) (UnpackedFloat.normalize Format.binary64 m e s) := by
  unfold UnpackedFloat.normalize
  split
  · rename_i hlt
    have hneg : m < 0 := compare_lt_iff_lt.1 hlt
    have hround := roundedTo_round .negative (m := (-m).toNat) e (by omega)
    have hcast : (((-m).toNat : Nat) : ℝ) = -m := by
      rw [← Int.cast_natCast, Int.toNat_of_nonneg (by omega)]
      push_cast
      rfl
    rwa [hcast, signedValue, neg_mul, neg_neg] at hround
  · rename_i heq
    obtain rfl : m = 0 := compare_eq_iff_eq.1 heq
    rw [Int.cast_zero, zero_mul]
    exact roundedTo_zero s
  · rename_i hgt
    have hpos : 0 < m := compare_gt_iff_gt.1 hgt
    have hround := roundedTo_round .positive (m := m.toNat) e (by omega)
    have hcast : ((m.toNat : Nat) : ℝ) = m := by
      rw [← Int.cast_natCast, Int.toNat_of_nonneg (by omega)]
    rwa [hcast, signedValue] at hround

theorem signedValue_mul (s : UnpackedFloat.Sign) (x y : ℝ) :
    signedValue s x * y = signedValue s (x * y) := by
  cases s with
  | positive => rfl
  | negative => exact neg_mul x y

theorem roundedTo_mul {s : UnpackedFloat.Sign} {m n : Nat} {e f : Int} {hm : 0 < m} {hn : 0 < n}
    (h : Canonical (.finite s m e hm)) (h' : Canonical (.finite .positive n f hn)) :
    RoundedTo (signedValue s (m * 2 ^ e) * (n * 2 ^ f))
      (UnpackedFloat.mul Format.binary64 (.finite s m e hm) (.finite .positive n f hn)) := by
  obtain ⟨-, hme, hmlow⟩ := h
  obtain ⟨-, hnf, hnlow⟩ := h'
  have hdigits : e + f ≤ -1074 ∨ 52 ≤ (m * n).log2 := by
    rcases hmlow with rfl | hmlow
    · rcases hnlow with rfl | hnlow
      · exact .inl (by norm_num)
      · exact .inr ((Nat.le_log2 (Nat.mul_pos hm hn).ne').2 (hnlow.trans (Nat.le_mul_of_pos_left n hm)))
    · exact .inr ((Nat.le_log2 (Nat.mul_pos hm hn).ne').2 (hmlow.trans (Nat.le_mul_of_pos_right m hn)))
  have hsign : s * .positive = s := by cases s <;> rfl
  have hround := roundedTo_exact s (m := m * n) (e := e + f) (Nat.mul_pos hm hn) (by omega)
  have hsame : ((m * n : Nat) : ℝ) * 2 ^ (e + f) = m * 2 ^ e * (n * 2 ^ f) := by
    rw [zpow_add₀ two_ne_zero]
    push_cast
    ring
  rw [hsame] at hround
  rw [UnpackedFloat.mul, hsign, signedValue_mul]
  exact hround

theorem signedValue_apply (s : UnpackedFloat.Sign) (m : Nat) (x : ℝ) :
    signedValue s (m * x) = (s.apply m : Int) * x := by
  cases s with
  | positive => simp [signedValue, UnpackedFloat.Sign.apply]
  | negative => simp [signedValue, UnpackedFloat.Sign.apply]

theorem roundedTo_add (s t : UnpackedFloat.Sign) {m n : Nat} (e f : Int) (hm : 0 < m) (hn : 0 < n) :
    RoundedTo (signedValue s (m * 2 ^ e) + signedValue t (n * 2 ^ f))
      (UnpackedFloat.add Format.binary64 (.finite s m e hm) (.finite t n f hn)) := by
  have haligned {m : Nat} {e c : Int} (hle : c ≤ e) :
      (m : ℝ) * 2 ^ e = ((m <<< (e - c).toNat : Nat) : ℝ) * 2 ^ c := by
    obtain ⟨k, rfl⟩ := Int.exists_add_of_le hle
    rw [add_sub_cancel_left, Int.toNat_natCast, Nat.shiftLeft_eq, zpow_add₀ two_ne_zero, zpow_natCast]
    push_cast
    ring
  have hround := roundedTo_normalize
    (s.apply (m <<< (e - min e f).toNat) + t.apply (n <<< (f - min e f).toNat)) (min e f) .positive
  rw [haligned (min_le_left e f), haligned (min_le_right e f), signedValue_apply, signedValue_apply]
  rw [Int.cast_add, add_mul] at hround
  exact hround

end AdditiveModel.Real.Binary64
