import Mathlib
import AdditiveModel.Real.Instance
import AdditiveModel.Proofs.Counts

/-! Binary64 numbers are compared by value: two equal numbers are the same one or the two zeros, and a
value that is no number equals nothing. Positive numbers with a leading one are ordered as their bits,
so integers from one on keep their order. -/

namespace AdditiveModel.Real.Binary64

open Float.Model

theorem eq_cases {x y : Float} (h : (x == y) = true) :
    x.isNaN = false ∧ (x = y ∨ (x = 0 ∧ y = -0) ∨ (x = -0 ∧ y = 0)) := by
  obtain ⟨hx, -, h⟩ := Float.beq_iff_ne_nan_and_eq.1 h
  refine ⟨?_, h⟩
  rw [Float.isNaN_eq_decide_eq_nan]
  simpa using hx

theorem floor_zero : floor? 0 = some 0 := by
  decide +kernel

theorem floor_negative_zero : floor? (-0) = some 0 := by
  decide +kernel

theorem exponent_toNat (b : BitVec 64) :
    (@UnpackedFloat.unpackExponent Format.binary64 b).toNat = b.toNat / 2 ^ 52 % 2 ^ 11 := by
  rw [UnpackedFloat.unpackExponent_def, BitVec.extractLsb'_toNat, Nat.shiftRight_eq_div_pow]

theorem mantissa_toNat (b : BitVec 64) :
    (@UnpackedFloat.unpackMantissa Format.binary64 b).toNat = b.toNat % 2 ^ 52 := by
  rw [UnpackedFloat.unpackMantissa_def, BitVec.extractLsb'_toNat, Nat.shiftRight_zero]

theorem sign_toNat (b : BitVec 64) :
    (@UnpackedFloat.unpackSign Format.binary64 b).toNat = b.toNat / 2 ^ 63 % 2 := by
  rw [UnpackedFloat.unpackSign_def, BitVec.extractLsb'_toNat, Nat.shiftRight_eq_div_pow]
  rfl

theorem toNat_leadingOne (b : BitVec 52) : (1#1 ++ b).toNat = 2 ^ 52 + b.toNat := by
  rw [BitVec.toNat_append, ← Nat.shiftLeft_add_eq_or_of_lt b.isLt]
  rfl

/-- The bits of a positive number with a leading one. -/
structure Normal (bits : Nat) : Prop where
  exponent_pos : 0 < bits / 2 ^ 52
  exponent_lt : bits / 2 ^ 52 < 2047

theorem unpack_normal {b : BitVec 64} (h : Normal b.toNat) :
    ∃ hpos, UnpackedFloat.unpack Format.binary64 b =
      .finite .positive (2 ^ 52 + b.toNat % 2 ^ 52) ((b.toNat / 2 ^ 52 : Nat) - 1075) hpos := by
  obtain ⟨hpos, hlt⟩ := h
  have hexponent : (@UnpackedFloat.unpackExponent Format.binary64 b).toNat = b.toNat / 2 ^ 52 := by
    rw [exponent_toNat]
    omega
  have hsign : @UnpackedFloat.unpackSign Format.binary64 b = 0#1 := by
    apply BitVec.eq_of_toNat_eq
    rw [sign_toNat, BitVec.toNat_zero]
    omega
  have hmantissa : (1#1 ++ @UnpackedFloat.unpackMantissa Format.binary64 b).toNat =
      2 ^ 52 + b.toNat % 2 ^ 52 := by
    rw [toNat_leadingOne, mantissa_toNat]
  refine ⟨by omega, ?_⟩
  unfold UnpackedFloat.unpack
  dsimp only
  rw [if_neg, if_neg]
  · simp only [UnpackedFloat.finite.injEq, hsign, hmantissa, hexponent]
    exact ⟨rfl, trivial, rfl⟩
  · intro h
    have := congrArg BitVec.toNat h
    rw [hexponent, BitVec.toNat_zero] at this
    omega
  · intro h
    have := congrArg BitVec.toNat h
    rw [hexponent, show (-1#11 : BitVec 11).toNat = 2047 from rfl] at this
    omega

theorem lt_iff_unpacked (x y : Float) : x < y ↔
    (UnpackedFloat.unpack Format.binary64 x.toBits.toBitVec).lt
      (UnpackedFloat.unpack Format.binary64 y.toBits.toBitVec) = true := by
  change decide (x.toModel < y.toModel) = true ↔ _
  rw [decide_eq_true_iff]
  exact Iff.rfl

theorem lt_iff_toBits {x y : Float} (hx : Normal x.toBits.toNat) (hy : Normal y.toBits.toNat) :
    x < y ↔ x.toBits.toNat < y.toBits.toNat := by
  obtain ⟨hx', hunpackx⟩ := unpack_normal (b := x.toBits.toBitVec) hx
  obtain ⟨hy', hunpacky⟩ := unpack_normal (b := y.toBits.toBitVec) hy
  rw [lt_iff_unpacked, hunpackx, hunpacky]
  simp only [UnpackedFloat.lt, UnpackedFloat.compare, beq_iff_eq, Option.some.injEq,
    Ordering.then_eq_lt, Int.compare_eq_lt, Int.compare_eq_eq, Nat.compare_eq_lt]
  have hbitsx : x.toBits.toBitVec.toNat = x.toBits.toNat := rfl
  have hbitsy : y.toBits.toBitVec.toNat = y.toBits.toNat := rfl
  rw [hbitsx, hbitsy]
  omega

theorem ratio_div (m e c : Nat) :
    (⟨false, m, (e : Int) - c⟩ : Dyadic).ratio.1 / (⟨false, m, (e : Int) - c⟩ : Dyadic).ratio.2 =
      m * 2 ^ e / 2 ^ c := by
  unfold Dyadic.ratio
  dsimp only
  split
  · have hc : c = e + ((e : Int) - c).natAbs := by omega
    conv_rhs => rw [hc, pow_add, Nat.mul_comm m]
    exact (Nat.mul_div_mul_left m _ (Nat.two_pow_pos e)).symm
  · have he : e = c + ((e : Int) - c).toNat := by omega
    conv_rhs => rw [he, pow_add, ← Nat.mul_assoc, Nat.mul_right_comm,
      Nat.mul_div_cancel _ (Nat.two_pow_pos c)]
    exact Nat.div_one _

theorem decode_eq (x : Float) : decode? x =
    if x.toBits.toNat / 2 ^ 52 % 2 ^ 11 = 2047 then none
    else if x.toBits.toNat / 2 ^ 52 % 2 ^ 11 = 0 then
      some ⟨decide (2 ^ 63 ≤ x.toBits.toNat), x.toBits.toNat % 2 ^ 52, -1074⟩
    else some ⟨decide (2 ^ 63 ≤ x.toBits.toNat), x.toBits.toNat % 2 ^ 52 + 2 ^ 52,
      (x.toBits.toNat / 2 ^ 52 % 2 ^ 11 : Nat) - 1075⟩ := rfl

/-- The integer part of a positive number with a leading one, as a quotient of its bits. -/
theorem floor_normal {x : Float} (hx : Normal x.toBits.toNat) : floor? x =
    some (((2 ^ 52 + x.toBits.toNat % 2 ^ 52) * 2 ^ (x.toBits.toNat / 2 ^ 52) / 2 ^ 1075 : Nat) : Int) := by
  obtain ⟨hpos, hlt⟩ := hx
  have hexponent : x.toBits.toNat / 2 ^ 52 % 2 ^ 11 = x.toBits.toNat / 2 ^ 52 := by omega
  have hsign : decide (2 ^ 63 ≤ x.toBits.toNat) = false := by
    rw [decide_eq_false_iff_not]
    omega
  rw [floor?, decode_eq, hexponent, hsign, if_neg hlt.ne, if_neg hpos.ne', Nat.add_comm (_ % 2 ^ 52)]
  exact congrArg (fun n : Nat => some (n : Int)) (ratio_div _ _ 1075)

theorem normal_of_floor {x : Float} {k : Int} (h : floor? x = some k) (hk : 0 < k) :
    Normal x.toBits.toNat := by
  obtain ⟨d, hd, rfl⟩ := Option.map_eq_some_iff.1 h
  have hsign : d.negative = false := by
    by_contra hsign
    rw [Bool.not_eq_false] at hsign
    simp only [hsign, if_true] at hk
    exact absurd hk (not_lt.2 (neg_nonpos.2 (Int.natCast_nonneg _)))
  rw [decode_eq] at hd
  split at hd
  · cases hd
  split at hd
  · cases hd
    -- a number without a leading one is below one
    have hpart : 0 < x.toBits.toNat % 2 ^ 52 * 2 ^ 1 / 2 ^ 1075 := by
      rw [← ratio_div]
      dsimp only at hsign hk
      rw [hsign] at hk
      exact Int.natCast_pos.1 hk
    have hsmall : x.toBits.toNat % 2 ^ 52 * 2 ^ 1 < 2 ^ 1075 := by
      have hle := Nat.pow_le_pow_right (show 0 < 2 by decide) (show 53 ≤ 1075 by decide)
      omega
    rw [Nat.div_eq_of_lt hsmall] at hpart
    cases hpart
  · cases hd
    rw [decide_eq_false_iff_not] at hsign
    exact ⟨by omega, by omega⟩

theorem parts_mono {a b : Nat} (h : a ≤ b) :
    (2 ^ 52 + a % 2 ^ 52) * 2 ^ (a / 2 ^ 52) ≤ (2 ^ 52 + b % 2 ^ 52) * 2 ^ (b / 2 ^ 52) := by
  rcases (Nat.div_le_div_right h : a / 2 ^ 52 ≤ b / 2 ^ 52).lt_or_eq with hlt | heq
  · calc (2 ^ 52 + a % 2 ^ 52) * 2 ^ (a / 2 ^ 52) ≤ 2 ^ 53 * 2 ^ (a / 2 ^ 52) :=
          Nat.mul_le_mul_right _ (by omega)
      _ = 2 ^ 52 * 2 ^ (a / 2 ^ 52 + 1) := by rw [pow_succ]; ring
      _ ≤ 2 ^ 52 * 2 ^ (b / 2 ^ 52) := Nat.mul_le_mul_left _ (Nat.pow_le_pow_right (by decide) hlt)
      _ ≤ (2 ^ 52 + b % 2 ^ 52) * 2 ^ (b / 2 ^ 52) := Nat.mul_le_mul_right _ (Nat.le_add_right _ _)
  · rw [heq]
    exact Nat.mul_le_mul_right _ (by omega)

/-- Numbers of at least one are ordered as their integer parts, where these differ. -/
theorem lt_of_floor_lt {x y : Float} {k l : Int} (hx : floor? x = some k) (hy : floor? y = some l)
    (hk : 0 < k) (hl : 0 < l) (h : k < l) : x < y := by
  have hnx := normal_of_floor hx hk
  have hny := normal_of_floor hy hl
  rw [lt_iff_toBits hnx hny]
  by_contra hle
  have hparts := Nat.div_le_div_right (c := 2 ^ 1075) (parts_mono (not_lt.1 hle))
  rw [floor_normal hnx, Option.some.injEq] at hx
  rw [floor_normal hny, Option.some.injEq] at hy
  rw [← hx, ← hy] at h
  exact absurd (Int.ofNat_lt.1 h) (not_lt.2 hparts)

instance : ComparedByValue Float where
  symm {x y} h := by
    change (x == y) = true at h
    change (y == x) = true
    rw [Float.beq_iff_ne_nan_and_eq] at h ⊢
    grind
  trans {x y z} h h' := by
    change (x == y) = true at h
    change (y == z) = true at h'
    change (x == z) = true
    rw [Float.beq_iff_ne_nan_and_eq] at h h' ⊢
    grind
  floor_eq h := by
    obtain ⟨-, rfl | ⟨rfl, rfl⟩ | ⟨rfl, rfl⟩⟩ := eq_cases h
    · rfl
    · exact floor_zero.trans floor_negative_zero.symm
    · exact floor_negative_zero.trans floor_zero.symm
  isNumber h := (eq_cases h).1
  identical_symm h := h
  identical_trans h _ := h
  isNaN_of_identical h := by cases h
  nan_isNaN _ := by decide +kernel
  nan_not_identical _ := rfl

instance : OrderedIntegers Float where
  isNaN h := ComparedByValue.isNumber (Number.intEq_iff.1 h).2
  not_signed {k x} h hk := by
    have hnormal := normal_of_floor (Number.intEq_iff.1 h).1 hk
    change decide (2 ^ 63 ≤ x.toBits.toNat) = false
    have := hnormal.exponent_lt
    rw [decide_eq_false_iff_not]
    omega
  lt_iff {k l x y} hx hy hk hl := by
    obtain ⟨hfx, hex⟩ := Number.intEq_iff.1 hx
    obtain ⟨hfy, hey⟩ := Number.intEq_iff.1 hy
    have hbits := lt_iff_toBits (normal_of_floor hfx hk) (normal_of_floor hfy hl)
    change decide (x < y) = true ↔ k < l
    rw [decide_eq_true_iff]
    constructor
    · intro h
      rw [hbits] at h
      rcases Int.lt_trichotomy k l with hlt | rfl | hlt
      · exact hlt
      · have heq := ComparedByValue.trans hex (ComparedByValue.symm hey)
        obtain ⟨-, rfl | ⟨rfl, rfl⟩ | ⟨rfl, rfl⟩⟩ := eq_cases heq
        · exact absurd h (lt_irrefl _)
        · rw [Option.some.inj (hfx.symm.trans floor_zero)] at hk
          cases hk
        · rw [Option.some.inj (hfx.symm.trans floor_negative_zero)] at hk
          cases hk
      · have hback := lt_of_floor_lt hfy hfx hl hk hlt
        rw [lt_iff_toBits (normal_of_floor hfy hl) (normal_of_floor hfx hk)] at hback
        omega
    · exact lt_of_floor_lt hfx hfy hk hl

end AdditiveModel.Real.Binary64
