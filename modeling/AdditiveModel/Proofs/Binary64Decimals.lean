import AdditiveModel.Proofs.Binary64Signs

/-! Decimal fractions in binary64. Numbers without a sign are ordered as their bits, and the number
nearest to a quotient that is at most one has no more bits than one has. -/

namespace AdditiveModel

/-- A decimal fraction between zero and one stays there when it is rounded. -/
class UnitDecimals (F : Type) [Scalar F] : Prop where
  bounds {mantissa places : Nat} : mantissa ≤ 10 ^ places →
    Scalar.le (Scalar.zero : F) (Scalar.ofDecimal mantissa (-(places : Int))) = true ∧
      Scalar.le (Scalar.ofDecimal mantissa (-(places : Int)) : F) Scalar.one = true

namespace Real.Binary64

open Float.Model

theorem le_iff_unpacked (x y : Float) : x ≤ y ↔
    (UnpackedFloat.unpack Format.binary64 x.toBits.toBitVec).le
      (UnpackedFloat.unpack Format.binary64 y.toBits.toBitVec) = true := by
  change decide (x.toModel ≤ y.toModel) = true ↔ _
  rw [decide_eq_true_iff]
  exact Iff.rfl

/-- A finite number without a sign that is not zero. The numbers without a leading one share the
exponent of the smallest with one. -/
theorem unpack_positive {b : BitVec 64} (hpos : 0 < b.toNat) (hlt : b.toNat < 2047 * 2 ^ 52) :
    ∃ m h, UnpackedFloat.unpack Format.binary64 b =
      .finite .positive m ((max 1 (b.toNat / 2 ^ 52) : Nat) - 1075) h ∧
      m = if b.toNat / 2 ^ 52 = 0 then b.toNat else 2 ^ 52 + b.toNat % 2 ^ 52 := by
  by_cases hnormal : b.toNat / 2 ^ 52 = 0
  · have hexponent : @UnpackedFloat.unpackExponent Format.binary64 b = 0#11 := by
      apply BitVec.eq_of_toNat_eq
      rw [exponent_toNat, hnormal, BitVec.toNat_zero, Nat.zero_mod]
    have hmantissa : (@UnpackedFloat.unpackMantissa Format.binary64 b).toNat = b.toNat := by
      rw [mantissa_toNat]
      omega
    have hsign : @UnpackedFloat.unpackSign Format.binary64 b = 0#1 := by
      rw [unpackSign_eq_zero_iff]
      omega
    have hne : @UnpackedFloat.unpackMantissa Format.binary64 b ≠ 0#52 := by
      intro h
      rw [h, BitVec.toNat_zero] at hmantissa
      omega
    refine ⟨b.toNat, hpos, ?_, (if_pos hnormal).symm⟩
    unfold UnpackedFloat.unpack
    dsimp only
    rw [if_neg, if_pos hexponent, dif_neg hne]
    · simp only [UnpackedFloat.finite.injEq, hsign, hmantissa, hexponent, hnormal]
      exact ⟨rfl, trivial, rfl⟩
    · rw [hexponent]
      decide
  · have hbits : Normal b.toNat := ⟨by omega, by omega⟩
    obtain ⟨h, hunpack⟩ := unpack_normal hbits
    refine ⟨_, h, ?_, (if_neg hnormal).symm⟩
    rw [hunpack, Nat.max_eq_right (by omega)]

theorem unpack_of_toNat_zero {b : BitVec 64} (h : b.toNat = 0) :
    UnpackedFloat.unpack Format.binary64 b = .zero .positive := by
  obtain rfl : b = 0#64 := BitVec.eq_of_toNat_eq h
  rfl

theorem le_of_toBits_le {x y : Float} (h : x.toBits.toNat ≤ y.toBits.toNat)
    (hlt : y.toBits.toNat < 2047 * 2 ^ 52) : x ≤ y := by
  rw [le_iff_unpacked]
  rw [← UInt64.toNat_toBitVec, ← UInt64.toNat_toBitVec] at h
  rw [← UInt64.toNat_toBitVec] at hlt
  generalize x.toBits.toBitVec = a at h
  generalize y.toBits.toBitVec = b at h hlt
  rcases Nat.eq_zero_or_pos b.toNat with hb | hb
  · rw [unpack_of_toNat_zero hb, unpack_of_toNat_zero (Nat.le_zero.1 (hb ▸ h))]
    rfl
  obtain ⟨n, hn, hunpackb, hnb⟩ := unpack_positive hb hlt
  rcases Nat.eq_zero_or_pos a.toNat with ha | ha
  · rw [unpack_of_toNat_zero ha, hunpackb]
    rfl
  obtain ⟨m, hm, hunpacka, hma⟩ := unpack_positive ha (h.trans_lt hlt)
  rw [hunpacka, hunpackb]
  simp only [UnpackedFloat.le, UnpackedFloat.compare, Option.any_some, Ordering.isLE_then_iff_or,
    Int.compare_eq_lt, Int.compare_eq_eq, Nat.isLE_compare]
  -- a greater exponent decides, and within one exponent the mantissas are ordered as the bits
  split_ifs at hma hnb <;> omega

theorem toNat_toBits_ofBits {k : Nat} (h : k < 2047 * 2 ^ 52) :
    (Float.ofBits (UInt64.ofNat k)).toBits.toNat = k := by
  have hk : (UInt64.ofNat k).toBitVec.toNat = k := by
    rw [UInt64.toNat_toBitVec, UInt64.toNat_ofNat', Nat.mod_eq_of_lt (by omega)]
  have hpack : (Float.ofBits (UInt64.ofNat k)).toBits.toBitVec =
      UnpackedFloat.pack Format.binary64 (UnpackedFloat.unpack Format.binary64 (UInt64.ofNat k).toBitVec) := rfl
  have hnumber : @UnpackedFloat.isNaNBits Format.binary64 (UInt64.ofNat k).toBitVec = false := by
    rw [UnpackedFloat.isNaNBits, decide_eq_false_iff_not]
    rintro ⟨hexponent, -⟩
    have hones := congrArg BitVec.toNat hexponent
    rw [exponent_toNat, hk, show (-1#11 : BitVec 11).toNat = 2047 from rfl] at hones
    omega
  rw [UnpackedFloat.pack_unpack, if_neg (by rw [hnumber]; exact Bool.false_ne_true)] at hpack
  rw [← UInt64.toNat_toBitVec, hpack, hk]

def oneBits : Nat := 1023 * 2 ^ 52

theorem encode_le_one {m : Nat} {e : Int} (hm : m ≤ 2 ^ 53) (hlow : -1074 ≤ e) (hhigh : e ≤ -52)
    (hle : m ≤ 2 ^ (-e).toNat) : (encode m e).toBits.toNat ≤ oneBits := by
  unfold encode
  split
  · decide +kernel
  obtain ⟨m', e', hpair, hm', hlow', hhigh', hle'⟩ : ∃ m' e',
      (if m = Nat.pow 2 53 then (Nat.pow 2 52, e + 1) else (m, e)) = (m', e') ∧ m' < 2 ^ 53 ∧
        -1074 ≤ e' ∧ e' ≤ -52 ∧ m' ≤ 2 ^ (-e').toNat := by
    split
    · rename_i heq
      have hexp : 53 ≤ (-e).toNat := (Nat.pow_le_pow_iff_right (by decide)).1 (heq ▸ hle)
      exact ⟨_, _, rfl, by decide, by omega, by omega, Nat.pow_le_pow_right (by decide) (by omega)⟩
    · rename_i hne
      exact ⟨_, _, rfl, lt_of_le_of_ne hm hne, hlow, hhigh, hle⟩
  rw [hpair]
  dsimp only
  have hup : min (52 - m'.log2) (e' + 1074).toNat ≤ (e' + 1074).toNat := Nat.min_le_right _ _
  have hshifted : m' * Nat.pow 2 (min (52 - m'.log2) (e' + 1074).toNat) < 2 ^ 53 :=
    shifted_lt hm' (Nat.min_le_left _ _)
  generalize min (52 - m'.log2) (e' + 1074).toNat = up at hup hshifted
  have hle'' : m' * Nat.pow 2 up ≤ 2 ^ (-(e' - up)).toNat := by
    have hexp : (-(e' - up)).toNat = (-e').toNat + up := by omega
    rw [hexp, pow_add]
    exact Nat.mul_le_mul_right _ hle'
  have hpow : Nat.pow 2 52 = 2 ^ 52 := rfl
  rw [hpow]
  generalize m' * Nat.pow 2 up = k at hshifted hle''
  unfold oneBits
  split
  · omega
  split
  · rw [toNat_toBits_ofBits (by omega)]
    omega
  · rename_i hnormal
    have hexp : 52 ≤ (-(e' - up)).toNat :=
      (Nat.pow_le_pow_iff_right (by decide)).1 ((not_lt.1 hnormal).trans hle'')
    rcases Nat.eq_or_lt_of_le hexp with heq | hlt
    · rw [← heq] at hle''
      rw [toNat_toBits_ofBits (by omega)]
      omega
    · rw [toNat_toBits_ofBits (by omega)]
      omega

theorem roundDiv_le_of_le {n d q : Nat} (hd : 0 < d) (h : n ≤ q * d) : Digits.roundDiv n d ≤ q := by
  rcases Nat.lt_or_ge (n / d) q with hlt | hge
  · exact (Digits.roundDiv_mem n d).2.trans hlt
  · obtain rfl : n = q * d := h.antisymm (by
      calc q * d ≤ n / d * d := Nat.mul_le_mul_right d hge
        _ ≤ n := Nat.div_mul_le_self n d)
    exact (Digits.roundDiv_mul hd q).le

theorem roundBinary_bounds {n d : Nat} (hn : 0 < n) (h : n ≤ d) :
    ∃ m e, roundBinary 53 (-1074) n d = (m, e) ∧ m ≤ 2 ^ 53 ∧ -1074 ≤ e ∧ e ≤ -52 ∧ m ≤ 2 ^ (-e).toNat := by
  let pair (e : Int) : Nat × Nat :=
    if e < 0 then (n * Nat.pow 2 e.natAbs, d) else (n, d * Nat.pow 2 e.toNat)
  let guess : Int := (n.log2 : Int) - (d.log2 : Int) - ((53 : Nat) : Int)
  let e : Int := max (-1074) (if (pair guess).1 / (pair guess).2 < Nat.pow 2 53 then guess else guess + 1)
  have hopen : roundBinary 53 (-1074) n d = (Digits.roundDiv (pair e).1 (pair e).2, e) := rfl
  have hlog : n.log2 ≤ d.log2 := by
    rw [Nat.le_log2 (by omega)]
    exact (Nat.log2_self_le hn.ne').trans h
  have hpos : 0 < d := hn.trans_le h
  have hhigh : e ≤ -52 := by
    simp only [e]
    split <;> omega
  have hpair {e : Int} (he : e < 0) : pair e = (n * 2 ^ e.natAbs, d) := if_pos he
  -- the quotient has no more than 53 binary digits at the guess or above it
  have hquotient : n * 2 ^ e.natAbs / d < 2 ^ 53 := by
    by_cases hfits : (pair guess).1 / (pair guess).2 < Nat.pow 2 53
    · have he : guess ≤ e := (if_pos hfits).ge.trans (le_max_right _ _)
      rw [hpair (by omega)] at hfits
      refine lt_of_le_of_lt (Nat.div_le_div_right (Nat.mul_le_mul_left n ?_)) hfits
      exact Nat.pow_le_pow_right (by decide) (by omega)
    · have he : guess + 1 ≤ e := (if_neg hfits).ge.trans (le_max_right _ _)
      apply Nat.div_lt_of_lt_mul
      calc n * 2 ^ e.natAbs < 2 ^ (n.log2 + 1) * 2 ^ e.natAbs :=
            Nat.mul_lt_mul_of_pos_right Nat.lt_log2_self (Nat.two_pow_pos _)
        _ ≤ 2 ^ (d.log2 + 53) := by
            rw [← pow_add]
            exact Nat.pow_le_pow_right (by decide) (by omega)
        _ = 2 ^ d.log2 * 2 ^ 53 := pow_add 2 _ _
        _ ≤ d * 2 ^ 53 := Nat.mul_le_mul_right _ (Nat.log2_self_le hpos.ne')
  refine ⟨_, e, hopen, ?_, le_max_left _ _, hhigh, ?_⟩
  · rw [hpair (by omega)]
    exact (Digits.roundDiv_mem _ _).2.trans hquotient
  · rw [hpair (by omega)]
    refine roundDiv_le_of_le hpos ?_
    rw [Nat.mul_comm]
    have hexp : e.natAbs = (-e).toNat := by omega
    rw [hexp]
    exact Nat.mul_le_mul_left _ h

theorem ofRatioNat_le_one {n d : Nat} (hd : 0 < d) (h : n ≤ d) : (ofRatioNat n d).toBits.toNat ≤ oneBits := by
  unfold ofRatioNat
  split
  · decide +kernel
  · rename_i hn
    obtain ⟨m, e, hround, hm, hlow, hhigh, hle⟩ := roundBinary_bounds (Nat.pos_of_ne_zero hn) h
    rw [if_neg hd.ne', hround]
    exact encode_le_one hm hlow hhigh hle

theorem ofDecimal_le_one {m k : Nat} (h : m ≤ 10 ^ k) :
    (ofDecimal (m : Int) (-(k : Int))).toBits.toNat ≤ oneBits := by
  have hnat : (m : Int).natAbs = m := Int.natAbs_natCast m
  have hsign (x : Float) : withSign (decide ((m : Int) < 0)) x = x := by
    simp [withSign]
  have hwidth : Digits.width m ≤ k + 1 := by
    rw [Digits.width, Nat.length_toDigits_le_iff (by decide) (by omega), pow_succ]
    have hpos : 0 < 10 ^ k := Nat.pow_pos (by decide)
    omega
  unfold ofDecimal
  dsimp only
  simp only [hnat, hsign]
  split
  · decide +kernel
  split
  · omega
  split
  · decide +kernel
  split
  · rw [Int.natAbs_neg, Int.natAbs_natCast]
    exact ofRatioNat_le_one (Nat.pow_pos (by decide)) h
  · obtain rfl : k = 0 := by omega
    exact ofRatioNat_le_one Nat.one_pos (by simpa using h)

instance : UnitDecimals Float where
  bounds {m k} h := by
    have hbits := ofDecimal_le_one h
    have hone : (Scalar.one : Float).toBits.toNat = oneBits := by decide +kernel
    have hzero : (Scalar.zero : Float).toBits.toNat = 0 := by decide +kernel
    exact ⟨decide_eq_true (le_of_toBits_le (hzero ▸ Nat.zero_le _) (hbits.trans_lt (by decide))),
      decide_eq_true (le_of_toBits_le (hone ▸ hbits) (hone ▸ by decide))⟩

end Real.Binary64

end AdditiveModel
