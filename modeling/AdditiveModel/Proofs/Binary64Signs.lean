import AdditiveModel.Proofs.Binary64
import AdditiveModel.Proofs.Signs
import AdditiveModel.Proofs.SixDigits

/-! Signs of binary64 numbers. The sign bit of a quotient is that of the numerator where the denominator
has none, and rounding does not change it; an integer that is not negative is encoded without it. -/

namespace AdditiveModel.Real.Binary64

open Float.Model

def HasSign (s : UnpackedFloat.Sign) : UnpackedFloat → Prop
  | .infinity t | .zero t | .finite t .. => t = s
  | .notANumber => True

/-- A number that is not below zero, or no number; a zero may have any sign. -/
def NotBelow : UnpackedFloat → Prop
  | .zero _ => True
  | u => HasSign .positive u

theorem HasSign.notBelow {u : UnpackedFloat} (h : HasSign .positive u) : NotBelow u := by
  cases u with
  | zero s => trivial
  | _ => exact h

theorem hasSign_unpack (spec : Format) (b : BitVec spec.numBits) :
    HasSign (.ofBitVec (UnpackedFloat.unpackSign b)) (UnpackedFloat.unpack spec b) := by
  unfold UnpackedFloat.unpack
  dsimp only
  split
  · split <;> trivial
  split
  · split <;> rfl
  · rfl

theorem lt_zero_iff (u : UnpackedFloat) (s : UnpackedFloat.Sign) : u.lt (.zero s) = false ↔ NotBelow u := by
  cases u with
  | notANumber => exact iff_of_true rfl trivial
  | zero t => exact iff_of_true rfl trivial
  | infinity t => cases t <;> simp [UnpackedFloat.lt, UnpackedFloat.compare, NotBelow, HasSign]
  | finite t m e h => cases t <;> simp [UnpackedFloat.lt, UnpackedFloat.compare, NotBelow, HasSign]

theorem zero_lt_eq_false {u : UnpackedFloat} {s : UnpackedFloat.Sign} (h : HasSign .negative u) :
    (UnpackedFloat.zero s).lt u = false := by
  cases u with
  | notANumber => rfl
  | zero t | infinity t | finite t m e hm =>
    obtain rfl : t = .negative := h
    rfl

theorem hasSign_round (spec : Format) (s : UnpackedFloat.Sign) (m : Nat) (e : Int)
    (accuracy : UnpackedFloat.Accuracy) :
    HasSign s (UnpackedFloat.roundWithAccuracy spec s m e accuracy) := by
  unfold UnpackedFloat.roundWithAccuracy
  dsimp only
  split <;> rfl

theorem notBelow_div (spec : Format) {x y : UnpackedFloat} (hx : HasSign .positive x) (hy : NotBelow y) :
    NotBelow (UnpackedFloat.div spec y x) := by
  cases x with
  | notANumber => cases y <;> trivial
  | infinity s =>
    cases y with
    | infinity t | notANumber => trivial
    | zero t | finite t m e h => trivial
  | zero s =>
    obtain rfl : s = .positive := hx
    cases y with
    | notANumber | zero t => trivial
    | infinity t | finite t m e h =>
      obtain rfl : t = .positive := hy
      rfl
  | finite s m e h =>
    obtain rfl : s = .positive := hx
    cases y with
    | notANumber | zero t => trivial
    | infinity t =>
      obtain rfl : t = .positive := hy
      rfl
    | finite t m' e' h' =>
      obtain rfl : t = .positive := hy
      exact (hasSign_round spec .positive _ _ _).notBelow

theorem unpackSign_pack {spec : Format} {u : UnpackedFloat} (h : HasSign .positive u) :
    UnpackedFloat.unpackSign (UnpackedFloat.pack spec u) = 0#1 := by
  cases u with
  | notANumber => exact UnpackedFloat.unpackSign_packComponents .positive _ _
  | infinity t | zero t =>
    obtain rfl : t = .positive := h
    exact UnpackedFloat.unpackSign_packComponents .positive _ _
  | finite t m e hm =>
    obtain rfl : t = .positive := h
    unfold UnpackedFloat.pack
    dsimp only
    split
    · exact UnpackedFloat.unpackSign_packComponents .positive _ _
    split <;> exact UnpackedFloat.unpackSign_packComponents .positive _ _

theorem hasSign_pack {spec : Format} {u : UnpackedFloat} (h : HasSign .positive u) :
    HasSign .positive (UnpackedFloat.unpack spec (UnpackedFloat.pack spec u)) := by
  have hunpack := hasSign_unpack spec (UnpackedFloat.pack spec u)
  rwa [unpackSign_pack h] at hunpack

theorem notBelow_pack {u : UnpackedFloat} (h : NotBelow u) :
    NotBelow (UnpackedFloat.unpack Format.binary64 (UnpackedFloat.pack Format.binary64 u)) := by
  cases u with
  | zero s => cases s <;> trivial
  | notANumber => trivial
  | infinity s => exact (hasSign_pack (u := .infinity s) h).notBelow
  | finite s m e hm => exact (hasSign_pack (u := .finite s m e hm) h).notBelow

def unpacked (x : Float) : UnpackedFloat := UnpackedFloat.unpack Format.binary64 x.toBits.toBitVec

theorem unpackSign_eq_zero_iff {b : BitVec 64} :
    @UnpackedFloat.unpackSign Format.binary64 b = 0#1 ↔ b.toNat < 2 ^ 63 := by
  rw [← BitVec.toNat_inj, sign_toNat, BitVec.toNat_zero]
  omega

theorem hasSign_of_not_signed {x : Float} (h : x.toBits.toNat < 2 ^ 63) : HasSign .positive (unpacked x) := by
  have hunpack := hasSign_unpack Format.binary64 x.toBits.toBitVec
  rwa [unpackSign_eq_zero_iff.2 h] at hunpack

theorem hasSign_of_signed {x : Float} (h : 2 ^ 63 ≤ x.toBits.toNat) : HasSign .negative (unpacked x) := by
  have hsign : @UnpackedFloat.unpackSign Format.binary64 x.toBits.toBitVec ≠ 0#1 := by
    rw [Ne, unpackSign_eq_zero_iff]
    exact not_lt.2 h
  have hunpack := hasSign_unpack Format.binary64 x.toBits.toBitVec
  rwa [UnpackedFloat.Sign.ofBitVec, if_neg hsign] at hunpack

theorem hasSign_of_isNaN {x : Float} {s : UnpackedFloat.Sign} (h : x.isNaN = true) :
    HasSign s (unpacked x) := by
  have hnan : (unpacked x).isNaN = true := h
  cases hx : unpacked x with
  | notANumber => trivial
  | _ =>
    rw [hx] at hnan
    cases hnan

theorem zero_eq : (Scalar.zero : Float) = 0 := rfl

theorem unpacked_zero : unpacked 0 = .zero .positive := rfl

theorem lt_zero_eq_false_iff {x : Float} : Scalar.lt x Scalar.zero = false ↔ NotBelow (unpacked x) := by
  rw [← lt_zero_iff _ .positive, ← unpacked_zero, zero_eq]
  change decide (x < 0) = false ↔ _
  rw [decide_eq_false_iff_not, lt_iff_unpacked, Bool.not_eq_true]
  rfl

theorem signed_eq_false_iff {x : Float} : Scalar.signed x = false ↔ x.toBits.toNat < 2 ^ 63 := by
  change decide (2 ^ 63 ≤ x.toBits.toNat) = false ↔ _
  rw [decide_eq_false_iff_not, not_le]

theorem ratio_pos (d : Dyadic) : 0 < d.ratio.2 ∧ (0 < d.mantissa → 0 < d.ratio.1) := by
  unfold Dyadic.ratio
  split
  · exact ⟨Nat.two_pow_pos _, id⟩
  · exact ⟨Nat.one_pos, fun h => Nat.mul_pos h (Nat.two_pow_pos _)⟩

theorem floor_dyadic {x : Float} {m : Int} (h : floor? x = some m) : ∃ d, decode? x = some d ∧
    m = if d.negative then -(((d.ratio.1 + d.ratio.2 - 1) / d.ratio.2 : Nat) : Int)
      else ((d.ratio.1 / d.ratio.2 : Nat) : Int) := by
  obtain ⟨d, hd, h⟩ := Option.map_eq_some_iff.1 h
  exact ⟨d, hd, h.symm⟩

theorem unpack_zero {b : BitVec 64} (hexponent : b.toNat / 2 ^ 52 % 2 ^ 11 = 0)
    (hmantissa : b.toNat % 2 ^ 52 = 0) : ∃ s, UnpackedFloat.unpack Format.binary64 b = .zero s := by
  have he : @UnpackedFloat.unpackExponent Format.binary64 b = 0#11 := by
    apply BitVec.eq_of_toNat_eq
    rw [exponent_toNat, hexponent, BitVec.toNat_zero]
  have hm : @UnpackedFloat.unpackMantissa Format.binary64 b = 0#52 := by
    apply BitVec.eq_of_toNat_eq
    rw [mantissa_toNat, hmantissa, BitVec.toNat_zero]
  refine ⟨.ofBitVec (@UnpackedFloat.unpackSign Format.binary64 b), ?_⟩
  unfold UnpackedFloat.unpack
  dsimp only
  rw [if_neg, if_pos he, dif_pos hm]
  rw [he]
  decide

theorem exponent_eq_iff (x : Float) (e : BitVec 11) :
    @UnpackedFloat.unpackExponent Format.binary64 x.toBits.toBitVec = e ↔
      x.toBits.toNat / 2 ^ 52 % 2 ^ 11 = e.toNat := by
  rw [← BitVec.toNat_inj, exponent_toNat, UInt64.toNat_toBitVec]

theorem sign_eq (x : Float) :
    UnpackedFloat.Sign.ofBitVec (@UnpackedFloat.unpackSign Format.binary64 x.toBits.toBitVec) =
      if decide (2 ^ 63 ≤ x.toBits.toNat) then .negative else .positive := by
  have hzero := unpackSign_eq_zero_iff (b := x.toBits.toBitVec)
  rw [UInt64.toNat_toBitVec] at hzero
  rw [UnpackedFloat.Sign.ofBitVec]
  by_cases hsigned : 2 ^ 63 ≤ x.toBits.toNat
  · rw [if_neg (mt hzero.1 (not_lt.2 hsigned)), if_pos (decide_eq_true hsigned)]
  · rw [if_pos (hzero.2 (not_le.1 hsigned)), decide_eq_false hsigned, if_neg Bool.false_ne_true]

theorem unpacked_of_decode {x : Float} {d : Dyadic} (hd : decode? x = some d) :
    d.mantissa = 0 ∧ (∃ s, unpacked x = .zero s) ∨
      ∃ h, unpacked x = .finite (if d.negative then .negative else .positive) d.mantissa d.exponent h := by
  have hsign := sign_eq x
  have hinfinite := exponent_eq_iff x (-1#11)
  have hsubnormal := exponent_eq_iff x 0#11
  have hexponent := exponent_toNat x.toBits.toBitVec
  have hmantissa := mantissa_toNat x.toBits.toBitVec
  rw [UInt64.toNat_toBitVec] at hexponent hmantissa
  rw [decode_eq] at hd
  unfold unpacked
  split at hd
  · cases hd
  rename_i hfinite
  split at hd
  · rename_i hzero
    cases hd
    rcases Nat.eq_zero_or_pos (x.toBits.toNat % 2 ^ 52) with hnone | hpos
    · exact .inl ⟨hnone, unpack_zero hzero hnone⟩
    · refine .inr ⟨hpos, ?_⟩
      have hne : @UnpackedFloat.unpackMantissa Format.binary64 x.toBits.toBitVec ≠ 0#52 := by
        intro h
        rw [h, BitVec.toNat_zero] at hmantissa
        omega
      unfold UnpackedFloat.unpack
      dsimp only
      rw [if_neg (mt hinfinite.1 hfinite), if_pos (hsubnormal.2 hzero), dif_neg hne]
      simp only [UnpackedFloat.finite.injEq]
      refine ⟨hsign, hmantissa, ?_⟩
      rw [hexponent, hzero]
      rfl
  · rename_i hnormal
    cases hd
    refine .inr ⟨Nat.add_pos_right _ (Nat.two_pow_pos 52), ?_⟩
    unfold UnpackedFloat.unpack
    dsimp only
    rw [if_neg (mt hinfinite.1 hfinite), if_neg (mt hsubnormal.1 hnormal)]
    simp only [UnpackedFloat.finite.injEq]
    refine ⟨hsign, by rw [toNat_leadingOne, hmantissa, Nat.add_comm], ?_⟩
    rw [hexponent]
    rfl

theorem unpacked_of_decode_none {x : Float} (hd : decode? x = none) :
    (∃ s, unpacked x = .infinity s) ∨ unpacked x = .notANumber := by
  rw [decode_eq] at hd
  split at hd
  · rename_i hinfinite
    unfold unpacked UnpackedFloat.unpack
    dsimp only
    rw [if_pos ((exponent_eq_iff x (-1#11)).2 hinfinite)]
    split
    · exact .inl ⟨_, rfl⟩
    · exact .inr rfl
  · split at hd <;> cases hd

theorem decode_signed {x : Float} {d : Dyadic} (hd : decode? x = some d)
    (hsigned : 2 ^ 63 ≤ x.toBits.toNat) :
    d.negative = true ∧ (0 < d.mantissa ∨ d.mantissa = 0 ∧ ∃ s, unpacked x = .zero s) := by
  rw [decode_eq] at hd
  split at hd
  · cases hd
  split at hd
  · rename_i hexponent
    cases hd
    refine ⟨decide_eq_true hsigned, ?_⟩
    rcases Nat.eq_zero_or_pos (x.toBits.toNat % 2 ^ 52) with hzero | hpos
    · exact .inr ⟨hzero, unpack_zero hexponent hzero⟩
    · exact .inl hpos
  · cases hd
    exact ⟨decide_eq_true hsigned, .inl (Nat.add_pos_right _ (Nat.two_pow_pos 52))⟩

theorem floor_signed {x : Float} {m : Int} (h : floor? x = some m) (hsigned : 2 ^ 63 ≤ x.toBits.toNat) :
    m < 0 ∨ m = 0 ∧ ∃ s, unpacked x = .zero s := by
  obtain ⟨d, hd, rfl⟩ := floor_dyadic h
  obtain ⟨hnegative, hpos | ⟨hzero, hx⟩⟩ := decode_signed hd hsigned
  · left
    obtain ⟨hden, hnum⟩ := ratio_pos d
    have hnum := hnum hpos
    rw [if_pos hnegative, Int.neg_neg_iff_pos, Int.natCast_pos]
    exact Nat.div_pos (by omega) hden
  · right
    obtain ⟨hden, -⟩ := ratio_pos d
    have hnum : d.ratio.1 = 0 := by
      unfold Dyadic.ratio
      split <;> simp [hzero]
    rw [if_pos hnegative, hnum, Nat.zero_add, Nat.div_eq_of_lt (by omega)]
    exact ⟨rfl, hx⟩

theorem toBits_ofBits {k : Nat} (h : k < 2 ^ 63) :
    (Float.ofBits (UInt64.ofNat k)).toBits.toNat < 2 ^ 63 := by
  have hk : (UInt64.ofNat k).toBitVec.toNat < 2 ^ 63 := by
    rw [UInt64.toNat_toBitVec, UInt64.toNat_ofNat']
    exact Nat.lt_of_le_of_lt (Nat.mod_le _ _) h
  have hunpack := hasSign_unpack Format.binary64 (UInt64.ofNat k).toBitVec
  rw [unpackSign_eq_zero_iff.2 hk] at hunpack
  exact unpackSign_eq_zero_iff.1 (unpackSign_pack hunpack)

theorem zero_lt : (0 : Float).toBits.toNat < 2 ^ 63 := by
  decide +kernel

theorem shifted_lt {m up : Nat} (h : m < 2 ^ 53) (hup : up ≤ 52 - m.log2) : m * 2 ^ up < 2 ^ 53 := by
  rcases Nat.eq_zero_or_pos m with rfl | hpos
  · simp
  have hlog : m.log2 < 53 := (Nat.log2_lt hpos.ne').2 h
  calc m * 2 ^ up < 2 ^ (m.log2 + 1) * 2 ^ up :=
        Nat.mul_lt_mul_of_pos_right Nat.lt_log2_self (Nat.two_pow_pos up)
    _ = 2 ^ (m.log2 + 1 + up) := (Nat.pow_add 2 _ _).symm
    _ ≤ 2 ^ 53 := Nat.pow_le_pow_right (by decide) (by omega)

theorem encode_cases {m : Nat} {e : Int} (hpos : 0 < m) (hm : m ≤ 2 ^ 53) (he : -1074 ≤ e) :
    encode m e = positiveInfinity ∨
      ∃ k, encode m e = Float.ofBits (UInt64.ofNat k) ∧ 0 < k ∧ k < 2047 * 2 ^ 52 := by
  unfold encode
  rw [if_neg hpos.ne']
  obtain ⟨m', e', hpair, hpos', hm', he'⟩ : ∃ m' e',
      (if m = Nat.pow 2 53 then (Nat.pow 2 52, e + 1) else (m, e)) = (m', e') ∧ 0 < m' ∧ m' < 2 ^ 53 ∧
        -1074 ≤ e' := by
    split
    · exact ⟨_, _, rfl, by decide, by decide, by omega⟩
    · rename_i hne
      exact ⟨_, _, rfl, hpos, lt_of_le_of_ne hm hne, he⟩
  rw [hpair]
  dsimp only
  have hup : min (52 - m'.log2) (e' + 1074).toNat ≤ (e' + 1074).toNat := Nat.min_le_right _ _
  have hshifted : m' * Nat.pow 2 (min (52 - m'.log2) (e' + 1074).toNat) < 2 ^ 53 :=
    shifted_lt hm' (Nat.min_le_left _ _)
  have hshifted' : 0 < m' * Nat.pow 2 (min (52 - m'.log2) (e' + 1074).toNat) :=
    Nat.mul_pos hpos' (Nat.two_pow_pos _)
  have hpow : Nat.pow 2 52 = 2 ^ 52 := rfl
  rw [hpow]
  generalize m' * Nat.pow 2 (min (52 - m'.log2) (e' + 1074).toNat) = k at hshifted hshifted'
  generalize min (52 - m'.log2) (e' + 1074).toNat = up at hup
  split
  · exact .inl rfl
  split
  · exact .inr ⟨k, rfl, hshifted', by omega⟩
  · exact .inr ⟨_, rfl, by omega, by omega⟩

/-- A quotient of a natural with a power of two, which has no more than 53 binary digits. -/
theorem quotient_lt {n : Nat} {e : Int} (he : (n.log2 : Int) - 52 ≤ e) :
    (if e < 0 then (n * Nat.pow 2 e.natAbs, 1) else (n, 1 * Nat.pow 2 e.toNat)).1 /
      (if e < 0 then (n * Nat.pow 2 e.natAbs, 1) else (n, 1 * Nat.pow 2 e.toNat)).2 < 2 ^ 53 := by
  have hlog : n < 2 ^ (n.log2 + 1) := Nat.lt_log2_self
  split
  · rename_i hneg
    have hpow : 2 ^ (n.log2 + 1) ≤ 2 ^ 53 := Nat.pow_le_pow_right (by decide) (by omega)
    have hup : e.natAbs ≤ 52 - n.log2 := by omega
    rw [Nat.div_one]
    exact shifted_lt (lt_of_lt_of_le hlog hpow) hup
  · have hlt : n < 2 ^ e.toNat * 2 ^ 53 :=
      calc n < 2 ^ (n.log2 + 1) := hlog
        _ ≤ 2 ^ (e.toNat + 53) := Nat.pow_le_pow_right (by decide) (by omega)
        _ = 2 ^ e.toNat * 2 ^ 53 := pow_add 2 e.toNat 53
    rw [Nat.one_mul]
    exact Nat.div_lt_of_lt_mul hlt

theorem roundBinary_one {n : Nat} (hn : 0 < n) :
    ∃ m e, roundBinary 53 (-1074) n 1 = (m, e) ∧ 0 < m ∧ m ≤ 2 ^ 53 ∧ -1074 ≤ e := by
  let pair (e : Int) : Nat × Nat :=
    if e < 0 then (n * Nat.pow 2 e.natAbs, 1) else (n, 1 * Nat.pow 2 e.toNat)
  let guess : Int := (n.log2 : Int) - ((1 : Nat).log2 : Int) - ((53 : Nat) : Int)
  let e : Int := max (-1074) (if (pair guess).1 / (pair guess).2 < Nat.pow 2 53 then guess else guess + 1)
  have hopen : roundBinary 53 (-1074) n 1 = (Digits.roundDiv (pair e).1 (pair e).2, e) := rfl
  have hlog : (1 : Nat).log2 = 0 := rfl
  have hguess : guess = (n.log2 : Int) - 53 := by
    simp only [guess, hlog]
    rfl
  have hquotient : (pair e).1 / (pair e).2 < 2 ^ 53 := by
    by_cases hfits : (pair guess).1 / (pair guess).2 < Nat.pow 2 53
    · have he : e = max (-1074) guess := congrArg (max (-1074)) (if_pos hfits)
      rw [he, max_eq_right (by omega)]
      exact hfits
    · have he : e = max (-1074) (guess + 1) := congrArg (max (-1074)) (if_neg hfits)
      exact quotient_lt (by omega)
  have hpositive : 0 < (pair e).1 / (pair e).2 := by
    have he : e.toNat ≤ n.log2 := by
      simp only [e]
      split <;> omega
    simp only [pair]
    split
    · exact Nat.div_pos (Nat.mul_pos hn (Nat.two_pow_pos _)) Nat.one_pos
    · rw [Nat.one_mul]
      exact Nat.div_pos ((Nat.pow_le_pow_right (by decide) he).trans (Nat.log2_self_le hn.ne'))
        (Nat.two_pow_pos _)
  obtain ⟨hfloor, hceil⟩ := Digits.roundDiv_mem (pair e).1 (pair e).2
  exact ⟨_, e, hopen, hpositive.trans_le hfloor, hceil.trans hquotient, le_max_left _ _⟩

theorem ofInt_eq {n : Int} (h : 0 ≤ n) : ofInt n = ofRatioNat n.natAbs 1 := by
  unfold ofInt ofRatio
  rw [decide_eq_false_iff_not.2 (not_lt.2 h), withSign, if_neg Bool.false_ne_true]

theorem ofRatioNat_cases {n : Nat} (hn : 0 < n) : ofRatioNat n 1 = positiveInfinity ∨
    ∃ k, ofRatioNat n 1 = Float.ofBits (UInt64.ofNat k) ∧ 0 < k ∧ k < 2047 * 2 ^ 52 := by
  obtain ⟨m, e, hround, hpos, hm, he⟩ := roundBinary_one hn
  rw [ofRatioNat, if_neg hn.ne', if_neg Nat.one_ne_zero, hround]
  exact encode_cases hpos hm he

theorem ofRatioNat_lt (n : Nat) : (ofRatioNat n 1).toBits.toNat < 2 ^ 63 := by
  rcases Nat.eq_zero_or_pos n with rfl | hn
  · exact zero_lt
  · obtain hinfinite | ⟨k, hk, -, hlt⟩ := ofRatioNat_cases hn
    · rw [hinfinite]
      exact toBits_ofBits (by decide)
    · rw [hk]
      exact toBits_ofBits (by omega)

theorem ofInt_lt {n : Int} (h : 0 ≤ n) : (ofInt n).toBits.toNat < 2 ^ 63 := by
  rw [ofInt_eq h]
  exact ofRatioNat_lt _

instance : SignRules Float where
  not_lt {x} h := by
    rw [signed_eq_false_iff] at h
    exact lt_zero_eq_false_iff.2 (hasSign_of_not_signed h).notBelow
  not_lt_of_ltInt {x} h := by
    unfold Number.ltInt at h
    split at h
    · rename_i m hm
      rw [decide_eq_false_iff_not] at h
      rw [lt_zero_eq_false_iff]
      rcases Nat.lt_or_ge x.toBits.toNat (2 ^ 63) with hlt | hge
      · exact (hasSign_of_not_signed hlt).notBelow
      · obtain hneg | ⟨-, s, hs⟩ := floor_signed hm hge
        · exact absurd hneg h
        · rw [hs]
          trivial
    · exact h
  not_signed_of_intLt {x} h := by
    rw [signed_eq_false_iff]
    by_contra hge
    rw [not_lt] at hge
    unfold Number.intLt at h
    split at h
    · rename_i m hm
      simp only [Bool.or_eq_true, Bool.and_eq_true, decide_eq_true_eq, beq_iff_eq] at h
      obtain hneg | ⟨rfl, s, hs⟩ := floor_signed hm hge
      · omega
      · have hintegral : Number.isIntegral x = true := by
          unfold Number.isIntegral
          rw [hm]
          change (unpacked x).beq (unpacked 0) = true
          rw [hs]
          rfl
        simp [hintegral] at h
    · have hsign := hasSign_of_signed hge
      change decide (0 < x) = true at h
      rw [decide_eq_true_eq, lt_iff_unpacked] at h
      change (unpacked 0).lt (unpacked x) = true at h
      rw [unpacked_zero, zero_lt_eq_false hsign] at h
      cases h
  not_signed_ofInt h := signed_eq_false_iff.2 (ofInt_lt h)
  div_not_lt {x y} hx hy := by
    rw [lt_zero_eq_false_iff] at hy ⊢
    have hsign : HasSign .positive (unpacked x) := by
      rcases hx with hx | hx
      · exact hasSign_of_not_signed (signed_eq_false_iff.1 hx)
      · exact hasSign_of_isNaN hx
    exact notBelow_pack (notBelow_div Format.binary64 hsign hy)

end AdditiveModel.Real.Binary64
