import AdditiveModel.Proofs.Binary64Rounding

/-! Values of binary64 numbers. A number stands for an extended real number and is compared by it; packing
keeps the value, unless the exponent is too great. -/

namespace AdditiveModel.Real.Binary64

open Float.Model

theorem canonical_unpack (b : BitVec 64) : Canonical (UnpackedFloat.unpack Format.binary64 b) := by
  have hmantissa : (@UnpackedFloat.unpackMantissa Format.binary64 b).toNat < 2 ^ 52 := BitVec.isLt _
  unfold UnpackedFloat.unpack
  dsimp only
  split
  · split <;> trivial
  split
  · rename_i hexponent
    split
    · trivial
    · rw [hexponent]
      exact ⟨by omega, le_rfl, .inl rfl⟩
  · rename_i hexponent
    have hpos : 0 < (@UnpackedFloat.unpackExponent Format.binary64 b).toNat :=
      BitVec.toNat_pos_of_ne_zero hexponent
    refine ⟨by rw [toNat_leadingOne]; omega, ?_, .inr (by rw [toNat_leadingOne]; omega)⟩
    change (-1074 : Int) ≤ _ - 1075
    omega

def repacked (u : UnpackedFloat) : UnpackedFloat :=
  UnpackedFloat.unpack Format.binary64 (UnpackedFloat.pack Format.binary64 u)

theorem repacked_zero (s : UnpackedFloat.Sign) : repacked (.zero s) = .zero s :=
  UnpackedFloat.unpack_packedZero

theorem repacked_infinity (s : UnpackedFloat.Sign) : repacked (.infinity s) = .infinity s := by
  simp [repacked, UnpackedFloat.pack, UnpackedFloat.unpack, UnpackedFloat.packedInfinity]

theorem repacked_unpacked (x : Float) : repacked (unpacked x) = unpacked x :=
  congrArg (UnpackedFloat.unpack Format.binary64) (UnpackedFloat.pack_unpack_of_valid x.toModel.valid)

/-- The number that a sign, an exponent and a mantissa stand for, which are its parts. -/
theorem unpack_packComponents (s : UnpackedFloat.Sign) {m e : Nat} (he : e < 2047) (hm : m < 2 ^ 52) :
    UnpackedFloat.unpack Format.binary64
        (UnpackedFloat.packComponents Format.binary64 s (BitVec.ofNat 11 e) (BitVec.ofNat 52 m)) =
      if e = 0 then if h : m = 0 then .zero s else .finite s m (-1074) (Nat.pos_of_ne_zero h)
      else .finite s (2 ^ 52 + m) (e - 1075) (Nat.add_pos_left (Nat.two_pow_pos 52) m) := by
  have hexponent : (BitVec.ofNat 11 e).toNat = e := Nat.mod_eq_of_lt (by omega)
  have hmantissa : (BitVec.ofNat 52 m).toNat = m := Nat.mod_eq_of_lt hm
  have hfinite : BitVec.ofNat 11 e ≠ -1#11 := by
    rw [Ne, ← BitVec.toNat_inj, hexponent]
    exact he.ne
  have hzero : BitVec.ofNat 11 e = 0#11 ↔ e = 0 := by
    rw [← BitVec.toNat_inj, hexponent]
    rfl
  have hzero' : BitVec.ofNat 52 m = 0#52 ↔ m = 0 := by
    rw [← BitVec.toNat_inj, hmantissa]
    rfl
  unfold UnpackedFloat.unpack
  simp only [UnpackedFloat.unpackExponent_packComponents, UnpackedFloat.unpackMantissa_packComponents,
    UnpackedFloat.unpackSign_packComponents, UnpackedFloat.Sign.ofBitVec_toBitVec, hexponent, hmantissa,
    if_neg hfinite, hzero, hzero']
  split
  · rename_i h
    subst h
    rfl
  · congr 1
    rw [toNat_leadingOne, hmantissa]

theorem biasedExponent_eq (e : Int) : (e + Format.exponentBias Format.binary64 +
    Format.mantissaBitsWithoutImplicit Format.binary64).toNat = (e + 1075).toNat := by
  rw [add_assoc]
  rfl

theorem repacked_overflow {s : UnpackedFloat.Sign} {m : Nat} {e : Int} {hm : 0 < m} (he : 972 ≤ e) :
    repacked (.finite s m e hm) = .infinity s := by
  rw [repacked, UnpackedFloat.pack]
  dsimp only
  rw [biasedExponent_eq, if_pos (by omega)]
  exact repacked_infinity s

theorem repacked_finite {s : UnpackedFloat.Sign} {m : Nat} {e : Int} {hm : 0 < m}
    (h : Canonical (.finite s m e hm)) (he : e < 972) :
    repacked (.finite s m e hm) = .finite s m e hm := by
  obtain ⟨hlt, hleast, hlow⟩ := h
  rw [repacked, UnpackedFloat.pack]
  dsimp only
  rw [biasedExponent_eq, if_neg (by omega)]
  split
  · -- the leading one is not stored
    rename_i hdigits
    have hlog : m.log2 = 52 := Nat.succ_injective hdigits
    have hone : 2 ^ 52 ≤ m := hlog ▸ Nat.log2_self_le hm.ne'
    have hclear : BitVec.ofNat 52 m = BitVec.ofNat 52 (m - 2 ^ 52) := by
      rw [← BitVec.toNat_inj, BitVec.toNat_ofNat, BitVec.toNat_ofNat]
      omega
    have hunpack := unpack_packComponents s (m := m - 2 ^ 52) (e := (e + 1075).toNat) (by omega) (by omega)
    rw [if_neg (by omega)] at hunpack
    rw [hclear, hunpack, UnpackedFloat.finite.injEq]
    exact ⟨rfl, by omega, by omega⟩
  · rename_i hdigits
    have hsmall : m < 2 ^ 52 := by
      by_contra hge
      have hlog : m.log2 = 52 := (Nat.log2_eq_iff hm.ne').2 ⟨not_lt.1 hge, hlt⟩
      exact hdigits (congrArg Nat.succ hlog)
    rw [unpack_packComponents s (e := 0) (by omega) hsmall, if_pos rfl, dif_neg hm.ne']
    congr 1
    omega

noncomputable def overflowed (x : ℝ) : EReal :=
  if beyond ≤ x then ⊤ else if x ≤ -beyond then ⊥ else x

theorem overflowed_mono {x y : ℝ} (h : x ≤ y) : overflowed x ≤ overflowed y := by
  have := beyond_pos
  unfold overflowed
  split_ifs <;> first | exact le_top | exact bot_le | exact_mod_cast h | linarith

theorem overflowed_zero : overflowed 0 = 0 := by
  have := beyond_pos
  rw [overflowed, if_neg (by linarith), if_neg (by linarith), EReal.coe_zero]

theorem finite_lt_beyond {m : Nat} {e : Int} (hm : m < 2 ^ 53) (he : e < 972) :
    (m : ℝ) * 2 ^ e < beyond := by
  have hm : (m : ℝ) < 2 ^ 53 := by exact_mod_cast hm
  calc (m : ℝ) * 2 ^ e < 2 ^ 53 * 2 ^ e := mul_lt_mul_of_pos_right hm (by positivity)
    _ ≤ 2 ^ 53 * 2 ^ (971 : Int) := by gcongr <;> [norm_num; omega]
    _ = beyond := by
      rw [beyond, ← zpow_natCast, ← zpow_add₀ two_ne_zero]
      rfl

theorem beyond_le {m : Nat} {e : Int} (hm : 2 ^ 52 ≤ m) (he : 972 ≤ e) : beyond ≤ (m : ℝ) * 2 ^ e := by
  have hm : (2 : ℝ) ^ 52 ≤ m := by exact_mod_cast hm
  calc beyond = 2 ^ 52 * 2 ^ (972 : Int) := by
        rw [beyond, ← zpow_natCast, ← zpow_add₀ two_ne_zero]
        rfl
    _ ≤ m * 2 ^ e := by gcongr; norm_num

theorem overflowed_finite {s : UnpackedFloat.Sign} {x : ℝ} (hx : 0 < x) (hlt : x < beyond) :
    overflowed (signedValue s x) = (signedValue s x : ℝ) := by
  cases s with
  | positive => rw [signedValue, overflowed, if_neg (by linarith), if_neg (by linarith)]
  | negative => rw [signedValue, overflowed, if_neg (by linarith), if_neg (by linarith)]

theorem overflowed_infinity {s : UnpackedFloat.Sign} {x : ℝ} (h : beyond ≤ x) :
    value? (.infinity s) = some (overflowed (signedValue s x)) := by
  have hpos := beyond_pos
  cases s with
  | positive =>
    rw [signedValue, overflowed, if_pos h]
    rfl
  | negative =>
    rw [signedValue, overflowed, if_neg (by linarith), if_pos (by linarith)]
    rfl

theorem value_repacked {u : UnpackedFloat} (hu : Canonical u) {x : ℝ} (hx : value? u = some (x : EReal)) :
    value? (repacked u) = some (overflowed x) := by
  rcases real_cases hx with ⟨s, rfl, rfl⟩ | ⟨s, m, e, hm, rfl, rfl⟩
  · rw [repacked_zero, overflowed_zero]
    rfl
  · have hvalue : (0 : ℝ) < m * 2 ^ e := by positivity
    rcases lt_or_ge e 972 with he | he
    · rw [repacked_finite hu he, overflowed_finite hvalue (finite_lt_beyond hu.1 he)]
      exact hx
    · rw [repacked_overflow he]
      exact overflowed_infinity (beyond_le (hu.2.2.resolve_left (by omega)) he)

/-- Numbers are ordered by the exponent, and within an exponent by the mantissa. -/
theorem compare_magnitudes {s t : UnpackedFloat.Sign} {m n : Nat} {e f : Int} {hm : 0 < m} {hn : 0 < n}
    (h : Canonical (.finite s m e hm)) (h' : Canonical (.finite t n f hn)) :
    (compare e f).then (compare m n) = compare ((m : ℝ) * 2 ^ e) (n * 2 ^ f) := by
  have hless {m n : Nat} {e f : Int} (hm : m < 2 ^ 53) (hn : 2 ^ 52 ≤ n) (hlt : e < f) :
      (m : ℝ) * 2 ^ e < n * 2 ^ f := by
    have hm : (m : ℝ) < 2 ^ 53 := by exact_mod_cast hm
    have hn : (2 : ℝ) ^ 52 ≤ n := by exact_mod_cast hn
    calc (m : ℝ) * 2 ^ e < 2 ^ 53 * 2 ^ e := mul_lt_mul_of_pos_right hm (by positivity)
      _ = 2 ^ 52 * 2 ^ (e + 1) := by rw [zpow_add_one₀ two_ne_zero]; ring
      _ ≤ n * 2 ^ f := by gcongr <;> [norm_num; omega]
  obtain ⟨hmlt, hme, hmlow⟩ := h
  obtain ⟨hnlt, hne, hnlow⟩ := h'
  rcases lt_trichotomy e f with hlt | rfl | hlt
  · rw [compare_lt_iff_lt.2 hlt, compare_lt_iff_lt.2 (hless hmlt (hnlow.resolve_left (by omega)) hlt)]
    rfl
  · have hpos : (0 : ℝ) < 2 ^ e := by positivity
    have hmono : StrictMono fun k : Nat => (k : ℝ) * 2 ^ e := fun a b hab =>
      mul_lt_mul_of_pos_right (by exact_mod_cast hab) hpos
    rw [compare_eq_iff_eq.2 rfl, ← cmp_eq_compare, ← cmp_eq_compare]
    exact (hmono.cmp_map_eq m n).symm
  · rw [compare_gt_iff_gt.2 hlt, compare_gt_iff_gt.2 (hless hnlt (hmlow.resolve_left (by omega)) hlt)]
    rfl

theorem compare_coe (x y : ℝ) : compare (x : EReal) y = compare x y := by
  rw [← cmp_eq_compare, ← cmp_eq_compare]
  exact EReal.coe_strictMono.cmp_map_eq x y

theorem compare_neg (x y : ℝ) : compare (-x) (-y) = (compare x y).swap := by
  rw [← cmp_eq_compare, ← cmp_eq_compare, cmp_swap]
  exact StrictAnti.cmp_map_eq (fun _ _ => neg_lt_neg) x y

theorem compare_eq {u w : UnpackedFloat} (hu : Canonical u) (hw : Canonical w) {v t : EReal}
    (hv : value? u = some v) (ht : value? w = some t) : u.compare w = some (compare v t) := by
  have hless {v t : EReal} (h : v < t) : some Ordering.lt = some (compare v t) :=
    congrArg some (compare_lt_iff_lt.2 h).symm
  have hgreater {v t : EReal} (h : t < v) : some Ordering.gt = some (compare v t) :=
    congrArg some (compare_gt_iff_gt.2 h).symm
  have hsame (v : EReal) : some Ordering.eq = some (compare v v) :=
    congrArg some (compare_eq_iff_eq.2 rfl).symm
  have hpos {m : Nat} (e : Int) (hm : 0 < m) : (0 : ℝ) < m * 2 ^ e := by positivity
  have hneg {m : Nat} (e : Int) (hm : 0 < m) : -((m : ℝ) * 2 ^ e) < 0 := neg_neg_of_pos (hpos e hm)
  cases u with
  | notANumber => cases hv
  | infinity s =>
    cases w with
    | notANumber => cases ht
    | infinity s' =>
      cases s <;> cases s' <;> cases hv <;> cases ht
      · exact hsame _
      · exact hless bot_lt_top
      · exact hgreater bot_lt_top
      · exact hsame _
    | zero s' =>
      cases ht
      cases s <;> cases hv
      · exact hless EReal.bot_lt_zero
      · exact hgreater EReal.zero_lt_top
    | finite s' n f hn =>
      cases ht
      cases s <;> cases hv
      · exact hless (EReal.bot_lt_coe _)
      · exact hgreater (EReal.coe_lt_top _)
  | zero s =>
    cases hv
    cases w with
    | notANumber => cases ht
    | infinity s' =>
      cases s' <;> cases ht
      · exact hgreater EReal.bot_lt_zero
      · exact hless EReal.zero_lt_top
    | zero s' =>
      cases ht
      exact hsame 0
    | finite s' n f hn =>
      cases ht
      cases s'
      · exact hgreater (EReal.coe_lt_coe_iff.2 (hneg f hn))
      · exact hless (EReal.coe_lt_coe_iff.2 (hpos f hn))
  | finite s m e hm =>
    cases hv
    cases w with
    | notANumber => cases ht
    | infinity s' =>
      cases s' <;> cases ht
      · cases s <;> exact hgreater (EReal.bot_lt_coe _)
      · cases s <;> exact hless (EReal.coe_lt_top _)
    | zero s' =>
      cases ht
      cases s
      · exact hless (EReal.coe_lt_coe_iff.2 (hneg e hm))
      · exact hgreater (EReal.coe_lt_coe_iff.2 (hpos e hm))
    | finite s' n f hn =>
      cases ht
      have hmagnitudes := compare_magnitudes hu hw
      rw [compare_coe]
      cases s <;> cases s'
      · rw [signedValue, signedValue, compare_neg, ← hmagnitudes]
        rfl
      · rw [← compare_coe]
        exact hless (EReal.coe_lt_coe_iff.2 ((hneg e hm).trans (hpos f hn)))
      · rw [← compare_coe]
        exact hgreater (EReal.coe_lt_coe_iff.2 ((hneg f hn).trans (hpos e hm)))
      · rw [signedValue, signedValue, ← hmagnitudes]
        rfl

noncomputable def valueOf (x : Float) : Option EReal := value? (unpacked x)

theorem canonical_unpacked (x : Float) : Canonical (unpacked x) := canonical_unpack _

theorem value_eq_none {u : UnpackedFloat} (h : value? u = none) : u = .notANumber := by
  cases u with
  | notANumber => rfl
  | infinity s => cases s <;> cases h
  | zero s => cases h
  | finite s m e hm => cases h

theorem compare_value (x y : Float) : (unpacked x).compare (unpacked y) =
    (valueOf x).bind fun v => (valueOf y).map fun w => compare v w := by
  cases hx : valueOf x with
  | none => rw [value_eq_none hx]; rfl
  | some v =>
    cases hy : valueOf y with
    | none => rw [value_eq_none hy]; cases unpacked x <;> rfl
    | some w => exact compare_eq (canonical_unpacked x) (canonical_unpacked y) hx hy

theorem le_iff_value {x y : Float} :
    Scalar.le x y = true ↔ ∃ v w, valueOf x = some v ∧ valueOf y = some w ∧ v ≤ w := by
  change decide (x ≤ y) = true ↔ _
  rw [decide_eq_true_iff, le_iff_unpacked]
  change (((unpacked x).compare (unpacked y)).any (·.isLE)) = true ↔ _
  rw [compare_value]
  cases valueOf x <;> cases valueOf y <;> simp [compare_le_iff_le, Ordering.isLE_iff_ne_gt]

theorem lt_iff_value {x y : Float} :
    Scalar.lt x y = true ↔ ∃ v w, valueOf x = some v ∧ valueOf y = some w ∧ v < w := by
  change decide (x < y) = true ↔ _
  rw [decide_eq_true_iff, lt_iff_unpacked]
  change (unpacked x).compare (unpacked y) == some .lt ↔ _
  rw [compare_value]
  cases valueOf x <;> cases valueOf y <;> simp [compare_lt_iff_lt]

theorem eq_iff_value {x y : Float} :
    Scalar.eq x y = true ↔ ∃ v, valueOf x = some v ∧ valueOf y = some v := by
  change (unpacked x).compare (unpacked y) == some .eq ↔ _
  rw [compare_value]
  cases valueOf x with
  | none => simp
  | some v =>
    cases valueOf y with
    | none => simp
    | some w => simp [eq_comm (a := v)]

end AdditiveModel.Real.Binary64
