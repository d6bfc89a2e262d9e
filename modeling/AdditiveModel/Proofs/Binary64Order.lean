import AdditiveModel.Proofs.Binary64Values
import AdditiveModel.Proofs.OrderedScalar

/-! The order of binary64 numbers. The product with a positive number and the sum with a finite one are
rounded from the exact results, so they keep the order. -/

namespace AdditiveModel.Real.Binary64

open Float.Model

/-- A real number is rounded to a nearest number, which becomes an infinity where it is too great. -/
inductive Rounded : EReal → EReal → Prop
  | below : Rounded ⊥ ⊥
  | above : Rounded ⊤ ⊤
  | nearest {v g : ℝ} (h : Nearest v g) : Rounded v (overflowed g)

theorem Rounded.mono {v w r t : EReal} (hr : Rounded v r) (ht : Rounded w t) (hlt : v < w) : r ≤ t := by
  cases hr with
  | below => exact bot_le
  | above => exact absurd hlt not_top_lt
  | nearest hg =>
    cases ht with
    | below => exact absurd hlt not_lt_bot
    | above => exact le_top
    | nearest hh => exact overflowed_mono (hg.mono hh (EReal.coe_lt_coe_iff.1 hlt))

theorem RoundedTo.rounded {u : UnpackedFloat} {v : ℝ} (h : RoundedTo v u) :
    ∃ r, value? (repacked u) = some r ∧ Rounded v r := by
  obtain ⟨hcanonical, g, hg, hnearest⟩ := h
  exact ⟨_, value_repacked hcanonical hg, .nearest hnearest⟩

theorem valueOf_mul (x y : Float) :
    valueOf (x * y) = value? (repacked (UnpackedFloat.mul Format.binary64 (unpacked x) (unpacked y))) := rfl

theorem valueOf_add (x y : Float) :
    valueOf (x + y) = value? (repacked (UnpackedFloat.add Format.binary64 (unpacked x) (unpacked y))) := rfl

theorem valueOf_div (x y : Float) :
    valueOf (x / y) = value? (repacked (UnpackedFloat.div Format.binary64 (unpacked x) (unpacked y))) := rfl

theorem eq_finite_of_pos {u : UnpackedFloat} {a : ℝ} (hu : value? u = some (a : EReal)) (ha : 0 < a) :
    ∃ m e h, u = .finite .positive m e h ∧ a = m * 2 ^ e := by
  rcases real_cases hu with ⟨s, rfl, rfl⟩ | ⟨s, m, e, hm, rfl, rfl⟩
  · exact absurd ha (lt_irrefl 0)
  · cases s with
    | positive => exact ⟨m, e, hm, rfl, rfl⟩
    | negative =>
      have hpos : (0 : ℝ) < m * 2 ^ e := by positivity
      exact absurd ha (not_lt.2 (neg_neg_of_pos hpos).le)

/-- The product with a positive number is the rounded product of the values. -/
theorem rounded_mul {x y : Float} {v : EReal} {a : ℝ} (hx : valueOf x = some v)
    (hy : valueOf y = some (a : EReal)) (ha : 0 < a) : ∃ r, valueOf (x * y) = some r ∧ Rounded (v * a) r := by
  obtain ⟨n, f, hn, hunpacked, rfl⟩ := eq_finite_of_pos hy ha
  have hcanonical := canonical_unpacked x
  have hcanonical' := canonical_unpacked y
  rw [valueOf_mul, hunpacked]
  rw [hunpacked] at hcanonical'
  rw [valueOf] at hx
  cases hux : unpacked x with
  | notANumber =>
    rw [hux] at hx
    cases hx
  | infinity s =>
    rw [hux] at hx
    have hsign : s * .positive = s := by cases s <;> rfl
    rw [UnpackedFloat.mul, hsign, repacked_infinity]
    cases s <;> cases hx
    · rw [EReal.bot_mul_coe_of_pos ha]
      exact ⟨_, rfl, .below⟩
    · rw [EReal.top_mul_coe_of_pos ha]
      exact ⟨_, rfl, .above⟩
  | zero s =>
    rw [hux] at hx
    cases hx
    rw [zero_mul]
    exact (roundedTo_zero _).rounded
  | finite s m e hm =>
    rw [hux] at hx hcanonical
    cases hx
    rw [← EReal.coe_mul]
    exact (roundedTo_mul hcanonical hcanonical').rounded

theorem rounded_add {x y : Float} {v : EReal} {b : ℝ} (hx : valueOf x = some v)
    (hy : valueOf y = some (b : EReal)) : ∃ r, valueOf (x + y) = some r ∧ Rounded (v + b) r := by
  have hcanonical := canonical_unpacked x
  have hcanonical' := canonical_unpacked y
  rw [valueOf_add]
  rw [valueOf] at hx hy
  cases hux : unpacked x with
  | notANumber =>
    rw [hux] at hx
    cases hx
  | infinity s =>
    rw [hux] at hx
    have hsum : UnpackedFloat.add Format.binary64 (.infinity s) (unpacked y) = .infinity s := by
      rcases real_cases hy with ⟨t, hyt, -⟩ | ⟨t, n, f, hn, hyt, -⟩ <;> rw [hyt] <;> rfl
    rw [hsum, repacked_infinity]
    cases s <;> cases hx
    · rw [EReal.bot_add]
      exact ⟨_, rfl, .below⟩
    · rw [EReal.top_add_coe]
      exact ⟨_, rfl, .above⟩
  | zero s =>
    rw [hux] at hx
    cases hx
    rw [zero_add]
    refine RoundedTo.rounded ?_
    rcases real_cases hy with ⟨t, hyt, rfl⟩ | ⟨t, n, f, hn, hyt, -⟩
    · rw [hyt, UnpackedFloat.add]
      split <;> exact roundedTo_zero _
    · rw [hyt] at hy hcanonical' ⊢
      exact roundedTo_self hcanonical' hy
  | finite s m e hm =>
    rw [hux] at hx hcanonical
    cases hx
    rw [← EReal.coe_add]
    refine RoundedTo.rounded ?_
    rcases real_cases hy with ⟨t, hyt, rfl⟩ | ⟨t, n, f, hn, hyt, rfl⟩
    · rw [hyt, add_zero]
      exact roundedTo_self hcanonical rfl
    · rw [hyt]
      exact roundedTo_add s t e f hm hn

theorem eq_of_eq_value {x y : Float} {v : EReal} (hx : valueOf x = some v) (hy : valueOf y = some v) :
    x = y ∨ (x = 0 ∧ y = -0) ∨ (x = -0 ∧ y = 0) :=
  (eq_cases (eq_iff_value.2 ⟨v, hx, hy⟩)).2

theorem value_zero : valueOf 0 = some 0 ∧ valueOf (-0) = some 0 := ⟨rfl, rfl⟩

/-- An operation that rounds a growing function and does not tell the two zeros apart keeps the order. -/
theorem le_of_rounded {f : Float → Float} {φ : EReal → EReal} {c : EReal} {x y : Float} (hφ : StrictMono φ)
    (hf : ∀ {x v}, valueOf x = some v → ∃ r, valueOf (f x) = some r ∧ Rounded (φ v) r)
    (hzero : ∀ {x}, valueOf x = some 0 → valueOf (f x) = some c) (h : Scalar.le x y = true) :
    Scalar.le (f x) (f y) = true := by
  obtain ⟨v, w, hx, hy, hle⟩ := le_iff_value.1 h
  obtain ⟨r, hr, hround⟩ := hf hx
  obtain ⟨t, ht, hround'⟩ := hf hy
  refine le_iff_value.2 ⟨r, t, hr, ht, ?_⟩
  rcases hle.lt_or_eq with hlt | rfl
  · exact hround.mono hround' (hφ hlt)
  -- one value may be rounded in two ways, but it has one number, or the two zeros
  obtain rfl | hzeros := eq_of_eq_value hx hy
  · exact (Option.some.inj (hr.symm.trans ht)).le
  · have hboth : valueOf x = some 0 ∧ valueOf y = some 0 := by
      obtain ⟨rfl, rfl⟩ | ⟨rfl, rfl⟩ := hzeros
      · exact value_zero
      · exact value_zero.symm
    have hsame := (hzero hboth.1).trans (hzero hboth.2).symm
    rw [hr, ht] at hsame
    exact (Option.some.inj hsame).le

theorem eq_zero_of_value {x : Float} (h : valueOf x = some 0) : ∃ s, unpacked x = .zero s := by
  rcases real_cases (x := 0) h with ⟨s, hs, -⟩ | ⟨s, m, e, hm, -, hvalue⟩
  · exact ⟨s, hs⟩
  · have hpos : (0 : ℝ) < m * 2 ^ e := by positivity
    cases s with
    | positive => exact absurd hvalue hpos.ne
    | negative => exact absurd hvalue (neg_neg_of_pos hpos).ne'

theorem value_zero_mul {x y : Float} {b : ℝ} (hx : valueOf x = some 0) (hy : valueOf y = some (b : EReal)) :
    valueOf (x * y) = some 0 := by
  obtain ⟨s, hs⟩ := eq_zero_of_value hx
  rw [valueOf_mul, hs]
  rcases real_cases hy with ⟨t, hyt, -⟩ | ⟨t, n, f, hn, hyt, -⟩ <;>
    rw [hyt, UnpackedFloat.mul, repacked_zero] <;> rfl

theorem value_zero_div {x y : Float} (hx : valueOf x = some 0) (hy : Scalar.lt Scalar.zero y = true) :
    valueOf (x / y) = some 0 := by
  obtain ⟨s, hs⟩ := eq_zero_of_value hx
  obtain ⟨z, v, hz, hv, hpos⟩ := lt_iff_value.1 hy
  obtain rfl := Option.some.inj (value_zero.1.symm.trans hz)
  rw [valueOf_div, hs]
  rw [valueOf] at hv
  cases hy : unpacked y with
  | notANumber =>
    rw [hy] at hv
    cases hv
  | zero t =>
    rw [hy] at hv
    obtain rfl := Option.some.inj hv
    exact absurd hpos (lt_irrefl _)
  | infinity t | finite t n f hn =>
    rw [UnpackedFloat.div, repacked_zero]
    rfl

theorem value_zero_add {x y : Float} {b : ℝ} (hx : valueOf x = some 0) (hy : valueOf y = some (b : EReal)) :
    valueOf (x + y) = some (b : EReal) := by
  obtain ⟨s, hs⟩ := eq_zero_of_value hx
  rw [valueOf_add, hs]
  rcases real_cases hy with ⟨t, hyt, rfl⟩ | ⟨t, n, f, hn, hyt, -⟩
  · rw [hyt, UnpackedFloat.add]
    split <;> rw [repacked_zero] <;> rfl
  · have hsum : UnpackedFloat.add Format.binary64 (.zero s) (unpacked y) = unpacked y := by rw [hyt]; rfl
    rw [hsum, repacked_unpacked]
    exact hy

theorem strictMono_mul_coe {a : ℝ} (ha : 0 < a) : StrictMono fun v : EReal => v * (a : EReal) := by
  have hdiv := EReal.strictMono_div_right_of_pos (EReal.coe_pos.2 (inv_pos.2 ha)) (EReal.coe_ne_top a⁻¹)
  simpa only [div_eq_mul_inv, ← EReal.coe_inv, inv_inv] using hdiv

theorem strictMono_add_coe (b : ℝ) : StrictMono fun v : EReal => v + (b : EReal) := fun _ _ hlt =>
  EReal.add_lt_add_right_coe hlt b

theorem real_of_isFinite {x : Float} (h : Scalar.isFinite x = true) :
    ∃ a : ℝ, valueOf x = some (a : EReal) := by
  obtain ⟨m, hm⟩ := Option.isSome_iff_exists.1 h
  obtain ⟨d, hd, -⟩ := floor_dyadic hm
  rw [valueOf]
  obtain ⟨-, s, hs⟩ | ⟨hpos, hs⟩ := unpacked_of_decode hd
  · exact ⟨0, by rw [hs]; rfl⟩
  · exact ⟨_, by rw [hs]; rfl⟩

theorem zero_lt_of_hasSign {x : Float} (hsign : HasSign .positive (unpacked x))
    (hfinite : Scalar.isFinite x = true) (hzero : valueOf x ≠ some 0) : Scalar.lt Scalar.zero x = true := by
  obtain ⟨a, ha⟩ := real_of_isFinite hfinite
  refine lt_iff_value.2 ⟨0, a, value_zero.1, ha, ?_⟩
  rcases real_cases ha with ⟨s, -, rfl⟩ | ⟨s, m, e, hm, hx, rfl⟩
  · exact absurd ha hzero
  · rw [hx] at hsign
    obtain rfl : s = .positive := hsign
    have hpos : (0 : ℝ) < m * 2 ^ e := by positivity
    exact EReal.coe_pos.2 hpos

theorem zero_lt_of_intLt {x : Float} (h : Number.intLt 0 x = true) : Scalar.lt Scalar.zero x = true := by
  have hsign := hasSign_of_not_signed (signed_eq_false_iff.1 (SignRules.not_signed_of_intLt h))
  cases hfloor : Scalar.floor? x with
  | none => rwa [Number.intLt, hfloor] at h
  | some m =>
    refine zero_lt_of_hasSign hsign (congrArg Option.isSome hfloor) fun hzero => ?_
    have hnot : Number.intLt 0 (0 : Float) = false ∧ Number.intLt 0 (-0 : Float) = false := by
      decide +kernel
    obtain rfl | ⟨rfl, -⟩ | ⟨rfl, -⟩ := eq_of_eq_value hzero value_zero.1
    · rw [hnot.1] at h; cases h
    · rw [hnot.1] at h; cases h
    · rw [hnot.2] at h; cases h

theorem zero_lt_ofBits {k : Nat} (hpos : 0 < k) (hlt : k < 2047 * 2 ^ 52) :
    Scalar.lt Scalar.zero (Float.ofBits (UInt64.ofNat k)) = true := by
  have hbits := toNat_toBits_ofBits hlt
  generalize Float.ofBits (UInt64.ofNat k) = x at hbits
  subst hbits
  obtain ⟨m, hm, hx, -⟩ := unpack_positive (b := x.toBits.toBitVec) hpos hlt
  refine lt_iff_value.2 ⟨0, _, value_zero.1, congrArg value? hx, EReal.coe_pos.2 ?_⟩
  rw [signedValue]
  positivity

theorem zero_lt_ofInt {n : Int} (hn : 0 < n) : Scalar.lt Scalar.zero (Scalar.ofInt n : Float) = true := by
  change Scalar.lt Scalar.zero (ofInt n) = true
  rw [ofInt_eq hn.le]
  obtain hinfinite | ⟨k, hk, hpos, hlt⟩ := ofRatioNat_cases (n := n.natAbs) (by omega)
  · rw [hinfinite]
    decide +kernel
  · rw [hk]
    exact zero_lt_ofBits hpos hlt

instance : OrderedScalar Float where
  le_trans {x y z} h h' := by
    obtain ⟨v, w, hx, hy, hle⟩ := le_iff_value.1 h
    obtain ⟨w', t, hy', hz, hle'⟩ := le_iff_value.1 h'
    obtain rfl := Option.some.inj (hy.symm.trans hy')
    exact le_iff_value.2 ⟨v, t, hx, hz, hle.trans hle'⟩
  eq_iff {x y} := by
    rw [eq_iff_value, le_iff_value, le_iff_value]
    constructor
    · rintro ⟨v, hx, hy⟩
      exact ⟨⟨v, v, hx, hy, le_rfl⟩, v, v, hy, hx, le_rfl⟩
    · rintro ⟨⟨v, w, hx, hy, hle⟩, w', v', hy', hx', hge⟩
      obtain rfl := Option.some.inj (hx.symm.trans hx')
      obtain rfl := Option.some.inj (hy.symm.trans hy')
      exact ⟨v, hx, hle.antisymm hge ▸ hy⟩
  lt_iff {x y} := by
    rw [lt_iff_value, ← Bool.not_eq_true, le_iff_value, le_iff_value]
    constructor
    · rintro ⟨v, w, hx, hy, hlt⟩
      refine ⟨⟨v, w, hx, hy, hlt.le⟩, ?_⟩
      rintro ⟨w', v', hy', hx', hge⟩
      obtain rfl := Option.some.inj (hx.symm.trans hx')
      obtain rfl := Option.some.inj (hy.symm.trans hy')
      exact absurd hge (not_le.2 hlt)
    · rintro ⟨⟨v, w, hx, hy, -⟩, hnot⟩
      exact ⟨v, w, hx, hy, not_le.1 fun hge => hnot ⟨w, v, hy, hx, hge⟩⟩
  le_self {x y} h := by
    obtain ⟨v, -, hx, -⟩ := le_iff_value.1 h
    exact le_iff_value.2 ⟨v, v, hx, hx, le_rfl⟩
  le_refl {x} h := by
    obtain ⟨a, ha⟩ := real_of_isFinite h
    exact le_iff_value.2 ⟨a, a, ha, ha, le_rfl⟩
  isNaN_eq {x} h := by
    obtain ⟨a, ha⟩ := real_of_isFinite h
    change (unpacked x).isNaN = false
    rcases real_cases ha with ⟨s, hs, -⟩ | ⟨s, m, e, hm, hs, -⟩ <;> rw [hs] <;> rfl
  le_infinity {x} h := by
    obtain ⟨v, -, hx, -⟩ := le_iff_value.1 h
    exact ⟨le_iff_value.2 ⟨⊥, v, rfl, hx, bot_le⟩, le_iff_value.2 ⟨v, ⊤, hx, rfl, le_top⟩⟩
  infinity_refl := by decide +kernel
  mul_add_le {x y s l} h hs hs' hl := by
    obtain ⟨a, ha⟩ := real_of_isFinite hs'
    obtain ⟨b, hb⟩ := real_of_isFinite hl
    obtain ⟨z, a', hz, ha', hpos⟩ := lt_iff_value.1 hs
    obtain rfl := Option.some.inj (ha.symm.trans ha')
    obtain rfl := Option.some.inj (value_zero.1.symm.trans hz)
    have hpos := EReal.coe_pos.1 hpos
    have hproducts : Scalar.le (x * s) (y * s) = true :=
      le_of_rounded (f := (· * s)) (strictMono_mul_coe hpos) (fun hx => rounded_mul hx ha hpos)
        (fun hx => value_zero_mul hx ha) h
    exact le_of_rounded (f := (· + l)) (strictMono_add_coe b) (fun hx => rounded_add hx hb)
      (fun hx => value_zero_add hx hb) hproducts
  mul_add_eq {x s l} h hs hs' hl := by
    obtain ⟨a, ha⟩ := real_of_isFinite hs'
    obtain ⟨b, hb⟩ := real_of_isFinite hl
    obtain ⟨v, hx, hzero⟩ := eq_iff_value.1 h
    obtain rfl := Option.some.inj (value_zero.1.symm.trans hzero)
    exact eq_iff_value.2 ⟨b, value_zero_add (value_zero_mul hx ha) hb, hb⟩
  half_between := by decide +kernel
  half_eq := by decide +kernel
  div_not_pos {x y} h hy := by
    obtain ⟨v, hx, hzero⟩ := eq_iff_value.1 h
    obtain rfl := Option.some.inj (value_zero.1.symm.trans hzero)
    rw [← Bool.not_eq_true, lt_iff_value]
    rintro ⟨z, t, hz, ht, hpos⟩
    obtain rfl := Option.some.inj (value_zero.1.symm.trans hz)
    obtain rfl := Option.some.inj ((value_zero_div hx hy).symm.trans ht)
    exact lt_irrefl _ hpos
  pos_of_intLt := zero_lt_of_intLt
  pos_ofInt := zero_lt_ofInt

end AdditiveModel.Real.Binary64
