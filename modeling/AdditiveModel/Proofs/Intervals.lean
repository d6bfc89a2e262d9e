import AdditiveModel.Proofs.Binary64Decimals
import AdditiveModel.Proofs.Blocks
import AdditiveModel.Proofs.SixDigits
import AdditiveModel.Summary.Table

/-! The columns of a summary. A column of a quantile has its probability for a name, in six significant
digits, so the two bounds of an interval share a column when they agree in these digits; bounds that are
further apart than the sixth place behind the point never do. -/

namespace AdditiveModel

namespace Real.Binary64

open Float.Model Digits Text.Numeral

theorem decode_one : decode? Scalar.one = some ⟨false, 2 ^ 52, -52⟩ := by
  have hone : (Scalar.one : Float).toBits.toNat = oneBits := by decide +kernel
  rw [decode_eq, hone]
  rfl

theorem unpacked_one : ∃ h, unpacked Scalar.one = .finite .positive (2 ^ 52) (-52) h := by
  obtain ⟨hzero, -⟩ | hfinite := unpacked_of_decode decode_one
  · cases hzero
  · exact hfinite

/-- The exact value of a finite number. -/
def exact (x : Float) : ℚ :=
  match decode? x with
  | some d => (if d.negative then -1 else 1) * ((d.ratio.1 : ℚ) / d.ratio.2)
  | none => 0

/-- The value of a finite number in six significant digits. -/
def sixDigits (x : Float) : ℚ :=
  match decode? x with
  | some d =>
    if d.mantissa = 0 then 0 else (if d.negative then -1 else 1) * rounded d.ratio.1 d.ratio.2 6
  | none => 0

def briefDigits (n k : Nat) : List Char :=
  let (q, p) := leading n k 6
  let ds := dropTrailingZeros (Digits.text q)
  if -4 ≤ p ∧ p < 6 then positional ds p else pointed ds ++ exponentText p

theorem brief_eq {x : Float} {d : Dyadic} (hd : decode? x = some d) : brief x = String.ofList
    (if d.negative then '-' :: (if d.mantissa = 0 then ['0'] else briefDigits d.ratio.1 d.ratio.2)
      else if d.mantissa = 0 then ['0'] else briefDigits d.ratio.1 d.ratio.2) := by
  rw [brief, hd]
  rfl

theorem reads_briefDigits {n k : Nat} (hn : 0 < n) (hk : 0 < k) : Reads (briefDigits n k) (rounded n k 6) := by
  obtain ⟨q, p, hleading, hlow, hlt, -⟩ := leading_spec hn hk (by decide : 0 < 6)
  obtain ⟨hpositional, hscientific⟩ := reads_digits (by decide) hlow hlt p
  rw [rounded, briefDigits, hleading]
  dsimp only
  split
  · exact hpositional
  · exact hscientific

/-- A positive number up to one, its exact value and its digits. -/
structure Fraction (x : Float) (n k : Nat) : Prop where
  pos : 0 < n
  le : n ≤ k
  unpacked : ∃ m e h, unpacked x = .finite .positive m e h
  exact : exact x = n / k
  sixDigits : sixDigits x = rounded n k 6
  brief : brief x = String.ofList (briefDigits n k)

structure IsZero (x : Float) : Prop where
  unpacked : ∃ s, unpacked x = .zero s
  exact : exact x = 0
  sixDigits : sixDigits x = 0
  brief : brief x = String.ofList ['0'] ∨ brief x = String.ofList ['-', '0']

theorem isZero_of_decode {x : Float} {d : Dyadic} (hd : decode? x = some d) (h : d.mantissa = 0)
    (hunpacked : ∃ s, unpacked x = .zero s) : IsZero x where
  unpacked := hunpacked
  exact := by
    have hnum : d.ratio.1 = 0 := by
      unfold Dyadic.ratio
      split <;> simp [h]
    simp [exact, hd, hnum]
  sixDigits := by simp [sixDigits, hd, h]
  brief := by
    rw [brief_eq hd, if_pos h]
    split
    · exact .inr rfl
    · exact .inl rfl

theorem mantissa_lt {x : Float} {d : Dyadic} (hd : decode? x = some d) : d.mantissa < 2 ^ 53 := by
  have hlt : x.toBits.toNat % 2 ^ 52 < 2 ^ 52 := Nat.mod_lt _ (by decide)
  rw [decode_eq] at hd
  split at hd
  · cases hd
  split at hd <;> cases hd <;> dsimp only <;> omega

theorem fraction_of_decode {x : Float} {d : Dyadic} (hd : decode? x = some d) (hpos : 0 < d.mantissa)
    (hnegative : d.negative = false) (hunpacked : unpacked x = .finite .positive d.mantissa d.exponent hpos)
    (hone : Scalar.le x Scalar.one = true) : Fraction x d.ratio.1 d.ratio.2 where
  pos := (ratio_pos d).2 hpos
  le := by
    obtain ⟨h, hunit⟩ := unpacked_one
    have hle : (unpacked x).le (unpacked Scalar.one) = true :=
      (le_iff_unpacked x Scalar.one).1 (of_decide_eq_true hone)
    have hlt := mantissa_lt hd
    rw [hunpacked, hunit] at hle
    simp only [UnpackedFloat.le, UnpackedFloat.compare, Option.any_some, Ordering.isLE_then_iff_or,
      Int.compare_eq_lt, Int.compare_eq_eq, Nat.isLE_compare] at hle
    rw [Dyadic.ratio, if_pos (by omega)]
    dsimp only
    rcases hle with hless | ⟨heq, hle⟩
    · exact hlt.le.trans (Nat.pow_le_pow_right (by decide) (by omega))
    · rwa [heq]
  unpacked := ⟨_, _, _, hunpacked⟩
  exact := by simp [exact, hd, hnegative]
  sixDigits := by simp [sixDigits, hd, hnegative, hpos.ne']
  brief := by
    rw [brief_eq hd, if_neg hpos.ne', hnegative]
    rfl

theorem probability_cases {x : Float} (h : Summary.isProbability x = true) :
    IsZero x ∨ ∃ n k, Fraction x n k := by
  obtain ⟨hzero, hone⟩ := Bool.and_eq_true_iff.1 h
  have hle : (unpacked 0).le (unpacked x) = true := (le_iff_unpacked 0 x).1 (of_decide_eq_true hzero)
  have hle' : (unpacked x).le (unpacked Scalar.one) = true :=
    (le_iff_unpacked x Scalar.one).1 (of_decide_eq_true hone)
  obtain ⟨hunit, hone_eq⟩ := unpacked_one
  rw [unpacked_zero] at hle
  rw [hone_eq] at hle'
  cases hd : decode? x with
  | none =>
    obtain ⟨s, hs⟩ | hnan := unpacked_of_decode_none hd
    · rw [hs] at hle hle'
      cases s with
      | positive => cases hle'
      | negative => cases hle
    · rw [hnan] at hle'
      cases hle'
  | some d =>
    obtain ⟨hmantissa, hs⟩ | ⟨hpos, hfinite⟩ := unpacked_of_decode hd
    · exact .inl (isZero_of_decode hd hmantissa hs)
    · right
      cases hnegative : d.negative with
      | true =>
        rw [hfinite, hnegative] at hle
        cases hle
      | false =>
        rw [hnegative] at hfinite
        exact ⟨_, _, fraction_of_decode hd hpos hnegative hfinite hone⟩

/-- Six digits are at most half a unit of the sixth place behind the point away from a probability. -/
theorem abs_sixDigits_sub_le {x : Float} (h : Summary.isProbability x = true) :
    |sixDigits x - exact x| ≤ 1 / (2 * 10 ^ 6) := by
  obtain hx | ⟨n, k, hx⟩ := probability_cases h
  · rw [hx.sixDigits, hx.exact, sub_self, abs_zero]
    positivity
  · rw [hx.sixDigits, hx.exact]
    exact abs_rounded_sub_le hx.pos hx.le (by decide)

theorem IsZero.brief_ne {x : Float} (hx : IsZero x) {n k : Nat} (hn : 0 < n) (hk : 0 < k) :
    Binary64.brief x ≠ String.ofList (briefDigits n k) := by
  intro heq
  have hread := reads_briefDigits hn hk
  have hpos := rounded_pos hn hk (by decide : 0 < 6)
  rcases hx.brief with h | h
  · rw [h, String.ofList_inj] at heq
    rw [← heq] at hread
    have hzero : Reads ['0'] 0 := ⟨0, 0, rfl, by simp⟩
    exact hpos.ne (hzero.unique hread)
  · rw [h, String.ofList_inj] at heq
    rw [← heq] at hread
    obtain ⟨m, e, hnone, -⟩ := hread
    cases hnone

theorem brief_eq_iff {x y : Float} (hx : Summary.isProbability x = true)
    (hy : Summary.isProbability y = true) (hlt : Scalar.lt x y = true) :
    brief x = brief y ↔ sixDigits x = sixDigits y := by
  have hlt : (unpacked x).lt (unpacked y) = true := (lt_iff_unpacked x y).1 (of_decide_eq_true hlt)
  obtain hx | ⟨n, k, hx⟩ := probability_cases hx
  · obtain ⟨s, hs⟩ := hx.unpacked
    obtain hy | ⟨n, k, hy⟩ := probability_cases hy
    · obtain ⟨s', hs'⟩ := hy.unpacked
      rw [hs, hs'] at hlt
      cases hlt
    · have hk : 0 < k := hy.pos.trans_le hy.le
      rw [hx.sixDigits, hy.sixDigits, hy.brief]
      exact iff_of_false (hx.brief_ne hy.pos hk) (rounded_pos hy.pos hk (by decide)).ne
  · have hk : 0 < k := hx.pos.trans_le hx.le
    obtain ⟨m, e, h, hunpacked⟩ := hx.unpacked
    obtain hy | ⟨n', k', hy⟩ := probability_cases hy
    · obtain ⟨s', hs'⟩ := hy.unpacked
      rw [hunpacked, hs'] at hlt
      cases hlt
    · have hk' : 0 < k' := hy.pos.trans_le hy.le
      rw [hx.brief, hy.brief, hx.sixDigits, hy.sixDigits, String.ofList_inj]
      constructor
      · intro heq
        have hread := reads_briefDigits hx.pos hk
        rw [heq] at hread
        exact hread.unique (reads_briefDigits hy.pos hk')
      · intro heq
        have hleading := leading_eq_of_rounded hx.pos hk hy.pos hk' (by decide) heq
        rw [briefDigits, briefDigits, hleading]

end Real.Binary64

namespace Summary

variable {F : Type} [Scalar F]

/-- The value is a matrix of `n` points and `m` states; a vector is a single state. -/
def IsMatrix (values : Value F) (n m : Nat) (cells : List F) : Prop :=
  0 < m ∧ (Grid.realsOfValue values = .ok ([n, m], cells) ∨
    m = 1 ∧ Grid.realsOfValue values = .ok ([n], cells))

/-- Columns of numbers with the row labels of the value, or else the positions. -/
def frame (values : Value F) (n : Nat) (columns : Named (List F)) : Value F :=
  let index := match values with
    | .table index _ => index
    | _ => Column.defaultIndex n
  .table index (columns.map fun (name, xs) => (name, .double, xs.map .float))

theorem ofValue_eq {values level : Value F} {items : Option (List (Value F))} {n m : Nat} {cells : List F}
    {lo hi : F} (hvalues : IsMatrix values n m cells) (hinterval : Interval.choose? level items = .ok (lo, hi))
    (hlo : isProbability lo = true) (hhi : isProbability hi = true) :
    ofValue? values level items =
      .ok (frame values n (columns lo hi (Mapper.Covariates.rowsOf n m cells))) := by
  obtain ⟨hm, hcells⟩ := hvalues
  obtain ⟨m, rfl⟩ := Nat.exists_eq_succ_of_ne_zero hm.ne'
  have hlength : (Mapper.Covariates.rowsOf n (m + 1) cells).length = n := by
    simp [Mapper.Covariates.rowsOf]
  unfold ofValue?
  rw [hinterval]
  change withInterval? values (lo, hi) = _
  unfold withInterval?
  rcases hcells with h | ⟨hone, h⟩
  · simp only [h, lift, pure_bind, hlo, hhi, frame, hlength]
    rfl
  · obtain rfl : m = 0 := by omega
    simp only [h, lift, pure_bind, hlo, hhi, frame, hlength]
    rfl

theorem quantileName_ne (p : F) :
    quantileName p ≠ "mean" ∧ quantileName p ≠ "sd" ∧ quantileName p ≠ "median" := by
  have hfirst : (quantileName p).toList.head? = some 'q' := by
    simp [quantileName]
  refine ⟨?_, ?_, ?_⟩
  all_goals
    intro h
    rw [h] at hfirst
    revert hfirst
    decide

theorem columns_of_ne {lo hi : F} (rows : List (List F)) (h : quantileName lo ≠ quantileName hi) :
    columns lo hi rows = [("mean", rows.map Summation.mean), ("sd", rows.map deviation),
        (quantileName lo, rows.map (Quantile.ofList · lo)),
        ("median", rows.map (Quantile.ofList · (Scalar.ofRatio 1 2))),
        (quantileName hi, rows.map (Quantile.ofList · hi))] ∧
      (Named.names (columns lo hi rows)).Nodup := by
  have hnodup : ["mean", "sd", quantileName lo, "median", quantileName hi].Nodup := by
    have hlo := quantileName_ne lo
    have hhi := quantileName_ne hi
    simp [h, hlo, Ne.symm hlo.1, Ne.symm hlo.2.1, Ne.symm hhi.1, Ne.symm hhi.2.1, Ne.symm hhi.2.2]
  have hsame : columns lo hi rows = _ := Named.ofList_of_nodup hnodup
  exact ⟨hsame, hsame ▸ hnodup⟩

/-- Bounds of one name share the column of the lower one, with the values of the upper one. -/
theorem columns_of_eq {lo hi : F} (rows : List (List F)) (h : quantileName lo = quantileName hi) :
    columns lo hi rows = [("mean", rows.map Summation.mean), ("sd", rows.map deviation),
      (quantileName hi, rows.map (Quantile.ofList · hi)),
      ("median", rows.map (Quantile.ofList · (Scalar.ofRatio 1 2)))] := by
  have hhi := quantileName_ne hi
  simp [columns, Named.ofList, Named.writeAll, Named.write, h, hhi, Ne.symm hhi.1,
    Ne.symm hhi.2.1]

theorem quantileName_inj {p q : F} : quantileName p = quantileName q ↔ Scalar.brief p = Scalar.brief q := by
  simp [quantileName, String.ext_iff]

open Real.Binary64

/-- Bounds that are further apart than the sixth place behind the point differ in six digits. -/
theorem sixDigits_ne {lo hi : Float} (hlo : isProbability lo = true) (hhi : isProbability hi = true)
    (h : 1 / 10 ^ 6 < exact hi - exact lo) : sixDigits lo ≠ sixDigits hi := by
  intro heq
  have hlo := (abs_le.1 (abs_sixDigits_sub_le hlo)).2
  have hhi := (abs_le.1 (abs_sixDigits_sub_le hhi)).1
  rw [heq] at hlo
  norm_num at hlo hhi h
  linarith

/-- The summary of a matrix with an interval has a column for each bound exactly when the bounds differ
in six significant digits, as they do when they are further apart than the sixth place behind the point.
Bounds that agree share a column, and it is the upper one that has it. -/
theorem keeps_distinct_bounds {values level : Value Float} {items : Option (List (Value Float))}
    {n m : Nat} {cells : List Float} {lo hi : Float} (hvalues : IsMatrix values n m cells)
    (hinterval : Interval.choose? level items = .ok (lo, hi)) (hlo : isProbability lo = true)
    (hhi : isProbability hi = true) (hlt : Scalar.lt lo hi = true) :
    let rows := Mapper.Covariates.rowsOf n m cells
    let mean := ("mean", rows.map Summation.mean)
    let sd := ("sd", rows.map deviation)
    let median := ("median", rows.map (Quantile.ofList · (Scalar.ofRatio 1 2)))
    let bound (p : Float) := (quantileName p, rows.map (Quantile.ofList · p))
    (1 / 10 ^ 6 < exact hi - exact lo → sixDigits lo ≠ sixDigits hi) ∧
    (sixDigits lo ≠ sixDigits hi →
      ofValue? values level items = .ok (frame values n [mean, sd, bound lo, median, bound hi]) ∧
        (Named.names [mean, sd, bound lo, median, bound hi]).Nodup) ∧
    (sixDigits lo = sixDigits hi → quantileName lo = quantileName hi ∧
      ofValue? values level items = .ok (frame values n [mean, sd, bound hi, median])) := by
  have hnames : quantileName lo = quantileName hi ↔ sixDigits lo = sixDigits hi :=
    quantileName_inj.trans (brief_eq_iff hlo hhi hlt)
  have hframe := ofValue_eq hvalues hinterval hlo hhi
  refine ⟨sixDigits_ne hlo hhi, fun hne => ?_, fun heq => ⟨hnames.2 heq, ?_⟩⟩
  · obtain ⟨hcolumns, hnodup⟩ := columns_of_ne (Mapper.Covariates.rowsOf n m cells) (mt hnames.1 hne)
    rw [hframe, hcolumns]
    exact ⟨rfl, hcolumns ▸ hnodup⟩
  · rw [hframe, columns_of_eq _ (hnames.2 heq)]

def threeStates : Value Float := .list [.list [.float 1, .float 2, .float 3]]

theorem isMatrix_threeStates : IsMatrix threeStates 1 3 [1, 2, 3] := ⟨by decide, .inl rfl⟩

/-- The interval of 95 percent has a column for each bound. -/
theorem default_bounds_kept :
    let lo : Float := Interval.default.1
    let hi : Float := Interval.default.2
    isProbability lo = true ∧ isProbability hi = true ∧ Scalar.lt lo hi = true ∧
      ∃ index columns, ofValue? threeStates .null none = .ok (.table index columns) ∧
        columns.map (·.1) = ["mean", "sd", "q0.025", "median", "q0.975"] := by
  intro lo hi
  have hlo : isProbability lo = true := by decide +kernel
  have hhi : isProbability hi = true := by decide +kernel
  have hlt : Scalar.lt lo hi = true := by decide +kernel
  have hapart : 1 / 10 ^ 6 < exact hi - exact lo := by decide +kernel
  have hnames : quantileName lo = "q0.025" ∧ quantileName hi = "q0.975" := by decide +kernel
  have hinterval : Interval.choose? (.null : Value Float) none = .ok (lo, hi) := rfl
  obtain ⟨hdistinct, hkept, -⟩ := keeps_distinct_bounds isMatrix_threeStates hinterval hlo hhi hlt
  refine ⟨hlo, hhi, hlt, _, _, (hkept (hdistinct hapart)).1, ?_⟩
  rw [← hnames.1, ← hnames.2]
  rfl

/-- Bounds that agree in six digits share a column: the lower one is lost. -/
theorem close_bounds_share :
    let lo : Float := Scalar.ofDecimal 5 (-1)
    let hi : Float := Scalar.ofDecimal 5000001 (-7)
    isProbability lo = true ∧ isProbability hi = true ∧ Scalar.lt lo hi = true ∧
      ∃ index columns, ofValue? threeStates .null (some [.float lo, .float hi]) =
          .ok (.table index columns) ∧
        columns.map (·.1) = ["mean", "sd", "q0.5", "median"] := by
  intro lo hi
  have hlo : isProbability lo = true := by decide +kernel
  have hhi : isProbability hi = true := by decide +kernel
  have hlt : Scalar.lt lo hi = true := by decide +kernel
  have hnames : quantileName lo = "q0.5" ∧ quantileName hi = "q0.5" := by decide +kernel
  refine ⟨hlo, hhi, hlt, _, _, ofValue_eq isMatrix_threeStates rfl hlo hhi, ?_⟩
  rw [columns_of_eq _ (hnames.1.trans hnames.2.symm), hnames.2]
  rfl

end Summary

end AdditiveModel
