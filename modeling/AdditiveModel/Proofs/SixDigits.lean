import Mathlib
import AdditiveModel.Real.Digits
import AdditiveModel.Text.Numeral

/-! Quotients with a number of significant digits. The first digit stands at the power of ten that is
nearest below the quotient, the digits are at most half a unit of the last one away from it, and the text
of the digits, positional or scientific, reads back as what they stand for. -/

namespace AdditiveModel.Real.Digits

open Text

theorem scale_div (num den : Nat) (power : Int) :
    ((scale num den power).1 : ℚ) / (scale num den power).2 = num / den * 10 ^ power := by
  unfold scale
  split
  · have hpower : power = -(power.natAbs : Int) := by omega
    conv_rhs => rw [hpower, zpow_neg, zpow_natCast]
    simp only [Nat.pow_eq, Nat.cast_mul, Nat.cast_pow, Nat.cast_ofNat]
    rw [← div_div, div_eq_mul_inv (_ / _)]
  · have hpower : power = (power.toNat : Int) := by omega
    conv_rhs => rw [hpower, zpow_natCast]
    simp only [Nat.pow_eq, Nat.cast_mul, Nat.cast_pow, Nat.cast_ofNat]
    rw [mul_div_right_comm]

theorem scale_pos (num : Nat) {den : Nat} (hden : 0 < den) (power : Int) : 0 < (scale num den power).2 := by
  unfold scale
  split
  · exact Nat.mul_pos hden (Nat.pow_pos (by decide))
  · exact hden

theorem width_pos (n : Nat) : 0 < width n := Nat.length_toDigits_pos

theorem width_le_iff {n k : Nat} (hk : 0 < k) : width n ≤ k ↔ n < 10 ^ k :=
  Nat.length_toDigits_le_iff (by decide) hk

theorem width_bounds {n : Nat} (h : 0 < n) :
    (10 : ℚ) ^ ((width n : Int) - 1) ≤ n ∧ (n : ℚ) < 10 ^ (width n : Int) := by
  constructor
  · obtain ⟨k, hk⟩ : ∃ k, width n = k + 1 := ⟨width n - 1, by have := width_pos n; omega⟩
    rw [hk, Nat.cast_succ, add_sub_cancel_right, zpow_natCast]
    have hle : 10 ^ k ≤ n := by
      rcases Nat.eq_zero_or_pos k with rfl | hpos
      · exact h
      · exact not_lt.1 fun hlt => by have := (width_le_iff hpos).2 hlt; omega
    exact_mod_cast hle
  · rw [zpow_natCast]
    exact_mod_cast (width_le_iff (width_pos n)).1 le_rfl

theorem magnitude_bounds {num den : Nat} (hnum : 0 < num) (hden : 0 < den) :
    (10 : ℚ) ^ magnitude num den ≤ num / den ∧ (num / den : ℚ) < 10 ^ (magnitude num den + 1) := by
  obtain ⟨hnum_le, hnum_lt⟩ := width_bounds hnum
  obtain ⟨hden_le, hden_lt⟩ := width_bounds hden
  have hden' : (0 : ℚ) < den := Nat.cast_pos.2 hden
  have hdiv := scale_div num den (-((width num : Int) - width den))
  have hpos : (0 : ℚ) < (scale num den (-((width num : Int) - width den))).2 :=
    Nat.cast_pos.2 (scale_pos num hden _)
  have hguess : (scale num den (-((width num : Int) - width den))).1 <
      (scale num den (-((width num : Int) - width den))).2 ↔
        (num / den : ℚ) < 10 ^ ((width num : Int) - width den) := by
    rw [← Nat.cast_lt (α := ℚ), ← div_lt_one hpos, hdiv, zpow_neg, ← div_eq_mul_inv,
      div_lt_one (by positivity)]
  have hbelow : (10 : ℚ) ^ ((width num : Int) - width den - 1) ≤ num / den := by
    rw [le_div_iff₀ hden']
    calc (10 : ℚ) ^ ((width num : Int) - width den - 1) * den
        ≤ 10 ^ ((width num : Int) - width den - 1) * 10 ^ (width den : Int) := by gcongr
      _ = 10 ^ ((width num : Int) - 1) := by
          rw [← zpow_add₀ (by norm_num)]
          ring_nf
      _ ≤ num := hnum_le
  have habove : (num / den : ℚ) < 10 ^ ((width num : Int) - width den + 1) := by
    rw [div_lt_iff₀ hden']
    calc (num : ℚ) < 10 ^ (width num : Int) := hnum_lt
      _ = 10 ^ ((width num : Int) - width den + 1) * 10 ^ ((width den : Int) - 1) := by
          rw [← zpow_add₀ (by norm_num)]
          ring_nf
      _ ≤ 10 ^ ((width num : Int) - width den + 1) * den := by gcongr
  unfold magnitude
  dsimp only
  split
  · rename_i hlt
    rw [sub_add_cancel]
    exact ⟨hbelow, hguess.1 hlt⟩
  · rename_i hge
    exact ⟨not_lt.1 (mt hguess.2 hge), habove⟩

theorem abs_roundDiv_sub_le {n d : Nat} (hd : 0 < d) : |(roundDiv n d : ℚ) - n / d| ≤ 1 / 2 := by
  have hd' : (0 : ℚ) < d := Nat.cast_pos.2 hd
  have hsplit : (n : ℚ) / d = (n / d : Nat) + (n % d : Nat) / d := by
    rw [add_div' _ _ _ hd'.ne', div_left_inj' hd'.ne']
    exact_mod_cast (Nat.div_add_mod' n d).symm
  have hlt : ((n % d : Nat) : ℚ) / d < 1 := by
    rw [div_lt_one hd']
    exact_mod_cast Nat.mod_lt n hd
  have hnonneg : (0 : ℚ) ≤ ((n % d : Nat) : ℚ) / d := by positivity
  have hhalf : 2 * (n % d) ≤ d → ((n % d : Nat) : ℚ) / d ≤ 1 / 2 := fun h => by
    rw [div_le_div_iff₀ hd' (by norm_num)]
    have : (2 * (n % d : Nat) : ℚ) ≤ d := by exact_mod_cast h
    linarith
  have hhalf' : d ≤ 2 * (n % d) → 1 / 2 ≤ ((n % d : Nat) : ℚ) / d := fun h => by
    rw [div_le_div_iff₀ (by norm_num) hd']
    have : (d : ℚ) ≤ 2 * (n % d : Nat) := by exact_mod_cast h
    linarith
  rw [hsplit, abs_le]
  unfold roundDiv
  dsimp only
  split_ifs with hdown hup heven
  · have := hhalf hdown.le
    constructor <;> linarith
  · have := hhalf' hup.le
    push_cast
    constructor <;> linarith
  · have := hhalf (by omega)
    constructor <;> linarith
  · have := hhalf' (by omega)
    push_cast
    constructor <;> linarith

theorem roundDiv_mem (n d : Nat) : n / d ≤ roundDiv n d ∧ roundDiv n d ≤ n / d + 1 := by
  unfold roundDiv
  dsimp only
  split_ifs <;> omega

/-- The digits as an integer and the power of the first one. What the digits stand for is at most half
a unit of the last digit away from the quotient. -/
theorem leading_spec {num den digits : Nat} (hnum : 0 < num) (hden : 0 < den) (hdigits : 0 < digits) :
    ∃ q p, leading num den digits = (q, p) ∧ 10 ^ (digits - 1) ≤ q ∧ q < 10 ^ digits ∧
      |(q : ℚ) * 10 ^ (p + 1 - digits) - num / den| ≤ 10 ^ (magnitude num den + 1 - digits) / 2 := by
  obtain ⟨hle, hlt⟩ := magnitude_bounds hnum hden
  have hs := scale_div num den ((digits : Int) - 1 - magnitude num den)
  have hpos := scale_pos num hden ((digits : Int) - 1 - magnitude num den)
  unfold leading
  dsimp only
  generalize magnitude num den = k at *
  generalize scale num den ((digits : Int) - 1 - k) = s at *
  obtain ⟨n, d⟩ := s
  dsimp only at hs hpos ⊢
  have hpos' : (0 : ℚ) < d := Nat.cast_pos.2 hpos
  have hlow : 10 ^ (digits - 1) ≤ n / d := by
    rw [Nat.le_div_iff_mul_le hpos, ← Nat.cast_le (α := ℚ), Nat.cast_mul, ← le_div_iff₀ hpos', hs]
    calc ((10 ^ (digits - 1) : Nat) : ℚ) = 10 ^ k * 10 ^ ((digits : Int) - 1 - k) := by
          rw [← zpow_add₀ (by norm_num), Nat.cast_pow, ← zpow_natCast, Nat.cast_sub hdigits]
          push_cast
          ring_nf
      _ ≤ num / den * 10 ^ ((digits : Int) - 1 - k) := by gcongr
  have hhigh : n / d < 10 ^ digits := by
    rw [Nat.div_lt_iff_lt_mul hpos, ← Nat.cast_lt (α := ℚ), Nat.cast_mul, ← div_lt_iff₀ hpos', hs]
    calc (num : ℚ) / den * 10 ^ ((digits : Int) - 1 - k)
        < 10 ^ (k + 1) * 10 ^ ((digits : Int) - 1 - k) := by gcongr
      _ = ((10 ^ digits : Nat) : ℚ) := by
          rw [← zpow_add₀ (by norm_num), Nat.cast_pow, ← zpow_natCast]
          push_cast
          ring_nf
  have herror : |(roundDiv n d : ℚ) * 10 ^ (k + 1 - digits) - num / den| ≤ 10 ^ (k + 1 - digits) / 2 := by
    have hunit : (0 : ℚ) < 10 ^ (k + 1 - digits) := by positivity
    have hquotient : (num / den : ℚ) = n / d * 10 ^ (k + 1 - digits) := by
      have hcancel : (digits : Int) - 1 - k + (k + 1 - digits) = 0 := by ring
      rw [hs, mul_assoc, ← zpow_add₀ (by norm_num), hcancel, zpow_zero, mul_one]
    calc |(roundDiv n d : ℚ) * 10 ^ (k + 1 - digits) - num / den|
        = |(roundDiv n d : ℚ) - n / d| * 10 ^ (k + 1 - digits) := by
          rw [hquotient, ← sub_mul, abs_mul, abs_of_pos hunit]
      _ ≤ 1 / 2 * 10 ^ (k + 1 - digits) := mul_le_mul_of_nonneg_right (abs_roundDiv_sub_le hpos) hunit.le
      _ = 10 ^ (k + 1 - digits) / 2 := one_div_mul_eq_div _ _
  obtain ⟨hge, hup⟩ := roundDiv_mem n d
  rw [Nat.pow_eq, Nat.pow_eq]
  by_cases hcarry : roundDiv n d = 10 ^ digits
  · rw [if_pos hcarry]
    refine ⟨_, _, rfl, le_rfl, Nat.pow_lt_pow_right (by decide) (by omega), ?_⟩
    have hsame : ((10 ^ (digits - 1) : Nat) : ℚ) * 10 ^ (k + 1 + 1 - digits) =
        (roundDiv n d : ℚ) * 10 ^ (k + 1 - digits) := by
      rw [hcarry, Nat.cast_pow, Nat.cast_pow, ← zpow_natCast, ← zpow_natCast, Nat.cast_ofNat,
        ← zpow_add₀ (by norm_num), ← zpow_add₀ (by norm_num), Nat.cast_sub hdigits]
      congr 1
      push_cast
      ring
    rw [hsame]
    exact herror
  · rw [if_neg hcarry]
    exact ⟨_, _, rfl, hlow.trans hge, by omega, herror⟩

def rounded (num den digits : Nat) : ℚ :=
  (leading num den digits).1 * 10 ^ ((leading num den digits).2 + 1 - digits)

theorem rounded_pos {num den digits : Nat} (hnum : 0 < num) (hden : 0 < den) (hdigits : 0 < digits) :
    0 < rounded num den digits := by
  obtain ⟨q, p, hleading, hq, -⟩ := leading_spec hnum hden hdigits
  have hq' : (0 : ℚ) < q := Nat.cast_pos.2 ((Nat.pow_pos (by decide)).trans_le hq)
  rw [rounded, hleading]
  positivity

theorem roundDiv_mul {d : Nat} (hd : 0 < d) (q : Nat) : roundDiv (q * d) d = q := by
  unfold roundDiv
  rw [Nat.mul_mod_left, Nat.mul_div_cancel q hd, if_pos (by omega)]

theorem magnitude_self {n : Nat} (h : 0 < n) : magnitude n n = 0 := by
  obtain ⟨hle, hlt⟩ := magnitude_bounds h h
  rw [div_self (Nat.cast_ne_zero.2 h.ne')] at hle hlt
  have hle' := (zpow_le_one_iff_right₀ (by norm_num : (1 : ℚ) < 10)).1 hle
  have hlt' := (one_lt_zpow_iff_right₀ (by norm_num : (1 : ℚ) < 10)).1 hlt
  omega

theorem rounded_self {n digits : Nat} (h : 0 < n) (hdigits : 0 < digits) : rounded n n digits = 1 := by
  have hscale : scale n n ((digits : Int) - 1 - 0) = (10 ^ (digits - 1) * n, n) := by
    have hpower : ((digits : Int) - 1 - 0).toNat = digits - 1 := by omega
    rw [scale, if_neg (by omega), hpower, Nat.pow_eq, Nat.mul_comm]
  have hcarry : (10 : Nat) ^ (digits - 1) ≠ Nat.pow 10 digits :=
    (Nat.pow_lt_pow_right (by decide) (by omega)).ne
  have hleading : leading n n digits = (10 ^ (digits - 1), 0) := by
    rw [leading, magnitude_self h, hscale]
    dsimp only
    rw [roundDiv_mul h, if_neg hcarry]
  have hexponent : ((digits - 1 : Nat) : Int) + (0 + 1 - digits) = 0 := by omega
  rw [rounded, hleading, Nat.cast_pow, Nat.cast_ofNat, ← zpow_natCast, ← zpow_add₀ (by norm_num), hexponent,
    zpow_zero]

/-- A quotient up to one is rounded by at most half a unit of the last place behind the point. -/
theorem abs_rounded_sub_le {num den digits : Nat} (hnum : 0 < num) (hle : num ≤ den) (hdigits : 0 < digits) :
    |rounded num den digits - num / den| ≤ 1 / (2 * 10 ^ digits) := by
  have hden : 0 < den := hnum.trans_le hle
  rcases Nat.eq_or_lt_of_le hle with rfl | hlt
  · rw [rounded_self hnum hdigits, div_self (Nat.cast_ne_zero.2 hnum.ne'), sub_self, abs_zero]
    positivity
  · obtain ⟨q, p, hleading, -, -, herror⟩ := leading_spec hnum hden hdigits
    obtain ⟨hbelow, -⟩ := magnitude_bounds hnum hden
    have hden' : (0 : ℚ) < den := Nat.cast_pos.2 hden
    have hone : (num / den : ℚ) < 1 := (div_lt_one hden').2 (Nat.cast_lt.2 hlt)
    have hk : magnitude num den < 0 := (zpow_lt_one_iff_right₀ (by norm_num)).1 (hbelow.trans_lt hone)
    rw [rounded, hleading]
    calc |(q : ℚ) * 10 ^ (p + 1 - digits) - num / den| ≤ 10 ^ (magnitude num den + 1 - digits) / 2 := herror
      _ ≤ 10 ^ (-digits : Int) / 2 := by
          gcongr
          · norm_num
          · omega
      _ = 1 / (2 * 10 ^ digits) := by
          rw [zpow_neg, zpow_natCast]
          field_simp

theorem leading_eq_of_rounded {num den num' den' digits : Nat} (hnum : 0 < num) (hden : 0 < den)
    (hnum' : 0 < num') (hden' : 0 < den') (hdigits : 0 < digits)
    (h : rounded num den digits = rounded num' den' digits) :
    leading num den digits = leading num' den' digits := by
  obtain ⟨q, p, hleading, hq, hlt, -⟩ := leading_spec hnum hden hdigits
  obtain ⟨q', p', hleading', hq', hlt', -⟩ := leading_spec hnum' hden' hdigits
  rw [rounded, rounded, hleading, hleading'] at h
  -- a power that is one greater needs ten times the digits
  have hpower {q q' : Nat} {p p' : Int} (hq : 10 ^ (digits - 1) ≤ q) (hlt' : q' < 10 ^ digits)
      (h : (q : ℚ) * 10 ^ (p + 1 - digits) = q' * 10 ^ (p' + 1 - digits)) : p ≤ p' := by
    by_contra hgt
    have hle : (10 : ℚ) ^ (p' + 1 + 1 - digits) ≤ 10 ^ (p + 1 - digits) :=
      zpow_le_zpow_right₀ (by norm_num) (by omega)
    have hbig : (q' : ℚ) < 10 * q := by
      have hten : 10 ^ digits = 10 * 10 ^ (digits - 1) := by
        rw [← Nat.pow_succ', Nat.succ_eq_add_one, Nat.sub_add_cancel hdigits]
      exact_mod_cast (show q' < 10 * q by omega)
    have hsplit : (10 : ℚ) ^ (p' + 1 + 1 - digits) = 10 * 10 ^ (p' + 1 - digits) := by
      rw [← zpow_one_add₀ (by norm_num)]
      ring_nf
    have hcontra : (q : ℚ) * 10 ^ (p + 1 - digits) > q' * 10 ^ (p' + 1 - digits) :=
      calc (q' : ℚ) * 10 ^ (p' + 1 - digits) < 10 * q * 10 ^ (p' + 1 - digits) := by gcongr
        _ = q * 10 ^ (p' + 1 + 1 - digits) := by rw [hsplit]; ring
        _ ≤ q * 10 ^ (p + 1 - digits) := by gcongr
    exact hcontra.ne' h
  obtain rfl : p = p' := le_antisymm (hpower hq hlt' h) (hpower hq' hlt h.symm)
  have hsame : q = q' := by
    have hne : (10 : ℚ) ^ (p + 1 - digits) ≠ 0 := by positivity
    exact_mod_cast mul_right_cancel₀ hne h
  rw [hleading, hleading', hsame]

end AdditiveModel.Real.Digits

namespace AdditiveModel.Text.Numeral

open Real.Digits

theorem digitsValue_eq (cs : List Char) : digitsValue cs = Nat.ofDigitChars 10 cs 0 :=
  Nat.ofDigitChars_eq_foldl.symm

theorem digitsValue_zeros_append (n : Nat) (ds : List Char) :
    digitsValue (List.replicate n '0' ++ ds) = digitsValue ds := by
  simp [digitsValue_eq, Nat.ofDigitChars_append]

theorem digitsValue_append_zeros (ds : List Char) (n : Nat) :
    digitsValue (ds ++ List.replicate n '0') = digitsValue ds * 10 ^ n := by
  simp [digitsValue_eq, Nat.ofDigitChars_append, Nat.mul_comm]

theorem digitsValue_text (n : Nat) : digitsValue (text n) = n := by
  rw [digitsValue_eq]
  exact Nat.ofDigitChars_ten_toDigits

def Digits (cs : List Char) : Prop := ∀ c ∈ cs, c.isDigit = true

theorem Digits.append {cs ds : List Char} (hcs : Digits cs) (hds : Digits ds) : Digits (cs ++ ds) :=
  fun c hc => (List.mem_append.1 hc).elim (hcs c) (hds c)

theorem digits_zeros (n : Nat) : Digits (List.replicate n '0') := fun c hc => by
  rw [List.eq_of_mem_replicate hc]
  rfl

theorem digits_text (n : Nat) : Digits (text n) := fun _ hc =>
  Nat.isDigit_of_mem_toDigits (b := 10) (by decide) (by decide) hc

/-- The text is a numeral without a sign that stands for the number. -/
def Reads (cs : List Char) (v : ℚ) : Prop :=
  ∃ (m : Nat) (e : Int), unsigned? false cs = some (.decimal false m e) ∧ (m : ℚ) * 10 ^ e = v

theorem Reads.unique {cs : List Char} {v w : ℚ} (hv : Reads cs v) (hw : Reads cs w) : v = w := by
  obtain ⟨m, e, hread, rfl⟩ := hv
  obtain ⟨m', e', hread', rfl⟩ := hw
  rw [hread] at hread'
  cases hread'
  rfl

theorem exponent_cases {cs : List Char} {e : Int} (h : exponent? cs = some e) :
    cs = [] ∨ ∃ c rest, cs = c :: rest ∧ (c = 'e' ∨ c = 'E') := by
  cases cs with
  | nil => exact .inl rfl
  | cons c rest =>
    refine .inr ⟨c, rest, rfl, ?_⟩
    by_contra hne
    rw [not_or] at hne
    simp [exponent?, hne.1, hne.2] at h

theorem span_digits {ds : List Char} (tail : List Char) (hds : Digits ds) (htail : tail.head?.all (!·.isDigit)) :
    (ds ++ tail).takeWhile Char.isDigit = ds ∧ (ds ++ tail).dropWhile Char.isDigit = tail := by
  rw [List.takeWhile_append_of_pos hds, List.dropWhile_append_of_pos hds]
  cases tail with
  | nil => simp
  | cons c rest =>
    have hc : c.isDigit = false := by simpa using htail
    simp [hc]

theorem head_exponent {tail : List Char} {e : Int} (h : exponent? tail = some e) :
    tail.head?.all (!·.isDigit) = true := by
  obtain rfl | ⟨c, rest, rfl, rfl | rfl⟩ := exponent_cases h <;> rfl

theorem reads_whole {ds tail : List Char} {e : Int} (hne : ds ≠ []) (hds : Digits ds)
    (htail : exponent? tail = some e) : Reads (ds ++ tail) (digitsValue ds * 10 ^ e) := by
  obtain ⟨htake, hdrop⟩ := span_digits tail hds (head_exponent htail)
  refine ⟨digitsValue ds, e, ?_, rfl⟩
  unfold unsigned?
  dsimp only
  rw [htake, hdrop]
  split
  · obtain hnil | ⟨c, rest, hcons, hc⟩ := exponent_cases htail
    · cases hnil
    · cases hcons
      simp at hc
  · simp [htail, hne]

theorem reads_point (ws fs : List Char) {tail : List Char} {e : Int} (hne : ws ≠ []) (hws : Digits ws) (hfs : Digits fs)
    (htail : exponent? tail = some e) :
    Reads (ws ++ '.' :: (fs ++ tail)) (digitsValue (ws ++ fs) * 10 ^ (e - fs.length)) := by
  obtain ⟨htake, hdrop⟩ := span_digits ('.' :: (fs ++ tail)) hws rfl
  obtain ⟨htake', hdrop'⟩ := span_digits tail hfs (head_exponent htail)
  refine ⟨digitsValue (ws ++ fs), e - fs.length, ?_, rfl⟩
  unfold unsigned?
  dsimp only
  rw [htake, hdrop]
  simp [htake', hdrop', htail, hne]

theorem exponent_exponentText (k : Int) : exponent? (exponentText k) = some k := by
  have hdigits : ∃ ds, exponentText k = 'e' :: (if k < 0 then '-' else '+') :: ds ∧ ds ≠ [] ∧ Digits ds ∧
      digitsValue ds = k.natAbs := by
    refine ⟨_, rfl, ?_⟩
    have hne : text k.natAbs ≠ [] := Nat.toDigits_ne_nil
    split
    · refine ⟨List.cons_ne_nil _ _, (digits_zeros 1).append (digits_text _), ?_⟩
      exact (digitsValue_zeros_append 1 _).trans (digitsValue_text _)
    · exact ⟨hne, digits_text _, digitsValue_text _⟩
  obtain ⟨ds, hopen, hne, hds, hvalue⟩ := hdigits
  have hall : ds.all Char.isDigit = true := List.all_eq_true.2 hds
  rw [hopen]
  by_cases hneg : k < 0
  · simp [exponent?, sign, hneg, hne, hall, hvalue, abs_of_neg hneg]
  · simp [exponent?, sign, hneg, hne, hall, hvalue, abs_of_nonneg (not_lt.1 hneg)]

theorem reads_positional {ds : List Char} (hne : ds ≠ []) (hds : Digits ds) (p : Int) :
    Reads (positional ds p) (digitsValue ds * 10 ^ (p + 1 - ds.length)) := by
  have hend : exponent? [] = some 0 := rfl
  unfold positional
  split
  · have hread := reads_point ['0'] _ (List.cons_ne_nil _ _) (digits_zeros 1)
      ((digits_zeros (p.natAbs - 1)).append hds) hend
    have hvalue : digitsValue (['0'] ++ (List.replicate (p.natAbs - 1) '0' ++ ds)) = digitsValue ds :=
      (digitsValue_zeros_append 1 _).trans (digitsValue_zeros_append _ ds)
    have hplace : (0 : Int) - (List.replicate (p.natAbs - 1) '0' ++ ds).length = p + 1 - ds.length := by
      rw [List.length_append, List.length_replicate]
      omega
    rwa [List.append_nil, hvalue, hplace] at hread
  dsimp only
  split
  · have hread := reads_whole (List.append_ne_nil_of_left_ne_nil hne _)
      (hds.append (digits_zeros (p.toNat + 1 - ds.length))) hend
    have hplace : ((p.toNat + 1 - ds.length : Nat) : Int) = p + 1 - ds.length := by omega
    rwa [List.append_nil, digitsValue_append_zeros, zpow_zero, mul_one, Nat.cast_mul, Nat.cast_pow,
      ← zpow_natCast, hplace] at hread
  · have hread := reads_point (ds.take (p.toNat + 1)) (ds.drop (p.toNat + 1))
      (by simpa using hne) (fun c hc => hds c (List.mem_of_mem_take hc))
      (fun c hc => hds c (List.mem_of_mem_drop hc)) hend
    have hplace : (0 : Int) - (ds.drop (p.toNat + 1)).length = p + 1 - ds.length := by
      rw [List.length_drop]
      omega
    rwa [List.append_nil, List.take_append_drop, hplace] at hread

theorem reads_scientific {ds : List Char} (hne : ds ≠ []) (hds : Digits ds) (p : Int) :
    Reads (pointed ds ++ exponentText p) (digitsValue ds * 10 ^ (p + 1 - ds.length)) := by
  have hend := exponent_exponentText p
  match ds, hne with
  | [c], _ =>
    have hread := reads_whole (List.cons_ne_nil c []) hds hend
    have hplace : p + 1 - [c].length = p := by simp
    rwa [hplace]
  | c :: c' :: cs, _ =>
    have hread := reads_point [c] (c' :: cs) (List.cons_ne_nil _ _)
      (fun d hd => hds d (by simp_all)) (fun d hd => hds d (by simp_all)) hend
    have hplace : p - (c' :: cs).length = p + 1 - (c :: c' :: cs).length := by
      simp only [List.length_cons]
      omega
    rwa [hplace] at hread

theorem dropTrailingZeros_spec (cs : List Char) :
    ∃ n, cs = dropTrailingZeros cs ++ List.replicate n '0' := by
  refine ⟨(cs.reverse.takeWhile (· == '0')).length, ?_⟩
  have hzeros : (cs.reverse.takeWhile (· == '0')) = List.replicate _ '0' :=
    List.eq_replicate_of_mem fun c hc => by simpa using List.mem_takeWhile_imp hc
  have hsplit := congrArg List.reverse (List.takeWhile_append_dropWhile (p := (· == '0')) (l := cs.reverse))
  rw [List.reverse_append, List.reverse_reverse, hzeros, List.reverse_replicate] at hsplit
  exact hsplit.symm

/-- Digits without the zeros at their end read back as what all the digits stand for. -/
theorem reads_digits {q digits : Nat} (hdigits : 0 < digits) (hlow : 10 ^ (digits - 1) ≤ q)
    (hlt : q < 10 ^ digits) (p : Int) :
    Reads (positional (dropTrailingZeros (text q)) p) (q * 10 ^ (p + 1 - digits)) ∧
      Reads (pointed (dropTrailingZeros (text q)) ++ exponentText p) (q * 10 ^ (p + 1 - digits)) := by
  obtain ⟨n, hsplit⟩ := dropTrailingZeros_spec (text q)
  have hds : Digits (dropTrailingZeros (text q)) := fun c hc =>
    digits_text q c (hsplit ▸ List.mem_append_left _ hc)
  have hvalue := digitsValue_text q
  have hlength : (text q).length = digits := by
    refine le_antisymm ((width_le_iff hdigits).2 hlt) (not_lt.1 fun hshort => ?_)
    have hwidth : width q ≤ digits - 1 := Nat.le_sub_one_of_lt hshort
    exact absurd ((width_le_iff ((width_pos q).trans_le hwidth)).1 hwidth) (not_lt.2 hlow)
  rw [hsplit, digitsValue_append_zeros] at hvalue
  rw [hsplit, List.length_append, List.length_replicate] at hlength
  generalize dropTrailingZeros (text q) = ds at *
  have hne : ds ≠ [] := by
    rintro rfl
    have hpos : 0 < 10 ^ (digits - 1) := Nat.pow_pos (by decide)
    simp [digitsValue] at hvalue
    omega
  have hsame : (digitsValue ds : ℚ) * 10 ^ (p + 1 - ds.length) = q * 10 ^ (p + 1 - digits) := by
    rw [← hvalue, ← hlength, Nat.cast_mul, Nat.cast_pow, Nat.cast_ofNat, ← zpow_natCast, mul_assoc,
      ← zpow_add₀ (by norm_num)]
    congr 2
    push_cast
    ring
  rw [← hsame]
  exact ⟨reads_positional hne hds p, reads_scientific hne hds p⟩

end AdditiveModel.Text.Numeral
