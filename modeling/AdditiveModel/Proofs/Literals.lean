import Mathlib.Algebra.Order.Field.Rat
import Mathlib.Tactic.FieldSimp
import Mathlib.Tactic.Linarith
import Mathlib.Tactic.Positivity
import Mathlib.Tactic.Ring
import AdditiveModel.Posterior.Property
import AdditiveModel.Proofs.Binary64Decimals
import AdditiveModel.Proofs.Names

/-! Names of quantiles. The probability is a decimal literal between zero and one in front of the word
`quant`; a line end may follow. -/

namespace AdditiveModel

namespace Text

namespace Digit

theorem runs_lengths : ∃ css, runs = .ofChars css ∧
    (CodePoints.ofChars css).ranges.toList.all (fun r => r.2 - r.1 < 10) = true ∧
    (CodePoints.ofChars css).ranges.toList.head? = some (48, 57) := by
  apply Exists.intro
  constructor
  · apply CodePoints.Spelled.ofLines
    repeat apply CodePoints.Spelled.cons rfl
    exact .nil
  · decide +kernel

theorem value_lt {c : Char} {d : Nat} (h : value? c = some d) : d < 10 := by
  obtain ⟨css, hruns, hlengths, -⟩ := runs_lengths
  rw [value?, hruns, Option.map_eq_some_iff] at h
  obtain ⟨r, hr, rfl⟩ := h
  have hrange : r.1 ≤ c.toNat ∧ c.toNat ≤ r.2 := by simpa using Array.find?_some hr
  have hmem := Array.mem_toList_iff.2 (Array.mem_of_find?_eq_some hr)
  have hlength := of_decide_eq_true (List.all_eq_true.1 hlengths r hmem)
  omega

theorem bounds_of_isDigit {c : Char} (h : c.isDigit = true) : 48 ≤ c.toNat ∧ c.toNat ≤ 57 := by
  simpa [Char.isDigit, UInt32.le_iff_toNat_le] using h

theorem value_of_isDigit {c : Char} (h : c.isDigit = true) : value? c = some (c.toNat - 48) := by
  obtain ⟨css, hruns, -, hhead⟩ := runs_lengths
  obtain ⟨rest, hranges⟩ : ∃ rest, (CodePoints.ofChars css).ranges.toList = (48, 57) :: rest :=
    List.head?_eq_some_iff.1 hhead
  have hfind : (CodePoints.ofChars css).ranges.find? (fun r => decide (r.1 ≤ c.toNat ∧ c.toNat ≤ r.2)) =
      some (48, 57) := by
    rw [← Array.find?_toList, hranges]
    exact List.find?_cons_of_pos (decide_eq_true (bounds_of_isDigit h))
  rw [value?, hruns, hfind]
  rfl

/-- What a digit counts; a character that is no digit counts nothing. -/
def count (c : Char) : Nat := (value? c).getD 0

theorem count_lt (c : Char) : count c < 10 := by
  unfold count
  cases h : value? c with
  | none => decide
  | some d => exact value_lt h

end Digit

namespace Numeral

theorem foldDigits_cons {c : Char} (h : Digit.isDigit c = true) (cs : List Char) :
    ∃ a, foldDigits (c :: cs) = a :: foldDigits cs ∧ a.toNat - 48 = Digit.count c := by
  obtain ⟨d, hd⟩ := Option.isSome_iff_exists.1 h
  have hchar : (Char.ofNat (48 + d)).toNat = 48 + d := by
    rw [Char.toNat_ofNat, if_pos (Or.inl (by have := Digit.value_lt hd; omega))]
  exact ⟨Char.ofNat (48 + d), by simp [foldDigits, hd], by simp [hchar, Digit.count, hd]⟩

theorem foldDigits_eq {cs : List Char} (h : ∀ c ∈ cs, c.isDigit = true) : foldDigits cs = cs := by
  refine (List.map_congr_left fun c hc => ?_).trans (List.map_id cs)
  have hdigit := Digit.bounds_of_isDigit (h c hc)
  have hvalue : 48 + (c.toNat - 48) = c.toNat := by omega
  simp only [Digit.value_of_isDigit (h c hc), hvalue, Char.ofNat_toNat, id]

def fraction : List Char → ℚ
  | [] => 0
  | c :: cs => (Digit.count c + fraction cs) / 10

theorem fraction_bounds (cs : List Char) : 0 ≤ fraction cs ∧ fraction cs ≤ 1 := by
  induction cs with
  | nil => simp [fraction]
  | cons c cs ih =>
    have hlt : (Digit.count c : ℚ) ≤ 9 := by exact_mod_cast Nat.le_of_lt_succ (Digit.count_lt c)
    have hnonneg : (0 : ℚ) ≤ Digit.count c := Nat.cast_nonneg _
    rw [fraction]
    constructor
    · linarith
    · linarith

theorem digitsValue_div {cs : List Char} (h : ∀ c ∈ cs, Digit.isDigit c = true) :
    (digitsValue (foldDigits cs) : ℚ) / 10 ^ cs.length = fraction cs := by
  have hfold (n : Nat) : (((foldDigits cs).foldl (fun acc c => 10 * acc + (c.toNat - 48)) n : Nat) : ℚ) /
      10 ^ cs.length = n + fraction cs := by
    induction cs generalizing n with
    | nil => simp [foldDigits, fraction]
    | cons c cs ih =>
      rw [List.forall_mem_cons] at h
      obtain ⟨a, hfold, ha⟩ := foldDigits_cons h.1 cs
      rw [hfold, List.foldl_cons, ha, List.length_cons, pow_succ, ← div_div, ih h.2, fraction]
      push_cast
      ring
  simpa [digitsValue] using hfold 0

end Numeral

end Text

namespace Property

open Text Text.Numeral

/-- The decimal literals that are a probability, with their values: zero with or without digits behind
a point, digits behind a point alone, or one with or without a point and zeros. -/
inductive Literal : List Char → ℚ → Prop
  | zero : Literal ['0'] 0
  | fraction {ds : List Char} : ds ≠ [] → (∀ d ∈ ds, Digit.isDigit d = true) →
      Literal ('0' :: '.' :: ds) (fraction ds)
  | point {ds : List Char} : ds ≠ [] → (∀ d ∈ ds, Digit.isDigit d = true) →
      Literal ('.' :: ds) (fraction ds)
  | one : Literal ['1'] 1
  | ones (n : Nat) : Literal ('1' :: '.' :: List.replicate n '0') 1

theorem Literal.bounds {cs : List Char} {v : ℚ} (h : Literal cs v) : 0 ≤ v ∧ v ≤ 1 := by
  cases h with
  | zero => simp
  | fraction | point => exact fraction_bounds _
  | one | ones => simp

def IsQuantile (v : ℚ) (p : Property) : Prop :=
  ∃ mantissa places : Nat, p = quantile mantissa places ∧ (mantissa : ℚ) / 10 ^ places = v

theorem digits_eq_some {ds cs : List Char} :
    digits? ds = some cs ↔ (∀ d ∈ ds, Digit.isDigit d = true) ∧ cs = foldDigits ds := by
  rw [digits?, Option.ite_none_right_eq_some, List.all_eq_true, Option.some_inj, @eq_comm _ cs]

theorem length_foldDigits (ds : List Char) : (foldDigits ds).length = ds.length := by
  simp [foldDigits]

theorem isQuantile_digits {ds : List Char} (h : ∀ d ∈ ds, Digit.isDigit d = true) :
    IsQuantile (Numeral.fraction ds) (quantile (digitsValue (foldDigits ds)) (foldDigits ds).length) :=
  ⟨_, _, rfl, by rw [length_foldDigits, digitsValue_div h]⟩

theorem isQuantile_ones (n : Nat) : IsQuantile 1 (quantile (Nat.pow 10 n) n) :=
  ⟨_, _, rfl, by rw [Nat.pow_eq, Nat.cast_pow]; exact div_self (by positivity)⟩

theorem Literal.probability {cs : List Char} {v : ℚ} (h : Literal cs v) :
    ∃ p, probability? cs = some p ∧ IsQuantile v p := by
  cases h with
  | zero => exact ⟨_, rfl, 0, 0, rfl, by simp⟩
  | one => exact ⟨_, rfl, 1, 0, rfl, by simp⟩
  | ones n => exact ⟨quantile (Nat.pow 10 n) n, by simp [probability?], isQuantile_ones n⟩
  | @fraction ds hne hds | @point ds hne hds =>
    obtain ⟨d, ds, rfl⟩ := List.exists_cons_of_ne_nil hne
    refine ⟨_, ?_, isQuantile_digits hds⟩
    rw [probability?, digits_eq_some.2 ⟨hds, rfl⟩, Option.map_some]

theorem literal_of_probability {cs : List Char} {p : Property} (h : probability? cs = some p) :
    ∃ v, Literal cs v := by
  unfold probability? at h
  split at h
  · exact ⟨_, .zero⟩
  · exact ⟨_, .one⟩
  · obtain ⟨ds, hds, -⟩ := Option.map_eq_some_iff.1 h
    exact ⟨_, .fraction (by simp) (digits_eq_some.1 hds).1⟩
  · obtain ⟨ds, hds, -⟩ := Option.map_eq_some_iff.1 h
    exact ⟨_, .point (by simp) (digits_eq_some.1 hds).1⟩
  · rename_i zeros
    split at h
    · rename_i hzeros
      have hreplicate : zeros = List.replicate zeros.length '0' := by
        rw [List.eq_replicate_iff]
        simpa using hzeros
      rw [hreplicate]
      exact ⟨_, .ones _⟩
    · cases h
  · cases h

/-- The text is a literal and the word for a quantile, and a line end may follow. -/
def Written (s : String) (cs : List Char) : Prop :=
  s.toList = cs ++ suffix ∨ s.toList = cs ++ suffix ++ ['\n']

theorem stem_eq_some {cs w : List Char} :
    stem? cs = some w ↔ cs = w ++ suffix ∨ cs = w ++ suffix ++ ['\n'] := by
  have hcut (whole : List Char) : (if suffix.isSuffixOf whole then
      some (whole.take (whole.length - suffix.length)) else none) = some w ↔ whole = w ++ suffix := by
    rw [Option.ite_none_right_eq_some, Option.some_inj, List.isSuffixOf_iff_suffix]
    constructor
    · rintro ⟨⟨w', rfl⟩, rfl⟩
      simp
    · rintro rfl
      simp
  unfold stem?
  dsimp only
  rw [hcut]
  split
  · rename_i rest hrest
    obtain rfl : cs = rest.reverse ++ ['\n'] := by simpa using congrArg List.reverse hrest
    constructor
    · intro h
      exact .inr (congrArg (· ++ ['\n']) h)
    · rintro (h | h)
      · have hlast := congrArg List.getLast? h
        simp [suffix] at hlast
      · exact List.append_cancel_right h
  · rename_i hne
    constructor
    · exact .inl
    · rintro (h | rfl)
      · exact h
      · exact absurd (by simp) (hne (w ++ suffix).reverse)

theorem Written.not_name {s : String} {cs : List Char} (h : Written s cs) : s ∉ Error.propertyNames := by
  intro hmem
  have hlast : s.toList.getLast? = some 't' ∨ s.toList.getLast? = some '\n' := by
    rcases h with h | h <;> simp [h, suffix]
  revert hlast
  have hnames : ∀ name ∈ Error.propertyNames,
      ¬ (name.toList.getLast? = some 't' ∨ name.toList.getLast? = some '\n') := by decide
  exact hnames s hmem

theorem ofName_of_not_name {s : String} (h : s ∉ Error.propertyNames) :
    ofName? s = (stem? s.toList).bind probability? := by
  unfold ofName?
  split
  case h_6 => rfl
  all_goals exact absurd (by decide) h

/-- A text that is none of the other names is read exactly when it is written as a quantile. -/
theorem ofName_eq_some {s : String} (h : s ∉ Error.propertyNames) {p : Property} :
    ofName? s = some p ↔ ∃ cs, Written s cs ∧ probability? cs = some p := by
  simp only [ofName_of_not_name h, Option.bind_eq_some_iff, stem_eq_some, Written]

theorem Written.read {s : String} {ds : List Char} (h : Written s ('0' :: '.' :: ds)) (hne : ds ≠ [])
    (hds : ∀ d ∈ ds, d.isDigit = true) : ofName? s = some (quantile (digitsValue ds) ds.length) := by
  have hdigits : ∀ d ∈ ds, Digit.isDigit d = true := fun d hd => by
    rw [Digit.isDigit, Digit.value_of_isDigit (hds d hd), Option.isSome_some]
  refine (ofName_eq_some h.not_name).2 ⟨_, h, ?_⟩
  obtain ⟨d, ds, rfl⟩ := List.exists_cons_of_ne_nil hne
  rw [probability?, digits_eq_some.2 ⟨hdigits, rfl⟩, foldDigits_eq hds, Option.map_some]

variable {F : Type} [Scalar F]

theorem ofName_of_name {s : String} (h : s ∈ Error.propertyNames) :
    ∃ p, ofName? s = some p ∧ p.kindName = s ∧ (p.probability : Option F) = none := by
  fin_cases h
  all_goals exact ⟨_, rfl, rfl, rfl⟩

theorem ofValue_str (s : String) : ofValue? (.str s : Value F) =
    match ofName? s with
    | some p => .ok p
    | none => .error (.property (Value.str s : Value F).display) := rfl

theorem ofValue_eq_ok {s : String} {p : Property} :
    ofValue? (.str s : Value F) = .ok p ↔ ofName? s = some p := by
  rw [ofValue_str]
  cases ofName? s <;> simp

theorem ofValue_eq_error {s : String} {e : Error} : ofValue? (.str s : Value F) = .error e ↔
    ofName? s = none ∧ e = .property (Value.str s : Value F).display := by
  rw [ofValue_str]
  cases ofName? s <;> simp [eq_comm]

/-- The probability of a quantile is the number nearest to its value, and lies between zero and one. -/
theorem IsQuantile.probability [UnitDecimals F] {v : ℚ} {p : Property} (h : IsQuantile v p) (hv : v ≤ 1) :
    p.kindName = "quantile" ∧ ∃ (m k : Nat) (x : F), (m : ℚ) / 10 ^ k = v ∧
      x = Scalar.ofDecimal m (-(k : Int)) ∧ p.probability = some x ∧
      Scalar.le Scalar.zero x = true ∧ Scalar.le x Scalar.one = true := by
  obtain ⟨m, k, rfl, hvalue⟩ := h
  have hle : m ≤ 10 ^ k := by
    rw [← hvalue, div_le_one (by positivity)] at hv
    exact_mod_cast hv
  exact ⟨rfl, m, k, _, hvalue, rfl, rfl, UnitDecimals.bounds hle⟩

/-- A text names a property exactly when it is one of the five names, or a literal and the word for a
quantile, with or without a line end. The literal is the probability, and every other text is
refused. -/
theorem reads_literals (s : String) :
    ((∃ p, ofValue? (.str s : Value Float) = .ok p) ↔
      s ∈ Error.propertyNames ∨ ∃ cs v, Literal cs v ∧ Written s cs) ∧
    (s ∈ Error.propertyNames → ∃ p, ofValue? (.str s : Value Float) = .ok p ∧ p.kindName = s ∧
      (p.probability : Option Float) = none) ∧
    (∀ cs v, Literal cs v → Written s cs → (0 ≤ v ∧ v ≤ 1) ∧
      ∃ p, ofValue? (.str s : Value Float) = .ok p ∧ p.kindName = "quantile" ∧
        ∃ (m k : Nat) (x : Float), (m : ℚ) / 10 ^ k = v ∧ x = Scalar.ofDecimal m (-(k : Int)) ∧
          p.probability = some x ∧ Scalar.le Scalar.zero x = true ∧ Scalar.le x Scalar.one = true) ∧
    ∀ e, ofValue? (.str s : Value Float) = .error e →
      e = .property (Value.str s : Value Float).display ∧ e.category = .configuration := by
  refine ⟨⟨?_, ?_⟩, fun hname => ?_, fun cs v hliteral hwritten => ⟨hliteral.bounds, ?_⟩, fun e he => ?_⟩
  · rintro ⟨p, hp⟩
    by_cases hname : s ∈ Error.propertyNames
    · exact .inl hname
    · obtain ⟨cs, hwritten, hcs⟩ := (ofName_eq_some hname).1 (ofValue_eq_ok.1 hp)
      obtain ⟨v, hliteral⟩ := literal_of_probability hcs
      exact .inr ⟨cs, v, hliteral, hwritten⟩
  · rintro (hname | ⟨cs, v, hliteral, hwritten⟩)
    · obtain ⟨p, hp, -⟩ := ofName_of_name (F := Float) hname
      exact ⟨p, ofValue_eq_ok.2 hp⟩
    · obtain ⟨p, hp, -⟩ := hliteral.probability
      exact ⟨p, ofValue_eq_ok.2 ((ofName_eq_some hwritten.not_name).2 ⟨cs, hwritten, hp⟩)⟩
  · obtain ⟨p, hp, hkind, hnone⟩ := ofName_of_name (F := Float) hname
    exact ⟨p, ofValue_eq_ok.2 hp, hkind, hnone⟩
  · obtain ⟨p, hp, hquantile⟩ := hliteral.probability
    exact ⟨p, ofValue_eq_ok.2 ((ofName_eq_some hwritten.not_name).2 ⟨cs, hwritten, hp⟩),
      hquantile.probability hliteral.bounds.2⟩
  · obtain ⟨-, rfl⟩ := ofValue_eq_error.1 he
    exact ⟨rfl, rfl⟩

/-- The text `0.5quant` with one line end, which is read although nothing may follow a literal and the
word. -/
theorem line_end_read : ofValue? (.str "0.5quant\n" : Value Float) = .ok (quantile 5 1) ∧
    "0.5quant\n" ∉ Error.propertyNames ∧ ¬ ∃ cs v, Literal cs v ∧ "0.5quant\n".toList = cs ++ suffix := by
  have hwritten : Written "0.5quant\n" ['0', '.', '5'] := .inr (by decide +kernel)
  have hread := hwritten.read (List.cons_ne_nil _ _) (List.forall_mem_singleton.2 rfl)
  refine ⟨ofValue_eq_ok.2 hread, by decide, ?_⟩
  rintro ⟨cs, v, -, h⟩
  have hlast := congrArg List.getLast? h
  simp [suffix] at hlast

end Property

end AdditiveModel
