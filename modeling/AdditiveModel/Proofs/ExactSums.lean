import AdditiveModel.Proofs.ExactOrder
import AdditiveModel.Real.Summation
import Mathlib.Algebra.Order.BigOperators.Group.List

/-! Sums, means and deviations of exact numbers. However the terms are grouped, their sum is the sum; the
mean is between the least and the greatest number, and the deviation is zero for equal numbers only. None
of them depends on the order of the numbers. -/

namespace AdditiveModel.Summation

variable {F : Type} [Scalar F]

section Sums

variable [Exact F]

theorem scalarSum_eq (xs : List F) : Scalar.sum xs = xs.foldr (· + ·) Scalar.zero := by
  induction xs with
  | nil => rfl
  | cons x xs ih => rw [Exact.sum_cons, ih, List.foldr_cons]

theorem scalarSum_append (xs ys : List F) : Scalar.sum (xs ++ ys) = Scalar.sum xs + Scalar.sum ys := by
  let := Exact.commRing F
  rw [scalarSum_eq, scalarSum_eq, scalarSum_eq]
  exact List.sum_append

theorem scalarSum_zipWith {xs ys : List F} (h : xs.length = ys.length) :
    Scalar.sum (List.zipWith (· + ·) xs ys) = Scalar.sum xs + Scalar.sum ys := by
  let := Exact.commRing F
  rw [scalarSum_eq, scalarSum_eq, scalarSum_eq]
  exact (List.sum_add_sum_eq_sum_zipWith_of_length_eq xs ys h).symm

theorem foldl_eq (x : F) (xs : List F) : xs.foldl (· + ·) x = x + Scalar.sum xs := by
  let := Exact.commRing F
  induction xs generalizing x with
  | nil => exact (add_zero x).symm
  | cons y xs ih => rw [List.foldl_cons, ih, Exact.sum_cons, Exact.add_assoc]

theorem lanes_spec {acc : List F} (hacc : acc.length = 8) (xs : List F) :
    (lanes acc xs).1.length = 8 ∧
      Scalar.sum (lanes acc xs).1 + Scalar.sum (lanes acc xs).2 = Scalar.sum acc + Scalar.sum xs := by
  fun_induction lanes acc xs with
  | case1 acc a b c d e f g h rest ih =>
    have hlength : acc.length = [a, b, c, d, e, f, g, h].length := hacc
    obtain ⟨height, hsum⟩ := ih (by simp [hacc])
    refine ⟨height, hsum.trans ?_⟩
    rw [scalarSum_zipWith hlength, Exact.add_assoc, ← scalarSum_append]
    rfl
  | case2 acc xs => exact ⟨hacc, rfl⟩

theorem join_eq {acc : List F} (hacc : acc.length = 8) : join acc = Scalar.sum acc := by
  let := Exact.commRing F
  match acc, hacc with
  | [a, b, c, d, e, f, g, h], _ =>
    simp only [join, scalarSum_eq, List.foldr_cons, List.foldr_nil]
    change _ = a + (b + (c + (d + (e + (f + (g + (h + 0)))))))
    ring

theorem block_eq (xs : List F) : block xs = Scalar.sum xs := by
  unfold block
  split
  · rename_i a b c d e f g h rest
    have hlanes : [a, b, c, d, e, f, g, h].length = 8 := rfl
    obtain ⟨height, hsum⟩ := lanes_spec hlanes rest
    change (lanes [a, b, c, d, e, f, g, h] rest).2.foldl (· + ·)
      (join (lanes [a, b, c, d, e, f, g, h] rest).1) = _
    rw [foldl_eq, join_eq height, hsum, ← scalarSum_append]
    rfl
  · rfl

theorem pairwise_eq (fuel : Nat) (xs : List F) : pairwise fuel xs = Scalar.sum xs := by
  induction fuel generalizing xs with
  | zero => exact block_eq xs
  | succ fuel ih =>
    simp only [pairwise]
    split
    · exact block_eq xs
    · rw [ih, ih, ← scalarSum_append, List.take_append_drop]

theorem sum_eq (xs : List F) : sum xs = Scalar.sum xs := by
  rw [sum, pairwise_eq]
  exact Exact.zero_add _

theorem sum_perm {xs ys : List F} (h : xs.Perm ys) : sum xs = sum ys := by
  let := Exact.commRing F
  rw [sum_eq, sum_eq, scalarSum_eq, scalarSum_eq]
  exact h.sum_eq

theorem mean_perm {xs ys : List F} (h : xs.Perm ys) : mean xs = mean ys := by
  rw [mean, mean, sum_perm h, h.length_eq]

theorem deviation_perm {xs ys : List F} (h : xs.Perm ys) : deviation xs = deviation ys := by
  simp only [deviation, mean_perm h, h.length_eq]
  rw [sum_perm (h.map _)]

end Sums

section Bounds

variable [ExactOrder F]

theorem mean_mul {xs : List F} (h : xs ≠ []) : mean xs * Scalar.ofInt xs.length = Scalar.sum xs := by
  let := Exact.commRing F
  let := ExactOrder.linearOrder F
  have := ExactOrder.isStrictOrderedRing F
  have hcount : (Scalar.ofInt xs.length : F) ≠ 0 := by
    rw [ExactOrder.ofInt_eq, Int.cast_natCast]
    exact Nat.cast_ne_zero.2 (List.length_pos_of_ne_nil h).ne'
  rw [← sum_eq, mean]
  exact Exact.div_mul_cancel _ hcount

theorem mean_between {a b : F} {xs : List F} (h : xs ≠ []) (ha : ∀ x ∈ xs, Scalar.le a x = true)
    (hb : ∀ x ∈ xs, Scalar.le x b = true) :
    Scalar.le a (mean xs) = true ∧ Scalar.le (mean xs) b = true := by
  let := Exact.commRing F
  let := ExactOrder.linearOrder F
  have := ExactOrder.isStrictOrderedRing F
  have hpos : (0 : F) < xs.length := Nat.cast_pos.2 (List.length_pos_of_ne_nil h)
  have hmean : mean xs * xs.length = xs.sum := by
    rw [← Int.cast_natCast, ← ExactOrder.ofInt_eq, mean_mul h, scalarSum_eq]
    rfl
  have hlow : xs.length • a ≤ xs.sum := List.card_nsmul_le_sum xs a ha
  have hhigh : xs.sum ≤ xs.length • b := List.sum_le_card_nsmul xs b hb
  rw [nsmul_eq_mul, mul_comm, ← hmean] at hlow
  rw [nsmul_eq_mul, mul_comm _ b, ← hmean] at hhigh
  exact ⟨le_of_mul_le_mul_right hlow hpos, le_of_mul_le_mul_right hhigh hpos⟩

theorem squares_nonneg (m : F) (xs : List F) : ∀ s ∈ xs.map fun x => (x - m) * (x - m),
    Scalar.le Scalar.zero s = true := by
  let := Exact.commRing F
  let := ExactOrder.linearOrder F
  have := ExactOrder.isStrictOrderedRing F
  intro s hs
  obtain ⟨x, -, rfl⟩ := List.mem_map.1 hs
  exact mul_self_nonneg (x - m)

/-- Squared distances do not add up to a negative number, and to zero only where there is no distance. -/
theorem sum_squares (m : F) (xs : List F) :
    Scalar.le Scalar.zero (Scalar.sum (xs.map fun x => (x - m) * (x - m))) = true ∧
      (Scalar.sum (xs.map fun x => (x - m) * (x - m)) = Scalar.zero ↔ ∀ x ∈ xs, x = m) := by
  let := Exact.commRing F
  let := ExactOrder.linearOrder F
  have := ExactOrder.isStrictOrderedRing F
  have hsquares := squares_nonneg m xs
  rw [scalarSum_eq]
  refine ⟨List.sum_nonneg hsquares, fun hsum x hx => ?_, fun hmean => ?_⟩
  · have hzero := List.all_zero_of_le_zero_le_of_sum_eq_zero hsquares hsum (List.mem_map_of_mem hx)
    exact sub_eq_zero.1 (mul_self_eq_zero.1 hzero)
  · refine List.sum_eq_zero fun s hs => ?_
    obtain ⟨x, hx, rfl⟩ := List.mem_map.1 hs
    rw [hmean x hx, sub_self, zero_mul]

theorem deviation_eq_zero {xs : List F} (h : 1 < xs.length) :
    deviation xs = Scalar.zero ↔ ∀ x ∈ xs, ∀ y ∈ xs, x = y := by
  let := Exact.commRing F
  let := ExactOrder.linearOrder F
  have := ExactOrder.isStrictOrderedRing F
  have hne : xs ≠ [] := List.ne_nil_of_length_pos (by omega)
  have hcount : (0 : F) < Scalar.ofInt (xs.length - 1 : Int) := by
    rw [ExactOrder.ofInt_eq, Int.cast_pos]
    omega
  let squares := xs.map fun x => (x - mean xs) * (x - mean xs)
  obtain ⟨hsum, hzero⟩ := sum_squares (mean xs) xs
  have hquotient : sum squares / Scalar.ofInt (xs.length - 1 : Int) * Scalar.ofInt (xs.length - 1 : Int) =
      Scalar.sum squares := by
    rw [Exact.div_mul_cancel _ hcount.ne', sum_eq]
  have hnonneg : 0 ≤ sum squares / Scalar.ofInt (xs.length - 1 : Int) := by
    refine nonneg_of_mul_nonneg_left ?_ hcount
    rw [hquotient]
    exact hsum
  have hmean : (∀ x ∈ xs, x = mean xs) ↔ ∀ x ∈ xs, ∀ y ∈ xs, x = y := by
    constructor
    · intro hmean x hx y hy
      rw [hmean x hx, hmean y hy]
    · intro hsame x hx
      obtain ⟨hlow, hhigh⟩ := mean_between hne (fun y hy => (hsame x hx y hy).le)
        (fun y hy => (hsame y hy x hx).le)
      exact ExactOrder.le_antisymm hlow hhigh
  calc deviation xs = Scalar.zero
      ↔ sum squares / Scalar.ofInt (xs.length - 1 : Int) = 0 := ExactOrder.sqrt_eq_zero hnonneg
    _ ↔ Scalar.sum squares = 0 := by rw [← hquotient, mul_eq_zero, or_iff_left hcount.ne']
    _ ↔ ∀ x ∈ xs, x = mean xs := hzero
    _ ↔ ∀ x ∈ xs, ∀ y ∈ xs, x = y := hmean

end Bounds

end AdditiveModel.Summation
