import AdditiveModel.Mapper.Difference
import AdditiveModel.Proofs.ExactOrder
import AdditiveModel.Proofs.Selection

/-! Forward differences. Without rounding a difference quotient in one coordinate, times the step in
this coordinate, is the change of the value, so the quotients of an affine function are its
coefficients, whatever the point and the step. -/

namespace AdditiveModel

variable {F : Type} [Scalar F] [Exact F]

theorem Exact.mul_div_cancel (a : F) {h : F} (hh : h ≠ Scalar.zero) : a * h / h = a := by
  let := Exact.commRing F
  have hunit : h * (Scalar.one / h) = 1 := by
    rw [mul_comm]
    exact Exact.div_mul_cancel _ hh
  calc a * h / h = a * h / h * h * (Scalar.one / h) := by rw [mul_assoc, hunit, mul_one]
    _ = a * h * (Scalar.one / h) := by rw [Exact.div_mul_cancel _ hh]
    _ = a := by rw [mul_assoc, hunit, mul_one]

namespace Mapper.Difference

theorem dot_cons (a b : F) (row x : List F) :
    Scalar.dot (a :: row) (b :: x) = a * b + Scalar.dot row x := by
  rw [Scalar.dot, List.zipWith_cons_cons, Exact.sum_cons, Scalar.dot]

/-- A step in one coordinate changes a linear form by the coefficient of the coordinate. -/
theorem dot_modify {row x : List F} {i : Nat} (hlen : row.length = x.length) (hi : i < x.length)
    (h : F → F) :
    Scalar.dot row (x.modify i fun v => v + h v) =
      Scalar.dot row x + row.getD i Scalar.zero * h (x.getD i Scalar.zero) := by
  let := Exact.commRing F
  induction row generalizing x i with
  | nil => simp [← hlen] at hi
  | cons a row ih =>
    obtain ⟨b, x, rfl⟩ := List.exists_cons_of_ne_nil (List.ne_nil_of_length_pos (Nat.zero_lt_of_lt hi))
    rw [List.length_cons, List.length_cons, Nat.succ_inj] at hlen
    cases i with
    | zero =>
      simp only [List.modify_zero_cons, dot_cons, List.getD_cons_zero]
      ring
    | succ i =>
      simp only [List.modify_succ_cons, dot_cons, List.getD_cons_succ,
        ih hlen (Nat.lt_of_succ_lt_succ hi)]
      ring

omit [Exact F] in
@[simp] theorem length_moved (step : F) (x : List F) (i : Nat) : (moved step x i).length = x.length :=
  List.length_modify ..

/-- The points that the difference quotients read: the point itself and each move of one coordinate. -/
def stencil (step : F) (x : List F) : List (List F) := x :: (List.range x.length).map (moved step x)

/-- At every vector of length `n` the function has the `k` values of `g`. -/
structure ValuedFunction (f : List F → Except Error (List F)) (n k : Nat) (g : List F → List F) :
    Prop where
  values {t : List F} : t.length = n → f t = .ok (g t)
  count {t : List F} : t.length = n → (g t).length = k

def quotient (g : List F → List F) (step : F) (x : List F) (i : Nat) : List F :=
  (List.zipWith (· - ·) (g (moved step x i)) (g x)).map (· / stepAt step (x.getD i Scalar.zero))

def quotients (k : Nat) (g : List F → List F) (step : F) (x : List F) : List (List F) :=
  transpose k ((List.range x.length).map (quotient g step x))

section Valued

variable {f : List F → Except Error (List F)} {n k : Nat} {g : List F → List F} {step : F} {x : List F}

omit [Exact F] in
theorem length_quotients : (quotients k g step x).length = k := by simp [quotients, transpose]

omit [Exact F] in
theorem length_of_mem_quotients {row : List F} (h : row ∈ quotients k g step x) :
    row.length = x.length := by
  obtain ⟨i, -, rfl⟩ := List.mem_map.1 h
  simp

omit [Exact F] in
theorem ValuedFunction.column_eq (h : ValuedFunction f n k g) (hx : x.length = n) (i : Nat) :
    column? f step x (g x) i = .ok (quotient g step x i) := by
  have hmoved : (moved step x i).length = n := by rw [length_moved, hx]
  simp only [column?, h.values hmoved, bind, Except.bind]
  rw [pairwise_of_length (by rw [h.count hmoved, h.count hx])]
  simp only [lift, pure, Except.pure, fit?]
  simp [quotient, h.count hmoved, h.count hx]

omit [Exact F] in
theorem ValuedFunction.jacobian_eq (h : ValuedFunction f n k g) (hx : x.length = n) :
    jacobian? f step x = .ok (quotients k g step x) := by
  have hcolumns : (List.range x.length).mapM (column? f step x (g x)) =
      .ok ((List.range x.length).map (quotient g step x)) :=
    mapM_eq_ok_map fun i _ => h.column_eq hx i
  simp only [jacobian?, h.values hx, hcolumns, bind, Except.bind, pure, Except.pure, h.count hx]
  rfl

/-- A row of quotients times the step in one coordinate is the change of the value. -/
theorem ValuedFunction.dot_quotients (h : ValuedFunction f n k g) (hx : x.length = n) {i j : Nat}
    (hi : i < n) (hj : j < k) (hstep : stepAt step (x.getD i Scalar.zero) ≠ Scalar.zero) {row : List F}
    (hrow : (quotients k g step x)[j]? = some row) :
    Scalar.dot row (moved step x i) =
      Scalar.dot row x + ((g (moved step x i)).getD j Scalar.zero - (g x).getD j Scalar.zero) := by
  have hmoved : (moved step x i).length = n := by rw [length_moved, hx]
  have hentry : row.getD i Scalar.zero =
      ((g (moved step x i)).getD j Scalar.zero - (g x).getD j Scalar.zero) /
        stepAt step (x.getD i Scalar.zero) := by
    have hall : row = (List.range x.length).map fun i => (quotient g step x i).getD j Scalar.zero := by
      simpa [quotients, transpose, hj, Function.comp_def] using hrow.symm
    subst hall
    simp [quotient, hx, hi, hj, h.count hmoved, h.count hx]
  have hlength := length_of_mem_quotients (List.mem_of_getElem? hrow)
  rw [moved, dot_modify hlength (hx ▸ hi), hentry, Exact.div_mul_cancel _ hstep]
  rfl

end Valued

/-- A function with the values `fixed` plus `rows` times the vector, at every vector of length `n`. -/
structure AffineFunction (f : List F → Except Error (List F)) (n : Nat) (fixed : List F)
    (rows : List (List F)) : Prop where
  count : rows.length = fixed.length
  width : ∀ row ∈ rows, row.length = n
  values {s : List F} : s.length = n →
    f s = .ok (List.zipWith (· + ·) fixed (rows.map (Scalar.dot · s)))

namespace AffineFunction

variable {f : List F → Except Error (List F)} {n : Nat} {fixed : List F} {rows : List (List F)} {step : F}
  {x : List F}

omit [Exact F] in
theorem valued (h : AffineFunction f n fixed rows) :
    ValuedFunction f n fixed.length fun s => List.zipWith (· + ·) fixed (rows.map (Scalar.dot · s)) where
  values := h.values
  count _ := by simp [h.count]

theorem quotient_eq (h : AffineFunction f n fixed rows) (hx : x.length = n) {i : Nat} (hi : i < n)
    (hstep : stepAt step (x.getD i Scalar.zero) ≠ Scalar.zero) :
    quotient (fun s => List.zipWith (· + ·) fixed (rows.map (Scalar.dot · s))) step x i =
      rows.map (·.getD i Scalar.zero) := by
  let := Exact.commRing F
  apply List.ext_getElem (by simp [quotient, h.count])
  intro k hk hk'
  rw [List.length_map] at hk'
  have hrow : (rows[k]).length = x.length := by rw [h.width _ (List.getElem_mem hk'), hx]
  have hfixed : k < fixed.length := h.count ▸ hk'
  have hdifference : fixed[k] + (Scalar.dot rows[k] x +
      (rows[k]).getD i Scalar.zero * stepAt step (x.getD i Scalar.zero)) -
      (fixed[k] + Scalar.dot rows[k] x) =
        (rows[k]).getD i Scalar.zero * stepAt step (x.getD i Scalar.zero) := by
    ring
  simp only [quotient, List.getElem_map, List.getElem_zipWith, moved, dot_modify hrow (hx ▸ hi),
    hdifference, Exact.mul_div_cancel _ hstep]

/-- The matrix of difference quotients of an affine function is its coefficients. -/
theorem jacobian_eq (h : AffineFunction f n fixed rows) (hx : x.length = n)
    (hstep : ∀ v ∈ x, stepAt step v ≠ Scalar.zero) : jacobian? f step x = .ok rows := by
  have hcolumns : (List.range x.length).map
      (quotient (fun s => List.zipWith (· + ·) fixed (rows.map (Scalar.dot · s))) step x) =
        (List.range x.length).map fun i => rows.map (·.getD i Scalar.zero) := by
    refine List.map_congr_left fun i hi => ?_
    rw [List.mem_range] at hi
    have hget : x.getD i Scalar.zero = x[i] := by simp [hi]
    exact h.quotient_eq hx (hx ▸ hi) (hget ▸ hstep _ (List.getElem_mem hi))
  rw [h.valued.jacobian_eq hx, quotients, hcolumns]
  refine congrArg Except.ok (List.ext_getElem (by simp [transpose, h.count]) fun k hk hk' => ?_)
  have hwidth : (rows[k]).length = x.length := by rw [h.width _ (List.getElem_mem hk'), hx]
  refine List.ext_getElem (by simp [transpose, hwidth]) fun i hi hi' => ?_
  simp [transpose, hk', hi']

end AffineFunction

omit [Exact F] in
theorem stepAt_pos [ExactOrder F] {step : F} (h : Scalar.lt Scalar.zero step = true) (v : F) :
    Scalar.lt Scalar.zero (stepAt step v) = true := by
  let := Exact.commRing F
  let := ExactOrder.linearOrder F
  have := ExactOrder.isStrictOrderedRing F
  have hsize : 0 ≤ Scalar.abs v := ExactOrder.abs_nonneg v
  have hone : (0 : F) < Scalar.one := ExactOrder.one_pos
  exact ExactOrder.mul_pos h (add_pos_of_nonneg_of_pos hsize hone)

omit [Exact F] in
theorem stepAt_ne_zero [ExactOrder F] {step : F} (h : Scalar.lt Scalar.zero step = true) (v : F) :
    stepAt step v ≠ Scalar.zero := by
  let := ExactOrder.linearOrder F
  have hpos : Scalar.zero < stepAt step v := stepAt_pos h v
  exact hpos.ne'

end Mapper.Difference

end AdditiveModel
