import AdditiveModel.Mapper.Sparse
import AdditiveModel.Proofs.Exact
import AdditiveModel.Proofs.Lists
import Mathlib.Tactic.Ring

/-! Matrices given by their entries, as linear functions: what the product with a vector is, row by
row, and that it is linear when nothing is rounded. -/

namespace AdditiveModel

namespace Sparse

variable {F : Type}

def Bounded (A : Sparse F) : Prop := ∀ e ∈ A.entries, e.1 < A.rows ∧ e.2.1 < A.columns

def inRow (i : Nat) (e : Nat × Nat × F) : Option (Nat × F) :=
  if e.1 == i then some (e.2.1, e.2.2) else none

theorem row_eq (A : Sparse F) (i : Nat) : A.row i = A.entries.filterMap (inRow i) := rfl

theorem Bounded.row {A : Sparse F} (h : A.Bounded) {i : Nat} {e : Nat × F} (he : e ∈ A.row i) :
    e.1 < A.columns := by
  rw [row_eq, List.mem_filterMap] at he
  obtain ⟨a, ha, hae⟩ := he
  unfold inRow at hae
  split at hae
  · cases hae
    exact (h a ha).2
  · simp at hae

/-- Rows of a matrix that is made of one part for each item, where a row is in one part only. -/
theorem row_flatMap {α : Type} {l : List α} {f : α → List (Nat × Nat × F)} {rows columns i : Nat} {a : α}
    (hl : l.Nodup) (ha : a ∈ l) (h : ∀ x ∈ l, x ≠ a → ∀ e ∈ f x, e.1 ≠ i) :
    row ⟨rows, columns, l.flatMap f⟩ i = (f a).filterMap (inRow i) := by
  rw [row_eq, List.filterMap_flatMap]
  refine flatMap_unique hl ha fun x hx hxa => ?_
  rw [List.filterMap_eq_nil_iff]
  intro e he
  simp [inRow, h x hx hxa e he]

variable [Scalar F]

theorem length_apply (A : Sparse F) (x : List F) : (A.apply x).length = A.rows := by
  simp [apply]

theorem Bounded.apply_of_columns {A : Sparse F} (h : A.Bounded) (hcolumns : A.columns = 0)
    (x : List F) : A.apply x = List.replicate A.rows Scalar.zero := by
  have hrow (i : Nat) : A.row i = [] := by
    rw [List.eq_nil_iff_forall_not_mem]
    intro e he
    have := h.row he
    omega
  have hproduct (i : Nat) : rowProduct (A.row i) x = Scalar.zero := by
    rw [hrow]
    rfl
  simp [apply, hproduct]

theorem row_ofRows {columns : Nat} {rows : List (List F)} {i : Nat} {row : List F}
    (h : rows[i]? = some row) :
    (ofRows columns rows).row i =
      row.zipIdx.filterMap fun (v, j) => if Scalar.isZero v then none else some (j, v) := by
  have hmem : (row, i) ∈ rows.zipIdx := List.mk_mem_zipIdx_iff_getElem?.2 h
  rw [ofRows, row_flatMap (nodup_zipIdx rows) hmem]
  · simp only [entriesOfRow, List.filterMap_filterMap]
    refine List.filterMap_congr fun p _ => ?_
    obtain ⟨v, j⟩ := p
    by_cases hv : Scalar.isZero v = true <;> simp [hv, inRow]
  · rintro ⟨row', i'⟩ hrow' hne e he rfl
    simp only [entriesOfRow, List.mem_filterMap, Prod.exists] at he
    obtain ⟨v, j, -, hv⟩ := he
    split at hv
    · simp at hv
    · cases hv
      rw [List.mk_mem_zipIdx_iff_getElem?.1 hrow', Option.some_inj] at h
      exact hne (by rw [h])

theorem bounded_ofRows {columns : Nat} {rows : List (List F)} (h : ∀ row ∈ rows, row.length ≤ columns) :
    (ofRows columns rows).Bounded := by
  intro e he
  simp only [ofRows, entriesOfRow, List.mem_flatMap, List.mem_filterMap, Prod.exists] at he
  obtain ⟨row, i, hrow, v, j, hv, he⟩ := he
  split at he
  · simp at he
  · cases he
    have hi := List.mk_mem_zipIdx_iff_getElem?.1 hrow
    have hj := List.mk_mem_zipIdx_iff_getElem?.1 hv
    refine ⟨(List.getElem?_eq_some_iff.1 hi).1, ?_⟩
    exact Nat.lt_of_lt_of_le (List.getElem?_eq_some_iff.1 hj).1 (h row (List.mem_of_getElem? hi))

theorem rowProduct_shift {entries : List (Nat × F)} {m : Nat} (h : ∀ e ∈ entries, e.1 < m) (k : Nat)
    (x : List F) :
    rowProduct (entries.map fun e => (e.1 + k, e.2)) x = rowProduct entries ((x.drop k).take m) := by
  unfold rowProduct
  rw [List.map_map]
  refine congrArg Scalar.sum (List.map_congr_left fun e he => ?_)
  simp [h e he, Nat.add_comm k]

theorem row_scaleRows (A : Sparse F) (factors : List F) (i : Nat) :
    (A.scaleRows factors).row i =
      (A.row i).map fun e => (e.1, factors.getD i Scalar.zero * e.2) := by
  simp only [row_eq, scaleRows, List.filterMap_map, List.map_filterMap]
  refine List.filterMap_congr fun e _ => ?_
  by_cases h : e.1 = i <;> simp [inRow, h]

section Exact

variable [Exact F]

theorem rowProduct_cons (e : Nat × F) (entries : List (Nat × F)) (x : List F) :
    rowProduct (e :: entries) x = e.2 * x.getD e.1 Scalar.zero + rowProduct entries x := by
  simp only [rowProduct, List.map_cons, Exact.sum_cons]

theorem rowProduct_scale (entries : List (Nat × F)) (u : F) (x : List F) :
    rowProduct (entries.map fun e => (e.1, u * e.2)) x = u * rowProduct entries x := by
  let := Exact.commRing F
  induction entries with
  | nil => exact (mul_zero u).symm
  | cons e entries ih =>
    rw [List.map_cons, rowProduct_cons, rowProduct_cons, ih]
    ring

theorem rowProduct_sub (entries : List (Nat × F)) {x y : List F} (h : x.length = y.length) :
    rowProduct entries (List.zipWith (· - ·) x y) = rowProduct entries x - rowProduct entries y := by
  let := Exact.commRing F
  have hget (j : Nat) : (List.zipWith (· - ·) x y).getD j Scalar.zero =
      x.getD j Scalar.zero - y.getD j Scalar.zero := by
    by_cases hj : j < x.length
    · simp [hj, h ▸ hj]
    · simp only [List.getD_eq_getElem?_getD]
      rw [List.getElem?_eq_none (by simp; omega), List.getElem?_eq_none (by omega),
        List.getElem?_eq_none (by rw [← h]; exact Nat.le_of_not_lt hj)]
      exact (sub_zero _).symm
  induction entries with
  | nil => exact (sub_zero _).symm
  | cons e entries ih =>
    rw [rowProduct_cons, rowProduct_cons, rowProduct_cons, ih, hget]
    ring

theorem rowProduct_zeros (entries : List (Nat × F)) (n : Nat) :
    rowProduct entries (List.replicate n Scalar.zero) = Scalar.zero := by
  let := Exact.commRing F
  have hget (j : Nat) : (List.replicate n (Scalar.zero : F)).getD j Scalar.zero = 0 := by
    rw [List.getD_eq_getElem?_getD, List.getElem?_replicate]
    split <;> rfl
  induction entries with
  | nil => rfl
  | cons e entries ih =>
    rw [rowProduct_cons, ih, hget, mul_zero]
    exact zero_add _

theorem rowProduct_ofRows {columns : Nat} {rows : List (List F)} {i : Nat} {row x : List F}
    (h : rows[i]? = some row) (hx : row.length ≤ x.length) :
    rowProduct ((ofRows columns rows).row i) x = Scalar.dot row x := by
  let := Exact.commRing F
  have hall (l : List (F × Nat)) :
      rowProduct (l.filterMap fun (v, j) => if Scalar.isZero v then none else some (j, v)) x =
        Scalar.sum (l.map fun (v, j) => v * x.getD j Scalar.zero) := by
    induction l with
    | nil => rfl
    | cons e l ih =>
      obtain ⟨v, j⟩ := e
      rw [List.map_cons, Exact.sum_cons, ← ih]
      by_cases hv : Scalar.isZero v = true
      · rw [List.filterMap_cons_none (by simp [hv]), Exact.isZero_iff.1 hv]
        exact ((congrArg (· + _) (zero_mul _)).trans (zero_add _)).symm
      · rw [List.filterMap_cons_some (b := (j, v)) (by simp [hv]), rowProduct_cons]
  have hzip : (row.zipIdx.map fun (v, j) => v * x.getD j Scalar.zero) = List.zipWith (· * ·) row x := by
    apply List.ext_getElem (by simp [hx])
    intro j hj _
    have hj' : j < x.length := by
      rw [List.length_map, List.length_zipIdx] at hj
      omega
    simp [hj']
  rw [row_ofRows h, hall, hzip, Scalar.dot]

theorem apply_ofRows {columns : Nat} {rows : List (List F)} {x : List F}
    (h : ∀ row ∈ rows, row.length ≤ x.length) :
    (ofRows columns rows).apply x = rows.map (Scalar.dot · x) := by
  apply List.ext_getElem (by simp [apply, ofRows])
  intro i hi hi'
  rw [List.length_map] at hi'
  simp only [apply, List.getElem_map, List.getElem_range]
  exact rowProduct_ofRows (List.getElem?_eq_getElem hi') (h _ (List.getElem_mem hi'))

end Exact

end Sparse

end AdditiveModel
