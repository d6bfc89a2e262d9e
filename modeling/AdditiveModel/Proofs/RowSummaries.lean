import AdditiveModel.Proofs.ExactSums
import AdditiveModel.Proofs.Intervals
import AdditiveModel.Proofs.OrderStatistics
import AdditiveModel.Proofs.OrderedScalar

/-! The rows of a summary. The entries of a row of the summary come from the same row of the matrix, they
are in order, and the order of the columns of the matrix does not change them. -/

namespace AdditiveModel.Summary

open Scalar

variable {F : Type} [Scalar F]

/-- The numbers of one row of a summary. -/
structure RowSummary (F : Type) where
  mean : F
  deviation : F
  lower : F
  median : F
  upper : F
  deriving DecidableEq

/-- What a summary says about a row of a matrix. -/
def RowSummary.ofRow (lo hi : F) (row : List F) : RowSummary F where
  mean := Summation.mean row
  deviation := Summary.deviation row
  lower := Quantile.ofList row lo
  median := Quantile.ofList row half
  upper := Quantile.ofList row hi

def columnsOf (lo hi : F) (rows : List (RowSummary F)) : Named (List F) :=
  [("mean", rows.map (·.mean)), ("sd", rows.map (·.deviation)), (quantileName lo, rows.map (·.lower)),
    ("median", rows.map (·.median)), (quantileName hi, rows.map (·.upper))]

def labels (values : Value F) (n : Nat) : List (Value F) :=
  match values with
  | .table index _ => index
  | _ => Column.defaultIndex n

/-- The entries in a row of a table. -/
def rowAt (i : Nat) : Value F → Named (Value F)
  | .table _ columns => columns.filterMap fun (name, _, xs) => xs[i]?.map (name, ·)
  | _ => []

/-- The bounds of the interval, the median and the mean are between the least and the greatest number of
the row, and only a row of equal numbers has no deviation. -/
structure Ordered (row : List F) (s : RowSummary F) : Prop where
  quantiles : le s.lower s.median = true ∧ le s.median s.upper = true
  extremes : ∃ least ∈ row, ∃ greatest ∈ row, (∀ x ∈ row, le least x = true ∧ le x greatest = true) ∧
    le least s.lower = true ∧ le s.upper greatest = true ∧
    le least s.mean = true ∧ le s.mean greatest = true
  deviation : s.deviation = zero ↔ ∀ x ∈ row, ∀ y ∈ row, x = y

/-- The rows of a matrix of `m` columns in another order of the columns. -/
def Permuted (m : Nat) (rows rows' : List (List F)) : Prop :=
  ∃ order : List Nat, order.Perm (List.range m) ∧ rows' = rows.map fun row => order.map (row.getD · nan)

section Exact

variable [ExactOrder F] {lo hi : F} {row row' : List F}

theorem deviation_eq_zero (hne : row ≠ []) :
    deviation row = zero ↔ ∀ x ∈ row, ∀ y ∈ row, x = y := by
  unfold deviation
  split
  · rename_i hlength
    exact Summation.deviation_eq_zero hlength
  · -- a single number is equal to itself
    rename_i hlength
    have hone : row.length = 1 := by
      have := List.length_pos_of_ne_nil hne
      omega
    obtain ⟨x, rfl⟩ := List.length_eq_one_iff.1 hone
    simp

theorem ordered (hne : row ≠ []) (hzero : le zero lo = true) (hlow : le lo half = true)
    (hhigh : le half hi = true) (hone : le hi one = true) : Ordered row (.ofRow lo hi row) := by
  have hlo_one : le lo one = true := ExactOrder.le_trans hlow (ExactOrder.le_trans hhigh hone)
  have hhi_zero : le zero hi = true := ExactOrder.le_trans hzero (ExactOrder.le_trans hlow hhigh)
  obtain ⟨least, hleast, greatest, hgreatest, hbetween⟩ := Quantile.exists_extremes hne
  have hbelow : ∀ x ∈ row, le least x = true := fun x hx => (hbetween x hx).1
  have habove : ∀ x ∈ row, le x greatest = true := fun x hx => (hbetween x hx).2
  exact {
    quantiles := ⟨Quantile.ofList_mono hne hzero hlow (ExactOrder.le_trans hhigh hone),
      Quantile.ofList_mono hne (ExactOrder.le_trans hzero hlow) hhigh hone⟩
    extremes := ⟨least, hleast, greatest, hgreatest, hbetween,
      (Quantile.ofList_between hne hzero hlo_one hbelow habove).1,
      (Quantile.ofList_between hne hhi_zero hone hbelow habove).2,
      Summation.mean_between hne hbelow habove⟩
    deviation := deviation_eq_zero hne }

theorem ofRow_perm (h : row.Perm row') : RowSummary.ofRow lo hi row = .ofRow lo hi row' := by
  have hdeviation : deviation row = deviation row' := by
    simp only [deviation, h.length_eq, Summation.deviation_perm h]
  simp only [RowSummary.ofRow, Summation.mean_perm h, hdeviation, Quantile.ofList_perm h]

end Exact

theorem columns_ofRow {lo hi : F} (rows : List (List F)) (h : quantileName lo ≠ quantileName hi) :
    columns lo hi rows = columnsOf lo hi (rows.map (.ofRow lo hi)) := by
  rw [(columns_of_ne rows h).1]
  simp only [columnsOf, List.map_map]
  rfl

theorem rowAt_frame {lo hi : F} (values : Value F) (n i : Nat) (rows : List (RowSummary F)) :
    rowAt i (frame values n (columnsOf lo hi rows)) = match rows[i]? with
      | some s => [("mean", .float s.mean), ("sd", .float s.deviation), (quantileName lo, .float s.lower),
        ("median", .float s.median), (quantileName hi, .float s.upper)]
      | none => [] := by
  cases h : rows[i]? <;> simp [rowAt, frame, columnsOf, h]

omit [Scalar F] in
theorem frame_of_labels {values values' : Value F} {n n' : Nat} (h : labels values' n' = labels values n)
    (columns : Named (List F)) : frame values' n' columns = frame values n columns := by
  change Value.table (labels values' n') _ = Value.table (labels values n) _
  rw [h]

omit [Scalar F] in
theorem length_of_mem_rowsOf {n m : Nat} {cells row : List F} (hlength : cells.length = n * m)
    (h : row ∈ Mapper.Covariates.rowsOf n m cells) : row.length = m := by
  obtain ⟨i, hi, rfl⟩ := List.mem_map.1 h
  have hend : i * m + m ≤ n * m := by
    calc i * m + m = (i + 1) * m := (Nat.succ_mul i m).symm
      _ ≤ n * m := Nat.mul_le_mul_right m (List.mem_range.1 hi)
  rw [List.length_take, List.length_drop]
  omega

theorem perm_of_order {order : List Nat} {row : List F} (h : order.Perm (List.range row.length)) :
    (order.map (row.getD · nan)).Perm row := by
  have hsame : (List.range row.length).map (row.getD · nan) = row := by
    apply List.ext_getElem
    · simp
    · intro i _ h
      simp [List.getElem?_eq_getElem h]
  exact (h.map _).trans (List.Perm.of_eq hsame)

/-- The summary of a matrix has a row for each of its rows, with the bounds, the median and the mean in
order and a deviation of zero for equal numbers only. Equal rows have equal summaries whatever the other
rows are, and a matrix with its columns in another order has the same summary. -/
theorem rows_ordered_and_exchangeable [ExactOrder F] {values level : Value F} {items : Option (List (Value F))}
    {n m : Nat} {cells : List F} {lo hi : F} (hvalues : IsMatrix values n m cells)
    (hlength : cells.length = n * m) (hinterval : Interval.choose? level items = .ok (lo, hi))
    (hzero : le zero lo = true) (hlow : le lo half = true) (hhigh : le half hi = true)
    (hone : le hi one = true) (hnames : quantileName lo ≠ quantileName hi) :
    let rows := Mapper.Covariates.rowsOf n m cells
    ofValue? values level items = .ok (frame values n (columnsOf lo hi (rows.map (.ofRow lo hi)))) ∧
    (∀ row ∈ rows, Ordered row (.ofRow lo hi row)) ∧
    ∀ values' n' m' cells', IsMatrix values' n' m' cells' →
      let rows' := Mapper.Covariates.rowsOf n' m' cells'
      (∀ r r' i j, ofValue? values level items = .ok r → ofValue? values' level items = .ok r' →
        rows[i]? = rows'[j]? → rowAt i r = rowAt j r') ∧
      (labels values' n' = labels values n → Permuted m rows rows' →
        ofValue? values' level items = ofValue? values level items) := by
  have hlo : isProbability lo = true := by
    rw [isProbability, hzero, ExactOrder.le_trans hlow (ExactOrder.le_trans hhigh hone)]
    rfl
  have hhi : isProbability hi = true := by
    rw [isProbability, hone, ExactOrder.le_trans hzero (ExactOrder.le_trans hlow hhigh)]
    rfl
  have hsummary {values : Value F} {n m : Nat} {cells : List F} (h : IsMatrix values n m cells) :
      ofValue? values level items = .ok (frame values n
        (columnsOf lo hi ((Mapper.Covariates.rowsOf n m cells).map (.ofRow lo hi)))) := by
    rw [ofValue_eq h hinterval hlo hhi, columns_ofRow _ hnames]
  intro rows
  refine ⟨hsummary hvalues, fun row hrow => ?_, fun values' n' m' cells' hvalues' => ⟨?_, ?_⟩⟩
  · have hne : row ≠ [] := by
      rw [← List.length_pos_iff, length_of_mem_rowsOf hlength hrow]
      exact hvalues.1
    exact ordered hne hzero hlow hhigh hone
  · intro r r' i j hr hr' hrow
    rw [hsummary hvalues, Except.ok.injEq] at hr
    rw [hsummary hvalues', Except.ok.injEq] at hr'
    rw [← hr, ← hr', rowAt_frame, rowAt_frame, List.getElem?_map, List.getElem?_map, hrow]
  · rintro hlabels ⟨order, horder, hrows⟩
    have hsame : (Mapper.Covariates.rowsOf n' m' cells').map (RowSummary.ofRow lo hi) =
        rows.map (RowSummary.ofRow lo hi) := by
      rw [hrows, List.map_map]
      refine List.map_congr_left fun row hrow => ofRow_perm (perm_of_order ?_)
      rwa [length_of_mem_rowsOf hlength hrow]
    rw [hsummary hvalues, hsummary hvalues', hsame]
    rw [frame_of_labels hlabels]

def samples : Value ℚ := .list [.list [.int 3, .int 1, .int 2], .list [.int 4, .int 4, .int 4]]

def shuffled : Value ℚ := .list [.list [.int 1, .int 2, .int 3], .list [.int 4, .int 4, .int 4]]

theorem isMatrix_samples : IsMatrix samples 2 3 [3, 1, 2, 4, 4, 4] := ⟨by decide, .inl rfl⟩

theorem isMatrix_shuffled : IsMatrix shuffled 2 3 [1, 2, 3, 4, 4, 4] := ⟨by decide, .inl rfl⟩

def middle : List (Value ℚ) := [.float (1 / 4), .float (3 / 4)]

theorem ofRow_middle :
    RowSummary.ofRow (1 / 4) (3 / 4) [3, 1, 2] = (⟨2, 1, 3 / 2, 2, 5 / 2⟩ : RowSummary ℚ) ∧
      RowSummary.ofRow (1 / 4) (3 / 4) [4, 4, 4] = (⟨4, 0, 4, 4, 4⟩ : RowSummary ℚ) := by
  have hmean : Summation.mean [3, 1, (2 : ℚ)] = 2 ∧ Summation.mean [4, 4, (4 : ℚ)] = 4 := by
    simp only [Summation.mean, Summation.sum_eq]
    decide +kernel
  have hdeviation : Summary.deviation [3, 1, (2 : ℚ)] = 1 ∧ Summary.deviation [4, 4, (4 : ℚ)] = 0 := by
    simp only [Summary.deviation, Summation.deviation, hmean, Summation.sum_eq]
    decide +kernel
  have hperm : [3, 1, (2 : ℚ)].Perm [1, 2, 3] := by decide
  have hsorted : Quantile.ascending [3, 1, (2 : ℚ)] = [1, 2, 3] ∧
      Quantile.ascending [4, 4, (4 : ℚ)] = [4, 4, 4] := by
    rw [Quantile.ascending_perm hperm]
    exact ⟨List.mergeSort_of_pairwise (by decide +kernel), List.mergeSort_of_pairwise (by decide +kernel)⟩
  simp only [RowSummary.ofRow, hmean, hdeviation, Quantile.ofList_eq, hsorted]
  decide +kernel

theorem samples_summarized :
    ∃ r, ofValue? samples .null (some middle) = .ok r ∧ ofValue? shuffled .null (some middle) = .ok r ∧
      rowAt 0 r = [("mean", .float 2), ("sd", .float 1), (quantileName (1 / 4 : ℚ), .float (3 / 2)),
        ("median", .float 2), (quantileName (3 / 4 : ℚ), .float (5 / 2))] ∧
      rowAt 1 r = [("mean", .float 4), ("sd", .float 0), (quantileName (1 / 4 : ℚ), .float 4),
        ("median", .float 4), (quantileName (3 / 4 : ℚ), .float 4)] ∧
      Ordered [3, 1, 2] (⟨2, 1, 3 / 2, 2, 5 / 2⟩ : RowSummary ℚ) := by
  have hinterval : Interval.choose? (.null : Value ℚ) (some middle) = .ok (1 / 4, 3 / 4) := rfl
  obtain ⟨hsamples, hordered, hother⟩ := rows_ordered_and_exchangeable isMatrix_samples rfl hinterval
    (by decide +kernel) (by decide +kernel) (by decide +kernel) (by decide +kernel)
    (by decide +kernel)
  have hshuffled := (hother _ _ _ _ isMatrix_shuffled).2 rfl ⟨[1, 2, 0], by decide, by decide⟩
  have hrows : Mapper.Covariates.rowsOf 2 3 [3, 1, 2, 4, 4, 4] = [[3, 1, 2], [4, 4, (4 : ℚ)]] := rfl
  rw [hrows] at hsamples hordered
  simp only [List.map_cons, List.map_nil, ofRow_middle] at hsamples
  refine ⟨_, hsamples, hshuffled.trans hsamples, ?_, ?_, ?_⟩
  · rw [rowAt_frame]
    rfl
  · rw [rowAt_frame]
    rfl
  · exact ofRow_middle.1 ▸ hordered _ List.mem_cons_self

end AdditiveModel.Summary
