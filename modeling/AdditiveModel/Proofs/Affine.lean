import AdditiveModel.Proofs.Matrix
import AdditiveModel.Proofs.Rows

/-! Mappers that are affine in their latent vector: fixed values plus a matrix times the vector. Main
mappers are, and a mapper made from fixed values and a matrix gives such values back. -/

namespace AdditiveModel.Mapper

variable {F : Type} [Scalar F]

/-- On this input the values are `c` plus `A` times the latent vector, and the derivative is `A`. -/
structure Affine (m : Mapper F) (input : Input F) (c : List F) (A : Sparse F) : Prop where
  columns : (A.columns : Int) = m.n
  rows : A.rows = c.length
  bounded : A.Bounded
  jacobian {state : Value F} {s : List F} :
    latent? m.n state = .ok s → m.jacobian? (some input) state = .ok A
  values {state : Value F} {s : List F} :
    latent? m.n state = .ok s →
      m.evaluate? (some input) state = .ok (List.zipWith (· + ·) c (A.apply s))

section Main

variable [Exact F] {input : Input F}

theorem zeros_add {l : List F} {k : Nat} (h : l.length = k) :
    List.zipWith (· + ·) (List.replicate k Scalar.zero) l = l := by
  let := Exact.commRing F
  subst h
  apply List.ext_getElem (by simp)
  intro i hi _
  rw [List.getElem_zipWith, List.getElem_replicate]
  exact zero_add _

theorem add_zeros {l : List F} {k : Nat} (h : l.length = k) :
    List.zipWith (· + ·) l (List.replicate k Scalar.zero) = l := by
  let := Exact.commRing F
  rw [List.zipWith_comm_of_comm add_comm]
  exact zeros_add h

theorem affine_linear {n : Int} {rows : List (List F)} (hn : 0 ≤ n)
    (hrows : Covariates.ofMain? n input.main = .ok rows) :
    (linear n).Affine input (List.replicate rows.length Scalar.zero) (Sparse.ofRows n.toNat rows) := by
  have hwidth : ∀ row ∈ rows, row.length ≤ n.toNat := by
    intro row hrow
    obtain ⟨_, cells, count, width, -, -, rfl, rfl⟩ := covariates_eq_ok.1 hrows
    obtain ⟨i, -, rfl⟩ := List.mem_map.1 hrow
    simp
  refine ⟨Int.toNat_of_nonneg hn, by simp [Sparse.ofRows], Sparse.bounded_ofRows hwidth,
    fun _ => ?_, fun {state s} hs => ?_⟩
  · simp only [jacobian?, Covariates.jacobian?, required?, bind_eq_ok, Except.ok.injEq,
      exists_eq_left', hrows, pure_eq_ok]
  · change latent? n state = .ok s at hs
    have hlen : s.length = n.toNat := by
      have := latent_length hs
      omega
    rw [Sparse.apply_ofRows (hlen ▸ hwidth), zeros_add (List.length_map _)]
    simp only [evaluate?, Covariates.evaluate?, required?, bind_eq_ok, Except.ok.injEq,
      exists_eq_left', hs, hrows, pure_eq_ok]

theorem affine_offset {c : List F} {shape : List Nat}
    (h : Grid.realsOfValue input.main = .ok (shape, c)) (hlen : c.length = input.size) :
    offset.Affine input c (Sparse.empty input.size 0) := by
  let := Exact.commRing F
  refine ⟨rfl, hlen.symm, by simp [Sparse.Bounded, Sparse.empty], fun _ => ?_, fun {state s} _ => ?_⟩
  · simp only [jacobian?, required?, bind_eq_ok, Except.ok.injEq, exists_eq_left', pure_eq_ok]
  · have hzero : List.zipWith (· + ·) c ((Sparse.empty input.size 0).apply s) = c := by
      apply List.ext_getElem (by simp [Sparse.length_apply, Sparse.empty, hlen])
      intro i hi _
      simp only [List.getElem_zipWith, Sparse.apply, Sparse.empty, List.getElem_map]
      exact add_zero _
    rw [hzero, evaluate_offset]
    exact ⟨shape, h⟩

omit [Exact F] in
theorem bounded_selection {columns : Nat} {positions : List (Option Nat)}
    (h : ∀ j, some j ∈ positions → j < columns) :
    (Levels.selection columns positions : Sparse F).Bounded := by
  intro e he
  simp only [Levels.selection, List.mem_filterMap, Prod.exists, Option.map_eq_some_iff] at he
  obtain ⟨_, i, hi, j, rfl, rfl⟩ := he
  have hi := List.mk_mem_zipIdx_iff_getElem?.1 hi
  exact ⟨(List.getElem?_eq_some_iff.1 hi).1, h j (List.mem_of_getElem? hi)⟩

theorem rowProduct_selection {columns i : Nat} {positions : List (Option Nat)} {p : Option Nat}
    (h : positions[i]? = some p) (x : List F) :
    Sparse.rowProduct ((Levels.selection columns positions).row i) x =
      (p.map fun j => x.getD j Scalar.zero).getD Scalar.zero := by
  let := Exact.commRing F
  have hmem : (p, i) ∈ positions.zipIdx := List.mk_mem_zipIdx_iff_getElem?.2 h
  rw [Levels.selection, List.filterMap_eq_flatMap_toList,
    Sparse.row_flatMap (nodup_zipIdx positions) hmem]
  · cases p with
    | none => rfl
    | some j =>
      have hone : Scalar.one * x.getD j Scalar.zero + Sparse.rowProduct [] x = x.getD j Scalar.zero :=
        (add_zero _).trans (one_mul _)
      simpa [Sparse.inRow, Sparse.rowProduct_cons] using hone
  · rintro ⟨p', i'⟩ hp' hne e he rfl
    simp only [Option.mem_toList, Option.map_eq_some_iff] at he
    obtain ⟨j, rfl, rfl⟩ := he
    rw [List.mk_mem_zipIdx_iff_getElem?.1 hp', Option.some_inj] at h
    exact hne (by rw [h])

theorem affine_index {levels : List (Value F)} {positions : List (Option Nat)}
    (h : Levels.positions? levels input.main = .ok positions) :
    (index levels).Affine input (List.replicate positions.length Scalar.zero)
      (Levels.selection levels.length positions) := by
  have hlt : ∀ j, some j ∈ positions → j < levels.length := by
    intro j hj
    obtain ⟨-, rfl⟩ := positions_eq_ok.1 h
    obtain ⟨v, -, hv⟩ := List.mem_map.1 hj
    exact (List.findIdx?_eq_some_iff_getElem.1 hv).1
  have hrows : (Levels.selection levels.length positions : Sparse F).rows = positions.length := rfl
  refine ⟨rfl, by simp [hrows], bounded_selection hlt, fun _ => ?_, fun {state s} hs => ?_⟩
  · simp only [jacobian?, Levels.jacobian?, required?, bind_eq_ok, lift_eq_ok, Except.ok.injEq,
      exists_eq_left', h, pure_eq_ok]
  · change latent? levels.length state = .ok s at hs
    rw [zeros_add (by rw [Sparse.length_apply, hrows])]
    simp only [evaluate?, Levels.evaluate?, required?, bind_eq_ok, lift_eq_ok, Except.ok.injEq,
      exists_eq_left', hs, h, pure_eq_ok]
    apply List.ext_getElem (by simp [Sparse.apply, hrows])
    intro i hi _
    rw [List.length_map] at hi
    simp only [Sparse.apply, List.getElem_map, List.getElem_range]
    exact (rowProduct_selection (List.getElem?_eq_getElem hi) s).symm

theorem Elementary.affine {m : Mapper F} (hm : m.Elementary) {t vs : List F}
    (h : m.evaluate? (some input) (Value.ofReals t) = .ok vs) (hlen : vs.length = input.size) :
    ∃ c A, A.rows = input.size ∧ m.Affine input c A := by
  cases hm with
  | linear n =>
    obtain ⟨hn, rows, hrows, rfl⟩ := evaluate_linear.1 h
    exact ⟨_, _, by simpa [Sparse.ofRows] using hlen, affine_linear (by omega) hrows⟩
  | offset =>
    obtain ⟨shape, h⟩ := evaluate_offset.1 h
    exact ⟨_, _, rfl, affine_offset h hlen⟩
  | index levels =>
    obtain ⟨-, hkeys, rfl⟩ := evaluate_index.1 h
    refine ⟨_, _, ?_, affine_index (positions_eq_ok.2 ⟨hkeys, rfl⟩)⟩
    simpa [Levels.selection] using hlen

end Main

section Expansion

variable [Exact F] {m : Mapper F} {input : Input F} {c : List F} {A : Sparse F}

omit [Exact F] in
theorem Affine.latent_null (h : m.Affine input c A) :
    latent? m.n (.null : Value F) = .ok (List.replicate A.columns Scalar.zero) := by
  rw [← h.columns]
  simp [latent?]

theorem Affine.apply_zeros (h : m.Affine input c A) :
    List.zipWith (· + ·) c (A.apply (List.replicate A.columns Scalar.zero)) = c := by
  have hzero : A.apply (List.replicate A.columns Scalar.zero) = List.replicate A.rows Scalar.zero := by
    simp [Sparse.apply, Sparse.rowProduct_zeros]
  rw [hzero, add_zeros h.rows.symm]

theorem Affine.ofLinear (h : m.Affine input c A) :
    m.ofLinear? (some input) = .ok (expanded c A none) := by
  simp only [ofLinear?, expanded?, h.values h.latent_null, h.jacobian h.latent_null, h.apply_zeros,
    bind, Except.bind, pure, Except.pure, h.rows]
  simp

omit [Exact F] in
theorem expanded_ofReals {fixed s₀ : List F} (hrows : A.rows = fixed.length)
    (h₀ : latent? A.columns (Value.ofReals s₀) = .ok s₀) :
    expanded? fixed A (Value.ofReals s₀) = .ok (expanded fixed A (some s₀)) := by
  have hopen : expanded? fixed A (Value.ofReals s₀) =
      (some <$> latent? A.columns (Value.ofReals s₀) >>= fun origin =>
        if A.rows != fixed.length then throw (Error.jacobianRows A.rows fixed.length)
        else pure (expanded fixed A origin)) := rfl
  rw [hopen, h₀]
  simp [hrows, bind, Except.bind, pure, Except.pure, Functor.map, Except.map]

omit [Exact F] in
theorem linearize_eq {reference : Value F} {fixed s₀ : List F} (h₀ : latent? m.n reference = .ok s₀)
    (hfixed : m.evaluate? (some input) (Value.ofReals s₀) = .ok fixed)
    (hjacobian : m.jacobian? (some input) (Value.ofReals s₀) = .ok A) (hrows : A.rows = fixed.length)
    (hcolumns : (A.columns : Int) = m.n) :
    m.linearize? (some input) reference = .ok (expanded fixed A (some s₀)) := by
  simp only [linearize?, h₀, hfixed, hjacobian, bind, Except.bind]
  exact expanded_ofReals hrows (latent_ofReals.2 ⟨(latent_length h₀).trans hcolumns.symm, rfl⟩)

omit [Exact F] in
theorem Affine.linearize (h : m.Affine input c A) {reference : Value F} {s₀ : List F}
    (h₀ : latent? m.n reference = .ok s₀) :
    m.linearize? (some input) reference =
      .ok (expanded (List.zipWith (· + ·) c (A.apply s₀)) A (some s₀)) := by
  have hlatent : latent? m.n (Value.ofReals s₀) = .ok s₀ := latent_ofReals.2 ⟨latent_length h₀, rfl⟩
  have hrows : A.rows = (List.zipWith (· + ·) c (A.apply s₀)).length := by
    rw [List.length_zipWith, Sparse.length_apply, ← h.rows, Nat.min_self]
  exact linearize_eq h₀ (h.values hlatent) (h.jacobian hlatent) hrows h.columns

def atZero (fixed : List F) (A : Sparse F) : Option (List F) → List F
  | none => fixed
  | some s₀ => List.zipWith (· - ·) fixed (A.apply s₀)

theorem add_apply_sub {fixed : List F} (hrows : A.rows = fixed.length) {s s₀ : List F}
    (h : s.length = s₀.length) :
    List.zipWith (· + ·) fixed (A.apply (List.zipWith (· - ·) s s₀)) =
      List.zipWith (· + ·) (List.zipWith (· - ·) fixed (A.apply s₀)) (A.apply s) := by
  let := Exact.commRing F
  apply List.ext_getElem (by simp [Sparse.length_apply, hrows])
  intro i _ _
  simp only [Sparse.apply, List.getElem_zipWith, List.getElem_map, List.getElem_range,
    Sparse.rowProduct_sub _ h]
  ring

theorem affine_expanded {fixed : List F} {origin : Option (List F)} (hrows : A.rows = fixed.length)
    (hbounded : A.Bounded) (horigin : ∀ s₀ ∈ origin, s₀.length = A.columns) (input : Input F) :
    (expanded fixed A origin).Affine input (atZero fixed A origin) A := by
  have hlen : A.rows = (atZero fixed A origin).length := by
    cases origin <;> simp [atZero, Sparse.length_apply, hrows]
  refine ⟨rfl, hlen, hbounded, fun _ => rfl, fun {state s} hs => ?_⟩
  change latent? A.columns state = .ok s at hs
  have hcolumns : s.length = A.columns := Int.ofNat_inj.1 (latent_length hs)
  simp only [evaluate?, expandedValues?, hs]
  cases origin with
  | none =>
    by_cases hzero : A.columns = 0
    · simp [atZero, hzero, hbounded.apply_of_columns hzero, add_zeros hrows.symm]
    · simp [atZero, hzero, bind, Except.bind]
  | some s₀ =>
    rw [atZero, ← add_apply_sub hrows (hcolumns.trans (horigin s₀ rfl).symm)]
    by_cases hzero : A.columns = 0
    · simp [hzero, hbounded.apply_of_columns hzero, add_zeros hrows.symm]
    · simp [hzero, bind, Except.bind]

theorem Affine.evaluate_ofLinear (h : m.Affine input c A) {state : Value F} {s : List F}
    (hs : latent? m.n state = .ok s) (other : Option (Input F)) :
    (expanded c A none).evaluate? other state = m.evaluate? (some input) state := by
  have hexpanded : (expanded c A none).Affine input c A :=
    affine_expanded h.rows h.bounded (by simp) input
  exact (hexpanded.values (by rwa [← hexpanded.columns, h.columns])).trans (h.values hs).symm

theorem Affine.evaluate_linearize (h : m.Affine input c A) {reference state : Value F} {s₀ s : List F}
    (h₀ : latent? m.n reference = .ok s₀) (hs : latent? m.n state = .ok s) (other : Option (Input F)) :
    (expanded (List.zipWith (· + ·) c (A.apply s₀)) A (some s₀)).evaluate? other state =
      m.evaluate? (some input) state := by
  let := Exact.commRing F
  have hrows : A.rows = (List.zipWith (· + ·) c (A.apply s₀)).length := by
    rw [List.length_zipWith, Sparse.length_apply, ← h.rows, Nat.min_self]
  have hlen : s₀.length = A.columns := Int.ofNat_inj.1 ((latent_length h₀).trans h.columns.symm)
  have hzero : atZero (List.zipWith (· + ·) c (A.apply s₀)) A (some s₀) = c := by
    apply List.ext_getElem (by simp [atZero, Sparse.length_apply, h.rows])
    intro i _ _
    simp only [atZero, List.getElem_zipWith]
    ring
  have hexpanded := affine_expanded hrows h.bounded (show ∀ x ∈ some s₀, x.length = A.columns by simpa)
    input
  rw [hzero] at hexpanded
  exact (hexpanded.values (by rwa [← hexpanded.columns, h.columns])).trans (h.values hs).symm

end Expansion

end AdditiveModel.Mapper
