import AdditiveModel.Proofs.AffineRows

/-! Linearized components whose main mapper is a function. The expansion around a state is affine, and
it has the values of the component at that state and at each of the points that the difference
quotients were taken at: moving one latent variable moves the vector of its own block only, and there
the quotients times the step are the change of the values. -/

namespace AdditiveModel.Mapper

variable {F : Type} [Scalar F]

namespace Block

variable {groups replicates : Int} {input : Input F} {blocks : List Int} {b : Int}

theorem index_inRange {values : Value F} {i : Nat} {k count : Int} (hk : indexAt? values i = .ok k)
    (hrange : values = .null ∨ 1 ≤ k ∧ k ≤ count) (hcount : 1 ≤ count) : 1 ≤ k ∧ k ≤ count := by
  rcases hrange with hnull | hrange
  · rw [hnull] at hk
    have hone : 1 = k := Except.ok.inj hk
    omega
  · exact hrange

theorem blockOf_inRange {g r : Int} (hg : 1 ≤ g ∧ g ≤ groups) (hr : 1 ≤ r ∧ r ≤ replicates) :
    0 ≤ blockOf groups g r ∧ blockOf groups g r + 1 ≤ groups * replicates := by
  have hlow : 0 ≤ groups * (r - 1) := mul_nonneg (by omega) (by omega)
  have hhigh : groups * (r - 1) ≤ groups * (replicates - 1) :=
    mul_le_mul_of_nonneg_left (by omega) (by omega)
  have hone : groups * (replicates - 1) = groups * replicates - groups := by ring
  unfold blockOf
  omega

theorem block_end_le {m : Int} (hm : 0 ≤ m) (hb : b + 1 ≤ groups * replicates) :
    (b + 1) * m ≤ m * groups * replicates :=
  calc (b + 1) * m ≤ groups * replicates * m := mul_le_mul_of_nonneg_right hb hm
    _ = m * groups * replicates := by ring

theorem block_fits {m : Int} {n : Nat} (hb : 0 ≤ b) (hblock : b + 1 ≤ groups * replicates)
    (hn : m * groups * replicates = n) : b.toNat * m.toNat + m.toNat ≤ n := by
  rcases lt_or_ge m 0 with hm | hm
  · simp [Int.toNat_of_nonpos hm.le]
  · zify
    rw [Int.toNat_of_nonneg hb, Int.toNat_of_nonneg hm, ← hn, ← add_one_mul]
    exact block_end_le hm hblock

theorem latent_fits (hgroups : 1 ≤ groups) (hreplicates : 1 ≤ replicates)
    (hblocks : blocks? groups replicates input = .ok blocks) (hb : b ∈ blocks) {m : Int} {n : Nat}
    (hn : m * groups * replicates = n) : b.toNat * m.toNat + m.toNat ≤ n := by
  have hsize : 0 < input.size := blocks_length hblocks ▸ List.length_pos_of_mem hb
  obtain ⟨-, g, r, rfl, hrange⟩ := (blocks_eq_ok hsize).1 hblocks
  obtain ⟨i, hi, rfl⟩ := List.mem_map.1 hb
  obtain ⟨⟨hg, hgroup⟩, hr, hreplicate⟩ := hrange i (List.mem_range.1 hi)
  obtain ⟨hlow, hhigh⟩ := blockOf_inRange (index_inRange hg hgroup hgroups)
    (index_inRange hr hreplicate hreplicates)
  exact block_fits hlow hhigh hn

omit [Scalar F] in
theorem length_latentOf {m n : Nat} {s : List F} (hs : s.length = n) (hfits : b.toNat * m + m ≤ n) :
    (latentOf m s b).length = m := by
  rw [latentOf, List.length_take, List.length_drop]
  omega

omit [Scalar F] in
theorem getElem?_latentOf (m : Nat) (s : List F) (b : Int) (i : Nat) :
    (latentOf m s b)[i]? = if i < m then s[b.toNat * m + i]? else none := by
  rw [latentOf, List.getElem?_take, List.getElem?_drop]

/-- Moving one coordinate moves the vector of a block in one coordinate or not at all. -/
theorem latentOf_moved (m : Nat) (step : F) (s : List F) (b : Int) (j : Nat) :
    (∃ p < m, latentOf m (Difference.moved step s j) b =
      Difference.moved step (latentOf m s b) p) ∨
    latentOf m (Difference.moved step s j) b = latentOf m s b := by
  by_cases hj : b.toNat * m ≤ j ∧ j < b.toNat * m + m
  · refine Or.inl ⟨j - b.toNat * m, by omega, List.ext_getElem? fun i => ?_⟩
    have hplace : j = b.toNat * m + i ↔ j - b.toNat * m = i := by omega
    rw [getElem?_latentOf, Difference.moved, Difference.moved, List.getElem?_modify,
      List.getElem?_modify, getElem?_latentOf]
    simp only [hplace]
    split <;> simp
  · refine Or.inr (List.ext_getElem? fun i => ?_)
    rw [getElem?_latentOf, getElem?_latentOf]
    split
    · rw [Difference.moved, List.getElem?_modify_ne]
      omega
    · rfl

end Block

/-- The difference quotients of the values of a block, at the latent vector of the block. -/
def blockQuotients (main : Mapper F) (blocks : List Int) (g : Int → List F → List F) (s : List F)
    (b : Int) : Sparse F :=
  Sparse.ofRows main.n.toNat (Difference.quotients (Block.rowsOf blocks b).length (g b)
    Difference.defaultStep (Block.latentOf main.n.toNat s b))

/-- On the rows of the block the main mapper has the values of `g`, one for each row, at every latent
vector, and their difference quotients are its derivative. -/
structure DifferencedBlock (main : Mapper F) (n : Nat) (v : Value F) (blocks : List Int)
    (g : Int → List F → List F) (b : Int) : Prop where
  part : ∃ part, Block.take? v (Block.rowsOf blocks b) = .ok part ∧
    Difference.ValuedFunction
      (fun t => main.evaluate? (some (Input.ofMain part)) (Value.ofReals t)) main.n.toNat
      (Block.rowsOf blocks b).length (g b) ∧
    ∀ s : List F, s.length = n →
      main.jacobian? (some (Input.ofMain part)) (Value.ofReals (Block.latentOf main.n.toNat s b)) =
        .ok (blockQuotients main blocks g s b)
  fits : b.toNat * main.n.toNat + main.n.toNat ≤ n

def valueAt (main : Mapper F) (blocks : List Int) (g : Int → List F → List F) (s : List F) (i : Nat) : F :=
  (g (blocks.getD i 0) (Block.latentOf main.n.toNat s (blocks.getD i 0))).getD
    ((Block.rowsOf blocks (blocks.getD i 0)).idxOf i) Scalar.zero

section Differenced

variable {main : Mapper F} {n : Nat} {v : Value F} {blocks : List Int} {g : Int → List F → List F}
  {b : Int} {s : List F}

theorem DifferencedBlock.matrix (h : DifferencedBlock main n v blocks g b) (hs : s.length = n) :
    BlockMatrix main n blocks b (blockQuotients main blocks g s b) := by
  refine ⟨rfl, Sparse.bounded_ofRows fun row hrow => ?_, Difference.length_quotients, h.fits⟩
  rw [Difference.length_of_mem_quotients hrow, Block.length_latentOf hs h.fits]

theorem DifferencedBlock.entries_eq (h : DifferencedBlock main n v blocks g b) (hs : s.length = n) :
    Block.entries? (fun input s => main.jacobian? (some input) (Value.ofReals s)) main.n.toNat s
      blocks v b =
        .ok (Block.placed main.n.toNat (Block.rowsOf blocks b) b (blockQuotients main blocks g s b)) := by
  obtain ⟨part, htake, -, hjacobian⟩ := h.part
  exact (h.matrix hs).entries_eq htake (hjacobian s hs)

theorem DifferencedBlock.values_eq (h : DifferencedBlock main n v blocks g b) (hs : s.length = n) :
    Block.values? (fun input s => main.evaluate? (some input) (Value.ofReals s)) main.n.toNat s
      blocks v b = .ok ((Block.rowsOf blocks b).map (valueAt main blocks g s)) := by
  obtain ⟨part, htake, hvalued, -⟩ := h.part
  have hlatent := Block.length_latentOf hs h.fits
  rw [Block.values_of_length htake (hvalued.values hlatent) (hvalued.count hlatent)]
  refine congrArg Except.ok (List.map_congr_left fun i hi => ?_)
  have hb : blocks.getD i 0 = b := by simp [Block.mem_rowsOf.1 hi]
  rw [valueAt, hb]

/-- In the row of a point the quotients times a move of one latent variable are the change of the
value. -/
theorem DifferencedBlock.rowProduct_moved [Exact F] (h : DifferencedBlock main n v blocks g b)
    (hstep : ∀ x : F, Difference.stepAt Difference.defaultStep x ≠ Scalar.zero) (hs : s.length = n)
    {i : Nat} (hi : blocks[i]? = some b) (j : Nat) :
    Sparse.rowProduct ((blockQuotients main blocks g s b).row ((Block.rowsOf blocks b).idxOf i))
        (Block.latentOf main.n.toNat (Difference.moved Difference.defaultStep s j) b) =
      Sparse.rowProduct ((blockQuotients main blocks g s b).row ((Block.rowsOf blocks b).idxOf i))
          (Block.latentOf main.n.toNat s b) +
        (valueAt main blocks g (Difference.moved Difference.defaultStep s j) i -
          valueAt main blocks g s i) := by
  let := Exact.commRing F
  obtain ⟨part, -, hvalued, -⟩ := h.part
  have hb : blocks.getD i 0 = b := by simp [hi]
  have hlatent := Block.length_latentOf hs h.fits
  have hk : (Block.rowsOf blocks b).idxOf i < (Block.rowsOf blocks b).length :=
    List.idxOf_lt_length_iff.2 (Block.mem_rowsOf.2 hi)
  simp only [valueAt, hb]
  rcases Block.latentOf_moved main.n.toNat Difference.defaultStep s b j with ⟨p, hp, hmoved⟩ | hsame
  · obtain ⟨row, hrow⟩ : ∃ row, (Difference.quotients (Block.rowsOf blocks b).length (g b)
        Difference.defaultStep (Block.latentOf main.n.toNat s b))[(Block.rowsOf blocks b).idxOf i]? =
          some row :=
      ⟨_, List.getElem?_eq_getElem (by rwa [Difference.length_quotients])⟩
    have hwidth := (Difference.length_of_mem_quotients (List.mem_of_getElem? hrow)).le
    rw [hmoved, blockQuotients, Sparse.rowProduct_ofRows hrow hwidth,
      Sparse.rowProduct_ofRows hrow (by rwa [Difference.length_moved])]
    exact hvalued.dot_quotients hlatent hp hk (hstep _) hrow
  · rw [hsame, sub_self]
    exact (add_zero _).symm

end Differenced

section Component

variable {main : Mapper F} {groups replicates : Int} {input : Input F} {n : Nat} {blocks : List Int}
  {g : Int → List F → List F} {u : Nat → F} {s : List F}

theorem evaluate_differenced (hn : main.n * groups * replicates = n)
    (hblocks : Block.blocks? groups replicates input = .ok blocks) (hu : Weighs input u)
    (h : ∀ b ∈ blocks, DifferencedBlock main n input.main blocks g b) {state : Value F}
    (hs : latent? (main.n * groups * replicates) state = .ok s) :
    (component main groups replicates).evaluate? (some input) state =
      .ok ((List.range input.size).map fun i => valueAt main blocks g s i * u i) := by
  have hlength : s.length = n := Int.ofNat_inj.1 ((latent_length hs).trans hn)
  rw [evaluate_component]
  exact ⟨s, blocks, valueAt main blocks g s, hs, hblocks, fun b hb => (h b hb).values_eq hlength,
    hu.values _⟩

/-- The expansion has the fixed values and the weighted quotients of the component at the state. -/
theorem linearize_differenced (hn : main.n * groups * replicates = n)
    (hblocks : Block.blocks? groups replicates input = .ok blocks) (hu : Weighs input u)
    (h : ∀ b ∈ blocks, DifferencedBlock main n input.main blocks g b) {reference : Value F}
    (hs : latent? (main.n * groups * replicates) reference = .ok s) :
    ∃ A : Sparse F, A.rows = input.size ∧ A.columns = n ∧ A.Bounded ∧
      (∀ i < input.size, ∀ x, Sparse.rowProduct (A.row i) x = u i * Sparse.rowProduct
        ((assembled main n input blocks (blockQuotients main blocks g s)).row i) x) ∧
      (component main groups replicates).linearize? (some input) reference =
        .ok (expanded ((List.range input.size).map fun i => valueAt main blocks g s i * u i) A
          (some s)) := by
  have hlength : s.length = n := Int.ofNat_inj.1 ((latent_length hs).trans hn)
  have hmatrix := fun b hb => (h b hb).matrix hlength
  obtain ⟨A, hA, hrows, hcolumns, hbounded, hproduct⟩ :=
    weighted_assembled hu (Block.blocks_length hblocks) hmatrix
  have hstate : latent? (main.n * groups * replicates) (Value.ofReals s) = .ok s :=
    latent_ofReals.2 ⟨latent_length hs, rfl⟩
  have hvalues := evaluate_differenced hn hblocks hu h hstate
  have hjacobian := jacobian_component hn hblocks hmatrix hA hstate
    fun b hb => (h b hb).entries_eq hlength
  exact ⟨A, hrows, hcolumns, hbounded, hproduct, linearize_eq hs hvalues hjacobian (by simp [hrows])
    (by rw [hcolumns, ← hn]; rfl)⟩

/-- What the matrix adds to the value of a point, from the state to a point of its stencil, is the change
of the value there. -/
theorem assembled_stencil [Exact F]
    (hstep : ∀ x : F, Difference.stepAt Difference.defaultStep x ≠ Scalar.zero)
    (hlen : blocks.length = input.size) {s₀ : List F} (hlength : s₀.length = n)
    (h : ∀ b ∈ blocks, DifferencedBlock main n input.main blocks g b)
    (hnode : s ∈ Difference.stencil Difference.defaultStep s₀) {i : Nat} (hi : i < input.size) :
    valueAt main blocks g s₀ i -
        Sparse.rowProduct ((assembled main n input blocks (blockQuotients main blocks g s₀)).row i) s₀ +
        Sparse.rowProduct ((assembled main n input blocks (blockQuotients main blocks g s₀)).row i) s =
      valueAt main blocks g s i := by
  let := Exact.commRing F
  obtain ⟨b, hb⟩ : ∃ b, blocks[i]? = some b := ⟨_, List.getElem?_eq_getElem (hlen ▸ hi)⟩
  have hmatrix := fun b hb => (h b hb).matrix hlength
  rcases List.mem_cons.1 hnode with rfl | hmoved
  · ring
  · obtain ⟨j, -, rfl⟩ := List.mem_map.1 hmoved
    rw [rowProduct_assembled hmatrix hb, rowProduct_assembled hmatrix hb,
      (h b (List.mem_of_getElem? hb)).rowProduct_moved hstep hlength hb]
    ring

/-- A component with difference quotients is expanded to an affine mapper with its values at all points
that the quotients read. -/
theorem component_interpolates [Exact F]
    (hstep : ∀ x : F, Difference.stepAt Difference.defaultStep x ≠ Scalar.zero)
    (hn : main.n * groups * replicates = n) (hw : input.WeightsFit)
    (hblocks : Block.blocks? groups replicates input = .ok blocks)
    (h : ∀ b ∈ blocks, DifferencedBlock main n input.main blocks g b) {reference : Value F} {s₀ : List F}
    (h₀ : latent? (main.n * groups * replicates) reference = .ok s₀) :
    ∃ T c A, (component main groups replicates).linearize? (some input) reference = .ok T ∧
      (∀ other, T.Affine other c A) ∧
      ∀ state s, latent? (main.n * groups * replicates) state = .ok s →
        s ∈ Difference.stencil Difference.defaultStep s₀ → ∃ values,
          (component main groups replicates).evaluate? (some input) state = .ok values ∧
          ∀ other, T.evaluate? other state = .ok values := by
  let := Exact.commRing F
  have hlength : s₀.length = n := Int.ofNat_inj.1 ((latent_length h₀).trans hn)
  have hlen : blocks.length = input.size := Block.blocks_length hblocks
  obtain ⟨u, hu⟩ := exists_weighs hw
  obtain ⟨A, hrows, hcolumns, hbounded, hproduct, hlinearize⟩ :=
    linearize_differenced hn hblocks hu h h₀
  have hfixed : A.rows = ((List.range input.size).map fun i => valueAt main blocks g s₀ i * u i).length := by
    simp [hrows]
  have haffine := affine_expanded hfixed hbounded
    (show ∀ s ∈ some s₀, s.length = A.columns by simp [hlength, hcolumns])
  refine ⟨_, _, A, hlinearize, haffine, fun state s hs hnode => ?_⟩
  have hchange : ∀ i < input.size, valueAt main blocks g s₀ i * u i -
      Sparse.rowProduct (A.row i) s₀ + Sparse.rowProduct (A.row i) s =
        valueAt main blocks g s i * u i := by
    intro i hi
    rw [hproduct i hi, hproduct i hi, ← assembled_stencil hstep hlen hlength h hnode hi]
    ring
  refine ⟨_, evaluate_differenced hn hblocks hu h hs, fun other => ?_⟩
  have hstate : latent? A.columns state = .ok s := by rwa [hcolumns, ← hn]
  refine ((haffine input).values hstate).trans ?_
  refine congrArg Except.ok (List.ext_getElem (by simp [atZero, Sparse.length_apply, hrows]) ?_)
  intro i _ hi
  rw [List.length_map, List.length_range] at hi
  simpa [atZero, Sparse.apply, hrows, hi] using hchange i hi

end Component

section Functions

variable {f : Value F → List F → Except Error (Value F)} {m : Int}

/-- On the rows of each block the function has one value for each row or a single one, at every latent
vector. A single one stands for all rows, but not for those of a sparse matrix, which is one element
however many rows it has. -/
def ValuedOnBlocks (f : Value F → List F → Except Error (Value F)) (m : Int) (main : Value F)
    (blocks : List Int) : Prop :=
  ∀ b ∈ blocks, ∃ part, Block.take? main (Block.rowsOf blocks b) = .ok part ∧
    ∀ t : List F, (t.length : Int) = m → ∃ v xs, f part t = .ok v ∧ v.vector? = .ok xs ∧
      (xs.length = (Block.rowsOf blocks b).length ∨
        xs.length = 1 ∧ ∀ rows columns entries, main ≠ .sparse rows columns entries)

theorem functionValues_eq_spread {input : Input F} {t xs : List F} {v : Value F}
    (ht : (t.length : Int) = m) (hf : f input.main t = .ok v) (hv : v.vector? = .ok xs) :
    functionValues? f m (some input) (Value.ofReals t) = .ok (Block.spread input.size xs) := by
  simp only [functionValues?, required?, bind_eq_ok, lift_eq_ok, Except.ok.injEq, exists_eq_left']
  refine ⟨t, latent_ofReals.2 ⟨ht, rfl⟩, v, hf, xs, hv, ?_⟩
  cases xs with
  | nil => rfl
  | cons x xs => cases xs <;> rfl

omit [Scalar F] in
theorem spread_one {α : Type} (items : List α) : Block.spread 1 items = items := by
  unfold Block.spread
  split <;> rfl

/-- What is taken has a row for each place, or it is the single element that the main input is. -/
theorem rows_of_take {main part : Value F} {rows : List Nat}
    (h : Block.take? main rows = .ok part) :
    part.rows = rows.length ∨ part.rows = 1 ∧ ∃ g, Grid.ofValue main = .ok g ∧ g.shape = [] := by
  simp only [Block.take?, bind_eq_ok] at h
  obtain ⟨g, hg, h⟩ := h
  split at h
  · rename_i hshape
    cases h
    exact Or.inr ⟨rfl, g, hg, hshape⟩
  · obtain ⟨picked, -, h⟩ := bind_eq_ok.1 h
    cases h
    exact Or.inl rfl

theorem length_spread_block {main part : Value F} {blocks : List Int} {b : Int} {xs : List F}
    (hv : main.Shaped) (hlen : blocks.length = main.rows) (hb : b ∈ blocks)
    (hpart : Block.take? main (Block.rowsOf blocks b) = .ok part)
    (hxs : xs.length = (Block.rowsOf blocks b).length ∨
      xs.length = 1 ∧ ∀ rows columns entries, main ≠ .sparse rows columns entries) :
    (Block.spread part.rows xs).length = (Block.rowsOf blocks b).length := by
  have hpos : 0 < (Block.rowsOf blocks b).length := List.length_pos_iff.2 (Block.rowsOf_ne_nil hb)
  rcases rows_of_take hpart with hrows | ⟨hrows, g, hg, hshape⟩
  · rw [hrows]
    exact (length_spread hpos).2 (hxs.symm.imp_left (·.1))
  · rw [hrows, spread_one]
    rcases hxs with hxs | ⟨hxs, hsparse⟩
    · exact hxs
    · rcases AdditiveModel.rows_of_shape_nil hv hg hshape with hone | ⟨rows, columns, entries, heq⟩
      · have := Block.length_rowsOf_le blocks b
        omega
      · exact absurd heq (hsparse rows columns entries)

theorem ValuedOnBlocks.differenced {main : Value F} {blocks : List Int} {n : Nat}
    (h : ValuedOnBlocks f m main blocks) (hm : 0 ≤ m) (hv : main.Shaped)
    (hlen : blocks.length = main.rows) (hfits : ∀ b ∈ blocks, b.toNat * m.toNat + m.toNat ≤ n)
    (name : String) (declared : Bool) :
    ∃ g, ∀ b ∈ blocks, DifferencedBlock (function name f m declared) n main blocks g b := by
  have hvalues : ∀ b ∈ blocks, ∃ part, Block.take? main (Block.rowsOf blocks b) = .ok part ∧
      ∃ g : List F → List F, Difference.ValuedFunction
        (fun t => functionValues? f m (some (Input.ofMain part)) (Value.ofReals t)) m.toNat
        (Block.rowsOf blocks b).length g := by
    intro b hb
    obtain ⟨part, hpart, hf⟩ := h b hb
    refine ⟨part, hpart, ?_⟩
    choose! v xs hfv hxs hcount using hf
    refine ⟨fun t => Block.spread part.rows (xs t), fun {t} ht => ?_, fun {t} ht => ?_⟩
    · have ht : (t.length : Int) = m := by omega
      exact functionValues_eq_spread ht (hfv t ht) (hxs t ht)
    · exact length_spread_block hv hlen hb hpart (hcount t (by omega))
  choose! part hpart g hg using hvalues
  refine ⟨g, fun b hb => ⟨⟨part b, hpart b hb, hg b hb, fun s hs => ?_⟩, hfits b hb⟩⟩
  have hlatent : (Block.latentOf m.toNat s b).length = m.toNat := Block.length_latentOf hs (hfits b hb)
  have hstate : latent? m (Value.ofReals (Block.latentOf m.toNat s b)) =
      .ok (Block.latentOf m.toNat s b) := latent_ofReals.2 ⟨by omega, rfl⟩
  exact (jacobian_function hstate ((hg b hb).jacobian_eq hlatent)).trans (by rw [hlatent]; rfl)

/-- The expansion of a component of a function is affine, and it has the values of the component at
the reference and at every point with one latent variable moved by its step, whatever inputs it is
given then. -/
theorem linearize_interpolates [Exact F]
    (hstep : ∀ x : F, Difference.stepAt Difference.defaultStep x ≠ Scalar.zero) {name : String}
    {declared : Bool} {groups replicates : Int} (hgroups : 1 ≤ groups) (hreplicates : 1 ≤ replicates)
    {input : Input F} (hv : input.main.Shaped) (hw : input.WeightsFit) {blocks : List Int}
    (hblocks : Block.blocks? groups replicates input = .ok blocks)
    (hf : ValuedOnBlocks f m input.main blocks) {reference : Value F} {s₀ : List F}
    (h₀ : latent? (component (function name f m declared) groups replicates).n reference = .ok s₀) :
    ∃ T c A, (component (function name f m declared) groups replicates).linearize? (some input)
        reference = .ok T ∧
      (∀ other, T.Affine other c A) ∧
      ∀ state s,
        latent? (component (function name f m declared) groups replicates).n state = .ok s →
        s ∈ Difference.stencil Difference.defaultStep s₀ → ∃ values,
          (component (function name f m declared) groups replicates).evaluate? (some input) state =
            .ok values ∧
          ∀ other, T.evaluate? other state = .ok values := by
  have hn : m * groups * replicates = s₀.length := (latent_length h₀).symm
  have hm : 0 ≤ m := by
    have hcount : 0 < groups * replicates := mul_pos hgroups hreplicates
    refine nonneg_of_mul_nonneg_left ?_ hcount
    rw [← mul_assoc, hn]
    omega
  obtain ⟨g, hg⟩ := hf.differenced hm hv (Block.blocks_length hblocks)
    (fun b hb => Block.latent_fits hgroups hreplicates hblocks hb hn) name declared
  exact component_interpolates hstep hn hw hblocks hg h₀

end Functions

def quadratic (main : Value ℚ) (t : List ℚ) : Except Error (Value ℚ) := do
  return .ofReals ((← lift main.vector?).map fun x => x * (t.getD 0 0 * t.getD 0 0))

theorem quadratic_valued : ValuedOnBlocks quadratic 1 Input.alternating.main [1, 0, 1] := by
  intro b hb
  obtain ⟨part, xs, htake, hxs, hlen⟩ : ∃ part xs,
      Block.take? Input.alternating.main (Block.rowsOf [1, 0, 1] b) = .ok part ∧
        part.vector? = .ok xs ∧ xs.length = (Block.rowsOf [1, 0, 1] b).length := by
    obtain rfl | rfl : b = 1 ∨ b = 0 := by
      have hmem : b = 1 ∨ b = 0 ∨ b = 1 := by simpa using hb
      omega
    · exact ⟨_, [2, 5], rfl, by decide +kernel, rfl⟩
    · exact ⟨_, [3], rfl, by decide +kernel, rfl⟩
  refine ⟨part, htake, fun t _ => ⟨_, xs.map fun x => x * (t.getD 0 0 * t.getD 0 0), ?_,
    vector_ofReals _, Or.inl (by simpa using hlen)⟩⟩
  rw [quadratic, hxs]
  rfl

theorem quadratic_interpolates :
    ∃ T c A, (component (function "quadratic" quadratic 1 false) 2 1).linearize? (some Input.alternating)
        (.ofReals [7, 11]) = .ok T ∧
      (∀ other, T.Affine other c A) ∧
      ∀ state s, latent? 2 state = .ok s →
        s ∈ Difference.stencil Difference.defaultStep [7, 11] → ∃ values,
          (component (function "quadratic" quadratic 1 false) 2 1).evaluate? (some Input.alternating)
            state = .ok values ∧
          ∀ other, T.evaluate? other state = .ok values :=
  linearize_interpolates (Difference.stepAt_ne_zero (by decide +kernel)) (by decide) (by decide)
    Input.alternating_shaped Input.alternating_weights (by decide +kernel) quadratic_valued
    (by decide +kernel)

/-- Two rows of a sparse matrix, without groups, replicates and weights. -/
def Input.sparsePair : Input ℚ := Input.ofMain (.sparse 2 1 [(0, 0, 1), (1, 0, 2)])

def constant (_ : Value ℚ) (t : List ℚ) : Except Error (Value ℚ) := .ok (.float (t.getD 0 0))

/-- The single value for a block of a sparse matrix is repeated in the values, but its derivative has
only the first row, so that the second row of the expansion does not move. -/
theorem sparsePair_differs :
    (∀ part t, ∃ v x, constant part t = .ok v ∧ v.vector? = .ok [x]) ∧
      [500001 / 500000] ∈ Difference.stencil Difference.defaultStep [(1 : ℚ)] ∧
      (component (function "constant" constant 1 false) 1 1).evaluate? (some Input.sparsePair)
        (.ofReals [500001 / 500000]) = .ok [500001 / 500000, 500001 / 500000] ∧
      ((component (function "constant" constant 1 false) 1 1).linearize? (some Input.sparsePair)
          (.ofReals [1]) >>= fun T => T.evaluate? none (.ofReals [500001 / 500000])) =
        .ok [500001 / 500000, 1] :=
  ⟨fun _ t => ⟨.float (t.getD 0 0), t.getD 0 0, rfl, rfl⟩, by decide +kernel, by decide +kernel,
    by decide +kernel⟩

end AdditiveModel.Mapper
