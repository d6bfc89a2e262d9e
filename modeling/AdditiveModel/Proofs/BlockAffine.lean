import AdditiveModel.Proofs.Affine
import AdditiveModel.Proofs.Selection

/-! A mapper with groups and replicates is affine when its main mapper is affine on the rows of each
block: the matrix of a block stands in the rows and columns of the block, and no other block has
entries in these rows. -/

namespace AdditiveModel.Mapper

variable {F : Type} [Scalar F]

namespace Block

/-- The entries of a block at their places in the matrix of all blocks. -/
def placed (m : Nat) (rows : List Nat) (b : Int) (J : Sparse F) : List (Nat × Nat × F) :=
  J.entries.map fun e => (rows.getD e.1 0, e.2.1 + b.toNat * m, e.2.2)

variable {m : Nat} {rows : List Nat} {b : Int} {J : Sparse F}

omit [Scalar F] in
theorem placed_eq_ok {entries : List (Nat × Nat × F)} :
    placed? m rows b J = .ok entries ↔
      (∀ e ∈ J.entries, e.1 < rows.length) ∧ entries = placed m rows b J := by
  have hof (h : ∀ e ∈ J.entries, e.1 < rows.length) : placed? m rows b J = .ok (placed m rows b J) :=
    mapM_eq_ok_map fun e he => by simp [h e he]
  constructor
  · intro h
    have hinside : ∀ e ∈ J.entries, e.1 < rows.length := by
      intro e he
      obtain ⟨_, -, hplace⟩ := forall₂_mem (mapM_eq_ok.1 h).flip he
      by_contra hout
      simp [hout] at hplace
    exact ⟨hinside, Except.ok.inj (h.symm.trans (hof hinside))⟩
  · rintro ⟨h, rfl⟩
    exact hof h

/-- The entries of a block are those of the derivative on its rows, at their places. -/
theorem entries_eq_ok {main : Input F → List F → Except Error (Sparse F)} {blocks : List Int}
    {v : Value F} {s : List F} {entries : List (Nat × Nat × F)} :
    entries? main m s blocks v b = .ok entries ↔
      ∃ part J, take? v (rowsOf blocks b) = .ok part ∧
        main (Input.ofMain part) (latentOf m s b) = .ok J ∧
        (∀ e ∈ J.entries, e.1 < (rowsOf blocks b).length) ∧
        entries = placed m (rowsOf blocks b) b J := by
  simp only [entries?, bind_eq_ok, lift_eq_ok, placed_eq_ok]
  constructor
  · rintro ⟨part, hpart, J, hJ, hplaced⟩
    exact ⟨part, J, hpart, hJ, hplaced⟩
  · rintro ⟨part, J, hpart, hJ, hplaced⟩
    exact ⟨part, hpart, J, hJ, hplaced⟩

omit [Scalar F] in
/-- An entry of a block stands in the row of a point of the block, and in a column behind the blocks
before it. -/
theorem mem_placed (hinside : ∀ e ∈ J.entries, e.1 < rows.length) {e : Nat × Nat × F}
    (he : e ∈ placed m rows b J) :
    ∃ a ∈ J.entries, rows[a.1]? = some e.1 ∧ e.2.1 = a.2.1 + b.toNat * m := by
  obtain ⟨a, ha, rfl⟩ := List.mem_map.1 he
  exact ⟨a, ha, by simp [hinside a ha], rfl⟩

omit [Scalar F] in
/-- The entries of a block in one row are those of the matrix of the block in that row. -/
theorem filterMap_placed (hJ : J.Bounded) (hrows : J.rows = rows.length) (hnodup : rows.Nodup)
    {k i : Nat} (hk : rows[k]? = some i) :
    (placed m rows b J).filterMap (Sparse.inRow i) =
      (J.row k).map fun e => (e.1 + b.toNat * m, e.2) := by
  obtain ⟨hlt, rfl⟩ := List.getElem?_eq_some_iff.1 hk
  rw [placed, Sparse.row_eq, List.filterMap_map, List.map_filterMap]
  refine List.filterMap_congr fun e he => ?_
  have he' : e.1 < rows.length := hrows ▸ (hJ e he).1
  have hget : rows.getD e.1 0 = rows[e.1] := by simp [he']
  have hiff : (rows.getD e.1 0 == rows[k]) = (e.1 == k) := by
    rw [hget, Bool.eq_iff_iff, beq_iff_eq, beq_iff_eq, hnodup.getElem_inj_iff]
  simp only [Function.comp, Sparse.inRow, hiff]
  by_cases h : e.1 = k <;> simp [h]

theorem values_of_length {main : Input F → List F → Except Error (List F)} {blocks : List Int}
    {v part : Value F} {s ws : List F} (htake : take? v (rowsOf blocks b) = .ok part)
    (hvalue : main (Input.ofMain part) (latentOf m s b) = .ok ws)
    (hlen : ws.length = (rowsOf blocks b).length) :
    values? main m s blocks v b =
      .ok ((rowsOf blocks b).map fun i => ws.getD ((rowsOf blocks b).idxOf i) Scalar.zero) := by
  have hws : ws = (rowsOf blocks b).map fun i => ws.getD ((rowsOf blocks b).idxOf i) Scalar.zero := by
    apply List.ext_getElem (by simp [hlen])
    intro k hk hk'
    rw [List.length_map] at hk'
    simp [(nodup_rowsOf blocks b).idxOf_getElem, hlen, hk']
  simp only [values?, bind_eq_ok, lift_eq_ok, htake, Except.ok.injEq, exists_eq_left', hvalue]
  exact fit_eq_ok.2 (Or.inl ⟨hlen, hws⟩)

end Block

/-- A matrix for the rows of a block and its latent vector, which is inside the whole one. -/
structure BlockMatrix (main : Mapper F) (n : Nat) (blocks : List Int) (b : Int) (J : Sparse F) :
    Prop where
  columns : J.columns = main.n.toNat
  bounded : J.Bounded
  rows : J.rows = (Block.rowsOf blocks b).length
  fits : b.toNat * main.n.toNat + main.n.toNat ≤ n

theorem BlockMatrix.entries_eq {main : Mapper F} {n : Nat} {v part : Value F} {blocks : List Int}
    {b : Int} {J : Sparse F} {s : List F} (h : BlockMatrix main n blocks b J)
    (htake : Block.take? v (Block.rowsOf blocks b) = .ok part)
    (hjacobian : main.jacobian? (some (Input.ofMain part))
      (Value.ofReals (Block.latentOf main.n.toNat s b)) = .ok J) :
    Block.entries? (fun input s => main.jacobian? (some input) (Value.ofReals s)) main.n.toNat s
      blocks v b = .ok (Block.placed main.n.toNat (Block.rowsOf blocks b) b J) := by
  exact Block.entries_eq_ok.2
    ⟨part, J, htake, hjacobian, fun e he => h.rows ▸ (h.bounded e he).1, rfl⟩

/-- A block whose rows the main mapper is affine on, with its latent vector inside the whole one. -/
structure AffineBlock (main : Mapper F) (n : Nat) (v : Value F) (blocks : List Int) (b : Int)
    (c : List F) (J : Sparse F) : Prop where
  part : ∃ rows, Block.take? v (Block.rowsOf blocks b) = .ok rows ∧ main.Affine (Input.ofMain rows) c J
  rows : J.rows = (Block.rowsOf blocks b).length
  fits : b.toNat * main.n.toNat + main.n.toNat ≤ n

section Block

variable {main : Mapper F} {n : Nat} {v : Value F} {blocks : List Int} {b : Int} {c : List F}
  {J : Sparse F}

theorem AffineBlock.matrix (h : AffineBlock main n v blocks b c J) :
    BlockMatrix main n blocks b J := by
  obtain ⟨rows, -, haffine⟩ := h.part
  have := haffine.columns
  exact ⟨by omega, haffine.bounded, h.rows, h.fits⟩

theorem AffineBlock.latent (h : AffineBlock main n v blocks b c J) {s : List F} (hs : s.length = n) :
    latent? main.n (Value.ofReals (Block.latentOf main.n.toNat s b)) =
      .ok (Block.latentOf main.n.toNat s b) := by
  obtain ⟨rows, -, haffine⟩ := h.part
  have hn := haffine.columns
  have hfits := h.fits
  refine latent_ofReals.2 ⟨?_, rfl⟩
  rw [Block.latentOf, List.length_take, List.length_drop]
  omega

theorem AffineBlock.entries_eq (h : AffineBlock main n v blocks b c J) {s : List F}
    (hs : s.length = n) :
    Block.entries? (fun input s => main.jacobian? (some input) (Value.ofReals s)) main.n.toNat s
      blocks v b = .ok (Block.placed main.n.toNat (Block.rowsOf blocks b) b J) := by
  obtain ⟨rows, htake, haffine⟩ := h.part
  exact h.matrix.entries_eq htake (haffine.jacobian (h.latent hs))

def blockValue (main : Mapper F) (blocks : List Int) (c : List F) (J : Sparse F) (s : List F) (b : Int)
    (i : Nat) : F :=
  c.getD ((Block.rowsOf blocks b).idxOf i) Scalar.zero +
    Sparse.rowProduct (J.row ((Block.rowsOf blocks b).idxOf i)) (Block.latentOf main.n.toNat s b)

theorem AffineBlock.values_eq (h : AffineBlock main n v blocks b c J) {s : List F}
    (hs : s.length = n) :
    Block.values? (fun input s => main.evaluate? (some input) (Value.ofReals s)) main.n.toNat s
      blocks v b = .ok ((Block.rowsOf blocks b).map (blockValue main blocks c J s b)) := by
  obtain ⟨rows, htake, haffine⟩ := h.part
  have hlen : c.length = (Block.rowsOf blocks b).length := haffine.rows ▸ h.rows
  have hvalue := haffine.values (h.latent hs)
  rw [Block.values_of_length htake hvalue (by simp [Sparse.length_apply, hlen, h.rows])]
  refine congrArg Except.ok (List.map_congr_left fun i hi => ?_)
  have hk : (Block.rowsOf blocks b).idxOf i < (Block.rowsOf blocks b).length :=
    List.idxOf_lt_length_iff.2 hi
  simp [Sparse.apply, blockValue, hlen, h.rows, hk]

end Block

section Component

variable {main : Mapper F} {n : Nat} {input : Input F} {blocks : List Int} {J : Int → Sparse F}

def assembled (main : Mapper F) (n : Nat) (input : Input F) (blocks : List Int) (J : Int → Sparse F) :
    Sparse F :=
  ⟨input.size, n, (Block.occurring blocks).flatMap fun b =>
    Block.placed main.n.toNat (Block.rowsOf blocks b) b (J b)⟩

omit [Scalar F] in
theorem row_assembled
    (h : ∀ b ∈ blocks, BlockMatrix main n blocks b (J b)) {i : Nat} {b : Int}
    (hi : blocks[i]? = some b) :
    (assembled main n input blocks J).row i =
      ((J b).row ((Block.rowsOf blocks b).idxOf i)).map fun e => (e.1 + b.toNat * main.n.toNat, e.2) := by
  have hb : b ∈ blocks := List.mem_of_getElem? hi
  have hmem : i ∈ Block.rowsOf blocks b := Block.mem_rowsOf.2 hi
  rw [assembled, Sparse.row_flatMap (Block.nodup_occurring blocks) (Block.mem_occurring.2 hb)]
  · apply Block.filterMap_placed (h b hb).bounded (h b hb).rows (Block.nodup_rowsOf blocks b)
    rw [List.getElem?_eq_getElem (List.idxOf_lt_length_iff.2 hmem), List.getElem_idxOf]
  · rintro b' hb' hne e he rfl
    obtain ⟨a, ha, rfl⟩ := List.mem_map.1 he
    have hb' := Block.mem_occurring.1 hb'
    have hlt : a.1 < (Block.rowsOf blocks b').length := (h b' hb').rows ▸ ((h b' hb').bounded a ha).1
    have hblock := Block.mem_rowsOf.1 (List.getElem_mem hlt)
    have hget : (Block.rowsOf blocks b').getD a.1 0 = (Block.rowsOf blocks b')[a.1] := by simp [hlt]
    rw [hget, hblock] at hi
    exact hne (Option.some.inj hi)

theorem rowProduct_assembled
    (h : ∀ b ∈ blocks, BlockMatrix main n blocks b (J b)) {i : Nat} {b : Int}
    (hi : blocks[i]? = some b) (s : List F) :
    Sparse.rowProduct ((assembled main n input blocks J).row i) s =
      Sparse.rowProduct ((J b).row ((Block.rowsOf blocks b).idxOf i))
        (Block.latentOf main.n.toNat s b) := by
  have hb := h b (List.mem_of_getElem? hi)
  rw [row_assembled h hi, Sparse.rowProduct_shift]
  · rfl
  · intro e he
    rw [← hb.columns]
    exact hb.bounded.row he

omit [Scalar F] in
theorem bounded_assembled (hlen : blocks.length = input.size)
    (h : ∀ b ∈ blocks, BlockMatrix main n blocks b (J b)) :
    (assembled main n input blocks J).Bounded := by
  intro e he
  simp only [assembled, Block.placed, List.mem_flatMap, List.mem_map, Block.mem_occurring] at he
  obtain ⟨b, hb, a, ha, rfl⟩ := he
  have hplace := (h b hb).bounded a ha
  have hlt : a.1 < (Block.rowsOf blocks b).length := (h b hb).rows ▸ hplace.1
  have hfits := (h b hb).fits
  have hcolumns := (h b hb).columns
  refine ⟨?_, ?_⟩
  · have hget : (Block.rowsOf blocks b).getD a.1 0 = (Block.rowsOf blocks b)[a.1] := by simp [hlt]
    simp only [assembled, ← hlen, hget]
    exact Block.lt_of_mem_rowsOf (List.getElem_mem hlt)
  · simp only [assembled]
    omega

end Component

/-- Values and rows of the derivative are multiplied by the same factors. -/
structure Weighs (input : Input F) (u : Nat → F) : Prop where
  values (y : Nat → F) : Block.weighted? input ((List.range input.size).map y) =
    .ok ((List.range input.size).map fun i => y i * u i)
  rows (A : Sparse F) : A.rows = input.size → A.Bounded →
    ∃ B, Block.weightedRows? input A = .ok B ∧ B.rows = A.rows ∧ B.columns = A.columns ∧
      B.Bounded ∧ ∀ i < input.size, ∀ x,
        Sparse.rowProduct (B.row i) x = u i * Sparse.rowProduct (A.row i) x

theorem exists_weighs [Exact F] {input : Input F} (h : input.WeightsFit) :
    ∃ u, Weighs input u := by
  let := Exact.commRing F
  by_cases hne : input.scale = .null
  · refine ⟨fun _ => Scalar.one, fun y => ?_, fun A hA hbounded => ⟨A, ?_, rfl, rfl, hbounded, ?_⟩⟩
    · simp only [Block.weighted?, Block.weights?, hne, bind, Except.bind, pure, Except.pure]
      exact congrArg Except.ok (List.map_congr_left fun i _ => (mul_one (y i)).symm)
    · simp only [Block.weightedRows?, Block.weights?, hne, bind, Except.bind, pure, Except.pure]
    · exact fun i _ x => (one_mul _).symm
  · obtain ⟨ws, hws, hfits⟩ := h.resolve_left hne
    choose! u hu using fun i (hi : i < input.size) => Fits.exists_item hfits hi
    have hweights := weights_eq_ok hne hws hfits hu
    refine ⟨u, fun y => ?_, fun A hA hbounded =>
      ⟨A.scaleRows ((List.range input.size).map u), ?_, rfl, rfl, ?_, ?_⟩⟩
    · simp only [Block.weighted?, hweights, bind, Except.bind]
      rw [pairwise_of_length (by simp), List.zipWith_map, List.zipWith_self]
    · simp [Block.weightedRows?, hweights, bind, Except.bind, hA, pure, Except.pure]
    · intro e he
      obtain ⟨a, ha, rfl⟩ := List.mem_map.1 he
      exact hbounded a ha
    · intro i hi x
      have hget : ((List.range input.size).map u).getD i Scalar.zero = u i := by simp [hi]
      rw [Sparse.row_scaleRows, hget, Sparse.rowProduct_scale]

section Affine

variable {main : Mapper F} {groups replicates : Int} {input : Input F} {n : Nat}
  {blocks : List Int} {c : Int → List F} {J : Int → Sparse F}

/-- The matrix of all blocks with weights. Without points it is not weighted, which makes no
difference. -/
theorem weighted_assembled {u : Nat → F} (hu : Weighs input u)
    (hlen : blocks.length = input.size)
    (h : ∀ b ∈ blocks, BlockMatrix main n blocks b (J b)) :
    ∃ A : Sparse F,
      (if (Block.occurring blocks).isEmpty then Except.ok (assembled main n input blocks J)
        else Block.weightedRows? input (assembled main n input blocks J)) = .ok A ∧
      A.rows = input.size ∧ A.columns = n ∧ A.Bounded ∧ ∀ i < input.size, ∀ x,
        Sparse.rowProduct (A.row i) x =
          u i * Sparse.rowProduct ((assembled main n input blocks J).row i) x := by
  by_cases hempty : blocks = []
  · refine ⟨assembled main n input blocks J, by simp [hempty, Block.occurring], rfl, rfl,
      bounded_assembled hlen h, fun i hi => ?_⟩
    rw [← hlen, hempty] at hi
    simp at hi
  · obtain ⟨b, hb⟩ := List.exists_mem_of_ne_nil _ hempty
    have hne : (Block.occurring blocks).isEmpty = false := by
      rw [List.isEmpty_eq_false_iff]
      exact List.ne_nil_of_mem (Block.mem_occurring.2 hb)
    obtain ⟨B, hB, hBrows, hBcolumns, hBbounded, hBproduct⟩ :=
      hu.rows (assembled main n input blocks J) rfl (bounded_assembled hlen h)
    exact ⟨B, by simpa [hne] using hB, hBrows, hBcolumns, hBbounded, hBproduct⟩

theorem jacobian_component (hn : main.n * groups * replicates = n)
    (hblocks : Block.blocks? groups replicates input = .ok blocks)
    (h : ∀ b ∈ blocks, BlockMatrix main n blocks b (J b)) {A : Sparse F}
    (hA : (if (Block.occurring blocks).isEmpty then Except.ok (assembled main n input blocks J)
      else Block.weightedRows? input (assembled main n input blocks J)) = .ok A)
    {state : Value F} {s : List F} (hs : latent? (main.n * groups * replicates) state = .ok s)
    (hentries : ∀ b ∈ blocks, Block.entries?
      (fun input s => main.jacobian? (some input) (Value.ofReals s)) main.n.toNat s blocks input.main b =
        .ok (Block.placed main.n.toNat (Block.rowsOf blocks b) b (J b))) :
    (component main groups replicates).jacobian? (some input) state = .ok A := by
  have hlen : blocks.length = input.size := Block.blocks_length hblocks
  have hwhole : (main.n * groups * replicates).toNat = n := by omega
  have hentries := mapM_eq_ok_map (l := Block.occurring blocks) fun b hb =>
    hentries b (Block.mem_occurring.1 hb)
  refine jacobian_eq_ok.2 ⟨s, blocks, _, hs, hblocks, hentries, by omega, ?_, ?_⟩
  · rw [hwhole, ← List.flatMap_def]
    exact fun e he => (bounded_assembled hlen h e he).2
  · rw [hwhole, ← List.flatMap_def, List.isEmpty_map]
    exact hA

/-- A component is affine when its main mapper is on the rows of each block. -/
theorem component_affine [Exact F] (hn : main.n * groups * replicates = n) (hw : input.WeightsFit)
    (hblocks : Block.blocks? groups replicates input = .ok blocks)
    (h : ∀ b ∈ blocks, AffineBlock main n input.main blocks b (c b) (J b)) :
    ∃ d A, (component main groups replicates).Affine input d A := by
  let := Exact.commRing F
  have hlen : blocks.length = input.size := Block.blocks_length hblocks
  obtain ⟨u, hu⟩ := exists_weighs hw
  have hmatrix := fun b hb => (h b hb).matrix
  obtain ⟨A, hA, hArows, hAcolumns, hAbounded, hAproduct⟩ := weighted_assembled hu hlen hmatrix
  let d (i : Nat) : F :=
    (c (blocks.getD i 0)).getD ((Block.rowsOf blocks (blocks.getD i 0)).idxOf i) Scalar.zero
  have hlength {state : Value F} {s : List F}
      (hs : latent? (main.n * groups * replicates) state = .ok s) : s.length = n := by
    have := latent_length hs
    omega
  refine ⟨(List.range input.size).map fun i => d i * u i, A, ?_, by simp [hArows], hAbounded,
    fun {state s} hs => ?_, fun {state s} hs => ?_⟩
  · rw [hAcolumns]
    exact hn.symm
  · exact jacobian_component hn hblocks hmatrix hA hs fun b hb => (h b hb).entries_eq (hlength hs)
  · rw [evaluate_component]
    refine ⟨s, blocks, fun i => blockValue main blocks (c (blocks.getD i 0)) (J (blocks.getD i 0)) s
      (blocks.getD i 0) i, hs, hblocks, fun b hb => ?_, ?_⟩
    · rw [(h b hb).values_eq (hlength hs)]
      refine congrArg Except.ok (List.map_congr_left fun i hi => ?_)
      have hi' : blocks.getD i 0 = b := by simp [Block.mem_rowsOf.1 hi]
      rw [hi']
    · rw [hu.values]
      refine congrArg Except.ok (List.ext_getElem (by simp [Sparse.length_apply, hArows]) ?_)
      intro i hi _
      rw [List.length_map, List.length_range] at hi
      have hb : blocks[i]? = some (blocks.getD i 0) := by simp [hlen, hi]
      simp only [List.getElem_map, List.getElem_range, List.getElem_zipWith, Sparse.apply,
        hAproduct i hi, rowProduct_assembled hmatrix hb, blockValue, d]
      ring

end Affine

end AdditiveModel.Mapper
