import AdditiveModel.Proofs.Partition

/-! A mapper with groups and replicates, point by point: the value at a point is the value of the
main mapper at that row alone, with the latent vector of the block of the row's own group and
replicate, times the row's own weight. -/

namespace AdditiveModel.Mapper

variable {F : Type} [Scalar F]

namespace Block

theorem indices_length {index : BlockIndex} {count : Int} {size : Nat} {values : Value F}
    {ks : List Int} (h : indices? index count size values = .ok ks) : ks.length = size := by
  unfold indices? at h
  split at h
  · cases h
    simp
  · simp only [bind_eq_ok, lift_eq_ok, check_eq_ok, pure_eq_ok] at h
    obtain ⟨g, -, cells, -, hlen, -, rfl⟩ := h
    simpa using hlen

theorem blocks_length {groups replicates : Int} {input : Input F} {blocks : List Int}
    (h : blocks? groups replicates input = .ok blocks) : blocks.length = input.size := by
  simp only [blocks?, bind_eq_ok, pure_eq_ok] at h
  obtain ⟨g, hg, r, hr, rfl⟩ := h
  simp [indices_length hg, indices_length hr]

theorem values_length {main : Input F → List F → Except Error (List F)} {m : Nat} {s : List F}
    {blocks : List Int} {v : Value F} {b : Int} {vs : List F}
    (h : values? main m s blocks v b = .ok vs) : vs.length = (rowsOf blocks b).length := by
  simp only [values?, bind_eq_ok, lift_eq_ok, fit_eq_ok] at h
  obtain ⟨_, _, _, _, ⟨h, rfl⟩ | ⟨_, w, _, rfl⟩⟩ := h
  · exact h
  · simp

end Block

theorem evaluate_component {main : Mapper F} {groups replicates : Int} {input : Input F}
    {state : Value F} {out : List F} :
    (component main groups replicates).evaluate? (some input) state = .ok out ↔
      ∃ s blocks, ∃ y : Nat → F, latent? (main.n * groups * replicates) state = .ok s ∧
        Block.blocks? groups replicates input = .ok blocks ∧
        (∀ b ∈ blocks, Block.values? (fun input s => main.evaluate? (some input) (Value.ofReals s))
          main.n.toNat s blocks input.main b = .ok ((Block.rowsOf blocks b).map y)) ∧
        Block.weighted? input ((List.range input.size).map y) = .ok out := by
  simp only [evaluate?, Block.evaluate?, required?, bind_eq_ok, lift_eq_ok, Except.ok.injEq,
    exists_eq_left']
  constructor
  · rintro ⟨s, hs, blocks, hblocks, ys, hys, hout⟩
    have hlen := Block.blocks_length hblocks
    obtain ⟨y, hy, rfl⟩ := (Block.foldlM_scatter_eq_ok (by simp [hlen])
      fun b vs h => Block.values_length h).1 hys
    exact ⟨s, blocks, y, hs, hblocks, hy, hlen ▸ hout⟩
  · rintro ⟨s, blocks, y, hs, hblocks, hy, hout⟩
    have hlen := Block.blocks_length hblocks
    refine ⟨s, hs, blocks, hblocks, _, ?_, hout⟩
    rw [← hlen]
    exact (Block.foldlM_scatter_eq_ok (by simp) fun b vs h => Block.values_length h).2 ⟨y, hy, rfl⟩

/-- The blocks have derivatives of their own; their entries have to lie in the columns of the latent
vector. Without blocks nothing is weighted. -/
theorem jacobian_eq_ok {main : Mapper F} {groups replicates : Int} {input : Input F}
    {state : Value F} {A : Sparse F} :
    (component main groups replicates).jacobian? (some input) state = .ok A ↔
      ∃ s blocks entries, latent? (main.n * groups * replicates) state = .ok s ∧
        Block.blocks? groups replicates input = .ok blocks ∧
        (Block.occurring blocks).mapM
          (Block.entries? (fun input s => main.jacobian? (some input) (Value.ofReals s))
            main.n.toNat s blocks input.main) = .ok entries ∧
        0 ≤ main.n * groups * replicates ∧
        (∀ e ∈ entries.flatten, e.2.1 < (main.n * groups * replicates).toNat) ∧
        (if entries.isEmpty
          then .ok ⟨input.size, (main.n * groups * replicates).toNat, entries.flatten⟩
          else Block.weightedRows? input
            ⟨input.size, (main.n * groups * replicates).toNat, entries.flatten⟩) = .ok A := by
  have hweighted (entries : List (List (Nat × Nat × F))) (B : Sparse F) :
      (if entries.isEmpty then pure B else lift (Block.weightedRows? input B)) =
          (.ok A : Except Error (Sparse F)) ↔
        (if entries.isEmpty then .ok B else Block.weightedRows? input B) = .ok A := by
    split <;> simp [lift_eq_ok]
  simp only [jacobian?, Block.jacobian?, required?, bind_eq_ok, Except.ok.injEq, exists_eq_left',
    check_eq_ok, hweighted, Bool.or_eq_true, decide_eq_true_iff, List.any_eq_true, not_or, Int.not_lt,
    not_exists, not_and, Nat.not_le]
  constructor
  · rintro ⟨s, hs, blocks, hblocks, entries, hentries, ⟨hn, hplaces⟩, hA⟩
    exact ⟨s, blocks, entries, hs, hblocks, hentries, hn, hplaces, hA⟩
  · rintro ⟨s, blocks, entries, hs, hblocks, hentries, hn, hplaces, hA⟩
    exact ⟨s, hs, blocks, hblocks, entries, hentries, ⟨hn, hplaces⟩, hA⟩

namespace Block

theorem take_eq {v : Value F} {g : Grid F} {rows : List Nat} (hg : Grid.ofValue v = .ok g)
    (hrows : ∀ i ∈ rows, i < g.rowCells.length) (hnil : g.shape = [] → rows = [0]) :
    take? v rows =
      .ok (Value.ofRows g.kind g.shape.tail (rows.map fun i => g.rowCells.getD i [])) := by
  unfold take?
  rw [bind_eq_ok]
  refine ⟨g, hg, ?_⟩
  cases hshape : g.shape with
  | nil =>
    rw [hnil hshape]
    simp [Value.ofRows, Grid.rowCells, hshape]
  | cons n shape =>
    have hcells : g.rowCells = g.slabs := by simp [Grid.rowCells, hshape]
    rw [hcells] at hrows ⊢
    rw [bind_eq_ok]
    refine ⟨rows.map fun i => g.slabs.getD i [], mapM_eq_ok_map fun i hi => ?_, ?_⟩
    · simp [List.getElem?_eq_getElem (hrows i hi)]
    · simp [Value.ofRows]

end Block

theorem Elementary.not_sparse {m : Mapper F} (h : m.Elementary) {rows columns : Nat}
    {entries : List (Nat × Nat × F)} {s vs : List F} :
    m.evaluate? (some (Input.ofMain (.array .any [1] [.sparse rows columns entries])))
      (Value.ofReals s) ≠ .ok vs := by
  intro hok
  cases h with
  | linear n =>
    simp [evaluate_linear, covariates_eq_ok, Input.ofMain, Grid.realsOfValue, Grid.cellToReal?,
      Value.elementToReal?, bind, Except.bind, Except.map] at hok
  | offset =>
    simp [evaluate_offset, Input.ofMain, Grid.realsOfValue, Grid.cellToReal?,
      Value.elementToReal?, bind, Except.bind, Except.map] at hok
  | index levels =>
    simp [evaluate_index, Input.ofMain, Grid.objects, Grid.objectsOf, Value.areKeys, Value.isKey,
      Value.plain] at hok

theorem Elementary.rows_of_shape_nil {m : Mapper F} (h : m.Elementary) {v row : Value F} {g : Grid F}
    {places : List Nat} {s vs : List F} (hv : v.Shaped) (hg : Grid.ofValue v = .ok g)
    (htake : Block.take? v places = .ok row)
    (hrow : m.evaluate? (some (Input.ofMain row)) (Value.ofReals s) = .ok vs) :
    g.shape = [] → v.rows = 1 := by
  intro hshape
  rcases AdditiveModel.rows_of_shape_nil hv hg hshape with h1 | ⟨rows, columns, entries, rfl⟩
  · exact h1
  · cases hg
    cases htake
    exact absurd hrow h.not_sparse

section Rows

variable {main : Mapper F} {v : Value F} {g : Grid F} {blocks : List Int} {b : Int}

theorem rowCells_length_eq (hv : v.Shaped) (hg : Grid.ofValue v = .ok g)
    (hnil : g.shape = [] → v.rows = 1) : g.rowCells.length = v.rows := by
  rw [Grid.rowCells_length]
  rcases ofValue_shape hv hg with hshape | ⟨shape, hshape⟩
  · rw [hshape, hnil hshape]
    rfl
  · rw [hshape]
    rfl

theorem take_one (hv : v.Shaped) (hg : Grid.ofValue v = .ok g) (hnil : g.shape = [] → v.rows = 1)
    {i : Nat} (hi : i < v.rows) :
    Block.take? v [i] = .ok (Value.ofRows g.kind g.shape.tail [g.rowCells.getD i []]) := by
  apply Block.take_eq hg
  · simpa [rowCells_length_eq hv hg hnil] using hi
  · intro hshape
    rw [hnil hshape] at hi
    simpa using hi

theorem take_block (hv : v.Shaped) (hg : Grid.ofValue v = .ok g) (hnil : g.shape = [] → v.rows = 1)
    (hlen : blocks.length = v.rows) (hb : b ∈ blocks) :
    Block.take? v (Block.rowsOf blocks b) = .ok (Value.ofRows g.kind g.shape.tail
      ((Block.rowsOf blocks b).map fun i => g.rowCells.getD i [])) := by
  apply Block.take_eq hg
  · intro i hi
    rw [rowCells_length_eq hv hg hnil, ← hlen]
    exact Block.lt_of_mem_rowsOf hi
  · intro hshape
    rw [hnil hshape] at hlen
    obtain ⟨c, rfl⟩ := List.length_eq_one_iff.1 hlen
    obtain rfl : b = c := by simpa using hb
    simp [Block.rowsOf]

theorem chosen_shaped (hv : v.Shaped) (hg : Grid.ofValue v = .ok g) (hnil : g.shape = [] → v.rows = 1)
    (hlen : blocks.length = v.rows) :
    ∀ r ∈ (Block.rowsOf blocks b).map fun i => g.rowCells.getD i [],
      r.length = Shape.count g.shape.tail := by
  intro r hr
  obtain ⟨i, hi, rfl⟩ := List.mem_map.1 hr
  have hlt : i < g.rowCells.length := by
    rw [rowCells_length_eq hv hg hnil, ← hlen]
    exact Block.lt_of_mem_rowsOf hi
  rw [List.getD_eq_getElem?_getD, List.getElem?_eq_getElem hlt, Option.getD_some]
  exact (ofValue_shaped v hv hg).length_of_mem (List.getElem_mem hlt)

theorem values_eq_ok (hm : main.RowByRow) (hv : v.Shaped) (hg : Grid.ofValue v = .ok g)
    (hnil : g.shape = [] → v.rows = 1) (hlen : blocks.length = v.rows) (hb : b ∈ blocks) {m : Nat}
    {s : List F} {y : Nat → F} :
    Block.values? (fun input s => main.evaluate? (some input) (Value.ofReals s)) m s blocks v b =
        .ok ((Block.rowsOf blocks b).map y) ↔
      ∀ i ∈ Block.rowsOf blocks b, ∃ row, Block.take? v [i] = .ok row ∧
        main.evaluate? (some (Input.ofMain row)) (Value.ofReals (Block.latentOf m s b)) = .ok [y i] := by
  have hshaped := chosen_shaped hv hg hnil hlen (b := b)
  have hfit := hm.fitted g.kind (Block.latentOf m s b) ((Block.rowsOf blocks b).map y)
    (by simpa using Block.rowsOf_ne_nil hb) hshaped
  simp only [List.length_map, atRows?, List.forall₂_map_left_iff, List.forall₂_map_right_iff,
    List.forall₂_same] at hfit
  simp only [Block.values?, bind_eq_ok, lift_eq_ok, take_block hv hg hnil hlen hb,
    Except.ok.injEq, exists_eq_left', hfit]
  refine forall₂_congr fun i hi => ?_
  have hlt : i < v.rows := hlen ▸ Block.lt_of_mem_rowsOf hi
  simp only [take_one hv hg hnil hlt, Except.ok.injEq, exists_eq_left']

end Rows

/-- The value at each point is the one of its row alone, in the block of the point. -/
theorem evaluate_rows {main : Mapper F} (hm : main.Elementary) {groups replicates : Int}
    {input : Input F} (hv : input.main.Shaped) {state : Value F} {out : List F} :
    (component main groups replicates).evaluate? (some input) state = .ok out ↔
      ∃ s blocks, ∃ y : Nat → F, latent? (main.n * groups * replicates) state = .ok s ∧
        Block.blocks? groups replicates input = .ok blocks ∧
        (∀ i b, blocks[i]? = some b → ∃ row, Block.take? input.main [i] = .ok row ∧
          main.evaluate? (some (Input.ofMain row))
            (Value.ofReals (Block.latentOf main.n.toNat s b)) = .ok [y i]) ∧
        Block.weighted? input ((List.range input.size).map y) = .ok out := by
  rw [evaluate_component]
  refine exists_congr fun s => exists_congr fun blocks => exists_congr fun y => ?_
  refine and_congr_right fun _ => and_congr_right fun hblocks => and_congr_left fun _ => ?_
  have hlen : blocks.length = input.main.rows := Block.blocks_length hblocks
  constructor
  · intro h i b hi
    have hb : b ∈ blocks := List.mem_of_getElem? hi
    have hvalues := h b hb
    simp only [Block.values?, bind_eq_ok, lift_eq_ok] at hvalues
    obtain ⟨part, htake, ws, hws, -⟩ := hvalues
    obtain ⟨g, hg, -⟩ := bind_eq_ok.1 htake
    have hnil := hm.rows_of_shape_nil hv hg htake hws
    exact (values_eq_ok hm.rowByRow hv hg hnil hlen hb).1 (h b hb) i (Block.mem_rowsOf.2 hi)
  · intro h b hb
    obtain ⟨i, hi⟩ := List.mem_iff_getElem?.1 hb
    obtain ⟨row, htake, hrow⟩ := h i b hi
    obtain ⟨g, hg, -⟩ := bind_eq_ok.1 htake
    have hnil := hm.rows_of_shape_nil hv hg htake hrow
    exact (values_eq_ok hm.rowByRow hv hg hnil hlen hb).2 fun i hi => h i b (Block.mem_rowsOf.1 hi)

end AdditiveModel.Mapper
