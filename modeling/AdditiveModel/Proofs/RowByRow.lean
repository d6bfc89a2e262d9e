import AdditiveModel.Proofs.Exact
import AdditiveModel.Proofs.Selection

/-! Evaluation by blocks is evaluation row by row, so the rows can be permuted and left out. -/

namespace AdditiveModel.Mapper

variable {F : Type} [Scalar F]

/-- Values at the points exist when every point has one and the groups and replicates are valid. -/
theorem evaluate_points {main : Mapper F} (hm : main.Elementary) {groups replicates : Int}
    {input : Input F} (hv : input.main.Shaped) (hw : input.WeightsFit) (hsize : 0 < input.size)
    {state : Value F} {out : List F} :
    (component main groups replicates).evaluate? (some input) state = .ok out ↔
      ∃ s, latent? (main.n * groups * replicates) state = .ok s ∧
        (Block.IndexFits input.size input.group ∧ Block.IndexFits input.size input.replicate) ∧
        (∀ i < input.size, InRange groups replicates input i) ∧
        ∃ p : Nat → F, (∀ i < input.size, pointValue? main groups input s i = .ok (p i)) ∧
          out = (List.range input.size).map p := by
  rw [evaluate_rows hm hv]
  refine exists_congr fun s => ?_
  constructor
  · rintro ⟨blocks, y, hs, hblocks, hrows, hout⟩
    obtain ⟨hfits, g, r, rfl, hgr⟩ := (Block.blocks_eq_ok hsize).1 hblocks
    obtain ⟨w, hweights, rfl⟩ := (weighted_eq_ok hw).1 hout
    refine ⟨hs, hfits, fun i hi => ⟨fun k hk => ?_, fun k hk => ?_⟩,
      fun i => weigh (w i) (y i), fun i hi => ?_, rfl⟩
    · rw [(hgr i hi).1.1] at hk
      exact Except.ok.inj hk ▸ (hgr i hi).1.2
    · rw [(hgr i hi).2.1] at hk
      exact Except.ok.inj hk ▸ (hgr i hi).2.2
    · obtain ⟨row, hrow, hvalue⟩ := hrows i (Block.blockOf groups (g i) (r i)) (by simp [hi])
      exact pointValue_eq_ok.2 ⟨row, g i, r i, w i, y i, hrow, (hgr i hi).1.1, (hgr i hi).2.1,
        hweights i hi, hvalue, rfl⟩
  · rintro ⟨hs, hfits, hrange, p, hp, rfl⟩
    choose! row g r w y hrow hg hr hweight hvalue hpoint using fun i hi => pointValue_eq_ok.1 (hp i hi)
    refine ⟨_, y, hs, (Block.blocks_eq_ok hsize).2 ⟨hfits, g, r, rfl, fun i hi => ?_⟩,
      fun i b hb => ?_, (weighted_eq_ok hw).2 ⟨w, hweight, ?_⟩⟩
    · exact ⟨⟨hg i hi, (hrange i hi).1 _ (hg i hi)⟩, hr i hi, (hrange i hi).2 _ (hr i hi)⟩
    · rw [List.getElem?_map, Option.map_eq_some_iff] at hb
      obtain ⟨_, hj, rfl⟩ := hb
      obtain ⟨hlt, rfl⟩ := List.getElem?_eq_some_iff.1 hj
      have hi : i < input.size := by simpa using hlt
      rw [List.getElem_range]
      exact ⟨row i, hrow i hi, hvalue i hi⟩
    · exact List.map_congr_left fun i hi => (hpoint i (List.mem_range.1 hi)).symm

theorem evaluate_length {main : Mapper F} {groups replicates : Int} {input : Input F}
    (hw : input.WeightsFit) {state : Value F} {out : List F}
    (h : (component main groups replicates).evaluate? (some input) state = .ok out) :
    out.length = input.size := by
  obtain ⟨s, blocks, y, -, -, -, hout⟩ := evaluate_component.1 h
  obtain ⟨w, -, rfl⟩ := (weighted_eq_ok hw).1 hout
  simp

theorem select_eq_ok {main : Mapper F} (hm : main.Elementary) {groups replicates : Int}
    {input : Input F} (hv : input.main.Shaped) (hw : input.WeightsFit) {state : Value F} {out : List F}
    (h : (component main groups replicates).evaluate? (some input) state = .ok out)
    {places : List Nat} (hne : places ≠ []) (hplaces : ∀ i ∈ places, i < input.size) :
    ∃ selected, input.select? places = .ok selected ∧
      (component main groups replicates).evaluate? (some selected) state =
        .ok (places.map fun i => out.getD i Scalar.zero) := by
  have hpos : 0 < places.length := List.length_pos_iff.2 hne
  have hsize : 0 < input.size := Nat.zero_lt_of_lt (hplaces _ (List.head_mem hne))
  obtain ⟨s, hs, ⟨hgroup, hreplicate⟩, hrange, p, hp, rfl⟩ := (evaluate_points hm hv hw hsize).1 h
  -- some point has a value, so the main input is an array with rows
  obtain ⟨row, _, _, _, _, htake, -, -, -, hvalue, -⟩ := pointValue_eq_ok.1 (hp 0 hsize)
  obtain ⟨grid, hgrid, -⟩ := bind_eq_ok.1 htake
  have hnil := hm.rows_of_shape_nil hv hgrid htake hvalue
  obtain ⟨rows, hrows, hshaped, hcount, hrow⟩ := selectMain_rows hv hgrid hnil hplaces
  obtain ⟨gs, hgs, hgsfit, hgsnull, hg⟩ := selectIndex_fits hgroup hplaces
  obtain ⟨rs, hrs, hrsfit, hrsnull, hr⟩ := selectIndex_fits hreplicate hplaces
  obtain ⟨ws, hws, hwsfit, hweight⟩ := selectWeights_fits hw hplaces
  have hselected : input.select? places = .ok ⟨rows, gs, rs, ws⟩ := by
    simp only [Input.select?, bind_eq_ok, pure_eq_ok]
    exact ⟨rows, hrows, gs, hgs, rs, hrs, ws, hws, rfl⟩
  have hcount' : Input.size (⟨rows, gs, rs, ws⟩ : Input F) = places.length := hcount
  refine ⟨⟨rows, gs, rs, ws⟩, hselected, ?_⟩
  apply (evaluate_points hm hshaped (by rwa [Input.WeightsFit, hcount']) (by rwa [hcount'])).2
  rw [hcount']
  have hat : ∀ j < places.length, places[j]? = some (places.getD j 0) := by
    intro j hj
    simp [hj]
  have hmem : ∀ j < places.length, places.getD j 0 < input.size := by
    intro j hj
    exact hplaces _ (List.mem_of_getElem? (hat j hj))
  refine ⟨s, hs, ⟨hgsfit, hrsfit⟩, fun j hj => ⟨fun k hk => ?_, fun k hk => ?_⟩,
    fun j => p (places.getD j 0), fun j hj => ?_, ?_⟩
  · rw [hg j _ (hat j hj)] at hk
    exact ((hrange _ (hmem j hj)).1 k hk).imp_left hgsnull
  · rw [hr j _ (hat j hj)] at hk
    exact ((hrange _ (hmem j hj)).2 k hk).imp_left hrsnull
  · rw [← hp _ (hmem j hj)]
    simp only [pointValue?, hrow j _ (hat j hj), hg j _ (hat j hj), hr j _ (hat j hj),
      hweight j _ (hat j hj)]
  · apply List.ext_getElem (by simp)
    intro j hj _
    have hj' : j < places.length := by simpa using hj
    simp [hplaces _ (List.getElem_mem hj'), hj']

/-- Each value is the one of its row alone: of the main mapper at the row, in the block of the
row's group and replicate, times the row's weight. Rows in another order, or some of them, have the
values they had. -/
theorem component_row_by_row {main : Mapper F} (hm : main.Elementary) {groups replicates : Int}
    {input : Input F} (hv : input.main.Shaped) (hw : input.WeightsFit) {state : Value F} {out : List F}
    (h : (component main groups replicates).evaluate? (some input) state = .ok out) :
    out.length = input.size ∧
      (∃ s, latent? (component main groups replicates).n state = .ok s ∧
        ∀ i < input.size, ∃ v, out[i]? = some v ∧ pointValue? main groups input s i = .ok v) ∧
      ∀ places : List Nat, places ≠ [] → (∀ i ∈ places, i < input.size) →
        ∃ selected, input.select? places = .ok selected ∧
          (component main groups replicates).evaluate? (some selected) state =
            .ok (places.map fun i => out.getD i Scalar.zero) := by
  refine ⟨evaluate_length hw h, ?_, fun places hne hplaces => select_eq_ok hm hv hw h hne hplaces⟩
  rcases Nat.eq_zero_or_pos input.size with hsize | hsize
  · obtain ⟨s, -, -, hs, -⟩ := evaluate_component.1 h
    exact ⟨s, hs, fun i hi => absurd hi (by omega)⟩
  · obtain ⟨s, hs, -, -, p, hp, rfl⟩ := (evaluate_points hm hv hw hsize).1 h
    exact ⟨s, hs, fun i hi => ⟨p i, by simp [hi], hp i hi⟩⟩

/-- Three points in two groups that alternate, with one weight for all. -/
def Input.alternating : Input ℚ :=
  ⟨.list [.int 2, .int 3, .int 5], .list [.int 2, .int 1, .int 2], .null, .list [.int 10]⟩

theorem Input.alternating_shaped : alternating.main.Shaped := by
  simp [alternating, Value.Shaped, Value.AllShaped]

theorem Input.alternating_weights : alternating.WeightsFit :=
  Or.inr ⟨[10], by decide +kernel, Or.inl rfl⟩

theorem Input.alternating_values :
    (component (linear 1) 2 1).evaluate? (some alternating) (.ofReals [7, 11]) = .ok [220, 210, 550] :=
  evaluate_component.2 ⟨[7, 11], [1, 0, 1], fun i => [22, 21, 55].getD i 0, by decide +kernel,
    by decide +kernel, by decide +kernel, by decide +kernel⟩

theorem alternating_row_by_row :
    (component (linear 1) 2 1).evaluate? (some Input.alternating) (.ofReals [7, 11]) =
        .ok [220, 210, 550] ∧
      ∃ selected, Input.alternating.select? [2, 0] = .ok selected ∧
        (component (linear 1) 2 1).evaluate? (some selected) (.ofReals [7, 11]) = .ok [550, 220] :=
  ⟨Input.alternating_values,
    (component_row_by_row (.linear 1) Input.alternating_shaped Input.alternating_weights
      Input.alternating_values).2.2 [2, 0] (by decide) (by decide)⟩

def Input.mixed : Input ℚ := .ofMain (.list [.int 1, .str "a"])

def mixedLevels : Mapper ℚ := .index [.int 1, .str "a"]

/-- Cut into blocks, the list becomes an array of texts, and the text of the number is no level. -/
theorem mixed_row_lost :
    (component mixedLevels 1 1).evaluate? (some .mixed) (.ofReals [10, 20]) = .ok [0, 20] ∧
      (component mixedLevels 1 1).invalid? (some .mixed) = .ok [false, false] ∧
      mixedLevels.evaluate? (some (.ofMain (.list [.int 1]))) (.ofReals [10, 20]) = .ok [10] ∧
      (component mixedLevels 1 1).evaluate? (some (.ofMain (.list [.int 1]))) (.ofReals [10, 20]) =
        .ok [10] := by
  refine ⟨?_, rfl, by decide +kernel, ?_⟩
  · exact evaluate_component.2 ⟨[10, 20], [0, 0], fun i => [0, 20].getD i 0, by decide +kernel,
      by decide +kernel, by decide +kernel, by decide +kernel⟩
  · exact evaluate_component.2 ⟨[10, 20], [0], fun i => [10].getD i 0, by decide +kernel,
      by decide +kernel, by decide +kernel, by decide +kernel⟩

end AdditiveModel.Mapper
