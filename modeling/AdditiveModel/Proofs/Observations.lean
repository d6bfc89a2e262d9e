import AdditiveModel.Proofs.Counts
import AdditiveModel.Proofs.MainField
import AdditiveModel.Proofs.RowByRow

/-! Inputs with one entry for each observation. A scalar is repeated for any number of observations and
a single element for more than one, so only data without observations can leave an input too long. A
mapper whose inputs have an entry for each point is evaluated point by point: no condition on lengths
is left. -/

namespace AdditiveModel

variable {F : Type}

namespace Value

def VectorOf (size : Nat) (v : Value F) : Prop :=
  ∃ kind cells, cells.length = size ∧ v = .array kind [size] cells

end Value

/-- The main input has an entry for each of `size` points, and so have the others where they are given. -/
structure Mapper.Input.Aligned (size : Nat) (input : Mapper.Input F) : Prop where
  main : input.main.VectorOf size
  group : input.group = .null ∨ input.group.VectorOf size
  replicate : input.replicate = .null ∨ input.replicate.VectorOf size
  scale : input.scale = .null ∨ input.scale.VectorOf size

variable [Scalar F]

namespace Value

/-- A scalar, a vector of one entry or a vector of `size` entries. -/
structure ForEach (size : Nat) (v : Value F) : Prop where
  given : v ≠ .null
  shaped : v.Shaped
  fits : ∃ g, Grid.ofValue v = .ok g ∧ (g.shape = [] ∨ g.shape = [1] ∨ g.shape = [size])

def Single (v : Value F) : Prop := ∃ g, Grid.ofValue v = .ok g ∧ g.shape = [1]

theorem not_single_null : ¬ (null : Value F).Single := by
  rintro ⟨g, hg, hshape⟩
  cases hg
  cases hshape

omit [Scalar F] in
theorem VectorOf.ne_null {size : Nat} {v : Value F} (h : v.VectorOf size) : v ≠ .null := by
  obtain ⟨kind, cells, -, rfl⟩ := h
  nofun

theorem VectorOf.grid {size : Nat} {v : Value F} (h : v.VectorOf size) :
    ∃ g, Grid.ofValue v = .ok g ∧ g.cells.length = size := by
  obtain ⟨kind, cells, hlen, rfl⟩ := h
  exact ⟨_, rfl, hlen⟩

theorem VectorOf.length_of_vector {size : Nat} {v : Value F} (h : v.VectorOf size) {ws : List F}
    (hws : v.vector? = .ok ws) : ws.length = size := by
  obtain ⟨kind, cells, hlen, rfl⟩ := h
  obtain ⟨r, hr, rfl⟩ := map_eq_ok.1 hws
  obtain ⟨xs, hxs, rfl⟩ := map_eq_ok.1 hr
  rw [mapM_length hxs, hlen]

theorem VectorOf.vector_zero {v : Value F} (h : v.VectorOf 0) : v.vector? = .ok [] := by
  obtain ⟨kind, cells, hlen, rfl⟩ := h
  rw [List.length_eq_zero_iff.1 hlen]
  rfl

end Value

namespace Component

/-- What is read has an entry for each observation, unless it is a single element and there is no
observation. -/
theorem spread_vectorOf {size : Nat} {v : Value F} (h : v.ForEach size) :
    ∃ w, spread? size v = .ok w ∧ (w.VectorOf size ↔ (size = 0 → ¬ v.Single)) := by
  obtain ⟨g, hg, hshape⟩ := h.fits
  have hcells : g.cells.length = Shape.count g.shape := ofValue_shaped v h.shaped hg
  have hsingle : v.Single ↔ g.shape = [1] := by
    simp [Value.Single, hg]
  obtain ⟨hrepeated, hkept⟩ := spread_eq h.given hg size
  by_cases hrepeat : g.shape = [] ∨ g.shape = [1] ∧ 1 < size
  · obtain ⟨x, hx⟩ : ∃ x, g.cells = [x] := by
      apply List.length_eq_one_iff.1
      rcases hrepeat with hnil | ⟨hone, -⟩
      · rw [hcells, hnil, Shape.count_nil]
      · rw [hcells, hone]
        rfl
    refine ⟨_, hrepeated x hx hrepeat, iff_of_true ⟨_, _, List.length_replicate, rfl⟩ ?_⟩
    rw [hsingle]
    intro hsize hone
    rcases hrepeat with hnil | ⟨-, hlt⟩
    · rw [hnil] at hone
      cases hone
    · omega
  · rw [not_or, not_and] at hrepeat
    refine ⟨_, hkept hrepeat.1 fun hone => Nat.le_of_not_lt (hrepeat.2 hone), ?_⟩
    rw [hsingle]
    by_cases hown : g.shape = [size]
    · refine iff_of_true ⟨g.kind, g.cells, ?_, by rw [Value.ofGrid, hown]⟩ ?_
      · rw [hcells, hown, Shape.count_cons, Shape.count_nil, Nat.mul_one]
      · rintro rfl hone
        rw [hown] at hone
        cases hone
    · -- a single element, and not one observation: there is none
      have hone : g.shape = [1] := (hshape.resolve_left hrepeat.1).resolve_right hown
      have hsize : size = 0 := by
        have hle := Nat.le_of_not_lt (hrepeat.2 hone)
        have hne : size ≠ 1 := by
          rintro rfl
          exact hown hone
        omega
      refine iff_of_false ?_ fun h => h hsize hone
      rintro ⟨kind, cells, -, heq⟩
      exact hown (Value.array.inj heq).2.1

theorem spread_optional {size : Nat} {v : Value F} (h : v = .null ∨ v.ForEach size) :
    ∃ w, spread? size v = .ok w ∧ (v = .null ↔ w = .null) ∧
      (w = .null ∨ w.VectorOf size ↔ (size = 0 → ¬ v.Single)) := by
  rcases h with rfl | h
  · exact ⟨.null, rfl, Iff.rfl, iff_of_true (Or.inl rfl) fun _ => Value.not_single_null⟩
  · obtain ⟨w, hw, hiff⟩ := spread_vectorOf h
    have hne : w ≠ .null := by
      rintro rfl
      unfold spread? at hw
      split at hw
      · exact h.given rfl
      · obtain ⟨g, -, hw⟩ := bind_eq_ok.1 hw
        split at hw
        · cases hw
        · split at hw <;> cases hw
        · cases hw
    exact ⟨w, hw, iff_of_false h.given hne, by simpa [hne] using hiff⟩

end Component

namespace Mapper

variable {size : Nat} {input : Input F}

/-- The block that point `k` belongs to: its group and its replicate are integers, in range where
they are given. -/
def Input.InBlock (groups replicates : Int) (input : Input F) (k : Nat) (b : Int) : Prop :=
  ∃ g r, indexAt? input.group k = .ok g ∧ (input.group = .null ∨ 1 ≤ g ∧ g ≤ groups) ∧
    indexAt? input.replicate k = .ok r ∧ (input.replicate = .null ∨ 1 ≤ r ∧ r ≤ replicates) ∧
    b = Block.blockOf groups g r

/-- What evaluation reads at each of `size` points: its block, its value among those that the main
mapper gives for the points of this block, and its weight. -/
structure Input.Points (size : Nat) (main : Mapper F) (groups replicates : Int) (input : Input F)
    (s : List F) (b : Nat → Int) (y : Nat → F) (w : Nat → Option F) : Prop where
  block : ∀ k < size, input.InBlock groups replicates k (b k)
  value : ∀ k < size, Block.values? (fun input s => main.evaluate? (some input) (Value.ofReals s))
    main.n.toNat s ((List.range size).map b) input.main (b k) =
      .ok ((Block.rowsOf ((List.range size).map b) (b k)).map y)
  weight : ∀ k < size, weightAt? input.scale k = .ok (w k)

theorem indexFits_of_vectorOf {v : Value F} (h : v = .null ∨ v.VectorOf size) :
    Block.IndexFits size v := by
  refine h.imp_right fun hv => ?_
  obtain ⟨g, hg, hlen⟩ := hv.grid
  exact ⟨g, hg, Or.inr hlen⟩

theorem indices_zero {index : BlockIndex} {count : Int} {v : Value F}
    (h : v = .null ∨ v.VectorOf 0) : Block.indices? index count 0 v = .ok [] := by
  rcases h with rfl | ⟨kind, cells, hlen, rfl⟩
  · rfl
  · obtain rfl := List.length_eq_zero_iff.1 hlen
    have hcast : Value.castAll? kind .int64 ([] : List (Value F)) = .ok [] := by
      unfold Value.castAll?
      split <;> rfl
    refine bind_eq_ok.2 ⟨⟨kind, [0], []⟩, rfl, bind_eq_ok.2 ⟨[], lift_eq_ok.2 hcast, ?_⟩⟩
    rfl

namespace Input.Aligned

omit [Scalar F] in
theorem size_eq (h : input.Aligned size) : input.size = size := by
  obtain ⟨kind, cells, -, hmain⟩ := h.main
  rw [Input.size, hmain]
  rfl

omit [Scalar F] in
theorem shaped (h : input.Aligned size) : input.main.Shaped := by
  obtain ⟨kind, cells, hlen, hmain⟩ := h.main
  rw [hmain]
  simpa [Value.Shaped] using hlen

theorem blocks_eq_ok {groups replicates : Int} (h : input.Aligned size) {blocks : List Int} :
    Block.blocks? groups replicates input = .ok blocks ↔ ∃ b : Nat → Int,
      blocks = (List.range size).map b ∧ ∀ k < size, input.InBlock groups replicates k (b k) := by
  obtain rfl := h.size_eq
  rcases Nat.eq_zero_or_pos input.size with hsize | hsize
  · have hblocks : Block.blocks? groups replicates input = .ok [] := by
      have hgroup := h.group
      have hreplicate := h.replicate
      rw [hsize] at hgroup hreplicate
      simp only [Block.blocks?, hsize, indices_zero hgroup, indices_zero hreplicate]
      rfl
    rw [hblocks, hsize]
    simp [eq_comm]
  · rw [Block.blocks_eq_ok hsize]
    constructor
    · rintro ⟨-, g, r, rfl, hgr⟩
      exact ⟨_, rfl, fun k hk => ⟨g k, r k, (hgr k hk).1.1, (hgr k hk).1.2, (hgr k hk).2.1,
        (hgr k hk).2.2, rfl⟩⟩
    · rintro ⟨b, rfl, hb⟩
      choose! g r hg hgroups hr hreplicates heq using hb
      refine ⟨⟨indexFits_of_vectorOf h.group, indexFits_of_vectorOf h.replicate⟩, g, r, ?_,
        fun k hk => ⟨⟨hg k hk, hgroups k hk⟩, hr k hk, hreplicates k hk⟩⟩
      exact List.map_congr_left fun k hk => heq k (List.mem_range.1 hk)

theorem weightsFit_of_points (h : input.Aligned size) {w : Nat → Option F}
    (hw : ∀ k < size, weightAt? input.scale k = .ok (w k)) : input.WeightsFit := by
  obtain rfl := h.size_eq
  refine h.scale.imp_right fun (hv : input.scale.VectorOf input.size) => ?_
  obtain ⟨ws, hws⟩ : ∃ ws, input.scale.vector? = .ok ws := by
    rcases Nat.eq_zero_or_pos input.size with hsize | hsize
    · rw [hsize] at hv
      exact ⟨[], hv.vector_zero⟩
    · have hfirst := hw 0 hsize
      unfold weightAt? at hfirst
      split at hfirst
      · exact absurd ‹_› hv.ne_null
      · obtain ⟨ws, hws, -⟩ := bind_eq_ok.1 hfirst
        exact ⟨ws, hws⟩
  exact ⟨ws, hws, Or.inr (hv.length_of_vector hws)⟩

theorem weightsFit_of_weighted (h : input.Aligned size) {xs out : List F}
    (hout : Block.weighted? input xs = .ok out) : input.WeightsFit := by
  obtain rfl := h.size_eq
  obtain ⟨weights, hweights, -⟩ := bind_eq_ok.1 hout
  rcases Block.weights_cases hweights with ⟨hnull, -⟩ | ⟨hne, ws, hws, -⟩
  · exact Or.inl hnull
  · have hv : input.scale.VectorOf input.size := h.scale.resolve_left hne
    exact Or.inr ⟨ws, hws, Or.inr (hv.length_of_vector hws)⟩

theorem weighted_eq_ok (h : input.Aligned size) {y : Nat → F} {out : List F} :
    Block.weighted? input ((List.range size).map y) = .ok out ↔ ∃ w : Nat → Option F,
      (∀ k < size, weightAt? input.scale k = .ok (w k)) ∧
        out = (List.range size).map fun k => weigh (w k) (y k) := by
  constructor
  · intro hout
    have hfits := h.weightsFit_of_weighted hout
    obtain rfl := h.size_eq
    exact (Mapper.weighted_eq_ok hfits).1 hout
  · rintro ⟨w, hw, rfl⟩
    have hfits := h.weightsFit_of_points hw
    obtain rfl := h.size_eq
    exact (Mapper.weighted_eq_ok hfits).2 ⟨w, hw, rfl⟩

theorem evaluate_eq_ok (h : input.Aligned size) {main : Mapper F} {groups replicates : Int}
    {state : Value F} {out : List F} :
    (component main groups replicates).evaluate? (some input) state = .ok out ↔
      ∃ s b y w, latent? (main.n * groups * replicates) state = .ok s ∧
        input.Points size main groups replicates s b y w ∧
        out = (List.range size).map fun k => weigh (w k) (y k) := by
  have hsize := h.size_eq
  rw [evaluate_component]
  constructor
  · rintro ⟨s, blocks, y, hs, hblocks, hy, hout⟩
    obtain ⟨b, rfl, hb⟩ := h.blocks_eq_ok.1 hblocks
    rw [hsize, h.weighted_eq_ok] at hout
    obtain ⟨w, hw, rfl⟩ := hout
    exact ⟨s, b, y, w, hs, ⟨hb, fun k hk => hy _ (List.mem_map_of_mem (List.mem_range.2 hk)), hw⟩, rfl⟩
  · rintro ⟨s, b, y, w, hs, hpoints, rfl⟩
    refine ⟨s, _, y, hs, h.blocks_eq_ok.2 ⟨b, rfl, hpoints.block⟩, fun c hc => ?_, ?_⟩
    · obtain ⟨k, hk, rfl⟩ := List.mem_map.1 hc
      exact hpoints.value k (List.mem_range.1 hk)
    · rw [hsize]
      exact h.weighted_eq_ok.2 ⟨w, hpoints.weight, rfl⟩

/-- Where the main mapper reads rows one by one, the value at each point is the one of its row. -/
theorem evaluate_points (h : input.Aligned size) {main : Mapper F} (hm : main.Elementary)
    {groups replicates : Int} {state : Value F} {out : List F} :
    (component main groups replicates).evaluate? (some input) state = .ok out ↔
      ∃ s, ∃ p : Nat → F, latent? (main.n * groups * replicates) state = .ok s ∧
        (∀ k < size, InRange groups replicates input k) ∧
        (∀ k < size, pointValue? main groups input s k = .ok (p k)) ∧
        out = (List.range size).map p := by
  rcases Nat.eq_zero_or_pos size with rfl | hpos
  · rw [h.evaluate_eq_ok]
    constructor
    · rintro ⟨s, _, _, _, hs, -, rfl⟩
      exact ⟨s, fun _ => Scalar.zero, hs, nofun, nofun, rfl⟩
    · rintro ⟨s, _, hs, -, -, rfl⟩
      exact ⟨s, fun _ => 0, fun _ => Scalar.zero, fun _ => none, hs, ⟨nofun, nofun, nofun⟩, rfl⟩
  · have hsize := h.size_eq
    have hrows (hfits : input.WeightsFit) {out : List F} :
        (component main groups replicates).evaluate? (some input) state = .ok out ↔ _ :=
      Mapper.evaluate_points hm h.shaped hfits (hsize ▸ hpos)
    rw [hsize] at hrows
    constructor
    · intro hout
      obtain ⟨_, _, _, -, -, -, hweighted⟩ := evaluate_component.1 hout
      obtain ⟨s, hs, -, hrange, p, hp, hout⟩ :=
        (hrows (h.weightsFit_of_weighted hweighted)).1 hout
      exact ⟨s, p, hs, hrange, hp, hout⟩
    · rintro ⟨s, p, hs, hrange, hp, rfl⟩
      have hweights : ∀ k < size, ∃ w, weightAt? input.scale k = .ok w := by
        intro k hk
        obtain ⟨_, _, _, w, _, -, -, -, hw, -⟩ := pointValue_eq_ok.1 (hp k hk)
        exact ⟨w, hw⟩
      choose! w hw using hweights
      exact (hrows (h.weightsFit_of_points hw)).2
        ⟨s, hs, ⟨indexFits_of_vectorOf h.group, indexFits_of_vectorOf h.replicate⟩, hrange, p, hp, rfl⟩

end Input.Aligned

end Mapper

namespace Component

/-- For specifications that are scalars, single elements or have an entry for each observation, the
inputs have an entry for each observation, except for a single element without observations. Then no
length can make the mapper fail: it has values exactly when the latent vector fits it, every point has
a group, a replicate and a weight, and the main mapper has values for every block, or for every row
where it reads these one by one. -/
theorem input_aligned {c : Component F} {data : Value F} {size : Nat}
    (hsize : Data.length? data = .ok size) {main group replicate weights : Value F}
    (hmain : specValue? c.mainSpec data = .ok main) (hgroup : specValue? c.group data = .ok group)
    (hreplicate : specValue? c.replicate data = .ok replicate)
    (hweights : specValue? c.weights data = .ok weights) (hmains : main.ForEach size)
    (hgroups : group = .null ∨ group.ForEach size)
    (hreplicates : replicate = .null ∨ replicate.ForEach size)
    (hscales : weights = .null ∨ weights.ForEach size) :
    ∃ i, c.input? data = .ok i ∧
      (group = .null ↔ i.group = .null) ∧ (replicate = .null ↔ i.replicate = .null) ∧
      (weights = .null ↔ i.scale = .null) ∧
      (i.Aligned size ↔
        (size = 0 → ¬ main.Single ∧ ¬ group.Single ∧ ¬ replicate.Single ∧ ¬ weights.Single)) ∧
      (i.Aligned size → ∀ m groups replicates state out,
        ((Mapper.component m groups replicates).evaluate? (some i) state = .ok out ↔
          ∃ s b y w, Mapper.latent? (m.n * groups * replicates) state = .ok s ∧
            i.Points size m groups replicates s b y w ∧
            out = (List.range size).map fun k => Mapper.weigh (w k) (y k)) ∧
        (m.Elementary →
          ((Mapper.component m groups replicates).evaluate? (some i) state = .ok out ↔
            ∃ s, ∃ p : Nat → F, Mapper.latent? (m.n * groups * replicates) state = .ok s ∧
              (∀ k < size, Mapper.InRange groups replicates i k) ∧
              (∀ k < size, Mapper.pointValue? m groups i s k = .ok (p k)) ∧
              out = (List.range size).map p))) := by
  obtain ⟨x, hx, hxiff⟩ := spread_vectorOf hmains
  obtain ⟨g, hg, hgnull, hgiff⟩ := spread_optional hgroups
  obtain ⟨r, hr, hrnull, hriff⟩ := spread_optional hreplicates
  obtain ⟨w, hw, hwnull, hwiff⟩ := spread_optional hscales
  refine ⟨⟨x, g, r, w⟩, input_eq_ok.2 ⟨size, hsize, ⟨main, hmain, hx⟩, ⟨group, hgroup, hg⟩,
    ⟨replicate, hreplicate, hr⟩, ⟨weights, hweights, hw⟩⟩, hgnull, hrnull, hwnull, ?_,
    fun h m groups replicates state out => ⟨h.evaluate_eq_ok, fun hm => h.evaluate_points hm⟩⟩
  constructor
  · intro h hzero
    exact ⟨hxiff.1 h.main hzero, hgiff.1 h.group hzero, hriff.1 h.replicate hzero,
      hwiff.1 h.scale hzero⟩
  · intro h
    exact ⟨hxiff.2 fun hzero => (h hzero).1, hgiff.2 fun hzero => (h hzero).2.1,
      hriff.2 fun hzero => (h hzero).2.2.1, hwiff.2 fun hzero => (h hzero).2.2.2⟩

/-- A slope whose observations are all in the first group, with one weight for all. -/
def oneGroup : Component ℚ :=
  { slopes with group := .list [.int 1], weights := .int 10, mapper := some (.component (.linear 1) 1 1) }

theorem oneGroup_aligned :
    ∃ i, oneGroup.input? (inGroups [2, 3] []).data = .ok i ∧ i.Aligned 2 ∧
      (Mapper.component (.linear 1) 1 1).evaluate? (some i) (.ofReals [7]) = .ok [140, 210] := by
  have hmain : (Value.list [.float 2, .float (3 : ℚ)]).ForEach 2 :=
    ⟨nofun, ⟨trivial, trivial, trivial⟩, _, rfl, Or.inr (Or.inr rfl)⟩
  have hgroup : (Value.list [.int 1] : Value ℚ).ForEach 2 :=
    ⟨nofun, ⟨trivial, trivial⟩, _, rfl, Or.inr (Or.inl rfl)⟩
  have hweights : (Value.int 10 : Value ℚ).ForEach 2 := ⟨nofun, trivial, _, rfl, Or.inl rfl⟩
  obtain ⟨i, hi, -, -, -, haligned, hvalues⟩ :=
    input_aligned (c := oneGroup) (show Data.length? (inGroups [2, 3] []).data = .ok 2 from rfl)
      rfl rfl rfl rfl hmain (Or.inr hgroup) (Or.inl rfl) (Or.inr hweights)
  have h := haligned.2 nofun
  cases hi
  refine ⟨_, rfl, h, ((hvalues h _ _ _ _ _).2 (.linear 1)).2
    ⟨[7], fun k => [140, 210].getD k 0, by decide +kernel, fun k hk => ⟨?_, ?_⟩, ?_, rfl⟩⟩
  · intro g hg
    have hone : ∀ k < 2, Mapper.indexAt? (.array .int64 [2] [.int 1, .int 1] : Value ℚ) k = .ok 1 := by
      decide +kernel
    obtain rfl := Except.ok.inj ((hone k hk).symm.trans hg)
    exact Or.inr ⟨le_rfl, le_rfl⟩
  · rintro r -
    exact Or.inl rfl
  · decide +kernel

/-- Without observations the scalar weight is repeated no times, but the group stays at one entry. -/
theorem empty_misaligned : ∃ main i, Data.length? (inGroups [] []).data = .ok 0 ∧
    specValue? oneGroup.mainSpec (inGroups [] []).data = .ok main ∧ main.ForEach 0 ∧
    oneGroup.group.ForEach 0 ∧ oneGroup.weights.ForEach 0 ∧
    oneGroup.input? (inGroups [] []).data = .ok i ∧
    i.main.VectorOf 0 ∧ i.scale.VectorOf 0 ∧ i.group = .array .int64 [1] [.int 1] ∧
    oneGroup.mapper = some (.component (.linear 1) 1 1) ∧
    (Mapper.component (.linear 1) 1 1).evaluate? (some i) (.ofReals [7]) =
      .error (.blockLength .group 1 0) :=
  ⟨_, _, rfl, rfl, ⟨nofun, trivial, _, rfl, Or.inr (Or.inr rfl)⟩,
    ⟨nofun, ⟨trivial, trivial⟩, _, rfl, Or.inr (Or.inl rfl)⟩, ⟨nofun, trivial, _, rfl, Or.inl rfl⟩,
    rfl, ⟨_, _, rfl, rfl⟩, ⟨_, _, rfl, rfl⟩, rfl, rfl, rfl⟩

end Component

end AdditiveModel
