import AdditiveModel.Proofs.BlockRows

/-! Points are independent of each other: what a mapper gives at one point is decided by the row,
the group, the replicate and the weight of that point, so a choice of points, in any order, has
the values of the chosen points. -/

namespace AdditiveModel.Mapper

variable {F : Type} [Scalar F]

def item? {α : Type} (items : List α) (i : Nat) : Except Fault α :=
  match items[i]? with
  | some a => .ok a
  | none => .error .index

def itemOrSingle? {α : Type} (items : List α) (i : Nat) : Except Fault α :=
  match items with
  | [a] => .ok a
  | items => item? items i

def wholeOf? (kind : Kind) (v : Value F) : Except Fault Int :=
  (if kind == .int64 then .ok v else Value.cast? .int64 v).map Block.integerOf

/-- The group or replicate of point `i`: one without any, a single value for all points. -/
def indexAt? (values : Value F) (i : Nat) : Except Fault Int :=
  match values with
  | .null => .ok 1
  | values => do
    let g ← Grid.ofValue values
    wholeOf? g.kind (← itemOrSingle? g.cells i)

def weightAt? (scale : Value F) (i : Nat) : Except Fault (Option F) :=
  match scale with
  | .null => .ok none
  | v => do return some (← itemOrSingle? (← v.vector?) i)

def weigh (w : Option F) (v : F) : F :=
  match w with
  | none => v
  | some w => v * w

/-- There are no weights, one for all points or one for each point. -/
def Input.WeightsFit (input : Input F) : Prop :=
  input.scale = .null ∨
    ∃ ws, input.scale.vector? = .ok ws ∧ (ws.length = 1 ∨ ws.length = input.size)

theorem item_eq_ok {α : Type} {items : List α} {i : Nat} {a : α} :
    item? items i = .ok a ↔ items[i]? = some a := by
  unfold item?
  cases items[i]? <;> simp

/-- One item for all of `size` points, or one for each. -/
def Fits {α : Type} (size : Nat) (items : List α) : Prop :=
  items.length = 1 ∨ items.length = size

section Items

variable {α : Type} {size : Nat} {items : List α}

theorem Fits.exists_item (h : Fits size items) {i : Nat} (hi : i < size) :
    ∃ a, itemOrSingle? items i = .ok a := by
  rcases h with h | h
  · obtain ⟨a, rfl⟩ := List.length_eq_one_iff.1 h
    exact ⟨a, rfl⟩
  · unfold itemOrSingle?
    split
    · exact ⟨_, rfl⟩
    · exact ⟨_, item_eq_ok.2 (List.getElem?_eq_getElem (h ▸ hi))⟩

theorem length_spread (hsize : 0 < size) :
    (Block.spread size items).length = size ↔ Fits size items := by
  unfold Block.spread Fits
  split
  · split <;> simp
    omega
  · rename_i hne
    have : items.length ≠ 1 := by
      intro h
      obtain ⟨a, rfl⟩ := List.length_eq_one_iff.1 h
      exact hne a rfl
    simp [this]

theorem getElem?_spread {i : Nat} (hi : i < size) {a : α} :
    (Block.spread size items)[i]? = some a ↔ itemOrSingle? items i = .ok a := by
  match items with
  | [v] =>
    have hs : Block.spread size [v] = List.replicate size v := by
      by_cases h : size > 1
      · exact if_pos h
      · obtain rfl : size = 1 := by omega
        rfl
    rw [hs, List.getElem?_replicate_of_lt hi]
    simp [itemOrSingle?]
  | [] => exact item_eq_ok.symm
  | _ :: _ :: _ => exact item_eq_ok.symm

end Items

namespace Block

theorem castAll_whole {kind : Kind} {cells : List (Value F)} {ks : List Int} :
    (∃ cs, Value.castAll? kind .int64 cells = .ok cs ∧ cs.map integerOf = ks) ↔
      cells.mapM (wholeOf? kind) = .ok ks := by
  rw [mapM_eq_ok]
  simp only [wholeOf?, map_eq_ok, forall₂_exists]
  unfold Value.castAll?
  by_cases h : (kind == .int64) = true
  · simp [h, List.forall₂_eq_eq_eq]
  · simp [h, mapM_eq_ok]

theorem indexAt_of_grid {values : Value F} {g : Grid F} (hne : values ≠ .null)
    (hg : Grid.ofValue values = .ok g) (i : Nat) :
    indexAt? values i = itemOrSingle? g.cells i >>= wholeOf? g.kind := by
  unfold indexAt?
  split
  · exact absurd rfl hne
  · rw [hg]
    rfl

theorem indexAt_eq_ok {values : Value F} {g : Grid F} (hne : values ≠ .null)
    (hg : Grid.ofValue values = .ok g) {i : Nat} {k : Int} :
    indexAt? values i = .ok k ↔ ∃ a, itemOrSingle? g.cells i = .ok a ∧ wholeOf? g.kind a = .ok k := by
  rw [indexAt_of_grid hne hg, bind_eq_ok]

def IndexFits (size : Nat) (values : Value F) : Prop :=
  values = .null ∨ ∃ g, Grid.ofValue values = .ok g ∧ Fits size g.cells

/-- There is a group or replicate for each point, in range where it is given. -/
theorem indices_eq_ok {index : BlockIndex} {count : Int} {size : Nat} {values : Value F}
    {ks : List Int} (hsize : 0 < size) :
    indices? index count size values = .ok ks ↔
      IndexFits size values ∧ ∃ k : Nat → Int, ks = (List.range size).map k ∧
        ∀ i < size, indexAt? values i = .ok (k i) ∧ (values = .null ∨ 1 ≤ k i ∧ k i ≤ count) := by
  by_cases hne : values = .null
  · subst hne
    simp only [indices?, indexAt?, IndexFits, Except.ok.injEq, true_or, true_and, and_true]
    constructor
    · rintro rfl
      exact ⟨fun _ => 1, by simp, fun _ _ => rfl⟩
    · rintro ⟨k, rfl, hk⟩
      rw [List.map_congr_left fun i hi => (hk i (List.mem_range.1 hi)).symm]
      simp
  · have hopen : indices? index count size values = .ok ks ↔
        ∃ g, Grid.ofValue values = .ok g ∧ (spread size g.cells).mapM (wholeOf? g.kind) = .ok ks ∧
          ks.length = size ∧ ∀ k ∈ ks, 1 ≤ k ∧ k ≤ count := by
      unfold indices?
      split
      · exact absurd rfl hne
      · simp only [bind_eq_ok, lift_eq_ok, check_eq_ok, pure_eq_ok, ← castAll_whole]
        refine exists_congr fun g => and_congr_right fun _ => ⟨?_, ?_⟩
        · rintro ⟨cs, hcs, hlen, hrange, rfl⟩
          exact ⟨⟨cs, hcs, rfl⟩, by simpa using hlen, by simpa using hrange⟩
        · rintro ⟨⟨cs, hcs, rfl⟩, hlen, hrange⟩
          exact ⟨cs, hcs, by simpa using hlen, by simpa using hrange, rfl⟩
    rw [hopen]
    simp only [IndexFits, hne, false_or]
    constructor
    · rintro ⟨g, hg, hks, hlen, hrange⟩
      have hspread : (spread size g.cells).length = size := by rw [← mapM_length hks, hlen]
      obtain ⟨k, rfl, hk⟩ := (forall₂_range hspread).1 (mapM_eq_ok.1 hks)
      refine ⟨⟨g, hg, (length_spread hsize).1 hspread⟩, k, rfl, fun i hi => ⟨?_, ?_⟩⟩
      · obtain ⟨a, ha, hak⟩ := hk i hi
        exact (indexAt_eq_ok hne hg).2 ⟨a, (getElem?_spread hi).1 ha, hak⟩
      · exact hrange _ (List.mem_map_of_mem (List.mem_range.2 hi))
    · rintro ⟨⟨g, hg, hfits⟩, k, rfl, hk⟩
      have hspread := (length_spread hsize).2 hfits
      refine ⟨g, hg, mapM_eq_ok.2 ((forall₂_range hspread).2 ⟨k, rfl, fun i hi => ?_⟩), by simp, ?_⟩
      · obtain ⟨a, ha, hak⟩ := (indexAt_eq_ok hne hg).1 (hk i hi).1
        exact ⟨a, (getElem?_spread hi).2 ha, hak⟩
      · intro x hx
        obtain ⟨i, hi, rfl⟩ := List.mem_map.1 hx
        exact (hk i (List.mem_range.1 hi)).2

theorem blocks_eq_ok {groups replicates : Int} {input : Input F} {blocks : List Int}
    (hsize : 0 < input.size) :
    blocks? groups replicates input = .ok blocks ↔
      (IndexFits input.size input.group ∧ IndexFits input.size input.replicate) ∧
      ∃ g r : Nat → Int, blocks = (List.range input.size).map (fun i => blockOf groups (g i) (r i)) ∧
        ∀ i < input.size,
          (indexAt? input.group i = .ok (g i) ∧ (input.group = .null ∨ 1 ≤ g i ∧ g i ≤ groups)) ∧
          indexAt? input.replicate i = .ok (r i) ∧
            (input.replicate = .null ∨ 1 ≤ r i ∧ r i ≤ replicates) := by
  simp only [blocks?, bind_eq_ok, pure_eq_ok, indices_eq_ok hsize]
  constructor
  · rintro ⟨_, ⟨hgroup, g, rfl, hg⟩, _, ⟨hreplicate, r, rfl, hr⟩, rfl⟩
    refine ⟨⟨hgroup, hreplicate⟩, g, r, ?_, fun i hi => ⟨hg i hi, hr i hi⟩⟩
    rw [List.zipWith_map, List.zipWith_self]
  · rintro ⟨⟨hgroup, hreplicate⟩, g, r, rfl, h⟩
    refine ⟨_, ⟨hgroup, g, rfl, fun i hi => (h i hi).1⟩, _, ⟨hreplicate, r, rfl, fun i hi => (h i hi).2⟩, ?_⟩
    rw [List.zipWith_map, List.zipWith_self]

end Block

omit [Scalar F] in
theorem pairwise_of_length {op : F → F → F} {xs ys : List F} (h : xs.length = ys.length) :
    pairwise? op xs ys = .ok (List.zipWith op xs ys) := by
  simp [pairwise?, h]

theorem weightAt_of_vector {scale : Value F} {ws : List F} (hne : scale ≠ .null)
    (hws : scale.vector? = .ok ws) (i : Nat) :
    weightAt? scale i = some <$> itemOrSingle? ws i := by
  unfold weightAt?
  split
  · exact absurd rfl hne
  · rw [hws]
    rfl

theorem weightAt_eq_ok {scale : Value F} {ws : List F} (hne : scale ≠ .null)
    (hws : scale.vector? = .ok ws) {i : Nat} {w : Option F} :
    weightAt? scale i = .ok w ↔ ∃ a, itemOrSingle? ws i = .ok a ∧ some a = w := by
  rw [weightAt_of_vector hne hws, ← map_eq_ok]
  rfl

theorem weights_eq_ok {input : Input F} (hne : input.scale ≠ .null) {ws : List F}
    (hws : input.scale.vector? = .ok ws) (hfits : Fits input.size ws) {v : Nat → F}
    (hv : ∀ i < input.size, itemOrSingle? ws i = .ok (v i)) :
    Block.weights? input = .ok (some ((List.range input.size).map v)) := by
  unfold Block.weights?
  split
  · exact absurd (by assumption) hne
  · rw [hws]
    match ws with
    | [w] =>
      have hw : (List.range input.size).map v = List.replicate input.size w := by
        rw [List.map_congr_left fun i hi => (Except.ok.inj (hv i (List.mem_range.1 hi))).symm]
        simp
      simp [hw, bind, Except.bind, pure, Except.pure]
    | [] | _ :: _ :: _ =>
      have hlen := hfits.resolve_left (by simp)
      have hw := (forall₂_range (R := fun a b => a = b) hlen).2 ⟨v, rfl, fun i hi =>
        ⟨v i, item_eq_ok.1 (hv i hi), rfl⟩⟩
      rw [List.forall₂_eq_eq_eq] at hw
      simp [← hw, bind, Except.bind, pure, Except.pure]

theorem weighted_null {input : Input F} (h : input.scale = .null) (xs : List F) :
    Block.weighted? input xs = .ok xs := by
  simp [Block.weighted?, Block.weights?, h, bind, Except.bind]

theorem weighted_vector {input : Input F} {xs ws : List F} (hne : input.scale ≠ .null)
    (hws : input.scale.vector? = .ok ws) (hlen : ws.length = xs.length)
    (hsize : input.size = xs.length) :
    Block.weighted? input xs = .ok (List.zipWith (· * ·) xs ws) := by
  have hweights : Block.weights? input = .ok (some ws) := by
    unfold Block.weights?
    split
    · contradiction
    · rw [hws, bind_eq_ok]
      refine ⟨ws, rfl, ?_⟩
      split
      · rw [hsize, ← hlen]
        rfl
      · rfl
  simp [Block.weighted?, hweights, bind, Except.bind, pairwise?, hlen]

theorem weighted_eq_ok {input : Input F} (h : input.WeightsFit) {y : Nat → F} {out : List F} :
    Block.weighted? input ((List.range input.size).map y) = .ok out ↔
      ∃ w : Nat → Option F, (∀ i < input.size, weightAt? input.scale i = .ok (w i)) ∧
        out = (List.range input.size).map fun i => weigh (w i) (y i) := by
  by_cases hne : input.scale = .null
  · simp only [Block.weighted?, Block.weights?, hne, bind_eq_ok, weightAt?, Except.ok.injEq,
      exists_eq_left', pure_eq_ok]
    constructor
    · rintro rfl
      exact ⟨fun _ => none, fun _ _ => rfl, rfl⟩
    · rintro ⟨w, hw, rfl⟩
      exact List.map_congr_left fun i hi => by rw [← hw i (List.mem_range.1 hi), weigh]
  · obtain ⟨ws, hws, hfits⟩ := h.resolve_left hne
    choose! v hv using fun i (hi : i < input.size) => Fits.exists_item hfits hi
    have hout : Block.weighted? input ((List.range input.size).map y) =
        .ok ((List.range input.size).map fun i => weigh (some (v i)) (y i)) := by
      simp only [Block.weighted?, weights_eq_ok hne hws hfits hv, bind, Except.bind]
      rw [pairwise_of_length (by simp), List.zipWith_map, List.zipWith_self]
      rfl
    rw [hout, Except.ok.injEq]
    simp only [weightAt_eq_ok hne hws]
    constructor
    · rintro rfl
      exact ⟨fun i => some (v i), fun i hi => ⟨v i, hv i hi, rfl⟩, rfl⟩
    · rintro ⟨w, hw, rfl⟩
      refine List.map_congr_left fun i hi => ?_
      obtain ⟨a, ha, hwa⟩ := hw i (List.mem_range.1 hi)
      rw [hv i (List.mem_range.1 hi)] at ha
      rw [← hwa, Except.ok.inj ha]

/-- The items at some places; a single item is kept. -/
def choose? {α : Type} (items : List α) (places : List Nat) : Except Fault (List α) :=
  if items.length == 1 then .ok items else places.mapM (item? items)

def selectMain? (v : Value F) (places : List Nat) : Except Fault (Value F) := do
  let g ← Grid.ofValue v
  return Value.ofRows g.kind g.shape.tail (← places.mapM (item? g.rowCells))

def selectIndex? (v : Value F) (places : List Nat) : Except Fault (Value F) :=
  match v with
  | .null => .ok .null
  | v => do
    let g ← Grid.ofValue v
    let cells ← choose? g.cells places
    return .array g.kind [cells.length] cells

def selectWeights? (v : Value F) (places : List Nat) : Except Fault (Value F) :=
  match v with
  | .null => .ok .null
  | v => do return .ofReals (← choose? (← v.vector?) places)

/-- The inputs at some points, with their groups, replicates and weights. -/
def Input.select? (input : Input F) (places : List Nat) : Except Fault (Input F) := do
  return { main := ← selectMain? input.main places, group := ← selectIndex? input.group places,
           replicate := ← selectIndex? input.replicate places,
           scale := ← selectWeights? input.scale places }

section Select

variable {size : Nat} {places : List Nat}

theorem itemOrSingle_of_item {α : Type} {items : List α} {i : Nat} {a : α}
    (h : item? items i = .ok a) : itemOrSingle? items i = .ok a := by
  unfold itemOrSingle?
  split
  · rw [item_eq_ok, List.getElem?_singleton] at h
    split at h
    · rw [Option.some.inj h]
    · simp at h
  · exact h

theorem choose_fits {α : Type} {items : List α} (h : Fits size items)
    (hplaces : ∀ i ∈ places, i < size) :
    ∃ chosen, choose? items places = .ok chosen ∧ Fits places.length chosen ∧
      ∀ j i, places[j]? = some i → itemOrSingle? chosen j = itemOrSingle? items i := by
  by_cases h1 : items.length = 1
  · refine ⟨items, by simp [choose?, h1], Or.inl h1, fun j i _ => ?_⟩
    obtain ⟨a, rfl⟩ := List.length_eq_one_iff.1 h1
    rfl
  · have hlen := h.resolve_left h1
    obtain ⟨chosen, hchosen⟩ : ∃ chosen, places.mapM (item? items) = .ok chosen := by
      apply exists_mapM
      intro i hi
      exact ⟨_, item_eq_ok.2 (List.getElem?_eq_getElem (hlen ▸ hplaces i hi))⟩
    refine ⟨chosen, by simp [choose?, h1, hchosen], Or.inr (mapM_length hchosen), fun j i hj => ?_⟩
    obtain ⟨a, ha, hitem⟩ := forall₂_getElem? (mapM_eq_ok.1 hchosen) hj
    rw [itemOrSingle_of_item (item_eq_ok.2 ha), itemOrSingle_of_item hitem]

theorem selectIndex_fits {v : Value F} (h : Block.IndexFits size v)
    (hplaces : ∀ i ∈ places, i < size) :
    ∃ chosen, selectIndex? v places = .ok chosen ∧ Block.IndexFits places.length chosen ∧
      (v = .null → chosen = .null) ∧
      ∀ j i, places[j]? = some i → indexAt? chosen j = indexAt? v i := by
  by_cases hne : v = .null
  · subst hne
    exact ⟨.null, rfl, Or.inl rfl, fun h => h, fun _ _ _ => rfl⟩
  · obtain ⟨g, hg, hfits⟩ := h.resolve_left hne
    obtain ⟨cells, hcells, hfits', hitem⟩ := choose_fits hfits hplaces
    refine ⟨.array g.kind [cells.length] cells, ?_, Or.inr ⟨_, rfl, hfits'⟩, fun h => absurd h hne,
      fun j i hj => ?_⟩
    · unfold selectIndex?
      split
      · exact absurd rfl hne
      · simp [bind_eq_ok, hg, hcells]
    · rw [Block.indexAt_of_grid (by simp) rfl, Block.indexAt_of_grid hne hg, hitem j i hj]

theorem selectWeights_fits {v : Value F}
    (h : v = .null ∨ ∃ ws, v.vector? = .ok ws ∧ Fits size ws) (hplaces : ∀ i ∈ places, i < size) :
    ∃ chosen, selectWeights? v places = .ok chosen ∧
      (chosen = .null ∨ ∃ ws, chosen.vector? = .ok ws ∧ Fits places.length ws) ∧
      ∀ j i, places[j]? = some i → weightAt? chosen j = weightAt? v i := by
  by_cases hne : v = .null
  · subst hne
    exact ⟨.null, rfl, Or.inl rfl, fun _ _ _ => rfl⟩
  · obtain ⟨ws, hws, hfits⟩ := h.resolve_left hne
    obtain ⟨chosen, hchosen, hfits', hitem⟩ := choose_fits hfits hplaces
    have hnull : Value.ofReals chosen ≠ .null := by simp [Value.ofReals, Value.ofGrid, Grid.ofFloats,
      Grid.vector]
    refine ⟨.ofReals chosen, ?_, Or.inr ⟨chosen, vector_ofReals chosen, hfits'⟩, fun j i hj => ?_⟩
    · unfold selectWeights?
      split
      · exact absurd rfl hne
      · simp [bind_eq_ok, hws, hchosen]
    · rw [weightAt_of_vector hnull (vector_ofReals chosen), weightAt_of_vector hne hws, hitem j i hj]

theorem selectMain_rows {v : Value F} {g : Grid F} (hv : v.Shaped) (hg : Grid.ofValue v = .ok g)
    (hnil : g.shape = [] → v.rows = 1) (hplaces : ∀ i ∈ places, i < v.rows) :
    ∃ chosen, selectMain? v places = .ok chosen ∧ chosen.Shaped ∧ chosen.rows = places.length ∧
      ∀ j i, places[j]? = some i → Block.take? chosen [j] = Block.take? v [i] := by
  have hcount := rowCells_length_eq hv hg hnil
  have hget : ∀ i ∈ places, item? g.rowCells i = .ok (g.rowCells.getD i []) := by
    intro i hi
    have hlt : i < g.rowCells.length := by rw [hcount]; exact hplaces i hi
    rw [item_eq_ok, List.getD_eq_getElem?_getD, List.getElem?_eq_getElem hlt, Option.getD_some]
  have hlen : ∀ row ∈ places.map fun i => g.rowCells.getD i [],
      row.length = Shape.count g.shape.tail := by
    intro row hrow
    obtain ⟨i, hi, rfl⟩ := List.mem_map.1 hrow
    exact (ofValue_shaped v hv hg).length_of_mem (List.mem_of_getElem? (item_eq_ok.1 (hget i hi)))
  refine ⟨_, ?_, Value.ofRows_shaped g.kind hlen, by simp [Value.ofRows, Value.rows], fun j i hj => ?_⟩
  · simp only [selectMain?, bind_eq_ok, pure_eq_ok]
    exact ⟨g, hg, _, mapM_eq_ok_map hget, rfl⟩
  · rw [take_one hv hg hnil (hplaces i (List.mem_of_getElem? hj)),
      take_one (Value.ofRows_shaped g.kind hlen) rfl (by simp)
        (by simpa [Value.ofRows, Value.rows] using (List.getElem?_eq_some_iff.1 hj).1)]
    simp only [Grid.rowCells_ofRows hlen, List.tail_cons]
    simp [hj]

end Select

/-- The value of a main mapper at the row of one point, with the latent vector of the block of its
group and replicate, times its weight. -/
def pointValue? (main : Mapper F) (groups : Int) (input : Input F) (s : List F) (i : Nat) :
    Except Error F := do
  let row ← lift (Block.take? input.main [i])
  let g ← lift (indexAt? input.group i)
  let r ← lift (indexAt? input.replicate i)
  let w ← lift (weightAt? input.scale i)
  let b := (g - 1) + groups * (r - 1)
  let values ← main.evaluate? (some (Input.ofMain row))
    (Value.ofReals ((s.drop (b.toNat * main.n.toNat)).take main.n.toNat))
  match values with
  | [v] => return weigh w v
  | _ => throw (.fault .value)

theorem pointValue_eq_ok {main : Mapper F} {groups : Int} {input : Input F} {s : List F} {i : Nat}
    {p : F} :
    pointValue? main groups input s i = .ok p ↔
      ∃ row g r w v, Block.take? input.main [i] = .ok row ∧ indexAt? input.group i = .ok g ∧
        indexAt? input.replicate i = .ok r ∧ weightAt? input.scale i = .ok w ∧
        main.evaluate? (some (Input.ofMain row))
          (Value.ofReals (Block.latentOf main.n.toNat s (Block.blockOf groups g r))) = .ok [v] ∧
        weigh w v = p := by
  simp only [pointValue?, bind_eq_ok, lift_eq_ok]
  constructor
  · rintro ⟨row, hrow, g, hg, r, hr, w, hw, values, hvalues, hp⟩
    split at hp
    · exact ⟨row, g, r, w, _, hrow, hg, hr, hw, hvalues, pure_eq_ok.1 hp⟩
    · simp at hp
  · rintro ⟨row, g, r, w, v, hrow, hg, hr, hw, hvalues, rfl⟩
    exact ⟨row, hrow, g, hg, r, hr, w, hw, [v], hvalues, rfl⟩

/-- The group and the replicate of a point are in range where they are given. -/
def InRange (groups replicates : Int) (input : Input F) (i : Nat) : Prop :=
  (∀ g, indexAt? input.group i = .ok g → input.group = .null ∨ 1 ≤ g ∧ g ≤ groups) ∧
    ∀ r, indexAt? input.replicate i = .ok r → input.replicate = .null ∨ 1 ≤ r ∧ r ≤ replicates

end AdditiveModel.Mapper
