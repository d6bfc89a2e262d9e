import AdditiveModel.Proofs.BlockRows

/-! The report of the points that a mapper has no latent variable for. The report is about all rows
at once, the values are about the rows of each block; a mapper with values at every row has a report. -/

namespace AdditiveModel.Mapper

variable {F : Type} [Scalar F] {kind : Kind} {shape : List Nat} {rows : List (List (Value F))}

/-- Every row is among some rows that the mapper has values at. -/
def Reads (m : Mapper F) (kind : Kind) (shape : List Nat) (rows : List (List (Value F))) : Prop :=
  ∀ r ∈ rows, ∃ part t ws, r ∈ part ∧ (∀ r ∈ part, r.length = Shape.count shape) ∧
    m.atRows? kind shape part t = .ok ws

/-- Every row belongs to a block, so the main mapper of a component with values reads all rows. -/
theorem reads_of_component {main : Mapper F} {groups replicates : Int} {input : Input F}
    (hmain : input.main = Value.ofRows kind shape rows)
    (hrows : ∀ r ∈ rows, r.length = Shape.count shape) {state : Value F} {out : List F}
    (h : (component main groups replicates).evaluate? (some input) state = .ok out) :
    main.Reads kind shape rows := by
  intro r hr
  obtain ⟨s, blocks, _, -, hblocks, hvalues, -⟩ := evaluate_component.1 h
  rw [hmain] at hvalues
  have hlen : blocks.length = (Value.ofRows kind shape rows).rows := by
    rw [← hmain]
    exact Block.blocks_length hblocks
  have hcells : Grid.rowCells ⟨kind, rows.length :: shape, rows.flatten⟩ = rows :=
    Grid.rowCells_ofRows hrows
  have hv := Value.ofRows_shaped kind hrows
  obtain ⟨i, hi, rfl⟩ := List.getElem_of_mem hr
  have hi' : i < blocks.length := by
    rw [hlen]
    exact hi
  have hb : blocks[i] ∈ blocks := List.getElem_mem hi'
  have hnil : rows.length :: shape = [] → (Value.ofRows kind shape rows).rows = 1 := nofun
  have hvalue := hvalues _ hb
  simp only [Block.values?, bind_eq_ok, lift_eq_ok, take_block hv rfl hnil hlen hb, hcells,
    Except.ok.injEq, exists_eq_left'] at hvalue
  obtain ⟨ws, hws, -⟩ := hvalue
  refine ⟨_, _, ws, List.mem_map.2 ⟨i, Block.mem_rowsOf.2 (List.getElem?_eq_getElem hi'), ?_⟩, ?_,
    hws⟩
  · simp [hi]
  · have hchosen := chosen_shaped hv rfl hnil hlen (b := blocks[i])
    rwa [hcells] at hchosen

theorem Reads.exists_invalid {m : Mapper F} (h : m.Reads kind shape rows) :
    ∃ marks, m.invalid? (some (Input.ofMain (Value.ofRows kind shape rows))) = .ok marks := by
  induction m with
  | linear | offset | function | expanded => exact ⟨_, rfl⟩
  | index levels =>
    have hkeys : Value.areKeys (rows.flatten.map Value.plain) = true := by
      rw [areKeys_flatten]
      intro r hr
      obtain ⟨part, t, ws, hpart, -, hws⟩ := h r hr
      exact (areKeys_flatten part).1 (evaluate_index.1 hws).2.1 r hpart
    have hpositions : Levels.positions? levels (Value.ofRows kind shape rows) = .ok _ :=
      positions_eq_ok.2 ⟨hkeys, rfl⟩
    simp only [invalid?, Levels.invalid?, required?, bind_eq_ok, Except.ok.injEq, exists_eq_left',
      lift_eq_ok, Input.ofMain, hpositions, pure_eq_ok]
    exact ⟨_, rfl⟩
  | component main groups replicates ih =>
    refine ih fun r hr => ?_
    obtain ⟨part, t, ws, hpart, hshaped, hws⟩ := h r hr
    exact reads_of_component rfl hshaped hws r hpart

end AdditiveModel.Mapper
