import AdditiveModel.Value.Coercion
import AdditiveModel.Proofs.Outcome

/-! Arrays hold as many elements as their shape says, and a value that is read as an array
gives such an array with one row for each of its rows. -/

namespace AdditiveModel

variable {F : Type}

namespace Shape

theorem count_eq_prod (shape : List Nat) : count shape = shape.prod :=
  List.prod_eq_foldl.symm

@[simp] theorem count_nil : count [] = 1 := rfl

@[simp] theorem count_cons (n : Nat) (shape : List Nat) : count (n :: shape) = n * count shape := by
  simp [count_eq_prod]

theorem offsets_length (axes : List (Nat × Nat)) : (offsets axes).length = (axes.map (·.1)).prod := by
  rw [offsets, ← Nat.one_mul (axes.map (·.1)).prod]
  change _ = [0].length * _
  generalize [0] = starts
  induction axes generalizing starts with
  | nil => simp
  | cons axis axes ih =>
    rw [List.foldl_cons, ih]
    simp [List.length_flatMap, mul_assoc]

end Shape

namespace Grid

def Shaped (g : Grid F) : Prop := g.cells.length = Shape.count g.shape

/-- The elements of each row; an array without axes is a single row. -/
def rowCells (g : Grid F) : List (List (Value F)) :=
  match g.shape with
  | [] => [g.cells]
  | _ :: _ => g.slabs

theorem rowCells_length (g : Grid F) : g.rowCells.length = g.shape.headD 1 := by
  unfold rowCells slabs
  cases g.shape <;> simp

theorem Shaped.length_of_mem {g : Grid F} (h : g.Shaped) {row : List (Value F)}
    (hrow : row ∈ g.rowCells) : row.length = Shape.count g.shape.tail := by
  unfold Shaped at h
  unfold rowCells slabs at hrow
  cases hs : g.shape with
  | nil => simp_all
  | cons n shape =>
    simp only [hs] at hrow
    exact length_of_mem_chunks (by simpa [hs] using h) hrow

end Grid

namespace Value

def ofRows (kind : Kind) (shape : List Nat) (rows : List (List (Value F))) : Value F :=
  array kind (rows.length :: shape) rows.flatten

mutual

/-- Every array inside has as many elements as its shape says, every column one for each row label. -/
def Shaped : Value F → Prop
  | array _ shape cells => cells.length = Shape.count shape
  | series index _ cells => cells.length = index.length
  | table index columns => ∀ c ∈ columns, c.2.2.length = index.length
  | list items | tuple items => AllShaped items
  | _ => True

def AllShaped : List (Value F) → Prop
  | [] => True
  | v :: vs => Shaped v ∧ AllShaped vs

end

theorem ofRows_shaped (kind : Kind) {shape : List Nat} {rows : List (List (Value F))}
    (h : ∀ row ∈ rows, row.length = Shape.count shape) : (ofRows kind shape rows).Shaped := by
  simp [ofRows, Shaped, length_flatten_of_length h]

end Value

theorem Grid.rowCells_ofRows {kind : Kind} {shape : List Nat} {rows : List (List (Value F))}
    (h : ∀ row ∈ rows, row.length = Shape.count shape) :
    Grid.rowCells ⟨kind, rows.length :: shape, rows.flatten⟩ = rows :=
  chunks_flatten h

variable [Scalar F]

theorem castAll_length {source target : Kind} {cells out : List (Value F)}
    (h : Value.castAll? source target cells = .ok out) : out.length = cells.length := by
  unfold Value.castAll? at h
  split at h
  · cases h; rfl
  · exact mapM_length h

theorem tableGrid_shaped {rows : Nat} {columns : List (String × Kind × List (Value F))} {g : Grid F}
    (h : Value.tableGrid rows columns = .ok g) : g.shape = [rows, columns.length] ∧ g.Shaped := by
  simp only [Value.tableGrid, bind_eq_ok, pure_eq_ok] at h
  obtain ⟨cells, -, rfl⟩ := h
  refine ⟨rfl, ?_⟩
  simp [Grid.Shaped, Grid.transpose, Grid.gather, Shape.offsets_length, Shape.strides]

theorem stack_shaped {parts : List (Grid F)} {g : Grid F} (hparts : ∀ p ∈ parts, p.Shaped)
    (h : Grid.stack? parts = .ok g) : (∃ shape, g.shape = parts.length :: shape) ∧ g.Shaped := by
  unfold Grid.stack? at h
  split at h
  · cases h
    exact ⟨⟨[], rfl⟩, rfl⟩
  · rename_i first rest
    split at h
    · rename_i hall
      simp only [bind_eq_ok, pure_eq_ok] at h
      obtain ⟨cells, hcells, rfl⟩ := h
      refine ⟨⟨_, rfl⟩, ?_⟩
      have hlen : ∀ c ∈ cells, c.length = Shape.count first.shape := by
        intro c hc
        obtain ⟨p, hp, hpc⟩ := forall₂_mem (mapM_eq_ok.1 hcells) hc
        rw [castAll_length hpc, hparts p hp]
        rcases List.mem_cons.1 hp with rfl | hp
        · rfl
        · rw [eq_of_beq (List.all_eq_true.1 hall p hp)]
      simp [Grid.Shaped, length_flatten_of_length hlen, mapM_length hcells]
    · simp at h

mutual

theorem ofValue_shaped : ∀ (v : Value F) {g : Grid F}, v.Shaped → Grid.ofValue v = .ok g → g.Shaped
  | .list items, g, hv, h | .tuple items, g, hv, h => by
    simp only [Grid.ofValue, bind_eq_ok] at h
    obtain ⟨gs, hgs, h⟩ := h
    exact (stack_shaped (ofValues_shaped items hv hgs) h).2
  | .array .., g, hv, h => by
    cases h
    exact hv
  | .series .., g, _, h => by
    cases h
    simp [Grid.Shaped, Grid.vector]
  | .table .., g, _, h => (tableGrid_shaped h).2
  | .bool _, g, _, h | .int _, g, _, h | .float _, g, _, h | .complex _ _, g, _, h
  | .str _, g, _, h | .cell _ _, g, _, h | .null, g, _, h | .bytes _, g, _, h | .ellipsis, g, _, h
  | .dict _, g, _, h | .slice .., g, _, h | .sparse .., g, _, h | .function _, g, _, h
  | .expression _, g, _, h => by
    cases h
    rfl

theorem ofValues_shaped : ∀ (vs : List (Value F)) {gs : List (Grid F)}, Value.AllShaped vs →
    Grid.ofValues vs = .ok gs → ∀ g ∈ gs, g.Shaped
  | [], gs, _, h => by
    cases h
    simp
  | v :: vs, gs, hv, h => by
    simp only [Grid.ofValues, bind_eq_ok, pure_eq_ok] at h
    obtain ⟨g, hg, rest, hrest, rfl⟩ := h
    simp only [List.mem_cons, forall_eq_or_imp]
    exact ⟨ofValue_shaped v hv.1 hg, ofValues_shaped vs hv.2 hrest⟩

end

theorem ofValues_length {vs : List (Value F)} {gs : List (Grid F)}
    (h : Grid.ofValues vs = .ok gs) : gs.length = vs.length := by
  induction vs generalizing gs with
  | nil =>
    cases h
    rfl
  | cons v vs ih =>
    simp only [Grid.ofValues, bind_eq_ok, pure_eq_ok] at h
    obtain ⟨g, -, rest, hrest, rfl⟩ := h
    simp [ih hrest]

theorem ofValue_shape {v : Value F} {g : Grid F} (hv : v.Shaped) (h : Grid.ofValue v = .ok g) :
    g.shape = [] ∨ ∃ shape, g.shape = v.rows :: shape := by
  cases v with
  | list items | tuple items =>
    simp only [Grid.ofValue, bind_eq_ok] at h
    obtain ⟨gs, hgs, h⟩ := h
    obtain ⟨⟨shape, hshape⟩, -⟩ := stack_shaped (ofValues_shaped items hv hgs) h
    exact Or.inr ⟨shape, by rw [hshape, ofValues_length hgs]; rfl⟩
  | array kind shape cells =>
    cases h
    cases shape with
    | nil => exact Or.inl rfl
    | cons n shape => exact Or.inr ⟨shape, rfl⟩
  | series index kind cells =>
    cases h
    exact Or.inr ⟨[], by rw [Value.rows, ← show cells.length = index.length from hv]; rfl⟩
  | table index columns => exact Or.inr ⟨_, (tableGrid_shaped h).1⟩
  | _ =>
    cases h
    exact Or.inl rfl

theorem rows_of_shape_nil {v : Value F} {g : Grid F} (hv : v.Shaped) (h : Grid.ofValue v = .ok g)
    (hg : g.shape = []) : v.rows = 1 ∨ ∃ rows columns entries, v = .sparse rows columns entries := by
  cases v with
  | list items | tuple items =>
    simp only [Grid.ofValue, bind_eq_ok] at h
    obtain ⟨gs, hgs, h⟩ := h
    obtain ⟨⟨shape, hshape⟩, -⟩ := stack_shaped (ofValues_shaped items hv hgs) h
    simp [hshape] at hg
  | array kind shape cells =>
    cases h
    cases hg
    exact Or.inl rfl
  | series index kind cells =>
    cases h
    simp [Grid.vector] at hg
  | table index columns => simp [(tableGrid_shaped h).1] at hg
  | sparse rows columns entries => exact Or.inr ⟨_, _, _, rfl⟩
  | _ => exact Or.inl rfl

end AdditiveModel
