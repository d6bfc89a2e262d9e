import AdditiveModel.Proofs.Rows

/-! The blocks that occur partition the points. Each block writes its own values to its own
points, so the values of all blocks together are one value for each point. -/

namespace AdditiveModel.Mapper.Block

variable {F : Type}

theorem mem_occurring {blocks : List Int} {b : Int} : b ∈ occurring blocks ↔ b ∈ blocks := by
  rw [occurring, List.mem_mergeSort, List.mem_eraseDups]

theorem nodup_occurring (blocks : List Int) : (occurring blocks).Nodup :=
  (List.mergeSort_perm _ _).nodup_iff.2 (nodup_eraseDups blocks)

theorem mem_rowsOf {blocks : List Int} {b : Int} {i : Nat} :
    i ∈ rowsOf blocks b ↔ blocks[i]? = some b := by
  simp only [rowsOf, List.mem_filterMap, Prod.exists, List.mk_mem_zipIdx_iff_getElem?]
  constructor
  · rintro ⟨c, j, hj, h⟩
    split at h
    · rename_i hcb
      cases h
      rw [hj, eq_of_beq hcb]
    · simp at h
  · intro h
    exact ⟨b, i, h, by simp⟩

theorem lt_of_mem_rowsOf {blocks : List Int} {b : Int} {i : Nat} (h : i ∈ rowsOf blocks b) :
    i < blocks.length := by
  have := mem_rowsOf.1 h
  exact (List.getElem?_eq_some_iff.1 this).1

theorem rowsOf_ne_nil {blocks : List Int} {b : Int} (h : b ∈ blocks) : rowsOf blocks b ≠ [] := by
  obtain ⟨i, hi, hb⟩ := List.getElem_of_mem h
  apply List.ne_nil_of_mem
  exact mem_rowsOf.2 (by rw [List.getElem?_eq_getElem hi, hb])

theorem nodup_rowsOf (blocks : List Int) (b : Int) : (rowsOf blocks b).Nodup := by
  refine (nodup_zipIdx blocks).filterMap ?_
  rintro ⟨c, i⟩ ⟨c', i'⟩ j hj hj'
  split at hj
  split at hj'
  simp_all

theorem length_rowsOf_le (blocks : List Int) (b : Int) : (rowsOf blocks b).length ≤ blocks.length :=
  Nat.le_trans (List.length_filterMap_le _ _) (Nat.le_of_eq List.length_zipIdx)

section Scatter

theorem length_scatter (out : List F) (rows : List Nat) (values : List F) :
    (scatter out rows values).length = out.length := by
  unfold scatter
  generalize rows.zip values = places
  induction places generalizing out with
  | nil => rfl
  | cons place places ih => rw [List.foldl_cons, ih, List.length_set]

/-- Writing the values of a function changes its places only, whatever their order. -/
theorem getElem?_scatter_map (y : Nat → F) (rows : List Nat) (out : List F) {j : Nat}
    (hj : j < out.length) :
    (scatter out rows (rows.map y))[j]? = if j ∈ rows then some (y j) else out[j]? := by
  induction rows generalizing out with
  | nil => simp [scatter]
  | cons i rows ih =>
    have hstep : scatter out (i :: rows) ((i :: rows).map y) =
        scatter (out.set i (y i)) rows (rows.map y) := rfl
    rw [hstep, ih _ (by rwa [List.length_set])]
    by_cases hmem : j ∈ rows
    · simp [hmem]
    · by_cases hij : j = i
      · subst hij
        simp [hmem, hj]
      · simp [hmem, hij, List.getElem?_set_ne (Ne.symm hij)]

def assemble (blocks : List Int) (y : Nat → F) (bs : List Int) (out : List F) : List F :=
  bs.foldl (fun out b => scatter out (rowsOf blocks b) ((rowsOf blocks b).map y)) out

theorem length_assemble (blocks : List Int) (y : Nat → F) (bs : List Int) (out : List F) :
    (assemble blocks y bs out).length = out.length := by
  unfold assemble
  induction bs generalizing out with
  | nil => rfl
  | cons b bs ih => rw [List.foldl_cons, ih, length_scatter]

theorem getElem?_assemble {blocks : List Int} (y : Nat → F) (bs : List Int) (out : List F) {j : Nat}
    {b : Int} (hb : blocks[j]? = some b) (hj : j < out.length) :
    (assemble blocks y bs out)[j]? = if b ∈ bs then some (y j) else out[j]? := by
  unfold assemble
  induction bs generalizing out with
  | nil => simp
  | cons c bs ih =>
    have hc : j ∈ rowsOf blocks c ↔ b = c := by rw [mem_rowsOf, hb, Option.some_inj]
    rw [List.foldl_cons, ih _ (by rwa [length_scatter]), getElem?_scatter_map y _ _ hj]
    by_cases hmem : b ∈ bs
    · simp [hmem]
    · simp [hmem, hc]

theorem assemble_occurring {blocks : List Int} (y : Nat → F) {out : List F}
    (h : out.length = blocks.length) :
    assemble blocks y (occurring blocks) out = (List.range blocks.length).map y := by
  apply List.ext_getElem?
  intro j
  by_cases hj : j < blocks.length
  · have hb : blocks[j]? = some blocks[j] := List.getElem?_eq_getElem hj
    rw [getElem?_assemble y _ _ hb (by rwa [h]), if_pos (mem_occurring.2 (List.getElem_mem hj))]
    simp [hj]
  · rw [List.getElem?_eq_none (by rw [length_assemble]; omega), List.getElem?_eq_none (by simp; omega)]

end Scatter

theorem exists_pointwise [Inhabited F] {blocks : List Int} {vs : Int → List F}
    (h : ∀ b ∈ blocks, (vs b).length = (rowsOf blocks b).length) :
    ∃ y : Nat → F, ∀ b ∈ blocks, vs b = (rowsOf blocks b).map y := by
  refine ⟨fun i => (vs (blocks.getD i 0)).getD ((rowsOf blocks (blocks.getD i 0)).idxOf i) default, ?_⟩
  intro b hb
  apply List.ext_getElem (by rw [List.length_map, h b hb])
  intro k hk hk'
  rw [List.length_map] at hk'
  have hi : blocks[(rowsOf blocks b)[k]]? = some b := mem_rowsOf.1 (List.getElem_mem hk')
  have hblock : blocks.getD (rowsOf blocks b)[k] 0 = b := by
    rw [List.getD_eq_getElem?_getD, hi, Option.getD_some]
  rw [List.getElem_map, hblock, (nodup_rowsOf blocks b).idxOf_getElem, List.getD_eq_getElem?_getD,
    List.getElem?_eq_getElem hk, Option.getD_some]

section Fold

variable {ε : Type} {blocks : List Int} {g : Int → Except ε (List F)}

theorem foldlM_scatter_of_ok {y : Nat → F} {bs : List Int} {init : List F}
    (h : ∀ b ∈ bs, g b = .ok ((rowsOf blocks b).map y)) :
    bs.foldlM (fun out b => do return scatter out (rowsOf blocks b) (← g b)) init =
      .ok (assemble blocks y bs init) := by
  induction bs generalizing init with
  | nil => rfl
  | cons b bs ih =>
    simp only [List.mem_cons, forall_eq_or_imp] at h
    rw [List.foldlM_cons, h.1]
    exact ih h.2

theorem ok_of_foldlM_scatter {bs : List Int} {init out : List F}
    (h : bs.foldlM (fun out b => do return scatter out (rowsOf blocks b) (← g b)) init = .ok out) :
    ∀ b ∈ bs, ∃ vs, g b = .ok vs := by
  induction bs generalizing init with
  | nil => simp
  | cons b bs ih =>
    simp only [List.foldlM_cons, bind_eq_ok, pure_eq_ok] at h
    obtain ⟨_, ⟨vs, hvs, rfl⟩, hrest⟩ := h
    simp only [List.mem_cons, forall_eq_or_imp]
    exact ⟨⟨vs, hvs⟩, ih hrest⟩

theorem foldlM_scatter_eq_ok [Inhabited F] {init out : List F} (hinit : init.length = blocks.length)
    (hg : ∀ b vs, g b = .ok vs → vs.length = (rowsOf blocks b).length) :
    (occurring blocks).foldlM (fun out b => do return scatter out (rowsOf blocks b) (← g b)) init =
        .ok out ↔
      ∃ y : Nat → F, (∀ b ∈ blocks, g b = .ok ((rowsOf blocks b).map y)) ∧
        (List.range blocks.length).map y = out := by
  have hof (y : Nat → F) (hy : ∀ b ∈ blocks, g b = .ok ((rowsOf blocks b).map y)) :
      (occurring blocks).foldlM (fun out b => do return scatter out (rowsOf blocks b) (← g b)) init =
        .ok ((List.range blocks.length).map y) := by
    rw [foldlM_scatter_of_ok (y := y) fun b hb => hy b (mem_occurring.1 hb), assemble_occurring y hinit]
  constructor
  · intro h
    have hall := ok_of_foldlM_scatter h
    choose! vs hvs using fun b (hb : b ∈ blocks) => hall b (mem_occurring.2 hb)
    obtain ⟨y, hy⟩ := exists_pointwise fun b hb => hg b _ (hvs b hb)
    have hval : ∀ b ∈ blocks, g b = .ok ((rowsOf blocks b).map y) := by
      intro b hb
      rw [hvs b hb, hy b hb]
    rw [hof y hval] at h
    exact ⟨y, hval, Except.ok.inj h⟩
  · rintro ⟨y, hy, rfl⟩
    exact hof y hy

end Fold

end AdditiveModel.Mapper.Block
