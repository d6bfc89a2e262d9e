import AdditiveModel.Proofs.Rows

/-! Latent vectors as they are given. A state holds an array or a list of numbers; as an array it is
read as the same vector. -/

namespace AdditiveModel

variable {F : Type} [Scalar F]

namespace Value

inductive IsNumber : Value F → Prop
  | int (n : Int) : IsNumber (.int n)
  | float (x : F) : IsNumber (.float x)

/-- An array, or a sequence of numbers. -/
inductive IsVector : Value F → Prop
  | array (kind : Kind) (shape : List Nat) (cells : List (Value F)) : IsVector (.array kind shape cells)
  | list {items : List (Value F)} (h : ∀ v ∈ items, v.IsNumber) : IsVector (.list items)
  | tuple {items : List (Value F)} (h : ∀ v ∈ items, v.IsNumber) : IsVector (.tuple items)

def numberKind : Value F → Kind
  | .int n => Kind.ofInt n
  | _ => .double

end Value

namespace Kind

def OfNumbers (k : Kind) : Prop :=
  k = .any ∨ k = .double ∨ k = .int64 ∨ k = .uint64

omit [Scalar F] in
theorem numberKind_ofNumbers (v : Value F) : v.numberKind.OfNumbers := by
  unfold Value.numberKind
  split
  · unfold Kind.ofInt
    split_ifs <;> simp [OfNumbers]
  · simp [OfNumbers]

theorem promote_ofNumbers {k k' : Kind} (h : k.OfNumbers) (h' : k'.OfNumbers) :
    (k.promote k').OfNumbers ∧ (k.promote k' = .any ∨ k.promote k' = .double ∨
      k = k.promote k' ∧ k' = k.promote k') := by
  rcases h with rfl | rfl | rfl | rfl <;> rcases h' with rfl | rfl | rfl | rfl <;>
    simp [OfNumbers, promote]

theorem foldl_promote {k : Kind} {ks : List Kind} (hk : k.OfNumbers) (h : ∀ k ∈ ks, k.OfNumbers) :
    ks.foldl promote k = .any ∨ ks.foldl promote k = .double ∨
      ∀ k' ∈ k :: ks, k' = ks.foldl promote k := by
  induction ks generalizing k with
  | nil => simp
  | cons k' ks ih =>
    rw [List.forall_mem_cons] at h
    obtain ⟨hnumbers, hmeet⟩ := promote_ofNumbers hk h.1
    rw [List.foldl_cons]
    rcases ih hnumbers h.2 with hany | hdouble | hall
    · exact .inl hany
    · exact .inr (.inl hdouble)
    · obtain ⟨hkind, hrest⟩ := List.forall_mem_cons.1 hall
      rw [hkind] at hmeet
      refine hmeet.imp_right (Or.imp_right fun hsame => ?_)
      simpa only [List.forall_mem_cons] using ⟨hsame.1, hsame.2, hrest⟩

/-- Numbers meet in mixed values, in real numbers or in the kind that all have. -/
theorem promoteAll_ofNumbers {ks : List Kind} (h : ∀ k ∈ ks, k.OfNumbers) :
    promoteAll ks = .any ∨ promoteAll ks = .double ∨ ∀ k ∈ ks, k = promoteAll ks := by
  cases ks with
  | nil => exact .inr (.inl rfl)
  | cons k ks =>
    rw [List.forall_mem_cons] at h
    exact foldl_promote h.1 h.2

end Kind

theorem castAll_number {v : Value F} (hv : v.IsNumber) {kind : Kind} {cells : List (Value F)}
    (hkind : kind = .any ∨ kind = .double ∨ v.numberKind = kind)
    (h : Value.castAll? v.numberKind kind [v] = .ok cells) :
    cells.mapM (Grid.cellToReal? kind) = (Value.elementToReal? v).map fun x => [x] := by
  have hread : ∀ w : Value F, w.IsNumber → Grid.cellToReal? kind w = Value.elementToReal? w := by
    rintro _ (n | x) <;> cases kind <;> rfl
  have hsame : cells = [v] → cells.mapM (Grid.cellToReal? kind) =
      (Value.elementToReal? v).map fun x => [x] := by
    rintro rfl
    rw [List.mapM_cons, hread v hv]
    cases Value.elementToReal? v <;> rfl
  by_cases hk : v.numberKind = kind
  · rw [Value.castAll?, if_pos (by simpa using hk), Except.ok.injEq] at h
    exact hsame h.symm
  rw [Value.castAll?, if_neg (by simpa using hk), mapM_eq_ok] at h
  obtain ⟨w, _, hw, hnil, rfl⟩ := List.forall₂_cons_left_iff.1 h
  cases hnil
  rcases hkind with rfl | rfl | hkind
  · cases hv <;> cases hw <;> exact hsame rfl
  · have hcast : Value.cast? .double v = (Value.elementToReal? v).map .float := by
      cases hv <;> rfl
    rw [hcast, map_eq_ok] at hw
    obtain ⟨x, hx, rfl⟩ := hw
    rw [hx]
    rfl
  · exact absurd hkind hk

theorem stack_scalars {parts : List (Grid F)} {g : Grid F} (hne : parts ≠ [])
    (hshape : ∀ p ∈ parts, p.shape = []) (h : Grid.stack? parts = .ok g) :
    ∃ cells, parts.mapM (fun p => Value.castAll? p.kind (Kind.promoteAll (parts.map (·.kind))) p.cells) =
        .ok cells ∧ g = ⟨Kind.promoteAll (parts.map (·.kind)), [parts.length], cells.flatten⟩ := by
  obtain ⟨first, rest, rfl⟩ := List.exists_cons_of_ne_nil hne
  rw [List.forall_mem_cons] at hshape
  have hall : rest.all (·.shape == []) = true := by
    simpa using hshape.2
  simp only [Grid.stack?, hshape.1, if_pos hall, bind_eq_ok, pure_eq_ok] at h
  obtain ⟨cells, hcells, rfl⟩ := h
  exact ⟨cells, hcells, rfl⟩

section

variable {items : List (Value F)} (hitems : ∀ v ∈ items, v.IsNumber)

include hitems

theorem ofValues_numbers :
    Grid.ofValues items = .ok (items.map fun v => Grid.scalar v.numberKind v) := by
  induction items with
  | nil => rfl
  | cons v items ih =>
    rw [List.forall_mem_cons] at hitems
    have hv : Grid.ofValue v = .ok (Grid.scalar v.numberKind v) := by
      cases hitems.1 <;> rfl
    rw [Grid.ofValues, hv, ih hitems.2]
    rfl

theorem realsOfValues_numbers :
    Grid.realsOfValues items = (items.mapM Value.elementToReal?).map (List.map fun x => ([], [x])) := by
  induction items with
  | nil => rfl
  | cons v items ih =>
    rw [List.forall_mem_cons] at hitems
    have hv : Grid.realsOfValue v = (Value.elementToReal? v).map fun x => ([], [x]) := by
      cases hitems.1 <;> rfl
    rw [Grid.realsOfValues, hv, ih hitems.2, List.mapM_cons]
    cases Value.elementToReal? v with
    | error e => rfl
    | ok x => cases items.mapM Value.elementToReal? <;> rfl

theorem realsOfValue_numbers :
    Grid.realsOfValue (.list items) =
      (items.mapM Value.elementToReal?).map fun xs => ([items.length], xs) := by
  simp only [Grid.realsOfValue, realsOfValues_numbers hitems]
  cases hreals : items.mapM Value.elementToReal? with
  | error e => rfl
  | ok xs =>
    rw [← mapM_length hreals]
    cases xs with
    | nil => rfl
    | cons x xs =>
      simp [bind, Except.bind, pure, Except.pure, Except.map, ← List.flatMap_def, Function.comp_def]

theorem realsOfValue_ofGrid {g : Grid F} (hg : Grid.ofValue (.list items) = .ok g) :
    Grid.realsOfValue (Value.ofGrid g) = Grid.realsOfValue (.list items) := by
  rw [realsOfValue_numbers hitems]
  simp only [Grid.ofValue, ofValues_numbers hitems] at hg
  by_cases hne : items = []
  · subst hne
    cases hg
    rfl
  have hscalars : ∀ p ∈ items.map fun v => Grid.scalar v.numberKind v, p.shape = [] := by
    simp [Grid.scalar]
  obtain ⟨cells, hcells, rfl⟩ := stack_scalars (by simpa using hne) hscalars hg
  have hkinds : ∀ k ∈ (items.map fun v => Grid.scalar v.numberKind v).map (·.kind), k.OfNumbers := by
    simpa [Grid.scalar] using fun v _ => Kind.numberKind_ofNumbers v
  have hmeet := Kind.promoteAll_ofNumbers hkinds
  generalize Kind.promoteAll _ = kind at hcells hmeet ⊢
  rw [mapM_eq_ok, List.forall₂_map_left_iff] at hcells
  have hreals : cells.flatten.mapM (Grid.cellToReal? kind) = items.mapM Value.elementToReal? := by
    refine mapM_flatten_of_forall₂ ((forall₂_with_mem hcells).imp fun v part hpart => ?_)
    have hmem : v.numberKind ∈ (items.map fun v => Grid.scalar v.numberKind v).map (·.kind) := by
      simpa [Grid.scalar] using ⟨v, hpart.1, rfl⟩
    exact castAll_number (hitems v hpart.1) (hmeet.imp_right (Or.imp_right fun hall => hall _ hmem))
      hpart.2
  rw [List.length_map, Value.ofGrid, Grid.realsOfValue, hreals]

end

namespace Mapper

theorem latent_congr {n : Int} {v w : Value F} (hv : v ≠ .null) (hw : w ≠ .null)
    (h : Grid.realsOfValue v = Grid.realsOfValue w) : latent? n v = latent? n w := by
  unfold latent?
  split
  · exact absurd rfl hv
  · rw [h]

theorem latent_ofGrid {n : Int} {v : Value F} {g : Grid F} (h : v.IsVector)
    (hg : Grid.ofValue v = .ok g) : latent? n (Value.ofGrid g) = latent? n v := by
  cases h with
  | array kind shape cells =>
    cases hg
    rfl
  | list hitems => exact latent_congr nofun nofun (realsOfValue_ofGrid hitems hg)
  | tuple hitems => exact latent_congr nofun nofun (realsOfValue_ofGrid hitems hg)

end Mapper

end AdditiveModel
