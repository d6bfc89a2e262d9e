import AdditiveModel.Proofs.Lengths
import AdditiveModel.Proofs.Ranges

/-! Matrices in which no place is given twice. The entries of one place would be added in a product, so a
derivative that names a place once is read as it is written. The derivative of every mapper does: main
mappers go through rows and columns in their order, and the blocks of a component write to rows of their
own. -/

namespace AdditiveModel

namespace Sparse

variable {F : Type}

def place (e : Nat × Nat × F) : Nat × Nat := (e.1, e.2.1)

theorem place_eq_iff {e e' : Nat × Nat × F} : place e = place e' ↔ e.1 = e'.1 ∧ e.2.1 = e'.2.1 :=
  Prod.mk_inj

/-- Every entry has its place inside, and no two entries have the same. -/
structure Canonical (A : Sparse F) : Prop where
  bounded : A.Bounded
  distinct : (A.entries.map place).Nodup

theorem nodup_places {entries : List (Nat × Nat × F)} :
    (entries.map place).Nodup ↔ entries.Pairwise fun e e' => place e ≠ place e' :=
  List.pairwise_map

theorem canonical_empty (rows columns : Nat) : (empty rows columns : Sparse F).Canonical where
  bounded := by simp [Bounded, empty]
  distinct := List.nodup_nil

theorem canonical_selection [Scalar F] {columns : Nat} {positions : List (Option Nat)}
    (h : ∀ j, some j ∈ positions → j < columns) :
    (Mapper.Levels.selection columns positions : Sparse F).Canonical where
  bounded := Mapper.bounded_selection h
  distinct := by
    rw [nodup_places]
    refine (pairwise_zipIdx positions).filterMap _ ?_
    rintro ⟨p, i⟩ ⟨p', i'⟩ hne e he e' he'
    obtain ⟨j, -, rfl⟩ := Option.map_eq_some_iff.1 he
    obtain ⟨j', -, rfl⟩ := Option.map_eq_some_iff.1 he'
    exact fun heq => hne (place_eq_iff.1 heq).1

theorem mem_entriesOfRow [Scalar F] {i : Nat} {row : List F} {e : Nat × Nat × F}
    (h : e ∈ entriesOfRow i row) : e.1 = i := by
  simp only [entriesOfRow, List.mem_filterMap, Prod.exists] at h
  obtain ⟨v, j, -, he⟩ := h
  split at he
  · simp at he
  · cases he
    rfl

theorem canonical_ofRows [Scalar F] {columns : Nat} {rows : List (List F)}
    (h : ∀ row ∈ rows, row.length ≤ columns) : (ofRows columns rows).Canonical where
  bounded := bounded_ofRows h
  distinct := by
    rw [nodup_places, ofRows, List.pairwise_flatMap]
    constructor
    · rintro ⟨row, i⟩ -
      refine (pairwise_zipIdx row).filterMap _ ?_
      rintro ⟨v, j⟩ ⟨v', j'⟩ hne e he e' he'
      dsimp only at he he'
      split at he
      · simp at he
      split at he'
      · simp at he'
      obtain rfl := Option.some.inj he
      obtain rfl := Option.some.inj he'
      exact fun heq => hne (place_eq_iff.1 heq).2
    · refine (pairwise_zipIdx rows).imp ?_
      rintro ⟨row, i⟩ ⟨row', i'⟩ hne e he e' he' heq
      have hrow := (place_eq_iff.1 heq).1
      rw [mem_entriesOfRow he, mem_entriesOfRow he'] at hrow
      exact hne hrow

end Sparse

namespace Mapper

variable {F : Type} [Scalar F]

namespace Block

variable {m : Nat} {rows : List Nat} {b : Int} {J : Sparse F}

omit [Scalar F] in
/-- Different rows of a block are different points, so different places stay different. -/
theorem nodup_placed (hnodup : rows.Nodup) (hinside : ∀ e ∈ J.entries, e.1 < rows.length) :
    ((placed m rows b J).map Sparse.place).Nodup ↔ (J.entries.map Sparse.place).Nodup := by
  rw [Sparse.nodup_places, Sparse.nodup_places, placed, List.pairwise_map]
  refine List.Pairwise.iff_of_mem fun {e e'} he he' => not_congr ?_
  have hlt := hinside e he
  have hlt' := hinside e' he'
  simp [Sparse.place_eq_iff, hlt, hlt', hnodup.getElem_inj_iff]

/-- The derivative on the rows of a block, at the latent vector of the block. -/
structure Derivative (main : Mapper F) (s : List F) (v : Value F) (blocks : List Int) (b : Int)
    (J : Sparse F) : Prop where
  part : ∃ part, take? v (rowsOf blocks b) = .ok part ∧
    main.jacobian? (some (Input.ofMain part)) (Value.ofReals (latentOf main.n.toNat s b)) = .ok J
  inside : ∀ e ∈ J.entries, e.1 < (rowsOf blocks b).length

theorem Derivative.unique {main : Mapper F} {s : List F} {v : Value F} {blocks : List Int} {J' : Sparse F}
    (h : Derivative main s v blocks b J) (h' : Derivative main s v blocks b J') : J = J' := by
  obtain ⟨part, htake, hJ⟩ := h.part
  obtain ⟨part', htake', hJ'⟩ := h'.part
  obtain rfl := Except.ok.inj (htake.symm.trans htake')
  exact Except.ok.inj (hJ.symm.trans hJ')

def entriesOf? (main : Mapper F) (s : List F) (blocks : List Int) (v : Value F) :
    Except Error (List (List (Nat × Nat × F))) :=
  (occurring blocks).mapM
    (entries? (fun input s => main.jacobian? (some input) (Value.ofReals s)) main.n.toNat s blocks v)

section Entries

variable {main : Mapper F} {s : List F} {v : Value F} {blocks : List Int}
  {entries : List (List (Nat × Nat × F))}

/-- The entries of the blocks are those of their derivatives, at their places. -/
theorem exists_derivatives (h : entriesOf? main s blocks v = .ok entries) :
    ∃ J : Int → Sparse F, (∀ b ∈ blocks, Derivative main s v blocks b (J b)) ∧
      entries = (occurring blocks).map fun b => placed main.n.toNat (rowsOf blocks b) b (J b) := by
  have hblock : ∀ b ∈ blocks, ∃ J, Derivative main s v blocks b J := by
    intro b hb
    obtain ⟨_, -, hentries⟩ := forall₂_mem (mapM_eq_ok.1 h).flip (mem_occurring.2 hb)
    obtain ⟨part, J, hpart, hJ, hinside, -⟩ := entries_eq_ok.1 hentries
    exact ⟨J, ⟨part, hpart, hJ⟩, hinside⟩
  choose! J hJ using hblock
  have hplaced : ∀ b ∈ occurring blocks,
      entries? (fun input s => main.jacobian? (some input) (Value.ofReals s)) main.n.toNat s blocks v b =
        .ok (placed main.n.toNat (rowsOf blocks b) b (J b)) := by
    intro b hb
    obtain ⟨⟨part, hpart, hjacobian⟩, hinside⟩ := hJ b (mem_occurring.1 hb)
    exact entries_eq_ok.2 ⟨part, J b, hpart, hjacobian, hinside, rfl⟩
  exact ⟨J, hJ, Except.ok.inj (h.symm.trans (mapM_eq_ok_map hplaced))⟩

/-- No two blocks write to the same row, so a place is written twice only if the derivative of a block
names it twice. -/
theorem nodup_entries (h : entriesOf? main s blocks v = .ok entries) :
    (entries.flatten.map Sparse.place).Nodup ↔
      ∀ b ∈ blocks, ∀ J, Derivative main s v blocks b J → (J.entries.map Sparse.place).Nodup := by
  obtain ⟨J, hJ, rfl⟩ := exists_derivatives h
  have hplaced := fun b (hb : b ∈ blocks) =>
    nodup_placed (m := main.n.toNat) (b := b) (nodup_rowsOf blocks b) (hJ b hb).inside
  rw [Sparse.nodup_places, ← List.flatMap_def, List.pairwise_flatMap]
  constructor
  · rintro ⟨hwithin, -⟩ b hb J' hJ'
    obtain rfl := (hJ b hb).unique hJ'
    exact (hplaced b hb).1 (Sparse.nodup_places.2 (hwithin b (mem_occurring.2 hb)))
  · intro hdistinct
    refine ⟨fun b hb => ?_,
      (nodup_occurring blocks).imp_of_mem fun {b b'} hb hb' hne e he e' he' heq => hne ?_⟩
    · have hb := mem_occurring.1 hb
      exact Sparse.nodup_places.1 ((hplaced b hb).2 (hdistinct b hb _ (hJ b hb)))
    · -- entries in one row belong to one point, so to one block
      obtain ⟨a, -, hrow, -⟩ := mem_placed (hJ b (mem_occurring.1 hb)).inside he
      obtain ⟨a', -, hrow', -⟩ := mem_placed (hJ b' (mem_occurring.1 hb')).inside he'
      have hblock := mem_rowsOf.1 (List.mem_of_getElem? hrow)
      have hblock' := mem_rowsOf.1 (List.mem_of_getElem? hrow')
      rw [← (Sparse.place_eq_iff.1 heq).1, hblock] at hblock'
      exact Option.some.inj hblock'

end Entries

end Block

theorem places_weightedRows {input : Input F} {A B : Sparse F}
    (h : Block.weightedRows? input A = .ok B) :
    B.entries.map Sparse.place = A.entries.map Sparse.place := by
  obtain ⟨o, -, h⟩ := bind_eq_ok.1 h
  split at h
  · cases h
    rfl
  · split at h
    · cases h
      simp [Sparse.scaleRows, Sparse.place, Function.comp_def]
    · simp at h

theorem length_of_mem_jacobian {f : List F → Except Error (List F)} {step : F} {x : List F}
    {rows : List (List F)} (h : Difference.jacobian? f step x = .ok rows) :
    ∀ row ∈ rows, row.length = x.length := by
  obtain ⟨base, -, h⟩ := bind_eq_ok.1 h
  obtain ⟨columns, hcolumns, h⟩ := bind_eq_ok.1 h
  obtain rfl := pure_eq_ok.1 h
  intro row hrow
  obtain ⟨i, -, rfl⟩ := List.mem_map.1 hrow
  rw [List.length_map, mapM_length hcolumns, List.length_range]

/-- The matrices that a mapper keeps name no place twice and none outside. Only expanded mappers keep one;
it can be given by hand. -/
def KeepsCanonical : Mapper F → Prop
  | component main _ _ => main.KeepsCanonical
  | expanded _ A _ => A.Canonical
  | _ => True

/-- The derivative has a column for each latent variable, and no place is written twice or outside. -/
theorem jacobian_canonical {m : Mapper F} (hm : m.KeepsCanonical) {input : Option (Input F)}
    {state : Value F} {A : Sparse F} (h : m.jacobian? input state = .ok A) :
    (A.columns : Int) = m.n ∧ A.Canonical := by
  -- on the mapper, since the main mapper of a component has inputs and latent vectors of its own
  induction m generalizing input state A with
  | linear n =>
    obtain ⟨i, -, h⟩ := bind_eq_ok.1 h
    obtain ⟨rows, hrows, h⟩ := bind_eq_ok.1 h
    obtain rfl := pure_eq_ok.1 h
    obtain ⟨_, cells, count, width, -, -, rfl, rfl⟩ := covariates_eq_ok.1 hrows
    refine ⟨rfl, Sparse.canonical_ofRows fun row hrow => ?_⟩
    obtain ⟨i, -, rfl⟩ := List.mem_map.1 hrow
    simp
  | offset =>
    obtain ⟨i, -, h⟩ := bind_eq_ok.1 h
    obtain rfl := pure_eq_ok.1 h
    exact ⟨rfl, Sparse.canonical_empty _ _⟩
  | index levels =>
    obtain ⟨i, -, h⟩ := bind_eq_ok.1 h
    obtain ⟨positions, hpositions, h⟩ := bind_eq_ok.1 h
    obtain rfl := pure_eq_ok.1 h
    obtain ⟨-, rfl⟩ := positions_eq_ok.1 (lift_eq_ok.1 hpositions)
    refine ⟨rfl, Sparse.canonical_selection fun j hj => ?_⟩
    obtain ⟨v, -, hv⟩ := List.mem_map.1 hj
    exact (List.findIdx?_eq_some_iff_getElem.1 hv).1
  | function name f n declared =>
    obtain ⟨s, hs, h⟩ := bind_eq_ok.1 h
    obtain ⟨rows, hrows, h⟩ := bind_eq_ok.1 h
    obtain rfl := pure_eq_ok.1 h
    exact ⟨latent_length hs,
      Sparse.canonical_ofRows fun row hrow => (length_of_mem_jacobian hrows row hrow).le⟩
  | component main groups replicates ih =>
    cases input with
    | none =>
      obtain ⟨s, -, h⟩ := bind_eq_ok.1 h
      obtain ⟨_, hrequired, -⟩ := bind_eq_ok.1 h
      cases hrequired
    | some input =>
      obtain ⟨-, hcolumns, hbounded⟩ := jacobian_rows h
      obtain ⟨s, blocks, entries, -, -, hentries, -, -, hA⟩ := jacobian_eq_ok.1 h
      have hdistinct : (entries.flatten.map Sparse.place).Nodup := by
        refine (Block.nodup_entries hentries).2 fun b hb J hJ => ?_
        obtain ⟨part, -, hjacobian⟩ := hJ.part
        exact (ih hm hjacobian).2.distinct
      refine ⟨hcolumns, hbounded, ?_⟩
      split at hA
      · cases hA
        exact hdistinct
      · rw [places_weightedRows hA]
        exact hdistinct
  | expanded fixed A' origin =>
    obtain rfl := Except.ok.inj h
    exact ⟨rfl, hm⟩

theorem Block.Derivative.canonical {main : Mapper F} {s : List F} {v : Value F} {blocks : List Int}
    {b : Int} {J : Sparse F} (h : Derivative main s v blocks b J) (hmain : main.KeepsCanonical) :
    (J.columns : Int) = main.n ∧ J.Canonical := by
  obtain ⟨part, -, hjacobian⟩ := h.part
  exact jacobian_canonical hmain hjacobian

omit [Scalar F] in
theorem KeepsCanonical.forComponent {m : Mapper F} (h : m.KeepsCanonical) (groups replicates : Int) :
    (m.forComponent groups replicates).KeepsCanonical := by
  cases m <;> exact h

theorem keepsCanonical_of_expanded {fixed : List F} {A : Sparse F} {origin : Value F} {m : Mapper F}
    (h : expanded? fixed A origin = .ok m) (hA : A.Canonical) : m.KeepsCanonical := by
  unfold expanded? at h
  dsimp only at h
  split at h
  all_goals
    obtain ⟨o, -, h⟩ := bind_eq_ok.1 h
    obtain rfl := pure_eq_ok.1 (check_eq_ok.1 h).2
    exact hA

/-- A mapper that is made from the values and the derivative of another one keeps what it derives. -/
theorem KeepsCanonical.ofLinear {m m' : Mapper F} (hm : m.KeepsCanonical) {input : Option (Input F)}
    (h : m.ofLinear? input = .ok m') : m'.KeepsCanonical := by
  obtain ⟨fixed, -, h⟩ := bind_eq_ok.1 h
  obtain ⟨A, hA, h⟩ := bind_eq_ok.1 h
  exact keepsCanonical_of_expanded h (jacobian_canonical hm hA).2

theorem KeepsCanonical.linearize {m m' : Mapper F} (hm : m.KeepsCanonical) {input : Option (Input F)}
    {state : Value F} (h : m.linearize? input state = .ok m') : m'.KeepsCanonical := by
  obtain ⟨s, -, h⟩ := bind_eq_ok.1 h
  obtain ⟨fixed, -, h⟩ := bind_eq_ok.1 h
  obtain ⟨A, hA, h⟩ := bind_eq_ok.1 h
  exact keepsCanonical_of_expanded h (jacobian_canonical hm hA).2

end Mapper

end AdditiveModel
