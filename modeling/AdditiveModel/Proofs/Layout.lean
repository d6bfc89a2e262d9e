import Mathlib.Data.Int.ConditionallyCompleteOrder
import Mathlib.Order.CompletePartialOrder
import AdditiveModel.Proofs.Entries
import AdditiveModel.Proofs.Interpolation

/-! The layout of the latent vector of a component. The latent variables of a group and a replicate lie
together, the pairs one after the other with groups varying fastest, so the number of a latent variable
is a number with three digits: its place in the block, the group and the replicate. Every latent
variable has one such number. Points of different pairs have no latent variable in common, so neither do
their values and the rows of their derivative. -/

namespace AdditiveModel.Mapper

variable {F : Type} [Scalar F]

namespace Block

/-- The block of a pair of a group and a replicate. -/
def ofPair (groups : Int) (p : Int × Int) : Int := blockOf groups p.1 p.2

/-- The latent variables of a block, where its latent vector is cut out. -/
def latents (m b : Int) : Set Int := Set.Ico (b * m) ((b + 1) * m)

/-- The latent variable with this place in the block of a pair. -/
def variableOf (m groups : Int) (q : Int × Int × Int) : Int := ofPair groups q.2 * m + q.1

section Pairs

variable {groups replicates b : Int} {p q : Int × Int}

theorem ofPair_digits (hp : p.1 ∈ Set.Icc 1 groups) :
    ofPair groups p / groups = p.2 - 1 ∧ ofPair groups p % groups = p.1 - 1 := by
  obtain ⟨hlow, hhigh⟩ := hp
  rw [Int.ediv_emod_unique (by omega)]
  exact ⟨rfl, by omega, by omega⟩

theorem ofPair_inj (hp : p.1 ∈ Set.Icc 1 groups) (hq : q.1 ∈ Set.Icc 1 groups)
    (h : ofPair groups p = ofPair groups q) : p = q := by
  obtain ⟨hdiv, hmod⟩ := ofPair_digits hp
  obtain ⟨hdiv', hmod'⟩ := ofPair_digits hq
  rw [h] at hdiv hmod
  exact Prod.ext (by omega) (by omega)

theorem ofPair_mem (hp : p ∈ Set.Icc 1 groups ×ˢ Set.Icc 1 replicates) :
    ofPair groups p ∈ Set.Ico 0 (groups * replicates) :=
  blockOf_inRange hp.1 hp.2

theorem exists_ofPair (hgroups : 1 ≤ groups) (hb : b ∈ Set.Ico 0 (groups * replicates)) :
    ∃ p ∈ Set.Icc 1 groups ×ˢ Set.Icc 1 replicates, ofPair groups p = b := by
  have hpos : 0 < groups := by omega
  have hmod := Int.emod_nonneg b hpos.ne'
  have hmod_lt := Int.emod_lt_of_pos b hpos
  have hdiv := Int.ediv_nonneg hb.1 hpos.le
  have hdiv_lt := Int.ediv_lt_of_lt_mul hpos (mul_comm groups replicates ▸ hb.2)
  refine ⟨(b % groups + 1, b / groups + 1), ⟨⟨by omega, by omega⟩, by omega, by omega⟩, ?_⟩
  rw [ofPair, blockOf, add_sub_cancel_right, add_sub_cancel_right, Int.emod_add_mul_ediv]

end Pairs

section Latents

variable {m groups replicates b b' j k : Int} {p : Int × Int}

theorem pos_of_mem_latents (h : k ∈ latents m b) : 0 < m := by
  obtain ⟨hlow, hhigh⟩ := h
  rw [add_one_mul] at hhigh
  omega

theorem mem_latents (hm : 0 < m) : k ∈ latents m b ↔ k / m = b := by
  rw [Int.ediv_eq_iff_of_pos hm, latents, Set.mem_Ico, add_one_mul]

theorem disjoint_latents (h : b ≠ b') : Disjoint (latents m b) (latents m b') := by
  rw [Set.disjoint_left]
  intro k hk hk'
  have hm := pos_of_mem_latents hk
  exact h (((mem_latents hm).1 hk).symm.trans ((mem_latents hm).1 hk'))

theorem latents_subset (hb : b ∈ Set.Ico 0 (groups * replicates)) :
    latents m b ⊆ Set.Ico 0 (m * groups * replicates) := by
  intro k hk
  have hm := pos_of_mem_latents hk
  exact ⟨(mul_nonneg hb.1 hm.le).trans hk.1, hk.2.trans_le (block_end_le hm.le hb.2)⟩

theorem exists_latents (hgroups : 1 ≤ groups) (hreplicates : 1 ≤ replicates)
    (hk : k ∈ Set.Ico 0 (m * groups * replicates)) :
    ∃ p ∈ Set.Icc 1 groups ×ˢ Set.Icc 1 replicates, k ∈ latents m (ofPair groups p) := by
  have hcount : 0 < groups * replicates := mul_pos hgroups hreplicates
  obtain ⟨hlow, hhigh⟩ := hk
  rw [mul_assoc] at hhigh
  have hm : 0 < m := (pos_iff_pos_of_mul_pos (hlow.trans_lt hhigh)).2 hcount
  have hb : k / m ∈ Set.Ico 0 (groups * replicates) :=
    ⟨Int.ediv_nonneg hlow hm.le, Int.ediv_lt_of_lt_mul hm (mul_comm m _ ▸ hhigh)⟩
  obtain ⟨p, hp, hblock⟩ := exists_ofPair hgroups hb
  exact ⟨p, hp, (mem_latents hm).2 hblock.symm⟩

theorem variableOf_mem (hj : j ∈ Set.Ico 0 m) :
    variableOf m groups (j, p) ∈ latents m (ofPair groups p) := by
  obtain ⟨hlow, hhigh⟩ := hj
  simp only [latents, Set.mem_Ico, add_one_mul, variableOf]
  omega

/-- Places, groups and replicates are numbered without gaps and without repetition. -/
theorem bijOn_variableOf (hgroups : 1 ≤ groups) (hreplicates : 1 ≤ replicates) :
    Set.BijOn (variableOf m groups) (Set.Ico 0 m ×ˢ Set.Icc 1 groups ×ˢ Set.Icc 1 replicates)
      (Set.Ico 0 (m * groups * replicates)) := by
  refine ⟨?_, ?_, ?_⟩
  · rintro ⟨j, p⟩ ⟨hj, hp⟩
    exact latents_subset (ofPair_mem hp) (variableOf_mem hj)
  · rintro ⟨j, p⟩ ⟨hj, hp⟩ ⟨j', p'⟩ ⟨hj', hp'⟩ heq
    have hmem : variableOf m groups (j, p) ∈ latents m (ofPair groups p) := variableOf_mem hj
    have hmem' : variableOf m groups (j', p') ∈ latents m (ofPair groups p') := variableOf_mem hj'
    have hm := pos_of_mem_latents hmem
    have hblock : ofPair groups p = ofPair groups p' := by
      rw [← (mem_latents hm).1 hmem, ← (mem_latents hm).1 hmem', heq]
    obtain rfl := ofPair_inj hp.1 hp'.1 hblock
    exact Prod.ext (add_left_cancel heq) rfl
  · intro k hk
    obtain ⟨p, hp, hlow, hhigh⟩ := exists_latents hgroups hreplicates hk
    rw [add_one_mul] at hhigh
    exact ⟨(k - ofPair groups p * m, p), ⟨⟨by omega, by omega⟩, hp⟩, by simp [variableOf]⟩

/-- The numbers that lead from a pair to the latent variables of its block. -/
def steps (m groups : Int) (p : Int × Int) : List Int :=
  [groups, p.1 - 1, p.2 - 1, groups * (p.2 - 1), ofPair groups p, ofPair groups p * m,
    (ofPair groups p + 1) * m]

theorem steps_inRange (hm : 0 < m) (hp : p ∈ Set.Icc 1 groups ×ˢ Set.Icc 1 replicates) :
    ∀ x ∈ steps m groups p, 0 ≤ x ∧ x ≤ m * groups * replicates := by
  obtain ⟨hblock, hblock_lt⟩ := ofPair_mem hp
  obtain ⟨⟨hg, hgroups⟩, hr, hreplicates⟩ := hp
  have hcount : groups ≤ m * groups * replicates :=
    (le_mul_of_one_le_left (by omega) hm).trans
      (le_mul_of_one_le_right (mul_nonneg hm.le (by omega)) (by omega))
  have hreplicate : p.2 - 1 ≤ groups * (p.2 - 1) := le_mul_of_one_le_left (by omega) (by omega)
  have hstart : ofPair groups p ≤ ofPair groups p * m := le_mul_of_one_le_right hblock hm
  have hend := block_end_le hm.le hblock_lt
  have hsucc := add_one_mul (ofPair groups p) m
  -- every number is below the next one of the chain, up to the end of the block
  intro x hx
  simp only [steps, List.mem_cons, List.not_mem_nil, or_false] at hx
  unfold ofPair blockOf at *
  omega

theorem steps_word (hn : Kind.int64.holds (m * groups * replicates) = true) (hm : 0 < m)
    (hp : p ∈ Set.Icc 1 groups ×ˢ Set.Icc 1 replicates) :
    ∀ x ∈ steps m groups p, Kind.int64.holds x = true := by
  intro x hx
  obtain ⟨hlow, hhigh⟩ := steps_inRange hm hp x hx
  simp only [Kind.holds, Bool.and_eq_true, decide_eq_true_eq] at hn ⊢
  omega

end Latents

section Indices

variable {index : BlockIndex} {count groups replicates k : Int} {size : Nat} {values : Value F}

theorem indices_inRange (hcount : 1 ≤ count) {ks : List Int}
    (h : indices? index count size values = .ok ks) (hk : k ∈ ks) : k ∈ Set.Icc 1 count := by
  have hsize : 0 < size := indices_length h ▸ List.length_pos_of_mem hk
  obtain ⟨-, f, rfl, hf⟩ := (indices_eq_ok hsize).1 h
  obtain ⟨i, hi, rfl⟩ := List.mem_map.1 hk
  obtain ⟨hread, hrange⟩ := hf i (List.mem_range.1 hi)
  exact index_inRange hread hrange hcount

theorem indices_single (hsize : 0 < size) (hk : k ∈ Set.Icc 1 count) :
    indices? index count size (.array .int64 [1] [.int k] : Value F) =
      .ok (List.replicate size k) :=
  (indices_eq_ok hsize).2
    ⟨Or.inr ⟨_, rfl, Or.inl rfl⟩, fun _ => k, by simp, fun _ _ => ⟨rfl, Or.inr hk⟩⟩

theorem blocks_eq_map {input : Input F} {gs rs : List Int}
    (hgs : indices? .group groups input.size input.group = .ok gs)
    (hrs : indices? .replicate replicates input.size input.replicate = .ok rs) :
    blocks? groups replicates input = .ok ((gs.zip rs).map (ofPair groups)) := by
  rw [blocks?, hgs, hrs, List.map_zip_eq_zipWith]
  rfl

theorem blocks_single {main scale : Value F} {p : Int × Int} (hmain : 0 < main.rows)
    (hp : p ∈ Set.Icc 1 groups ×ˢ Set.Icc 1 replicates) :
    blocks? groups replicates
        ⟨main, .array .int64 [1] [.int p.1], .array .int64 [1] [.int p.2], scale⟩ =
      .ok (List.replicate main.rows (ofPair groups p)) := by
  rw [blocks_eq_map (indices_single hmain hp.1) (indices_single hmain hp.2), List.zip_replicate',
    List.map_replicate]

end Indices

section Values

variable {b m : Int} {s s' : List F}

theorem toNat_place (hb : 0 ≤ b) (hm : 0 ≤ m) (j : Nat) :
    (b * m + j).toNat = b.toNat * m.toNat + j := by
  rw [Int.toNat_add (mul_nonneg hb hm) (Int.natCast_nonneg j), Int.toNat_mul hb hm, Int.toNat_natCast]

omit [Scalar F] in
theorem latentOf_inside {groups replicates : Int} {p : Int × Int}
    (hp : p ∈ Set.Icc 1 groups ×ˢ Set.Icc 1 replicates)
    (hs : (s.length : Int) = m * groups * replicates) :
    0 ≤ ofPair groups p * m ∧ (ofPair groups p + 1) * m ≤ s.length ∧
      (latentOf m.toNat s (ofPair groups p)).length = m ∧
      ∀ j : Nat, (j : Int) < m →
        (latentOf m.toNat s (ofPair groups p))[j]? = s[(variableOf m groups (j, p)).toNat]? := by
  obtain ⟨hlow, hhigh⟩ := ofPair_mem hp
  have hm : 0 ≤ m := by
    have hcount : 0 < groups * replicates := by omega
    rw [mul_assoc] at hs
    exact (mul_nonneg_iff_of_pos_right hcount).1 (hs ▸ Int.natCast_nonneg _)
  have hlength := length_latentOf rfl (block_fits hlow hhigh hs.symm)
  refine ⟨mul_nonneg hlow hm, hs ▸ block_end_le hm hhigh, by omega, fun j hj => ?_⟩
  rw [getElem?_latentOf, if_pos (by omega), ← toNat_place hlow hm]
  rfl

omit [Scalar F] in
/-- The latent vector of a block reads the latent variables of the block and no others. -/
theorem latentOf_congr (hb : 0 ≤ b) (h : ∀ k ∈ latents m b, s[k.toNat]? = s'[k.toNat]?) :
    latentOf m.toNat s b = latentOf m.toNat s' b := by
  refine List.ext_getElem? fun j => ?_
  rw [getElem?_latentOf, getElem?_latentOf]
  split
  · have hread := h (b * m + j) ⟨by omega, by rw [add_one_mul]; omega⟩
    rwa [toNat_place hb (by omega)] at hread
  · rfl

omit [Scalar F] in
theorem getElem?_pairwise {op : F → F → F} {xs ys zs : List F} (h : pairwise? op xs ys = .ok zs)
    {i : Nat} (hi : i < xs.length) :
    zs[i]? = (if ys.length = 1 then ys[0]? else ys[i]?).map (op xs[i]) := by
  unfold pairwise? at h
  split at h
  · rename_i hlen
    obtain rfl := Except.ok.inj h
    have hi' : i < ys.length := eq_of_beq hlen ▸ hi
    have hown : (if ys.length = 1 then ys[0]? else ys[i]?) = ys[i]? := by
      split
      · obtain rfl : i = 0 := by omega
        rfl
      · rfl
    rw [hown]
    simp [hi, hi']
  · split at h
    · obtain rfl := Except.ok.inj h
      obtain rfl : i = 0 := by simpa using hi
      simp
    · obtain rfl := Except.ok.inj h
      simp [hi]
    · simp at h

theorem values_congr {main : Input F → List F → Except Error (List F)} {m : Nat} {blocks : List Int}
    {v : Value F} (h : latentOf m s b = latentOf m s' b) :
    values? main m s blocks v b = values? main m s' blocks v b := by
  simp only [values?, h]

theorem weighted_congr {input : Input F} {xs xs' out out' : List F} (h : weighted? input xs = .ok out)
    (h' : weighted? input xs' = .ok out') {i : Nat} (hi : i < xs.length) (hi' : i < xs'.length)
    (heq : xs[i] = xs'[i]) : out[i]? = out'[i]? := by
  obtain ⟨o, ho, h⟩ := bind_eq_ok.1 h
  obtain ⟨o', ho', h'⟩ := bind_eq_ok.1 h'
  obtain rfl := Except.ok.inj (ho.symm.trans ho')
  cases o with
  | none =>
    obtain rfl := pure_eq_ok.1 h
    obtain rfl := pure_eq_ok.1 h'
    simp [hi, hi', heq]
  | some ws => rw [getElem?_pairwise h hi, getElem?_pairwise h' hi', heq]

end Values

end Block

section Component

variable {main : Mapper F} {groups replicates : Int} {input : Input F} {blocks : List Int} {b : Int}

theorem evaluate_congr {state state' : Value F} {s s' out out' : List F}
    (hs : latent? (main.n * groups * replicates) state = .ok s)
    (hs' : latent? (main.n * groups * replicates) state' = .ok s')
    (hblocks : Block.blocks? groups replicates input = .ok blocks)
    (hout : (component main groups replicates).evaluate? (some input) state = .ok out)
    (hout' : (component main groups replicates).evaluate? (some input) state' = .ok out')
    {i : Nat} (hi : blocks[i]? = some b)
    (heq : Block.latentOf main.n.toNat s b = Block.latentOf main.n.toNat s' b) :
    out[i]? = out'[i]? := by
  obtain ⟨_, _, y, ht, hb, hy, hweighted⟩ := evaluate_component.1 hout
  obtain rfl := Except.ok.inj (hs.symm.trans ht)
  obtain rfl := Except.ok.inj (hblocks.symm.trans hb)
  obtain ⟨_, _, y', ht', hb', hy', hweighted'⟩ := evaluate_component.1 hout'
  obtain rfl := Except.ok.inj (hs'.symm.trans ht')
  obtain rfl := Except.ok.inj (hblocks.symm.trans hb')
  have hmem : b ∈ blocks := List.mem_of_getElem? hi
  have hrow : i ∈ Block.rowsOf blocks b := Block.mem_rowsOf.2 hi
  -- the points of a block are evaluated together, at the vector that both states have there
  have hvalues := (hy b hmem).symm.trans ((Block.values_congr heq).trans (hy' b hmem))
  have hvalue : y i = y' i := List.map_inj_left.1 (Except.ok.inj hvalues) i hrow
  have hlt : i < input.size := Block.blocks_length hblocks ▸ Block.lt_of_mem_rowsOf hrow
  exact Block.weighted_congr hweighted hweighted' (by simpa using hlt) (by simpa using hlt)
    (by simpa using hvalue)

/-- An entry of the derivative stands in the row of a point and in the column of a latent variable of its
block. -/
theorem mem_entries (hmain : main.KeepsCanonical) (hblocks : ∀ b ∈ blocks, 0 ≤ b) {s : List F}
    {v : Value F} {entries : List (List (Nat × Nat × F))}
    (hentries : Block.entriesOf? main s blocks v = .ok entries)
    {e : Nat × Nat × F} (he : e ∈ entries.flatten) :
    ∃ b, blocks[e.1]? = some b ∧ (e.2.1 : Int) ∈ Block.latents main.n b := by
  obtain ⟨J, hJ, rfl⟩ := Block.exists_derivatives hentries
  rw [← List.flatMap_def, List.mem_flatMap] at he
  obtain ⟨b, hb, he⟩ := he
  have hb := Block.mem_occurring.1 hb
  obtain ⟨a, ha, hrow, hcolumn⟩ := Block.mem_placed (hJ b hb).inside he
  obtain ⟨hcolumns, hcanonical⟩ := (hJ b hb).canonical hmain
  have hlt : (a.2.1 : Int) < main.n := hcolumns ▸ Int.ofNat_lt.2 (hcanonical.bounded a ha).2
  have hn : 0 ≤ main.n := by omega
  have hplace := Block.toNat_place (hblocks b hb) hn a.2.1
  have hlow : 0 ≤ b * main.n := mul_nonneg (hblocks b hb) hn
  refine ⟨b, Block.mem_rowsOf.1 (List.mem_of_getElem? hrow), ?_⟩
  rw [Block.latents, Set.mem_Ico, add_one_mul]
  omega

/-- The matrix of the entries of all blocks, before weights. -/
def gathered (n : Int) (input : Input F) (entries : List (List (Nat × Nat × F))) : Sparse F :=
  ⟨input.size, n.toNat, entries.flatten⟩

theorem canonical_gathered (hmain : main.KeepsCanonical)
    (hblocks : Block.blocks? groups replicates input = .ok blocks)
    (hrange : ∀ b ∈ blocks, b ∈ Set.Ico 0 (groups * replicates)) {s : List F}
    {entries : List (List (Nat × Nat × F))}
    (hentries : Block.entriesOf? main s blocks input.main = .ok entries) :
    (gathered (main.n * groups * replicates) input entries).Canonical := by
  -- the places are inside by the layout alone, without the check of the derivative
  refine ⟨fun e he => ?_, (Block.nodup_entries hentries).2 fun b _ J hJ => (hJ.canonical hmain).2.distinct⟩
  obtain ⟨b, hb, hcolumn⟩ := mem_entries hmain (fun b hb => (hrange b hb).1) hentries he
  obtain ⟨hrow, rfl⟩ := List.getElem?_eq_some_iff.1 hb
  obtain ⟨-, hcolumn⟩ := Block.latents_subset (hrange _ (List.getElem_mem hrow)) hcolumn
  have hsize := Block.blocks_length hblocks
  dsimp only [gathered]
  omega

theorem jacobian_of_bounded {state : Value F} {s : List F} {entries : List (List (Nat × Nat × F))}
    (hs : latent? (main.n * groups * replicates) state = .ok s)
    (hblocks : Block.blocks? groups replicates input = .ok blocks)
    (hentries : Block.entriesOf? main s blocks input.main = .ok entries)
    (hbounded : (gathered (main.n * groups * replicates) input entries).Bounded) :
    (component main groups replicates).jacobian? (some input) state =
      if entries.isEmpty then .ok (gathered (main.n * groups * replicates) input entries)
      else lift (Block.weightedRows? input (gathered (main.n * groups * replicates) input entries)) := by
  have haccepted : ¬(decide (main.n * groups * replicates < 0) || entries.flatten.any fun e =>
      decide ((main.n * groups * replicates).toNat ≤ e.2.1)) = true := by
    have hlength := latent_length hs
    simp only [Bool.or_eq_true, decide_eq_true_eq, List.any_eq_true, not_or, not_exists, not_and,
      Int.not_lt, Nat.not_le]
    exact ⟨by omega, fun e he => (hbounded e he).2⟩
  unfold Block.entriesOf? at hentries
  simp only [jacobian?, Block.jacobian?, required?, hs, hblocks, hentries, bind, Except.bind, pure,
    Except.pure]
  rw [if_neg haccepted]
  rfl

end Component

/-- How the points of an input use the latent vector, for the group and the replicate of each. -/
structure LaidOut (main : Mapper F) (groups replicates : Int) (input : Input F)
    (pairs : List (Int × Int)) : Prop where
  blocks : Block.blocks? groups replicates input = .ok (pairs.map (Block.ofPair groups))
  /-- The latent vector of a pair is cut out inside the whole one, in full. -/
  slices : ∀ p ∈ pairs, ∀ s : List F, (s.length : Int) = (component main groups replicates).n →
    0 ≤ Block.ofPair groups p * main.n ∧ (Block.ofPair groups p + 1) * main.n ≤ s.length ∧
      (Block.latentOf main.n.toNat s (Block.ofPair groups p)).length = main.n ∧
      ∀ j : Nat, (j : Int) < main.n →
        (Block.latentOf main.n.toNat s (Block.ofPair groups p))[j]? =
          s[(Block.variableOf main.n groups (j, p)).toNat]?
  /-- The numbers that lead there fit an array of integers if the number of latent variables does. -/
  words : Kind.int64.holds (component main groups replicates).n = true → 0 < main.n →
    ∀ p ∈ pairs, ∀ x ∈ Block.steps main.n groups p, Kind.int64.holds x = true
  apart : ∀ p ∈ pairs, ∀ q ∈ pairs, p ≠ q →
    Disjoint (Block.latents main.n (Block.ofPair groups p)) (Block.latents main.n (Block.ofPair groups q))
  /-- The value at a point depends on the latent variables of its own pair only. -/
  values : ∀ {state state' : Value F} {s s' out out' : List F},
    latent? (component main groups replicates).n state = .ok s →
    latent? (component main groups replicates).n state' = .ok s' →
    (component main groups replicates).evaluate? (some input) state = .ok out →
    (component main groups replicates).evaluate? (some input) state' = .ok out' →
    ∀ {i : Nat} {p : Int × Int}, pairs[i]? = some p →
      (∀ k ∈ Block.latents main.n (Block.ofPair groups p), s[k.toNat]? = s'[k.toNat]?) →
      out[i]? = out'[i]?
  /-- A place is written twice only if the derivative of one block names it twice. -/
  distinct : ∀ {s : List F} {entries : List (List (Nat × Nat × F))},
    Block.entriesOf? main s (pairs.map (Block.ofPair groups)) input.main = .ok entries →
    ((entries.flatten.map Sparse.place).Nodup ↔ ∀ p ∈ pairs, ∀ J,
      Block.Derivative main s input.main (pairs.map (Block.ofPair groups)) (Block.ofPair groups p) J →
      (J.entries.map Sparse.place).Nodup)
  /-- The entries of the derivative stand in the rows of their points and in the columns of the latent
  variables of their pairs, no place is written twice, and no matrix is refused for its columns. -/
  written : main.KeepsCanonical →
    ∀ {state : Value F} {s : List F} {entries : List (List (Nat × Nat × F))},
    latent? (component main groups replicates).n state = .ok s →
    Block.entriesOf? main s (pairs.map (Block.ofPair groups)) input.main = .ok entries →
    (∀ e ∈ entries.flatten, ∃ p, pairs[e.1]? = some p ∧
      (e.2.1 : Int) ∈ Block.latents main.n (Block.ofPair groups p)) ∧
    (gathered (component main groups replicates).n input entries).Canonical ∧
    (component main groups replicates).jacobian? (some input) state =
      if entries.isEmpty then .ok (gathered (component main groups replicates).n input entries)
      else lift (Block.weightedRows? input (gathered (component main groups replicates).n input entries))

section LaidOut

variable {main : Mapper F} {groups replicates : Int} {input : Input F} {pairs : List (Int × Int)}

theorem laidOut (hblocks : Block.blocks? groups replicates input = .ok (pairs.map (Block.ofPair groups)))
    (hpairs : ∀ p ∈ pairs, p ∈ Set.Icc 1 groups ×ˢ Set.Icc 1 replicates) :
    LaidOut main groups replicates input pairs := by
  have hrange : ∀ p ∈ pairs, Block.ofPair groups p ∈ Set.Ico 0 (groups * replicates) :=
    fun p hp => Block.ofPair_mem (hpairs p hp)
  have hblock := List.forall_mem_map.2 hrange
  refine ⟨hblocks, fun p hp s hs => ?_, fun hn hm p hp => ?_, fun p hp q hq hne => ?_,
    fun hs hs' hout hout' i p hp hread => ?_,
    fun hentries => (Block.nodup_entries hentries).trans List.forall_mem_map,
    fun hmain state s entries hs hentries => ⟨fun e he => ?_, ?_⟩⟩
  · exact Block.latentOf_inside (hpairs p hp) hs
  · exact Block.steps_word hn hm (hpairs p hp)
  · refine Block.disjoint_latents fun heq => hne ?_
    exact Block.ofPair_inj (hpairs p hp).1 (hpairs q hq).1 heq
  · refine evaluate_congr hs hs' hblocks hout hout' (by rw [List.getElem?_map, hp]; rfl) ?_
    exact Block.latentOf_congr (hrange p (List.mem_of_getElem? hp)).1 hread
  · obtain ⟨b, hb, hcolumn⟩ := mem_entries hmain (fun b hb => (hblock b hb).1) hentries he
    obtain ⟨p, hp, rfl⟩ := Option.map_eq_some_iff.1 (List.getElem?_map .. ▸ hb)
    exact ⟨p, hp, hcolumn⟩
  · have hcanonical := canonical_gathered hmain hblocks hblock hentries
    exact ⟨hcanonical, jacobian_of_bounded hs hblocks hentries hcanonical.bounded⟩

end LaidOut

/-- The latent variables are numbered without gaps and without repetition. Accepted groups and replicates
lay every input out accordingly, and there are such for every latent variable. -/
theorem layout_bijective (main : Mapper F) {groups replicates : Int} (hgroups : 1 ≤ groups)
    (hreplicates : 1 ≤ replicates) :
    Set.BijOn (Block.variableOf main.n groups)
        (Set.Ico 0 main.n ×ˢ Set.Icc 1 groups ×ˢ Set.Icc 1 replicates)
        (Set.Ico 0 (component main groups replicates).n) ∧
      (∀ input gs rs, Block.indices? .group groups input.size input.group = .ok gs →
        Block.indices? .replicate replicates input.size input.replicate = .ok rs →
        LaidOut main groups replicates input (gs.zip rs)) ∧
      ∀ k ∈ Set.Ico 0 (component main groups replicates).n,
        ∃ p ∈ Set.Icc 1 groups ×ˢ Set.Icc 1 replicates,
          k ∈ Block.latents main.n (Block.ofPair groups p) ∧
          ∀ v scale : Value F, 0 < v.rows → Block.blocks? groups replicates
              ⟨v, .array .int64 [1] [.int p.1], .array .int64 [1] [.int p.2], scale⟩ =
            .ok (List.replicate v.rows (Block.ofPair groups p)) := by
  refine ⟨Block.bijOn_variableOf hgroups hreplicates, fun input gs rs hgs hrs => ?_, fun k hk => ?_⟩
  · refine laidOut (Block.blocks_eq_map hgs hrs) fun p hp => ?_
    obtain ⟨hg, hr⟩ := List.of_mem_zip hp
    exact ⟨Block.indices_inRange hgroups hgs hg, Block.indices_inRange hreplicates hrs hr⟩
  · obtain ⟨p, hp, hlatent⟩ := Block.exists_latents hgroups hreplicates hk
    exact ⟨p, hp, hlatent, fun v scale hv => Block.blocks_single hv hp⟩

def Input.crossed : Input ℚ where
  main := .array .double [4, 2]
    [.float 1, .float 2, .float 3, .float 4, .float 5, .float 6, .float 7, .float 8]
  group := .array .int64 [4] [.int 1, .int 3, .int 1, .int 3]
  replicate := .array .int64 [4] [.int 1, .int 2, .int 1, .int 2]
  scale := .null

/-- The derivative at these points, for three groups and two replicates: the first block and the last. -/
def crossedEntries : List (List (Nat × Nat × ℚ)) :=
  [[(0, 0, 1), (0, 1, 2), (2, 0, 5), (2, 1, 6)], [(1, 10, 3), (1, 11, 4), (3, 10, 7), (3, 11, 8)]]

theorem crossed_laidOut :
    Block.indices? .group 3 Input.crossed.size Input.crossed.group = .ok [1, 3, 1, 3] ∧
      Block.indices? .replicate 2 Input.crossed.size Input.crossed.replicate = .ok [1, 2, 1, 2] ∧
      LaidOut (linear 2) 3 2 Input.crossed [(1, 1), (3, 2), (1, 1), (3, 2)] ∧
      (gathered 12 Input.crossed crossedEntries).Canonical ∧
      (component (linear 2) 3 2).jacobian? (some Input.crossed) .null =
        .ok (gathered 12 Input.crossed crossedEntries) ∧
      Block.variableOf 2 3 (1, 3, 2) = 11 ∧
      Set.BijOn (Block.variableOf 2 3) (Set.Ico 0 2 ×ˢ Set.Icc 1 3 ×ˢ Set.Icc 1 2) (Set.Ico 0 12) := by
  have hgroup : Block.indices? .group 3 Input.crossed.size Input.crossed.group = .ok [1, 3, 1, 3] := by
    decide +kernel
  have hreplicate : Block.indices? .replicate 2 Input.crossed.size Input.crossed.replicate =
      .ok [1, 2, 1, 2] := by decide +kernel
  have hlatent : latent? 12 (.null : Value ℚ) = .ok (List.replicate 12 0) := by decide +kernel
  have hoccurring : Block.occurring [0, 5, 0, 5] = [0, 5] :=
    List.mergeSort_of_pairwise (by decide)
  have hentries : Block.entriesOf? (linear 2) (List.replicate 12 0) [0, 5, 0, 5] Input.crossed.main =
      .ok crossedEntries := by
    rw [Block.entriesOf?, hoccurring]
    decide +kernel
  obtain ⟨hbijective, hlaid, -⟩ :=
    layout_bijective (linear 2 : Mapper ℚ) (by decide : (1 : Int) ≤ 3) (by decide : (1 : Int) ≤ 2)
  have hlaid := hlaid Input.crossed _ _ hgroup hreplicate
  obtain ⟨-, hcanonical, hjacobian⟩ := hlaid.written trivial hlatent hentries
  exact ⟨hgroup, hreplicate, hlaid, hcanonical, hjacobian, rfl, hbijective⟩

end AdditiveModel.Mapper
