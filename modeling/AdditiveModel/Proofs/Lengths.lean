import AdditiveModel.Proofs.Calls
import AdditiveModel.Proofs.Deviates
import AdditiveModel.Proofs.Effects

/-! How many values a component has: one for each point. A single point with weights is the exception,
since its value is repeated for each of them; the derivative refuses such weights. -/

namespace AdditiveModel

variable {F : Type} [Scalar F]

namespace Mapper

/-- The number of values for an input. -/
structure Input.Answers (input : Input F) (count : Nat) : Prop where
  points : input.size ≠ 1 ∨ input.scale = .null → count = input.size
  weights : input.size = 1 → input.scale ≠ .null →
    ∃ ws, input.scale.vector? = .ok ws ∧ count = ws.length

omit [Scalar F] in
theorem pairwise_length {op : F → F → F} {xs ys zs : List F} (h : pairwise? op xs ys = .ok zs) :
    zs.length = if xs.length = 1 then ys.length else xs.length := by
  unfold pairwise? at h
  split at h
  · rename_i hlen
    cases h
    simp [eq_of_beq hlen]
  · split at h
    · cases h
      simp
    · cases h
      simp
    · simp at h

/-- Weights leave the number of values, unless a single value is repeated for them. -/
theorem weighted_answers {input : Input F} {xs out : List F} (hlen : xs.length = input.size)
    (h : Block.weighted? input xs = .ok out) : input.Answers out.length := by
  obtain ⟨o, ho, h⟩ := bind_eq_ok.1 h
  rcases Block.weights_cases ho with ⟨hnull, rfl⟩ | ⟨hne, ws, hws, ⟨w, rfl, rfl⟩ | ⟨hmany, rfl⟩⟩
  · obtain rfl := pure_eq_ok.1 h
    exact ⟨fun _ => hlen, fun _ hne => absurd hnull hne⟩
  · have hout := pairwise_length h
    rw [List.length_replicate, hlen, ite_self] at hout
    exact ⟨fun _ => hout, fun hone _ => ⟨[w], hws, by rw [hout, hone]; rfl⟩⟩
  · have hout := pairwise_length h
    rw [hlen] at hout
    exact ⟨fun hpoints => by rw [hout, if_neg (hpoints.resolve_right hne)],
      fun hone _ => ⟨ws, hws, by rw [hout, if_pos hone]⟩⟩

section Component

variable {main : Mapper F} {groups replicates : Int} {input : Input F} {state : Value F}

theorem evaluate_answers {out : List F}
    (h : (component main groups replicates).evaluate? (some input) state = .ok out) :
    input.Answers out.length := by
  obtain ⟨s, blocks, y, -, -, -, hout⟩ := evaluate_component.1 h
  exact weighted_answers (by simp) hout

theorem rows_of_entries {m : Nat} {s : List F} {blocks : List Int} {v : Value F} {b : Int}
    {jacobian : Input F → List F → Except Error (Sparse F)} {entries : List (Nat × Nat × F)}
    (h : Block.entries? jacobian m s blocks v b = .ok entries) :
    ∀ e ∈ entries, e.1 < blocks.length := by
  obtain ⟨_, J, -, -, hinside, rfl⟩ := Block.entries_eq_ok.1 h
  intro e he
  obtain ⟨a, ha, hrow, -⟩ := Block.mem_placed hinside he
  exact Block.lt_of_mem_rowsOf (List.mem_of_getElem? hrow)

theorem weightedRows_form {A B : Sparse F} (h : Block.weightedRows? input A = .ok B) :
    B.rows = A.rows ∧ B.columns = A.columns ∧ (A.Bounded → B.Bounded) := by
  obtain ⟨o, -, h⟩ := bind_eq_ok.1 h
  split at h
  · cases h
    exact ⟨rfl, rfl, id⟩
  · split at h
    · cases h
      refine ⟨rfl, rfl, fun hbounded e he => ?_⟩
      obtain ⟨a, ha, rfl⟩ := List.mem_map.1 he
      exact hbounded a ha
    · simp at h

/-- The derivative has a row for each point and a column for each latent variable, and every entry has
its place inside. -/
theorem jacobian_rows {A : Sparse F}
    (h : (component main groups replicates).jacobian? (some input) state = .ok A) :
    A.rows = input.size ∧ (A.columns : Int) = (component main groups replicates).n ∧ A.Bounded := by
  obtain ⟨s, blocks, entries, -, hblocks, hentries, hn, hcolumns, hA⟩ := jacobian_eq_ok.1 h
  have hlen : blocks.length = input.size := Block.blocks_length hblocks
  have hn : ((main.n * groups * replicates).toNat : Int) = main.n * groups * replicates := by omega
  have hbounded : Sparse.Bounded
      ⟨input.size, (main.n * groups * replicates).toNat, entries.flatten⟩ := by
    intro e he
    obtain ⟨part, hpart, hmem⟩ := List.mem_flatten.1 he
    obtain ⟨b, -, hb⟩ := forall₂_mem (mapM_eq_ok.1 hentries) hpart
    exact ⟨hlen ▸ rows_of_entries hb e hmem, hcolumns e he⟩
  split at hA
  · cases hA
    exact ⟨rfl, hn, hbounded⟩
  · obtain ⟨hrows, hcolumns, hform⟩ := weightedRows_form hA
    exact ⟨hrows, by rw [hcolumns]; exact hn, hform hbounded⟩

end Component

end Mapper

namespace Evaluator

/-- A component has one value for each point, unless it is a single point with weights: it then has
one for each weight. Its derivative always has one row for each point, and where it exists, there is one
value for each point too. The evaluator returns the values as a column. -/
theorem answers_points {c : Component F} {main : Mapper F} {groups replicates : Int}
    (hmapper : c.mapper = some (.component main groups replicates)) :
    (∀ input state out, (Mapper.component main groups replicates).evaluate? input state = .ok out →
      ∃ i, input = some i ∧ i.Answers out.length) ∧
    (∀ input state (A : Sparse F),
      (Mapper.component main groups replicates).jacobian? input state = .ok A →
      ∃ i, input = some i ∧ A.rows = i.size ∧
        (A.columns : Int) = (Mapper.component main groups replicates).n ∧ A.Bounded ∧
        ∀ state' out, (Mapper.component main groups replicates).evaluate? input state' = .ok out →
          out.length = i.size) ∧
    ∀ scope generator a s v t, (call c scope generator a).outcome s = (.ok v, t) →
      ∃ bound g values, a.bind? parameters = .ok bound ∧ mainGrid? (argument bound 0) = .ok g ∧
        v = column values ∧ (inputOf g bound).Answers values.length ∧
        ((argument bound 0).Shaped → (inputOf g bound).size = (argument bound 0).rows ∨
          ∃ rows columns entries, argument bound 0 = .sparse rows columns entries) := by
  refine ⟨fun input state out h => ?_, fun input state A h => ?_, fun scope generator a s v t h => ?_⟩
  · cases input with
    | none =>
      simp only [Mapper.evaluate?, Mapper.Block.evaluate?, Mapper.required?, bind_eq_ok] at h
      obtain ⟨_, -, _, hrequired, -⟩ := h
      cases hrequired
    | some input => exact ⟨input, rfl, Mapper.evaluate_answers h⟩
  · cases input with
    | none =>
      simp only [Mapper.jacobian?, Mapper.Block.jacobian?, Mapper.required?, bind_eq_ok] at h
      obtain ⟨_, -, _, hrequired, -⟩ := h
      cases hrequired
    | some input =>
      obtain ⟨hrows, hcolumns, hbounded⟩ := Mapper.jacobian_rows h
      refine ⟨input, rfl, hrows, hcolumns, hbounded, fun state' out hout => ?_⟩
      have hanswers := Mapper.evaluate_answers hout
      by_cases hpoints : input.size ≠ 1 ∨ input.scale = .null
      · exact hanswers.points hpoints
      · obtain ⟨hone, hscale⟩ := not_or.1 hpoints
        have hone : input.size = 1 := not_not.1 hone
        obtain ⟨ws, hws, hcount⟩ := hanswers.weights hone hscale
        obtain ⟨vs, hvs, hfits⟩ :=
          (Mapper.weightsFit_of_jacobian h (by omega)).resolve_left hscale
        obtain rfl := Except.ok.inj (hws.symm.trans hvs)
        exact hcount.trans (hfits.elim (·.trans hone.symm) id)
  · obtain ⟨r, hr, hcases⟩ := call_cases h
    obtain ⟨bound, state, m, hbound, hmain, -, hm, hvalues, -⟩ := reading_eq_ok.1 hr
    obtain rfl := Option.some.inj (hm.symm.trans hmapper)
    have hanswers := Mapper.evaluate_answers hvalues
    have hrows : (argument bound 0).Shaped → (inputOf r.main bound).size = (argument bound 0).rows ∨
        ∃ rows columns entries, argument bound 0 = .sparse rows columns entries :=
      fun hshaped => rows_mainGrid hshaped hmain
    obtain ⟨-, -, rfl⟩ | ⟨-, -, rfl⟩ := hcases
    · exact ⟨bound, r.main, _, hbound, hmain, rfl, (length_replaceMarked _ _ _).symm ▸ hanswers, hrows⟩
    · exact ⟨bound, r.main, _, hbound, hmain, rfl, hanswers, hrows⟩

def slope : Component ℚ := Effects.plainComponent "b" (.component (.linear 1) 1 1)

def slopeCall (main weights : List ℚ) (coefficient : ℚ) : Arguments ℚ :=
  ⟨[.ofReals main], [(some "weights", .ofReals weights), (some "state", .ofReals [coefficient])]⟩

theorem slope_answers : slope.mapper = some (.component (.linear 1) 1 1) ∧
    (call slope ⟨[]⟩ .given (slopeCall [1, 2] [5] 3)).outcome (.start (.ofCycle [])) =
      (.ok (column [15, 30]), .start (.ofCycle [])) ∧
    ∃ bound g, (slopeCall [1, 2] [5] 3).bind? parameters = .ok bound ∧
      mainGrid? (argument bound 0) = .ok g ∧ (inputOf g bound).Answers 2 := by
  have hcall : (call slope ⟨[]⟩ .given (slopeCall [1, 2] [5] 3)).outcome (.start (.ofCycle [])) =
      (.ok (column [15, 30]), .start (.ofCycle [])) := by
    with_unfolding_all rfl
  obtain ⟨bound, g, values, hbound, hmain, hvalues, hanswers, -⟩ :=
    (answers_points (c := slope) rfl).2.2 _ _ _ _ _ _ hcall
  obtain rfl := column_inj.1 hvalues
  exact ⟨rfl, hcall, bound, g, hbound, hmain, hanswers⟩

/-- A single point with three weights has three values and no derivative. -/
theorem slope_repeated :
    (Mapper.Input.size ⟨.ofReals [(2 : ℚ)], .null, .null, .ofReals [1, 2, 3]⟩ = 1 ∧
      (Mapper.component (.linear 1) 1 1).evaluate?
        (some ⟨.ofReals [(2 : ℚ)], .null, .null, .ofReals [1, 2, 3]⟩) (.ofReals [1]) = .ok [2, 4, 6] ∧
      (Mapper.component (.linear 1) 1 1).jacobian?
        (some ⟨.ofReals [(2 : ℚ)], .null, .null, .ofReals [1, 2, 3]⟩) (.ofReals [1]) =
        .error (.fault .value)) ∧
    (call slope ⟨[]⟩ .given (slopeCall [2] [1, 2, 3] 1)).outcome (.start (.ofCycle [])) =
      (.ok (column [2, 4, 6]), .start (.ofCycle [])) :=
  ⟨⟨rfl, by decide +kernel, by with_unfolding_all rfl⟩, by with_unfolding_all rfl⟩

end Evaluator

end AdditiveModel
