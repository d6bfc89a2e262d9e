import AdditiveModel.Effect.Evaluate
import AdditiveModel.Proofs.Expansion
import AdditiveModel.Proofs.Named
import AdditiveModel.Proofs.Run
import AdditiveModel.Real.Instance

/-! Effects of ready mappers. A component that was simplified on its input has the effect that its own
mapper has there, so the effects of all states can be evaluated with what was prepared once. -/

namespace AdditiveModel

variable {F : Type} [Scalar F]

namespace Mapper

theorem ofLinear_eq_ok {m t : Mapper F} {input : Option (Input F)} :
    m.ofLinear? input = .ok t ↔
      ∃ fixed A, m.evaluate? input .null = .ok fixed ∧ m.jacobian? input .null = .ok A ∧
        A.rows = fixed.length ∧ expanded fixed A none = t := by
  simp only [ofLinear?, expanded?, bind_eq_ok, pure_eq_ok, exists_eq_left', check_eq_ok]
  simp

namespace Block

theorem weights_cases {input : Input F} {o : Option (List F)} (h : weights? input = .ok o) :
    input.scale = .null ∧ o = none ∨ input.scale ≠ .null ∧ ∃ ws, input.scale.vector? = .ok ws ∧
      ((∃ w, ws = [w] ∧ o = some (List.replicate input.size w)) ∨ ws.length ≠ 1 ∧ o = some ws) := by
  unfold weights? at h
  split at h
  · rename_i hnull
    exact Or.inl ⟨hnull, (Except.ok.inj h).symm⟩
  · rename_i hne
    obtain ⟨ws, hws, h⟩ := bind_eq_ok.1 h
    refine Or.inr ⟨hne, ws, hws, ?_⟩
    split at h
    · rename_i w
      exact Or.inl ⟨w, rfl, (pure_eq_ok.1 h).symm⟩
    · rename_i hmany
      refine Or.inr ⟨fun hone => ?_, (pure_eq_ok.1 h).symm⟩
      obtain ⟨w, rfl⟩ := List.length_eq_one_iff.1 hone
      exact hmany w rfl

theorem weightsFit_of_length {input : Input F} {ws : List F} (h : weights? input = .ok (some ws))
    (hlen : ws.length = input.size) : input.WeightsFit := by
  rcases weights_cases h with ⟨-, ⟨⟩⟩ | ⟨-, vs, hvs, ⟨w, rfl, -⟩ | ⟨-, ⟨⟩⟩⟩
  · exact Or.inr ⟨[w], hvs, Or.inl rfl⟩
  · exact Or.inr ⟨ws, hvs, Or.inr hlen⟩

theorem weightsFit_of_null {input : Input F} (h : weights? input = .ok none) : input.WeightsFit := by
  rcases weights_cases h with ⟨hnull, -⟩ | ⟨-, _, -, ⟨_, -, ⟨⟩⟩ | ⟨-, ⟨⟩⟩⟩
  exact Or.inl hnull

theorem weightsFit_of_rows {input : Input F} {A B : Sparse F} (hA : A.rows = input.size)
    (h : weightedRows? input A = .ok B) : input.WeightsFit := by
  obtain ⟨ws, hws, h⟩ := bind_eq_ok.1 h
  cases ws with
  | none => exact weightsFit_of_null hws
  | some ws =>
    refine weightsFit_of_length hws ?_
    by_cases hlen : ws.length = A.rows
    · rw [hlen, hA]
    · simp [hlen] at h

theorem weightsFit_of_empty {input : Input F} {out : List F} (hsize : input.size = 0)
    (h : weighted? input [] = .ok out) : input.WeightsFit := by
  obtain ⟨ws, hws, h⟩ := bind_eq_ok.1 h
  cases ws with
  | none => exact weightsFit_of_null hws
  | some ws =>
    rcases weights_cases hws with ⟨-, ⟨⟩⟩ | ⟨-, vs, hvs, ⟨w, rfl, -⟩ | ⟨hmany, ⟨⟩⟩⟩
    · exact Or.inr ⟨[w], hvs, Or.inl rfl⟩
    · refine Or.inr ⟨ws, hvs, Or.inr ?_⟩
      match ws with
      | [] => exact hsize.symm
      | [_] => exact absurd rfl hmany
      | _ :: _ :: _ => simp [pairwise?] at h

end Block

/-- At points with other than one or as many weights there is no derivative. -/
theorem weightsFit_of_jacobian {main : Mapper F} {groups replicates : Int} {input : Input F}
    {state : Value F} {A : Sparse F}
    (h : (component main groups replicates).jacobian? (some input) state = .ok A)
    (hsize : 0 < input.size) : input.WeightsFit := by
  obtain ⟨s, blocks, entries, -, hblocks, hentries, -, -, hA⟩ := jacobian_eq_ok.1 h
  -- a point has a block, so the entries are weighted
  have hne : entries.isEmpty = false := by
    rw [List.isEmpty_eq_false_iff, ← List.length_pos_iff, mapM_length hentries, List.length_pos_iff]
    obtain ⟨b, hb⟩ := List.exists_mem_of_length_pos ((Block.blocks_length hblocks).symm ▸ hsize)
    exact List.ne_nil_of_mem (Block.mem_occurring.2 hb)
  rw [hne, if_neg Bool.false_ne_true] at hA
  exact Block.weightsFit_of_rows rfl hA

/-- Weights that are neither one nor as many as there are points have no derivative, and without points
no values. -/
theorem weightsFit_of_ofLinear {main t : Mapper F} {groups replicates : Int} {input : Input F}
    (h : (component main groups replicates).ofLinear? (some input) = .ok t) : input.WeightsFit := by
  obtain ⟨fixed, A, hvalues, hjacobian, -, -⟩ := ofLinear_eq_ok.1 h
  rcases Nat.eq_zero_or_pos input.size with hsize | hsize
  · obtain ⟨_, _, y, -, -, -, hout⟩ := evaluate_component.1 hvalues
    rw [hsize] at hout
    exact Block.weightsFit_of_empty hsize hout
  · exact weightsFit_of_jacobian hjacobian hsize

/-- A component that was simplified keeps its values at every latent vector. -/
theorem AffineOnBlocks.evaluate_of_ofLinear [Exact F] {main t : Mapper F} {groups replicates : Int}
    {input : Input F} (hm : main.AffineOnBlocks groups replicates input) (hv : input.main.Shaped)
    (hsingle : main.SingleWithoutAxes input.main)
    (h : (component main groups replicates).ofLinear? (some input) = .ok t) {state : Value F}
    (hstate : state = .null ∨ ∃ s, latent? (component main groups replicates).n state = .ok s)
    (other : Option (Input F)) :
    t.evaluate? other state = (component main groups replicates).evaluate? (some input) state := by
  obtain ⟨fixed, _, hvalues, -⟩ := ofLinear_eq_ok.1 h
  obtain ⟨c, A, -, haffine⟩ := hm.component_affine hv hsingle (weightsFit_of_ofLinear h) hvalues
  obtain rfl : expanded c A none = t := Except.ok.inj (haffine.ofLinear.symm.trans h)
  rcases hstate with rfl | ⟨s, hs⟩
  · -- the fixed values are those of the zero vector
    obtain ⟨s, _, _, hs, -⟩ := evaluate_component.1 hvalues
    exact haffine.evaluate_ofLinear hs other
  · exact haffine.evaluate_ofLinear hs other

end Mapper

namespace Component

/-- The component has a mapper, and where it is linear it has blocks of a main mapper. -/
def Ready (c : Component F) : Prop :=
  ∃ m, c.mapper = some m ∧
    (m.isLinear = true →
      ∃ main groups replicates, m = .component main groups replicates ∧ main.Elementary)

/-- If the mapper is linear, it keeps its values when it is simplified on the component's input. -/
def KeepsValues (inputs : Named (Mapper.Input F)) (c : Component F) : Prop :=
  ∀ m input t, c.mapper = some m → m.isLinear = true → Named.value? inputs c.label = some input →
    m.ofLinear? (some input) = .ok t → ∀ state other,
      state = .null ∨ (∃ s, Mapper.latent? m.n state = .ok s) →
        t.evaluate? other state = m.evaluate? (some input) state

theorem keepsValues_of_affine [Exact F] {c : Component F} {main : Mapper F}
    {groups replicates : Int} (hmapper : c.mapper = some (.component main groups replicates))
    {inputs : Named (Mapper.Input F)} {input : Mapper.Input F}
    (hinput : Named.value? inputs c.label = some input) (hv : input.main.Shaped)
    (hsingle : main.SingleWithoutAxes input.main)
    (hlinear : main.isLinear = true → main.AffineOnBlocks groups replicates input) :
    c.KeepsValues inputs := by
  intro m input' t hm hm' hinput' ht state other hstate
  obtain rfl := Option.some.inj (hmapper.symm.trans hm)
  obtain rfl := Option.some.inj (hinput.symm.trans hinput')
  exact (hlinear hm').evaluate_of_ofLinear hv hsingle ht hstate other

def isNonlinear (c : Component F) : Bool := c.mapper.any (!·.isLinear)

end Component

namespace Simplified

def Prepares (inputs : Named (Mapper.Input F)) (c : Component F) (entry : String × Mapper F) : Prop :=
  ∃ m, c.mapper = some m ∧ simplifyOne? inputs c m = .ok entry

omit [Scalar F] in
theorem mappers_eq_ok {cs : List (Component F)} {pairs : List (Component F × Mapper F)} :
    (cs.mapM fun c => do return (c, ← mapperOf? c)) = .ok pairs ↔
      List.Forall₂ (fun c p => c.mapper = some p.2 ∧ p.1 = c) cs pairs := by
  rw [mapM_eq_ok]
  refine forall₂_iff_of_mem fun c _ p => ?_
  rw [mapperOf?]
  cases c.mapper with
  | none => simp
  | some m => simp [Prod.ext_iff, and_comm, eq_comm]

omit [Scalar F] in
theorem any_nonlinear {cs : List (Component F)} {pairs : List (Component F × Mapper F)}
    (h : List.Forall₂ (fun c p => c.mapper = some p.2 ∧ p.1 = c) cs pairs) :
    (pairs.any fun p => !p.2.isLinear) = cs.any (·.isNonlinear) := by
  induction h with
  | nil => rfl
  | cons hp _ ih => simp [ih, Component.isNonlinear, hp.1]

theorem simplifyOne_linear {inputs : Named (Mapper.Input F)} {c : Component F} {m : Mapper F}
    {entry : String × Mapper F} (hlinear : m.isLinear = true) :
    simplifyOne? inputs c m = .ok entry ↔ ∃ input t, Named.value? inputs c.label = some input ∧
      m.ofLinear? (some input) = .ok t ∧ entry = (c.label, t) := by
  rw [simplifyOne?, if_pos hlinear]
  simp only [bind_eq_ok, pure_eq_ok, inputOf?]
  cases Named.value? inputs c.label with
  | none => simp
  | some input => simp [eq_comm (a := entry)]

theorem simplifyOne_nonlinear {inputs : Named (Mapper.Input F)} {c : Component F} {m : Mapper F}
    {entry : String × Mapper F} (hlinear : m.isLinear = false) :
    simplifyOne? inputs c m = .ok entry ↔ entry = (c.label, m) := by
  rw [simplifyOne?, if_neg (by simp [hlinear]), pure_eq_ok, eq_comm]

/-- Every component is prepared, in order, and there is one warning for all that are not linear. -/
theorem ofComponents_eq_ok {cs : Components F} {inputs : Named (Mapper.Input F)} {ms : Simplified F}
    {ws ws' : List Warning} (h : (ofComponents cs inputs).outcome ws = (.ok ms, ws')) :
    List.Forall₂ (Prepares inputs) cs.toList ms ∧
      ws' = ws ++ if cs.toList.any (·.isNonlinear) then [.nonlinear] else [] := by
  obtain ⟨pairs, _, hpairs, h⟩ := Run.bind_eq_ok.1 h
  obtain ⟨built, _, hbuilt, h⟩ := Run.bind_eq_ok.1 h
  simp only [Run.outcome_liftError, Prod.mk.injEq] at hpairs hbuilt
  obtain ⟨hpairs, rfl⟩ := hpairs
  obtain ⟨hbuilt, rfl⟩ := hbuilt
  rw [mappers_eq_ok] at hpairs
  have hany := any_nonlinear hpairs
  have hprepares : List.Forall₂ (Prepares inputs) cs.toList built := by
    refine (forall₂_trans hpairs (mapM_eq_ok.1 hbuilt)).imp fun c entry hc => ?_
    obtain ⟨p, ⟨hm, rfl⟩, hentry⟩ := hc
    exact ⟨p.2, hm, hentry⟩
  simp only [hany] at h
  cases hlinear : cs.toList.any (·.isNonlinear) with
  | false =>
    simp only [hlinear, Bool.false_eq_true, if_false, Run.outcome_pure, Prod.mk.injEq,
      Except.ok.injEq] at h
    exact ⟨h.1 ▸ hprepares, by simp [h.2]⟩
  | true =>
    simp only [hlinear, if_true, warn, Run.outcome_bind, Run.outcome_change, Run.outcome_pure,
      Prod.mk.injEq, Except.ok.injEq] at h
    exact ⟨h.1 ▸ hprepares, by simp [h.2]⟩

end Simplified

namespace Effects

/-- The entry of a component is named like it and has the values of the component's own mapper, if the
mapper is not linear or nothing is rounded. -/
structure IsEffect (inputs : Named (Mapper.Input F)) (state : Named (Value F)) (c : Component F)
    (entry : String × List F) : Prop where
  label : entry.1 = c.label
  values {m : Mapper F} : c.mapper = some m → m.isLinear = false ∨ Exact F →
    m.evaluate? (Named.value? inputs c.label) ((Named.value? state c.label).getD .null) = .ok entry.2

/-- Each entry of the state for a component is a vector of the mapper's length. -/
def Fits (state : Named (Value F)) (c : Component F) : Prop :=
  ∀ m v, c.mapper = some m → Named.value? state c.label = some v →
    ∃ s, Mapper.latent? m.n v = .ok s

theorem isEffect_of_prepares {inputs : Named (Mapper.Input F)} {state : Named (Value F)}
    {c : Component F} {prepared : String × Mapper F} {values : List F}
    (hkeeps : Exact F → c.KeepsValues inputs) (hfits : Fits state c)
    (hprepares : Simplified.Prepares inputs c prepared)
    (h : prepared.2.evaluate? (Named.value? inputs prepared.1)
      ((Named.value? state prepared.1).getD .null) = .ok values) :
    IsEffect inputs state c (prepared.1, values) := by
  obtain ⟨m, hm, hprepared⟩ := hprepares
  cases hlinear : m.isLinear with
  | false =>
    obtain rfl := (Simplified.simplifyOne_nonlinear hlinear).1 hprepared
    refine ⟨rfl, fun {m'} hm' _ => ?_⟩
    obtain rfl := Option.some.inj (hm.symm.trans hm')
    exact h
  | true =>
    obtain ⟨input, t, hinput, ht, rfl⟩ := (Simplified.simplifyOne_linear hlinear).1 hprepared
    refine ⟨rfl, fun {m'} hm' hexact => ?_⟩
    obtain rfl := Option.some.inj (hm.symm.trans hm')
    have hstate : (Named.value? state c.label).getD .null = .null ∨
        ∃ s, Mapper.latent? m.n ((Named.value? state c.label).getD .null) = .ok s := by
      cases hv : Named.value? state c.label with
      | none => exact Or.inl rfl
      | some v => exact Or.inr (hfits m v hm hv)
    have hsame := hkeeps (hexact.resolve_left (by simp [hlinear])) m input t hm hlinear hinput ht _
      (some input) hstate
    rw [hinput, ← hsame, ← hinput]
    exact h

theorem ofSimplified_eq_ok {ms : Simplified F} {inputs : Named (Mapper.Input F)}
    {state : Named (Value F)} {effects : Effects F} :
    ofSimplified? ms inputs state = .ok effects ↔
      List.Forall₂ (fun prepared entry => ∃ values,
        prepared.2.evaluate? (Named.value? inputs prepared.1)
          ((Named.value? state prepared.1).getD .null) = .ok values ∧ (prepared.1, values) = entry)
        ms effects := by
  rw [ofSimplified?, mapM_eq_ok]
  refine forall₂_iff_of_mem fun prepared _ entry => ?_
  simp only [bind_eq_ok, pure_eq_ok]

theorem isEffects_of_ofComponents {cs : Components F} {inputs : Named (Mapper.Input F)}
    {state : Named (Value F)} {ws ws' : List Warning} {effects : Effects F}
    (hkeeps : ∀ c ∈ cs.toList, Exact F → c.KeepsValues inputs) (hfits : ∀ c ∈ cs.toList, Fits state c)
    (h : (ofComponents cs inputs state).outcome ws = (.ok effects, ws')) :
    List.Forall₂ (IsEffect inputs state) cs.toList effects := by
  obtain ⟨ms, w, hms, heffects⟩ := Run.bind_eq_ok.1 h
  simp only [Run.outcome_liftError, Prod.mk.injEq] at heffects
  have hprepares := (Simplified.ofComponents_eq_ok hms).1
  refine (forall₂_with_mem (forall₂_trans hprepares (ofSimplified_eq_ok.1 heffects.1))).imp ?_
  rintro c entry ⟨hc, prepared, hprepared, values, hvalues, rfl⟩
  exact isEffect_of_prepares (hkeeps c hc) (hfits c hc) hprepared hvalues

def plainComponent (label : String) (m : Mapper F) : Component F where
  label
  main := .null
  group := .null
  replicate := .null
  weights := .null
  model := ""
  role := .other
  mapper := some m
  groups := none
  replicates := none
  options := []

def timesSquare (x : Value ℚ) (s : List ℚ) : Except Error (Value ℚ) := do
  return .ofReals ((← lift x.vector?).map fun v => v * Scalar.sum s * Scalar.sum s)

/-- A function that is not linear, levels in two groups, and a known effect with weights. -/
def mixed : Components ℚ where
  toList := [plainComponent "curve" (.component (.function "square" timesSquare 1 false) 1 1),
    plainComponent "site" (.component (.index [.str "a", .str "b"]) 2 1),
    plainComponent "known" (.component .offset 1 1)]

def mixedInputs : Named (Mapper.Input ℚ) :=
  [("known", ⟨.list [.int 5, .int 6], .null, .null, .list [.int 2, .int 3]⟩),
    ("site", ⟨.list [.str "a", .str "c", .str "b"], .list [.int 2], .null, .null⟩),
    ("curve", .ofMain (.list [.int 1, .int 2]))]

def mixedStates : List (Named (Value ℚ)) :=
  [[("site", .ofReals [1, 2, 3, 4]), ("curve", .ofReals [3])], [("known", .ofReals [])]]

def slope : Component Float := plainComponent "slope" (.component (.linear 1) 1 1)

end Effects

end AdditiveModel
