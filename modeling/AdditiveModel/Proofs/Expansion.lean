import AdditiveModel.Proofs.AffineRows

/-! Simplified and linearized components. A component that is affine in its latent vector is
replaced by its values and its derivative on fixed inputs, and keeps its values at every state. -/

namespace AdditiveModel.Mapper

variable {F : Type} [Scalar F]

/-- A component over a main mapper is affine on every input that it has values on. -/
theorem Elementary.component_affine [Exact F] {main : Mapper F} (hm : main.Elementary)
    {groups replicates : Int} {input : Input F} (hv : input.main.Shaped) (hw : input.WeightsFit)
    {state : Value F} {out : List F}
    (h : (component main groups replicates).evaluate? (some input) state = .ok out) :
    ∃ c A, (component main groups replicates).Affine input c A := by
  obtain ⟨c, A, -, haffine⟩ :=
    (hm.affineOnBlocks groups replicates input).component_affine hv (hm.singleWithoutAxes hv) hw h
  exact ⟨c, A, haffine⟩

/-- A component that is simplified, or linearized around any state, keeps its values at every
state, whatever inputs it is given then. -/
theorem component_expanded_eq [Exact F] {main : Mapper F} (hm : main.Elementary)
    {groups replicates : Int} {input : Input F} (hv : input.main.Shaped) (hw : input.WeightsFit)
    {state₁ : Value F} {out : List F}
    (h : (component main groups replicates).evaluate? (some input) state₁ = .ok out)
    {reference state : Value F} {s₀ s : List F}
    (h₀ : latent? (component main groups replicates).n reference = .ok s₀)
    (hs : latent? (component main groups replicates).n state = .ok s) :
    ∃ values simplified linearized,
      (component main groups replicates).evaluate? (some input) state = .ok values ∧
      (component main groups replicates).ofLinear? (some input) = .ok simplified ∧
      (component main groups replicates).linearize? (some input) reference = .ok linearized ∧
      ∀ other, simplified.evaluate? other state = .ok values ∧
        linearized.evaluate? other state = .ok values := by
  obtain ⟨c, A, haffine⟩ := hm.component_affine hv hw h
  have hvalues := haffine.values hs
  refine ⟨_, _, _, hvalues, haffine.ofLinear, haffine.linearize h₀, fun other => ⟨?_, ?_⟩⟩
  · rw [haffine.evaluate_ofLinear hs, hvalues]
  · rw [haffine.evaluate_linearize h₀ hs, hvalues]

theorem alternating_expanded :
    ∃ values simplified linearized,
      (component (linear 1) 2 1).evaluate? (some Input.alternating) (.ofReals [1, 2]) = .ok values ∧
      (component (linear 1) 2 1).ofLinear? (some Input.alternating) = .ok simplified ∧
      (component (linear 1) 2 1).linearize? (some Input.alternating) .null = .ok linearized ∧
      ∀ other, simplified.evaluate? other (.ofReals [1, 2]) = .ok values ∧
        linearized.evaluate? other (.ofReals [1, 2]) = .ok values :=
  component_expanded_eq (.linear 1) Input.alternating_shaped Input.alternating_weights
    Input.alternating_values (show latent? 2 .null = .ok [0, 0] by decide +kernel)
    (show latent? 2 (.ofReals [1, 2]) = .ok [1, 2] by decide +kernel)

end AdditiveModel.Mapper
