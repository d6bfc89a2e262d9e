import AdditiveModel.Model.Basic
import AdditiveModel.Proofs.Outcome

/-! What a component reads from data, and what it is completed with when its mapper is missing. -/

namespace AdditiveModel

variable {F : Type} [Scalar F]

namespace Component

theorem spread_cases {size : Nat} {v w : Value F} (h : spread? size v = .ok w) :
    w = .null ∨ ∃ g, w = Value.ofGrid g := by
  unfold spread? at h
  split at h
  · exact Or.inl (Except.ok.inj h).symm
  · obtain ⟨g, -, h⟩ := bind_eq_ok.1 h
    split at h
    · exact Or.inr ⟨⟨g.kind, [size], List.replicate size _⟩, (Except.ok.inj h).symm⟩
    · split at h
      · exact Or.inr ⟨⟨g.kind, [size], List.replicate size _⟩, (Except.ok.inj h).symm⟩
      · exact Or.inr ⟨g, (Except.ok.inj h).symm⟩
    · exact Or.inr ⟨g, (Except.ok.inj h).symm⟩

/-- The value of a specification for data with `size` observations. -/
def Reads (d : Value F) (size : Nat) (spec v : Value F) : Prop :=
  ∃ w, specValue? spec d = .ok w ∧ spread? size w = .ok v

theorem input_eq_ok {c : Component F} {d : Value F} {i : Mapper.Input F} :
    c.input? d = .ok i ↔ ∃ size, Data.length? d = .ok size ∧ Reads d size c.mainSpec i.main ∧
      Reads d size c.group i.group ∧ Reads d size c.replicate i.replicate ∧
      Reads d size c.weights i.scale := by
  simp only [input?, bind_eq_ok, lift_eq_ok, pure_eq_ok]
  constructor
  · rintro ⟨size, hsize, main, hmain, group, hgroup, replicate, hreplicate, scale, hscale, rfl⟩
    exact ⟨size, hsize, hmain, hgroup, hreplicate, hscale⟩
  · rintro ⟨size, hsize, hmain, hgroup, hreplicate, hscale⟩
    exact ⟨size, hsize, _, hmain, _, hgroup, _, hreplicate, _, hscale, rfl⟩

/-- A component without a mapper is completed with the counts and the main mapper that the inputs for
all data objects give. -/
theorem complete_eq_ok {c c' : Component F} {data : List (Value F)} (hmapper : c.mapper = none) :
    c.complete? data = .ok c' ↔ ∃ inputs main groups replicates m,
      data.mapM c.input? = .ok inputs ∧ inputs ≠ [] ∧
      Joining.concat? (inputs.map (·.main)) = .ok main ∧
      inferCount? c.groups (inputs.map (·.group)) = .ok groups ∧
      inferCount? c.replicates (inputs.map (·.replicate)) = .ok replicates ∧
      Mapper.ofModel? (.str c.model) (Value.ofGrid main) c.options = .ok m ∧
      c' = withMapper { c with groups := some groups, replicates := some replicates } m := by
  unfold complete?
  rw [hmapper]
  constructor
  · intro h
    obtain ⟨inputs, hinputs, h⟩ := bind_eq_ok.1 h
    rw [check_eq_ok, List.isEmpty_iff] at h
    simp only [bind_eq_ok, lift_eq_ok, pure_eq_ok] at h
    obtain ⟨hne, main, hmain, groups, hgroups, replicates, hreplicates, m, hm, rfl⟩ := h
    exact ⟨inputs, main, groups, replicates, m, hinputs, hne, hmain, hgroups, hreplicates, hm, rfl⟩
  · rintro ⟨inputs, main, groups, replicates, m, hinputs, hne, hmain, hgroups, hreplicates, hm, rfl⟩
    refine bind_eq_ok.2 ⟨inputs, hinputs, ?_⟩
    rw [check_eq_ok, List.isEmpty_iff]
    simp only [bind_eq_ok, lift_eq_ok, pure_eq_ok]
    exact ⟨hne, main, hmain, groups, hgroups, replicates, hreplicates, m, hm, rfl⟩

theorem complete_with {c c' : Component F} {data : List (Value F)} (h : c.complete? data = .ok c') :
    ∃ groups replicates mapper, c' = { c with groups, replicates, mapper } := by
  cases hmapper : c.mapper with
  | some m =>
    unfold complete? at h
    rw [hmapper] at h
    cases h
    exact ⟨c.groups, c.replicates, c.mapper, rfl⟩
  | none =>
    obtain ⟨_, _, _, _, _, -, -, -, -, -, -, rfl⟩ := (complete_eq_ok hmapper).1 h
    exact ⟨_, _, _, rfl⟩

end Component

/-- The inputs of components stand in their order, each under the label of its component. -/
theorem Components.inputs_eq_ok {cs : Components F} {data : Value F} {inputs : Named (Mapper.Input F)} :
    cs.inputs? data = .ok inputs ↔
      List.Forall₂ (fun c e => e.1 = c.label ∧ c.input? data = .ok e.2) cs.toList inputs := by
  rw [inputs?, mapM_eq_ok]
  refine forall₂_iff_of_mem fun c _ e => ?_
  rw [bind_eq_ok]
  constructor
  · rintro ⟨i, hi, h⟩
    cases h
    exact ⟨rfl, hi⟩
  · rintro ⟨hlabel, hi⟩
    exact ⟨e.2, hi, by rw [← hlabel]; rfl⟩

/-- A model has the components completed with the data of all likelihoods, and the formula of those
that some likelihood includes. -/
theorem Model.build_eq_ok {cs : Components F} {ls : List (Likelihood F)} {m : Model F} :
    build? cs ls = .ok m ↔ ∃ completed included,
      List.Forall₂ (fun c c' => c.complete? (dataOf ls) = .ok c') cs.toList completed ∧
      includedByAny? (completed.map (·.label)) ls = .ok included ∧
      m = ⟨⟨completed⟩, formulaOf ⟨completed⟩ included (ls.all (·.linear)), ls⟩ := by
  simp only [build?, Components.complete?, bind_eq_ok, pure_eq_ok, mapM_eq_ok, @eq_comm _ m]
  constructor
  · rintro ⟨_, ⟨completed, hcompleted, rfl⟩, included, hincluded, h⟩
    exact ⟨completed, included, hcompleted, hincluded, h⟩
  · rintro ⟨completed, included, hcompleted, hincluded, h⟩
    exact ⟨_, ⟨completed, hcompleted, rfl⟩, included, hincluded, h⟩

end AdditiveModel
