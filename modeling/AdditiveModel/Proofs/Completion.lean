import AdditiveModel.Model.Basic
import AdditiveModel.Proofs.Exact
import AdditiveModel.Proofs.Outcome

/-! Completing a component reads the data of every likelihood, also of those that exclude the
component: their data has to give an input, and what it gives goes into the mapper. -/

namespace AdditiveModel

variable {F : Type} [Scalar F]

namespace Component

theorem complete_of_mapper {c : Component F} {m : Mapper F} (h : c.mapper = some m)
    (data : List (Value F)) : c.complete? data = .ok c := by
  rw [complete?, h]
  rfl

/-- A mapper that is built from data is built from the inputs of all data objects. -/
theorem inputs_of_complete {c c' : Component F} {data : List (Value F)} (hc : c.mapper = none)
    (h : c.complete? data = .ok c') :
    ∃ inputs, List.Forall₂ (fun d i => c.input? d = .ok i) data inputs := by
  simp only [complete?, hc] at h
  obtain ⟨inputs, hinputs, -⟩ := bind_eq_ok.1 h
  exact ⟨inputs, mapM_eq_ok.1 hinputs⟩

theorem input_int (c : Component F) (n : Int) (i : Mapper.Input F) : c.input? (.int n) ≠ .ok i := by
  intro h
  obtain ⟨size, hsize, -⟩ := bind_eq_ok.1 h
  cases hsize

end Component

namespace Model

def Excludes (labels : List String) (l : Likelihood F) (label : String) : Prop :=
  ∃ kept, includedBy? labels l = .ok kept ∧ label ∉ kept

/-- The likelihoods differ in their data only, and only if they exclude the label. -/
structure SameFor (labels : List String) (label : String) (l l' : Likelihood F) : Prop where
  linear : l.linear = l'.linear
  includes : l.includes = l'.includes
  excludes : l.excludes = l'.excludes
  data : ¬ Excludes labels l label → l.data = l'.data

theorem SameFor.refl (labels : List String) (label : String) (l : Likelihood F) :
    SameFor labels label l l :=
  ⟨rfl, rfl, rfl, fun _ => rfl⟩

theorem beq_str (a b : String) : ((Value.str a : Value F) == .str b) = (a == b) := by
  simp [BEq.beq, Value.same, Value.equal?]

theorem contains_str (labels : List String) (label : String) :
    ((labels.map Value.str : List (Value F)).contains (.str label)) = labels.contains label := by
  induction labels with
  | nil => rfl
  | cons l labels ih => rw [List.map_cons, List.contains_cons, List.contains_cons, ih, beq_str]

omit [Scalar F] in
theorem areKeys_str (labels : List String) :
    Value.areKeys (labels.map Value.str : List (Value F)) = true := by
  induction labels with
  | nil => rfl
  | cons l labels ih => simpa [Value.areKeys, Value.isKey] using ih

theorem excludes_label {labels : List String} {label : String} (h : label ∈ labels) (data : Value F) :
    Excludes labels { data, excludes := .str label } label := by
  have hkeys := areKeys_str (F := F) labels
  have hkey : Value.areKeys [(.str label : Value F)] = true := areKeys_str [label]
  have hknown : Inclusion.unknown (labels.map Value.str) [(.str label : Value F)] = [] := by
    rw [Inclusion.unknown, List.filter_eq_nil_iff]
    simp only [List.mem_singleton, forall_eq, contains_str]
    simpa using h
  refine ⟨labels.filter fun name => ((labels.map Value.str).filter
    (Inclusion.keeps none (some [(.str label : Value F)]))).contains (.str name), ?_, ?_⟩
  · simp [includedBy?, Inclusion.ofNames?, Inclusion.ofItems?, Inclusion.select,
      Inclusion.filterItems?, Inclusion.checkKeys, Inclusion.check, lift, hkeys, hkey, hknown,
      Value.areKeys, bind, Except.bind, pure, Except.pure]
  · intro hmem
    have hkept := (List.mem_filter.1 hmem).2
    simp [Inclusion.keeps, beq_str] at hkept

/-- The mapper that a component is completed with; none where it cannot be completed. -/
def completedWith (c : Component F) (likelihoods : List (Likelihood F)) : Option (Option (Mapper F)) :=
  (c.complete? (dataOf likelihoods)).toOption.map (·.mapper)

/-- What a component is completed with does not depend on the data of likelihoods that exclude it. -/
def Independent (labels : List String) (c : Component F) : Prop :=
  ∀ ls ls' : List (Likelihood F), List.Forall₂ (SameFor labels c.label) ls ls' →
    completedWith c ls = completedWith c ls'

omit [Scalar F] in
theorem dataOf_append (ls ls' : List (Likelihood F)) : dataOf (ls ++ ls') = dataOf ls ++ dataOf ls' := by
  simp [dataOf]

/-- Completion is independent of excluded data only for components that have their mapper already, or
that cannot be completed at all. -/
theorem independent_iff {labels : List String} {c : Component F} (hc : c.label ∈ labels) :
    Independent labels c ↔ c.mapper.isSome = true ∨ ∀ ls, completedWith c ls = none := by
  constructor
  · intro hindependent
    rw [or_iff_not_imp_left, Option.not_isSome_iff_eq_none]
    intro hmapper ls
    let excluding (data : Value F) : Likelihood F := { data, excludes := .str c.label }
    have hsame : List.Forall₂ (SameFor labels c.label) (ls ++ [excluding .null])
        (ls ++ [excluding (.int 0)]) := by
      refine List.rel_append (List.forall₂_same.2 fun l _ => .refl labels c.label l) ?_
      exact .cons ⟨rfl, rfl, rfl, fun h => absurd (excludes_label hc .null) h⟩ .nil
    -- the data that is no data is excluded, and is read all the same
    have hfails : completedWith c (ls ++ [excluding (.int 0)]) = none := by
      cases h : c.complete? (dataOf (ls ++ [excluding (.int 0)])) with
      | error err => simp [completedWith, h, Except.toOption]
      | ok c' =>
        obtain ⟨inputs, hinputs⟩ := c.inputs_of_complete hmapper h
        have hmem : (.int 0 : Value F) ∈ dataOf (ls ++ [excluding (.int 0)]) := by
          rw [dataOf_append]
          exact List.mem_append_right _ (List.mem_singleton.2 rfl)
        obtain ⟨i, hi⟩ := List.mem_iff_getElem?.1 hmem
        obtain ⟨input, -, hinput⟩ := forall₂_getElem? hinputs hi
        exact absurd hinput (c.input_int 0 input)
    have hnull : dataOf (ls ++ [excluding .null]) = dataOf ls := by
      rw [dataOf_append]
      exact List.append_nil _
    rw [← hfails, ← hindependent _ _ hsame, completedWith, completedWith, hnull]
  · rintro (hmapper | hfails) ls ls' -
    · obtain ⟨m, hm⟩ := Option.isSome_iff_exists.1 hmapper
      simp only [completedWith, c.complete_of_mapper hm]
    · rw [hfails, hfails]

/-- An effect of levels that are read from the data. -/
def levelsComponent : Component ℚ where
  label := "u"
  main := .function (.ofData ⟨"z", .name "z"⟩ none)
  group := .null
  replicate := .null
  weights := .null
  model := "iid"
  role := .iid
  mapper := none
  groups := none
  replicates := none
  options := []

def levelData : Likelihood ℚ := { data := .dict [("z", .list [.str "a"])] }

def otherData (data : Value ℚ) : Likelihood ℚ := { data, excludes := .str "u" }

theorem levels_completed : (completedWith levelsComponent [levelData]).isSome = true := by
  decide +kernel

theorem levels_dependent : ¬ Independent [levelsComponent.label] levelsComponent := by
  intro h
  rcases (independent_iff (List.mem_singleton.2 rfl)).1 h with hmapper | hnever
  · exact absurd hmapper (by decide)
  · exact Option.isSome_iff_ne_none.1 levels_completed (hnever [levelData])

theorem other_excludes (data : Value ℚ) : Excludes ["u"] (otherData data) "u" :=
  excludes_label (List.mem_singleton_self "u") data

theorem other_same : SameFor ["u"] "u" (otherData .null) (otherData (.dict [("x", .float 1)])) :=
  ⟨rfl, rfl, rfl, fun h => absurd (other_excludes .null) h⟩

/-- A model of the effect can be built when the likelihood that excludes it has no data, and not when
it has data of its own. -/
theorem excluded_data_needed :
    SameFor ["u"] "u" (otherData .null) (otherData (.dict [("x", .float 1)])) ∧
      (build? ⟨[levelsComponent]⟩ [levelData, otherData .null]).toOption.isSome = true ∧
      (build? ⟨[levelsComponent]⟩
        [levelData, otherData (.dict [("x", .float 1)])]).toOption.isSome = false :=
  ⟨other_same, by decide +kernel, by decide +kernel⟩

end Model

end AdditiveModel
