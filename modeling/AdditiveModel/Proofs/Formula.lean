import AdditiveModel.Proofs.Completion
import AdditiveModel.Proofs.Inputs

/-! The joint formula of a model. Its terms are those of the components that some likelihood selects, in
the order of the components; which likelihoods there are counts, not in which order or how often. -/

namespace AdditiveModel

variable {F : Type} [Scalar F]

def Likelihood.selects (l : Likelihood F) (label : String) : Bool :=
  match Inclusion.filterItems? l.includes, Inclusion.filterItems? l.excludes with
  | .ok includes, .ok excludes => Inclusion.keeps includes excludes (.str label)
  | _, _ => false

namespace Inclusion

theorem filter_of_select {α : Type} [BEq α] {quote : α → String} {labels selected : List α}
    {includes excludes : Option (List α)}
    (h : select quote labels includes excludes = .ok selected) :
    selected = labels.filter (keeps includes excludes) := by
  obtain ⟨-, -, h⟩ := bind_eq_ok.1 h
  obtain ⟨-, -, h⟩ := bind_eq_ok.1 h
  exact (Except.ok.inj h).symm

theorem filter_of_items {labels selected : List (Value F)} {includes excludes : Value F}
    (h : ofItems? labels includes excludes = .ok selected) :
    ∃ i e, filterItems? includes = .ok i ∧ filterItems? excludes = .ok e ∧
      selected = labels.filter (keeps i e) := by
  obtain ⟨i, hi, h⟩ := bind_eq_ok.1 h
  obtain ⟨e, he, h⟩ := bind_eq_ok.1 h
  -- neither the checks of the keys nor the one of the first filter change the selection
  obtain ⟨-, -, h⟩ := bind_eq_ok.1 h
  obtain ⟨-, -, h⟩ := bind_eq_ok.1 h
  obtain ⟨-, -, h⟩ := bind_eq_ok.1 h
  obtain ⟨-, -, h⟩ := bind_eq_ok.1 h
  rw [lift_eq_ok] at hi he
  exact ⟨i, e, hi, he, filter_of_select h⟩

end Inclusion

namespace Model

theorem contains_filter_str (labels : List String) (p : Value F → Bool) (label : String) :
    ((labels.map Value.str).filter p).contains (.str label) = (labels.contains label && p (.str label)) := by
  induction labels with
  | nil => rfl
  | cons l labels ih =>
    rw [List.map_cons, List.filter_cons, List.contains_cons]
    by_cases hl : label = l
    · subst hl
      cases hp : p (.str label) with
      | true => simp [List.contains_cons, beq_str]
      | false => simpa [hp] using ih
    · have hne : (label == l) = false := by simpa using hl
      rw [hne, Bool.false_or]
      cases p (.str l) with
      | true => rw [if_pos rfl, List.contains_cons, beq_str, hne, Bool.false_or, ih]
      | false => exact ih

/-- The labels that one likelihood includes are those that its filters keep. -/
theorem includedBy_eq {labels names : List String} {l : Likelihood F}
    (h : includedBy? labels l = .ok names) : names = labels.filter l.selects := by
  obtain ⟨selected, hselected, h⟩ := bind_eq_ok.1 h
  obtain ⟨includes, excludes, hincludes, hexcludes, rfl⟩ := Inclusion.filter_of_items hselected
  cases h
  refine List.filter_congr fun label hlabel => ?_
  rw [contains_filter_str, List.contains_iff_mem.2 hlabel, Bool.true_and, Likelihood.selects,
    hincludes, hexcludes]

theorem labels_eq {cs completed : List (Component F)} {data : List (Value F)}
    (h : List.Forall₂ (fun c c' => c.complete? data = .ok c') cs completed) :
    completed.map (·.label) = cs.map (·.label) := by
  refine map_eq_of_forall₂ (h.imp fun c c' hc => ?_)
  obtain ⟨groups, replicates, mapper, rfl⟩ := Component.complete_with hc
  rfl

end Model

end AdditiveModel
