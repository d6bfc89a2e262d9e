import AdditiveModel.Scope.Basic
import AdditiveModel.Predictor.Context
import Mathlib.Data.List.Nodup

/-! Reading names after writing them: the last value written to a name is the one that is read. -/

namespace AdditiveModel

namespace Named

variable {α : Type}

theorem value_cons (name x : String) (v : α) (entries : Named α) :
    value? ((name, v) :: entries) x = if name = x then some v else value? entries x := by
  by_cases h : name = x <;> simp [value?, h]

@[simp] theorem value_write (entries : Named α) (name x : String) (v : α) :
    value? (write entries name v) x = if name = x then some v else value? entries x := by
  induction entries with
  | nil => exact value_cons name x v []
  | cons e entries ih =>
    obtain ⟨k, w⟩ := e
    by_cases hk : k = name
    · subst hk
      by_cases hx : k = x <;> simp [write, value_cons, hx]
    · by_cases hx : k = x
      · subst hx
        simp [write, value_cons, hk, Ne.symm hk]
      · simp [write, value_cons, hk, hx, ih]

theorem value_append (entries more : Named α) (x : String) :
    value? (entries ++ more) x = (value? entries x).or (value? more x) := by
  simp [value?, List.find?_append, Option.map_or]

theorem value_writeAll (entries more : Named α) (x : String) :
    value? (writeAll entries more) x = (value? more.reverse x).or (value? entries x) := by
  induction more generalizing entries with
  | nil => rfl
  | cons e more ih =>
    obtain ⟨name, v⟩ := e
    have hstep : writeAll entries ((name, v) :: more) = writeAll (write entries name v) more := rfl
    rw [hstep, ih, value_write, List.reverse_cons, value_append, value_cons, Option.or_assoc]
    by_cases hx : name = x <;> simp [hx, value?]

theorem mem_of_value {entries : Named α} {x : String} {v : α} (h : value? entries x = some v) :
    (x, v) ∈ entries := by
  obtain ⟨⟨k, w⟩, hfind, rfl⟩ := Option.map_eq_some_iff.1 h
  obtain rfl : k = x := by simpa using List.find?_some hfind
  exact List.mem_of_find?_eq_some hfind

theorem value_of_unique {entries : Named α} {x : String} {v : α} (hmem : (x, v) ∈ entries)
    (hone : ∀ w, (x, w) ∈ entries → w = v) : value? entries x = some v := by
  have hsome : (value? entries x).isSome := by
    rw [value?, Option.isSome_map, List.find?_isSome]
    exact ⟨_, hmem, by simp⟩
  obtain ⟨w, hw⟩ := Option.isSome_iff_exists.1 hsome
  rw [hw, hone w (mem_of_value hw)]

theorem value_of_mem {entries : Named α} (hnodup : (names entries).Nodup) {x : String} {v : α}
    (h : (x, v) ∈ entries) : value? entries x = some v :=
  value_of_unique h fun _ hw => congrArg Prod.snd (List.inj_on_of_nodup_map hnodup hw h rfl)

theorem isSome_value {entries : Named α} {x : String} :
    (value? entries x).isSome ↔ x ∈ names entries := by
  simp [value?, names, List.find?_isSome]

end Named

namespace Deviates

variable {F : Type}

theorem lookup_nil (label key : String) : lookup ([] : Deviates F) label key = none := rfl

theorem lookup_store (d : Deviates F) (label key : String) (v : F) (label' key' : String) :
    (d.store label key v).lookup label' key' =
      if label = label' ∧ key = key' then some v else d.lookup label' key' := by
  by_cases hl : label = label'
  · subst hl
    simp only [store, lookup, Named.value_write, if_true, Option.bind_some]
    by_cases hk : key = key'
    · simp [hk]
    · cases h : Named.value? d label with
      | none => simp [hk, Named.value?]
      | some entries => simp [hk]
  · simp [store, lookup, hl]

end Deviates

end AdditiveModel
