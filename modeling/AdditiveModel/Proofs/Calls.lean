import AdditiveModel.Predictor.Evaluator
import AdditiveModel.Proofs.Shape

/-! What a call of an evaluator reads: its arguments by parameter, the main input as an array, and the
inputs that the mapper is evaluated on. -/

namespace AdditiveModel.Evaluator

variable {F : Type} [Scalar F]

/-- The argument of parameter `i`; null where none is given. -/
def argument (bound : List (Option (Value F))) (i : Nat) : Value F := ((bound[i]?).join).getD .null

/-- What the mapper is evaluated on, with a group and a replicate of ones where none is given. -/
def inputOf (main : Grid F) (bound : List (Option (Value F))) : Mapper.Input F where
  main := Value.ofGrid main
  group := blockInput (Value.ofGrid main).rows (argument bound 1)
  replicate := blockInput (Value.ofGrid main).rows (argument bound 2)
  scale := argument bound 3

theorem reading_eq_ok {c : Component F} {scope : Scope F} {a : Arguments F} {r : Reading F} :
    reading? c scope a = .ok r ↔ ∃ bound state m, a.bind? parameters = .ok bound ∧
      mainGrid? (argument bound 0) = .ok r.main ∧
      latentState? c scope (argument bound 4) = .ok state ∧ c.mapper = some m ∧
      m.evaluate? (some (inputOf r.main bound)) state = .ok r.values ∧
      unknown? c m (Value.ofGrid r.main) = .ok r.unknown := by
  cases hmapper : c.mapper with
  | none => simp [reading?, hmapper, AdditiveModel.bind_eq_ok]
  | some m =>
    simp only [reading?, hmapper, AdditiveModel.bind_eq_ok, lift_eq_ok, pure_eq_ok, exists_eq_left',
      Option.some.injEq]
    constructor
    · rintro ⟨bound, hbound, main, hmain, state, hstate, values, hvalues, unknown, hunknown, rfl⟩
      exact ⟨bound, state, m, hbound, hmain, hstate, rfl, hvalues, hunknown⟩
    · rintro ⟨bound, state, m, hbound, hmain, hstate, rfl, hvalues, hunknown⟩
      exact ⟨bound, hbound, r.main, hmain, state, hstate, r.values, hvalues, r.unknown, hunknown, rfl⟩

/-- A value as the main input has the rows that it had before. A matrix given by its entries is a single
object for an array, and so has one row. -/
theorem rows_mainGrid {v : Value F} {g : Grid F} (hv : v.Shaped) (h : mainGrid? v = .ok g) :
    (Value.ofGrid g).rows = v.rows ∨ ∃ rows columns entries, v = .sparse rows columns entries := by
  unfold mainGrid? at h
  split at h
  · cases h
    exact Or.inl rfl
  · obtain ⟨g', hg', h⟩ := AdditiveModel.bind_eq_ok.1 h
    rw [pure_eq_ok] at h
    subst h
    rcases ofValue_shape hv hg' with hnil | ⟨shape, hshape⟩
    · rcases rows_of_shape_nil hv hg' hnil with hone | hsparse
      · exact Or.inl (hone ▸ by simp [hnil, Value.ofGrid, Value.rows])
      · exact Or.inr hsparse
    · exact Or.inl (by simp [hshape, Value.ofGrid, Value.rows])

end AdditiveModel.Evaluator
