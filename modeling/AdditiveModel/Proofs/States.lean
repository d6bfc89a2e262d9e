import AdditiveModel.Proofs.Binding
import AdditiveModel.Proofs.Deviates
import AdditiveModel.Proofs.Independence

/-! Evaluation for all states is evaluation for each state on its own: the scope, the evaluators and
the deviates that are carried from state to state change no value. Only the random source goes on. -/

namespace AdditiveModel

open Run

variable {F : Type} [Scalar F]

namespace Predictor

/-- The value of the predictor in state `k`, in a scope and a context of its own. -/
def valueAt (t : Task F) (e : Expression) (generator : Generator) (k : Nat) :
    Run (Source F) (Value F) :=
  match t.states[k]? with
  | none => throw Error.withoutStates
  | some state => do
    let scope ← liftError (baseScope? t.components t.data state)
    let bindings ← lift (bindings? t k state)
    Context.fresh (e.evaluateWith (meaning t.components generator (scope.update bindings)))

section Loop

variable {t : Task F} {e : Expression} {generator : Generator} {first state : State F}
  {base scope : Scope F} {ws : Named (Value F)} {f : Fault} {k : Nat}

end Loop

/-- The task for the `n` states from `k` on, with their effects. -/
def Task.part (t : Task F) (k n : Nat) : Task F :=
  { t with
    states := (t.states.drop k).take n
    effects := t.effects.map fun es => (es.drop k).take n }

section Part

variable {t : Task F}

omit [Scalar F] in
theorem Uniform.part (h : Uniform t) (k n : Nat) : Uniform (t.part k n) where
  states s hs s' hs' :=
    h.states s (List.mem_of_mem_drop (List.mem_of_mem_take hs))
      s' (List.mem_of_mem_drop (List.mem_of_mem_take hs'))
  effects es hes e he e' he' := by
    obtain ⟨es', hes', rfl⟩ := Option.map_eq_some_iff.1 hes
    exact h.effects es' hes' e (List.mem_of_mem_drop (List.mem_of_mem_take he))
      e' (List.mem_of_mem_drop (List.mem_of_mem_take he'))

end Part

open Evaluator

end Predictor

end AdditiveModel
