import AdditiveModel.Predictor.Evaluate
import AdditiveModel.Proofs.Named
import AdditiveModel.Proofs.Outcome

/-! The names that a state binds. What a scope held before matters only for names that are not
bound again, so states with the same names hide all of each other's values. -/

namespace AdditiveModel

variable {F : Type}

namespace Scope

theorem symbols_update (s : Scope F) (ws : Named (Value F)) :
    (s.update ws).symbols = Named.writeAll s.symbols ws := by
  unfold update Named.writeAll
  induction ws generalizing s with
  | nil => rfl
  | cons w ws ih => exact ih _

theorem value_update (s : Scope F) (ws : Named (Value F)) (x : String) :
    Named.value? (s.update ws).symbols x =
      (Named.value? ws.reverse x).or (Named.value? s.symbols x) := by
  rw [symbols_update, Named.value_writeAll]

theorem update_append (s : Scope F) (vs ws : Named (Value F)) :
    s.update (vs ++ ws) = (s.update vs).update ws := by
  rw [update, List.foldl_append]
  rfl

theorem isSome_reverse {ws : Named (Value F)} {x : String} :
    (Named.value? ws.reverse x).isSome ↔ x ∈ Named.names ws := by
  rw [Named.isSome_value]
  simp [Named.names]

end Scope

namespace Named

variable {α : Type}

end Named

namespace Predictor

variable [Scalar F]

def evaluators (cs : Components F) (state : State F) : Named (Value F) :=
  (state.filter fun (name, _) => cs.contains name).map fun (name, _) =>
    (Evaluator.nameFor name, Value.function (.evaluator name))

omit [Scalar F] in
theorem mem_evaluators {cs : Components F} {state : State F} {e : String × Value F} :
    e ∈ evaluators cs state ↔ ∃ name ∈ Named.names state, cs.contains name = true ∧
      e = (Evaluator.nameFor name, .function (.evaluator name)) := by
  simp only [evaluators, Named.names, List.mem_map, List.mem_filter]
  constructor
  · rintro ⟨p, ⟨hp, hcs⟩, rfl⟩
    exact ⟨p.1, ⟨p, hp, rfl⟩, hcs, rfl⟩
  · rintro ⟨_, ⟨p, hp, rfl⟩, hcs, rfl⟩
    exact ⟨p, ⟨hp, hcs⟩, rfl⟩

theorem nameFor_inj {a b : String} (h : Evaluator.nameFor a = Evaluator.nameFor b) : a = b :=
  (String.append_left_inj "_eval").1 h

def entries? (cs : Components F) (state : State F) : Except Fault (Named (Value F)) :=
  state.mapM fun (name, v) => do return (boundName cs name, Value.ofGrid (← Grid.ofValue v))

def effectsAt? (effects : Option (List (Named (Value F)))) (k : Nat) : Except Fault (Named (Value F)) :=
  match effects with
  | none => .ok []
  | some effects =>
    match effects[k]? with
    | some e => .ok e
    | none => .error .index

/-- Everything that state `k` binds, in order. -/
def bindings? (t : Task F) (k : Nat) (state : State F) : Except Fault (Named (Value F)) := do
  let entries ← entries? t.components state
  return entries ++ (← effectsAt? t.effects k)

theorem entries_cons (cs : Components F) (name : String) (v : Value F) (state : State F) :
    entries? cs ((name, v) :: state) = do
      let g ← Grid.ofValue v
      let ws ← entries? cs state
      return (boundName cs name, Value.ofGrid g) :: ws := by
  rw [entries?, List.mapM_cons, bind_assoc]
  rfl

theorem bindState_eq (cs : Components F) (scope : Scope F) (state : State F) :
    bindState? cs scope state = (entries? cs state).map scope.update := by
  unfold bindState?
  induction state generalizing scope with
  | nil => rfl
  | cons entry state ih =>
    obtain ⟨name, v⟩ := entry
    rw [List.foldlM_cons, entries_cons]
    cases hv : Grid.ofValue v with
    | error f => simp [hv, bind, Except.bind, Except.map]
    | ok g =>
      simp only [hv, bind, Except.bind, pure, Except.pure] at ih ⊢
      rw [ih]
      cases entries? cs state with
      | error f => rfl
      | ok ws => rfl

omit [Scalar F] in
theorem bindEffects_eq (effects : Option (List (Named (Value F)))) (k : Nat) (scope : Scope F) :
    bindEffects? effects k scope = (effectsAt? effects k).map scope.update := by
  unfold bindEffects? effectsAt?
  cases effects with
  | none => rfl
  | some effects =>
    cases h : effects[k]? with
    | none => simp [h, Except.map]
    | some e => simp [h, Except.map]

theorem stateScope_eq (t : Task F) (k : Nat) (scope : Scope F) (state : State F) :
    stateScope? t k scope state = (bindings? t k state).map scope.update := by
  simp only [stateScope?, bindState_eq, bindEffects_eq, bindings?]
  cases entries? t.components state with
  | error f => rfl
  | ok entries =>
    cases effectsAt? t.effects k with
    | error f => rfl
    | ok effects => exact congrArg Except.ok (Scope.update_append scope entries effects).symm

theorem names_entries {cs : Components F} {state : State F} {ws : Named (Value F)}
    (h : entries? cs state = .ok ws) : Named.names ws = (Named.names state).map (boundName cs) := by
  unfold entries? at h
  rw [mapM_eq_ok] at h
  induction h with
  | nil => rfl
  | cons hentry _ ih =>
    simp only [bind_eq_ok, pure_eq_ok] at hentry
    obtain ⟨g, -, rfl⟩ := hentry
    simpa [Named.names] using ih

/-- All states bind the same names, and so do their effects. -/
structure Uniform (t : Task F) : Prop where
  states : ∀ s ∈ t.states, ∀ s' ∈ t.states, ∀ name, name ∈ Named.names s ↔ name ∈ Named.names s'
  effects : ∀ es, t.effects = some es → ∀ e ∈ es, ∀ e' ∈ es,
    ∀ name, name ∈ Named.names e ↔ name ∈ Named.names e'

theorem Uniform.bindings {t : Task F} (h : Uniform t) {k k' : Nat} {state state' : State F}
    {ws ws' : Named (Value F)} (hk : t.states[k]? = some state) (hk' : t.states[k']? = some state')
    (hws : bindings? t k state = .ok ws) (hws' : bindings? t k' state' = .ok ws') (x : String) :
    x ∈ Named.names ws ↔ x ∈ Named.names ws' := by
  simp only [bindings?, bind_eq_ok, pure_eq_ok] at hws hws'
  obtain ⟨entries, hentries, effects, heffects, rfl⟩ := hws
  obtain ⟨entries', hentries', effects', heffects', rfl⟩ := hws'
  have hnames : x ∈ Named.names entries ↔ x ∈ Named.names entries' := by
    rw [names_entries hentries, names_entries hentries']
    simp only [List.mem_map,
      h.states _ (List.mem_of_getElem? hk) _ (List.mem_of_getElem? hk')]
  have hmore : x ∈ Named.names effects ↔ x ∈ Named.names effects' := by
    unfold effectsAt? at heffects heffects'
    cases hes : t.effects with
    | none =>
      rw [hes] at heffects heffects'
      cases heffects
      cases heffects'
      rfl
    | some es =>
      simp only [hes] at heffects heffects'
      cases he : es[k]? with
      | none => simp [he] at heffects
      | some e =>
        cases he' : es[k']? with
        | none => simp [he'] at heffects'
        | some e' =>
          rw [he] at heffects
          rw [he'] at heffects'
          cases heffects
          cases heffects'
          exact h.effects es hes _ (List.mem_of_getElem? he) _ (List.mem_of_getElem? he') x
  simp only [Named.names, List.map_append, List.mem_append] at hnames hmore ⊢
  rw [hnames, hmore]

end Predictor

end AdditiveModel
