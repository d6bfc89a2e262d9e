import AdditiveModel.Proofs.Accumulation

/-! What a component's evaluator finds in the scope of a state: the evaluator itself, bound once for
the components of the first state, and the latent vector, bound again in each state. -/

namespace AdditiveModel

variable {F : Type} [Scalar F]

omit [Scalar F] in
theorem Components.contains_of_get {cs : Components F} {label : String} {c : Component F}
    (h : cs.get? label = .ok c) : cs.contains label = true := by
  unfold Components.get? at h
  split at h
  · rename_i hfind
    rw [Components.contains, hfind]
    rfl
  · simp at h

namespace Evaluator

theorem resolve_nameFor (label : String) : Scope.resolve (nameFor label) = nameFor label := by
  refine if_neg fun h => ?_
  have := congrArg (fun s => s.toList.getLast?) (eq_of_beq h)
  simp [nameFor, Scope.dataAlias] at this

theorem resolve_latentName (label : String) : Scope.resolve (latentName label) = latentName label := by
  refine if_neg fun h => ?_
  have := congrArg (fun s => s.toList.getLast?) (eq_of_beq h)
  simp [latentName, Scope.dataAlias] at this

end Evaluator

namespace Predictor

open Evaluator

/-- The scope that the predictor is evaluated in, in state `k`. -/
def scopeIn? (t : Task F) (k : Nat) : Except Error (Scope F) :=
  match t.states with
  | [] => .error .withoutStates
  | first :: _ => do
    let base ← baseScope? t.components t.data first
    return base.update (← lift (boundBefore? t (k + 1)))

theorem scopeIn_eq_ok {t : Task F} {k : Nat} {scope : Scope F} :
    scopeIn? t k = .ok scope ↔ ∃ first rest base ws, t.states = first :: rest ∧
      baseScope? t.components t.data first = .ok base ∧ boundBefore? t (k + 1) = .ok ws ∧
        base.update ws = scope := by
  unfold scopeIn?
  cases t.states with
  | nil => simp
  | cons first rest =>
    simp only [bind_eq_ok, lift_eq_ok, pure_eq_ok, List.cons.injEq]
    constructor
    · rintro ⟨base, hbase, ws, hws, rfl⟩
      exact ⟨first, rest, base, ws, ⟨rfl, rfl⟩, hbase, hws, rfl⟩
    · rintro ⟨_, _, base, ws, ⟨rfl, rfl⟩, hbase, hws, rfl⟩
      exact ⟨base, hbase, ws, hws, rfl⟩

/-- In the scope of a state the evaluator of a component and its latent vector are what the component
and its entry in the state say. -/
structure Task.Owns (t : Task F) (k : Nat) (state : State F) (label : String) : Prop where
  generic : label ≠ "component"
  first : ∀ s, t.states.head? = some s → label ∈ Named.names s
  unique : (Named.names state).Nodup
  latent : ∀ name ∈ Named.names state, boundName t.components name = latentName label → name = label
  effects : ∀ ws, effectsAt? t.effects k = .ok ws → latentName label ∉ Named.names ws
  evaluator : ∀ j ≤ k, ∀ state ws, t.states[j]? = some state → bindings? t j state = .ok ws →
    nameFor label ∉ Named.names ws

theorem mem_boundBefore {t : Task F} {k : Nat} {ws : Named (Value F)} {e : String × Value F}
    (h : boundBefore? t k = .ok ws) :
    e ∈ ws ↔ ∃ j < k, ∃ state own, t.states[j]? = some state ∧ bindings? t j state = .ok own ∧
      e ∈ own := by
  induction k generalizing ws with
  | zero =>
    cases h
    simp
  | succ k ih =>
    obtain ⟨before, hbefore, h⟩ := bind_eq_ok.1 h
    simp only [Nat.lt_succ_iff_lt_or_eq, or_and_right, exists_or, exists_eq_left, ← ih hbefore]
    cases hstate : t.states[k]? with
    | none =>
      rw [hstate, pure_eq_ok] at h
      simp [h]
    | some state =>
      simp only [hstate, bind_eq_ok, pure_eq_ok] at h
      obtain ⟨own, hown, rfl⟩ := h
      simp [hown]

section Names

variable {t : Task F} {k : Nat} {scope : Scope F} {state : State F} {label : String}

/-- The evaluator of a component is bound once, and stays where no state binds its name. -/
theorem get?_evaluator (hgeneric : label ≠ "component")
    (hfirst : ∀ s, t.states.head? = some s → label ∈ Named.names s)
    (hstates : ∀ j ≤ k, ∀ state ws, t.states[j]? = some state → bindings? t j state = .ok ws →
      nameFor label ∉ Named.names ws)
    (hscope : scopeIn? t k = .ok scope) (hcontains : t.components.contains label = true) :
    scope.get? (nameFor label) = some (.function (.evaluator label)) := by
  obtain ⟨first, rest, base, ws, hall, hbase, hws, rfl⟩ := scopeIn_eq_ok.1 hscope
  have hmem : label ∈ Named.names first := hfirst first (by rw [hall, List.head?_cons])
  have hnone : Scope.resolve (nameFor label) ∉ Named.names ws := by
    rw [resolve_nameFor]
    intro hmem
    obtain ⟨e, he, hname⟩ := List.mem_map.1 hmem
    obtain ⟨j, hj, s, own, hs, hown, he⟩ := (mem_boundBefore hws).1 he
    exact hstates j (Nat.le_of_lt_succ hj) s own hs hown (hname ▸ List.mem_map_of_mem he)
  have hother : "component_eval" ≠ nameFor label :=
    fun heq => hgeneric (nameFor_inj (a := "component") heq).symm
  have hmine : Named.value? (evaluators t.components first).reverse (nameFor label) =
      some (.function (.evaluator label)) := by
    refine Named.value_of_unique ?_ fun w hw => ?_
    · exact List.mem_reverse.2 (mem_evaluators.2 ⟨label, hmem, hcontains, rfl⟩)
    · obtain ⟨name, -, -, heq⟩ := mem_evaluators.1 (List.mem_reverse.1 hw)
      obtain ⟨hname, rfl⟩ := Prod.mk.inj heq
      rw [nameFor_inj hname]
  rw [get?_update_of_not_mem hnone]
  simp only [baseScope?, bind_eq_ok, lift_eq_ok, pure_eq_ok] at hbase
  obtain ⟨data, -, rfl⟩ := hbase
  change ((data.update (evaluators t.components first)).bind _ _).get? _ = _
  rw [Scope.get?, resolve_nameFor, Scope.bind, Named.value_write, if_neg hother,
    Scope.value_update, hmine, Option.some_or]

theorem exists_bindings (hscope : scopeIn? t k = .ok scope) (hk : t.states[k]? = some state) :
    ∃ own, bindings? t k state = .ok own ∧ ∀ x v, Scope.resolve x = x →
      Named.value? own.reverse x = some v → scope.get? x = some v := by
  obtain ⟨first, rest, base, ws, -, -, hws, rfl⟩ := scopeIn_eq_ok.1 hscope
  obtain ⟨before, hbefore, hws⟩ := bind_eq_ok.1 hws
  simp only [hk, bind_eq_ok, pure_eq_ok] at hws
  obtain ⟨own, hown, rfl⟩ := hws
  refine ⟨own, hown, fun x v hx hv => ?_⟩
  rw [Scope.get?, hx, Scope.update_append, Scope.value_update, hv, Option.some_or]

/-- A component's entry is what its latent vector is bound to, where neither a later entry nor an effect
is bound to that name. -/
theorem value_bindings (hcontains : t.components.contains label = true)
    (hlatest : ∀ before v after, state = before ++ (label, v) :: after →
      ∀ name ∈ Named.names after, boundName t.components name ≠ latentName label)
    (heffects : ∀ ws, effectsAt? t.effects k = .ok ws → latentName label ∉ Named.names ws)
    {v : Value F} (hv : Named.value? state label = some v) {own : Named (Value F)}
    (hown : bindings? t k state = .ok own) :
    ∃ g, Grid.ofValue v = .ok g ∧
      Named.value? own.reverse (latentName label) = some (Value.ofGrid g) := by
  simp only [bindings?, bind_eq_ok, pure_eq_ok] at hown
  obtain ⟨entries, hentries, effects, hws, rfl⟩ := hown
  obtain ⟨before, after, hstate⟩ := List.mem_iff_append.1 (Named.mem_of_value hv)
  rw [hstate, entries?, List.mapM_append, List.mapM_cons] at hentries
  simp only [bind_eq_ok, pure_eq_ok] at hentries
  obtain ⟨first, -, _, ⟨_, ⟨g, hg, rfl⟩, rest, hrest, rfl⟩, rfl⟩ := hentries
  have hname : boundName t.components label = latentName label := by
    rw [boundName, if_pos hcontains]
  have hnone : Named.value? rest.reverse (latentName label) = none := by
    rw [← Option.not_isSome_iff_eq_none, Scope.isSome_reverse, names_entries hrest, List.mem_map]
    rintro ⟨name, hmem, hbound⟩
    exact hlatest before v after hstate name hmem hbound
  have heffect : Named.value? effects.reverse (latentName label) = none := by
    rw [← Option.not_isSome_iff_eq_none, Scope.isSome_reverse]
    exact heffects effects hws
  refine ⟨g, hg, ?_⟩
  rw [List.reverse_append, Named.value_append, heffect, Option.none_or, List.reverse_append,
    List.reverse_cons, Named.value_append, Named.value_append, hnone, Option.none_or, hname,
    Named.value_cons, if_pos rfl, Option.some_or]

omit [Scalar F] in
/-- Where each name has one entry, no entry but the component's own needs to be kept apart. -/
theorem latest_of_nodup {cs : Components F} (hunique : (Named.names state).Nodup)
    (hlatent : ∀ name ∈ Named.names state, boundName cs name = latentName label → name = label) :
    ∀ before v after, state = before ++ (label, v) :: after →
      ∀ name ∈ Named.names after, boundName cs name ≠ latentName label := by
  rintro before v after rfl name hname hbound
  rw [Named.names, List.map_append, List.map_cons, List.nodup_append, List.nodup_cons] at hunique
  obtain rfl := hlatent name (by simp [Named.names] at hname ⊢; tauto) hbound
  exact hunique.2.1.1 hname

namespace Task.Owns

theorem get?_evaluator (h : t.Owns k state label) (hscope : scopeIn? t k = .ok scope)
    (hcontains : t.components.contains label = true) :
    scope.get? (nameFor label) = some (.function (.evaluator label)) :=
  Predictor.get?_evaluator h.generic h.first h.evaluator hscope hcontains

theorem get?_latent (h : t.Owns k state label) (hscope : scopeIn? t k = .ok scope)
    (hcontains : t.components.contains label = true) (hk : t.states[k]? = some state) {v : Value F}
    (hv : Named.value? state label = some v) :
    ∃ g, Grid.ofValue v = .ok g ∧ scope.get? (latentName label) = some (Value.ofGrid g) := by
  obtain ⟨own, hown, hget⟩ := exists_bindings hscope hk
  obtain ⟨g, hg, hvalue⟩ :=
    value_bindings hcontains (latest_of_nodup h.unique h.latent) h.effects hv hown
  exact ⟨g, hg, hget _ _ (resolve_latentName label) hvalue⟩

end Task.Owns

end Names

end Predictor

end AdditiveModel
