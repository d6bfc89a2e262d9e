import AdditiveModel.Proofs.Binding
import AdditiveModel.Proofs.Deviates
import AdditiveModel.Proofs.Failure
import AdditiveModel.Proofs.Strictness

/-! The scope that is carried from state to state is made once and only ever added to. A state
sees everything that the states before it bound and that it does not bind again, so a missing entry is
refused only if no state had it before. -/

namespace AdditiveModel.Predictor

open Run

variable {F : Type} [Scalar F]

/-- Everything that the states before state `k` bind, one state after the other. -/
def boundBefore? (t : Task F) : Nat → Except Fault (Named (Value F))
  | 0 => .ok []
  | k + 1 => do
    let ws ← boundBefore? t k
    match t.states[k]? with
    | some state => return ws ++ (← bindings? t k state)
    | none => return ws

/-- The value of the predictor in state `k`, after the states before it. -/
def valueIn (t : Task F) (e : Expression) (generator : Generator) (base : Scope F) (k : Nat) :
    Run (Context F) (Value F) := do
  Run.change (·.advance (some k))
  let ws ← lift (boundBefore? t (k + 1))
  e.evaluateWith (meaning t.components generator (base.update ws))

def placedIn (t : Task F) (e : Expression) (generator : Generator) (layout : Layout F)
    (base : Scope F) (k : Nat) : Run (Context F) (Value F) := do
  liftError (layout.admit? k (← valueIn t e generator base k))

section Loop

variable {t : Task F} {e : Expression} {generator : Generator} {base : Scope F} {k : Nat}
  {state : State F} {ws : Named (Value F)}

theorem boundBefore_succ (hk : t.states[k]? = some state) (hws : boundBefore? t k = .ok ws) :
    boundBefore? t (k + 1) = (bindings? t k state).map (ws ++ ·) := by
  simp only [boundBefore?, hws, hk]
  cases bindings? t k state <;> rfl

theorem evaluateState_accumulated (hk : t.states[k]? = some state)
    (hws : boundBefore? t k = .ok ws) :
    evaluateState t e generator k (base.update ws) state = do
      let v ← valueIn t e generator base k
      let ws' ← lift (boundBefore? t (k + 1))
      return (v, base.update ws') := by
  refine Run.ext fun c => ?_
  simp only [evaluateState, valueIn, stateScope_eq, boundBefore_succ hk hws, outcome_bind,
    outcome_change, outcome_lift]
  cases bindings? t k state with
  | error f => rfl
  | ok ws' =>
    simp only [Except.map, lift, pure, Except.pure, ← Scope.update_append]

/-- The states from `k` on, in the scopes that the states before them leave. -/
theorem evaluateRest_accumulated (e : Expression) (generator : Generator) (layout : Layout F)
    (base : Scope F) {rest : List (State F)} (hrest : t.states.drop k = rest)
    (hws : boundBefore? t k = .ok ws) :
    evaluateRest t e generator layout k (base.update ws) rest =
      (List.range' k rest.length).mapM (placedIn t e generator layout base) := by
  induction rest generalizing k ws with
  | nil => rfl
  | cons state rest ih =>
    have hk : t.states[k]? = some state := by
      rw [← List.head?_drop, hrest, List.head?_cons]
    have hnext : t.states.drop (k + 1) = rest := by
      rw [← List.tail_drop, hrest, List.tail_cons]
    rw [evaluateRest, evaluateState_accumulated hk hws, List.length_cons, List.range'_succ,
      List.mapM_cons, placedIn]
    cases hbound : boundBefore? t (k + 1) with
    | error f =>
      refine Run.ext fun c => ?_
      simp only [valueIn, hbound, lift, outcome_bind, outcome_change, outcome_throw]
    | ok ws' =>
      simp only [lift, bind_assoc, pure_bind, ih hnext hbound]

end Loop

theorem exists_boundBefore {t : Task F}
    (h : ∀ k s, t.states[k]? = some s → ∃ ws, bindings? t k s = .ok ws) (k : Nat) :
    ∃ ws, boundBefore? t k = .ok ws := by
  induction k with
  | zero => exact ⟨[], rfl⟩
  | succ k ih =>
    obtain ⟨ws, hws⟩ := ih
    cases hk : t.states[k]? with
    | none => exact ⟨ws, by simp [boundBefore?, hws, hk, bind, Except.bind, pure, Except.pure]⟩
    | some s =>
      obtain ⟨own, hown⟩ := h k s hk
      exact ⟨ws ++ own, by rw [boundBefore_succ hk hws, hown]; rfl⟩

theorem exists_baseScope (cs : Components F) (first : State F) {v : Value F} {data : Scope F}
    (hdata : Data.scope? v = .ok data) : ∃ base, baseScope? cs v first = .ok base := by
  simp only [baseScope?, hdata]
  exact ⟨_, rfl⟩

theorem evaluate_accumulated {t : Task F} {first : State F} {rest : List (State F)} {format : Format}
    {e : Expression} {base : Scope F} (hformat : Format.ofValue? t.format = .ok format)
    (hstates : t.states = first :: rest) (he : Expression.ofValue t.predictor = .ok e)
    (hbase : baseScope? t.components t.data first = .ok base) (given : Option Generator)
    (seed : Value F) :
    evaluate t given seed = (do
      let generator ← generatorFor given seed
      Context.fresh (do
        let v ← valueIn t e generator base 0
        let layout := Layout.ofFirst format v
        let placed ← liftError (layout.admit? 0 v)
        let others ← (List.range' 1 rest.length).mapM (placedIn t e generator layout base)
        return layout.collect (placed :: others))) := by
  have hfirst : t.states[0]? = some first := by rw [hstates, List.getElem?_cons_zero]
  have hrest : t.states.drop 1 = rest := by rw [hstates, List.drop_one, List.tail_cons]
  simp only [evaluate, hformat, hstates, he, hbase, liftError, pure_bind]
  refine congrArg _ (funext fun generator => congrArg _ ?_)
  have hzero : evaluateState t e generator 0 base first = do
      let v ← valueIn t e generator base 0
      let ws ← lift (boundBefore? t 1)
      return (v, base.update ws) :=
    evaluateState_accumulated hfirst rfl
  rw [hzero, bind_assoc]
  cases hbound : boundBefore? t 1 with
  | error f =>
    refine Run.ext fun c => ?_
    simp only [valueIn, hbound, lift, outcome_bind, outcome_change, outcome_throw]
  | ok ws =>
    simp only [lift, pure_bind, evaluateRest_accumulated e generator _ base hrest hbound]

theorem names_bindings {t : Task F} {k : Nat} {state : State F} {ws : Named (Value F)}
    (h : bindings? t k state = .ok ws) (heffects : t.effects = none) :
    Named.names ws = (Named.names state).map (boundName t.components) := by
  simp only [bindings?, heffects, effectsAt?, bind_eq_ok, pure_eq_ok, Except.ok.injEq,
    exists_eq_left', List.append_nil, exists_eq_right] at h
  exact names_entries h

/-- Neither the data nor an evaluator nor the first state binds the name. -/
structure Task.Lacks (t : Task F) (first : State F) (data : Scope F) (x : String) : Prop where
  data : data.get? x = none
  evaluator : ∀ name ∈ Named.names first, t.components.contains name = true →
    Evaluator.nameFor name ≠ Scope.resolve x
  generic : Scope.resolve x ≠ "component_eval"
  state : ∀ ws, bindings? t 0 first = .ok ws → Scope.resolve x ∉ Named.names ws

omit [Scalar F] in
theorem get?_update_of_not_mem {scope : Scope F} {ws : Named (Value F)} {x : String}
    (h : Scope.resolve x ∉ Named.names ws) : (scope.update ws).get? x = scope.get? x := by
  have hnone : Named.value? ws.reverse (Scope.resolve x) = none := by
    rwa [← Option.not_isSome_iff_eq_none, Scope.isSome_reverse]
  rw [Scope.get?, Scope.value_update, hnone, Option.none_or, Scope.get?]

theorem Task.Lacks.base {t : Task F} {first : State F} {data base : Scope F} {x : String}
    (h : t.Lacks first data x) (hdata : Data.scope? t.data = .ok data)
    (hbase : baseScope? t.components t.data first = .ok base) : base.get? x = none := by
  simp only [baseScope?, hdata, lift, bind_eq_ok, pure_eq_ok, exists_eq_left'] at hbase
  subst hbase
  have hx : Scope.resolve x ∉ Named.names (evaluators t.components first) := by
    intro hmem
    obtain ⟨_, he, hname⟩ := List.mem_map.1 hmem
    obtain ⟨name, hname', hcs, rfl⟩ := mem_evaluators.1 he
    exact h.evaluator name hname' hcs hname
  change (((data.update (evaluators t.components first)).bind _ _).get? x) = none
  rw [Scope.get?, Scope.bind, Named.value_write, if_neg h.generic.symm]
  exact (get?_update_of_not_mem hx).trans h.data

/-- A predictor is refused that asks for a name which neither the data nor the first state binds. A
name that a later state does not bind has the value there that it had in the state before. -/
theorem evaluate_refuses {t : Task F} {first : State F} {rest : List (State F)} {format : Format}
    {e : Expression} {data : Scope F} {own : Named (Value F)} {given : Option Generator}
    {generator : Generator} {seed : Value F} {source source' : Source F}
    (hformat : Format.ofValue? t.format = .ok format) (hstates : t.states = first :: rest)
    (he : Expression.ofValue t.predictor = .ok e) (hdata : Data.scope? t.data = .ok data)
    (hown : bindings? t 0 first = .ok own)
    (hgenerator : outcome (generatorFor given seed) source = (.ok generator, source')) :
    (∀ x ∈ e.tree.names, t.Lacks first data x →
      ∃ err s, outcome (evaluate t given seed) source = (.error err, s) ∧
        err.category = .evaluation) ∧
    ∀ (base : Scope F) (k : Nat) (state : State F) (ws later : Named (Value F)) (x : String),
      boundBefore? t (k + 1) = .ok ws → t.states[k + 1]? = some state →
      bindings? t (k + 1) state = .ok later → Scope.resolve x ∉ Named.names later →
      ∃ ws', boundBefore? t (k + 2) = .ok ws' ∧ (base.update ws').get? x = (base.update ws).get? x := by
  refine ⟨fun x hx hlacks => ?_, fun base k state ws later x hws hstate hlater hx => ?_⟩
  · have hfirst : t.states[0]? = some first := by rw [hstates, List.getElem?_cons_zero]
    obtain ⟨base, hbase⟩ := exists_baseScope t.components first hdata
    have hbound : boundBefore? t (0 + 1) = .ok own := by
      rw [boundBefore_succ hfirst rfl, hown]
      rfl
    have hnone : (base.update own).get? x = none := by
      rw [get?_update_of_not_mem (hlacks.state own hown), hlacks.base hdata hbase]
    have hfails : Run.Fails (e.evaluateWith (meaning t.components generator (base.update own))) := by
      refine Run.strict.evaluateWith (x := x) (fun s v r h => ?_) hx
      have hlookup : (base.update own).lookup x = .error (.unbound (Scope.resolve x)) := by
        rw [Scope.lookup, hnone]
      simp [meaning, Callable.inScope, hlookup] at h
    rw [evaluate_accumulated hformat hstates he hbase, outcome_bind, hgenerator]
    simp only [Context.outcome_fresh, valueIn, hbound, lift, outcome_bind, outcome_change, outcome_pure]
    rcases houtcome : outcome (e.evaluateWith (meaning t.components generator (base.update own)))
      ((Context.start source').advance (some ((0 : Nat) : Int))) with ⟨err | v, c⟩
    · exact ⟨err, c.source, rfl, category_of_evaluateWith houtcome⟩
    · exact absurd houtcome (hfails _ v c)
  · refine ⟨ws ++ later, by rw [boundBefore_succ hstate hws, hlater]; rfl, ?_⟩
    rw [Scope.update_append, get?_update_of_not_mem hx]

open Evaluator

/-- The latent vector of an effect, in states of which some have none. -/
def latentTask (states : List (State ℚ)) : Task ℚ where
  components := ⟨[site]⟩
  data := .dict []
  states
  effects := none
  predictor := .expression ⟨"site_latent", .name "site_latent"⟩
  format := .str "list"

def withoutLatent : List (State ℚ) :=
  [[("Precision_for_site", .float 4)], [("Precision_for_site", .float 1)]]

/-- The first state has a latent vector, the second has none. -/
def onceLatent : List (State ℚ) := [[("site", .ofReals [5])], []]

theorem withoutLatent_lacks : (latentTask withoutLatent).Lacks [("Precision_for_site", .float 4)]
    ((Scope.ofSymbols Scope.functions).bind Scope.dataName (.dict [])) "site_latent" where
  data := rfl
  evaluator := by decide
  generic := by decide
  state := by
    intro ws hws
    rw [names_bindings hws rfl]
    decide

theorem withoutLatent_refused :
    (∃ err s, outcome (evaluate (latentTask withoutLatent) (some .given) (.int 0)) (.ofCycle []) =
      (.error err, s) ∧ err.category = .evaluation) ∧
    ∃ ws, boundBefore? (latentTask onceLatent) 2 = .ok ws ∧
      ((Scope.ofSymbols []).update ws).get? "site_latent" = some (.ofReals [5]) := by
  refine ⟨(evaluate_refuses rfl rfl rfl rfl rfl rfl).1 _ (List.mem_singleton.2 rfl) withoutLatent_lacks, ?_⟩
  have hgenerator : outcome (generatorFor (some .given) (.int 0)) (Source.ofCycle [] : Source ℚ) =
      (.ok .given, .ofCycle []) := rfl
  have hcarried := (evaluate_refuses (t := latentTask onceLatent) rfl rfl rfl rfl rfl hgenerator).2
  obtain ⟨ws, hws, hvalue⟩ := hcarried (Scope.ofSymbols []) 0 [] [("site_latent", .ofReals [5])] []
    "site_latent" rfl rfl rfl (by decide)
  exact ⟨ws, hws, hvalue.trans rfl⟩

theorem latent_stale :
    "site" ∉ Named.names (onceLatent.getD 1 []) ∧
      (outcome (evaluate (latentTask onceLatent) (some .given) (.int 0)) (.ofCycle [])).1 =
        .ok (.list [.ofReals [5], .ofReals [5]]) :=
  ⟨by decide, by with_unfolding_all rfl⟩

end AdditiveModel.Predictor
