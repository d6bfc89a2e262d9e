import AdditiveModel.Model.Evaluate
import AdditiveModel.Proofs.Agreement

/-! Evaluators among the other names of a scope. All names share one table, so an evaluator and its
latent vector are found as long as nothing else is written to their two names afterwards. -/

namespace AdditiveModel

variable {F : Type} [Scalar F]

namespace Evaluator

/-- No latent vector is given. -/
def LeavesState (a : Arguments F) : Prop :=
  ∀ values, a.bind? parameters = .ok values → ((values[4]?).join).getD .null = .null

/-- What a call evaluates with the given latent vector. No scope is read. -/
def readingAt? (c : Component F) (state : Value F) (a : Arguments F) : Except Error (Reading F) := do
  let values ← lift (a.bind? parameters)
  let argument (i : Nat) : Value F := ((values[i]?).join).getD .null
  let main ← lift (mainGrid? (argument 0))
  let mainValue := Value.ofGrid main
  let size := mainValue.rows
  let m ← match c.mapper with
    | some m => pure m
    | none => throw (Error.fault .attribute)
  let input : Mapper.Input F :=
    { main := mainValue, group := blockInput size (argument 1),
      replicate := blockInput size (argument 2), scale := argument 3 }
  let values ← m.evaluate? (some input) state
  return ⟨main, values, ← unknown? c m mainValue⟩

theorem reading_eq {c : Component F} {scope : Scope F} {a : Arguments F} {state : Value F}
    (hstate : latentState? c scope .null = .ok state) (ha : LeavesState a) :
    reading? c scope a = readingAt? c state a := by
  unfold reading? readingAt?
  cases hvalues : a.bind? parameters with
  | error f => rfl
  | ok values =>
    simp only [lift, pure_bind, ha values hvalues, hstate]
    rfl

end Evaluator

namespace Predictor

open Evaluator

theorem nameFor_ne_latentName (a b : String) : nameFor a ≠ latentName b := by
  intro h
  have := congrArg (fun s => s.toList.getLast?) h
  simp [nameFor, latentName] at this

/-- Up to state `k` nothing but the component is written to the names of its evaluator and of its latent
vector. -/
structure Task.Hygienic (t : Task F) (k : Nat) (state : State F) (label : String) : Prop where
  generic : label ≠ "component"
  entries : ∀ j ≤ k, ∀ s, t.states[j]? = some s → nameFor label ∈ Named.names s →
    t.components.contains (nameFor label) = true
  effects : ∀ j ≤ k, ∀ ws, effectsAt? t.effects j = .ok ws → nameFor label ∉ Named.names ws
  latest : ∀ before v after, state = before ++ (label, v) :: after →
    ∀ name ∈ Named.names after, boundName t.components name ≠ latentName label
  latentEffect : ∀ ws, effectsAt? t.effects k = .ok ws → latentName label ∉ Named.names ws

namespace Task.Hygienic

variable {t : Task F} {k : Nat} {state : State F} {label : String} (h : t.Hygienic k state label)

include h

theorem evaluator {j : Nat} (hj : j ≤ k) {s : State F} {ws : Named (Value F)}
    (hs : t.states[j]? = some s) (hws : bindings? t j s = .ok ws) : nameFor label ∉ Named.names ws := by
  simp only [bindings?, bind_eq_ok, pure_eq_ok] at hws
  obtain ⟨entries, hentries, effects, heffects, rfl⟩ := hws
  rw [Named.names, List.map_append, List.mem_append]
  rintro (hmem | hmem)
  · change nameFor label ∈ Named.names entries at hmem
    rw [names_entries hentries] at hmem
    obtain ⟨name, hname, hbound⟩ := List.mem_map.1 hmem
    unfold boundName at hbound
    split at hbound
    · exact nameFor_ne_latentName _ _ hbound.symm
    · rename_i hcontains
      subst hbound
      exact hcontains (h.entries j hj s hs hname)
  · exact h.effects j hj effects heffects hmem

end Task.Hygienic

/-- In the scope of state `k` the name of a component's evaluator stands for that evaluator, and a call
of it evaluates the component's mapper at the component's entry in that state, read as an array. -/
theorem evaluator_hygienic {t : Task F} {k : Nat} {first state : State F} {scope : Scope F}
    {c : Component F} {v : Value F} (hc : t.components.get? c.label = .ok c)
    (hfirst : t.states.head? = some first) (hmem : c.label ∈ Named.names first)
    (hk : t.states[k]? = some state) (hv : Named.value? state c.label = some v)
    (hclean : t.Hygienic k state c.label) (hscope : scopeIn? t k = .ok scope)
    (generator : Generator) :
    scope.get? (nameFor c.label) = some (.function (.evaluator c.label)) ∧
    ∃ g, Grid.ofValue v = .ok g ∧
      (v.IsVector → ∀ n, Mapper.latent? n (Value.ofGrid g) = Mapper.latent? n v) ∧
      ∀ a, LeavesState a →
        (meaning t.components generator scope).call (.function (.evaluator c.label)) a = do
          let r ← liftError (readingAt? c (Value.ofGrid g) a)
          if r.unknown.any id then
            return column (← substitute c scope generator r.main r.unknown r.values)
          else return column r.values := by
  have hcontains := Components.contains_of_get hc
  refine ⟨get?_evaluator hclean.generic (fun s hs => ?_)
    (fun j hj s ws hs hws => hclean.evaluator hj hs hws) hscope hcontains, ?_⟩
  · obtain rfl := Option.some_inj.1 (hs.symm.trans hfirst)
    exact hmem
  obtain ⟨own, hown, hget⟩ := exists_bindings hscope hk
  obtain ⟨g, hg, hvalue⟩ :=
    value_bindings hcontains hclean.latest hclean.latentEffect hv hown
  have hlatent := hget _ _ (resolve_latentName c.label) hvalue
  refine ⟨g, hg, fun hvector n => Mapper.latent_ofGrid hvector hg, fun a ha => ?_⟩
  change (liftError (t.components.get? c.label) >>= fun c => Evaluator.call c scope generator a) = _
  rw [hc, liftError, pure_bind, Evaluator.call, reading_eq (latentState_null hlatent) ha]

def slopeAt (label : String) : Component ℚ :=
  { Effects.plainComponent label (.component (.linear 1) 1 1) with main := .ofReals [1] }

def slopesTask (labels : List String) (states : List (State ℚ)) (effects : Option (List (Effects ℚ))) :
    Task ℚ where
  components := ⟨labels.map slopeAt⟩
  data := .dict [("x_eval", .ofReals [4])]
  states
  effects := effects.map (·.map Model.effectsValue)
  predictor := .null
  format := .null

def nested : Task ℚ :=
  slopesTask ["x", "x_latent"]
    [[("x", .ofReals [2]), ("x_latent", .ofReals [5])], [("x", .ofReals [3]), ("x_latent", .ofReals [7])]]
    none

theorem nested_hygienic :
    nested.Hygienic 1 [("x", .ofReals [3]), ("x_latent", .ofReals [7])] "x" where
  generic := by decide
  entries := by
    intro j _ s hs hmem
    have hstate : s ∈ nested.states := List.mem_of_getElem? hs
    simp only [nested, slopesTask, List.mem_cons, List.not_mem_nil, or_false] at hstate
    rcases hstate with rfl | rfl
    · exact absurd hmem (by decide)
    · exact absurd hmem (by decide)
  effects := by
    rintro j _ _ ⟨⟩
    decide
  latest := latest_of_nodup (by decide) (by decide)
  latentEffect := by
    rintro _ ⟨⟩
    decide

/-- The evaluator of `x` at the point `2`, in the second state. -/
theorem nested_evaluator : ∃ scope, scopeIn? nested 1 = .ok scope ∧
    scope.get? "x_eval" = some (.function (.evaluator "x")) ∧ ∀ context,
      numbers? (((meaning nested.components .given scope).call (.function (.evaluator "x"))
        ⟨[.ofReals [2]], []⟩).outcome context).1 = some [6] := by
  obtain ⟨scope, hscope⟩ := exists_of_isSome (x := scopeIn? nested 1) rfl
  obtain ⟨hlookup, g, hg, -, hcall⟩ := evaluator_hygienic (k := 1) (v := .ofReals [3])
    (c := slopeAt "x") rfl rfl (by decide) rfl rfl nested_hygienic hscope .given
  refine ⟨scope, hscope, hlookup, fun context => ?_⟩
  have hread : (readingAt? (slopeAt "x") (.ofReals [3]) ⟨[.ofReals [2]], []⟩).toOption.map
      (fun r => (r.values, r.unknown)) = some ([6], []) := by decide +kernel
  obtain ⟨r, hr⟩ := exists_of_isSome
    (x := readingAt? (slopeAt "x") (.ofReals [3]) ⟨[.ofReals [2]], []⟩)
    (by rw [← Option.isSome_map, hread, Option.isSome_some])
  rw [hr] at hread
  obtain ⟨hvalues, hunknown⟩ := Prod.mk.inj (Option.some_inj.1 hread)
  have hgiven : readingAt? (slopeAt "x") (Value.ofGrid g) ⟨[.ofReals [2]], []⟩ = .ok r := by
    obtain rfl : (⟨.double, [1], [.float 3]⟩ : Grid ℚ) = g := Except.ok.inj hg
    exact hr
  have hmain : LeavesState (⟨[.ofReals [2]], []⟩ : Arguments ℚ) := by
    rintro _ ⟨⟩
    rfl
  refine (congrArg (fun call => numbers? (Run.outcome call context).1) (hcall _ hmain)).trans ?_
  rw [hgiven]
  simp [liftError, hunknown, hvalues, numbers_column]

def onePoint : Mapper.Input ℚ := ⟨.ofReals [1], .null, .null, .null⟩

/-- The entry of a component in state `k` is `slope`, which is also its value at the point `1`. With the
effects of all components, its evaluator does not give that value in the scope of state `k`. -/
def Captured (labels : List String) (states : List (State ℚ)) (k : Nat) (label : String) (slope : ℚ) :
    Prop :=
  ∃ inputs effects first state r,
    (slopesTask labels states none).components.inputs? (.dict [("x_eval", .ofReals [4])]) = .ok inputs ∧
    ((Effects.ofComponentsAndStates ⟨labels.map slopeAt⟩ inputs states).outcome []).1 = .ok effects ∧
    (⟨labels.map slopeAt⟩ : Components ℚ).get? label = .ok (slopeAt label) ∧
    states.head? = some first ∧ label ∈ Named.names first ∧
    states[k]? = some state ∧ Named.value? state label = some (.ofReals [slope]) ∧
    readingAt? (slopeAt label) (.ofReals [slope]) (ownArguments onePoint) = .ok r ∧
    (scopeIn? (slopesTask labels states (some effects)) k).toOption.isSome = true ∧
    ∃ context, (ownCall (slopesTask labels states (some effects)) .given k label onePoint).outcome
      context ≠ (.ok (column r.values), context)

theorem captured_of_numbers {labels : List String} {states : List (State ℚ)} {k : Nat} {label : String}
    {slope : ℚ} {inputs : Named (Mapper.Input ℚ)} {e : List (Effects ℚ)} {first state : State ℚ}
    (hinputs : (slopesTask labels states none).components.inputs? (.dict [("x_eval", .ofReals [4])]) =
      .ok inputs)
    (heffects : ((Effects.ofComponentsAndStates ⟨labels.map slopeAt⟩ inputs states).outcome []).1 =
      .ok e)
    (hget : (⟨labels.map slopeAt⟩ : Components ℚ).get? label = .ok (slopeAt label))
    (hfirst : states.head? = some first) (hmem : label ∈ Named.names first)
    (hstate : states[k]? = some state) (hvalue : Named.value? state label = some (.ofReals [slope]))
    (hread : (readingAt? (slopeAt label) (.ofReals [slope]) (ownArguments onePoint)).toOption.map
      (·.values) = some [slope])
    (hscope : (scopeIn? (slopesTask labels states (some e)) k).toOption.isSome = true)
    (hne : numbers? ((ownCall (slopesTask labels states (some e)) .given k label onePoint).outcome
      (Context.start (.ofCycle []))).1 ≠ some [slope]) :
    Captured labels states k label slope := by
  obtain ⟨r, hr⟩ := exists_of_isSome
    (x := readingAt? (slopeAt label) (.ofReals [slope]) (ownArguments onePoint))
    (by rw [← Option.isSome_map, hread, Option.isSome_some])
  rw [hr] at hread
  refine ⟨inputs, e, first, state, r, hinputs, heffects, hget, hfirst, hmem, hstate, hvalue, hr,
    hscope, .start (.ofCycle []), fun h => hne ?_⟩
  rw [h, numbers_column]
  exact hread

/-- The effect of another component, the generic name, an entry of the state or of a state before it,
another component and a later entry: each takes one of the two names. -/
theorem names_captured :
    Captured ["x", "x_latent"] [[("x", .ofReals [2]), ("x_latent", .ofReals [5])]] 0 "x" 2 ∧
    Captured ["component"] [[("component", .ofReals [2])]] 0 "component" 2 ∧
    Captured ["x"] [[("x", .ofReals [2]), ("x_eval", .ofReals [5])]] 0 "x" 2 ∧
    Captured ["x"] [[("x", .ofReals [2]), ("x_eval", .ofReals [5])], [("x", .ofReals [3])]] 1 "x" 3 ∧
    Captured ["x", "x_eval"] [[("x", .ofReals [2]), ("x_eval", .ofReals [5])]] 0 "x" 2 ∧
    Captured ["x"] [[("x", .ofReals [2]), ("x_latent", .ofReals [5])]] 0 "x" 2 := by
  refine ⟨captured_of_numbers (e := [[("x", [2]), ("x_latent", [5])]]) rfl ?_ rfl rfl ?_ rfl rfl ?_ rfl ?_,
    captured_of_numbers (e := [[("component", [2])]]) rfl ?_ rfl rfl ?_ rfl rfl ?_ rfl ?_,
    captured_of_numbers (e := [[("x", [2])]]) rfl ?_ rfl rfl ?_ rfl rfl ?_ rfl ?_,
    captured_of_numbers (e := [[("x", [2])], [("x", [3])]]) rfl ?_ rfl rfl ?_ rfl rfl ?_ rfl ?_,
    captured_of_numbers (e := [[("x", [2]), ("x_eval", [5])]]) rfl ?_ rfl rfl ?_ rfl rfl ?_ rfl ?_,
    captured_of_numbers (e := [[("x", [2])]]) rfl ?_ rfl rfl ?_ rfl rfl ?_ rfl ?_⟩
  all_goals decide +kernel

end Predictor

end AdditiveModel
