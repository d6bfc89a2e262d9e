import AdditiveModel.Proofs.Effects
import AdditiveModel.Proofs.Validity
import AdditiveModel.Proofs.Vectors
import AdditiveModel.Proofs.Visible

/-! The evaluator of a component and the effect that was prepared for it. The effect comes from the
simplified mapper and the latent vector as it is given, the evaluator reads its inputs and the vector
again and uses the mapper itself. On the component's own inputs both have the same values. -/

namespace AdditiveModel

variable {F : Type} [Scalar F]

namespace Component

theorem spread_array {size : Nat} {v w : Value F} (h : spread? size v = .ok w) (hne : w ≠ .null)
    (hw : w.Shaped) : ∃ kind n shape cells, w = .array kind (n :: shape) cells := by
  unfold spread? at h
  split at h
  · exact absurd (Except.ok.inj h).symm hne
  · obtain ⟨g, -, h⟩ := bind_eq_ok.1 h
    split at h
    · exact ⟨_, _, _, _, (Except.ok.inj h).symm⟩
    · rename_i x hshape hcells
      split at h
      · exact ⟨_, _, _, _, (Except.ok.inj h).symm⟩
      · rw [pure_eq_ok, Value.ofGrid, hshape] at h
        exact ⟨_, _, _, _, h.symm⟩
    · rename_i hsingle _
      rw [pure_eq_ok] at h
      subst h
      cases hshape : g.shape with
      | nil =>
        -- a single element without axes would have been repeated
        simp only [Value.ofGrid, Value.Shaped, hshape, Shape.count_nil] at hw
        obtain ⟨x, hx⟩ := List.length_eq_one_iff.1 hw
        exact absurd hx (hsingle x hshape)
      | cons n shape => exact ⟨_, _, _, _, by rw [Value.ofGrid, hshape]⟩

theorem inputs_singleton {c : Component F} {d : Value F} {input : Mapper.Input F}
    (h : (⟨[c]⟩ : Components F).inputs? d = .ok [(c.label, input)]) : c.input? d = .ok input := by
  simp only [Components.inputs?, mapM_eq_ok, List.forall₂_cons, bind_eq_ok, pure_eq_ok,
    Prod.mk.injEq, true_and, exists_eq_right] at h
  exact h.1

theorem main_array {c : Component F} {d : Value F} {input : Mapper.Input F}
    (h : c.input? d = .ok input) (hne : input.main ≠ .null) (hshaped : input.main.Shaped) :
    ∃ kind n shape cells, input.main = .array kind (n :: shape) cells := by
  simp only [input?, bind_eq_ok, lift_eq_ok, pure_eq_ok] at h
  obtain ⟨size, -, main, ⟨v, -, hmain⟩, _, -, _, -, _, -, rfl⟩ := h
  exact spread_array hmain hne hshaped

end Component

namespace Mapper

namespace Block

theorem spread_replicate {α : Type} (size : Nat) (a : α) :
    spread size (List.replicate size a) = List.replicate size a := by
  match size with
  | 0 | 1 | _ + 2 => rfl

theorem indices_ones {index : BlockIndex} {count : Int} {size : Nat}
    (hone : Value.realToWord .int64 (Scalar.one : F) = 1) (h : 1 ≤ count) :
    indices? index count size (.ofReals (List.replicate size (Scalar.one : F))) =
      .ok (List.replicate size 1) := by
  have hcast : Value.castAll? .double .int64 (List.replicate size (.float (Scalar.one : F))) =
      .ok (List.replicate size (.int 1)) := by
    rw [Value.castAll?, if_neg (by decide), ← List.map_replicate]
    refine (mapM_eq_ok_map (g := fun _ => Value.int 1) fun v hv => ?_).trans (by simp)
    rw [List.map_replicate] at hv
    rw [List.eq_of_mem_replicate hv]
    exact congrArg (Except.ok ∘ Value.int) hone
  have hones : Value.ofReals (List.replicate size (Scalar.one : F)) =
      .array .double [size] (List.replicate size (.float Scalar.one)) := by
    simp only [Value.ofReals, Value.ofGrid, Grid.ofFloats, Grid.vector, List.map_replicate,
      List.length_replicate]
  simp only [hones, indices?, Grid.ofValue, lift, bind, Except.bind, pure, Except.pure,
    spread_replicate, hcast]
  simpa [integerOf] using fun _ => h

theorem indices_blockInput {index : BlockIndex} {count : Int} {size : Nat} {values : Value ℚ}
    (h : values = .null → 1 ≤ count) :
    indices? index count size (Evaluator.blockInput size values) =
      indices? index count size values := by
  unfold Evaluator.blockInput
  split
  · exact indices_ones (by decide +kernel) (h rfl)
  · rfl

theorem blocks_blockInput {groups replicates : Int} {input : Input ℚ}
    (hgroup : input.group = .null → 1 ≤ groups)
    (hreplicate : input.replicate = .null → 1 ≤ replicates) :
    blocks? groups replicates
        { input with
          group := Evaluator.blockInput input.size input.group
          replicate := Evaluator.blockInput input.size input.replicate } =
      blocks? groups replicates input := by
  simp only [blocks?, Input.size, indices_blockInput hgroup, indices_blockInput hreplicate]

end Block

/-- A component reads nothing of a group and a replicate but the blocks, and nothing of a state but
the latent vector. -/
theorem evaluate_component_congr {main : Mapper F} {groups replicates : Int} {input : Input F}
    {group replicate state state' : Value F}
    (hblocks : Block.blocks? groups replicates { input with group, replicate } =
      Block.blocks? groups replicates input)
    (hstate : latent? (component main groups replicates).n state =
      latent? (component main groups replicates).n state') :
    (component main groups replicates).evaluate? (some { input with group, replicate }) state =
      (component main groups replicates).evaluate? (some input) state' := by
  change latent? (main.n * groups * replicates) state = latent? (main.n * groups * replicates) state'
    at hstate
  simp only [evaluate?, Block.evaluate?, required?, hstate]
  refine congrArg _ (funext fun s => ?_)
  change (Block.blocks? groups replicates { input with group, replicate } >>= _) =
    (Block.blocks? groups replicates input >>= _)
  rw [hblocks]
  rfl

end Mapper

namespace Evaluator

/-- What a component reads of its inputs when they are given to its evaluator. -/
def asRead (input : Mapper.Input F) : Mapper.Input F :=
  { input with
    group := blockInput input.size input.group
    replicate := blockInput input.size input.replicate }

def ownArguments (input : Mapper.Input F) : Arguments F :=
  .ofList [input.main, input.group, input.replicate, input.scale]

omit [Scalar F] in
theorem latentState_null {c : Component F} {scope : Scope F} {v : Value F}
    (h : scope.get? (latentName c.label) = some v) : latentState? c scope .null = .ok v := by
  unfold latentState? Scope.lookup
  cases c.role <;> simp [h]

theorem reading_own {c : Component F} {scope : Scope F} {m : Mapper F} {input : Mapper.Input F}
    {kind : Kind} {n : Nat} {shape : List Nat} {cells : List (Value F)} {v : Value F} {e : List F}
    {marks : List Bool} (hm : c.mapper = some m)
    (hmain : input.main = .array kind (n :: shape) cells)
    (hlatent : scope.get? (latentName c.label) = some v)
    (hvalues : m.evaluate? (some (asRead input)) v = .ok e)
    (hmarks : unknown? c m input.main = .ok marks) :
    reading? c scope (ownArguments input) = .ok ⟨⟨kind, n :: shape, cells⟩, e, marks⟩ := by
  obtain ⟨main, group, replicate, scale⟩ := input
  obtain rfl : main = _ := hmain
  have hbind : (ownArguments (F := F) ⟨.array kind (n :: shape) cells, group, replicate, scale⟩).bind?
      parameters = .ok [some (.array kind (n :: shape) cells), some group, some replicate, some scale,
        none] := rfl
  have hgrid : mainGrid? (.array kind (n :: shape) cells : Value F) =
      .ok ⟨kind, n :: shape, cells⟩ := rfl
  have hread : m.evaluate? (some ⟨.array kind (n :: shape) cells, blockInput n group,
      blockInput n replicate, scale⟩) v = .ok e := hvalues
  have hunknown : unknown? c m (.array kind (n :: shape) cells) = .ok marks := hmarks
  simp only [reading?, hbind, lift, bind, Except.bind]
  simp [hgrid, latentState_null hlatent, hm, Value.ofGrid, Value.rows, hread, hunknown, pure,
    Except.pure]

theorem outcome_call_own {c : Component F} {scope : Scope F} {generator : Generator}
    {input : Mapper.Input F} {r : Reading F} (hreading : reading? c scope (ownArguments input) = .ok r)
    (hknown : true ∉ r.unknown) (context : Context F) :
    Run.outcome (call c scope generator (ownArguments input)) context =
      (.ok (column r.values), context) := by
  simp [call, hreading, Run.outcome_bind, hknown]

theorem exists_unknown {c : Component F} {main : Mapper F} {groups replicates : Int}
    {input : Mapper.Input F} {kind : Kind} {n : Nat} {shape : List Nat} {cells : List (Value F)}
    (hmain : input.main = .array kind (n :: shape) cells) (hshaped : input.main.Shaped)
    {state : Value F} {e : List F}
    (h : (Mapper.component main groups replicates).evaluate? (some input) state = .ok e)
    (hknown : c.role = .iid →
      ∀ marks, main.invalid? (some (.ofMain input.main)) = .ok marks → true ∉ marks) :
    ∃ marks, unknown? c (.component main groups replicates) input.main = .ok marks ∧
      true ∉ marks := by
  by_cases hrole : c.role = .iid
  · rw [hmain] at hshaped
    obtain ⟨rows, rfl, hrows, rfl⟩ := exists_chunks (hshaped.trans (Shape.count_cons n shape))
    obtain ⟨marks, hmarks⟩ := (Mapper.reads_of_component hmain hrows h).exists_invalid
    rw [← show input.main = Value.ofRows kind shape rows from hmain] at hmarks
    exact ⟨marks, by rw [unknown?, hrole]; exact hmarks, hknown hrole marks hmarks⟩
  · exact ⟨[], by simp [unknown?, hrole], List.not_mem_nil⟩

end Evaluator

namespace Predictor

open Evaluator

/-- A call of a component's evaluator in state `k`, with the component's own inputs. -/
def ownCall (t : Task F) (generator : Generator) (k : Nat) (label : String) (input : Mapper.Input F) :
    Run (Context F) (Value F) := do
  let names := meaning t.components generator (← liftError (scopeIn? t k))
  names.call (← names.lookup (nameFor label)) (ownArguments input)

theorem ownCall_eq {t : Task F} {k : Nat} {scope : Scope F} {c : Component F} {label : String}
    (hscope : scopeIn? t k = .ok scope)
    (hlookup : scope.get? (nameFor label) = some (.function (.evaluator label)))
    (hc : t.components.get? label = .ok c) (generator : Generator) (input : Mapper.Input F) :
    ownCall t generator k label input = Evaluator.call c scope generator (ownArguments input) := by
  have hfound : scope.lookup (nameFor label) = .ok (.function (.evaluator label)) := by
    rw [Scope.lookup, hlookup]
  simp only [ownCall, meaning, Callable.inScope, hscope, hfound, liftError, pure_bind]
  change (liftError (t.components.get? label) >>= fun c =>
    Evaluator.call c scope generator (ownArguments input)) = _
  rw [hc]
  rfl

end Predictor

namespace Predictor

open Evaluator

/-- The effect of a single component is what its own mapper gives on its input. -/
theorem effect_alone [Exact F] {c : Component F} {m : Mapper F} {input : Mapper.Input F}
    {state : State F} {v : Value F} {s : List F} {ws ws' : List Warning} {effects : Effects F}
    (hmapper : c.mapper = some m) (hkeeps : c.KeepsValues [(c.label, input)])
    (hv : Named.value? state c.label = some v) (hs : Mapper.latent? m.n v = .ok s)
    (h : (Effects.ofComponents ⟨[c]⟩ [(c.label, input)] state).outcome ws = (.ok effects, ws')) :
    ∃ e, effects = [(c.label, e)] ∧ m.evaluate? (some input) v = .ok e := by
  have hfits : Effects.Fits state c := by
    intro m' v' hm' hv'
    obtain rfl := Option.some.inj (hmapper.symm.trans hm')
    obtain rfl := Option.some.inj (hv.symm.trans hv')
    exact ⟨s, hs⟩
  have hall : List.Forall₂ (Effects.IsEffect [(c.label, input)] state) [c] effects :=
    Effects.isEffects_of_ofComponents (by simpa using fun _ => hkeeps) (by simpa using hfits) h
  obtain ⟨⟨l, e⟩, _, hentry, hnone, rfl⟩ := List.forall₂_cons_left_iff.1 hall
  obtain rfl : l = c.label := hentry.label
  cases hnone
  have hvalues := hentry.values hmapper (Or.inr inferInstance)
  rw [Named.value_cons, if_pos rfl, hv, Option.getD_some] at hvalues
  exact ⟨e, rfl, hvalues⟩

/-- On its own inputs the evaluator of a component gives the component's effect, as a column, and
draws nothing. -/
theorem ownCall_eq_effect {t : Task ℚ} {k : Nat} {state : State ℚ} {scope : Scope ℚ}
    {generator : Generator} {c : Component ℚ} {main : Mapper ℚ} {groups replicates : Int} {d v : Value ℚ}
    {input : Mapper.Input ℚ} {s : List ℚ} {ws ws' : List Warning} {effects : Effects ℚ}
    (hc : t.components.get? c.label = .ok c)
    (hmapper : c.mapper = some (.component main groups replicates))
    (hinput : (⟨[c]⟩ : Components ℚ).inputs? d = .ok [(c.label, input)])
    (hmain : input.main ≠ .null) (hshaped : input.main.Shaped)
    (hgroup : input.group = .null → 1 ≤ groups)
    (hreplicate : input.replicate = .null → 1 ≤ replicates)
    (hlinear : main.isLinear = true → ∀ blocks,
      Mapper.Block.blocks? groups replicates input = .ok blocks →
        ∀ b ∈ blocks, main.TrulyLinear (Mapper.Block.rowsOf blocks b).length)
    (hstate : t.states[k]? = some state) (howns : t.Owns k state c.label)
    (hv : Named.value? state c.label = some v)
    (hvector : v.IsVector) (hs : Mapper.latent? (main.n * groups * replicates) v = .ok s)
    (heffects : (Effects.ofComponents ⟨[c]⟩ [(c.label, input)] state).outcome ws = (.ok effects, ws'))
    (hknown : c.role = .iid →
      ∀ marks, main.invalid? (some (.ofMain input.main)) = .ok marks → true ∉ marks)
    (hscope : scopeIn? t k = .ok scope) :
    ∃ e, effects = [(c.label, e)] ∧ ∀ context,
      (ownCall t generator k c.label input).outcome context = (.ok (column e), context) := by
  obtain ⟨kind, n, shape, cells, harray⟩ :=
    Component.main_array (Component.inputs_singleton hinput) hmain hshaped
  have hcontains := Components.contains_of_get hc
  -- the effect is what the component's own mapper gives
  have hstep : Scalar.lt Scalar.zero (Mapper.Difference.defaultStep : ℚ) = true := by decide +kernel
  have hkeeps : c.KeepsValues [(c.label, input)] :=
    Component.keepsValues_of_affine hmapper (by simp [Named.value_cons]) hshaped
      (harray ▸ Mapper.singleWithoutAxes_array main kind n shape cells) fun hm blocks hblocks b hb =>
        (hlinear hm blocks hblocks b hb).affineOnRows (Mapper.Difference.stepAt_ne_zero hstep)
  obtain ⟨e, rfl, hvalues⟩ := effect_alone hmapper hkeeps hv hs heffects
  refine ⟨e, rfl, fun context => ?_⟩
  -- the evaluator reads the same inputs and the same vector
  obtain ⟨g, hg, hlatent⟩ := howns.get?_latent hscope hcontains hstate hv
  have hread : (Mapper.component main groups replicates).evaluate? (some (asRead input))
      (Value.ofGrid g) = .ok e := by
    rw [← hvalues]
    exact Mapper.evaluate_component_congr (Mapper.Block.blocks_blockInput hgroup hreplicate)
      (Mapper.latent_ofGrid hvector hg)
  obtain ⟨marks, hmarks, hnew⟩ := exists_unknown harray hshaped hvalues hknown
  rw [ownCall_eq hscope (howns.get?_evaluator hscope hcontains) hc]
  exact outcome_call_own (reading_own hmapper harray hlatent hread hmarks) hnew context

def grouped : Component ℚ :=
  { Effects.plainComponent "site" (.component (.index [.str "a", .str "b"]) 2 1) with
    main := .array .text [3] [.str "a", .str "b", .str "a"]
    group := .array .int64 [3] [.int 2, .int 2, .int 2]
    role := .iid }

def groupedInput : Mapper.Input ℚ := ⟨grouped.main, grouped.group, .null, .null⟩

def groupedState : State ℚ := [("site", .list [.int 5, .float 6, .int 7, .float 8])]

def groupedTask : Task ℚ where
  components := ⟨[grouped]⟩
  data := .null
  states := [[("site", .ofReals [1, 2, 3, 4])], groupedState]
  effects := some [[("site", .ofReals [3, 4, 3])], [("site", .ofReals [7, 8, 7])]]
  predictor := .null
  format := .null

theorem grouped_owns : groupedTask.Owns 1 groupedState "site" where
  generic := by decide
  first := by
    rintro _ ⟨⟩
    decide
  unique := by decide
  latent := by decide
  effects := by
    rintro _ ⟨⟩
    decide
  evaluator := by
    intro j hj state ws hstate hws
    obtain rfl | rfl : j = 0 ∨ j = 1 := by omega
    · cases hstate
      cases hws
      decide
    · cases hstate
      cases hws
      decide

theorem grouped_effects :
    (Effects.ofComponents ⟨[grouped]⟩ [("site", groupedInput)] groupedState).outcome [] =
      (.ok [("site", [7, 8, 7])], []) :=
  Prod.ext (by decide +kernel) (by decide +kernel)

theorem grouped_known : (Mapper.index [.str "a", .str "b"]).invalid?
    (some (.ofMain groupedInput.main)) = .ok [false, false, false] := by
  decide +kernel

theorem grouped_agrees :
    ∃ e, [("site", [7, 8, 7])] = [(grouped.label, e)] ∧ ∀ context,
      (ownCall groupedTask .given 1 grouped.label groupedInput).outcome context =
        (.ok (column e), context) := by
  refine ownCall_eq_effect (c := grouped) (d := .null) (s := [5, 6, 7, 8]) rfl rfl rfl nofun ?_ nofun
    (fun _ => by decide) (fun _ _ _ _ _ => .elementary (.index _)) rfl grouped_owns rfl
    (.list (by simp [Value.IsNumber.int, Value.IsNumber.float])) (by decide +kernel) grouped_effects ?_ rfl
  · simp [groupedInput, grouped, Value.Shaped]
  · intro _ marks hmarks
    rw [grouped_known, Except.ok.injEq] at hmarks
    rw [← hmarks]
    decide

/-- The component alone, with the effect that was evaluated for each state. -/
def aloneTask (c : Component ℚ) (states : List (State ℚ)) (e : List ℚ) : Task ℚ where
  components := ⟨[c]⟩
  data := .null
  states
  effects := some (states.map fun _ => [(c.label, .ofReals e)])
  predictor := .null
  format := .null

/-- In state `k` the component has an effect on its inputs, and its evaluator does not give it. -/
def Differs (c : Component ℚ) (states : List (State ℚ)) (k : Nat) : Prop :=
  ∃ input e state, (⟨[c]⟩ : Components ℚ).inputs? .null = .ok [(c.label, input)] ∧
    input.main ≠ .null ∧ states[k]? = some state ∧
    ((Effects.ofComponents ⟨[c]⟩ [(c.label, input)] state).outcome []).1 = .ok [(c.label, e)] ∧
    (scopeIn? (aloneTask c states e) k).toOption.isSome = true ∧
    ∃ context, (ownCall (aloneTask c states e) .given k c.label input).outcome context ≠
      (.ok (column e), context)

/-- The numbers of an array. -/
def numbers? (r : Except Error (Value ℚ)) : Option (List ℚ) :=
  match r with
  | .ok (.array _ _ cells) => some (cells.map Grid.realOf)
  | _ => none

theorem numbers_column (e : List ℚ) : numbers? (.ok (column e)) = some e := by
  have hrealOf : Grid.realOf ∘ Value.float = (id : ℚ → ℚ) := rfl
  simp [numbers?, column, hrealOf]

theorem differs_of_numbers {c : Component ℚ} {states : List (State ℚ)} {k : Nat}
    {input : Mapper.Input ℚ} {e : List ℚ} {state : State ℚ}
    (hinput : (⟨[c]⟩ : Components ℚ).inputs? .null = .ok [(c.label, input)])
    (hmain : input.main ≠ .null) (hstate : states[k]? = some state)
    (he : ((Effects.ofComponents ⟨[c]⟩ [(c.label, input)] state).outcome []).1 = .ok [(c.label, e)])
    (hscope : (scopeIn? (aloneTask c states e) k).toOption.isSome = true)
    (hne : numbers? ((ownCall (aloneTask c states e) .given k c.label input).outcome
      (Context.start (.ofCycle []))).1 ≠ some e) :
    Differs c states k := by
  refine ⟨input, e, state, hinput, hmain, hstate, he, hscope, .start (.ofCycle []), fun h => hne ?_⟩
  rw [h, numbers_column]

def onTwo (label : String) (m : Mapper ℚ) : Component ℚ :=
  { Effects.plainComponent label m with main := .ofReals [1, 2] }

/-- A function that is not linear but says so. -/
def declared : Component ℚ :=
  onTwo "f" (.component (.function "square" Effects.timesSquare 1 true) 1 1)

def slopeOf (label : String) : Component ℚ := onTwo label (.component (.linear 1) 1 1)

def known (groups : Int) : Component ℚ := onTwo "known" (.component .offset groups 1)

def single : Component ℚ := onTwo "t" (.component (.expanded [1] ⟨1, 1, [(0, 0, 2)]⟩ none) 1 1)

theorem evaluators_differ :
    Differs declared [[("f", .ofReals [3])]] 0 ∧
    Differs (slopeOf "component") [[("component", .ofReals [3])]] 0 ∧
    Differs (slopeOf "x") [[("x", .ofReals [3]), ("x_eval", .ofReals [1])]] 0 ∧
    Differs (slopeOf "x") [[], [("x", .ofReals [3])]] 1 ∧
    Differs (known 1) [[("known", .ofReals [7])]] 0 ∧
    Differs (known (-1)) [[("known", .ofReals [])]] 0 ∧
    Differs single [[("t", .ofReals [3])]] 0 := by
  refine ⟨?_, ?_, ?_, ?_, ?_, ?_, ?_⟩
  · exact differs_of_numbers (e := [3 / 1000000, 6 / 1000000]) rfl nofun rfl (by decide +kernel) rfl
      (by decide +kernel)
  · exact differs_of_numbers (e := [3, 6]) rfl nofun rfl (by decide +kernel) rfl (by decide +kernel)
  · exact differs_of_numbers (e := [3, 6]) rfl nofun rfl (by decide +kernel) rfl (by decide +kernel)
  · exact differs_of_numbers (e := [3, 6]) rfl nofun rfl (by decide +kernel) rfl (by decide +kernel)
  · exact differs_of_numbers (e := [1, 2]) rfl nofun rfl (by decide +kernel) rfl (by decide +kernel)
  · exact differs_of_numbers (e := [1, 2]) rfl nofun rfl (by decide +kernel) rfl (by decide +kernel)
  · exact differs_of_numbers (e := [7, 1]) rfl nofun rfl (by decide +kernel) rfl (by decide +kernel)

end Predictor

end AdditiveModel
