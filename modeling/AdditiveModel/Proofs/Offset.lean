import AdditiveModel.Proofs.Hygiene

/-! Offsets in predictors. An offset has no latent vector and its evaluator asks for none; it gives the
main input back. The evaluator is bound for the components of the first state only, so an offset that
the first state has no entry of has no evaluator. -/

namespace AdditiveModel

variable {F : Type} [Scalar F]

namespace Mapper

/-- Numbers, read as an offset: each point has its own number, times its weight. -/
theorem evaluate_offset_vector {groups replicates : Int} {kind : Kind} {cells : List (Value F)}
    {group replicate scale state : Value F} {blocks : List Int} {xs s out : List F}
    (hreals : cells.mapM (Grid.cellToReal? kind) = .ok xs) (hstate : latent? 0 state = .ok s)
    (hblocks : Block.blocks? groups replicates
      ⟨.array kind [cells.length] cells, group, replicate, scale⟩ = .ok blocks)
    (hout : Block.weighted? ⟨.array kind [cells.length] cells, group, replicate, scale⟩ xs = .ok out) :
    (component .offset groups replicates).evaluate?
      (some ⟨.array kind [cells.length] cells, group, replicate, scale⟩) state = .ok out := by
  have hcells := mapM_eq_ok.1 hreals
  have hlen : xs.length = cells.length := mapM_length hreals
  have hvalues : (List.range cells.length).map (xs.getD · Scalar.zero) = xs := by
    rw [← hlen]
    exact List.ext_getElem (by simp) fun i _ hi => by simp [hi]
  refine (evaluate_rows .offset (by simp [Value.Shaped, Shape.count])).2
    ⟨s, blocks, (xs.getD · Scalar.zero), ?_, hblocks, fun i b hi => ?_, ?_⟩
  · simpa [n] using hstate
  · have hlt : i < cells.length := by
      rw [← show blocks.length = cells.length from Block.blocks_length hblocks]
      exact (List.getElem?_eq_some_iff.1 hi).1
    have hcell : Grid.cellToReal? kind cells[i] = .ok xs[i] := hcells.get hlt (hlen ▸ hlt)
    have htake : Block.take? (.array kind [cells.length] cells) [i] =
        .ok (.array kind [1] [cells[i]]) := by
      simp only [Block.take?, Grid.ofValue, Grid.slabs, bind, Except.bind, pure, Except.pure,
        List.mapM_cons, List.mapM_nil]
      simp [hlt, List.take_one_drop_eq_of_lt_length hlt]
    refine ⟨_, htake, evaluate_offset.2 ⟨[1], ?_⟩⟩
    simp [Input.ofMain, Grid.realsOfValue, hcell, hlt, hlen, bind, Except.bind, pure, Except.pure,
      Except.map]
  · exact (congrArg _ hvalues).trans hout

end Mapper

namespace Value

/-- A vector of numbers: as an array it has one axis, and its elements are the given real numbers. -/
def IsNumbers (v : Value F) (xs : List F) : Prop :=
  ∃ kind cells, Grid.ofValue v = .ok ⟨kind, [cells.length], cells⟩ ∧
    cells.mapM (Grid.cellToReal? kind) = .ok xs

end Value

namespace Evaluator

section Call

variable {c : Component F} {groups replicates : Int} {a : Arguments F} {v : Value F}
  {scale : Option (Value F)} {xs out : List F}
  (hone : Value.realToWord .int64 (Scalar.one : F) = 1) (hrole : c.role = .offset)
  (hmapper : c.mapper = some (.component .offset groups replicates)) (hgroups : 1 ≤ groups)
  (hreplicates : 1 ≤ replicates) (hv : v.IsNumbers xs)
  (ha : a.bind? parameters = .ok [some v, none, none, scale, none])
  (hout : ∀ main group replicate, main.rows = xs.length →
    Mapper.Block.weighted? ⟨main, group, replicate, scale.getD .null⟩ xs = .ok out)

include hone hrole hmapper hgroups hreplicates hv ha hout

/-- An offset without a state, or with an empty one, gives the numbers of its main input back. -/
theorem readingAt_offset {state : Value F} {s : List F} (hstate : Mapper.latent? 0 state = .ok s) :
    ∃ main, readingAt? c state a = .ok ⟨main, out, []⟩ := by
  obtain ⟨kind, cells, hgrid, hreals⟩ := hv
  have hmain : mainGrid? v = .ok ⟨kind, [cells.length], cells⟩ := by
    unfold mainGrid?
    split
    · cases hgrid
    · rw [hgrid]
      rfl
  have hrows : cells.length = xs.length := (mapM_length hreals).symm
  have hblocks : Mapper.Block.blocks? groups replicates
      (⟨.array kind [cells.length] cells, blockInput cells.length .null,
        blockInput cells.length .null, scale.getD .null⟩ : Mapper.Input F) =
      .ok (List.zipWith (Mapper.Block.blockOf groups) (List.replicate cells.length 1)
        (List.replicate cells.length 1)) := by
    simp [Mapper.Block.blocks?, Mapper.Input.size, Value.rows, blockInput,
      Mapper.Block.indices_ones hone hgroups, Mapper.Block.indices_ones hone hreplicates, bind,
      Except.bind, pure, Except.pure]
  have hvalues := Mapper.evaluate_offset_vector hreals hstate hblocks (hout _ _ _ hrows)
  refine ⟨⟨kind, [cells.length], cells⟩, ?_⟩
  simp [readingAt?, ha, lift, hmain, hmapper, Value.ofGrid, Value.rows, hvalues, unknown?, hrole]
  rfl

/-- The evaluator gives them back too, where what the latent vector is bound to, if anything, is
empty. -/
theorem outcome_call_offset {scope : Scope F}
    (hempty : ∀ w, scope.get? (latentName c.label) = some w → ∃ s, Mapper.latent? 0 w = .ok s)
    (generator : Generator) (context : Context F) :
    (call c scope generator a).outcome context = (.ok (column out), context) := by
  have hstate : latentState? c scope .null = .ok ((scope.get? (latentName c.label)).getD .null) := by
    rw [latentState?, hrole]
  obtain ⟨s, hs⟩ : ∃ s, Mapper.latent? 0 ((scope.get? (latentName c.label)).getD .null) = .ok s := by
    cases hfound : scope.get? (latentName c.label) with
    | none => exact ⟨[], rfl⟩
    | some w => exact hempty w hfound
  have hleaves : LeavesState a := by
    intro values hvalues
    rw [ha, Except.ok.injEq] at hvalues
    rw [← hvalues]
    rfl
  obtain ⟨main, hread⟩ := readingAt_offset hone hrole hmapper hgroups hreplicates hv ha hout hs
  simp [call, reading_eq hstate hleaves, hread, Run.outcome_bind]

end Call

end Evaluator

namespace Predictor

open Evaluator

/-- What `n` states give together, each of them the same column. -/
def columns (format : Format) (n : Nat) (xs : List F) : Value F :=
  match format with
  | .list => .list (List.replicate n (column xs))
  | .auto | .matrix => .array .double [xs.length, n] (xs.flatMap fun x => List.replicate n (.float x))

def placed (format : Format) (xs : List F) : Value F :=
  match format with
  | .list => column xs
  | .auto | .matrix => .ofReals xs

theorem vector_column (xs : List F) : (column xs).vector? = .ok xs := by
  simp [column, Value.vector?, Grid.realsOfValue, cellsToReals_float, Except.map, -List.mapM_map]

theorem admit_column (format : Format) (k : Nat) (xs : List F) :
    (Layout.ofFirst format (column xs)).admit? k (column xs) = .ok (placed format xs) := by
  have hfit : ((column xs).vector? >>= Mapper.fit? xs.length) = .ok xs := by
    simp [vector_column, Mapper.fit?, bind, Except.bind]
  have hmatrix : (Layout.matrix xs.length none).admit? k (column xs) = .ok (.ofReals xs) := by
    rw [Layout.admit?, hfit]
  cases format with
  | auto => exact hmatrix
  | matrix => exact hmatrix
  | list => rfl

omit [Scalar F] in
theorem collect_columns (format : Format) (n : Nat) (xs : List F) :
    (Layout.ofFirst format (column xs)).collect (List.replicate n (placed format xs)) =
      columns format n xs := by
  have hmatrix : (Layout.matrix xs.length none).collect (List.replicate n (.ofReals xs)) =
      .array .double [xs.length, n] (xs.flatMap fun x => List.replicate n (.float x)) := by
    have hcells : (List.range xs.length).map (fun i => (xs.map Value.float).toArray.getD i .null) =
        xs.map Value.float :=
      List.ext_getElem (by simp) fun i _ hi => by simp at hi; simp [hi]
    have hrows := congrArg (List.flatMap (List.replicate n)) hcells
    rw [List.flatMap_map, List.flatMap_map] at hrows
    simp only [Layout.collect, Value.ofReals, Value.ofGrid, List.map_replicate, List.length_replicate]
    exact congrArg _ hrows
  cases format with
  | auto => exact hmatrix
  | matrix => exact hmatrix
  | list => rfl

/-- Where the predictor gives the same column in each state, the columns are put together. -/
theorem evaluate_columns {t : Task F} {first : State F} {rest : List (State F)} {format : Format}
    {e : Expression} {base : Scope F} {given : Option Generator} {generator : Generator}
    {seed : Value F} {source source' : Source F} {xs : List F}
    (hformat : Format.ofValue? t.format = .ok format) (hstates : t.states = first :: rest)
    (he : Expression.ofValue t.predictor = .ok e)
    (hbase : baseScope? t.components t.data first = .ok base)
    (hgenerator : (generatorFor given seed).outcome source = (.ok generator, source'))
    (hvalue : ∀ k < t.states.length, Run.Gives (valueIn t e generator base k) (column xs)) :
    ((evaluate t given seed).outcome source).1 = .ok (columns format t.states.length xs) := by
  have hlength : t.states.length = rest.length + 1 := by rw [hstates, List.length_cons]
  have hplaced (k : Nat) (hk : k < t.states.length) : Run.Gives
      (placedIn t e generator (Layout.ofFirst format (column xs)) base k) (placed format xs) :=
    (hvalue k hk).bind (.liftError (admit_column format k xs))
  have hall : Run.Gives (do
      let v ← valueIn t e generator base 0
      let layout := Layout.ofFirst format v
      let placed ← liftError (layout.admit? 0 v)
      let others ← (List.range' 1 rest.length).mapM (placedIn t e generator layout base)
      return layout.collect (placed :: others)) (columns format t.states.length xs) := by
    refine (hvalue 0 (by omega)).bind ((Run.Gives.liftError (admit_column format 0 xs)).bind
      ((Run.Gives.mapM fun k hk => hplaced k ?_).bind ?_))
    · rw [List.mem_range'_1] at hk
      omega
    · rw [List.length_range', ← List.replicate_succ, ← hlength, collect_columns]
      exact .pure _
  rw [evaluate_accumulated hformat hstates he hbase, Run.outcome_bind, hgenerator]
  exact hall _

/-- The component is an offset, and what the states bind to its two names leaves the evaluator in place
and the latent vector empty. -/
structure Task.Offers (t : Task F) (c : Component F) : Prop where
  get : t.components.get? c.label = .ok c
  role : c.role = .offset
  mapper : ∃ groups replicates, c.mapper = some (.component .offset groups replicates) ∧ 1 ≤ groups ∧
    1 ≤ replicates
  generic : c.label ≠ "component"
  bound : ∀ k s, t.states[k]? = some s → ∃ ws, bindings? t k s = .ok ws
  kept : ∀ k s ws, t.states[k]? = some s → bindings? t k s = .ok ws → nameFor c.label ∉ Named.names ws
  empty : ∀ k s ws v, t.states[k]? = some s → bindings? t k s = .ok ws → (latentName c.label, v) ∈ ws →
    ∃ x, Mapper.latent? 0 v = .ok x

/-- In each state the expression has the same value. -/
def Task.Has (t : Task F) (generator : Generator) (e : Expr) (v : Value F) : Prop :=
  ∀ k < t.states.length, ∀ scope, scopeIn? t k = .ok scope →
    Run.Gives (e.evaluate (meaning t.components generator scope)) v

namespace Task.Offers

variable {t : Task F} {c : Component F} (h : t.Offers c)

include h

variable {first : State F} {rest : List (State F)} (hstates : t.states = first :: rest)

include hstates

section Entry

variable (hfirst : c.label ∈ Named.names first) {k : Nat} {scope : Scope F}
  (hscope : scopeIn? t k = .ok scope)

include hfirst hscope

theorem get?_evaluator : scope.get? (nameFor c.label) = some (.function (.evaluator c.label)) := by
  refine Predictor.get?_evaluator h.generic (fun s hs => ?_)
    (fun j _ s ws hs hws => h.kept j s ws hs hws) hscope (Components.contains_of_get h.get)
  rw [hstates, List.head?_cons, Option.some_inj] at hs
  exact hs ▸ hfirst

theorem latent_empty {w : Value F} (hw : scope.get? (latentName c.label) = some w) :
    ∃ x, Mapper.latent? 0 w = .ok x := by
  obtain ⟨_, _, base, ws, -, -, hws, rfl⟩ := scopeIn_eq_ok.1 hscope
  rw [Scope.get?, resolve_latentName, Scope.value_update] at hw
  -- the first state binds the name already, so its value is one that a state gave it
  have hbound : latentName c.label ∈ Named.names ws := by
    have hzero : t.states[0]? = some first := by rw [hstates, List.getElem?_cons_zero]
    obtain ⟨own, hown⟩ := h.bound 0 first hzero
    have hmem : latentName c.label ∈ Named.names own := by
      simp only [bindings?, bind_eq_ok, pure_eq_ok] at hown
      obtain ⟨entries, hentries, effects, -, rfl⟩ := hown
      rw [Named.names, List.map_append, List.mem_append]
      refine .inl (?_ : _ ∈ Named.names entries)
      rw [names_entries hentries]
      exact List.mem_map.2 ⟨c.label, hfirst, by
        rw [boundName, if_pos (Components.contains_of_get h.get)]⟩
    obtain ⟨e, he, hname⟩ := List.mem_map.1 hmem
    exact hname ▸ List.mem_map_of_mem
      ((mem_boundBefore hws).2 ⟨0, Nat.succ_pos k, first, own, hzero, hown, he⟩)
  obtain ⟨v, hv⟩ := Option.isSome_iff_exists.1 (Scope.isSome_reverse.2 hbound)
  rw [hv, Option.some_or, Option.some_inj] at hw
  subst hw
  obtain ⟨j, -, s, own, hs, hown, hmem⟩ :=
    (mem_boundBefore hws).1 (List.mem_reverse.1 (Named.mem_of_value hv))
  exact h.empty j s own v hs hown hmem

/-- A call of the evaluator gives the numbers of the main input, times the weights if there are any. -/
theorem gives_call (hone : Value.realToWord .int64 (Scalar.one : F) = 1) {generator : Generator}
    {main : Expr} {keywords : List (Option String × Expr)} {ks : List (Option String × Value F)}
    {v : Value F} {scale : Option (Value F)} {xs out : List F}
    (hmain : Run.Gives (main.evaluate (meaning t.components generator scope)) v)
    (hkeywords :
      Run.Gives (Expr.evaluateKeywords (meaning t.components generator scope) [] keywords) ks)
    (ha : (⟨[v], ks⟩ : Arguments F).bind? parameters = .ok [some v, none, none, scale, none])
    (hv : v.IsNumbers xs) (hout : ∀ main group replicate, main.rows = xs.length →
      Mapper.Block.weighted? ⟨main, group, replicate, scale.getD .null⟩ xs = .ok out) :
    Run.Gives ((Expr.call (nameFor c.label) [main] keywords).evaluate
      (meaning t.components generator scope)) (column out) := by
  obtain ⟨groups, replicates, hmapper, hgroups, hreplicates⟩ := h.mapper
  have hcall : Run.Gives (Evaluator.call c scope generator ⟨[v], ks⟩) (column out) := fun context =>
    congrArg Prod.fst (outcome_call_offset hone h.role hmapper hgroups hreplicates hv ha hout
      (fun w => h.latent_empty hstates hfirst hscope) generator context)
  have hlookup : scope.lookup (nameFor c.label) = .ok (.function (.evaluator c.label)) := by
    rw [Scope.lookup, h.get?_evaluator hstates hfirst hscope]
  refine (Run.Gives.liftError hlookup).bind ?_
  refine Run.Gives.bind (a := [v]) (hmain.bind (.pure _)) (hkeywords.bind ?_)
  exact (Run.Gives.liftError h.get).bind hcall

end Entry

variable {format : Format} {text : String} {given : Option Generator} {generator : Generator}
  {seed : Value F} {source source' : Source F} {data : Scope F} {keywords : List (Option String × Expr)}
  (hformat : Format.ofValue? t.format = .ok format)
  (hgenerator : (generatorFor given seed).outcome source = (.ok generator, source'))
  (hdata : Data.scope? t.data = .ok data)

include hformat hgenerator hdata

/-- Where the first state has an entry of the offset, a call of its evaluator has a value in every
state. -/
theorem evaluate_call (hfirst : c.label ∈ Named.names first)
    (hone : Value.realToWord .int64 (Scalar.one : F) = 1) {main : Expr} {v : Value F}
    {ks : List (Option String × Value F)} {scale : Option (Value F)} {xs out : List F}
    (he : Expression.ofValue t.predictor = .ok ⟨text, .call (nameFor c.label) [main] keywords⟩)
    (hmain : t.Has generator main v) (hkeywords : ∀ k < t.states.length, ∀ scope,
      scopeIn? t k = .ok scope →
        Run.Gives (Expr.evaluateKeywords (meaning t.components generator scope) [] keywords) ks)
    (ha : (⟨[v], ks⟩ : Arguments F).bind? parameters = .ok [some v, none, none, scale, none])
    (hv : v.IsNumbers xs) (hout : ∀ main group replicate, main.rows = xs.length →
      Mapper.Block.weighted? ⟨main, group, replicate, scale.getD .null⟩ xs = .ok out) :
    ((evaluate t given seed).outcome source).1 = .ok (columns format t.states.length out) := by
  obtain ⟨base, hbase⟩ := exists_baseScope t.components first hdata
  refine evaluate_columns hformat hstates he hbase hgenerator fun k hk => ?_
  obtain ⟨ws, hws⟩ := exists_boundBefore h.bound (k + 1)
  have hscope : scopeIn? t k = .ok (base.update ws) :=
    scopeIn_eq_ok.2 ⟨first, rest, base, ws, hstates, hbase, hws, rfl⟩
  refine (Run.Gives.change _).bind ((Run.Gives.lift hws).bind (Run.Gives.tryCatch ?_ _))
  exact h.gives_call hstates hfirst hscope hone (hmain k hk _ hscope) (hkeywords k hk _ hscope) ha hv
    hout

/-- Where it has none, and no data of that name, the evaluator is not found. -/
theorem evaluate_unbound (hfirst : c.label ∉ Named.names first)
    (hfree : data.get? (nameFor c.label) = none) {args : List Expr}
    (he : Expression.ofValue t.predictor = .ok ⟨text, .call (nameFor c.label) args keywords⟩) :
    ((evaluate t given seed).outcome source).1 = .error (.unbound (nameFor c.label)) := by
  have hzero : t.states[0]? = some first := by rw [hstates, List.getElem?_cons_zero]
  obtain ⟨base, hbase⟩ := exists_baseScope t.components first hdata
  have hlacks : t.Lacks first data (nameFor c.label) :=
    { data := hfree
      evaluator := by
        intro name hname _ heq
        rw [resolve_nameFor] at heq
        exact hfirst (nameFor_inj heq ▸ hname)
      generic := by
        rw [resolve_nameFor]
        exact fun heq => h.generic (nameFor_inj (b := "component") heq)
      state := by
        intro ws hws
        rw [resolve_nameFor]
        exact h.kept 0 first ws hzero hws }
  obtain ⟨own, hown⟩ := h.bound 0 first hzero
  have hbound : boundBefore? t (0 + 1) = .ok own := by
    rw [boundBefore_succ hzero rfl, hown]
    rfl
  have hnone : (base.update own).lookup (nameFor c.label) = .error (.unbound (nameFor c.label)) := by
    rw [Scope.lookup, get?_update_of_not_mem (hlacks.state own hown),
      hlacks.base hdata hbase, resolve_nameFor]
  have htree (context : Context F) :
      ((Expr.call (nameFor c.label) args keywords).evaluate
        (meaning t.components generator (base.update own))).outcome context =
          (.error (.unbound (nameFor c.label)), context) := by
    simp [Expr.evaluate, meaning, Callable.inScope, hnone, Run.outcome_bind]
  rw [evaluate_accumulated hformat hstates he hbase, Run.outcome_bind, hgenerator]
  simp only [Context.outcome_fresh, valueIn, hbound, lift, Run.outcome_bind, Run.outcome_change,
    Run.outcome_pure, Expression.evaluateWith, Run.outcome_tryCatch, htree]
  rfl

end Task.Offers

/-- The evaluator of an offset has no need of a latent vector: where the first state has an entry of the
offset, a call gives the main input back as a column in every state, times the weights if there are any.
Where it has none, the evaluator is not found. -/
theorem offset_answers {t : Task F} {c : Component F} {first : State F} {rest : List (State F)}
    {format : Format} {given : Option Generator} {generator : Generator} {seed : Value F}
    {source source' : Source F} {data : Scope F} {main : Expr} {v : Value F} {xs : List F}
    (hone : Value.realToWord .int64 (Scalar.one : F) = 1) (h : t.Offers c)
    (hstates : t.states = first :: rest) (hformat : Format.ofValue? t.format = .ok format)
    (hgenerator : (generatorFor given seed).outcome source = (.ok generator, source'))
    (hdata : Data.scope? t.data = .ok data) (hv : v.IsNumbers xs) (hmain : t.Has generator main v) :
    (c.label ∈ Named.names first →
      (∀ text, Expression.ofValue t.predictor = .ok ⟨text, .call (nameFor c.label) [main] []⟩ →
        ((evaluate t given seed).outcome source).1 = .ok (columns format t.states.length xs)) ∧
      ∀ text weights w ws, Expression.ofValue t.predictor =
          .ok ⟨text, .call (nameFor c.label) [main] [(some "weights", weights)]⟩ →
        t.Has generator weights w → w ≠ .null → w.vector? = .ok ws → ws.length = xs.length →
        ((evaluate t given seed).outcome source).1 =
          .ok (columns format t.states.length (List.zipWith (· * ·) xs ws))) ∧
    (c.label ∉ Named.names first → data.get? (nameFor c.label) = none →
      ∀ text args keywords, Expression.ofValue t.predictor =
          .ok ⟨text, .call (nameFor c.label) args keywords⟩ →
        ((evaluate t given seed).outcome source).1 = .error (.unbound (nameFor c.label))) := by
  refine ⟨fun hfirst => ⟨fun text he => ?_, fun text weights w ws he hweights hw hws hlen => ?_⟩,
    fun hfirst hfree text args keywords he => ?_⟩
  · exact h.evaluate_call hstates hformat hgenerator hdata hfirst hone he hmain
      (fun _ _ _ _ => .pure []) rfl hv fun _ _ _ _ => Mapper.weighted_null rfl xs
  · have ha : (⟨[v], [(some "weights", w)]⟩ : Arguments F).bind? parameters =
        .ok [some v, none, none, some w, none] := rfl
    exact h.evaluate_call hstates hformat hgenerator hdata hfirst hone he hmain
      (fun k hk scope hscope => (hweights k hk scope hscope).bind (.pure _)) ha hv
      fun _ _ _ hrows => Mapper.weighted_vector hw hws hlen hrows
  · exact h.evaluate_unbound hstates hformat hgenerator hdata hfirst hfree he

def exposure : Component ℚ :=
  { Effects.plainComponent "off" (.component .offset 1 1) with role := .offset }

/-- A call of its evaluator, with points and weights from the data. -/
def exposureTask (states : List (State ℚ)) (text : String) (keywords : List (Option String × Expr)) :
    Task ℚ where
  components := ⟨[exposure]⟩
  data := .dict [("x", .ofReals [1, 2]), ("w", .ofReals [3, 4])]
  states
  effects := none
  predictor := .expression ⟨text, .call "off_eval" [.name "x"] keywords⟩
  format := .null

section Exposure

variable {states : List (State ℚ)} {text : String} {keywords : List (Option String × Expr)}

theorem exposure_offers (h : ∀ s ∈ states, s = [] ∨ s = [("off", .ofReals [])]) :
    (exposureTask states text keywords).Offers exposure where
  get := rfl
  role := rfl
  mapper := ⟨1, 1, rfl, by decide, by decide⟩
  generic := by decide
  bound k s hs := by
    rcases h s (List.mem_of_getElem? hs) with rfl | rfl
    · exact ⟨_, rfl⟩
    · exact ⟨_, rfl⟩
  kept k s ws hs hws := by
    rw [names_bindings hws rfl]
    change nameFor exposure.label ∉ List.map (boundName ⟨[exposure]⟩) _
    rcases h s (List.mem_of_getElem? hs) with rfl | rfl
    · decide
    · decide
  empty k s ws v hs hws hv := by
    rcases h s (List.mem_of_getElem? hs) with rfl | rfl
    · cases hws
      cases hv
    · cases hws
      obtain ⟨-, rfl⟩ := Prod.mk.inj (List.mem_singleton.1 hv)
      exact ⟨[], rfl⟩

/-- The second state has no entry of the offset. -/
def exposureOnce : List (State ℚ) := [[("off", .ofReals [])], []]

theorem exposureOnce_has {x : String} {v : Value ℚ} (h : ∀ k < 2,
    (scopeIn? (exposureTask exposureOnce text keywords) k).map (·.get? x) = .ok (some v)) :
    (exposureTask exposureOnce text keywords).Has .given (.name x) v := by
  intro k hk scope hscope
  have hget := h k hk
  rw [hscope, Except.map, Except.ok.injEq] at hget
  exact .liftError (by rw [Scope.lookup, hget])

end Exposure

theorem exposure_answers :
    ((evaluate (exposureTask exposureOnce "off_eval(x)" []) (some .given) (.int 0)).outcome
      (.ofCycle [])).1 = .ok (columns .auto 2 [1, 2]) ∧
    ((evaluate (exposureTask exposureOnce "off_eval(x, weights=w)" [(some "weights", .name "w")])
      (some .given) (.int 0)).outcome (.ofCycle [])).1 = .ok (columns .auto 2 [3, 8]) := by
  have hone : Value.realToWord .int64 (Scalar.one : ℚ) = 1 := by decide +kernel
  have hoffers {text : String} {keywords : List (Option String × Expr)} :
      (exposureTask exposureOnce text keywords).Offers exposure :=
    exposure_offers (by simp [exposureOnce])
  have hx {text : String} {keywords : List (Option String × Expr)} :
      (exposureTask exposureOnce text keywords).Has .given (.name "x") (.ofReals [1, 2]) :=
    exposureOnce_has fun
      | 0, _ => rfl
      | 1, _ => rfl
  have hw {text : String} {keywords : List (Option String × Expr)} :
      (exposureTask exposureOnce text keywords).Has .given (.name "w") (.ofReals [3, 4]) :=
    exposureOnce_has fun
      | 0, _ => rfl
      | 1, _ => rfl
  have hnumbers : (Value.ofReals [1, 2] : Value ℚ).IsNumbers [1, 2] := ⟨.double, _, rfl, rfl⟩
  constructor
  · exact ((offset_answers hone hoffers rfl rfl rfl rfl hnumbers hx).1 (by decide)).1 _ rfl
  · have hproduct : List.zipWith (· * ·) [(1 : ℚ), 2] [3, 4] = [3, 8] := by decide +kernel
    rw [← hproduct]
    exact ((offset_answers hone hoffers rfl rfl rfl rfl hnumbers hx).1 (by decide)).2
      _ _ _ [3, 4] rfl hw nofun (vector_ofReals _) rfl

/-- Without an entry in the first state the evaluator is refused. -/
theorem offset_refused : exposure.label = "off" ∧ exposure.role = .offset ∧
    ((evaluate (exposureTask [[]] "off_eval(x)" []) (some .given) (.int 0)).outcome (.ofCycle [])).1 =
      .error (.unbound "off_eval") :=
  ⟨rfl, rfl, by with_unfolding_all rfl⟩

end Predictor

end AdditiveModel
