import AdditiveModel.Proofs.Columns
import AdditiveModel.Proofs.Effects
import AdditiveModel.Proofs.Generators
import AdditiveModel.Real.Instance

/-! How the evaluation of a predictor ends. Everything that can go wrong with the expression is an
evaluation error, and so is a value that has no place in a matrix. One failure is left: a value with an
integer that is too large for a real number. -/

namespace AdditiveModel.Predictor

open Run

variable {F : Type}

/-- Generators are made from every natural number and a one. -/
def TakesNaturals (source : Source F) : Prop :=
  ∀ n : Nat, source.refusal (.list [.int n, .int 1]) = none

variable [Scalar F]

/-- The generator for unknown levels is given or made from a natural number. -/
theorem exists_generator {given : Option Generator} {seed : Value F}
    (h : given.isSome ∨ ∃ n : Nat, seed = .int n) {source : Source F} (hsource : TakesNaturals source) :
    ∃ generator s, outcome (generatorFor given seed) source = (.ok generator, s) := by
  cases given with
  | some g => exact ⟨g, source, rfl⟩
  | none =>
    obtain ⟨n, rfl⟩ := h.resolve_left nofun
    simp only [generatorFor, Value.compare_int, lift, pure_bind]
    split
    · exact ⟨_, _, by rw [Source.outcome_fromSeed, hsource n]⟩
    · exact ⟨_, _, rfl⟩

/-- A state is bound where its entries are arrays and it has effects, if there are any. -/
theorem bindings_of_arrays {t : Task F} {k : Nat} {state : State F}
    (hentries : ∀ entry ∈ state, ∃ g, Grid.ofValue entry.2 = .ok g)
    (heffects : ∀ effects, t.effects = some effects → k < effects.length) :
    ∃ ws, bindings? t k state = .ok ws := by
  obtain ⟨entries, hbound⟩ : ∃ entries, entries? t.components state = .ok entries := by
    refine exists_mapM fun (name, v) hentry => ?_
    obtain ⟨g, hg⟩ := hentries _ hentry
    exact ⟨(boundName t.components name, Value.ofGrid g), by simp only [hg]; rfl⟩
  obtain ⟨effects, hk⟩ : ∃ effects, effectsAt? t.effects k = .ok effects := by
    unfold effectsAt?
    cases hsome : t.effects with
    | none => exact ⟨[], rfl⟩
    | some effects =>
      have hlt := heffects effects hsome
      exact ⟨effects[k], by simp only [List.getElem?_eq_getElem hlt]⟩
  exact ⟨entries ++ effects, by rw [bindings?, hbound]; simp [hk, bind, Except.bind, pure, Except.pure]⟩

/-- What the evaluation needs before it looks at the predictor: a known format, states whose entries are
arrays, no data or named fields, effects for each state if for any, an expression, and a generator or a
natural number to make one from. -/
structure Task.WellFormed (t : Task F) (given : Option Generator) (seed : Value F) (format : Format) :
    Prop where
  format : Format.ofValue? t.format = .ok format
  nonempty : t.states ≠ []
  entries : ∀ state ∈ t.states, ∀ entry ∈ state, ∃ g, Grid.ofValue entry.2 = .ok g
  data : t.data = .null ∨ ∃ fields, t.data = .dict fields
  effects : ∀ effects, t.effects = some effects → effects.length = t.states.length
  predictor : ∃ e, Expression.ofValue t.predictor = .ok e
  generator : given.isSome ∨ ∃ n : Nat, seed = .int n

namespace Task.WellFormed

variable {t : Task F} {given : Option Generator} {seed : Value F} {format : Format}
  (h : t.WellFormed given seed format)

include h

theorem exists_starts {source : Source F} (hsource : TakesNaturals source) :
    ∃ e generator base c, t.Starts given seed source format e generator base c := by
  obtain ⟨e, he⟩ := h.predictor
  obtain ⟨generator, s, hgenerator⟩ := exists_generator h.generator hsource
  obtain ⟨first, rest, hstates⟩ := List.exists_cons_of_ne_nil h.nonempty
  obtain ⟨data, hdata⟩ : ∃ data, Data.scope? t.data = .ok data := by
    rcases h.data with hnull | ⟨fields, hfields⟩
    · exact ⟨_, by rw [hnull]; rfl⟩
    · exact ⟨_, by rw [hfields]; rfl⟩
  obtain ⟨base, hbase⟩ := exists_baseScope t.components first hdata
  exact ⟨e, generator, base, _, h.format, he, ⟨s, hgenerator, rfl⟩, first, rest, hstates, hbase⟩

theorem exists_bound (k : Nat) : ∃ ws, boundBefore? t k = .ok ws := by
  refine exists_boundBefore (fun k state hk => ?_) k
  refine bindings_of_arrays (h.entries state (List.mem_of_getElem? hk)) fun effects heffects => ?_
  rw [h.effects effects heffects]
  exact (List.getElem?_eq_some_iff.1 hk).1

theorem category_valueIn {e : Expression} {generator : Generator} {base : Scope F} {k : Nat}
    {c c' : Context F} {err : Error}
    (herr : outcome (valueIn t e generator base k) c = (.error err, c')) : err.category = .evaluation := by
  obtain ⟨ws, hws⟩ := h.exists_bound (k + 1)
  simp only [valueIn, hws, lift, outcome_bind, outcome_change, outcome_pure] at herr
  exact category_of_evaluateWith herr

end Task.WellFormed

/-- One item, or one column, for each of `n` states. -/
def PerState (n : Nat) (r : Value F) : Prop :=
  (∃ items, r = .list items ∧ items.length = n) ∨
    ∃ rows columns labels, IsMatrix rows columns labels r ∧ columns.length = n

/-- The evaluation ends with a result for every state, with an evaluation error, or where the matrix
gets a value with an integer that is too large for a real number. -/
theorem evaluate_ends {t : Task F} {given : Option Generator} {seed : Value F} {format : Format}
    (h : t.WellFormed given seed format) {source : Source F} (hsource : TakesNaturals source) :
    (∃ r s, outcome (evaluate t given seed) source = (.ok r, s) ∧ PerState t.states.length r) ∨
    ∃ err s, outcome (evaluate t given seed) source = (.error err, s) ∧
      (err.category = .evaluation ∨
        err = .fault .overflow ∧ format ≠ .list ∧
          ∃ vs v, t.Takes given seed source (vs ++ [v]) ∧ v.vector? = .error .overflow) := by
  obtain ⟨e, generator, base, c, hstarts⟩ := h.exists_starts hsource
  rcases hstarts.cases with ⟨vs, v, ws, c', hvs, -, hlength, hpass, hrun⟩ |
    ⟨k, hk, us, r, err, c', hus, -, hrun, hstep⟩
  · refine .inl ⟨_, _, hrun, ?_⟩
    have hn : vs.length = t.states.length := (range_steps hvs).1
    cases hlayout : Layout.ofFirst format v with
    | list => exact .inl ⟨ws, rfl, hlength.trans hn⟩
    | matrix rows index =>
      rw [hlayout] at hpass
      obtain ⟨columns, hfill, hr⟩ := placed_isMatrix hlength hpass
      exact .inr ⟨rows, columns, index, hr, hfill.length_eq.symm.trans hn⟩
  · refine .inr ⟨err, _, hrun, ?_⟩
    rcases hstep with hfails | ⟨u, v, hu, -, hadmit⟩
    · exact .inl (h.category_valueIn hfails)
    cases hlayout : Layout.ofFirst format v with
    | list =>
      rw [hlayout] at hadmit
      cases hadmit
    | matrix rows index =>
      rw [hlayout] at hadmit
      refine (admit_error hadmit).imp_right fun ⟨hoverflow, herr⟩ => ⟨herr, ?_, us, u, ?_, hoverflow⟩
      · rintro rfl
        cases hlayout
      · have hr : r = after (valueIn t e generator base) c k := (range_steps hus).2.1
        have hn : (us ++ [u]).length = k + 1 := by simp [(range_steps hus).1]
        refine ⟨format, e, generator, base, c, c', hstarts, by omega, ?_⟩
        rw [hn]
        exact range_succ_eq_ok.2 ⟨us, u, rfl, hr ▸ hus, hr ▸ hu⟩

theorem latentPair_wellFormed (xs ys : List ℚ) :
    (latentPair xs ys).WellFormed (some .given) (.int 0) .auto where
  format := rfl
  nonempty := List.cons_ne_nil _ _
  entries state hstate entry hentry := by
    simp only [latentPair, latentTask, List.mem_cons, List.not_mem_nil, or_false] at hstate
    rcases hstate with rfl | rfl
    · obtain rfl := List.mem_singleton.1 hentry
      exact ⟨_, rfl⟩
    · obtain rfl := List.mem_singleton.1 hentry
      exact ⟨_, rfl⟩
  data := .inr ⟨[], rfl⟩
  effects := nofun
  predictor := ⟨_, rfl⟩
  generator := .inl rfl

theorem latentPair_ends : ∃ r s,
    outcome (evaluate (latentPair [1, 2] [3, 4]) (some .given) (.int 0)) (.ofCycle []) = (.ok r, s) ∧
      PerState 2 r := by
  have hrun : (outcome (evaluate (latentPair [1, 2] [3, 4]) (some .given) (.int 0)) (.ofCycle [])).1 =
      .ok (.array .double [2, 2] [.float 1, .float 3, .float 2, .float 4]) := by
    with_unfolding_all rfl
  refine (evaluate_ends (latentPair_wellFormed [1, 2] [3, 4]) fun _ => rfl).resolve_right ?_
  rintro ⟨err, s, herr, -⟩
  rw [herr] at hrun
  cases hrun

/-- The value of the predictor is an integer that no real number is near to. -/
def powerTask : Task Float where
  components := ⟨[Effects.plainComponent "x" (.component (.linear 1) 1 1)]⟩
  data := .null
  states := [[("x", .ofReals [1])]]
  effects := none
  predictor := .str "10 ** 400"
  format := .str "matrix"

theorem powerTask_overflows : powerTask.WellFormed none (.int 0) .matrix ∧
    (outcome (evaluate powerTask none (.int 0)) (.ofCycle [])).1 = .error (.fault .overflow) ∧
    Error.category (.fault .overflow) ≠ .evaluation := by
  refine ⟨⟨rfl, List.cons_ne_nil _ _, ?_, .inl rfl, nofun, exists_of_isSome (by decide +kernel),
    .inr ⟨0, rfl⟩⟩, by decide +kernel, by decide⟩
  rintro state hstate entry hentry
  obtain rfl := List.mem_singleton.1 hstate
  obtain rfl := List.mem_singleton.1 hentry
  exact ⟨_, rfl⟩

end AdditiveModel.Predictor
