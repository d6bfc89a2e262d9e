import AdditiveModel.Proofs.Accumulation
import AdditiveModel.Proofs.Conversion

/-! The values of a predictor in their places. The first value decides on the form of the result and, of
a matrix, on the number of rows. Each value then becomes a column when it has an entry for every row; a
single entry is repeated, and any other number of entries is refused. -/

namespace AdditiveModel.Predictor

open Run

variable {F : Type} [Scalar F]

/-- The column of a value among `rows` rows: its entries if there are as many, and otherwise its only
entry in every row. -/
def Fills (rows : Nat) (v : Value F) (column : List F) : Prop :=
  ∃ xs, v.vector? = .ok xs ∧
    (xs.length = rows ∧ column = xs ∨ ∃ x, xs = [x] ∧ column = List.replicate rows x)

/-- A matrix of real numbers with the given columns: row by row, or by columns where the rows have
labels. -/
inductive IsMatrix (rows : Nat) (columns : List (List F)) : Option (List (Value F)) → Value F → Prop
  | array {cells : List (Value F)} : cells.length = rows * columns.length →
    (∀ i k column x, columns[k]? = some column → column[i]? = some x →
      cells[i * columns.length + k]? = some (.float x)) →
    IsMatrix rows columns none (.array .double [rows, columns.length] cells)
  | table (labels : List (Value F)) : IsMatrix rows columns (some labels)
    (.table labels (columns.zipIdx.map fun (column, k) => (toString k, .double, column.map .float)))

theorem Fills.length {rows : Nat} {v : Value F} {column : List F} (h : Fills rows v column) :
    column.length = rows := by
  obtain ⟨xs, -, ⟨hlength, rfl⟩ | ⟨x, -, rfl⟩⟩ := h
  · exact hlength
  · exact List.length_replicate

theorem fit_column {rows : Nat} {v : Value F} {column : List F} :
    (v.vector? >>= Mapper.fit? rows) = .ok column ↔ Fills rows v column := by
  rw [bind_eq_ok]
  refine exists_congr fun xs => and_congr_right fun _ => ?_
  rw [Mapper.fit_eq_ok]
  constructor
  · rintro (⟨hlength, rfl⟩ | ⟨-, x, rfl, rfl⟩)
    · exact .inl ⟨hlength, rfl⟩
    · exact .inr ⟨x, rfl, rfl⟩
  · rintro (⟨hlength, rfl⟩ | ⟨x, rfl, rfl⟩)
    · exact .inl ⟨hlength, rfl⟩
    · by_cases hrows : rows = 1
      · subst hrows
        exact .inl ⟨rfl, rfl⟩
      · exact .inr ⟨hrows, x, rfl, rfl⟩

theorem admit_eq_ok {rows k : Nat} {index : Option (List (Value F))} {v w : Value F}
    (h : (Layout.matrix rows index).admit? k v = .ok w) :
    ∃ column, Fills rows v column ∧ .ofReals column = w := by
  rw [Layout.admit?] at h
  split at h
  · rename_i column hcolumn
    exact ⟨column, fit_column.1 hcolumn, Except.ok.inj h⟩
  all_goals cases h

theorem admit_misfit {rows k : Nat} {index : Option (List (Value F))} {v : Value F} {xs : List F}
    (hxs : v.vector? = .ok xs) (hrows : xs.length ≠ rows) (hone : xs.length ≠ 1) :
    (Layout.matrix rows index).admit? k v = .error (.misfit k rows (.fault .value)) := by
  have hfit : Mapper.fit? rows xs = .error .value := by
    unfold Mapper.fit?
    rw [if_neg (by simpa using hrows)]
    split
    · exact absurd rfl hone
    · rfl
  simp only [Layout.admit?, hxs, bind, Except.bind, hfit]

/-- A value that is refused gives an evaluation error, unless one of its integers is too large. -/
theorem admit_error {rows k : Nat} {index : Option (List (Value F))} {v : Value F} {err : Error}
    (h : (Layout.matrix rows index).admit? k v = .error err) :
    err.category = .evaluation ∨ v.vector? = .error .overflow ∧ err = .fault .overflow := by
  have hfit (xs : List F) : FailsOnly (· = Fault.value) (Mapper.fit? rows xs) := by
    refine .ite (.ok _) ?_
    split
    · exact .ok _
    · exact .error rfl
  rw [Layout.admit?] at h
  split at h
  · cases h
  · cases h
    exact .inl rfl
  · cases h
    exact .inl rfl
  · rename_i f htype hvalue hf
    cases h
    cases hv : v.vector? with
    | ok xs =>
      rw [hv] at hf
      exact absurd (hfit xs f hf) hvalue
    | error f' =>
      rw [hv] at hf
      obtain rfl : f' = f := Except.error.inj hf
      rcases v.vector_fails f' hv with rfl | rfl | rfl
      · exact absurd rfl htype
      · exact absurd rfl hvalue
      · exact .inr ⟨rfl, rfl⟩

omit [Scalar F] in
theorem collect_isMatrix {rows : Nat} {columns : List (List F)}
    (h : ∀ column ∈ columns, column.length = rows) (index : Option (List (Value F))) :
    IsMatrix rows columns index ((Layout.matrix rows index).collect (columns.map .ofReals)) := by
  cases index with
  | some labels =>
    have hcolumns : (Layout.matrix rows (some labels)).collect (columns.map .ofReals) =
        .table labels (columns.zipIdx.map fun (column, k) =>
          (toString k, .double, column.map .float)) := by
      simp only [Layout.collect, List.zipIdx_map, List.map_map]
      rfl
    rw [hcolumns]
    exact .table labels
  | none =>
    have hcells : (Layout.matrix rows none).collect (columns.map .ofReals) =
        .array .double [rows, columns.length] ((List.range rows).flatMap fun i =>
          columns.map fun column => (column.map Value.float).toArray.getD i .null) := by
      simp only [Layout.collect, List.map_map, List.length_map]
      rfl
    rw [hcells]
    refine .array (length_flatMap_range (fun _ => List.length_map _) rows) ?_
    intro i k column x hcolumn hx
    obtain ⟨hk, -⟩ := List.getElem?_eq_some_iff.1 hcolumn
    have hi : i < rows := by
      rw [← h column (List.mem_of_getElem? hcolumn)]
      exact (List.getElem?_eq_some_iff.1 hx).1
    rw [getElem?_flatMap_range (fun _ => List.length_map _) hi hk]
    simp [hcolumn, Array.getD_eq_getD_getElem?, hx]

theorem placed_isMatrix {rows : Nat} {index : Option (List (Value F))} {vs ws : List (Value F)}
    (hlength : ws.length = vs.length)
    (hpass : ∀ k u, vs[k]? = some u →
      ∃ w, ws[k]? = some w ∧ (Layout.matrix rows index).admit? k u = .ok w) :
    ∃ columns, List.Forall₂ (Fills rows) vs columns ∧
      IsMatrix rows columns index ((Layout.matrix rows index).collect ws) := by
  have hcolumns : List.Forall₂ (fun u w => ∃ column, Fills rows u column ∧ .ofReals column = w) vs ws := by
    refine forall₂_of_getElem? hlength fun k u hu => ?_
    obtain ⟨w, hw, hadmit⟩ := hpass k u hu
    exact ⟨w, hw, admit_eq_ok hadmit⟩
  obtain ⟨columns, hfill, rfl⟩ := forall₂_exists.1 hcolumns
  refine ⟨columns, hfill, collect_isMatrix (fun column hcolumn => ?_) index⟩
  obtain ⟨u, -, hu⟩ := forall₂_mem hfill hcolumn
  exact hu.length

/-- What is settled before the first state: the format, the expression, the generator of unknown levels,
the scope and the context. -/
structure Task.Starts (t : Task F) (given : Option Generator) (seed : Value F) (source : Source F)
    (format : Format) (e : Expression) (generator : Generator) (base : Scope F) (c : Context F) :
    Prop where
  format : Format.ofValue? t.format = .ok format
  predictor : Expression.ofValue t.predictor = .ok e
  generator : ∃ source', outcome (generatorFor given seed) source = (.ok generator, source') ∧
    c = .start source'
  scope : ∃ first rest, t.states = first :: rest ∧ baseScope? t.components t.data first = .ok base

/-- The values that the predictor takes in the first states, each after the states before it. -/
def Task.Takes (t : Task F) (given : Option Generator) (seed : Value F) (source : Source F)
    (vs : List (Value F)) : Prop :=
  ∃ format e generator base c c', t.Starts given seed source format e generator base c ∧
    vs.length ≤ t.states.length ∧
    outcome ((List.range vs.length).mapM (valueIn t e generator base)) c = (.ok vs, c')

section Run

variable {t : Task F} {given : Option Generator} {seed : Value F} {source : Source F} {format : Format}
  {e : Expression} {generator : Generator} {base : Scope F} {c : Context F}

theorem exists_starts {r : Value F} {s : Source F}
    (h : outcome (evaluate t given seed) source = (.ok r, s)) :
    ∃ format e generator base c, t.Starts given seed source format e generator base c := by
  obtain ⟨format, _, hformat, h⟩ := Run.bind_eq_ok.1 h
  rw [outcome_liftError, Prod.mk.injEq] at hformat
  obtain ⟨hformat, rfl⟩ := hformat
  split at h
  · cases h
  rename_i first rest hstates
  obtain ⟨e, _, he, h⟩ := Run.bind_eq_ok.1 h
  rw [outcome_liftError, Prod.mk.injEq] at he
  obtain ⟨he, rfl⟩ := he
  obtain ⟨generator, source', hgenerator, h⟩ := Run.bind_eq_ok.1 h
  obtain ⟨base, _, hbase, h⟩ := Run.bind_eq_ok.1 h
  rw [outcome_liftError, Prod.mk.injEq] at hbase
  exact ⟨format, e, generator, base, _, hformat, he, ⟨source', hgenerator, rfl⟩, first, rest, hstates,
    hbase.1⟩

theorem Task.Starts.outcome_evaluate (h : t.Starts given seed source format e generator base c)
    {v : Value F} {c' : Context F}
    (hfirst : outcome (valueIn t e generator base 0) c = (.ok v, c')) :
    outcome (evaluate t given seed) source =
      match outcome ((List.range t.states.length).mapM (checked (valueIn t e generator base)
        (Layout.ofFirst format v).admit?)) c with
      | (.ok ws, d) => (.ok ((Layout.ofFirst format v).collect ws), d.source)
      | (.error err, d) => (.error err, d.source) := by
  obtain ⟨source', hgenerator, rfl⟩ := h.generator
  obtain ⟨first, rest, hstates, hbase⟩ := h.scope
  rw [evaluate_accumulated h.format hstates h.predictor hbase, outcome_bind, hgenerator, hstates,
    List.length_cons, List.range_eq_range', List.range'_succ, List.mapM_cons]
  have hplaced (layout : Layout F) : placedIn t e generator layout base =
      checked (valueIn t e generator base) layout.admit? := rfl
  simp only [Context.outcome_fresh, hplaced, outcome_bind, hfirst, outcome_liftError]
  rw [checked, outcome_bind, hfirst]
  simp only [outcome_liftError]
  cases (Layout.ofFirst format v).admit? 0 v with
  | error err => rfl
  | ok w =>
    simp only [Nat.zero_add]
    rcases outcome ((List.range' 1 rest.length).mapM (checked (valueIn t e generator base)
      (Layout.ofFirst format v).admit?)) c' with ⟨err | ws, d⟩
    · rfl
    · rfl

/-- Every state has a value in its place, or the first one without ends the evaluation. -/
theorem Task.Starts.cases (h : t.Starts given seed source format e generator base c) :
    (∃ vs v ws c', outcome ((List.range t.states.length).mapM (valueIn t e generator base)) c =
        (.ok vs, c') ∧ vs.head? = some v ∧ ws.length = vs.length ∧
      (∀ k u, vs[k]? = some u → ∃ w, ws[k]? = some w ∧ (Layout.ofFirst format v).admit? k u = .ok w) ∧
      outcome (evaluate t given seed) source =
        (.ok ((Layout.ofFirst format v).collect ws), c'.source)) ∨
    ∃ k < t.states.length, ∃ us r err c',
      outcome ((List.range k).mapM (valueIn t e generator base)) c = (.ok us, r) ∧
      (∀ v, us.head? = some v → ∀ j u, us[j]? = some u →
        ∃ w, (Layout.ofFirst format v).admit? j u = .ok w) ∧
      outcome (evaluate t given seed) source = (.error err, c'.source) ∧
      (outcome (valueIn t e generator base k) r = (.error err, c') ∨
        ∃ u v, outcome (valueIn t e generator base k) r = (.ok u, c') ∧
          (us ++ [u]).head? = some v ∧ (Layout.ofFirst format v).admit? k u = .error err) := by
  obtain ⟨first, rest, hstates, hbase⟩ := h.scope
  have hpos : t.states.length = rest.length + 1 := by rw [hstates, List.length_cons]
  rcases hfirst : outcome (valueIn t e generator base 0) c with ⟨err | v, c₁⟩
  · refine .inr ⟨0, by omega, [], c, err, c₁, rfl, nofun, ?_, .inl hfirst⟩
    obtain ⟨source', hgenerator, rfl⟩ := h.generator
    rw [evaluate_accumulated h.format hstates h.predictor hbase, outcome_bind, hgenerator]
    simp only [Context.outcome_fresh, outcome_bind, hfirst]
  have hevaluate := h.outcome_evaluate hfirst
  have hhead {n : Nat} {vs : List (Value F)} {d : Context F} {u : Value F}
      (hvs : outcome ((List.range n).mapM (valueIn t e generator base)) c = (.ok vs, d))
      (hu : vs[0]? = some u) : u = v := by
    have hone : outcome ((List.range 1).mapM (valueIn t e generator base)) c = (.ok [v], c₁) :=
      range_succ_eq_ok.2 ⟨[], v, rfl, rfl, hfirst⟩
    exact range_agree hvs hone hu rfl
  rcases range_checked (valueIn t e generator base) (Layout.ofFirst format v).admit? t.states.length c
    with ⟨vs, ws, c', hvs, hlength, hpass, hws⟩ | ⟨k, hk, us, r, err, c', hus, hpass, herr, hstep⟩
  · rw [hws] at hevaluate
    have hn : vs.length = rest.length + 1 := (range_steps hvs).1.trans hpos
    obtain ⟨u, us, rfl⟩ := List.exists_cons_of_length_eq_add_one hn
    exact .inl ⟨_, v, ws, c', hvs, by rw [hhead hvs rfl, List.head?_cons], hlength, hpass, hevaluate⟩
  · rw [herr] at hevaluate
    refine .inr ⟨k, hk, us, r, err, c', hus, fun u hu => ?_, hevaluate, hstep.imp_right ?_⟩
    · rw [List.head?_eq_getElem?] at hu
      rw [hhead hus hu]
      exact hpass
    · rintro ⟨u, hu, hrefused⟩
      have hr : r = after (valueIn t e generator base) c k := (range_steps hus).2.1
      have hsteps := range_succ_eq_ok.2 ⟨us, u, rfl, hr ▸ hus, hr ▸ hu⟩
      refine ⟨u, v, hu, ?_, hrefused⟩
      rw [List.head?_eq_getElem?]
      cases us with
      | nil => rw [hhead hsteps rfl]; rfl
      | cons u' us => rw [hhead hsteps rfl]; rfl

/-- Where one of the values so far has no place, the first such value ends the evaluation. -/
theorem Task.Starts.refused (h : t.Starts given seed source format e generator base c)
    {vs : List (Value F)} {v u : Value F} {c' : Context F} {j : Nat} {reason : Error}
    (hle : vs.length ≤ t.states.length)
    (hvs : outcome ((List.range vs.length).mapM (valueIn t e generator base)) c = (.ok vs, c'))
    (hhead : vs.head? = some v) (hj : vs[j]? = some u)
    (hu : (Layout.ofFirst format v).admit? j u = .error reason) :
    ∃ k w err s, vs[k]? = some w ∧ (Layout.ofFirst format v).admit? k w = .error err ∧
      outcome (evaluate t given seed) source = (.error err, s) := by
  obtain ⟨hjlt, -⟩ := List.getElem?_eq_some_iff.1 hj
  have hrefused : ¬ ∃ w, (Layout.ofFirst format v).admit? j u = .ok w := by
    rw [hu]
    rintro ⟨w, ⟨⟩⟩
  rw [List.head?_eq_getElem?] at hhead
  rcases h.cases with ⟨vs', v', ws, d, hvs', hhead', -, hpass, -⟩ |
    ⟨k, hk, us, r, err, d, hus, hpass, herr, hstep⟩
  · -- all states have a value in its place, also the one that has none
    rw [List.head?_eq_getElem?] at hhead'
    obtain rfl := range_agree hvs' hvs hhead' hhead
    have hlength : vs'.length = t.states.length := (range_steps hvs').1
    have hu' : vs'[j]? = some vs'[j] := List.getElem?_eq_getElem (by omega)
    obtain rfl := range_agree hvs' hvs hu' hj
    obtain ⟨w, -, hw⟩ := hpass j _ hu'
    exact absurd ⟨w, hw⟩ hrefused
  have hlength : us.length = k := (range_steps hus).1
  rcases Nat.lt_or_ge j k with hlt | hge
  · have hv' : us[0]? = some us[0] := List.getElem?_eq_getElem (by omega)
    have hu' : us[j]? = some us[j] := List.getElem?_eq_getElem (by omega)
    have hpass' := hpass us[0] (by rw [List.head?_eq_getElem?, hv']) j _ hu'
    rw [range_agree hus hvs hv' hhead, range_agree hus hvs hu' hj] at hpass'
    exact absurd hpass' hrefused
  · have hkth : vs[k]? = some vs[k] := List.getElem?_eq_getElem (Nat.lt_of_le_of_lt hge hjlt)
    have hvalue := (range_steps hvs).2.2 k _ hkth
    rw [← (range_steps hus).2.1] at hvalue
    rcases hstep with hfails | ⟨u', v', hu', hv', hadmit⟩
    · rw [hvalue] at hfails
      cases hfails
    rw [hvalue, Prod.mk.injEq, Except.ok.injEq] at hu'
    obtain ⟨rfl, rfl⟩ := hu'
    have hsame : v' = v := by
      cases us with
      | nil =>
        subst hlength
        exact Option.some_inj.1 (hv'.symm.trans (hkth.symm.trans hhead))
      | cons a us => exact range_agree hus hvs (k := 0) hv' hhead
    exact ⟨k, _, err, _, hkth, hsame ▸ hadmit, herr⟩

end Run

omit [Scalar F] in
theorem ofFirst_eq_matrix {format : Format} {v : Value F} {rows : Nat}
    {index : Option (List (Value F))} :
    Layout.ofFirst format v = .matrix rows index ↔
      (format = .matrix ∨ format = .auto ∧ isColumn v = true) ∧ v.rows = rows ∧ rowLabels v = index := by
  cases format with
  | auto => cases h : isColumn v <;> simp [Layout.ofFirst, h]
  | matrix => simp [Layout.ofFirst]
  | list => simp [Layout.ofFirst]

/-- A matrix has as many rows as its first value and a column for each state, which is filled by the
value in that state. Where a state has a value with neither an entry for each row nor a single one, the
predictor is refused, unless an integer before it was too large for a real number. -/
theorem matrix_columns (t : Task F) (given : Option Generator) (seed : Value F) (source : Source F) :
    (∀ r s, outcome (evaluate t given seed) source = (.ok r, s) → (∀ items, r ≠ .list items) →
      ∃ vs v columns, t.Takes given seed source vs ∧ vs.length = t.states.length ∧ vs.head? = some v ∧
        List.Forall₂ (Fills v.rows) vs columns ∧ IsMatrix v.rows columns (rowLabels v) r) ∧
    ∀ format vs v u xs, Format.ofValue? t.format = .ok format → t.Takes given seed source vs →
      vs.head? = some v → (format = .matrix ∨ format = .auto ∧ isColumn v = true) → u ∈ vs →
      u.vector? = .ok xs → xs.length ≠ v.rows → xs.length ≠ 1 →
      (∀ w ∈ vs, w.vector? ≠ .error .overflow) →
        ∃ err s, outcome (evaluate t given seed) source = (.error err, s) ∧
          err.category = .evaluation := by
  constructor
  · intro r s hrun hmatrix
    obtain ⟨format, e, generator, base, c, hstarts⟩ := exists_starts hrun
    rcases hstarts.cases with ⟨vs, v, ws, c', hvs, hhead, hlength, hpass, hr⟩ |
      ⟨k, hk, us, r', err, c', hus, -, herr, -⟩
    · have hn : vs.length = t.states.length := (range_steps hvs).1
      rw [hrun, Prod.mk.injEq, Except.ok.injEq] at hr
      obtain ⟨rfl, rfl⟩ := hr
      cases hlayout : Layout.ofFirst format v with
      | list => exact absurd (by rw [hlayout]; rfl) (hmatrix ws)
      | matrix rows index =>
        rw [hlayout] at hpass
        obtain ⟨-, rfl, rfl⟩ := ofFirst_eq_matrix.1 hlayout
        obtain ⟨columns, hfill, hr⟩ := placed_isMatrix hlength hpass
        refine ⟨vs, v, columns, ⟨format, e, generator, base, c, c', hstarts, Nat.le_of_eq hn, ?_⟩, hn,
          hhead, hfill, hr⟩
        rw [hn]
        exact hvs
    · rw [hrun] at herr
      cases herr
  · intro format vs v u xs hformat htakes hhead hmatrix hu hxs hrows hone hoverflow
    obtain ⟨format', e, generator, base, c, c', hstarts, hle, hvs⟩ := htakes
    obtain rfl : format' = format := Except.ok.inj (hstarts.format.symm.trans hformat)
    have hlayout : Layout.ofFirst format' v = .matrix v.rows (rowLabels v) :=
      ofFirst_eq_matrix.2 ⟨hmatrix, rfl, rfl⟩
    obtain ⟨j, hj⟩ := List.mem_iff_getElem?.1 hu
    obtain ⟨k, w, err, s, hw, hadmit, herr⟩ := hstarts.refused hle hvs hhead hj
      (by rw [hlayout, admit_misfit hxs hrows hone])
    refine ⟨err, s, herr, (admit_error (hlayout ▸ hadmit)).resolve_right fun h => ?_⟩
    exact hoverflow w (List.mem_of_getElem? hw) h.1

def latentPair (xs ys : List ℚ) : Task ℚ :=
  { latentTask [[("site", .ofReals xs)], [("site", .ofReals ys)]] with format := .null }

theorem latentPair_takes (xs ys : List ℚ) :
    (latentPair xs ys).Takes (some .given) (.int 0) (.ofCycle []) [.ofReals xs, .ofReals ys] :=
  ⟨.auto, _, .given, _, _, _,
    { format := rfl, predictor := rfl, generator := ⟨_, rfl, rfl⟩, scope := ⟨_, _, rfl, rfl⟩ },
    Nat.le_refl 2, Prod.ext (by with_unfolding_all rfl) rfl⟩

/-- Vectors of one length are the columns; a longer one is refused. -/
theorem latentPair_columns :
    (∃ vs v columns, (latentPair [1, 2] [3, 4]).Takes (some .given) (.int 0) (.ofCycle []) vs ∧
      vs.length = 2 ∧ vs.head? = some v ∧ List.Forall₂ (Fills v.rows) vs columns ∧
      IsMatrix v.rows columns (rowLabels v)
        (.array .double [2, 2] [.float 1, .float 3, .float 2, .float 4])) ∧
    ∃ err s, outcome (evaluate (latentPair [1, 2] [3, 4, 5]) (some .given) (.int 0)) (.ofCycle []) =
      (.error err, s) ∧ err.category = .evaluation := by
  constructor
  · exact (matrix_columns (latentPair [1, 2] [3, 4]) (some .given) (.int 0) (.ofCycle [])).1 _ _
      (Prod.ext (by with_unfolding_all rfl) rfl) (by simp)
  · refine (matrix_columns (latentPair [1, 2] [3, 4, 5]) (some .given) (.int 0) (.ofCycle [])).2 .auto _
      (.ofReals [1, 2]) (.ofReals [3, 4, 5]) _ rfl (latentPair_takes _ _) rfl (.inr ⟨rfl, rfl⟩)
      (by simp) (vector_ofReals _) (by decide) (by decide) ?_
    simp only [List.mem_cons, List.not_mem_nil, or_false]
    rintro _ (rfl | rfl) <;> simp [vector_ofReals]

/-- A vector with a single entry fills its column. -/
theorem latentPair_repeated :
    (latentPair [1, 2] [5]).Takes (some .given) (.int 0) (.ofCycle []) [.ofReals [1, 2], .ofReals [5]] ∧
      (Value.ofReals [(5 : ℚ)]).vector? = .ok [5] ∧
      (outcome (evaluate (latentPair [1, 2] [5]) (some .given) (.int 0)) (.ofCycle [])).1 =
        .ok (.array .double [2, 2] [.float 1, .float 5, .float 2, .float 5]) :=
  ⟨latentPair_takes _ _, vector_ofReals _, by with_unfolding_all rfl⟩

end AdditiveModel.Predictor
