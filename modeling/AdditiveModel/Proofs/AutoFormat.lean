import AdditiveModel.Proofs.Totality

/-! The automatic format. Whether it asks for a matrix is seen from the type and the shape of the value, and
whether there is a matrix from its elements: a single column is lost exactly when one of its elements is no
real number. -/

namespace AdditiveModel

variable {F : Type} [Scalar F]

namespace Value

/-- The elements of a number or a single column, with their kind. -/
def elements : Value F → Kind × List (Value F)
  | cell kind e => (kind, [e])
  | array kind _ cells | series _ kind cells | table _ [(_, kind, cells)] => (kind, cells)
  | v => (.any, [v])

/-- All elements of a number or a single column are real numbers. -/
def Numeric (v : Value F) : Prop := ∀ e ∈ v.elements.2, ∃ x, Grid.cellToReal? v.elements.1 e = .ok x

/-- A table of one column keeps the elements of the column, texts among mixed values. -/
theorem tableGrid_column {n : Nat} (name : String) (kind : Kind) {cells : List (Value F)}
    (h : cells.length = n) :
    tableGrid n [(name, kind, cells)] = .ok ⟨tableKind [kind], [n, 1], cells⟩ := by
  have hcast : castAll? kind (tableKind [kind]) cells = .ok cells := by
    have hany : cells.mapM (cast? .any) = .ok cells := by
      simpa using mapM_eq_ok_map (g := id) fun v _ => (rfl : cast? .any v = .ok v)
    cases kind with
    | text => exact hany
    | _ => rfl
  have hgather : Grid.gather cells (Shape.offsets [(n, 1), (1, n)]) = cells := by
    subst h
    apply List.ext_getElem
    · simp [Grid.gather, Shape.offsets_length]
    · intro i _ hi
      simp [Grid.gather, Shape.offsets, Array.getD_eq_getD_getElem?, hi]
  simp [tableGrid, hcast, Grid.transpose, Shape.strides, Shape.count, hgather]

omit [Scalar F] in
theorem map_snd {α : Type} (shape : α) (x : Except Fault (List F)) :
    (x.map fun xs => (shape, xs)).map (·.2) = x := by
  cases x <;> rfl

/-- A number or a single column is read element by element, one for each row. -/
theorem vector_of_isColumn {v : Value F} (hcolumn : Predictor.isColumn v = true) (hshaped : v.Shaped) :
    v.vector? = v.elements.2.mapM (Grid.cellToReal? v.elements.1) ∧ v.elements.2.length = v.rows := by
  have hsingle (kind : Kind) (e : Value F) :
      ((Grid.cellToReal? kind e).map fun x => (([] : List Nat), [x])).map (·.2) =
        [e].mapM (Grid.cellToReal? kind) := by
    rw [List.mapM_cons]
    cases Grid.cellToReal? kind e <;> rfl
  cases v with
  | series index kind cells => exact ⟨map_snd _ _, hshaped⟩
  | table index columns =>
    obtain ⟨⟨name, kind, cells⟩, rfl⟩ := List.length_eq_one_iff.1 (eq_of_beq hcolumn)
    have hlength : cells.length = index.length := hshaped _ (List.mem_singleton_self _)
    refine ⟨?_, hlength⟩
    have hkind : Grid.cellToReal? (F := F) (tableKind [kind]) = Grid.cellToReal? kind := by
      funext e
      cases kind <;> rfl
    have hreals : Grid.realsOfValue (table index [(name, kind, cells)]) =
        (cells.mapM (Grid.cellToReal? kind)).map fun xs => ([index.length, 1], xs) := by
      simp only [Grid.realsOfValue, tableGrid_column name kind hlength, bind, Except.bind, hkind]
      cases cells.mapM (Grid.cellToReal? kind) <;> rfl
    rw [vector?, hreals, map_snd]
    · rfl
    · intro _ _ _ h
      cases h
  | array kind shape cells =>
    refine ⟨map_snd _ _, ?_⟩
    have hcount : cells.length = Shape.count shape := hshaped
    have hshape := (Bool.and_eq_true_iff.1 hcolumn).2
    split at hshape
    · exact hcount
    · simpa [elements, rows] using hcount
    · simpa [elements, rows] using hcount
    · cases hshape
  | cell kind e => exact ⟨hsingle kind e, rfl⟩
  | bool b => exact ⟨hsingle .any (bool b), rfl⟩
  | int n => exact ⟨hsingle .any (int n), rfl⟩
  | float x => exact ⟨hsingle .any (float x), rfl⟩
  | _ => cases hcolumn

/-- A truth value, a missing value, a real number or an integer within the range of real numbers. -/
def IsReal : Value F → Prop
  | null | bool _ | float _ => True
  | int n => Scalar.isFinite (Scalar.ofInt n : F) = true
  | _ => False

theorem numeric_of_isReal {v : Value F} (h : ∀ e ∈ v.elements.2, e.IsReal) : v.Numeric := by
  intro e he
  have hread {e : Value F} (hne : ∀ re im, e ≠ complex re im) :
      Grid.cellToReal? v.elements.1 e = e.elementToReal? := by
    unfold Grid.cellToReal?
    split
    · exact absurd rfl (hne _ _)
    · rfl
  have hreal := h e he
  cases e with
  | null | bool _ | float _ => exact ⟨_, hread (by simp)⟩
  | int n =>
    refine ⟨Scalar.ofInt n, (hread (by simp)).trans ?_⟩
    exact if_pos hreal
  | _ => exact hreal.elim

end Value

namespace Predictor

open Run

/-- A single column fills the matrix unless one of its elements is no real number. -/
theorem exists_fills {v : Value F} (hcolumn : isColumn v = true) (hshaped : v.Shaped) :
    (∃ column, Fills v.rows v column) ↔ v.Numeric := by
  obtain ⟨hvector, hlength⟩ := Value.vector_of_isColumn hcolumn hshaped
  constructor
  · rintro ⟨-, xs, hxs, -⟩ e he
    rw [hvector, mapM_eq_ok] at hxs
    obtain ⟨x, -, hx⟩ := forall₂_mem hxs.flip he
    exact ⟨x, hx⟩
  · intro hnumeric
    obtain ⟨xs, hxs⟩ := exists_mapM hnumeric
    exact ⟨xs, xs, hvector.trans hxs, .inl ⟨(mapM_length hxs).trans hlength, rfl⟩⟩

def valueOf (t : Task F) (given : Option Generator) (seed : Value F) (state : State F) :
    Run (Source F) (Value F) := do
  let e ← liftError (Expression.ofValue t.predictor)
  let generator ← generatorFor given seed
  let scope ← liftError (baseScope? t.components t.data state)
  Context.fresh do return (← evaluateState t e generator 0 scope state).1

/-- The result is made of the value alone, in the layout that it decides on. -/
theorem outcome_evaluate_one {t : Task F} {format : Format} {state : State F}
    (hformat : Format.ofValue? t.format = .ok format) (hstates : t.states = [state])
    (given : Option Generator) (seed : Value F) (source : Source F) :
    outcome (evaluate t given seed) source = match outcome (valueOf t given seed state) source with
      | (.ok v, s) => (((Layout.ofFirst format v).admit? 0 v).map fun w =>
        (Layout.ofFirst format v).collect [w], s)
      | (.error err, s) => (.error err, s) := by
  unfold evaluate valueOf
  simp only [hformat, hstates, outcome_bind, outcome_liftError]
  cases Expression.ofValue t.predictor with
  | error err => rfl
  | ok e =>
    rcases hgenerator : outcome (generatorFor given seed) source with ⟨err | generator, s⟩
    · simp only [hgenerator]
    cases baseScope? t.components t.data state with
    | error err => simp only [hgenerator]
    | ok base =>
      simp only [hgenerator, Context.outcome_fresh, outcome_bind]
      rcases outcome (evaluateState t e generator 0 base state) (.start s) with ⟨err | ⟨v, scope⟩, c⟩
      · rfl
      simp only [outcome_liftError, outcome_pure, evaluateRest]
      cases (Layout.ofFirst format v).admit? 0 v <;> rfl

/-- The automatic format has the result that the list has: the same list where the value is no single
column, and else the matrix of its column. It is refused only where the column has an element that is no
real number. -/
theorem auto_keeps_numbers {t : Task F} {state : State F} {given : Option Generator} {seed r : Value F}
    {source s : Source F} (hauto : Format.ofValue? t.format = .ok .auto) (hstates : t.states = [state])
    (hlist : outcome (evaluate { t with format := .str "list" } given seed) source = (.ok r, s)) :
    ∃ v, r = .list [v] ∧
      (isColumn v = false → outcome (evaluate t given seed) source = (.ok r, s)) ∧
      (isColumn v = true →
        (∀ column, Fills v.rows v column → ∃ m, outcome (evaluate t given seed) source = (.ok m, s) ∧
          IsMatrix v.rows [column] (rowLabels v) m) ∧
        ((∀ column, ¬ Fills v.rows v column) →
          ∃ err, outcome (evaluate t given seed) source = (.error err, s) ∧
            (err.category = .evaluation ∨ v.vector? = .error .overflow ∧ err = .fault .overflow)) ∧
        (v.Shaped → ((∃ column, Fills v.rows v column) ↔ v.Numeric)) ∧
        ((∀ e ∈ v.elements.2, e.IsReal) → v.Numeric)) := by
  have hsame : valueOf { t with format := .str "list" } given seed state = valueOf t given seed state := rfl
  have hformat : Format.ofValue? ({ t with format := .str "list" } : Task F).format = .ok .list := rfl
  rw [outcome_evaluate_one hformat hstates, hsame] at hlist
  rw [outcome_evaluate_one hauto hstates]
  rcases hvalue : outcome (valueOf t given seed state) source with ⟨err | v, s'⟩
  · rw [hvalue] at hlist
    cases hlist
  rw [hvalue] at hlist
  obtain ⟨rfl, rfl⟩ : Value.list [v] = r ∧ s' = s := by
    simpa [Layout.ofFirst, Layout.admit?, Layout.collect, Except.map] using hlist
  refine ⟨v, rfl, fun hcolumn => ?_, fun hcolumn => ?_⟩
  · have hlayout : Layout.ofFirst .auto v = .list := by simp [Layout.ofFirst, hcolumn]
    simp only [hlayout]
    rfl
  have hlayout : Layout.ofFirst .auto v = .matrix v.rows (rowLabels v) :=
    ofFirst_eq_matrix.2 ⟨.inr ⟨rfl, hcolumn⟩, rfl, rfl⟩
  simp only [hlayout]
  refine ⟨fun column hfill => ?_, fun hlost => ?_, exists_fills hcolumn, Value.numeric_of_isReal⟩
  · have hplaced : (Layout.matrix v.rows (rowLabels v)).admit? 0 v = .ok (.ofReals column) := by
      simp only [Layout.admit?, fit_column.2 hfill]
    have hlength : ∀ c ∈ [column], c.length = v.rows := by simpa using hfill.length
    rw [hplaced]
    exact ⟨_, rfl, collect_isMatrix hlength (rowLabels v)⟩
  · cases hplaced : (Layout.matrix v.rows (rowLabels v)).admit? 0 v with
    | error err => exact ⟨err, rfl, admit_error hplaced⟩
    | ok w =>
      obtain ⟨column, hfill, -⟩ := admit_eq_ok hplaced
      exact absurd hfill (hlost column)

def latentColumn (xs : List ℚ) : Task ℚ :=
  { latentTask [[("site", .ofReals xs)]] with format := .null }

/-- A latent vector is kept as the column of a matrix. -/
theorem latentColumn_kept :
    (∃ s, outcome (evaluate { latentColumn [1, 2] with format := .str "list" } (some .given) (.int 0))
      (.ofCycle []) = (.ok (.list [.ofReals [1, 2]]), s)) ∧
    ∃ m s, outcome (evaluate (latentColumn [1, 2]) (some .given) (.int 0)) (.ofCycle []) = (.ok m, s) ∧
      IsMatrix 2 [[1, 2]] none m := by
  have hlist : outcome (evaluate { latentColumn [1, 2] with format := .str "list" } (some .given) (.int 0))
      (.ofCycle []) = (.ok (.list [.ofReals [1, 2]]), _) := Prod.ext (by with_unfolding_all rfl) rfl
  refine ⟨⟨_, hlist⟩, ?_⟩
  obtain ⟨v, hv, -, hcolumn⟩ := auto_keeps_numbers rfl rfl hlist
  obtain rfl : Value.ofReals [1, 2] = v := by simpa using hv
  obtain ⟨m, hm, hmatrix⟩ := (hcolumn rfl).1 [1, 2] ⟨[1, 2], vector_ofReals _, .inl ⟨rfl, rfl⟩⟩
  exact ⟨m, _, hm, hmatrix⟩

/-- A labelled column of texts is the value of the predictor. -/
def textColumn : Task ℚ where
  components := ⟨[Evaluator.site]⟩
  data := .table [.int 0, .int 1] [("z", .any, [.str "", .str "b"])]
  states := [[("site", .ofReals [1])]]
  effects := none
  predictor := .expression ⟨"_data_['z']", .subscript (.name "_data_") (.literal (.str "z"))⟩
  format := .null

/-- The list has the texts, and the automatic format has no result. -/
theorem textColumn_lost :
    (outcome (evaluate { textColumn with format := .str "list" } (some .given) (.int 0)) (.ofCycle [])).1 =
      .ok (.list [.series [.int 0, .int 1] .any [.str "", .str "b"]]) ∧
    (outcome (evaluate textColumn (some .given) (.int 0)) (.ofCycle [])).1 =
      .error (.misfit 0 2 (.fault .value)) := by
  let column : Value ℚ := .series [.int 0, .int 1] .any [.str "", .str "b"]
  have hstates : textColumn.states = [[("site", .ofReals [1])]] := rfl
  have hvalue : outcome (valueOf textColumn (some .given) (.int 0) [("site", .ofReals [1])]) (.ofCycle []) =
      (.ok column, _) := Prod.ext (by with_unfolding_all rfl) rfl
  constructor
  · have hsame : valueOf { textColumn with format := .str "list" } = valueOf textColumn := rfl
    have hformat : Format.ofValue? ({ textColumn with format := .str "list" } : Task ℚ).format =
        .ok .list := rfl
    simp only [outcome_evaluate_one hformat hstates, hsame, hvalue]
    rfl
  · have htext : Text.Numeral.ofText? "" = none := by decide +kernel
    have hvector : column.vector? = .error .value := by
      simp [column, Value.vector?, Grid.realsOfValue, Grid.cellToReal?, Value.elementToReal?, Value.toReal?,
        Value.textToReal?, htext, bind, Except.bind, Except.map]
    have hauto : Format.ofValue? textColumn.format = .ok .auto := rfl
    have hplaced : (Layout.ofFirst .auto column).admit? 0 column = .error (.misfit 0 2 (.fault .value)) := by
      have hlayout : Layout.ofFirst .auto column = .matrix 2 (some [.int 0, .int 1]) := rfl
      simp only [hlayout, Layout.admit?, hvector, bind, Except.bind]
    simp only [outcome_evaluate_one hauto hstates, hvalue, hplaced, Except.map]

end Predictor

end AdditiveModel
