import AdditiveModel.Mapper.Basic
import AdditiveModel.Proofs.Shape

/-! Main mappers read one row of the main input after the other: the values at several rows
are the values at each row alone, and they exist exactly when those do. -/

namespace AdditiveModel

variable {F : Type} [Scalar F]

theorem cellsToReals_float (xs : List F) :
    (xs.map Value.float).mapM (Grid.cellToReal? (F := F) .double) = .ok xs := by
  rw [mapM_eq_ok, List.forall₂_map_left_iff, List.forall₂_same]
  exact fun x _ => rfl

theorem realsOfValue_ofReals (xs : List F) :
    Grid.realsOfValue (Value.ofReals xs) = .ok ([xs.length], xs) := by
  simp [Value.ofReals, Value.ofGrid, Grid.ofFloats, Grid.vector, Grid.realsOfValue, cellsToReals_float,
    Except.map, -List.mapM_map]

theorem vector_ofReals (xs : List F) : (Value.ofReals xs).vector? = .ok xs := by
  have h : (Value.ofReals xs).vector? = (Grid.realsOfValue (Value.ofReals xs)).map (·.2) := rfl
  rw [h, realsOfValue_ofReals]
  rfl

namespace Mapper

theorem latent_ofReals {n : Int} {s t : List F} :
    latent? n (Value.ofReals s) = .ok t ↔ (s.length : Int) = n ∧ t = s := by
  have h : latent? n (Value.ofReals s) =
      (lift (Grid.realsOfValue (Value.ofReals s)) >>= fun r =>
        if (r.2.length : Int) == n then pure r.2 else throw (Error.stateLength r.2.length n)) := rfl
  rw [h, bind_eq_ok]
  simp only [lift_eq_ok, realsOfValue_ofReals]
  by_cases hn : (s.length : Int) = n
  · simpa [hn] using eq_comm
  · simp [hn]

theorem latent_length {n : Int} {state : Value F} {s : List F} (h : latent? n state = .ok s) :
    (s.length : Int) = n := by
  unfold latent? at h
  split at h
  · split at h
    · simp at h
    · cases h
      rw [List.length_replicate]
      omega
  · simp only [bind_eq_ok] at h
    obtain ⟨r, -, h⟩ := h
    split at h
    · rename_i hn
      cases h
      exact eq_of_beq hn
    · simp at h

/-- Mappers without blocks, linear in their latent vector. -/
inductive Elementary : Mapper F → Prop
  | linear (n : Int) : Elementary (linear n)
  | offset : Elementary offset
  | index (levels : List (Value F)) : Elementary (index levels)

/-- The effect of the level that an element selects; zero when it is no level. -/
def levelValue (levels : List (Value F)) (s : List F) (v : Value F) : F :=
  ((Levels.position? levels v.plain).map fun i => s.getD i Scalar.zero).getD Scalar.zero

theorem evaluate_linear {n : Int} {input : Input F} {s vs : List F} :
    (linear n).evaluate? (some input) (Value.ofReals s) = .ok vs ↔
      (s.length : Int) = n ∧ ∃ rows, Covariates.ofMain? n input.main = .ok rows ∧
        rows.map (Scalar.dot · s) = vs := by
  simp only [evaluate?, Covariates.evaluate?, required?, bind_eq_ok, latent_ofReals, pure_eq_ok,
    Except.ok.injEq, exists_eq_left']
  constructor
  · rintro ⟨t, ⟨hn, rfl⟩, h⟩
    exact ⟨hn, h⟩
  · rintro ⟨hn, h⟩
    exact ⟨s, ⟨hn, rfl⟩, h⟩

theorem evaluate_offset {input : Input F} {state : Value F} {vs : List F} :
    offset.evaluate? (some input) state = .ok vs ↔
      ∃ shape, Grid.realsOfValue input.main = .ok (shape, vs) := by
  simp only [evaluate?, required?, bind_eq_ok, lift_eq_ok, pure_eq_ok, Except.ok.injEq,
    exists_eq_left', Prod.exists]
  constructor
  · rintro ⟨shape, xs, h, rfl⟩
    exact ⟨shape, h⟩
  · rintro ⟨shape, h⟩
    exact ⟨shape, vs, h, rfl⟩

theorem positions_eq_ok {levels : List (Value F)} {main : Value F} {ps : List (Option Nat)} :
    Levels.positions? levels main = .ok ps ↔
      Value.areKeys ((Grid.objects main).cells.map Value.plain) = true ∧
        (Grid.objects main).cells.map (fun v => Levels.position? levels v.plain) = ps := by
  unfold Levels.positions?
  by_cases h : Value.areKeys ((Grid.objects main).cells.map Value.plain) = true
  · simp [h, Function.comp_def]
  · simp [h]

theorem evaluate_index {levels : List (Value F)} {input : Input F} {s vs : List F} :
    (index levels).evaluate? (some input) (Value.ofReals s) = .ok vs ↔
      (s.length : Int) = levels.length ∧
        Value.areKeys ((Grid.objects input.main).cells.map Value.plain) = true ∧
        (Grid.objects input.main).cells.map (levelValue levels s) = vs := by
  simp only [evaluate?, Levels.evaluate?, required?, bind_eq_ok, latent_ofReals, pure_eq_ok,
    lift_eq_ok, positions_eq_ok, Except.ok.injEq, exists_eq_left']
  constructor
  · rintro ⟨t, ⟨hn, rfl⟩, ps, ⟨hk, rfl⟩, rfl⟩
    exact ⟨hn, hk, by simp [levelValue]⟩
  · rintro ⟨hn, hk, rfl⟩
    exact ⟨s, ⟨hn, rfl⟩, _, ⟨hk, rfl⟩, by simp [levelValue]⟩

def atRows? (m : Mapper F) (kind : Kind) (shape : List Nat) (rows : List (List (Value F)))
    (s : List F) : Except Error (List F) :=
  m.evaluate? (some (Input.ofMain (Value.ofRows kind shape rows))) (Value.ofReals s)

theorem realsOfRows {kind : Kind} {shape : List Nat} {rows : List (List (Value F))}
    {r : List Nat × List F} :
    Grid.realsOfValue (Value.ofRows kind shape rows) = .ok r ↔
      ∃ xs, List.Forall₂ (fun row x => row.mapM (Grid.cellToReal? kind) = .ok x) rows xs ∧
        r = (rows.length :: shape, xs.flatten) := by
  simp only [Value.ofRows, Grid.realsOfValue, map_eq_ok, mapM_flatten_eq_ok]
  constructor
  · rintro ⟨_, ⟨xs, hxs, rfl⟩, rfl⟩
    exact ⟨xs, hxs, rfl⟩
  · rintro ⟨xs, hxs, rfl⟩
    exact ⟨_, ⟨xs, hxs, rfl⟩, rfl⟩

theorem forall₂_length {kind : Kind} {c : Nat} {rows : List (List (Value F))} {xs : List (List F)}
    (hrows : ∀ r ∈ rows, r.length = c)
    (h : List.Forall₂ (fun row x => row.mapM (Grid.cellToReal? kind) = .ok x) rows xs) :
    ∀ x ∈ xs, x.length = c := by
  intro x hx
  obtain ⟨row, hrow, hrx⟩ := forall₂_mem h hx
  rw [mapM_length hrx, hrows row hrow]

/-- The extents of a matrix: a single value is one row, a vector one column. -/
def matrix? : List Nat → Option (Nat × Nat)
  | [] => some (1, 1)
  | [count] => some (count, 1)
  | [count, width] => some (count, width)
  | _ => none

theorem covariates_eq_ok {n : Int} {main : Value F} {rows : List (List F)} :
    Covariates.ofMain? n main = .ok rows ↔
      ∃ shape cells count width, Grid.realsOfValue main = .ok (shape, cells) ∧
        matrix? shape = some (count, width) ∧ (width : Int) = n ∧
        Covariates.rowsOf count width cells = rows := by
  simp only [Covariates.ofMain?, bind_eq_ok, lift_eq_ok, Prod.exists]
  refine exists_congr fun shape => exists_congr fun cells => ?_
  have fits (count width : Nat) (shape' : List Nat) :
      (if (width : Int) == n then pure (Covariates.rowsOf count width cells)
        else throw (Error.covariateShape n shape') : Except Error _) = .ok rows ↔
      (width : Int) = n ∧ Covariates.rowsOf count width cells = rows := by
    by_cases h : (width : Int) = n <;> simp [h]
  rcases shape with _ | ⟨count, _ | ⟨width, _ | ⟨depth, shape⟩⟩⟩
  · simpa [matrix?, exists_and_left] using fun _ => fits 1 1 [1, 1]
  · simpa [matrix?, exists_and_left] using fun _ => fits count 1 [count, 1]
  · simpa [matrix?, exists_and_left] using fun _ => fits count width [count, width]
  · simp [matrix?]

theorem covariates_ofRows {n : Int} {kind : Kind} {shape : List Nat}
    {rows : List (List (Value F))} {xs : List (List F)}
    (hrows : ∀ r ∈ rows, r.length = Shape.count shape) :
    Covariates.ofMain? n (Value.ofRows kind shape rows) = .ok xs ↔
      (∃ width, matrix? (1 :: shape) = some (1, width) ∧ (width : Int) = n) ∧
        List.Forall₂ (fun row x => row.mapM (Grid.cellToReal? kind) = .ok x) rows xs := by
  have cut {width : Nat} {ys : List (List F)} (hwidth : Shape.count shape = width)
      (hys : List.Forall₂ (fun row x => row.mapM (Grid.cellToReal? kind) = .ok x) rows ys) :
      Covariates.rowsOf rows.length width ys.flatten = ys := by
    have hlen := forall₂_length hrows hys
    rw [hys.length_eq, Covariates.rowsOf, ← hwidth]
    exact chunks_flatten hlen
  have extents {k count width : Nat} (h : matrix? (k :: shape) = some (count, width)) :
      count = k ∧ Shape.count shape = width ∧ matrix? (1 :: shape) = some (1, width) := by
    match shape, h with
    | [], h | [w], h =>
      cases h
      exact ⟨rfl, by simp, rfl⟩
  simp only [covariates_eq_ok, realsOfRows, Prod.mk.injEq]
  constructor
  · rintro ⟨_, _, count, width, ⟨ys, hys, rfl, rfl⟩, hm, hn, rfl⟩
    obtain ⟨rfl, hwidth, hm⟩ := extents hm
    rw [cut hwidth hys]
    exact ⟨⟨width, hm, hn⟩, hys⟩
  · rintro ⟨⟨width, hm, hn⟩, hxs⟩
    refine ⟨_, _, rows.length, width, ⟨xs, hxs, rfl, rfl⟩, ?_, hn, cut (extents hm).2.1 hxs⟩
    match shape, hm with
    | [], hm | [w], hm =>
      cases hm
      rfl

omit [Scalar F] in
theorem areKeys_append (vs ws : List (Value F)) :
    Value.areKeys (vs ++ ws) = (Value.areKeys vs && Value.areKeys ws) := by
  induction vs with
  | nil => rfl
  | cons v vs ih => simp [Value.areKeys, ih, Bool.and_assoc]

omit [Scalar F] in
theorem areKeys_flatten (rows : List (List (Value F))) :
    Value.areKeys (rows.flatten.map Value.plain) = true ↔
      ∀ row ∈ rows, Value.areKeys (row.map Value.plain) = true := by
  induction rows with
  | nil => simp [Value.areKeys]
  | cons row rows ih =>
    rw [List.flatten_cons, List.map_append, areKeys_append, Bool.and_eq_true, ih]
    simp

/-- The rows are read one after the other, and rows of one shape give equally many values. -/
def RowByRow (m : Mapper F) : Prop :=
  ∀ kind shape s, ∃ (R : List (Value F) → List F → Prop) (c : Nat),
    (∀ r part, r.length = Shape.count shape → R r part → part.length = c) ∧
    ∀ rows vs, rows ≠ [] → (∀ r ∈ rows, r.length = Shape.count shape) →
      (m.atRows? kind shape rows s = .ok vs ↔
        ∃ parts, List.Forall₂ R rows parts ∧ vs = parts.flatten)

theorem rowByRow_linear (n : Int) : (linear n : Mapper F).RowByRow := by
  intro kind shape s
  refine ⟨fun r part => ((s.length : Int) = n ∧
    ∃ width, matrix? (1 :: shape) = some (1, width) ∧ (width : Int) = n) ∧
    ∃ x, r.mapM (Grid.cellToReal? kind) = .ok x ∧ [Scalar.dot x s] = part, 1, ?_, ?_⟩
  · rintro r part - ⟨-, x, -, rfl⟩
    rfl
  · intro rows vs hne hrows
    simp only [atRows?, evaluate_linear, Input.ofMain, covariates_ofRows hrows,
      forall₂_and_exists hne]
    constructor
    · rintro ⟨hs, xs, ⟨hwidth, hxs⟩, rfl⟩
      exact ⟨_, ⟨⟨hs, hwidth⟩, xs, hxs, rfl⟩, (flatten_singletons _ _).symm⟩
    · rintro ⟨_, ⟨⟨hs, hwidth⟩, xs, hxs, rfl⟩, rfl⟩
      exact ⟨hs, xs, ⟨hwidth, hxs⟩, (flatten_singletons _ _).symm⟩

theorem rowByRow_offset : (offset : Mapper F).RowByRow := by
  intro kind shape s
  refine ⟨fun r part => r.mapM (Grid.cellToReal? kind) = .ok part, Shape.count shape, ?_, ?_⟩
  · intro r part hr h
    rw [mapM_length h, hr]
  · intro rows vs _ _
    simp only [atRows?, evaluate_offset, Input.ofMain, realsOfRows, Prod.mk.injEq]
    constructor
    · rintro ⟨_, parts, hparts, -, rfl⟩
      exact ⟨parts, hparts, rfl⟩
    · rintro ⟨parts, hparts, rfl⟩
      exact ⟨_, parts, hparts, rfl, rfl⟩

theorem rowByRow_index (levels : List (Value F)) : (index levels).RowByRow := by
  intro kind shape s
  refine ⟨fun r part => (s.length : Int) = levels.length ∧
    ∃ x, (Value.areKeys (r.map Value.plain) = true ∧ r = x) ∧ x.map (levelValue levels s) = part,
    Shape.count shape, ?_, ?_⟩
  · rintro r part hr ⟨-, x, ⟨-, rfl⟩, rfl⟩
    rw [List.length_map, hr]
  · intro rows vs hne _
    have same (xs : List (List (Value F))) :
        List.Forall₂ (fun r x => Value.areKeys (r.map Value.plain) = true ∧ r = x) rows xs ↔
          (∀ r ∈ rows, Value.areKeys (r.map Value.plain) = true) ∧ rows = xs := by
      rw [List.forall₂_and_left, List.forall₂_eq_eq_eq]
    simp only [atRows?, evaluate_index, Input.ofMain, Value.ofRows, Grid.objects, Grid.objectsOf,
      areKeys_flatten, forall₂_and_exists hne, same]
    constructor
    · rintro ⟨hs, hkeys, rfl⟩
      exact ⟨_, ⟨hs, rows, ⟨hkeys, rfl⟩, rfl⟩, List.map_flatten⟩
    · rintro ⟨_, ⟨hs, _, ⟨hkeys, rfl⟩, rfl⟩, rfl⟩
      exact ⟨hs, hkeys, List.map_flatten⟩

theorem Elementary.rowByRow {m : Mapper F} (h : m.Elementary) : m.RowByRow := by
  cases h with
  | linear n => exact rowByRow_linear n
  | offset => exact rowByRow_offset
  | index levels => exact rowByRow_index levels

theorem fit_eq_ok {k : Nat} {ws vs : List F} :
    fit? k ws = .ok vs ↔ (ws.length = k ∧ ws = vs) ∨
      (k ≠ 1 ∧ ∃ w, ws = [w] ∧ List.replicate k w = vs) := by
  unfold fit?
  by_cases h : ws.length = k
  · have hw : ¬ (k ≠ 1 ∧ ∃ w, ws = [w] ∧ List.replicate k w = vs) := by
      rintro ⟨hk, w, rfl, -⟩
      exact hk h.symm
    simp [h, hw]
  · simp only [beq_iff_eq, h, if_false, false_and, false_or]
    rcases ws with _ | ⟨w, _ | ⟨w', ws⟩⟩
    · simp
    · simp [eq_comm, show k ≠ 1 from fun hk => h hk.symm]
    · simp

/-- Values that fit the rows are not spread over them: there are as many values as rows. -/
theorem RowByRow.length_of_fit {m : Mapper F} (h : m.RowByRow) {kind : Kind} {shape : List Nat}
    {rows : List (List (Value F))} {s ws vs : List F} (hne : rows ≠ [])
    (hrows : ∀ r ∈ rows, r.length = Shape.count shape) (hws : m.atRows? kind shape rows s = .ok ws)
    (hfit : fit? rows.length ws = .ok vs) : ws.length = rows.length := by
  obtain ⟨R, c, hlen, hjoin⟩ := h kind shape s
  obtain ⟨parts, hparts, rfl⟩ := (hjoin rows ws hne hrows).1 hws
  have hlengths : ∀ part ∈ parts, part.length = c := by
    intro part hpart
    obtain ⟨r, hr, hR⟩ := forall₂_mem hparts hpart
    exact hlen r part (hrows r hr) hR
  have htotal := length_flatten_of_length hlengths
  rw [← hparts.length_eq] at htotal
  rcases fit_eq_ok.1 hfit with ⟨hk, -⟩ | ⟨hk, w, hw, -⟩
  · exact hk
  · rw [hw, List.length_singleton] at htotal
    exact absurd (Nat.eq_one_of_mul_eq_one_right htotal.symm) hk

/-- Values that fit the rows are one value for each row, read from that row alone. -/
theorem RowByRow.fitted {m : Mapper F} (h : m.RowByRow) (kind : Kind) {shape : List Nat}
    {rows : List (List (Value F))} (s vs : List F) (hne : rows ≠ [])
    (hrows : ∀ r ∈ rows, r.length = Shape.count shape) :
    (∃ ws, m.atRows? kind shape rows s = .ok ws ∧ fit? rows.length ws = .ok vs) ↔
      List.Forall₂ (fun r v => m.atRows? kind shape [r] s = .ok [v]) rows vs := by
  have hfits {ws : List F} (hws : m.atRows? kind shape rows s = .ok ws)
      (hfit : fit? rows.length ws = .ok vs) : ws.length = rows.length :=
    h.length_of_fit hne hrows hws hfit
  obtain ⟨R, c, hlen, hjoin⟩ := h kind shape s
  have hpos : 0 < rows.length := List.length_pos_iff.2 hne
  have alone : ∀ r ∈ rows, ∀ v, m.atRows? kind shape [r] s = .ok [v] ↔ R r [v] := by
    intro r hr v
    rw [hjoin [r] [v] (by simp) (by simpa using hrows r hr)]
    simp [List.forall₂_cons_left_iff]
  have apart : List.Forall₂ (fun r v => m.atRows? kind shape [r] s = .ok [v]) rows vs ↔
      List.Forall₂ R rows (vs.map fun v => [v]) := by
    rw [List.forall₂_map_right_iff]
    exact forall₂_iff_of_mem alone
  rw [apart]
  constructor
  · rintro ⟨ws, hws, hfit⟩
    have hk := hfits hws hfit
    have hvs : ws = vs := by
      rcases fit_eq_ok.1 hfit with ⟨-, hvs⟩ | ⟨hne, w, rfl, -⟩
      · exact hvs
      · exact absurd hk.symm hne
    subst hvs
    obtain ⟨parts, hparts, rfl⟩ := (hjoin rows ws hne hrows).1 hws
    have hlengths : ∀ part ∈ parts, part.length = c := by
      intro part hpart
      obtain ⟨r, hr, hR⟩ := forall₂_mem hparts hpart
      exact hlen r part (hrows r hr) hR
    have hc : c = 1 := by
      have htotal := length_flatten_of_length hlengths
      rw [hk, ← hparts.length_eq] at htotal
      exact (Nat.mul_eq_left (Nat.ne_of_gt hpos)).1 htotal.symm
    rwa [map_singleton_flatten (hc ▸ hlengths)]
  · intro h
    refine ⟨vs, (hjoin rows vs hne hrows).2 ⟨_, h, ?_⟩, fit_eq_ok.2 (Or.inl ⟨?_, rfl⟩)⟩
    · simpa using (flatten_singletons id vs).symm
    · simpa using h.length_eq.symm

end Mapper

end AdditiveModel
