import AdditiveModel.Proofs.BlockAffine
import AdditiveModel.Proofs.Difference
import AdditiveModel.Proofs.RowByRow

/-! Mappers that are affine in their latent vector on rows that they have one value each for. Main
mappers are, functions that are affine are, and a mapper that is repeated over groups and replicates
is again. -/

namespace AdditiveModel.Mapper

variable {F : Type} [Scalar F]

/-- A mapper with values that fit `k` rows has one value for each of them, affine in the latent
vector. -/
structure AffineOnRows (m : Mapper F) (k : Nat) : Prop where
  latent {input : Input F} {t ws : List F} :
    m.evaluate? (some input) (Value.ofReals t) = .ok ws → m.n = 0 ∨ (t.length : Int) = m.n
  affine {kind : Kind} {shape : List Nat} {rows : List (List (Value F))} {t ws vs : List F} :
    rows ≠ [] → rows.length = k → (∀ r ∈ rows, r.length = Shape.count shape) →
      m.atRows? kind shape rows t = .ok ws → fit? k ws = .ok vs →
        ∃ c A, A.rows = k ∧ m.Affine (Input.ofMain (Value.ofRows kind shape rows)) c A

def AffineOnBlocks (main : Mapper F) (groups replicates : Int) (input : Input F) : Prop :=
  ∀ blocks, Block.blocks? groups replicates input = .ok blocks →
    ∀ b ∈ blocks, main.AffineOnRows (Block.rowsOf blocks b).length

/-- A value without axes that the mapper reads rows of is a single row. -/
def SingleWithoutAxes (m : Mapper F) (v : Value F) : Prop :=
  ∀ g places row s vs, Grid.ofValue v = .ok g → Block.take? v places = .ok row →
    m.evaluate? (some (Input.ofMain row)) (Value.ofReals s) = .ok vs → g.shape = [] → v.rows = 1

omit [Scalar F] in
@[simp] theorem size_ofRows (kind : Kind) (shape : List Nat) (rows : List (List (Value F))) :
    (Input.ofMain (Value.ofRows kind shape rows)).size = rows.length := rfl

theorem singleWithoutAxes_array (m : Mapper F) (kind : Kind) (k : Nat) (shape : List Nat)
    (cells : List (Value F)) : m.SingleWithoutAxes (.array kind (k :: shape) cells) := by
  rintro _ _ _ _ _ ⟨⟩ _ _ ⟨⟩

/-- A main mapper with latent variables is only evaluated at a vector of its length. -/
theorem Elementary.length_eq {m : Mapper F} (hm : m.Elementary) {input : Input F} {t vs : List F}
    (h : m.evaluate? (some input) (Value.ofReals t) = .ok vs) :
    m.n = 0 ∨ (t.length : Int) = m.n := by
  cases hm with
  | linear n => exact Or.inr (evaluate_linear.1 h).1
  | offset => exact Or.inl rfl
  | index levels => exact Or.inr (evaluate_index.1 h).1

theorem Elementary.affineOnRows [Exact F] {m : Mapper F} (hm : m.Elementary) (k : Nat) :
    m.AffineOnRows k where
  latent := hm.length_eq
  affine hne hk hrows hws hfit := by
    subst hk
    exact hm.affine hws (hm.rowByRow.length_of_fit hne hrows hws hfit)

theorem Elementary.affineOnBlocks [Exact F] {m : Mapper F} (hm : m.Elementary)
    (groups replicates : Int) (input : Input F) : m.AffineOnBlocks groups replicates input :=
  fun _ _ _ _ => hm.affineOnRows _

theorem Elementary.singleWithoutAxes {m : Mapper F} (hm : m.Elementary) {v : Value F}
    (hv : v.Shaped) : m.SingleWithoutAxes v :=
  fun _ _ _ _ _ hg => hm.rows_of_shape_nil hv hg

section Blocks

variable {main : Mapper F} {v : Value F} {groups replicates : Int} {input : Input F}

theorem AffineOnRows.affineBlock {blocks : List Int} {b : Int}
    (hm : main.AffineOnRows (Block.rowsOf blocks b).length) {s vs : List F} (hv : v.Shaped)
    (hsingle : main.SingleWithoutAxes v) (hlen : blocks.length = v.rows) (hb : b ∈ blocks)
    (h : Block.values? (fun input s => main.evaluate? (some input) (Value.ofReals s)) main.n.toNat s
      blocks v b = .ok vs) :
    ∃ c J, AffineBlock main s.length v blocks b c J := by
  simp only [Block.values?, bind_eq_ok, lift_eq_ok] at h
  obtain ⟨part, htake, ws, hws, hfit⟩ := h
  obtain ⟨g, hg, -⟩ := bind_eq_ok.1 htake
  have hnil := hsingle g _ part _ ws hg htake hws
  have hpart := take_block hv hg hnil hlen hb
  obtain rfl : part = _ := Except.ok.inj (htake.symm.trans hpart)
  obtain ⟨c, J, hrows, haffine⟩ := hm.affine (by simpa using Block.rowsOf_ne_nil hb) (by simp)
    (chosen_shaped hv hg hnil hlen) hws hfit
  refine ⟨c, J, ⟨_, htake, haffine⟩, hrows, ?_⟩
  rcases hm.latent hws with hzero | hlatent
  · simp [hzero]
  · rw [Block.latentOf, List.length_take, List.length_drop] at hlatent
    by_cases hpos : main.n.toNat = 0
    · simp [hpos]
    · omega

variable [Exact F]

/-- A component over such a mapper is affine on every input that it has values on. -/
theorem AffineOnBlocks.component_affine (hm : main.AffineOnBlocks groups replicates input)
    (hv : input.main.Shaped) (hsingle : main.SingleWithoutAxes input.main) (hw : input.WeightsFit)
    {state : Value F} {out : List F}
    (h : (component main groups replicates).evaluate? (some input) state = .ok out) :
    ∃ c A, A.rows = out.length ∧ (component main groups replicates).Affine input c A := by
  obtain ⟨s, blocks, y, hs, hblocks, hvalues, -⟩ := evaluate_component.1 h
  have hlen : blocks.length = input.main.rows := Block.blocks_length hblocks
  choose! c J hJ using fun b (hb : b ∈ blocks) =>
    (hm blocks hblocks b hb).affineBlock hv hsingle hlen hb (hvalues b hb)
  obtain ⟨d, A, haffine⟩ := Mapper.component_affine (latent_length hs).symm hw hblocks hJ
  refine ⟨d, A, ?_, haffine⟩
  obtain rfl : _ = out := Except.ok.inj ((haffine.values hs).symm.trans h)
  rw [List.length_zipWith, Sparse.length_apply, haffine.rows, Nat.min_self]

theorem AffineOnRows.component {k : Nat} (hm : ∀ j ≤ k, main.AffineOnRows j) :
    (Mapper.component main groups replicates).AffineOnRows k where
  latent h := by
    obtain ⟨s, _, _, hs, -⟩ := evaluate_component.1 h
    exact Or.inr (latent_ofReals.1 hs).1
  affine {kind shape rows t ws vs} _ hk hrows hws _ := by
    have hblocks : main.AffineOnBlocks groups replicates
        (Input.ofMain (Value.ofRows kind shape rows)) := by
      intro blocks hblocks b _
      refine hm _ ?_
      rw [← hk, ← size_ofRows kind shape rows, ← Block.blocks_length hblocks]
      exact Block.length_rowsOf_le blocks b
    obtain ⟨c, A, hA, haffine⟩ := hblocks.component_affine (Value.ofRows_shaped kind hrows)
      (singleWithoutAxes_array main kind rows.length shape rows.flatten) (Or.inl rfl) hws
    exact ⟨c, A, by rw [hA, evaluate_length (Or.inl rfl) hws, size_ofRows, hk], haffine⟩

end Blocks

section Functions

variable {name : String} {f : Value F → List F → Except Error (Value F)} {n : Int} {declared : Bool}

/-- Wherever the function has values, they are affine in the latent vector. -/
def AffineInLatent (f : Value F → List F → Except Error (Value F)) (n : Int) : Prop :=
  ∀ (input : Input F) s vs, functionValues? f n (some input) (Value.ofReals s) = .ok vs →
    ∃ c rows, Difference.AffineFunction
      (fun s => functionValues? f n (some input) (Value.ofReals s)) n.toNat c rows

theorem functionValues_congr {state state' : Value F} (h : latent? n state = latent? n state')
    (input : Option (Input F)) :
    functionValues? f n input state = functionValues? f n input state' := by
  simp only [functionValues?, h]

theorem length_of_functionValues {input : Option (Input F)} {s vs : List F}
    (h : functionValues? f n input (Value.ofReals s) = .ok vs) : (s.length : Int) = n := by
  simp only [functionValues?, bind_eq_ok] at h
  obtain ⟨_, _, _, hs, -⟩ := h
  exact (latent_ofReals.1 hs).1

/-- A single value stands for all points, so values that fit are one for each. -/
theorem length_of_fit_function {input : Input F} {state : Value F} {ws vs : List F}
    (h : functionValues? f n (some input) state = .ok ws) (hsize : input.size ≠ 0)
    (hfit : fit? input.size ws = .ok vs) : ws.length = input.size := by
  rcases fit_eq_ok.1 hfit with ⟨hlen, -⟩ | ⟨hone, w, rfl, -⟩
  · exact hlen
  · simp only [functionValues?, required?, bind_eq_ok, Except.ok.injEq, exists_eq_left'] at h
    obtain ⟨_, -, _, -, values, -, h⟩ := h
    have hlarge : input.size > 1 := by omega
    split at h
    · rw [if_pos hlarge] at h
      have := congrArg List.length (Except.ok.inj h)
      simp at this
      omega
    · rename_i hne
      cases h
      exact absurd rfl (hne w)

theorem jacobian_function {input : Input F} {state : Value F} {s : List F} {rows : List (List F)}
    (hs : latent? n state = .ok s)
    (hrows : Difference.jacobian? (fun s => functionValues? f n (some input) (Value.ofReals s))
      Difference.defaultStep s = .ok rows) :
    (function name f n declared).jacobian? (some input) state = .ok (Sparse.ofRows s.length rows) := by
  simp only [jacobian?, hs, hrows, bind, Except.bind, pure, Except.pure]

variable [Exact F]

theorem affine_function (hstep : ∀ v : F, Difference.stepAt Difference.defaultStep v ≠ Scalar.zero)
    {input : Input F} (hn : 0 ≤ n) {c : List F} {rows : List (List F)}
    (h : Difference.AffineFunction (fun s => functionValues? f n (some input) (Value.ofReals s)) n.toNat
      c rows) :
    (function name f n declared).Affine input c (Sparse.ofRows n.toNat rows) := by
  have hwidth : ∀ row ∈ rows, row.length ≤ n.toNat := fun row hrow => (h.width row hrow).le
  have hlength {state : Value F} {s : List F} (hs : latent? n state = .ok s) : s.length = n.toNat := by
    have := latent_length hs
    omega
  refine ⟨Int.toNat_of_nonneg hn, h.count, Sparse.bounded_ofRows hwidth, fun {state s} hs => ?_,
    fun {state s} hs => ?_⟩
  · change latent? n state = .ok s at hs
    rw [jacobian_function hs (h.jacobian_eq (hlength hs) fun v _ => hstep v), hlength hs]
  · change latent? n state = .ok s at hs
    have hofReals : latent? n (Value.ofReals s) = .ok s := latent_ofReals.2 ⟨latent_length hs, rfl⟩
    rw [Sparse.apply_ofRows (hlength hs ▸ hwidth), ← h.values (hlength hs), evaluate?]
    exact functionValues_congr (hs.trans hofReals.symm) _

theorem affineOnRows_function
    (hstep : ∀ v : F, Difference.stepAt Difference.defaultStep v ≠ Scalar.zero)
    (hf : AffineInLatent f n) (k : Nat) : (function name f n declared).AffineOnRows k where
  latent h := Or.inr (length_of_functionValues h)
  affine {kind shape rows t ws vs} hne hk hrows hws hfit := by
    subst hk
    change functionValues? f n _ (Value.ofReals t) = .ok ws at hws
    obtain ⟨c, coefficients, h⟩ := hf _ t ws hws
    have hn := length_of_functionValues hws
    have hlen := length_of_fit_function hws (by simpa using hne) hfit
    have hvalues := h.values (s := t) (by omega)
    rw [hws, Except.ok.injEq] at hvalues
    refine ⟨c, _, ?_, affine_function hstep (by omega) h⟩
    rw [hvalues, List.length_zipWith, List.length_map, h.count, Nat.min_self, size_ofRows] at hlen
    exact h.count.trans hlen

end Functions

section Expanded

variable [Exact F] {fixed : List F} {A : Sparse F} {origin : Option (List F)}

omit [Exact F] in
theorem length_expandedValues {state : Value F} {ws : List F} (hrows : A.rows = fixed.length)
    (h : expandedValues? fixed A origin state = .ok ws) : ws.length = fixed.length := by
  unfold expandedValues? at h
  by_cases hzero : A.columns = 0
  · simp only [hzero, beq_self_eq_true, if_true, pure_eq_ok] at h
    rw [h]
  · simp only [hzero, beq_iff_eq, if_false, bind_eq_ok, pure_eq_ok] at h
    obtain ⟨s, -, rfl⟩ := h
    rw [List.length_zipWith, Sparse.length_apply, hrows, Nat.min_self]

/-- Fixed values belong to as many rows as there are values. A single one is only good for one row. -/
theorem affineOnRows_expanded (hrows : A.rows = fixed.length) (hbounded : A.Bounded)
    (horigin : ∀ s₀ ∈ origin, s₀.length = A.columns) {k : Nat} (hone : fixed.length = 1 → k = 1) :
    (expanded fixed A origin).AffineOnRows k where
  latent {input t ws} h := by
    by_cases hzero : A.columns = 0
    · exact Or.inl (congrArg Int.ofNat hzero)
    · simp only [evaluate?, expandedValues?, hzero, beq_iff_eq, if_false, bind_eq_ok] at h
      obtain ⟨s, hs, -⟩ := h
      exact Or.inr (latent_ofReals.1 hs).1
  affine {kind shape rows t ws vs} _ _ _ hws hfit := by
    refine ⟨_, A, ?_, affine_expanded hrows hbounded horigin _⟩
    have hlen := length_expandedValues hrows hws
    rcases fit_eq_ok.1 hfit with ⟨hk, -⟩ | ⟨hk, w, rfl, -⟩
    · rw [hrows, ← hlen, hk]
    · exact absurd (hone hlen.symm) hk

end Expanded

/-- On `k` rows the mapper is linear in the latent vector: it is a main mapper, an affine function,
fixed values and a matrix for the rows, or groups and replicates of such a mapper. -/
inductive TrulyLinear : Mapper F → Nat → Prop
  | elementary {m : Mapper F} {k : Nat} : m.Elementary → TrulyLinear m k
  | function {name : String} {f : Value F → List F → Except Error (Value F)} {n : Int} {declared : Bool}
      {k : Nat} : AffineInLatent f n → TrulyLinear (function name f n declared) k
  | component {main : Mapper F} {groups replicates : Int} {k : Nat} :
      (∀ j ≤ k, TrulyLinear main j) → TrulyLinear (component main groups replicates) k
  | expanded {fixed : List F} {A : Sparse F} {origin : Option (List F)} {k : Nat} :
      A.rows = fixed.length → A.Bounded → (∀ s₀ ∈ origin, s₀.length = A.columns) →
        (fixed.length = 1 → k = 1) → TrulyLinear (expanded fixed A origin) k

theorem TrulyLinear.affineOnRows [Exact F]
    (hstep : ∀ v : F, Difference.stepAt Difference.defaultStep v ≠ Scalar.zero) {m : Mapper F} {k : Nat}
    (h : m.TrulyLinear k) : m.AffineOnRows k := by
  induction h with
  | elementary hm => exact hm.affineOnRows _
  | function hf => exact affineOnRows_function hstep hf _
  | component _ ih => exact AffineOnRows.component ih
  | expanded hrows hbounded horigin hone =>
    exact affineOnRows_expanded hrows hbounded horigin hone

end AdditiveModel.Mapper
