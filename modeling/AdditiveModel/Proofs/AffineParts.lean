import AdditiveModel.Proofs.Expansion
import AdditiveModel.Proofs.Interpolation

/-! Simplified components whose main mapper is an affine function. A function is called on the rows of
one block at a time, and it is affine in the latent vector of the block; its difference quotients are its
coefficients, so a component made from the values and the quotients at zero has the values of the
component at every state. -/

namespace AdditiveModel.Mapper

variable {F : Type} [Scalar F]

section Parts

variable {f : Value F → List F → Except Error (Value F)} {m : Int}

/-- On the rows of each block the function has fixed values plus a matrix times the latent vector, one
value for each row or a single one. A single one stands for all rows, but not for those of a sparse
matrix, which is one element however many rows it has. -/
def AffineOnParts (f : Value F → List F → Except Error (Value F)) (m : Int) (main : Value F)
    (blocks : List Int) : Prop :=
  ∀ b ∈ blocks, ∃ part fixed rows, Block.take? main (Block.rowsOf blocks b) = .ok part ∧
    Difference.AffineFunction (fun t => do lift (← f part t).vector?) m.toNat fixed rows ∧
    (fixed.length = (Block.rowsOf blocks b).length ∨
      fixed.length = 1 ∧ ∀ rows columns entries, main ≠ .sparse rows columns entries)

/-- A single value that stands for several points is affine with the same coefficients at each. -/
theorem spread_affine (size : Nat) {fixed : List F} {rows : List (List F)} (hcount : rows.length = fixed.length)
    (s : List F) :
    Block.spread size (List.zipWith (· + ·) fixed (rows.map (Scalar.dot · s))) =
      List.zipWith (· + ·) (Block.spread size fixed) ((Block.spread size rows).map (Scalar.dot · s)) := by
  match fixed, rows, hcount with
  | [], [], _ => rfl
  | [a], [row], _ =>
    by_cases hsize : size > 1 <;> simp [Block.spread, hsize]
  | _ :: _ :: _, _ :: _ :: _, _ => rfl

omit [Scalar F] in
theorem length_spread_eq {α β : Type} (size : Nat) {xs : List α} {ys : List β} (h : xs.length = ys.length) :
    (Block.spread size xs).length = (Block.spread size ys).length := by
  match xs, ys, h with
  | [], [], _ => rfl
  | [a], [b], _ => by_cases hsize : size > 1 <;> simp [Block.spread, hsize]
  | _ :: _ :: xs, _ :: _ :: ys, h => simpa [Block.spread] using h

theorem mem_spread {α : Type} {size : Nat} {xs : List α} {x : α} (h : x ∈ Block.spread size xs) : x ∈ xs := by
  unfold Block.spread at h
  split at h
  · split at h
    · rw [(List.mem_replicate.1 h).2]
      exact List.mem_singleton.2 rfl
    · exact h
  · exact h

/-- The values of the mapper on a part are the values of the function, a single one at every point. -/
theorem affineFunction_part (hm : 0 ≤ m) {part : Value F} {fixed : List F} {rows : List (List F)}
    (h : Difference.AffineFunction (fun t => do lift (← f part t).vector?) m.toNat fixed rows) :
    Difference.AffineFunction
      (fun t => functionValues? f m (some (Input.ofMain part)) (Value.ofReals t)) m.toNat
      (Block.spread part.rows fixed) (Block.spread part.rows rows) where
  count := length_spread_eq _ h.count
  width row hrow := h.width row (mem_spread hrow)
  values {t} ht := by
    obtain ⟨v, hv, hxs⟩ := bind_eq_ok.1 (h.values ht)
    rw [← spread_affine part.rows h.count]
    exact functionValues_eq_spread (by omega) hv (lift_eq_ok.1 hxs)

variable [ExactOrder F]

theorem defaultStep_ne_zero (v : F) :
    Difference.stepAt Difference.defaultStep v ≠ Scalar.zero :=
  Difference.stepAt_ne_zero (ExactOrder.ofDecimal_pos _ Int.one_pos) v

theorem AffineOnParts.affineBlock {main : Value F} {blocks : List Int} {n : Nat} {b : Int}
    (h : AffineOnParts f m main blocks) (hm : 0 ≤ m) (hv : main.Shaped) (hlen : blocks.length = main.rows)
    (hb : b ∈ blocks) (hfits : b.toNat * m.toNat + m.toNat ≤ n) (name : String) (declared : Bool) :
    ∃ c J, AffineBlock (function name f m declared) n main blocks b c J := by
  obtain ⟨part, fixed, rows, hpart, haffine, hcount⟩ := h b hb
  have hpoints := affineFunction_part hm haffine
  refine ⟨_, _, ⟨part, hpart, affine_function defaultStep_ne_zero hm hpoints⟩, ?_, hfits⟩
  exact hpoints.count.trans (length_spread_block hv hlen hb hpart hcount)

end Parts

/-- The difference quotients of an affine function are its coefficients, at every point and for every
positive step, and no quotient is by zero. A component of a function that is affine on the rows of each
block is simplified to a mapper with its values at every state, whatever inputs it is given then. -/
theorem affine_differenced [ExactOrder F] :
    (∀ (f : List F → Except Error (List F)) (n : Nat) (fixed : List F) (rows : List (List F)),
      Difference.AffineFunction f n fixed rows → ∀ (step : F) (x : List F),
        Scalar.lt Scalar.zero step = true → x.length = n →
          (∀ v ∈ x, Difference.stepAt step v ≠ Scalar.zero) ∧
          Difference.jacobian? f step x = .ok rows) ∧
    ∀ (name : String) (f : Value F → List F → Except Error (Value F)) (m : Int) (declared : Bool)
      (groups replicates : Int) (input : Input F) (blocks : List Int),
      0 ≤ m → 1 ≤ groups → 1 ≤ replicates → input.main.Shaped → input.WeightsFit →
      Block.blocks? groups replicates input = .ok blocks → AffineOnParts f m input.main blocks →
      ∃ simplified,
        (component (function name f m declared) groups replicates).ofLinear? (some input) =
          .ok simplified ∧
        ∀ state s,
          latent? (component (function name f m declared) groups replicates).n state = .ok s →
          ∃ values,
            (component (function name f m declared) groups replicates).evaluate? (some input) state =
              .ok values ∧
            ∀ other, simplified.evaluate? other state = .ok values := by
  constructor
  case left =>
    intro f n fixed rows h step x hstep hx
    have hne := Difference.stepAt_ne_zero hstep
    exact ⟨fun v _ => hne v, h.jacobian_eq hx fun v _ => hne v⟩
  case right =>
    intro name f m declared groups replicates input blocks hm hgroups hreplicates hv hw hblocks hf
    have hn : 0 ≤ m * groups * replicates := by positivity
    have hcount : m * groups * replicates = (m * groups * replicates).toNat := by omega
    have hlen : blocks.length = input.main.rows := Block.blocks_length hblocks
    choose! c J hJ using fun b (hb : b ∈ blocks) =>
      hf.affineBlock hm hv hlen hb (Block.latent_fits hgroups hreplicates hblocks hb hcount) name declared
    obtain ⟨d, A, haffine⟩ := component_affine hcount hw hblocks hJ
    refine ⟨_, haffine.ofLinear, fun state s hs => ⟨_, haffine.values hs, fun other => ?_⟩⟩
    rw [haffine.evaluate_ofLinear hs, haffine.values hs]

def shifted (main : Value ℚ) (t : List ℚ) : Except Error (Value ℚ) := do
  return .ofReals ((← lift main.vector?).map fun x => 1 + x * t.getD 0 0)

theorem shifted_affine {part : Value ℚ} {xs : List ℚ} (h : part.vector? = .ok xs) :
    Difference.AffineFunction (fun t => do lift (← shifted part t).vector?) 1 (xs.map fun _ => 1)
      (xs.map fun x => [x]) where
  count := by simp
  width := by simp
  values {t} ht := by
    obtain ⟨a, rfl⟩ := List.length_eq_one_iff.1 ht
    have hdot (x : ℚ) : Scalar.dot [x] [a] = x * a := by
      simp [Scalar.dot, Scalar.sum, Scalar.zero, Scalar.ofInt]
    have hvalues : List.zipWith (· + ·) (xs.map fun _ => 1) ((xs.map fun x => [x]).map (Scalar.dot · [a])) =
        xs.map fun x => 1 + x * a := by
      simp only [List.map_map, List.zipWith_map, List.zipWith_self, Function.comp_def, hdot]
    rw [hvalues]
    simp only [shifted, h]
    exact congrArg lift (vector_ofReals _)

theorem shifted_parts : AffineOnParts shifted 1 Input.alternating.main [1, 0, 1] := by
  intro b hb
  obtain ⟨part, xs, htake, hxs, hlen⟩ : ∃ part xs,
      Block.take? Input.alternating.main (Block.rowsOf [1, 0, 1] b) = .ok part ∧
        part.vector? = .ok xs ∧ xs.length = (Block.rowsOf [1, 0, 1] b).length := by
    obtain rfl | rfl : b = 1 ∨ b = 0 := by
      have hmem : b = 1 ∨ b = 0 ∨ b = 1 := by simpa using hb
      omega
    · exact ⟨_, [2, 5], rfl, by decide +kernel, rfl⟩
    · exact ⟨_, [3], rfl, by decide +kernel, rfl⟩
  exact ⟨part, _, _, htake, shifted_affine hxs, Or.inl (by simpa using hlen)⟩

theorem shifted_simplified :
    Difference.jacobian? (fun t => do lift (← shifted (.ofReals [2, -3]) t).vector?) (1 / 2) [(-7 : ℚ)] =
      .ok [[2], [-3]] ∧
    ∃ simplified,
      (component (function "shifted" shifted 1 true) 2 1).ofLinear? (some Input.alternating) =
        .ok simplified ∧
      ∀ other, simplified.evaluate? other (.ofReals [7, 11]) =
        (component (function "shifted" shifted 1 true) 2 1).evaluate? (some Input.alternating)
          (.ofReals [7, 11]) := by
  obtain ⟨hquotients, hcomponents⟩ := affine_differenced (F := ℚ)
  refine ⟨?_, ?_⟩
  · exact (hquotients _ 1 _ _ (shifted_affine (vector_ofReals _)) _ _ (by decide +kernel) rfl).2
  · obtain ⟨simplified, hsimplified, hvalues⟩ := hcomponents "shifted" shifted 1 true 2 1
      Input.alternating [1, 0, 1] (by decide) (by decide) (by decide) Input.alternating_shaped
      Input.alternating_weights (by decide +kernel) shifted_parts
    obtain ⟨values, heq, hother⟩ := hvalues (.ofReals [7, 11]) _ (latent_ofReals.2 ⟨rfl, rfl⟩)
    exact ⟨simplified, hsimplified, fun other => (hother other).trans heq.symm⟩

/-- For two rows of a sparse matrix a single value is linear and stands for both, but the simplified
component has its coefficient in the first row only. -/
theorem sparsePair_simplified :
    (∀ part, Difference.AffineFunction (fun t => do lift (← constant part t).vector?) 1 [0] [[1]]) ∧
      (component (function "constant" constant 1 true) 1 1).evaluate? (some Input.sparsePair)
        (.ofReals [3]) = .ok [3, 3] ∧
      ((component (function "constant" constant 1 true) 1 1).ofLinear? (some Input.sparsePair) >>=
        fun simplified => simplified.evaluate? (some Input.sparsePair) (.ofReals [3])) =
          .ok [3, 0] := by
  refine ⟨fun part => ⟨rfl, by simp, fun {t} ht => ?_⟩, by decide +kernel, by decide +kernel⟩
  obtain ⟨a, rfl⟩ := List.length_eq_one_iff.1 ht
  simp [constant, Scalar.dot, Scalar.sum, Scalar.zero, Scalar.ofInt, bind, Except.bind]
  rfl

end AdditiveModel.Mapper
