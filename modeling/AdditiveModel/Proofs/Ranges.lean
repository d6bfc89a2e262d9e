import AdditiveModel.Mapper.Basic
import AdditiveModel.Proofs.Failure

/-! Who can be blamed for a group or replicate that is out of range: only the range check of the blocks
themselves. The main mappers, the functions they call and everything around the blocks fail for other
reasons. -/

namespace AdditiveModel

variable {F : Type} [Scalar F] {α β : Type}

/-- The one of two things that belongs to the block index. -/
def BlockIndex.pick (which : BlockIndex) (group replicate : α) : α :=
  match which with
  | .group => group
  | .replicate => replicate

/-- The computation does not fail because of a value of the block index. -/
def Spares (which : BlockIndex) (x : Except Error α) : Prop :=
  ∀ count, x ≠ .error (.blockRange which count)

theorem spares_iff {which : BlockIndex} {x : Except Error α} :
    Spares which x ↔ FailsOnly (fun e => ∀ count, e ≠ .blockRange which count) x := by
  constructor
  · rintro h _ hx count rfl
    exact h count hx
  · exact fun h count hx => h _ hx count rfl

namespace Spares

variable {which : BlockIndex} {x : Except Error α}

theorem ok (a : α) : Spares which (.ok a) := spares_iff.2 (.ok a)

theorem pure (a : α) : Spares which (Pure.pure a : Except Error α) := ok a

theorem error {e : Error} (h : ∀ count, e ≠ .blockRange which count) :
    Spares which (.error e : Except Error α) :=
  spares_iff.2 (.error h)

theorem lift (r : Except Fault α) : Spares which (AdditiveModel.lift r : Except Error α) := by
  cases r with
  | ok a => exact ok a
  | error k => exact error nofun

theorem bind {f : α → Except Error β} (hx : Spares which x)
    (hf : ∀ a, x = .ok a → Spares which (f a)) : Spares which (x >>= f) :=
  spares_iff.2 ((spares_iff.1 hx).bind fun a ha => spares_iff.1 (hf a ha))

theorem ite {c : Prop} [Decidable c] {y : Except Error α} (hx : Spares which x)
    (hy : Spares which y) : Spares which (if c then x else y) :=
  spares_iff.2 (.ite (spares_iff.1 hx) (spares_iff.1 hy))

theorem map {g : α → β} (hx : Spares which x) : Spares which (g <$> x) :=
  spares_iff.2 (spares_iff.1 hx).map

theorem mapM {f : α → Except Error β} {l : List α} (hf : ∀ a ∈ l, Spares which (f a)) :
    Spares which (l.mapM f) :=
  spares_iff.2 (.mapM fun a ha => spares_iff.1 (hf a ha))

theorem foldlM {f : β → α → Except Error β} {l : List α} (hf : ∀ b, ∀ a ∈ l, Spares which (f b a))
    (b : β) : Spares which (l.foldlM f b) :=
  spares_iff.2 (.foldlM (fun b a ha => spares_iff.1 (hf b a ha)) b)

end Spares

theorem Spares.evaluateWith {which : BlockIndex} (I : Expr.Meaning (Except Error) F) (e : Expression) :
    Spares which (e.evaluateWith I) := by
  intro count h
  cases failing_error.category h

theorem Spares.apply {which : BlockIndex} (f : Callable) (a : Arguments F) : Spares which (f.apply a) := by
  unfold Callable.apply Callable.deepest Callable.applyWith
  split
  · exact lift _
  · exact evaluateWith _ _
  · exact (lift _).bind fun _ _ => evaluateWith _ _
  · exact error nofun
  · exact error nofun
  · exact error nofun

namespace Mapper

variable {which : BlockIndex}

omit [Scalar F] in
theorem spares_required (input : Option (Input F)) : Spares which (required? input) := by
  cases input with
  | some i => exact .ok i
  | none => exact .error nofun

theorem spares_latent (n : Int) (state : Value F) : Spares which (latent? n state) := by
  unfold latent?
  split
  · split
    · exact .error nofun
    · exact .ok _
  · exact (Spares.lift _).bind fun r _ => .ite (.pure _) (.error nofun)

theorem spares_ofMain (n : Int) (main : Value F) : Spares which (Covariates.ofMain? n main) := by
  refine (Spares.lift _).bind fun r _ => ?_
  dsimp only
  split
  · exact .ite (.pure _) (.error nofun)
  · exact .error nofun

theorem spares_functionValues {f : Value F → List F → Except Error (Value F)}
    (hf : ∀ main s, Spares which (f main s)) (n : Int) (input : Option (Input F)) (state : Value F) :
    Spares which (functionValues? f n input state) := by
  refine (spares_required input).bind fun i _ => ?_
  refine (spares_latent n state).bind fun s _ => ?_
  refine (hf i.main s).bind fun v _ => ?_
  refine (Spares.lift _).bind fun values _ => ?_
  split
  · exact .pure _
  · exact .pure _

inductive Main : Mapper F → Prop
  | linear (n : Int) : Main (linear n)
  | offset : Main offset
  | index (levels : List (Value F)) : Main (index levels)
  | function {f : Value F → List F → Except Error (Value F)} (name : String) (n : Int) (declared : Bool)
    (hf : ∀ which main s, Spares which (f main s)) : Main (function name f n declared)

omit [Scalar F] in
theorem Main.forComponent {m : Mapper F} (h : m.Main) (groups replicates : Int) :
    m.forComponent groups replicates = component m groups replicates := by
  cases h <;> rfl

theorem Main.spares_evaluate {m : Mapper F} (h : m.Main) (input : Option (Input F)) (state : Value F) :
    Spares which (m.evaluate? input state) := by
  cases h with
  | linear n =>
    refine (spares_latent n state).bind fun s _ => ?_
    refine (spares_required input).bind fun i _ => ?_
    exact (spares_ofMain n i.main).bind fun rows _ => .pure _
  | offset => exact (spares_required input).bind fun i _ => .lift _
  | index levels =>
    refine (spares_latent levels.length state).bind fun s _ => ?_
    refine (spares_required input).bind fun i _ => ?_
    exact (Spares.lift _).bind fun ps _ => .pure _
  | function name n declared hf => exact spares_functionValues (hf which) n input state

theorem spares_difference {f : List F → Except Error (List F)} (hf : ∀ s, Spares which (f s))
    (step : F) (x : List F) : Spares which (Difference.jacobian? f step x) := by
  refine (hf x).bind fun base _ => ?_
  refine Spares.bind (.mapM fun i _ => ?_) fun columns _ => .pure _
  refine (hf _).bind fun moved _ => ?_
  exact (Spares.lift _).bind fun difference _ => .lift _

theorem Main.spares_jacobian {m : Mapper F} (h : m.Main) (input : Option (Input F)) (state : Value F) :
    Spares which (m.jacobian? input state) := by
  cases h with
  | linear n =>
    refine (spares_required input).bind fun i _ => ?_
    exact (spares_ofMain n i.main).bind fun rows _ => .pure _
  | offset => exact (spares_required input).bind fun i _ => .pure _
  | index levels =>
    refine (spares_required input).bind fun i _ => ?_
    exact (Spares.lift _).bind fun ps _ => .pure _
  | function name n declared hf =>
    refine (spares_latent n state).bind fun s _ => ?_
    refine (spares_difference (fun s => ?_) _ s).bind fun rows _ => .pure _
    exact spares_functionValues (hf which) n input (Value.ofReals s)

theorem main_ofCovariates {values : Value F} {options : Named (Value F)} {m : Mapper F}
    (h : ofCovariates? values options = .ok m) : m.Main := by
  unfold ofCovariates? at h
  split at h
  · obtain ⟨-, -, h⟩ := bind_eq_ok.1 h
    obtain ⟨n, -, h⟩ := bind_eq_ok.1 h
    cases h
    exact .linear n
  · obtain ⟨-, -, h⟩ := bind_eq_ok.1 h
    obtain ⟨n, -, h⟩ := bind_eq_ok.1 h
    cases h
    exact .linear n
  · obtain ⟨g, -, h⟩ := bind_eq_ok.1 h
    split at h
    · cases h
      exact .linear _
    · cases h
      exact .linear 1

theorem main_ofLevels {values : Value F} {options : Named (Value F)} {m : Mapper F}
    (h : ofLevels? values options = .ok m) : m.Main := by
  obtain ⟨-, -, h⟩ := bind_eq_ok.1 h
  split at h
  · cases h
  · obtain ⟨levels, -, h⟩ := bind_eq_ok.1 h
    cases h
    exact .index levels
  · obtain ⟨levels, -, h⟩ := bind_eq_ok.1 h
    cases h
    exact .index levels

theorem main_ofFunction {f n declared : Value F} {m : Mapper F}
    (h : ofFunction? f n declared = .ok m) : m.Main := by
  obtain ⟨k, -, h⟩ := bind_eq_ok.1 h
  obtain ⟨d, -, h⟩ := bind_eq_ok.1 h
  cases h
  refine .function _ _ _ fun which main s => ?_
  split
  · exact .apply _ _
  · exact .error (by simp)

theorem main_ofModel {model values : Value F} {options : Named (Value F)} {m : Mapper F}
    (h : ofModel? model values options = .ok m) : m.Main := by
  unfold ofModel? at h
  replace h := (check_eq_ok.1 h).2
  split at h
  · exact main_ofCovariates h
  · exact main_ofCovariates h
  · cases h
    exact .offset
  · exact main_ofLevels h
  · obtain ⟨-, -, h⟩ := bind_eq_ok.1 h
    split at h
    · exact main_ofFunction h
    · cases h
  · cases h

namespace Block

theorem spares_indices {index : BlockIndex} (h : index ≠ which) (count : Int) (size : Nat)
    (values : Value F) : Spares which (indices? index count size values) := by
  have hrange : ∀ n, Error.blockRange index count ≠ .blockRange which n := by
    intro n he
    cases he
    exact h rfl
  unfold indices?
  split
  · exact .pure _
  · refine (Spares.lift _).bind fun g _ => ?_
    refine (Spares.lift _).bind fun cells _ => ?_
    exact .ite (.error nofun) (.ite (.error hrange) (.pure _))

theorem spares_blocks {groups replicates : Int} {input : Input F}
    (h : Spares which (indices? which (which.pick groups replicates) input.size
      (which.pick input.group input.replicate))) :
    Spares which (blocks? groups replicates input) := by
  cases which with
  | group =>
    refine h.bind fun g _ => ?_
    exact (spares_indices (by decide) _ _ _).bind fun r _ => .pure _
  | replicate =>
    refine (spares_indices (by decide) _ _ _).bind fun g _ => ?_
    exact h.bind fun r _ => .pure _

variable {groups replicates : Int} {input : Input F}

theorem spares_evaluate {main : Input F → List F → Except Error (List F)}
    (hmain : ∀ input s, Spares which (main input s))
    (hblocks : Spares which (blocks? groups replicates input)) (m : Int) (state : Value F) :
    Spares which (evaluate? main m groups replicates (some input) state) := by
  refine (spares_latent _ state).bind fun s _ => ?_
  refine Spares.bind (.ok input) fun i hi => ?_
  cases hi
  refine hblocks.bind fun blocks _ => ?_
  refine Spares.bind (.foldlM (fun out b _ => ?_) _) fun out _ => .lift _
  refine Spares.bind ?_ fun values _ => .pure _
  refine (Spares.lift _).bind fun part _ => ?_
  exact (hmain _ _).bind fun values _ => .lift _

theorem spares_jacobian {main : Input F → List F → Except Error (Sparse F)}
    (hmain : ∀ input s, Spares which (main input s))
    (hblocks : Spares which (blocks? groups replicates input)) (m : Int) (state : Value F) :
    Spares which (jacobian? main m groups replicates (some input) state) := by
  refine (spares_latent _ state).bind fun s _ => ?_
  refine Spares.bind (.ok input) fun i hi => ?_
  cases hi
  refine hblocks.bind fun blocks _ => ?_
  refine Spares.bind (.mapM fun b _ => ?_) fun entries _ => ?_
  · refine (Spares.lift _).bind fun part _ => ?_
    exact (hmain _ _).bind fun J _ => .lift _
  · exact .ite (.error nofun) (.ite (.pure _) (.lift _))

end Block

theorem Main.spares_component {m : Mapper F} (hm : m.Main) {groups replicates : Int} {input : Input F}
    (h : Spares which (Block.indices? which (which.pick groups replicates) input.size
      (which.pick input.group input.replicate))) (state : Value F) :
    Spares which ((component m groups replicates).evaluate? (some input) state) ∧
      Spares which ((component m groups replicates).jacobian? (some input) state) :=
  ⟨Block.spares_evaluate (fun _ _ => hm.spares_evaluate _ _) (Block.spares_blocks h) _ state,
    Block.spares_jacobian (fun _ _ => hm.spares_jacobian _ _) (Block.spares_blocks h) _ state⟩

end Mapper

end AdditiveModel
