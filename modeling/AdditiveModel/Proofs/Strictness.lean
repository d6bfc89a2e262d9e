import AdditiveModel.Proofs.Run
import AdditiveModel.Scope.Evaluate

/-! Evaluation is strict: it reads every name of the expression, so it has no value where one of them
has none. -/

namespace AdditiveModel

/-- Computations without a value: one that has such a computation in it has no value either. -/
structure Strict {m : Type → Type} [Monad m] [MonadExceptOf Error m]
    (Fails : {α : Type} → m α → Prop) : Prop where
  first {α β : Type} {x : m α} {f : α → m β} : Fails x → Fails (x >>= f)
  next {α β : Type} {x : m α} {f : α → m β} : (∀ a, Fails (f a)) → Fails (x >>= f)
  throw {α : Type} (e : Error) : Fails (throw e : m α)
  tryCatch {α : Type} {x : m α} {f : Error → m α} :
    Fails x → (∀ e, Fails (f e)) → Fails (tryCatchThe Error x f)

namespace Strict

variable {F : Type} [Scalar F] {m : Type → Type} [Monad m] [MonadExceptOf Error m]
  {Fails : {α : Type} → m α → Prop} (hF : Strict (m := m) @Fails) {I : Expr.Meaning m F} {x : String}
  (hx : Fails (I.lookup x))

include hF hx

set_option linter.unusedSectionVars false in
mutual

theorem evaluate : ∀ e : Expr, x ∈ e.names → Fails (e.evaluate I)
  | .literal v, h => by simp [Expr.names] at h
  | .name y, h => by
    obtain rfl : x = y := by simpa [Expr.names] using h
    exact hx
  | .tuple items, h => hF.first (evaluateAll items h)
  | .list items, h => hF.first (evaluateAll items h)
  | .binary op left right, h => by
    rcases List.mem_append.1 h with h | h
    · exact hF.first (evaluate left h)
    · exact hF.next fun _ => hF.first (evaluate right h)
  | .unary op operand, h => hF.first (evaluate operand h)
  | .compare first rest, h => by
    rcases List.mem_append.1 h with h | h
    · exact hF.first (evaluate first h)
    · exact hF.next fun _ => evaluateChain _ _ rest h
  | .subscript value index, h => by
    rcases List.mem_append.1 h with h | h
    · exact hF.first (evaluate value h)
    · exact hF.next fun _ => hF.first (evaluate index h)
  | .slice lower upper step, h => by
    rw [Expr.names, List.append_assoc] at h
    rcases List.mem_append.1 h with h | h
    · exact hF.first (evaluateOption lower h)
    rcases List.mem_append.1 h with h | h
    · exact hF.next fun _ => hF.first (evaluateOption upper h)
    · exact hF.next fun _ => hF.next fun _ => hF.first (evaluateOption step h)
  | .call f args keywords, h => by
    rcases List.mem_cons.1 h with rfl | h
    · exact hF.first hx
    -- the arguments are read once the function is known to be one
    have hrest (g : Value F) : Fails (do
        let vs ← Expr.evaluateAll I args
        let ks ← Expr.evaluateKeywords I [] keywords
        I.call g ⟨vs, ks⟩) := by
      rcases List.mem_append.1 h with h | h
      · exact hF.first (evaluateAll args h)
      · exact hF.next fun _ => hF.first (evaluateKeywords [] keywords h)
    refine hF.next fun g => ?_
    split
    · exact hF.next fun _ => hrest g
    · exact hrest g

theorem evaluateAll : ∀ es : List Expr, x ∈ Expr.namesOfList es → Fails (Expr.evaluateAll I es)
  | [], h => by simp [Expr.namesOfList] at h
  | e :: es, h => by
    rcases List.mem_append.1 h with h | h
    · exact hF.first (evaluate e h)
    · exact hF.next fun _ => hF.first (evaluateAll es h)

theorem evaluateChain : ∀ (result left : Value F) (rest : List (Comparison × Expr)),
    x ∈ Expr.namesOfRest rest → Fails (Expr.evaluateChain I result left rest)
  | _, _, [], h => by simp [Expr.namesOfRest] at h
  | _, _, (_, e) :: rest, h => by
    rcases List.mem_append.1 h with h | h
    · exact hF.first (evaluate e h)
    · exact hF.next fun _ => hF.next fun _ => hF.next fun _ => evaluateChain _ _ rest h

theorem evaluateKeywords : ∀ (done : List (Option String × Value F))
    (rest : List (Option String × Expr)), x ∈ Expr.namesOfKeywords rest →
      Fails (Expr.evaluateKeywords I done rest)
  | _, [], h => by simp [Expr.namesOfKeywords] at h
  | _, (_, e) :: rest, h => by
    rcases List.mem_append.1 h with h | h
    · exact hF.first (evaluate e h)
    · exact hF.next fun _ => evaluateKeywords _ rest h

theorem evaluateOption : ∀ e : Option Expr, x ∈ Expr.namesOfOption e →
    Fails (Expr.evaluateOption I e)
  | none, h => by simp [Expr.namesOfOption] at h
  | some e, h => evaluate e h

end

theorem evaluateWith {e : Expression} (h : x ∈ e.tree.names) : Fails (e.evaluateWith I) := by
  refine hF.tryCatch (hF.evaluate hx e.tree h) fun err => ?_
  split
  · exact hF.throw _
  · exact hF.throw _

end Strict

theorem strict_error : Strict (m := Except Error) fun x => ∀ a, x ≠ .ok a where
  first hx b h := by
    obtain ⟨a, ha, -⟩ := bind_eq_ok.1 h
    exact hx a ha
  next hf b h := by
    obtain ⟨a, -, hb⟩ := bind_eq_ok.1 h
    exact hf a b hb
  throw e a h := by cases h
  tryCatch {α x f} hx hf a h := by
    cases x with
    | error e => exact hf e a h
    | ok a' => exact hx a' rfl

namespace Run

variable {σ α β : Type}

def Fails (x : Run σ α) : Prop := ∀ s a t, outcome x s ≠ (.ok a, t)

theorem strict : Strict (m := Run σ) (@Fails σ) where
  first hx s b t h := by
    obtain ⟨a, r, ha, -⟩ := bind_eq_ok.1 h
    exact hx s a r ha
  next hf s b t h := by
    obtain ⟨a, r, -, hb⟩ := bind_eq_ok.1 h
    exact hf a r b t hb
  throw e s a t h := by simp at h
  tryCatch {α x f} hx hf s a t h := by
    rw [outcome_tryCatch] at h
    rcases houtcome : outcome x s with ⟨e | a', r⟩
    · rw [houtcome] at h
      exact hf e r a t h
    · exact hx s a' r houtcome

end Run

end AdditiveModel
