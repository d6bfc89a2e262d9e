import AdditiveModel.Scope.Evaluate

/-! Evaluation is made of names and calls, put together in sequence. What sequences, failures and their
recovery keep between two computations holds of the evaluations of every expression when it holds of
its names and of calls. -/

namespace AdditiveModel

/-- A relation that is kept when computations are put together. -/
structure Relates {m n : Type → Type} [Monad m] [MonadExceptOf Error m] [Monad n]
    [MonadExceptOf Error n] (R : {α : Type} → m α → n α → Prop) : Prop where
  pure {α : Type} (a : α) : R (pure a) (pure a)
  bind {α β : Type} {x : m α} {y : n α} {f : α → m β} {g : α → n β} :
    R x y → (∀ a, R (f a) (g a)) → R (x >>= f) (y >>= g)
  throw {α : Type} (e : Error) : R (throw e : m α) (throw e)
  tryCatch {α : Type} {x : m α} {y : n α} {f : Error → m α} {g : Error → n α} :
    R x y → (∀ e, R (f e) (g e)) → R (tryCatchThe Error x f) (tryCatchThe Error y g)

namespace Relates

variable {F : Type} [Scalar F] {m n : Type → Type} [Monad m] [MonadExceptOf Error m] [Monad n]
  [MonadExceptOf Error n] {R : {α : Type} → m α → n α → Prop} (hR : Relates (m := m) @R)

include hR

theorem lift {α : Type} (r : Except Fault α) : R (lift r : m α) (lift r) := by
  cases r with
  | error e => exact hR.throw _
  | ok a => exact hR.pure a

theorem liftError {α : Type} (r : Except Error α) : R (liftError r : m α) (liftError r) := by
  cases r with
  | error e => exact hR.throw _
  | ok a => exact hR.pure a

variable {I : Expr.Meaning m F} {J : Expr.Meaning n F} (hcall : ∀ f a, R (I.call f a) (J.call f a))

include hcall

set_option linter.unusedSectionVars false in
mutual

theorem evaluate : ∀ e : Expr, (∀ x ∈ e.names, R (I.lookup x) (J.lookup x)) →
    R (e.evaluate I) (e.evaluate J)
  | .literal v, _ => hR.pure _
  | .name x, h => h x (List.mem_singleton.2 rfl)
  | .tuple items, h => hR.bind (evaluateAll items h) fun _ => hR.pure _
  | .list items, h => hR.bind (evaluateAll items h) fun _ => hR.pure _
  | .binary op left right, h => by
    rw [Expr.names, List.forall_mem_append] at h
    exact hR.bind (evaluate left h.1) fun _ => hR.bind (evaluate right h.2) fun _ => hR.lift _
  | .unary op operand, h => hR.bind (evaluate operand h) fun _ => hR.lift _
  | .compare first rest, h => by
    rw [Expr.names, List.forall_mem_append] at h
    exact hR.bind (evaluate first h.1) fun _ => evaluateChain _ _ rest h.2
  | .subscript value index, h => by
    rw [Expr.names, List.forall_mem_append] at h
    exact hR.bind (evaluate value h.1) fun _ => hR.bind (evaluate index h.2) fun _ => hR.lift _
  | .slice lower upper step, h => by
    rw [Expr.names, List.forall_mem_append, List.forall_mem_append] at h
    exact hR.bind (evaluateOption lower h.1.1) fun _ => hR.bind (evaluateOption upper h.1.2) fun _ =>
      hR.bind (evaluateOption step h.2) fun _ => hR.pure _
  | .call f args keywords, h => by
    rw [Expr.names, List.forall_mem_cons, List.forall_mem_append] at h
    refine hR.bind h.1 fun g => ?_
    have hrest : R (do
          let vs ← Expr.evaluateAll I args
          let ks ← Expr.evaluateKeywords I [] keywords
          I.call g ⟨vs, ks⟩) (do
          let vs ← Expr.evaluateAll J args
          let ks ← Expr.evaluateKeywords J [] keywords
          J.call g ⟨vs, ks⟩) :=
      hR.bind (evaluateAll args h.2.1) fun _ => hR.bind (evaluateKeywords [] keywords h.2.2) fun _ =>
        hcall g _
    split
    · exact hR.bind (hR.throw _) fun _ => hrest
    · exact hrest

theorem evaluateAll : ∀ es : List Expr, (∀ x ∈ Expr.namesOfList es, R (I.lookup x) (J.lookup x)) →
    R (Expr.evaluateAll I es) (Expr.evaluateAll J es)
  | [], _ => hR.pure _
  | e :: es, h => by
    rw [Expr.namesOfList, List.forall_mem_append] at h
    exact hR.bind (evaluate e h.1) fun _ => hR.bind (evaluateAll es h.2) fun _ => hR.pure _

theorem evaluateChain : ∀ (result left : Value F) (rest : List (Comparison × Expr)),
    (∀ x ∈ Expr.namesOfRest rest, R (I.lookup x) (J.lookup x)) →
      R (Expr.evaluateChain I result left rest) (Expr.evaluateChain J result left rest)
  | _, _, [], _ => hR.pure _
  | _, _, (_, e) :: rest, h => by
    rw [Expr.namesOfRest, List.forall_mem_append] at h
    exact hR.bind (evaluate e h.1) fun _ => hR.bind (hR.lift _) fun _ => hR.bind (hR.lift _) fun _ =>
      evaluateChain _ _ rest h.2

theorem evaluateKeywords : ∀ (done : List (Option String × Value F))
    (rest : List (Option String × Expr)),
    (∀ x ∈ Expr.namesOfKeywords rest, R (I.lookup x) (J.lookup x)) →
      R (Expr.evaluateKeywords I done rest) (Expr.evaluateKeywords J done rest)
  | _, [], _ => hR.pure _
  | _, (_, e) :: rest, h => by
    rw [Expr.namesOfKeywords, List.forall_mem_append] at h
    exact hR.bind (evaluate e h.1) fun _ => evaluateKeywords _ rest h.2

theorem evaluateOption : ∀ e : Option Expr,
    (∀ x ∈ Expr.namesOfOption e, R (I.lookup x) (J.lookup x)) →
      R (Expr.evaluateOption I e) (Expr.evaluateOption J e)
  | none, _ => hR.pure _
  | some e, h => evaluate e h

end

theorem evaluateWith {e : Expression} (h : ∀ x ∈ e.tree.names, R (I.lookup x) (J.lookup x)) :
    R (e.evaluateWith I) (e.evaluateWith J) := by
  refine hR.tryCatch (hR.evaluate hcall e.tree h) fun err => ?_
  split
  · exact hR.throw _
  · exact hR.throw _

omit hcall in
theorem applyWith {evaluator : String → Arguments F → m (Value F)}
    {evaluator' : String → Arguments F → n (Value F)}
    (h : ∀ label a, R (evaluator label a) (evaluator' label a)) (depth : Nat) (f : Callable)
    (a : Arguments F) :
    R (Callable.applyWith evaluator depth f a) (Callable.applyWith evaluator' depth f a) := by
  induction depth generalizing f a with
  | zero => exact hR.throw _
  | succ depth ih =>
    have hscope (scope : Scope F) (e : Expression) :
        R (e.evaluateWith (Callable.inScope scope (Callable.applyWith evaluator depth)))
          (e.evaluateWith (Callable.inScope scope (Callable.applyWith evaluator' depth))) := by
      refine hR.evaluateWith (fun f a => ?_) fun x _ => hR.liftError _
      cases f with
      | function f => exact ih f a
      | _ => exact hR.throw _
    unfold Callable.applyWith
    split
    · exact hR.lift _
    · exact hscope _ _
    · exact hR.bind (hR.lift _) fun _ => hscope _ _
    · exact h _ _
    · exact hR.throw _
    · exact hR.throw _

end Relates

end AdditiveModel
