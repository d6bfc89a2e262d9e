import AdditiveModel.Proofs.Run
import AdditiveModel.Scope.Evaluate
import Mathlib.Logic.Relation

/-! What the evaluation of an expression can fail with. Every failure comes from one node of the tree:
a name without a value, a call of a value that is no function, a function that fails, or an operation
on the values of the parts. -/

namespace AdditiveModel

namespace Expr

def children : Expr → List Expr
  | literal _ | name _ => []
  | tuple items | list items => items
  | binary _ left right => [left, right]
  | unary _ operand => [operand]
  | compare first rest => first :: rest.map (·.2)
  | subscript value index => [value, index]
  | slice lower upper step => lower.toList ++ upper.toList ++ step.toList
  | call _ args keywords => args ++ keywords.map (·.2)

def Node : Expr → Expr → Prop := Relation.ReflTransGen fun e c => c ∈ e.children

variable {F : Type} [Scalar F]

/-- A failure that a node adds to the failures of its parts. `fails` holds of a function, its arguments
and an error that it may fail with. -/
inductive Raises (scope : Scope F) (fails : Callable → Arguments F → Error → Prop) :
    Expr → Error → Prop
  | unbound {x : String} : scope.get? x = none → Raises scope fails (.name x) (.unbound (Scope.resolve x))
  | function {f : String} {args : List Expr} {keywords : List (Option String × Expr)} :
    scope.get? f = none → Raises scope fails (.call f args keywords) (.unbound (Scope.resolve f))
  | notCallable {f : String} {args : List Expr} {keywords : List (Option String × Expr)} {g : Value F} :
    scope.get? f = some g → g.isCallable = false →
      Raises scope fails (.call f args keywords) (.notCallable f)
  | callee {f : String} {args : List Expr} {keywords : List (Option String × Expr)} {g : Callable}
    {a : Arguments F} {err : Error} :
    scope.get? f = some (.function g) → fails g a err → Raises scope fails (.call f args keywords) err
  | binary {op : BinaryOp} {left right : Expr} {a b : Value F} {kind : Fault} :
    Operator.binary? op a b = .error kind → Raises scope fails (.binary op left right) (.fault kind)
  | unary {op : UnaryOp} {operand : Expr} {a : Value F} {kind : Fault} :
    Operator.unary? op a = .error kind → Raises scope fails (.unary op operand) (.fault kind)
  | comparison {first : Expr} {rest : List (Comparison × Expr)} {op : Comparison} {a b : Value F}
    {kind : Fault} :
    op ∈ rest.map (·.1) → Operator.compare? op a b = .error kind →
      Raises scope fails (.compare first rest) (.fault kind)
  | both {first : Expr} {rest : List (Comparison × Expr)} {a b : Value F} {kind : Fault} :
    rest ≠ [] → Operator.both? a b = .error kind → Raises scope fails (.compare first rest) (.fault kind)
  | subscript {value index : Expr} {v k : Value F} {kind : Fault} :
    Subscript.value? v k = .error kind → Raises scope fails (.subscript value index) (.fault kind)

/-- A node of the expression fails. -/
def Faulty (scope : Scope F) (fails : Callable → Arguments F → Error → Prop) (e : Expr) (err : Error) :
    Prop :=
  ∃ n, e.Node n ∧ n.Raises scope fails err

section

variable {scope : Scope F} {fails : Callable → Arguments F → Error → Prop} {e c : Expr} {err : Error}

theorem Raises.faulty (h : e.Raises scope fails err) : e.Faulty scope fails err :=
  ⟨e, .refl, h⟩

theorem Faulty.of_child (h : c.Faulty scope fails err) (hc : c ∈ e.children) :
    e.Faulty scope fails err := by
  obtain ⟨n, hn, hraises⟩ := h
  exact ⟨n, .head hc hn, hraises⟩

end

end Expr

structure Failing {m : Type → Type} [Monad m] [MonadExceptOf Error m]
    (FailsWith : {α : Type} → m α → Error → Prop) : Prop where
  ofPure {α : Type} {a : α} {err : Error} : ¬ FailsWith (pure a : m α) err
  ofThrow {α : Type} {e err : Error} : FailsWith (throw e : m α) err → err = e
  ofThrowBind {α β : Type} {e err : Error} {f : α → m β} : FailsWith (throw e >>= f) err → err = e
  ofBind {α β : Type} {x : m α} {f : α → m β} {err : Error} :
    FailsWith (x >>= f) err → FailsWith x err ∨ ∃ a, FailsWith (f a) err
  ofTryCatch {α : Type} {x : m α} {f : Error → m α} {err : Error} :
    FailsWith (tryCatchThe Error x f) err → ∃ e, FailsWith x e ∧ FailsWith (f e) err

namespace Failing

variable {F : Type} [Scalar F] {m : Type → Type} [Monad m] [LawfulMonad m] [MonadExceptOf Error m]
  {FailsWith : {α : Type} → m α → Error → Prop} (hF : Failing (m := m) @FailsWith)

include hF

omit [LawfulMonad m] in
theorem ofLift {α : Type} {r : Except Fault α} {err : Error} (h : FailsWith (lift r : m α) err) :
    ∃ kind, r = .error kind ∧ err = .fault kind := by
  cases r with
  | error kind => exact ⟨kind, rfl, hF.ofThrow h⟩
  | ok a => exact absurd h hF.ofPure

theorem ofLiftBind {α β : Type} {r : Except Fault α} {f : α → m β} {err : Error}
    (h : FailsWith (lift r >>= f) err) :
    (∃ kind, r = .error kind ∧ err = .fault kind) ∨ ∃ a, r = .ok a ∧ FailsWith (f a) err := by
  cases r with
  | error kind => exact .inl ⟨kind, rfl, hF.ofThrowBind h⟩
  | ok a =>
    rw [lift, pure_bind] at h
    exact .inr ⟨a, rfl, h⟩

variable {scope : Scope F} {apply : Callable → Arguments F → m (Value F)} {err : Error}

set_option linter.unusedSectionVars false in
mutual

theorem evaluate : ∀ {e : Expr}, FailsWith (e.evaluate (Callable.inScope scope apply)) err →
    e.Faulty scope (fun g a => FailsWith (apply g a)) err
  | .literal v, h => absurd h hF.ofPure
  | .name x, h => by
    cases hx : scope.get? x with
    | none =>
      simp only [Expr.evaluate, Callable.inScope, Scope.lookup, hx, liftError] at h
      rw [hF.ofThrow h]
      exact Expr.Raises.faulty (.unbound hx)
    | some v =>
      simp only [Expr.evaluate, Callable.inScope, Scope.lookup, hx, liftError] at h
      exact absurd h hF.ofPure
  | .tuple items, h => by
    rcases hF.ofBind h with h | ⟨_, h⟩
    · obtain ⟨c, hc, h⟩ := evaluateAll h
      exact h.of_child hc
    · exact absurd h hF.ofPure
  | .list items, h => by
    rcases hF.ofBind h with h | ⟨_, h⟩
    · obtain ⟨c, hc, h⟩ := evaluateAll h
      exact h.of_child hc
    · exact absurd h hF.ofPure
  | .binary op left right, h => by
    rcases hF.ofBind h with h | ⟨a, h⟩
    · exact (evaluate h).of_child (by simp [Expr.children])
    rcases hF.ofBind h with h | ⟨b, h⟩
    · exact (evaluate h).of_child (by simp [Expr.children])
    obtain ⟨kind, hkind, rfl⟩ := hF.ofLift h
    exact Expr.Raises.faulty (.binary hkind)
  | .unary op operand, h => by
    rcases hF.ofBind h with h | ⟨a, h⟩
    · exact (evaluate h).of_child (by simp [Expr.children])
    obtain ⟨kind, hkind, rfl⟩ := hF.ofLift h
    exact Expr.Raises.faulty (.unary hkind)
  | .compare first rest, h => by
    rcases hF.ofBind h with h | ⟨a, h⟩
    · exact (evaluate h).of_child (by simp [Expr.children])
    rcases evaluateChain h with ⟨c, hc, h⟩ | ⟨op, hop, a, b, kind, hkind, rfl⟩ |
      ⟨hrest, a, b, kind, hkind, rfl⟩
    · exact h.of_child (List.mem_cons_of_mem _ hc)
    · exact Expr.Raises.faulty (.comparison hop hkind)
    · exact Expr.Raises.faulty (.both hrest hkind)
  | .subscript value index, h => by
    rcases hF.ofBind h with h | ⟨a, h⟩
    · exact (evaluate h).of_child (by simp [Expr.children])
    rcases hF.ofBind h with h | ⟨b, h⟩
    · exact (evaluate h).of_child (by simp [Expr.children])
    obtain ⟨kind, hkind, rfl⟩ := hF.ofLift h
    exact Expr.Raises.faulty (.subscript hkind)
  | .slice lower upper step, h => by
    rcases hF.ofBind h with h | ⟨a, h⟩
    · obtain ⟨c, hc, h⟩ := evaluateOption h
      exact h.of_child (by simp [Expr.children, Option.mem_def.1 hc])
    rcases hF.ofBind h with h | ⟨b, h⟩
    · obtain ⟨c, hc, h⟩ := evaluateOption h
      exact h.of_child (by simp [Expr.children, Option.mem_def.1 hc])
    rcases hF.ofBind h with h | ⟨c, h⟩
    · obtain ⟨c, hc, h⟩ := evaluateOption h
      exact h.of_child (by simp [Expr.children, Option.mem_def.1 hc])
    · exact absurd h hF.ofPure
  | .call f args keywords, h => by
    cases hf : scope.get? f with
    | none =>
      simp only [Expr.evaluate, Callable.inScope, Scope.lookup, hf, liftError] at h
      rw [hF.ofThrowBind h]
      exact Expr.Raises.faulty (.function hf)
    | some g =>
      have hlookup : (Callable.inScope scope apply).lookup f = pure g := by
        simp only [Callable.inScope, Scope.lookup, hf, liftError]
      simp only [Expr.evaluate, hlookup, pure_bind] at h
      cases hcallable : g.isCallable with
      | false =>
        rw [hcallable] at h
        rw [hF.ofThrowBind h]
        exact Expr.Raises.faulty (.notCallable hf hcallable)
      | true =>
        rw [hcallable] at h
        rcases hF.ofBind h with h | ⟨vs, h⟩
        · obtain ⟨c, hc, h⟩ := evaluateAll h
          exact h.of_child (List.mem_append_left _ hc)
        rcases hF.ofBind h with h | ⟨ks, h⟩
        · obtain ⟨c, hc, h⟩ := evaluateKeywords h
          exact h.of_child (List.mem_append_right _ hc)
        cases g with
        | function g => exact Expr.Raises.faulty (.callee hf h)
        | _ => cases hcallable

theorem evaluateAll : ∀ {es : List Expr},
    FailsWith (Expr.evaluateAll (Callable.inScope scope apply) es) err →
      ∃ c ∈ es, c.Faulty scope (fun g a => FailsWith (apply g a)) err
  | [], h => absurd h hF.ofPure
  | e :: es, h => by
    rcases hF.ofBind h with h | ⟨v, h⟩
    · exact ⟨e, List.mem_cons_self, evaluate h⟩
    rcases hF.ofBind h with h | ⟨vs, h⟩
    · obtain ⟨c, hc, h⟩ := evaluateAll h
      exact ⟨c, List.mem_cons_of_mem _ hc, h⟩
    · exact absurd h hF.ofPure

theorem evaluateChain : ∀ {result left : Value F} {rest : List (Comparison × Expr)},
    FailsWith (Expr.evaluateChain (Callable.inScope scope apply) result left rest) err →
      (∃ c ∈ rest.map (·.2), c.Faulty scope (fun g a => FailsWith (apply g a)) err) ∨
      (∃ op ∈ rest.map (·.1), ∃ (a b : Value F) (kind : Fault),
        Operator.compare? op a b = .error kind ∧ err = .fault kind) ∨
      rest ≠ [] ∧ ∃ (a b : Value F) (kind : Fault), Operator.both? a b = .error kind ∧ err = .fault kind
  | _, _, [], h => absurd h hF.ofPure
  | result, left, (op, e) :: rest, h => by
    rcases hF.ofBind h with h | ⟨right, h⟩
    · exact .inl ⟨e, List.mem_cons_self, evaluate h⟩
    rcases hF.ofLiftBind h with ⟨kind, hkind, rfl⟩ | ⟨holds, -, h⟩
    · exact .inr (.inl ⟨op, List.mem_cons_self, left, right, kind, hkind, rfl⟩)
    rcases hF.ofLiftBind h with ⟨kind, hkind, rfl⟩ | ⟨both, -, h⟩
    · exact .inr (.inr ⟨List.cons_ne_nil _ _, result, holds, kind, hkind, rfl⟩)
    rcases evaluateChain h with ⟨c, hc, h⟩ | ⟨op', hop, h⟩ | ⟨-, h⟩
    · exact .inl ⟨c, List.mem_cons_of_mem _ hc, h⟩
    · exact .inr (.inl ⟨op', List.mem_cons_of_mem _ hop, h⟩)
    · exact .inr (.inr ⟨List.cons_ne_nil _ _, h⟩)

theorem evaluateKeywords : ∀ {done : List (Option String × Value F)}
    {rest : List (Option String × Expr)},
    FailsWith (Expr.evaluateKeywords (Callable.inScope scope apply) done rest) err →
      ∃ c ∈ rest.map (·.2), c.Faulty scope (fun g a => FailsWith (apply g a)) err
  | _, [], h => absurd h hF.ofPure
  | _, (_, e) :: rest, h => by
    rcases hF.ofBind h with h | ⟨v, h⟩
    · exact ⟨e, List.mem_cons_self, evaluate h⟩
    · obtain ⟨c, hc, h⟩ := evaluateKeywords h
      exact ⟨c, List.mem_cons_of_mem _ hc, h⟩

theorem evaluateOption : ∀ {o : Option Expr},
    FailsWith (Expr.evaluateOption (Callable.inScope scope apply) o) err →
      ∃ c ∈ o, c.Faulty scope (fun g a => FailsWith (apply g a)) err
  | none, h => absurd h hF.ofPure
  | some e, h => ⟨e, rfl, evaluate h⟩

end

end Failing

/-- What the expression reports where its tree fails. -/
def Expression.report (e : Expression) (err : Error) : Error :=
  match err.category with
  | .evaluation => err
  | _ => .failed e.text err

theorem Expression.category_report (e : Expression) (err : Error) :
    (e.report err).category = .evaluation := by
  unfold report
  split
  · assumption
  · rfl

namespace Failing

variable {F : Type} [Scalar F] {m : Type → Type} [Monad m] [MonadExceptOf Error m]
  {FailsWith : {α : Type} → m α → Error → Prop} (hF : Failing (m := m) @FailsWith)

include hF

theorem evaluateWith {I : Expr.Meaning m F} {e : Expression} {err : Error}
    (h : FailsWith (e.evaluateWith I) err) :
    ∃ cause, FailsWith (e.tree.evaluate I) cause ∧ err = e.report cause := by
  obtain ⟨cause, hcause, h⟩ := hF.ofTryCatch h
  refine ⟨cause, hcause, ?_⟩
  unfold Expression.report
  cases hcategory : cause.category with
  | evaluation =>
    rw [hcategory] at h
    exact hF.ofThrow h
  | _ =>
    rw [hcategory] at h
    exact hF.ofThrow h

theorem category {I : Expr.Meaning m F} {e : Expression} {err : Error}
    (h : FailsWith (e.evaluateWith I) err) : err.category = .evaluation := by
  obtain ⟨cause, -, rfl⟩ := hF.evaluateWith h
  exact e.category_report cause

end Failing

theorem failing_error : Failing (m := Except Error) fun x err => x = .error err where
  ofPure h := by cases h
  ofThrow h := by
    cases h
    rfl
  ofThrowBind h := by
    cases h
    rfl
  ofBind {α β x f err} h := by
    cases x with
    | error e =>
      obtain rfl : e = err := Except.error.inj h
      exact .inl rfl
    | ok a => exact .inr ⟨a, h⟩
  ofTryCatch {α x f err} h := by
    cases x with
    | error e => exact ⟨e, rfl, h⟩
    | ok a => cases h

namespace Run

variable {σ α : Type}

/-- From some state the computation ends in the error. -/
def FailsWith (x : Run σ α) (err : Error) : Prop := ∃ s t, outcome x s = (.error err, t)

theorem failing : Failing (m := Run σ) (@FailsWith σ) where
  ofPure := by
    rintro _ _ _ ⟨s, t, h⟩
    simp at h
  ofThrow := by
    rintro _ _ _ ⟨s, t, h⟩
    simp only [outcome_throw, Prod.mk.injEq, Except.error.injEq] at h
    exact h.1.symm
  ofThrowBind := by
    rintro _ _ _ _ _ ⟨s, t, h⟩
    simp only [outcome_bind, outcome_throw, Prod.mk.injEq, Except.error.injEq] at h
    exact h.1.symm
  ofBind := by
    rintro _ _ x f _ ⟨s, t, h⟩
    rw [outcome_bind] at h
    rcases hx : outcome x s with ⟨e | a, r⟩
    · simp only [hx, Prod.mk.injEq, Except.error.injEq] at h
      obtain ⟨rfl, rfl⟩ := h
      exact .inl ⟨s, r, hx⟩
    · rw [hx] at h
      exact .inr ⟨a, r, t, h⟩
  ofTryCatch := by
    rintro _ x f _ ⟨s, t, h⟩
    rw [outcome_tryCatch] at h
    rcases hx : outcome x s with ⟨e | a, r⟩
    · rw [hx] at h
      exact ⟨e, ⟨s, r, hx⟩, r, t, h⟩
    · rw [hx] at h
      simp at h

end Run

theorem category_of_evaluateWith {F σ : Type} [Scalar F] {I : Expr.Meaning (Run σ) F} {e : Expression}
    {s t : σ} {err : Error} (h : (e.evaluateWith I).outcome s = (.error err, t)) :
    err.category = .evaluation :=
  Run.failing.category ⟨s, t, h⟩

end AdditiveModel
