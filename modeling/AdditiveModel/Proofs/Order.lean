import AdditiveModel.Proofs.Evaluation
import AdditiveModel.Proofs.Exact
import AdditiveModel.Proofs.Failure
import AdditiveModel.Proofs.Strictness
import Mathlib.Data.List.Forall2

/-! What an evaluation asks its scope for. Each name is looked up and each call is made once, operands
and arguments from left to right, so an expression depends on its names only and has no value where one
of them has none. -/

namespace AdditiveModel

variable {F σ : Type}

/-- A name that is looked up, or the call of the function that was found under a name. -/
inductive Step where
  | resolve (name : String)
  | perform (name : String)
  deriving DecidableEq, Repr

def Step.resolved? : Step → Option String
  | resolve x => some x
  | perform _ => none

namespace Expr

mutual

/-- The steps of an evaluation: for a call, its name comes first and the call itself last. -/
def order : Expr → List Step
  | literal _ => []
  | name x => [.resolve x]
  | tuple items | list items => orderOfList items
  | binary _ left right => order left ++ order right
  | unary _ operand => order operand
  | compare first rest => order first ++ orderOfRest rest
  | subscript value index => order value ++ order index
  | slice lower upper step => orderOfOption lower ++ orderOfOption upper ++ orderOfOption step
  | call f args keywords =>
    .resolve f :: (orderOfList args ++ orderOfKeywords keywords ++ [.perform f])

def orderOfList : List Expr → List Step
  | [] => []
  | e :: es => order e ++ orderOfList es

def orderOfRest : List (Comparison × Expr) → List Step
  | [] => []
  | (_, e) :: es => order e ++ orderOfRest es

def orderOfKeywords : List (Option String × Expr) → List Step
  | [] => []
  | (_, e) :: es => order e ++ orderOfKeywords es

def orderOfOption : Option Expr → List Step
  | none => []
  | some e => order e

end

mutual

theorem resolved_order : ∀ e : Expr, e.order.filterMap Step.resolved? = e.names
  | literal _ | name _ => rfl
  | tuple items | list items => resolved_list items
  | binary _ left right | subscript left right => by
    rw [order, List.filterMap_append, resolved_order left, resolved_order right, names]
  | unary _ operand => resolved_order operand
  | compare first rest => by
    rw [order, List.filterMap_append, resolved_order first, resolved_rest rest, names]
  | slice lower upper step => by
    rw [order, List.filterMap_append, List.filterMap_append, resolved_option lower,
      resolved_option upper, resolved_option step, names]
  | call f args keywords => by
    rw [order, List.filterMap_cons_some (rfl : (Step.resolve f).resolved? = some f),
      List.filterMap_append, List.filterMap_append, resolved_list args, resolved_keywords keywords,
      names, List.filterMap_cons_none rfl, List.filterMap_nil, List.append_nil]

theorem resolved_list : ∀ es : List Expr,
    (orderOfList es).filterMap Step.resolved? = namesOfList es
  | [] => rfl
  | e :: es => by
    rw [orderOfList, List.filterMap_append, resolved_order e, resolved_list es, namesOfList]

theorem resolved_rest : ∀ rest : List (Comparison × Expr),
    (orderOfRest rest).filterMap Step.resolved? = namesOfRest rest
  | [] => rfl
  | (_, e) :: rest => by
    rw [orderOfRest, List.filterMap_append, resolved_order e, resolved_rest rest, namesOfRest]

theorem resolved_keywords : ∀ keywords : List (Option String × Expr),
    (orderOfKeywords keywords).filterMap Step.resolved? = namesOfKeywords keywords
  | [] => rfl
  | (_, e) :: keywords => by
    rw [orderOfKeywords, List.filterMap_append, resolved_order e, resolved_keywords keywords,
      namesOfKeywords]

theorem resolved_option : ∀ o : Option Expr,
    (orderOfOption o).filterMap Step.resolved? = namesOfOption o
  | none => rfl
  | some e => resolved_order e

end

example : (call "f" [binary .add (name "x") (call "g" [] [])] [(some "k", name "y")]).order =
    [.resolve "f", .resolve "x", .resolve "g", .perform "g", .resolve "y", .perform "f"] := rfl

end Expr

/-- What was asked for, with what it gave. -/
inductive Event (F : Type) where
  | lookup (name : String) (value : Value F)
  | call (function : Value F) (arguments : Arguments F) (value : Value F)

/-- An event is a step of the evaluation: a call is one of the function that was found under its
name. -/
inductive Event.IsStep (record : List (Event F)) : Step → Event F → Prop
  | resolve (x : String) (v : Value F) : IsStep record (.resolve x) (.lookup x v)
  | perform {f : String} {g : Value F} (a : Arguments F) (v : Value F) :
    Event.lookup f g ∈ record → IsStep record (.perform f) (.call g a v)

def Event.Continues (steps : List Step) (before after : List (Event F)) : Prop :=
  ∃ more, after = before ++ more ∧ List.Forall₂ (Event.IsStep more) steps more

namespace Event

theorem IsStep.mono {record record' : List (Event F)} {step : Step} {event : Event F}
    (h : IsStep record step event) (hsub : record ⊆ record') : IsStep record' step event := by
  cases h with
  | resolve x v => exact .resolve x v
  | perform a v hg => exact .perform a v (hsub hg)

theorem Continues.nil (log : List (Event F)) : Continues [] log log :=
  ⟨[], (List.append_nil log).symm, .nil⟩

theorem Continues.append {steps steps' : List Step} {a b c : List (Event F)}
    (h : Continues steps a b) (h' : Continues steps' b c) : Continues (steps ++ steps') a c := by
  obtain ⟨more, rfl, hmore⟩ := h
  obtain ⟨more', rfl, hmore'⟩ := h'
  refine ⟨more ++ more', List.append_assoc _ _ _, List.rel_append ?_ ?_⟩
  · exact hmore.imp fun _ _ h => h.mono (List.subset_append_left _ _)
  · exact hmore'.imp fun _ _ h => h.mono (List.subset_append_right _ _)

theorem Continues.call {f : String} {g v : Value F} {a : Arguments F} {steps : List Step}
    {before after : List (Event F)} (h : Continues steps (before ++ [.lookup f g]) after) :
    Continues (.resolve f :: (steps ++ [.perform f])) before (after ++ [.call g a v]) := by
  obtain ⟨more, rfl, hmore⟩ := h
  refine ⟨.lookup f g :: (more ++ [.call g a v]), by simp, .cons (.resolve f g) ?_⟩
  refine List.rel_append ?_ (.cons (.perform a v List.mem_cons_self) .nil)
  exact hmore.imp fun _ _ h =>
    h.mono (List.subset_cons_of_subset _ (List.subset_append_left _ _))

end Event

namespace Expr.Meaning

def record (x : Run σ (Value F)) (event : Value F → Event F) : Run (σ × List (Event F)) (Value F) := do
  let v ← Run.within (·.1) (fun s t => (t, s.2)) x
  Run.change fun s => (s.1, s.2 ++ [event v])
  return v

theorem outcome_record (x : Run σ (Value F)) (event : Value F → Event F) (s : σ)
    (log : List (Event F)) :
    (record x event).outcome (s, log) =
      match x.outcome s with
      | (.ok v, t) => (.ok v, (t, log ++ [event v]))
      | (.error e, t) => (.error e, (t, log)) := by
  rw [record, Run.outcome_bind, Run.outcome_within]
  rcases x.outcome s with ⟨_ | v, t⟩
  · rfl
  · rfl

/-- The same meaning, with a record of the names and calls. -/
def recorded (I : Meaning (Run σ) F) : Meaning (Run (σ × List (Event F))) F where
  lookup x := record (I.lookup x) (.lookup x)
  call g a := record (I.call g a) (.call g a)

def SameBut {α : Type} (x : Run σ α) (y : Run (σ × List (Event F)) α) : Prop :=
  ∀ s log, ∃ more, y.outcome (s, log) = ((x.outcome s).1, ((x.outcome s).2, log ++ more))

theorem sameBut_record (x : Run σ (Value F)) (event : Value F → Event F) :
    SameBut x (record x event) := by
  intro s log
  rw [outcome_record]
  rcases x.outcome s with ⟨e | v, t⟩
  · exact ⟨[], by rw [List.append_nil]⟩
  · exact ⟨[event v], rfl⟩

theorem sameBut : Relates (m := Run σ) (n := Run (σ × List (Event F))) SameBut where
  pure a s log := ⟨[], by simp⟩
  bind {α β x y f g} hxy hfg s log := by
    obtain ⟨more, hy⟩ := hxy s log
    rw [Run.outcome_bind, Run.outcome_bind, hy]
    rcases x.outcome s with ⟨e | a, t⟩
    · exact ⟨more, rfl⟩
    · obtain ⟨more', hg⟩ := hfg a t (log ++ more)
      exact ⟨more ++ more', by rw [← List.append_assoc]; exact hg⟩
  throw e s log := ⟨[], by simp⟩
  tryCatch {α x y f g} hxy hfg s log := by
    obtain ⟨more, hy⟩ := hxy s log
    rw [Run.outcome_tryCatch, Run.outcome_tryCatch, hy]
    rcases x.outcome s with ⟨e | a, t⟩
    · obtain ⟨more', hg⟩ := hfg e t (log ++ more)
      exact ⟨more ++ more', by rw [← List.append_assoc]; exact hg⟩
    · exact ⟨more, rfl⟩

theorem record_continues {x : Run σ (Value F)} {event : Value F → Event F} {p q : σ × List (Event F)}
    {v : Value F} (h : (record x event).outcome p = (.ok v, q)) : q.2 = p.2 ++ [event v] := by
  obtain ⟨s, log⟩ := p
  rw [outcome_record] at h
  rcases hx : x.outcome s with ⟨_ | v', t⟩
  · simp [hx] at h
  · simp only [hx, Prod.mk.injEq, Except.ok.injEq] at h
    obtain ⟨rfl, rfl⟩ := h
    rfl

section Evaluation

variable [Scalar F] {I : Meaning (Run σ) F}

mutual

theorem evaluate_continues : ∀ {e : Expr} {p q : σ × List (Event F)} {v : Value F},
    (e.evaluate I.recorded).outcome p = (.ok v, q) → Event.Continues e.order p.2 q.2
  | .literal _, p, q, v, h => by
    cases h
    exact .nil _
  | .name x, p, q, v, h =>
    ⟨[.lookup x v], record_continues h, .cons (.resolve x v) .nil⟩
  | .tuple items, p, q, v, h => by
    obtain ⟨vs, r, h, hpure⟩ := Run.bind_eq_ok.1 h
    cases hpure
    exact evaluateAll_continues h
  | .list items, p, q, v, h => by
    obtain ⟨vs, r, h, hpure⟩ := Run.bind_eq_ok.1 h
    cases hpure
    exact evaluateAll_continues h
  | .binary op left right, p, q, v, h => by
    obtain ⟨a, r, hleft, h⟩ := Run.bind_eq_ok.1 h
    obtain ⟨b, r', hright, h⟩ := Run.bind_eq_ok.1 h
    obtain rfl := Run.state_lift h
    exact (evaluate_continues hleft).append (evaluate_continues hright)
  | .unary op operand, p, q, v, h => by
    obtain ⟨a, r, hoperand, h⟩ := Run.bind_eq_ok.1 h
    obtain rfl := Run.state_lift h
    rw [order]
    exact evaluate_continues hoperand
  | .compare first rest, p, q, v, h => by
    obtain ⟨a, r, hfirst, h⟩ := Run.bind_eq_ok.1 h
    exact (evaluate_continues hfirst).append (evaluateChain_continues h)
  | .subscript value index, p, q, v, h => by
    obtain ⟨a, r, hvalue, h⟩ := Run.bind_eq_ok.1 h
    obtain ⟨b, r', hindex, h⟩ := Run.bind_eq_ok.1 h
    obtain rfl := Run.state_lift h
    exact (evaluate_continues hvalue).append (evaluate_continues hindex)
  | .slice lower upper step, p, q, v, h => by
    obtain ⟨a, r, hlower, h⟩ := Run.bind_eq_ok.1 h
    obtain ⟨b, r', hupper, h⟩ := Run.bind_eq_ok.1 h
    obtain ⟨c, r'', hstep, h⟩ := Run.bind_eq_ok.1 h
    cases h
    exact ((evaluateOption_continues hlower).append (evaluateOption_continues hupper)).append
      (evaluateOption_continues hstep)
  | .call f args keywords, p, q, v, h => by
    obtain ⟨g, r, hlookup, h⟩ := Run.bind_eq_ok.1 h
    have hfound : r.2 = p.2 ++ [.lookup f g] := record_continues hlookup
    split at h
    · obtain ⟨_, _, h, -⟩ := Run.bind_eq_ok.1 h
      simp at h
    obtain ⟨vs, r', hargs, h⟩ := Run.bind_eq_ok.1 h
    obtain ⟨ks, r'', hkeywords, h⟩ := Run.bind_eq_ok.1 h
    have hcalled : q.2 = r''.2 ++ [.call g ⟨vs, ks⟩ v] := record_continues h
    have hinside := (evaluateAll_continues hargs).append (evaluateKeywords_continues hkeywords)
    rw [hfound] at hinside
    rw [hcalled]
    exact hinside.call

theorem evaluateAll_continues : ∀ {es : List Expr} {p q : σ × List (Event F)} {vs : List (Value F)},
    (evaluateAll I.recorded es).outcome p = (.ok vs, q) → Event.Continues (orderOfList es) p.2 q.2
  | [], p, q, vs, h => by
    cases h
    exact .nil _
  | e :: es, p, q, vs, h => by
    obtain ⟨v, r, he, h⟩ := Run.bind_eq_ok.1 h
    obtain ⟨ws, r', hes, h⟩ := Run.bind_eq_ok.1 h
    cases h
    exact (evaluate_continues he).append (evaluateAll_continues hes)

theorem evaluateChain_continues : ∀ {result left : Value F} {rest : List (Comparison × Expr)}
    {p q : σ × List (Event F)} {v : Value F},
    (evaluateChain I.recorded result left rest).outcome p = (.ok v, q) →
      Event.Continues (orderOfRest rest) p.2 q.2
  | _, _, [], p, q, v, h => by
    cases h
    exact .nil _
  | _, _, (op, e) :: rest, p, q, v, h => by
    obtain ⟨right, r, he, h⟩ := Run.bind_eq_ok.1 h
    obtain ⟨holds, r', hholds, h⟩ := Run.bind_eq_ok.1 h
    obtain ⟨both, r'', hboth, h⟩ := Run.bind_eq_ok.1 h
    obtain rfl := Run.state_lift hholds
    obtain rfl := Run.state_lift hboth
    exact (evaluate_continues he).append (evaluateChain_continues h)

theorem evaluateKeywords_continues : ∀ {done : List (Option String × Value F)}
    {rest : List (Option String × Expr)} {p q : σ × List (Event F)}
    {ks : List (Option String × Value F)},
    (evaluateKeywords I.recorded done rest).outcome p = (.ok ks, q) →
      Event.Continues (orderOfKeywords rest) p.2 q.2
  | _, [], p, q, ks, h => by
    cases h
    exact .nil _
  | _, (_, e) :: rest, p, q, ks, h => by
    obtain ⟨v, r, he, h⟩ := Run.bind_eq_ok.1 h
    exact (evaluate_continues he).append (evaluateKeywords_continues h)

theorem evaluateOption_continues : ∀ {o : Option Expr} {p q : σ × List (Event F)} {v : Value F},
    (evaluateOption I.recorded o).outcome p = (.ok v, q) →
      Event.Continues (orderOfOption o) p.2 q.2
  | none, p, q, v, h => by
    cases h
    exact .nil _
  | some e, p, q, v, h => evaluate_continues h

end

end Evaluation

end Expr.Meaning

theorem relates_eq {m : Type → Type} [Monad m] [MonadExceptOf Error m] :
    Relates (m := m) (n := m) Eq where
  pure _ := rfl
  bind hxy hfg := by rw [hxy, funext hfg]
  throw _ := rfl
  tryCatch hxy hfg := by rw [hxy, funext hfg]

theorem relates_outcome :
    Relates (m := Except Error) (n := Run σ) fun x y => ∀ s, y.outcome s = (x, s) where
  pure _ _ := rfl
  bind {α β x y f g} hxy hfg s := by
    rw [Run.outcome_bind, hxy s]
    cases x with
    | error e => rfl
    | ok a => exact hfg a s
  throw _ _ := rfl
  tryCatch {α x y f g} hxy hfg s := by
    rw [Run.outcome_tryCatch, hxy s]
    cases x with
    | error e => exact hfg e s
    | ok a => rfl

namespace Expression

open AdditiveModel.Expr AdditiveModel.Expr.Meaning

theorem mem_names {e : Expression} {x : String} : x ∈ e.names ↔ x ∈ e.tree.names := by
  rw [names, List.mem_mergeSort, List.mem_eraseDups]

variable [Scalar F] {e : Expression}

theorem evaluateWith_recorded {I : Meaning (Run σ) F} {s t : σ} {v : Value F}
    (h : (e.evaluateWith I).outcome s = (.ok v, t)) :
    ∃ record, (e.evaluateWith I.recorded).outcome (s, []) = (.ok v, (t, record)) ∧
      List.Forall₂ (Event.IsStep record) e.tree.order record := by
  have hsame : SameBut (e.evaluateWith I) (e.evaluateWith I.recorded) :=
    sameBut.evaluateWith (fun g a => sameBut_record _ _) fun x _ => sameBut_record _ _
  obtain ⟨record, hrecord⟩ := hsame s []
  rw [h, List.nil_append] at hrecord
  refine ⟨record, hrecord, ?_⟩
  rw [evaluateWith, Run.outcome_tryCatch] at hrecord
  rcases htree : (e.tree.evaluate I.recorded).outcome (s, []) with ⟨err | v', q⟩
  · rw [htree] at hrecord
    cases hcategory : err.category <;> simp [hcategory] at hrecord
  · simp only [htree, Prod.mk.injEq, Except.ok.injEq] at hrecord
    obtain ⟨rfl, rfl⟩ := hrecord
    obtain ⟨more, hmore, hsteps⟩ := evaluate_continues htree
    obtain rfl : record = more := hmore
    exact hsteps

theorem evaluateWith_unbound {scope : Scope F} {x : String} (hx : x ∈ e.names)
    (hnone : scope.get? x = none) (apply : Callable → Arguments F → Except Error (Value F)) :
    ∃ err, e.evaluateWith (Callable.inScope scope apply) = .error err ∧ err.category = .evaluation := by
  have hlookup : ∀ v, (Callable.inScope scope apply).lookup x ≠ .ok v := by
    simp [Callable.inScope, Scope.lookup, hnone]
  cases h : e.evaluateWith (Callable.inScope scope apply) with
  | ok v => exact absurd h (strict_error.evaluateWith hlookup (mem_names.1 hx) v)
  | error err => exact ⟨err, rfl, failing_error.category h⟩

theorem outcome_evaluateWith_unbound {scope : Scope F} {x : String} (hx : x ∈ e.names)
    (hnone : scope.get? x = none) (apply : Callable → Arguments F → Run σ (Value F)) (s : σ) :
    ∃ err t, (e.evaluateWith (Callable.inScope scope apply)).outcome s = (.error err, t) ∧
      err.category = .evaluation := by
  have hlookup : ((Callable.inScope scope apply).lookup x).Fails := by
    intro s v t h
    simp [Callable.inScope, Scope.lookup, hnone] at h
  rcases h : (e.evaluateWith (Callable.inScope scope apply)).outcome s with ⟨err | v, t⟩
  · exact ⟨err, t, rfl, category_of_evaluateWith h⟩
  · exact absurd h (Run.strict.evaluateWith hlookup (mem_names.1 hx) s v t)

theorem outcome_evaluateWith_pure (scope : Scope F)
    (apply : Callable → Arguments F → Except Error (Value F)) (s : σ) :
    Run.outcome (e.evaluateWith (Callable.inScope scope fun g a => liftError (apply g a))) s =
      (e.evaluateWith (Callable.inScope scope apply), s) := by
  refine relates_outcome.evaluateWith (fun g a s => ?_) (fun x _ s => ?_) s
  · cases g with
    | function g => exact Run.outcome_liftError _ s
    | _ => rfl
  · exact (Run.outcome_liftError _ s).trans (congrArg (·, s) liftError_eq.symm)

theorem evaluateWith_congr {m : Type → Type} [Monad m] [MonadExceptOf Error m] {scope scope' : Scope F}
    (h : ∀ x ∈ e.names, scope.lookup x = scope'.lookup x)
    (apply : Callable → Arguments F → m (Value F)) :
    e.evaluateWith (Callable.inScope scope apply) = e.evaluateWith (Callable.inScope scope' apply) :=
  relates_eq.evaluateWith (I := Callable.inScope scope apply) (J := Callable.inScope scope' apply)
    (fun _ _ => rfl) fun x hx => congrArg liftError (h x (mem_names.2 hx))

/-- Every name of an expression is looked up once and every call is made once, in the order of the
text; a name without a value leaves the expression without one, and nothing but its names matters. -/
theorem evaluateWith_ordered (e : Expression) :
    e.tree.order.filterMap Step.resolved? = e.tree.names ∧
    (∀ (σ : Type) (I : Meaning (Run σ) F) (s t : σ) (v : Value F),
      (e.evaluateWith I).outcome s = (.ok v, t) →
        ∃ record, (e.evaluateWith I.recorded).outcome (s, []) = (.ok v, (t, record)) ∧
          List.Forall₂ (Event.IsStep record) e.tree.order record) ∧
    (∀ (scope : Scope F) (apply : Callable → Arguments F → Except Error (Value F)) (σ : Type) (s : σ),
      Run.outcome (e.evaluateWith (Callable.inScope scope fun g a => liftError (apply g a))) s =
        (e.evaluateWith (Callable.inScope scope apply), s)) ∧
    (∀ x ∈ e.names, ∀ scope : Scope F, scope.get? x = none →
      (∀ apply : Callable → Arguments F → Except Error (Value F),
        ∃ err, e.evaluateWith (Callable.inScope scope apply) = .error err ∧
          err.category = .evaluation) ∧
      ∀ (σ : Type) (apply : Callable → Arguments F → Run σ (Value F)) (s : σ),
        ∃ err t, (e.evaluateWith (Callable.inScope scope apply)).outcome s = (.error err, t) ∧
          err.category = .evaluation) ∧
    ∀ scope scope' : Scope F, (∀ x ∈ e.names, scope.lookup x = scope'.lookup x) →
      ∀ (m : Type → Type) [Monad m] [MonadExceptOf Error m]
        (apply : Callable → Arguments F → m (Value F)),
        e.evaluateWith (Callable.inScope scope apply) =
          e.evaluateWith (Callable.inScope scope' apply) :=
  ⟨resolved_order e.tree, fun _ _ _ _ _ h => evaluateWith_recorded h,
    fun scope apply _ s => outcome_evaluateWith_pure scope apply s,
    fun _ hx _ hnone => ⟨evaluateWith_unbound hx hnone, fun _ => outcome_evaluateWith_unbound hx hnone⟩,
    fun _ _ h _ _ _ apply => evaluateWith_congr h apply⟩

def nestedCall : Expression where
  text := "u_eval(x + b_eval(y), k=y)"
  tree := .call "u_eval" [.binary .add (.name "x") (.call "b_eval" [.name "y"] [])] [(some "k", .name "y")]

def nestedScope : Scope ℚ :=
  Scope.ofSymbols [("u_eval", .function (.evaluator "u")), ("b_eval", .function (.evaluator "b")),
    ("x", .int 2), ("y", .int 3)]

def numbered (_ : Callable) (_ : Arguments ℚ) : Run Int (Value ℚ) := do
  let n ← Run.read
  Run.write (n + 1)
  return .int n

/-- The inner call comes after the name of the outer one and before its last argument. Without `y` there
is no value, also where no call fails. -/
theorem nestedCall_ordered :
    (∃ record : List (Event ℚ),
      (nestedCall.evaluateWith (Callable.inScope nestedScope numbered).recorded).outcome (0, []) =
        (.ok (.int 1), (2, record)) ∧
      List.Forall₂ (Event.IsStep record) nestedCall.tree.order record ∧
      record = [.lookup "u_eval" (.function (.evaluator "u")), .lookup "x" (.int 2),
        .lookup "b_eval" (.function (.evaluator "b")), .lookup "y" (.int 3),
        .call (.function (.evaluator "b")) ⟨[.int 3], []⟩ (.int 0), .lookup "y" (.int 3),
        .call (.function (.evaluator "u")) ⟨[.int 2], [(some "k", .int 3)]⟩ (.int 1)]) ∧
    ∃ err t, (nestedCall.evaluateWith
        (Callable.inScope (Scope.ofSymbols [("x", .int 2)]) numbered)).outcome 0 = (.error err, t) ∧
      err.category = .evaluation := by
  obtain ⟨-, hrecord, -, hunbound, -⟩ := evaluateWith_ordered (F := ℚ) nestedCall
  obtain ⟨record, houtcome, hsteps⟩ := hrecord Int (Callable.inScope nestedScope numbered) 0 2 (.int 1) rfl
  refine ⟨⟨record, houtcome, hsteps, ?_⟩, ?_⟩
  · exact (congrArg (·.2.2) houtcome).symm
  · have hname : "y" ∈ nestedCall.names := mem_names.2 (by decide)
    exact (hunbound "y" hname _ rfl).2 Int numbered 0

end Expression

end AdditiveModel
