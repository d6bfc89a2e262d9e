import AdditiveModel.Expr.Expression
import AdditiveModel.Proofs.Exact
import AdditiveModel.Proofs.Failure

/-! The check of an expression and its evaluation. The check walks over all nodes of a tree as read and
looks at each by itself; the evaluation descends from the root and has a case for each construct that
it knows. What the check lets through has a case everywhere. -/

namespace AdditiveModel

namespace Surface

/-- A tree and everything below it. -/
def Node : Surface → Surface → Prop := Relation.ReflTransGen fun s c => c ∈ s.children

theorem depth_pos (s : Surface) : 0 < s.depth := by
  cases s <;> simp only [depth] <;> omega

theorem depth_le_list {items : List Surface} {s : Surface} (h : s ∈ items) :
    s.depth ≤ depthOfList items := by
  induction items with
  | nil => cases h
  | cons t items ih =>
    rw [depthOfList]
    rcases List.mem_cons.1 h with rfl | h
    · exact Nat.le_max_left _ _
    · exact Nat.le_trans (ih h) (Nat.le_max_right _ _)

theorem depth_le_rest {rest : List (Except String Comparison × Surface)} {s : Surface}
    (h : s ∈ rest.map (·.2)) : s.depth ≤ depthOfRest rest := by
  induction rest with
  | nil => cases h
  | cons e rest ih =>
    rw [depthOfRest]
    rcases List.mem_cons.1 h with rfl | h
    · exact Nat.le_max_left _ _
    · exact Nat.le_trans (ih h) (Nat.le_max_right _ _)

theorem depth_le_keywords {keywords : List (Option String × Surface)} {s : Surface}
    (h : s ∈ keywords.map (·.2)) : s.depth ≤ depthOfKeywords keywords := by
  induction keywords with
  | nil => cases h
  | cons e keywords ih =>
    rw [depthOfKeywords]
    rcases List.mem_cons.1 h with rfl | h
    · exact Nat.le_max_left _ _
    · exact Nat.le_trans (ih h) (Nat.le_max_right _ _)

theorem depth_option {o : Option Surface} {s : Surface} (h : s ∈ o.toList) :
    s.depth = depthOfOption o := by
  rw [Option.mem_toList] at h
  cases h
  rfl

theorem depth_lt {s c : Surface} (h : c ∈ s.children) : c.depth < s.depth := by
  cases s with
  | literal | name | foreign => simp [children] at h
  | tuple items =>
    have := depth_le_list (show c ∈ items from h)
    simp only [depth]
    omega
  | list items =>
    have := depth_le_list (show c ∈ items from h)
    simp only [depth]
    omega
  | unary op operand =>
    obtain rfl := List.mem_singleton.1 h
    simp only [depth]
    omega
  | argument value =>
    obtain rfl := List.mem_singleton.1 h
    simp only [depth]
    omega
  | binary op left right | subscript left right =>
    simp only [children, List.mem_cons, List.not_mem_nil, or_false] at h
    rcases h with rfl | rfl <;> simp only [depth] <;> omega
  | strange left operator right =>
    simp only [children, List.mem_cons, List.not_mem_nil, or_false] at h
    rcases h with rfl | rfl | rfl <;> simp only [depth] <;> omega
  | compare first rest =>
    simp only [children, List.mem_cons, List.mem_append, List.mem_filterMap] at h
    rcases h with rfl | ⟨⟨op, e⟩, -, hop⟩ | h
    · simp only [depth]
      omega
    · cases op with
      | ok op => cases hop
      | error construct =>
        cases hop
        simp only [depth]
        omega
    · have := depth_le_rest h
      simp only [depth]
      omega
  | slice lower upper step =>
    simp only [children, List.mem_append] at h
    rcases h with (h | h) | h <;> have := depth_option h <;> simp only [depth] <;> omega
  | call function args keywords =>
    simp only [children, List.mem_cons, List.mem_append, List.mem_map] at h
    rcases h with rfl | h | ⟨⟨x, e⟩, he, rfl⟩
    · simp only [depth]
      omega
    · have := depth_le_list h
      simp only [depth]
      omega
    · have := depth_le_keywords (s := e) (List.mem_map_of_mem he)
      simp only [depth]
      omega

def Clean (s : Surface) : Prop := ∀ n, s.Node n → n.offence? = none

theorem clean_iff {s : Surface} : s.Clean ↔ s.offence? = none ∧ ∀ c ∈ s.children, c.Clean := by
  constructor
  · intro h
    exact ⟨h s .refl, fun c hc n hn => h n (.head hc hn)⟩
  · rintro ⟨hs, hbelow⟩ n hn
    rcases Relation.ReflTransGen.cases_head hn with rfl | ⟨c, hc, hn⟩
    · exact hs
    · exact hbelow c hc n hn

/-- The check looks at every node, level by level, and finds what is refused among them. -/
theorem refusalFrom_eq_none {levels : Nat} {nodes : List Surface}
    (h : ∀ n ∈ nodes, n.depth ≤ levels) :
    refusalFrom levels nodes = none ↔ ∀ n ∈ nodes, n.Clean := by
  induction levels generalizing nodes with
  | zero =>
    have hnil : nodes = [] := by
      refine List.eq_nil_iff_forall_not_mem.2 fun n hn => ?_
      have := depth_pos n
      have := h n hn
      omega
    simp [hnil, refusalFrom]
  | succ levels ih =>
    have hbelow : ∀ c ∈ nodes.flatMap children, c.depth ≤ levels := by
      intro c hc
      obtain ⟨n, hn, hc⟩ := List.mem_flatMap.1 hc
      have := depth_lt hc
      have := h n hn
      omega
    rw [refusalFrom]
    cases hfound : nodes.findSome? offence? with
    | none =>
      rw [List.findSome?_eq_none_iff] at hfound
      simp only [ih hbelow, List.mem_flatMap]
      constructor
      · intro hclean n hn
        exact clean_iff.2 ⟨hfound n hn, fun c hc => hclean c ⟨n, hn, hc⟩⟩
      · rintro hclean c ⟨n, hn, hc⟩
        exact (clean_iff.1 (hclean n hn)).2 c hc
    | some refusal =>
      obtain ⟨n, hn, hrefusal⟩ := List.exists_of_findSome?_eq_some hfound
      simp only [reduceCtorEq, false_iff]
      intro hclean
      rw [(clean_iff.1 (hclean n hn)).1] at hrefusal
      cases hrefusal

theorem refusal_eq_none {s : Surface} : s.refusal? = none ↔ s.Clean := by
  rw [refusal?, refusalFrom_eq_none (by simp), List.forall_mem_singleton]

theorem refusalFrom_eq_some {levels : Nat} {nodes : List Surface} {refusal : Refusal}
    (h : refusalFrom levels nodes = some refusal) :
    ∃ s ∈ nodes, ∃ n, s.Node n ∧ n.offence? = some refusal := by
  induction levels generalizing nodes with
  | zero => cases h
  | succ levels ih =>
    rw [refusalFrom] at h
    cases hfound : nodes.findSome? offence? with
    | some refusal' =>
      rw [hfound] at h
      cases h
      obtain ⟨n, hn, hrefusal⟩ := List.exists_of_findSome?_eq_some hfound
      exact ⟨n, hn, n, .refl, hrefusal⟩
    | none =>
      rw [hfound] at h
      obtain ⟨c, hc, n, hn, hrefusal⟩ := ih h
      obtain ⟨s, hs, hc⟩ := List.mem_flatMap.1 hc
      exact ⟨s, hs, n, .head hc hn, hrefusal⟩

theorem not_clean_foreign {construct : String} : ¬ (foreign construct).Clean := by
  intro h
  cases h _ .refl

mutual

theorem exists_toExpr : ∀ {s : Surface}, s.Clean → ∃ e, s.toExpr? = some e
  | literal v, _ => ⟨.literal v, rfl⟩
  | name x, _ => ⟨.name x, rfl⟩
  | tuple items, h => by
    obtain ⟨es, hes⟩ := exists_list (show ∀ s ∈ items, s.Clean from (clean_iff.1 h).2)
    exact ⟨.tuple es, by rw [toExpr?, hes, Option.map_some]⟩
  | list items, h => by
    obtain ⟨es, hes⟩ := exists_list (show ∀ s ∈ items, s.Clean from (clean_iff.1 h).2)
    exact ⟨.list es, by rw [toExpr?, hes, Option.map_some]⟩
  | binary op left right, h => by
    have h := (clean_iff.1 h).2
    simp only [children, List.forall_mem_cons] at h
    obtain ⟨a, ha⟩ := exists_toExpr h.1
    obtain ⟨b, hb⟩ := exists_toExpr h.2.1
    exact ⟨.binary op a b, by simp [toExpr?, ha, hb]⟩
  | strange left operator right, h => by
    have h := (clean_iff.1 h).2
    simp only [children, List.forall_mem_cons] at h
    exact absurd h.2.1 not_clean_foreign
  | unary op operand, h => by
    obtain ⟨a, ha⟩ := exists_toExpr ((clean_iff.1 h).2 operand (List.mem_singleton.2 rfl))
    exact ⟨.unary op a, by rw [toExpr?, ha, Option.map_some]⟩
  | compare first rest, h => by
    have h := (clean_iff.1 h).2
    simp only [children, List.forall_mem_cons, List.forall_mem_append] at h
    obtain ⟨a, ha⟩ := exists_toExpr h.1
    obtain ⟨es, hes⟩ := exists_rest h.2.1 h.2.2
    exact ⟨.compare a es, by simp [toExpr?, ha, hes]⟩
  | subscript value index, h => by
    have h := (clean_iff.1 h).2
    simp only [children, List.forall_mem_cons] at h
    obtain ⟨a, ha⟩ := exists_toExpr h.1
    obtain ⟨b, hb⟩ := exists_toExpr h.2.1
    exact ⟨.subscript a b, by simp [toExpr?, ha, hb]⟩
  | slice lower upper step, h => by
    have h := (clean_iff.1 h).2
    simp only [children, List.forall_mem_append] at h
    obtain ⟨a, ha⟩ := exists_option h.1.1
    obtain ⟨b, hb⟩ := exists_option h.1.2
    obtain ⟨c, hc⟩ := exists_option h.2
    exact ⟨.slice a b c, by simp [toExpr?, ha, hb, hc]⟩
  | call function args keywords, h => by
    obtain ⟨hself, h⟩ := clean_iff.1 h
    simp only [children, List.forall_mem_cons, List.forall_mem_append] at h
    obtain ⟨es, hes⟩ := exists_list h.2.1
    obtain ⟨ks, hks⟩ := exists_keywords h.2.2
    cases function with
    | name f => exact ⟨.call f es ks, by simp [toExpr?, hes, hks]⟩
    | _ => cases hself
  | argument value, h => by
    obtain ⟨a, ha⟩ := exists_toExpr ((clean_iff.1 h).2 value (List.mem_singleton.2 rfl))
    exact ⟨a, by rw [toExpr?, ha]⟩
  | foreign _, h => absurd h not_clean_foreign

theorem exists_list : ∀ {items : List Surface}, (∀ s ∈ items, s.Clean) →
    ∃ es, listToExpr? items = some es
  | [], _ => ⟨[], rfl⟩
  | s :: items, h => by
    rw [List.forall_mem_cons] at h
    obtain ⟨a, ha⟩ := exists_toExpr h.1
    obtain ⟨es, hes⟩ := exists_list h.2
    exact ⟨a :: es, by simp [listToExpr?, ha, hes]⟩

theorem exists_rest : ∀ {rest : List (Except String Comparison × Surface)},
    (∀ s ∈ rest.filterMap (ofOperator ·.1), s.Clean) → (∀ s ∈ rest.map (·.2), s.Clean) →
      ∃ es, restToExpr? rest = some es
  | [], _, _ => ⟨[], rfl⟩
  | (.ok op, s) :: rest, hops, h => by
    rw [List.map_cons, List.forall_mem_cons] at h
    obtain ⟨a, ha⟩ := exists_toExpr h.1
    obtain ⟨es, hes⟩ := exists_rest (show ∀ s ∈ rest.filterMap (ofOperator ·.1), s.Clean from hops) h.2
    exact ⟨(op, a) :: es, by simp [restToExpr?, ha, hes]⟩
  | (.error construct, s) :: rest, hops, _ =>
    absurd (hops (foreign construct) List.mem_cons_self) not_clean_foreign

theorem exists_keywords : ∀ {keywords : List (Option String × Surface)},
    (∀ s ∈ keywords.map (argument ·.2), s.Clean) → ∃ es, keywordsToExpr? keywords = some es
  | [], _ => ⟨[], rfl⟩
  | (x, s) :: keywords, h => by
    rw [List.map_cons, List.forall_mem_cons] at h
    obtain ⟨a, ha⟩ := exists_toExpr ((clean_iff.1 h.1).2 s (List.mem_singleton.2 rfl))
    obtain ⟨es, hes⟩ := exists_keywords h.2
    exact ⟨(x, a) :: es, by simp [keywordsToExpr?, ha, hes]⟩

theorem exists_option : ∀ {o : Option Surface}, (∀ s ∈ o.toList, s.Clean) →
    ∃ e, optionToExpr? o = some e
  | none, _ => ⟨none, rfl⟩
  | some s, h => by
    obtain ⟨a, ha⟩ := exists_toExpr (h s (List.mem_singleton.2 rfl))
    exact ⟨some a, by simp [optionToExpr?, ha]⟩

end

section Visit

variable {F : Type} [Scalar F] {m : Type → Type} [Monad m] [MonadExceptOf Error m]
  (I : Expr.Meaning m F) (unknown : Surface → m (Value F))

mutual

/-- The evaluation of a tree as read, whether it has been checked or not. `unknown` answers what the
evaluation has no case or no operator for. -/
def visit : Surface → m (Value F)
  | literal v => pure v.value
  | name x => I.lookup x
  | tuple items => do return .tuple (← visitAll items)
  | list items => do return .list (← visitAll items)
  | binary op left right => do
    let a ← visit left
    let b ← visit right
    lift (Operator.binary? op a b)
  | strange left operator right => unknown (strange left operator right)
  | unary op operand => do
    let a ← visit operand
    lift (Operator.unary? op a)
  | compare first rest => do
    let a ← visit first
    visitChain (.bool true) a rest
  | subscript value index => do
    let v ← visit value
    let k ← visit index
    lift (Subscript.value? v k)
  | slice lower upper step => do
    let a ← visitOption lower
    let b ← visitOption upper
    let c ← visitOption step
    return .slice a b c
  | call function args keywords => do
    let g ← visit function
    if !g.isCallable then
      match function with
      | name f => throw (Error.notCallable f)
      | _ => discard (unknown function)
    let vs ← visitAll args
    let ks ← visitKeywords [] keywords
    I.call g ⟨vs, ks⟩
  | argument value => visit value
  | foreign construct => unknown (foreign construct)

def visitAll : List Surface → m (List (Value F))
  | [] => pure []
  | s :: rest => do
    let v ← visit s
    return v :: (← visitAll rest)

def visitChain (result left : Value F) : List (Except String Comparison × Surface) → m (Value F)
  | [] => pure result
  | (.ok op, s) :: rest => do
    let right ← visit s
    let holds ← lift (Operator.compare? op left right)
    let result ← lift (Operator.both? result holds)
    visitChain result right rest
  | (.error construct, s) :: _ => do
    let _ ← visit s
    unknown (foreign construct)

def visitKeywords (done : List (Option String × Value F)) :
    List (Option String × Surface) → m (List (Option String × Value F))
  | [] => pure done
  | (k, s) :: rest => do
    let v ← visit s
    visitKeywords (Arguments.setKeyword done k v) rest

def visitOption : Option Surface → m (Value F)
  | none => pure .null
  | some s => visit s

end

variable {I unknown}

mutual

/-- Where a tree stands for an expression, no node of it is unknown to the evaluation. -/
theorem visit_eq : ∀ {s : Surface} {e : Expr}, s.toExpr? = some e →
    s.visit I unknown = e.evaluate I
  | literal v, e, h => by
    cases h
    rfl
  | name x, e, h => by
    cases h
    rfl
  | tuple items, e, h => by
    obtain ⟨es, hes, rfl⟩ := Option.map_eq_some_iff.1 h
    rw [visit, Expr.evaluate, visitAll_eq hes]
  | list items, e, h => by
    obtain ⟨es, hes, rfl⟩ := Option.map_eq_some_iff.1 h
    rw [visit, Expr.evaluate, visitAll_eq hes]
  | binary op left right, e, h => by
    simp only [toExpr?, Option.bind_eq_bind, Option.bind_eq_some_iff, Option.pure_def,
      Option.some_inj] at h
    obtain ⟨a, ha, b, hb, rfl⟩ := h
    rw [visit, Expr.evaluate, visit_eq ha, visit_eq hb]
  | strange _ _ _, e, h => by cases h
  | unary op operand, e, h => by
    obtain ⟨a, ha, rfl⟩ := Option.map_eq_some_iff.1 h
    rw [visit, Expr.evaluate, visit_eq ha]
  | compare first rest, e, h => by
    simp only [toExpr?, Option.bind_eq_bind, Option.bind_eq_some_iff, Option.pure_def,
      Option.some_inj] at h
    obtain ⟨a, ha, es, hes, rfl⟩ := h
    rw [visit, Expr.evaluate, visit_eq ha]
    exact bind_congr fun v => visitChain_eq hes
  | subscript value index, e, h => by
    simp only [toExpr?, Option.bind_eq_bind, Option.bind_eq_some_iff, Option.pure_def,
      Option.some_inj] at h
    obtain ⟨a, ha, b, hb, rfl⟩ := h
    rw [visit, Expr.evaluate, visit_eq ha, visit_eq hb]
  | slice lower upper step, e, h => by
    simp only [toExpr?, Option.bind_eq_bind, Option.bind_eq_some_iff, Option.pure_def,
      Option.some_inj] at h
    obtain ⟨a, ha, b, hb, c, hc, rfl⟩ := h
    rw [visit, Expr.evaluate, visitOption_eq ha, visitOption_eq hb, visitOption_eq hc]
  | call (name f) args keywords, e, h => by
    simp only [toExpr?, Option.bind_eq_bind, Option.bind_eq_some_iff, Option.pure_def,
      Option.some_inj] at h
    obtain ⟨es, hes, ks, hks, rfl⟩ := h
    rw [visit, Expr.evaluate, visit, visitAll_eq hes, visitKeywords_eq hks]
  | argument value, e, h => visit_eq (s := value) h
  | foreign _, e, h => by cases h

theorem visitAll_eq : ∀ {items : List Surface} {es : List Expr}, listToExpr? items = some es →
    visitAll I unknown items = Expr.evaluateAll I es
  | [], es, h => by
    cases h
    rfl
  | s :: items, es, h => by
    simp only [listToExpr?, Option.bind_eq_bind, Option.bind_eq_some_iff, Option.pure_def,
      Option.some_inj] at h
    obtain ⟨a, ha, as, has, rfl⟩ := h
    rw [visitAll, Expr.evaluateAll, visit_eq ha, visitAll_eq has]

theorem visitChain_eq : ∀ {result left : Value F}
    {rest : List (Except String Comparison × Surface)} {es : List (Comparison × Expr)},
      restToExpr? rest = some es →
        visitChain I unknown result left rest = Expr.evaluateChain I result left es
  | _, _, [], es, h => by
    cases h
    rfl
  | _, _, (.ok op, s) :: rest, es, h => by
    simp only [restToExpr?, Option.bind_eq_bind, Option.bind_eq_some_iff, Option.pure_def,
      Option.some_inj] at h
    obtain ⟨a, ha, as, has, rfl⟩ := h
    rw [visitChain, Expr.evaluateChain, visit_eq ha]
    exact bind_congr fun _ => bind_congr fun _ => bind_congr fun _ => visitChain_eq has
  | _, _, (.error _, _) :: _, es, h => by cases h

theorem visitKeywords_eq : ∀ {done : List (Option String × Value F)}
    {keywords : List (Option String × Surface)} {es : List (Option String × Expr)},
      keywordsToExpr? keywords = some es →
        visitKeywords I unknown done keywords = Expr.evaluateKeywords I done es
  | _, [], es, h => by
    cases h
    rfl
  | _, (x, s) :: keywords, es, h => by
    simp only [keywordsToExpr?, Option.bind_eq_bind, Option.bind_eq_some_iff, Option.pure_def,
      Option.some_inj] at h
    obtain ⟨a, ha, as, has, rfl⟩ := h
    rw [visitKeywords, Expr.evaluateKeywords, visit_eq ha]
    exact bind_congr fun _ => visitKeywords_eq has

theorem visitOption_eq : ∀ {o : Option Surface} {e : Option Expr}, optionToExpr? o = some e →
    visitOption I unknown o = Expr.evaluateOption I e
  | none, e, h => by
    cases h
    rfl
  | some s, e, h => by
    simp only [optionToExpr?, Option.bind_eq_bind, Option.bind_eq_some_iff, Option.pure_def,
      Option.some_inj] at h
    obtain ⟨a, ha, rfl⟩ := h
    exact visit_eq ha

end

end Visit

end Surface

namespace Surface

theorem Refusal.category_error (refusal : Refusal) (text : String) :
    (refusal.error text).category = .evaluation := by
  cases refusal <;> rfl

end Surface

namespace Expression

variable {F : Type} [Scalar F] {text : String} {s : Surface}

theorem ofText_of_clean (hs : Grammar.parse (Token.scan (clean text)) = .ok s) (h : s.Clean) :
    ∃ e, ofText text = .ok e ∧ s.toExpr? = some e.tree := by
  obtain ⟨tree, htree⟩ := Surface.exists_toExpr h
  refine ⟨⟨clean text, tree⟩, ?_, htree⟩
  simp only [ofText, tree?, hs, Surface.refusal_eq_none.2 h, htree, Except.map]

theorem ofText_of_not_clean (hs : Grammar.parse (Token.scan (clean text)) = .ok s) (h : ¬ s.Clean) :
    ∃ n refusal, s.Node n ∧ n.offence? = some refusal ∧
      ofText text = .error (refusal.error (clean text)) := by
  cases hrefusal : s.refusal? with
  | none => exact absurd (Surface.refusal_eq_none.1 hrefusal) h
  | some refusal =>
    obtain ⟨s', hs', n, hn, hoffence⟩ := Surface.refusalFrom_eq_some hrefusal
    obtain rfl := List.mem_singleton.1 hs'
    exact ⟨n, refusal, hn, hoffence, by simp only [ofText, tree?, hs, hrefusal, Except.map]⟩

/-- The check lets through what the evaluation knows: a text is an expression when no node of its tree
is refused. The evaluation of an expression then meets nothing unknown, and where it fails it reports a
failing node. -/
theorem ofText_closed (hs : Grammar.parse (Token.scan (clean text)) = .ok s) :
    ((∃ e, ofText text = .ok e) ↔ ∀ n, s.Node n → n.offence? = none) ∧
    (∀ n, s.Node n → n.offence? ≠ none →
      ∃ err, ofText text = .error err ∧ err.category = .evaluation) ∧
    ∀ e, ofText text = .ok e →
      (∀ (m : Type → Type) [Monad m] [MonadExceptOf Error m] (I : Expr.Meaning m F)
        (unknown : Surface → m (Value F)), s.visit I unknown = e.tree.evaluate I) ∧
      (∀ (scope : Scope F) (apply : Callable → Arguments F → Except Error (Value F)) (err : Error),
        e.evaluateWith (Callable.inScope scope apply) = .error err →
          ∃ cause, e.tree.Faulty scope (fun g a err => apply g a = .error err) cause ∧
            err = e.report cause) ∧
      ∀ (σ : Type) (scope : Scope F) (apply : Callable → Arguments F → Run σ (Value F)) (err : Error),
        (e.evaluateWith (Callable.inScope scope apply)).FailsWith err →
          ∃ cause, e.tree.Faulty scope (fun g a => (apply g a).FailsWith) cause ∧
            err = e.report cause := by
  have hrefused (h : ¬ s.Clean) : ∃ err, ofText text = .error err ∧ err.category = .evaluation := by
    obtain ⟨n, refusal, -, -, herror⟩ := ofText_of_not_clean hs h
    exact ⟨_, herror, refusal.category_error _⟩
  have hclean {e : Expression} (he : ofText text = .ok e) : s.Clean := by
    by_contra h
    obtain ⟨err, herror, -⟩ := hrefused h
    rw [he] at herror
    cases herror
  refine ⟨⟨fun ⟨e, he⟩ => hclean he, fun h => ?_⟩, fun n hn hoffence => ?_, fun e he => ⟨?_, ?_, ?_⟩⟩
  · obtain ⟨e, he, -⟩ := ofText_of_clean hs h
    exact ⟨e, he⟩
  · exact hrefused fun h => hoffence (h n hn)
  · intro m _ _ I unknown
    obtain ⟨e', he', htree⟩ := ofText_of_clean hs (hclean he)
    obtain rfl := Except.ok.inj (he.symm.trans he')
    exact Surface.visit_eq htree
  · intro scope apply err h
    obtain ⟨cause, hcause, rfl⟩ := failing_error.evaluateWith h
    exact ⟨cause, failing_error.evaluate hcause, rfl⟩
  · intro σ scope apply err h
    obtain ⟨cause, hcause, rfl⟩ := Run.failing.evaluateWith h
    exact ⟨cause, Run.failing.evaluate hcause, rfl⟩

theorem exists_parsed (text : String) (refusal : Option Surface.Refusal)
    (h : (Grammar.parse (Token.scan (clean text))).toOption.map Surface.refusal? = some refusal) :
    ∃ s, Grammar.parse (Token.scan (clean text)) = .ok s ∧ s.refusal? = refusal := by
  obtain ⟨s, hs⟩ := exists_of_isSome (x := Grammar.parse (Token.scan (clean text))) (by
    rw [← Option.isSome_map, h, Option.isSome_some])
  rw [hs] at h
  exact ⟨s, hs, Option.some_inj.1 h⟩

/-- A tuple, a subscript, a sign and a comparison are known; a shift is not, wherever it stands. -/
theorem shift_refused :
    (∃ e, ofText "~ -(4, 5)[0] < 3" = .ok e) ∧
      ∃ err, ofText "[1, (2 << 3,)]" = .error err ∧ err.category = .evaluation := by
  obtain ⟨known, hknown, hnone⟩ := exists_parsed "~ -(4, 5)[0] < 3" none (by decide +kernel)
  obtain ⟨shift, hshift, hsome⟩ := exists_parsed "[1, (2 << 3,)]" (some (.unsupported "LShift")) (by
    decide +kernel)
  obtain ⟨s, hs, n, hn, hoffence⟩ := Surface.refusalFrom_eq_some hsome
  obtain rfl := List.mem_singleton.1 hs
  exact ⟨(ofText_closed (F := ℚ) hknown).1.2 (Surface.refusal_eq_none.1 hnone),
    (ofText_closed (F := ℚ) hshift).2.1 n hn (by rw [hoffence]; nofun)⟩

example : ∀ entry ∈ [("2 ^ 3", "BitXor"), ("1 and 2", "BoolOp"), ("1 if 2 else 3", "IfExp"),
    ("1 in (2,)", "In"), ("1 is 2", "Is"), ("lambda: 1", "Lambda"), ("\x7b1: 2\x7d", "Dict"),
    ("\x7b1\x7d", "Set"), ("[*(1, 2)]", "Starred"), ("[2 for (3)[0] in 4]", "ListComp"), ("f'\x7b1\x7d'", "JoinedStr"),
    ("await 1", "Await"), ("(yield)", "Yield")],
    (Grammar.parse (Token.scan entry.1)).toOption.bind Surface.refusal? =
      some (.unsupported entry.2) := by
  decide +kernel

end Expression

end AdditiveModel
