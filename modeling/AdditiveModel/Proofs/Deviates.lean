import AdditiveModel.Proofs.Draws
import AdditiveModel.Proofs.Exact

/-! Calls of evaluators that share one context, between two changes of the active state: every
unknown level of a component is drawn once, by the first call that needs it, and all calls return
that deviate. A change of the active state forgets all deviates. -/

namespace AdditiveModel.Evaluator

variable {F : Type} [Scalar F]

/-- A step of a run: a state is made active, or an evaluator is called and returns values. -/
inductive Event (F : Type) where
  | advance (k : Int)
  | call (c : Component F) (scope : Scope F) (a : Arguments F) (values : List F)

/-- The levels without a latent variable that a step asks for, at each point that holds one. -/
def Event.levels : Event F → List (String × String)
  | .advance _ => []
  | .call c scope a _ =>
    match reading? c scope a with
    | .ok r => (keysAt r.main r.unknown).map (c.label, ·)
    | .error _ => []

/-- Steps one after the other on one context; every call succeeds. -/
inductive History (generator : Generator) (start : Context F) : List (Event F) → Context F → Prop
  | nil : History generator start [] start
  | advance {es : List (Event F)} {s : Context F} (k : Int) : History generator start es s →
      History generator start (es ++ [.advance k]) (s.advance (some k))
  | call {es : List (Event F)} {s t : Context F} {c : Component F} {scope : Scope F}
      {a : Arguments F} {values : List F} : History generator start es s →
      (call c scope generator a).outcome s = (.ok (column values), t) →
      History generator start (es ++ [.call c scope a values]) t

/-- What a step draws, after the levels `seen` were asked for and `draws` were made. A call draws a
deviate for each of its levels that was not seen before, in the order of their first appearance and
with the precision of its scope. It returns the deviate of its level at every unknown point, and the
mapper's value at every other one. The unknown points are those whose value is no level. -/
def Event.Accounts (seen : List (String × String)) (draws now : List (Draw F)) : Event F → Prop
  | .advance _ => now = []
  | .call c scope a values => ∃ r, reading? c scope a = .ok r ∧
      (∀ m levels, c.role = .iid → c.mapper = some m → m.firstStage = .index levels →
        r.unknown = r.main.cells.map fun v => (Mapper.Levels.position? levels v.plain).isNone) ∧
      now.map Draw.level =
        ((keysAt r.main r.unknown).eraseDups.filter fun k => (c.label, k) ∉ seen).map (c.label, ·) ∧
      (∀ d ∈ now, ∃ v p ps, scope.lookup (precisionName c.label) = .ok v ∧ v.vector? = .ok (p :: ps) ∧
        d.scale = Scalar.pow p (Scalar.ofRatio (-1) 2)) ∧
      values.length = r.values.length ∧
      ∀ (j : Nat) (x : Value F), r.main.cells[j]? = some x →
        (r.unknown[j]? = some true → ∃ d ∈ draws ++ now,
          d.level = (c.label, x.plain.plainText) ∧ values[j]? = some d.value) ∧
        (r.unknown[j]? ≠ some true → values[j]? = r.values[j]?)

/-- The draws of each step of a run. No level is drawn twice, the random source is asked for nothing
else, and it answers step by step. -/
structure Accounted (generator : Generator) (s : Context F) (es : List (Event F))
    (draws : List (List (Draw F))) : Prop where
  length : draws.length = es.length
  nodup : (draws.flatten.map Draw.level).Nodup
  levels (p : String × String) : p ∈ draws.flatten.map Draw.level ↔ p ∈ es.flatMap Event.levels
  drawn : ∀ i ≤ es.length, ∃ t, History generator s (es.take i) t ∧
    Drawn generator s.source (draws.take i).flatten t.source
  event {i : Nat} {e : Event F} {now : List (Draw F)} : es[i]? = some e → draws[i]? = some now →
    e.Accounts ((es.take i).flatMap Event.levels) (draws.take i).flatten now

section Accounted

variable {generator : Generator} {s t : Context F} {es : List (Event F)}
  {draws : List (List (Draw F))} {now : List (Draw F)}

theorem Accounted.nil : Accounted generator s [] [] where
  length := rfl
  nodup := List.nodup_nil
  levels p := by simp
  drawn i hi := ⟨s, by simpa using History.nil, by simpa using Drawn.nil⟩
  event h := by simp at h

theorem Accounted.snoc (h : Accounted generator s es draws) {e : Event F}
    (hhistory : History generator s (es ++ [e]) t)
    (hdrawn : Drawn generator s.source (draws.flatten ++ now) t.source)
    (hnodup : ((draws.flatten ++ now).map Draw.level).Nodup)
    (hlevels : ∀ p, p ∈ now.map Draw.level ↔ p ∈ e.levels ∧ p ∉ es.flatMap Event.levels)
    (haccounts : e.Accounts (es.flatMap Event.levels) draws.flatten now) :
    Accounted generator s (es ++ [e]) (draws ++ [now]) := by
  have hlength : (draws ++ [now]).length = (es ++ [e]).length := by simp [h.length]
  refine ⟨hlength, by simpa using hnodup, fun p => ?_, fun i hi => ?_, fun {i e' now'} he hnow => ?_⟩
  · simp only [List.flatten_append, List.flatten_singleton, List.map_append, List.mem_append, h.levels,
      hlevels, List.flatMap_append, List.flatMap_singleton]
    tauto
  · rw [List.length_append, List.length_singleton] at hi
    rcases Nat.lt_or_ge es.length i with hlt | hle
    · obtain rfl : i = es.length + 1 := by omega
      refine ⟨t, ?_, ?_⟩
      · rwa [List.take_of_length_le (by simp)]
      · rwa [List.take_of_length_le (by simp [h.length]), List.flatten_append, List.flatten_singleton]
    · rw [List.take_append_of_le_length hle, List.take_append_of_le_length (h.length ▸ hle)]
      exact h.drawn i hle
  · rcases Nat.lt_trichotomy i es.length with hlt | rfl | hgt
    · rw [List.getElem?_append_left hlt] at he
      rw [List.getElem?_append_left (h.length ▸ hlt)] at hnow
      rw [List.take_append_of_le_length (Nat.le_of_lt hlt),
        List.take_append_of_le_length (h.length ▸ Nat.le_of_lt hlt)]
      exact h.event he hnow
    · rw [List.getElem?_concat_length, Option.some_inj] at he
      rw [← h.length, List.getElem?_concat_length, Option.some_inj] at hnow
      subst he hnow
      rw [List.take_left, ← h.length, List.take_left]
      exact haccounts
    · rw [List.getElem?_eq_none (by simp; omega)] at he
      simp at he

end Accounted

/-- The levels that a call draws are those of its levels that were not seen before. -/
theorem mem_drawn {c : Component F} {r : Reading F} {seen : List (String × String)}
    {now : List (Draw F)}
    (h : now.map Draw.level =
      ((keysAt r.main r.unknown).eraseDups.filter fun k => (c.label, k) ∉ seen).map (c.label, ·))
    (p : String × String) :
    p ∈ now.map Draw.level ↔ p ∈ (keysAt r.main r.unknown).map (c.label, ·) ∧ p ∉ seen := by
  rw [h]
  simp only [List.mem_map, List.mem_filter, List.mem_eraseDups, decide_eq_true_iff]
  constructor
  · rintro ⟨k, ⟨hk, hseen⟩, rfl⟩
    exact ⟨⟨k, hk, rfl⟩, hseen⟩
  · rintro ⟨⟨k, hk, rfl⟩, hseen⟩
    exact ⟨k, ⟨hk, hseen⟩, rfl⟩

omit [Scalar F] in
theorem column_inj {values values' : List F} : column values = column values' ↔ values = values' := by
  constructor
  · intro h
    simp only [column, Value.array.injEq] at h
    exact List.map_injective_iff.2 (fun _ _ => Value.float.inj) h.2.2
  · rintro rfl
    rfl

/-- Every run without a change of the active state, from a context without deviates. -/
theorem History.accounted {generator : Generator} {s t : Context F} {es : List (Event F)}
    (hes : History generator s es t) (hs : s.deviates = [])
    (hsame : ∀ k, .advance k ∈ es → s.active = some k) :
    ∃ draws, Accounted generator s es draws ∧ Drawn generator s.source draws.flatten t.source ∧
      Ledger draws.flatten t.deviates ∧ t.active = s.active := by
  -- the deviates that are kept are the draws so far, so a call finds exactly the levels seen before
  induction hes with
  | nil => exact ⟨[], .nil, .nil, by simpa [hs] using Ledger.empty, rfl⟩
  | advance k hes ih =>
    obtain ⟨draws, haccounted, hdrawn, hledger, hactive⟩ :=
      ih fun k hk => hsame k (List.mem_append_left _ hk)
    have hk := hsame k (List.mem_append_right _ List.mem_cons_self)
    have hstep := hes.advance k
    rw [Context.advance_of_eq (hactive.trans hk)] at hstep ⊢
    refine ⟨draws ++ [[]], haccounted.snoc hstep ?_ ?_ ?_ rfl, ?_, ?_, hactive⟩
    · simpa using hdrawn
    · simpa using haccounted.nodup
    · simp [Event.levels]
    · simpa using hdrawn
    · simpa using hledger
  | @call es s' t c scope a values hes hcall ih =>
    obtain ⟨draws, haccounted, hdrawn, hledger, hactive⟩ :=
      ih fun k hk => hsame k (List.mem_append_left _ hk)
    obtain ⟨_, now, hvalues, hanswered⟩ := call_eq_ok hledger hcall
    obtain rfl := column_inj.1 hvalues
    obtain ⟨r, hr, hlevels, hlength, hat⟩ := hanswered.reading
    have hflatten : (draws ++ [now]).flatten = draws.flatten ++ now := by simp
    have hseen : (keysAt r.main r.unknown).eraseDups.filter (fun k =>
        (c.label, k) ∉ draws.flatten.map Draw.level) =
        (keysAt r.main r.unknown).eraseDups.filter fun k =>
          (c.label, k) ∉ es.flatMap Event.levels := by
      refine List.filter_congr fun k _ => ?_
      rw [decide_eq_decide, haccounted.levels]
    rw [hseen] at hlevels
    refine ⟨draws ++ [now], haccounted.snoc (hes.call hcall) (hdrawn.trans hanswered.drawn)
      hanswered.ledger.nodup ?_ ?_, ?_, ?_, hanswered.active.trans hactive⟩
    · intro p
      rw [mem_drawn hlevels]
      simp only [Event.levels, hr]
    · have hunknown : ∀ m levels, c.role = .iid → c.mapper = some m → m.firstStage = .index levels →
          r.unknown = r.main.cells.map fun v => (Mapper.Levels.position? levels v.plain).isNone :=
        fun m levels hrole hm hfirst => unknown_eq hr hrole hm hfirst
      exact ⟨r, hr, hunknown, hlevels, fun d hd => deviation_eq_ok (hanswered.scale d hd), hlength, hat⟩
    · rw [hflatten]
      exact hdrawn.trans hanswered.drawn
    · rw [hflatten]
      exact hanswered.ledger

/-- A context at the start, or one in which another state just became active. -/
def Begins (s : Context F) : Prop :=
  (∃ source, s = .start source) ∨
    ∃ (r : Context F) (k : Int), r.active ≠ some k ∧ s = r.advance (some k)

omit [Scalar F] in
theorem Begins.deviates {s : Context F} (h : Begins s) : s.deviates = [] := by
  rcases h with ⟨source, rfl⟩ | ⟨r, k, hk, rfl⟩
  · rfl
  · rw [Context.advance_of_ne hk]
    rfl

/-- Between two changes of the active state each unknown level of a component is drawn once, by the
first call that asks for it, and is the same at every point of every call. Nothing that was drawn
before the state became active is returned. -/
theorem drawn_once {generator : Generator} {s t : Context F} {es : List (Event F)} (hs : Begins s)
    (hes : History generator s es t) (hsame : ∀ k, .advance k ∈ es → s.active = some k) :
    ∃ draws, Accounted generator s es draws ∧
      t.source.requests = s.source.requests ++ draws.flatten.map (Draw.request generator) := by
  obtain ⟨draws, haccounted, hdrawn, -, -⟩ := hes.accounted hs.deviates hsame
  exact ⟨draws, haccounted, hdrawn.requests⟩

def site : Component ℚ where
  label := "site"
  main := .null
  group := .null
  replicate := .null
  weights := .null
  model := "iid"
  role := .iid
  mapper := some (.component (.index [.str "a"]) 1 1)
  groups := none
  replicates := none
  options := []

def siteScope : Scope ℚ := ⟨[("site_latent", .ofReals [5]), ("Precision_for_site", .float 4)]⟩

/-- Two calls in one state, of which the second asks for a level of the first again. -/
def siteEvents : List (Event ℚ) :=
  [.call site siteScope (.ofList [.list [.str "b", .str "a", .str "c", .str "b"]]) [1 / 2, 5, 1, 1 / 2],
    .advance 0, .call site siteScope (.ofList [.list [.str "c", .str "d"]]) [1, 3 / 2]]

def siteStart : Context ℚ := (Context.start (.ofCycle [1, 2, 3])).advance (some 0)

theorem site_history : ∃ t, History .given siteStart siteEvents t :=
  ⟨_, .call (.advance 0 (.call .nil (Prod.ext (by with_unfolding_all rfl) rfl)))
    (Prod.ext (by with_unfolding_all rfl) rfl)⟩

theorem siteEvents_active : ∀ k, Event.advance k ∈ siteEvents → siteStart.active = some k := by
  simp [siteEvents, siteStart, Context.advance, Context.start]

theorem siteStart_begins : Begins siteStart :=
  Or.inr ⟨.start (.ofCycle [1, 2, 3]), 0, by simp [Context.start], rfl⟩

theorem site_drawn_once : ∃ t draws, History .given siteStart siteEvents t ∧
    Accounted .given siteStart siteEvents draws ∧
      t.source.requests = siteStart.source.requests ++ draws.flatten.map (Draw.request .given) := by
  obtain ⟨t, ht⟩ := site_history
  obtain ⟨draws, haccounted, hrequests⟩ := drawn_once siteStart_begins ht siteEvents_active
  exact ⟨t, draws, ht, haccounted, hrequests⟩

end AdditiveModel.Evaluator
