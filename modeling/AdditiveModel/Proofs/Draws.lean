import AdditiveModel.Proofs.Calls
import AdditiveModel.Proofs.Named
import AdditiveModel.Proofs.Rows
import AdditiveModel.Proofs.Run

/-! Deviates of unknown levels: what one call of an evaluator draws, what it keeps and what it
returns. A draw is one request of the random source with its answer. -/

namespace AdditiveModel.Evaluator

variable {F : Type} [Scalar F]

/-- A deviate of a level: the scale it was drawn with and its value. -/
structure Draw (F : Type) where
  label : String
  key : String
  scale : F
  value : F

def Draw.level (d : Draw F) : String × String := (d.label, d.key)

def Draw.request (generator : Generator) (d : Draw F) : Request F :=
  .normal generator Scalar.zero d.scale []

/-- From one source to another by draws alone: each value is the answer to the next request. -/
inductive Drawn (generator : Generator) (start : Source F) : List (Draw F) → Source F → Prop
  | nil : Drawn generator start [] start
  | snoc {draws : List (Draw F)} {s t : Source F} {d : Draw F} : Drawn generator start draws s →
      (Random.normal generator Scalar.zero d.scale).outcome s = (.ok d.value, t) →
      Drawn generator start (draws ++ [d]) t

section Source

variable {generator : Generator} {scale v : F} {s t : Source F}

theorem requests_normal
    (h : (Random.normal generator Scalar.zero scale).outcome s = (.ok v, t)) :
    t.requests = s.requests ++ [.normal generator Scalar.zero scale []] := by
  simp only [Random.normal, Random.normals, Run.bind_eq_ok] at h
  obtain ⟨vs, r, ⟨_, r', hchange, hrest⟩, hpure⟩ := h
  cases hpure
  cases hchange
  split at hrest
  · simp at hrest
  · simp only [Run.bind_eq_ok] at hrest
    obtain ⟨_, _, hread, _, _, hwrite, hpure⟩ := hrest
    cases hread
    cases hwrite
    cases hpure
    rfl

/-- Draws are requests, one each, in their order; nothing else is asked for. -/
theorem Drawn.requests {draws : List (Draw F)} (h : Drawn generator s draws t) :
    t.requests = s.requests ++ draws.map (Draw.request generator) := by
  induction h with
  | nil => simp
  | snoc _ hnormal ih => simp [requests_normal hnormal, ih, Draw.request]

theorem Drawn.trans {r : Source F} {draws more : List (Draw F)} (h : Drawn generator r draws s)
    (hmore : Drawn generator s more t) : Drawn generator r (draws ++ more) t := by
  induction hmore with
  | nil => simpa using h
  | snoc _ hnormal ih =>
    rw [← List.append_assoc]
    exact .snoc ih hnormal

end Source

/-- The deviates that are kept are those that were drawn, each level once. -/
structure Ledger (draws : List (Draw F)) (deviates : Deviates F) : Prop where
  nodup : (draws.map Draw.level).Nodup
  lookup (label key : String) (v : F) :
    deviates.lookup label key = some v ↔ ∃ d ∈ draws, d.level = (label, key) ∧ d.value = v

namespace Ledger

variable {draws : List (Draw F)} {deviates : Deviates F}

omit [Scalar F] in
theorem empty : Ledger ([] : List (Draw F)) [] :=
  ⟨List.nodup_nil, fun label key v => by simp [Deviates.lookup_nil]⟩

omit [Scalar F] in
theorem isNone (h : Ledger draws deviates) (label key : String) :
    (deviates.lookup label key).isNone ↔ (label, key) ∉ draws.map Draw.level := by
  constructor
  · intro hnone hmem
    obtain ⟨d, hd, hlevel⟩ := List.mem_map.1 hmem
    rw [(h.lookup label key d.value).2 ⟨d, hd, hlevel, rfl⟩] at hnone
    simp at hnone
  · intro hmem
    cases hlookup : deviates.lookup label key with
    | none => rfl
    | some v =>
      obtain ⟨d, hd, hlevel, -⟩ := (h.lookup label key v).1 hlookup
      exact absurd (List.mem_map.2 ⟨d, hd, hlevel⟩) hmem

omit [Scalar F] in
theorem snoc (h : Ledger draws deviates) {d : Draw F} (hd : d.level ∉ draws.map Draw.level) :
    Ledger (draws ++ [d]) (deviates.store d.label d.key d.value) := by
  refine ⟨?_, fun label key v => ?_⟩
  · rw [List.map_append, List.nodup_append]
    refine ⟨h.nodup, by simp, ?_⟩
    rintro p hp q hq rfl
    obtain rfl : p = d.level := by simpa using hq
    exact hd hp
  · rw [Deviates.lookup_store]
    by_cases hlevel : d.label = label ∧ d.key = key
    · obtain ⟨rfl, rfl⟩ := hlevel
      have hold : ¬ ∃ e ∈ draws, e.level = (d.label, d.key) ∧ e.value = v := by
        rintro ⟨e, he, hel, -⟩
        exact hd (List.mem_map.2 ⟨e, he, hel⟩)
      simp only [and_self, if_true, Option.some_inj, List.mem_append, List.mem_singleton, or_and_right,
        exists_or, hold, false_or, exists_eq_left]
      simp [Draw.level]
    · have hne : d.level ≠ (label, key) := by simpa [Draw.level] using hlevel
      simp only [hlevel, if_false, h.lookup, List.mem_append, List.mem_singleton, or_and_right, exists_or,
        exists_eq_left, hne, false_and, or_false]

end Ledger

theorem deviation_eq_ok {c : Component F} {scope : Scope F} {sd : F}
    (h : deviation? c scope = .ok sd) :
    ∃ v p ps, scope.lookup (precisionName c.label) = .ok v ∧ v.vector? = .ok (p :: ps) ∧
      sd = Scalar.pow p (Scalar.ofRatio (-1) 2) := by
  simp only [deviation?, AdditiveModel.bind_eq_ok, lift_eq_ok] at h
  obtain ⟨v, hv, values, hvalues, h⟩ := h
  cases values with
  | nil => simp at h
  | cons p ps =>
    simp only [check_eq_ok, pure_eq_ok] at h
    exact ⟨v, p, ps, hv, hvalues, h.2.2.symm⟩

theorem draw_eq_ok {label key : String} {generator : Generator} {sd : F} {s t : Context F}
    (h : (draw label generator sd key).outcome s = (.ok (), t)) :
    ∃ v source, (Random.normal generator Scalar.zero sd).outcome s.source = (.ok v, source) ∧
      t = ⟨source, s.deviates.store label key v, s.active⟩ := by
  obtain ⟨v, r, hdraw, hstore⟩ := Run.bind_eq_ok.1 h
  rw [Context.drawing, Run.outcome_within, Prod.mk.injEq] at hdraw
  obtain ⟨hv, rfl⟩ := hdraw
  cases hstore
  exact ⟨v, _, Prod.ext hv rfl, rfl⟩

theorem drawAll_eq_ok {label : String} {generator : Generator} {sd : F} {absent : List String}
    {s t : Context F} {draws : List (Draw F)} (hs : Ledger draws s.deviates) (hnodup : absent.Nodup)
    (hnew : ∀ key ∈ absent, (label, key) ∉ draws.map Draw.level)
    (h : (absent.forM (draw label generator sd)).outcome s = (.ok (), t)) :
    ∃ now : List (Draw F), Drawn generator s.source now t.source ∧ Ledger (draws ++ now) t.deviates ∧
      t.active = s.active ∧ now.map Draw.level = absent.map (label, ·) ∧ ∀ d ∈ now, d.scale = sd := by
  induction absent generalizing s draws with
  | nil =>
    cases h
    exact ⟨[], .nil, by simpa using hs, rfl, rfl, by simp⟩
  | cons key absent ih =>
    rw [List.nodup_cons] at hnodup
    simp only [List.mem_cons, forall_eq_or_imp] at hnew
    obtain ⟨⟨⟩, r, hdraw, hrest⟩ := Run.bind_eq_ok.1 h
    obtain ⟨v, source, hnormal, rfl⟩ := draw_eq_ok hdraw
    let d : Draw F := ⟨label, key, sd, v⟩
    have hledger : Ledger (draws ++ [d]) (s.deviates.store label key v) := hs.snoc (d := d) hnew.1
    have habsent : ∀ k ∈ absent, (label, k) ∉ (draws ++ [d]).map Draw.level := by
      intro k hk hmem
      rw [List.map_append, List.mem_append] at hmem
      rcases hmem with hmem | hmem
      · exact hnew.2 k hk hmem
      · obtain rfl : k = key := by simpa [Draw.level, d] using hmem
        exact hnodup.1 hk
    obtain ⟨now, hdrawn, hnow, hactive, hlevels, hscale⟩ := ih hledger hnodup.2 habsent hrest
    refine ⟨d :: now, ?_, by simpa using hnow, hactive, by simp [hlevels, Draw.level, d], ?_⟩
    · have hfirst : Drawn generator s.source ([] ++ [d]) source := .snoc .nil hnormal
      exact hfirst.trans hdrawn
    · simpa [d] using hscale

theorem drawMissing_eq_ok {c : Component F} {scope : Scope F} {generator : Generator}
    {keys : List String} {s t : Context F} {draws : List (Draw F)} (hs : Ledger draws s.deviates)
    (h : (drawMissing c scope generator keys).outcome s = (.ok (), t)) :
    ∃ now : List (Draw F), Drawn generator s.source now t.source ∧ Ledger (draws ++ now) t.deviates ∧
      t.active = s.active ∧ now.map Draw.level = (missing s.deviates c.label keys).map (c.label, ·) ∧
      ∀ d ∈ now, deviation? c scope = .ok d.scale := by
  obtain ⟨_, _, hread, h⟩ := Run.bind_eq_ok.1 h
  cases hread
  have hnodup : (missing s.deviates c.label keys).Nodup := (nodup_eraseDups keys).filter _
  have hnew : ∀ key ∈ missing s.deviates c.label keys, (c.label, key) ∉ draws.map Draw.level := by
    intro key hkey
    exact (hs.isNone c.label key).1 (List.mem_filter.1 hkey).2
  generalize missing s.deviates c.label keys = absent at h hnodup hnew ⊢
  cases absent with
  | nil =>
    cases h
    exact ⟨[], .nil, by simpa using hs, rfl, rfl, by simp⟩
  | cons key absent =>
    obtain ⟨sd, r, hsd, hdraws⟩ := Run.bind_eq_ok.1 h
    rw [Run.outcome_liftError, Prod.mk.injEq] at hsd
    obtain ⟨hsd, rfl⟩ := hsd
    obtain ⟨now, hdrawn, hledger, hactive, hlevels, hscale⟩ := drawAll_eq_ok hs hnodup hnew hdraws
    exact ⟨now, hdrawn, hledger, hactive, hlevels, fun d hd => hscale d hd ▸ hsd⟩

omit [Scalar F] in
theorem length_replaceMarked (values news : List F) (marked : List Bool) :
    (replaceMarked values marked news).length = values.length := by
  induction values generalizing marked news with
  | nil => cases marked <;> rfl
  | cons v values ih =>
    match marked, news with
    | [], _ => rfl
    | true :: _, [] => simp [replaceMarked, ih]
    | true :: _, _ :: _ => simp [replaceMarked, ih]
    | false :: _, _ => simp [replaceMarked, ih]

omit [Scalar F] in
/-- Each marked place gets what belongs to its own cell, and no other place changes. -/
theorem getElem?_replaceMarked (f : Value F → F) {values : List F} {marked : List Bool}
    (cells : List (Value F)) (hlen : values.length = marked.length) {j : Nat} {x : Value F}
    (hx : cells[j]? = some x) :
    (replaceMarked values marked (((cells.zip marked).filter (·.2)).map fun p => f p.1))[j]? =
      if marked[j]? = some true then some (f x) else values[j]? := by
  induction marked generalizing values cells j with
  | nil =>
    obtain rfl : values = [] := List.length_eq_zero_iff.1 hlen
    rfl
  | cons mark marked ih =>
    match values, cells with
    | [], _ => simp at hlen
    | _ :: _, [] => simp at hx
    | v :: values, cell :: cells =>
      have hlen' : values.length = marked.length := by simpa using hlen
      cases mark with
      | true =>
        cases j with
        | zero =>
          cases hx
          simp [replaceMarked]
        | succ j => simpa [replaceMarked] using ih cells hlen' (j := j) hx
      | false =>
        cases j with
        | zero => simp [replaceMarked]
        | succ j => simpa [replaceMarked] using ih cells hlen' (j := j) hx

/-- What one call does: it draws a deviate for each level that it needs and that was not drawn before,
and returns the deviate of its level at every unknown point and the mapper's value elsewhere. -/
structure Answered (c : Component F) (scope : Scope F) (generator : Generator) (a : Arguments F)
    (draws now : List (Draw F)) (s : Context F) (values : List F) (t : Context F) : Prop where
  drawn : Drawn generator s.source now t.source
  ledger : Ledger (draws ++ now) t.deviates
  active : t.active = s.active
  scale : ∀ d ∈ now, deviation? c scope = .ok d.scale
  reading : ∃ r, reading? c scope a = .ok r ∧
    now.map Draw.level = ((keysAt r.main r.unknown).eraseDups.filter fun k =>
      (c.label, k) ∉ draws.map Draw.level).map (c.label, ·) ∧
    values.length = r.values.length ∧
    ∀ (j : Nat) (x : Value F), r.main.cells[j]? = some x →
      (r.unknown[j]? = some true → ∃ d ∈ draws ++ now,
        d.level = (c.label, x.plain.plainText) ∧ values[j]? = some d.value) ∧
      (r.unknown[j]? ≠ some true → values[j]? = r.values[j]?)

omit [Scalar F] in
theorem missing_eq {draws : List (Draw F)} {deviates : Deviates F} (h : Ledger draws deviates)
    (label : String) (keys : List String) :
    missing deviates label keys =
      keys.eraseDups.filter fun k => (label, k) ∉ draws.map Draw.level := by
  refine List.filter_congr fun k _ => ?_
  rw [Bool.eq_iff_iff, h.isNone, decide_eq_true_iff]

/-- Where the first mapper has levels, the unknown points are those whose value is none of them. -/
theorem unknown_eq {c : Component F} {scope : Scope F} {a : Arguments F} {r : Reading F}
    {m : Mapper F} {levels : List (Value F)} (h : reading? c scope a = .ok r) (hrole : c.role = .iid)
    (hm : c.mapper = some m) (hfirst : m.firstStage = .index levels) :
    r.unknown = r.main.cells.map fun v => (Mapper.Levels.position? levels v.plain).isNone := by
  obtain ⟨_, _, _, -, -, -, hm', -, hunknown⟩ := reading_eq_ok.1 h
  obtain rfl := Option.some.inj (hm.symm.trans hm')
  simp only [unknown?, hrole, hfirst, beq_self_eq_true, if_true, Mapper.invalid?,
    Mapper.Levels.invalid?, Mapper.required?, AdditiveModel.bind_eq_ok, lift_eq_ok, Except.ok.injEq,
    exists_eq_left', pure_eq_ok, Mapper.positions_eq_ok] at hunknown
  obtain ⟨_, ⟨-, rfl⟩, hunknown⟩ := hunknown
  simp [← hunknown, Mapper.Input.ofMain, Value.ofGrid, Grid.objects, Grid.objectsOf]

theorem substitute_eq_ok {c : Component F} {scope : Scope F} {generator : Generator} {main : Grid F}
    {unknown : List Bool} {values news : List F} {s t : Context F}
    (h : (substitute c scope generator main unknown values).outcome s = (.ok news, t)) :
    values.length = unknown.length ∧
      (drawMissing c scope generator (keysAt main unknown)).outcome s = (.ok (), t) ∧
      news = replaceMarked values unknown
        ((keysAt main unknown).map fun k => (t.deviates.lookup c.label k).getD Scalar.nan) := by
  obtain ⟨⟨⟩, r, hdraw, h⟩ := Run.bind_eq_ok.1 h
  split at h
  · simp at h
  · rename_i hlen
    obtain ⟨_, _, hread, h⟩ := Run.bind_eq_ok.1 h
    cases hread
    cases h
    exact ⟨by simpa using hlen, hdraw, rfl⟩

theorem getElem?_replaceMarked_keysAt (f : String → F) {values : List F} {marked : List Bool}
    {main : Grid F} (hlen : values.length = marked.length) {j : Nat} {x : Value F}
    (hx : main.cells[j]? = some x) :
    (replaceMarked values marked ((keysAt main marked).map f))[j]? =
      if marked[j]? = some true then some (f x.plain.plainText) else values[j]? := by
  rw [keysAt, List.map_map]
  exact getElem?_replaceMarked (fun x => f x.plain.plainText) main.cells hlen hx

theorem mem_keysAt {main : Grid F} {marked : List Bool} {j : Nat} {x : Value F}
    (hx : main.cells[j]? = some x) (hmarked : marked[j]? = some true) :
    x.plain.plainText ∈ keysAt main marked := by
  refine List.mem_map.2 ⟨(x, true), List.mem_filter.2 ⟨?_, rfl⟩, rfl⟩
  exact List.mem_of_getElem? (List.getElem?_zip_eq_some.2 ⟨hx, hmarked⟩)

theorem keysAt_eq_nil {main : Grid F} {marked : List Bool} (h : ∀ b ∈ marked, b = false) :
    keysAt main marked = [] := by
  simp only [keysAt, List.map_eq_nil_iff, List.filter_eq_nil_iff, Prod.forall]
  intro x b hmem
  simp [h b (List.of_mem_zip hmem).2]

omit [Scalar F] in
theorem exists_draw {draws now : List (Draw F)} {deviates kept : Deviates F} {label key : String}
    {keys : List String} (hs : Ledger draws deviates) (ht : Ledger (draws ++ now) kept)
    (hnow : now.map Draw.level = (missing deviates label keys).map (label, ·)) (hkey : key ∈ keys) :
    ∃ d ∈ draws ++ now, d.level = (label, key) ∧ kept.lookup label key = some d.value := by
  have hmem : (label, key) ∈ (draws ++ now).map Draw.level := by
    rw [List.map_append, List.mem_append]
    by_cases hold : (label, key) ∈ draws.map Draw.level
    · exact Or.inl hold
    · refine Or.inr (hnow ▸ List.mem_map.2 ⟨key, ?_, rfl⟩)
      rw [missing_eq hs, List.mem_filter, List.mem_eraseDups]
      exact ⟨hkey, by simpa using hold⟩
  obtain ⟨d, hd, hlevel⟩ := List.mem_map.1 hmem
  exact ⟨d, hd, hlevel, (ht.lookup label key d.value).2 ⟨d, hd, hlevel, rfl⟩⟩

/-- What a successful call does with its reading: it replaces the values of the unknown points by what
is kept after the missing deviates were drawn, or there is no unknown point and it leaves the context. -/
theorem call_cases {c : Component F} {scope : Scope F} {generator : Generator} {a : Arguments F}
    {s t : Context F} {v : Value F} (h : (call c scope generator a).outcome s = (.ok v, t)) :
    ∃ r, reading? c scope a = .ok r ∧
      (r.values.length = r.unknown.length ∧
          (drawMissing c scope generator (keysAt r.main r.unknown)).outcome s = (.ok (), t) ∧
          v = column (replaceMarked r.values r.unknown
            ((keysAt r.main r.unknown).map fun k => (t.deviates.lookup c.label k).getD Scalar.nan)) ∨
        (∀ b ∈ r.unknown, b = false) ∧ t = s ∧ v = column r.values) := by
  obtain ⟨r, _, hr, h⟩ := Run.bind_eq_ok.1 h
  rw [Run.outcome_liftError, Prod.mk.injEq] at hr
  obtain ⟨hr, rfl⟩ := hr
  refine ⟨r, hr, ?_⟩
  split at h
  · obtain ⟨news, _, hnews, hcolumn⟩ := Run.bind_eq_ok.1 h
    cases hcolumn
    obtain ⟨hlen, hdraw, rfl⟩ := substitute_eq_ok hnews
    exact Or.inl ⟨hlen, hdraw, rfl⟩
  · rename_i hany
    cases h
    exact Or.inr ⟨by simpa using hany, rfl, rfl⟩

theorem call_eq_ok {c : Component F} {scope : Scope F} {generator : Generator} {a : Arguments F}
    {s t : Context F} {v : Value F} {draws : List (Draw F)} (hs : Ledger draws s.deviates)
    (h : (call c scope generator a).outcome s = (.ok v, t)) :
    ∃ values now, v = column values ∧ Answered c scope generator a draws now s values t := by
  obtain ⟨r, hr, ⟨hlen, hdraw, rfl⟩ | ⟨hknown, rfl, rfl⟩⟩ := call_cases h
  · obtain ⟨now, hdrawn, hledger, hactive, hlevels, hscale⟩ := drawMissing_eq_ok hs hdraw
    refine ⟨_, now, rfl, hdrawn, hledger, hactive, hscale, r, hr, ?_, ?_, fun j x hx => ?_⟩
    · rw [hlevels, missing_eq hs]
    · exact length_replaceMarked _ _ _
    · rw [getElem?_replaceMarked_keysAt _ hlen hx]
      refine ⟨fun hunknown => ?_, fun hknown => if_neg hknown⟩
      obtain ⟨d, hd, hlevel, hlookup⟩ := exists_draw hs hledger hlevels (mem_keysAt hx hunknown)
      exact ⟨d, hd, hlevel, by rw [if_pos hunknown, hlookup, Option.getD_some]⟩
  · refine ⟨r.values, [], rfl, .nil, by simpa using hs, rfl, by simp, r, hr,
      by simp [keysAt_eq_nil hknown], rfl, fun j x _ => ⟨fun hunknown => ?_, fun _ => rfl⟩⟩
    exact absurd (hknown _ (List.mem_of_getElem? hunknown)) (by simp)

end AdditiveModel.Evaluator
