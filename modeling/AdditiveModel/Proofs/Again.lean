import AdditiveModel.Proofs.Deviates

/-! Calls of evaluators that are made again before the active state changes. The deviates that a call
needs are kept until then, so every later call with the same arguments returns the same values and
draws nothing. -/

namespace AdditiveModel.Evaluator

variable {F : Type} [Scalar F]

def kept (c : Component F) (deviates : Deviates F) (r : Reading F) : List F :=
  replaceMarked r.values r.unknown
    ((keysAt r.main r.unknown).map fun k => (deviates.lookup c.label k).getD Scalar.nan)

structure Settled (c : Component F) (deviates : Deviates F) (r : Reading F) : Prop where
  fits : r.unknown.any id = true → r.values.length = r.unknown.length
  isSome : ∀ k ∈ keysAt r.main r.unknown, (deviates.lookup c.label k).isSome

section Kept

variable {c : Component F} {scope : Scope F} {generator : Generator} {a : Arguments F}
  {r : Reading F} {s t : Context F} {deviates later : Deviates F}

omit [Scalar F] in
theorem getElem?_replaceMarked_of_ne {values news : List F} {marked : List Bool} {j : Nat}
    (h : marked[j]? ≠ some true) : (replaceMarked values marked news)[j]? = values[j]? := by
  induction values generalizing marked news j with
  | nil => cases marked <;> rfl
  | cons v values ih =>
    match marked, news, j with
    | [], _, _ => rfl
    | true :: _, _, 0 => simp at h
    | true :: _, [], j + 1 => simpa [replaceMarked] using ih (by simpa using h)
    | true :: _, _ :: _, j + 1 => simpa [replaceMarked] using ih (by simpa using h)
    | false :: _, _, 0 => simp [replaceMarked]
    | false :: _, _, j + 1 => simpa [replaceMarked] using ih (by simpa using h)

theorem length_kept : (kept c deviates r).length = r.values.length :=
  length_replaceMarked _ _ _

theorem getElem?_kept_of_ne {j : Nat} (h : r.unknown[j]? ≠ some true) :
    (kept c deviates r)[j]? = r.values[j]? :=
  getElem?_replaceMarked_of_ne h

theorem kept_of_known (h : ¬ r.unknown.any id = true) : kept c deviates r = r.values := by
  have hknown : ∀ b ∈ r.unknown, b = false := by simpa using h
  refine List.ext_getElem? fun j => getElem?_kept_of_ne fun hj => ?_
  simpa using hknown _ (List.mem_of_getElem? hj)

theorem Settled.getElem?_kept (h : Settled c deviates r) {j : Nat} {x : Value F}
    (hx : r.main.cells[j]? = some x) (hunknown : r.unknown[j]? = some true) :
    (kept c deviates r)[j]? = deviates.lookup c.label x.plain.plainText := by
  have hany : r.unknown.any id = true :=
    List.any_eq_true.2 ⟨true, List.mem_of_getElem? hunknown, rfl⟩
  obtain ⟨v, hv⟩ := Option.isSome_iff_exists.1 (h.isSome _ (mem_keysAt hx hunknown))
  rw [kept, getElem?_replaceMarked_keysAt _ (h.fits hany) hx, if_pos hunknown, hv, Option.getD_some]

theorem Settled.outcome_call (h : Settled c s.deviates r) (hr : reading? c scope a = .ok r)
    (generator : Generator) :
    (call c scope generator a).outcome s = (.ok (column (kept c s.deviates r)), s) := by
  have hmissing : missing s.deviates c.label (keysAt r.main r.unknown) = [] := by
    refine List.filter_eq_nil_iff.2 fun k hk => ?_
    have := h.isSome k (List.mem_eraseDups.1 hk)
    simpa using Option.isSome_iff_ne_none.1 this
  have hdraw : (drawMissing c scope generator (keysAt r.main r.unknown)).outcome s = (.ok (), s) := by
    refine Run.bind_eq_ok.2 ⟨s, s, rfl, ?_⟩
    rw [hmissing]
    rfl
  refine Run.bind_eq_ok.2 ⟨r, s, by rw [Run.outcome_liftError, hr], ?_⟩
  split
  · rename_i hany
    refine Run.bind_eq_ok.2 ⟨_, s, Run.bind_eq_ok.2 ⟨(), s, hdraw, ?_⟩, rfl⟩
    rw [if_neg (by simpa using h.fits hany)]
    rfl
  · rename_i hany
    rw [kept_of_known hany]
    rfl

theorem settled_of_call {draws : List (Draw F)} (hs : Ledger draws s.deviates) {v : Value F}
    (h : (call c scope generator a).outcome s = (.ok v, t)) :
    ∃ r, reading? c scope a = .ok r ∧ Settled c t.deviates r ∧ v = column (kept c t.deviates r) := by
  obtain ⟨r, hr, ⟨hlen, hdraw, rfl⟩ | ⟨hknown, rfl, rfl⟩⟩ := call_cases h
  · obtain ⟨now, -, hledger, -, hlevels, -⟩ := drawMissing_eq_ok hs hdraw
    refine ⟨r, hr, ⟨fun _ => hlen, fun k hk => ?_⟩, rfl⟩
    obtain ⟨d, -, -, hlookup⟩ := exists_draw hs hledger hlevels hk
    rw [hlookup, Option.isSome_some]
  · have hany : ¬ r.unknown.any id = true := by simpa using hknown
    refine ⟨r, hr, ⟨fun h => absurd h hany, by simp [keysAt_eq_nil hknown]⟩, ?_⟩
    rw [kept_of_known hany]

theorem Settled.mono (h : Settled c deviates r)
    (hkeep : ∀ k v, deviates.lookup c.label k = some v → later.lookup c.label k = some v) :
    Settled c later r ∧ kept c later r = kept c deviates r := by
  have hlookup : ∀ k ∈ keysAt r.main r.unknown,
      later.lookup c.label k = deviates.lookup c.label k := by
    intro k hk
    obtain ⟨v, hv⟩ := Option.isSome_iff_exists.1 (h.isSome k hk)
    rw [hv, hkeep k v hv]
  refine ⟨⟨h.fits, fun k hk => hlookup k hk ▸ h.isSome k hk⟩, ?_⟩
  rw [kept, kept, List.map_congr_left fun k hk => by rw [hlookup k hk]]

end Kept

omit [Scalar F] in
theorem Ledger.lookup_append {draws now : List (Draw F)} {deviates later : Deviates F}
    (h : Ledger draws deviates) (hlater : Ledger (draws ++ now) later) {label key : String} {v : F}
    (hv : deviates.lookup label key = some v) : later.lookup label key = some v := by
  obtain ⟨d, hd, hlevel, hvalue⟩ := (h.lookup label key v).1 hv
  exact (hlater.lookup label key v).2 ⟨d, List.mem_append_left _ hd, hlevel, hvalue⟩

/-- After a run without a change of the active state, each of its calls has what it needs. -/
theorem History.settled {generator : Generator} {s t : Context F} {es : List (Event F)}
    (hes : History generator s es t) (hs : s.deviates = [])
    (hsame : ∀ k, .advance k ∈ es → s.active = some k) {c : Component F} {scope : Scope F}
    {a : Arguments F} {values : List F} (hcall : .call c scope a values ∈ es) :
    ∃ r, reading? c scope a = .ok r ∧ Settled c t.deviates r ∧ values = kept c t.deviates r := by
  induction hes with
  | nil => cases hcall
  | advance k hes ih =>
    have hsame' := fun k hk => hsame k (List.mem_append_left _ hk)
    obtain ⟨_, -, -, -, hactive⟩ := hes.accounted hs hsame'
    have hk := hsame k (List.mem_append_right _ List.mem_cons_self)
    rw [Context.advance_of_eq (hactive.trans hk)]
    exact ih hsame' (by simpa using hcall)
  | @call es u t c' scope' a' values' hes hlast ih =>
    have hsame' := fun k hk => hsame k (List.mem_append_left _ hk)
    obtain ⟨draws, -, -, hledger, -⟩ := hes.accounted hs hsame'
    rcases List.mem_append.1 hcall with hold | hnew
    · obtain ⟨r, hr, hsettled, rfl⟩ := ih hsame' hold
      obtain ⟨_, _, -, hanswered⟩ := call_eq_ok hledger hlast
      obtain ⟨hlater, hvalues⟩ :=
        hsettled.mono fun _ _ => hledger.lookup_append hanswered.ledger
      exact ⟨r, hr, hlater, hvalues.symm⟩
    · cases List.mem_singleton.1 hnew
      obtain ⟨r, hr, hsettled, hvalues⟩ := settled_of_call hledger hlast
      exact ⟨r, hr, hsettled, column_inj.1 hvalues⟩

/-- A call of the run returned what its reading gives with the deviates of the whole run. -/
theorem History.values_eq {generator : Generator} {s t : Context F} {es : List (Event F)}
    (hes : History generator s es t) (hs : s.deviates = [])
    (hsame : ∀ k, .advance k ∈ es → s.active = some k) {c : Component F} {scope : Scope F}
    {a : Arguments F} {values : List F} (hcall : .call c scope a values ∈ es) {r : Reading F}
    (hr : reading? c scope a = .ok r) : values = kept c t.deviates r := by
  obtain ⟨r', hr', -, rfl⟩ := hes.settled hs hsame hcall
  obtain rfl := Except.ok.inj (hr.symm.trans hr')
  rfl

theorem History.again {generator : Generator} {s t : Context F} {es : List (Event F)}
    (hes : History generator s es t) (hs : s.deviates = [])
    (hsame : ∀ k, .advance k ∈ es → s.active = some k) {c : Component F} {scope : Scope F}
    {a : Arguments F} {values : List F} (hcall : .call c scope a values ∈ es) :
    (Evaluator.call c scope generator a).outcome t = (.ok (column values), t) := by
  obtain ⟨r, hr, hsettled, rfl⟩ := hes.settled hs hsame hcall
  exact hsettled.outcome_call hr generator

end AdditiveModel.Evaluator
