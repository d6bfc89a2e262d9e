import AdditiveModel.Proofs.Again
import AdditiveModel.Proofs.Lengths

/-! Weights of an unstructured effect. A weight multiplies the effect of a known level. A level without
a latent variable has its deviate instead of an effect, and the deviate is the same with any weight. -/

namespace AdditiveModel

variable {F : Type} [Scalar F]

namespace Mapper

/-- With a weight for each point, each value is multiplied by its own weight. -/
theorem evaluate_weighted {main : Mapper F} {groups replicates : Int} {input : Input F}
    {w state : Value F} {ws out : List F} (hnull : input.scale = .null) (hne : w ≠ .null)
    (hws : w.vector? = .ok ws) (hlen : ws.length = input.size) :
    (component main groups replicates).evaluate? (some { input with scale := w }) state = .ok out ↔
      ∃ xs, (component main groups replicates).evaluate? (some input) state = .ok xs ∧
        out = List.zipWith (· * ·) xs ws := by
  have hweighted (xs : List F) (hxs : xs.length = input.size) :
      Block.weighted? { input with scale := w } xs = .ok (List.zipWith (· * ·) xs ws) :=
    weighted_vector hne hws (hlen.trans hxs.symm) hxs.symm
  simp only [evaluate_component]
  constructor
  · rintro ⟨s, blocks, y, hs, hblocks, hy, hout⟩
    refine ⟨(List.range input.size).map y, ⟨s, blocks, y, hs, hblocks, hy, weighted_null hnull _⟩, ?_⟩
    exact Except.ok.inj (hout.symm.trans (hweighted _ (by simp [Input.size])))
  · rintro ⟨xs, ⟨s, blocks, y, hs, hblocks, hy, hxs⟩, rfl⟩
    obtain rfl := Except.ok.inj ((weighted_null hnull _).symm.trans hxs)
    exact ⟨s, blocks, y, hs, hblocks, hy, hweighted _ (by simp [Input.size])⟩

end Mapper

namespace Evaluator

section Weights

variable {c : Component F} {levels : List (Value F)} {groups replicates : Int} {scope : Scope F}
  {a b : Arguments F} {main group replicate state : Option (Value F)} {w : Value F} {ws : List F}
  {g : Grid F} (hmapper : c.mapper = some (.component (.index levels) groups replicates))
  (ha : a.bind? parameters = .ok [main, group, replicate, none, state])
  (hb : b.bind? parameters = .ok [main, group, replicate, some w, state])
  (hg : mainGrid? (main.getD .null) = .ok g) (hne : w ≠ .null) (hws : w.vector? = .ok ws)
  (hlen : ws.length = (Value.ofGrid g).rows)

include hmapper ha hb hg hne hws hlen

theorem reading_weighted {r : Reading F} :
    reading? c scope b = .ok r ↔
      ∃ r₀, reading? c scope a = .ok r₀ ∧ r = { r₀ with values := List.zipWith (· * ·) r₀.values ws } := by
  have hnull : (inputOf g [main, group, replicate, none, state]).scale = .null := rfl
  have hvalues {s : Value F} {values : List F} :
      (Mapper.component (.index levels) groups replicates).evaluate?
          (some (inputOf g [main, group, replicate, some w, state])) s = .ok values ↔
        ∃ xs, (Mapper.component (.index levels) groups replicates).evaluate?
            (some (inputOf g [main, group, replicate, none, state])) s = .ok xs ∧
          values = List.zipWith (· * ·) xs ws :=
    Mapper.evaluate_weighted hnull hne hws hlen
  simp only [reading_eq_ok]
  constructor
  · rintro ⟨bound, s, m, hbound, hmain, hs, hm, hr, hunknown⟩
    obtain rfl := Except.ok.inj (hb.symm.trans hbound)
    obtain ⟨main', values, unknown⟩ := r
    obtain rfl := Except.ok.inj (hg.symm.trans hmain)
    obtain rfl := Option.some.inj (hmapper.symm.trans hm)
    obtain ⟨xs, hxs, rfl⟩ := hvalues.1 hr
    exact ⟨⟨g, xs, unknown⟩, ⟨_, s, _, ha, hmain, hs, hm, hxs, hunknown⟩, rfl⟩
  · rintro ⟨r₀, ⟨bound, s, m, hbound, hmain, hs, hm, hr, hunknown⟩, rfl⟩
    obtain rfl := Except.ok.inj (ha.symm.trans hbound)
    obtain rfl := Except.ok.inj (hg.symm.trans hmain)
    obtain rfl := Option.some.inj (hmapper.symm.trans hm)
    exact ⟨_, s, _, hb, hmain, hs, hm, hvalues.2 ⟨_, hr, rfl⟩, hunknown⟩

omit hb hne hws hlen in
theorem length_reading {r : Reading F} (hr : reading? c scope a = .ok r) :
    r.main = g ∧ r.values.length = (Value.ofGrid g).rows := by
  obtain ⟨bound, s, m, hbound, hmain, -, hm, hvalues, -⟩ := reading_eq_ok.1 hr
  obtain rfl := Except.ok.inj (ha.symm.trans hbound)
  have hmain := Except.ok.inj (hg.symm.trans hmain)
  obtain rfl := Option.some.inj (hmapper.symm.trans hm)
  exact ⟨hmain.symm, hmain ▸ (Mapper.evaluate_answers hvalues).points (Or.inr rfl)⟩

/-- Within one state, a call with weights and the same call without them agree in the deviates of
unknown levels: whichever is made first, the other one draws nothing. At a known level the value is
multiplied by its weight. -/
theorem weighted_call (hrole : c.role = .iid) {generator : Generator} {s t : Context F}
    {es : List (Event F)} (hs : Begins s) (hes : History generator s es t)
    (hsame : ∀ k, .advance k ∈ es → s.active = some k)
    (hcall : ∃ values, .call c scope a values ∈ es ∨ .call c scope b values ∈ es) :
    ∃ plain weighted,
      (∀ values, .call c scope a values ∈ es → values = plain) ∧
      (∀ values, .call c scope b values ∈ es → values = weighted) ∧
      (call c scope generator a).outcome t = (.ok (column plain), t) ∧
      (call c scope generator b).outcome t = (.ok (column weighted), t) ∧
      plain.length = ws.length ∧ weighted.length = ws.length ∧
      ∀ (j : Nat) (v : F), plain[j]? = some v →
        (∀ x, g.cells[j]? = some x → Mapper.Levels.position? levels x.plain = none →
          t.deviates.lookup c.label x.plain.plainText = some v ∧ weighted[j]? = some v) ∧
        ((∀ x, g.cells[j]? = some x → Mapper.Levels.position? levels x.plain ≠ none) →
          ∃ wj, ws[j]? = some wj ∧ weighted[j]? = some (v * wj)) := by
  have hreading {r : Reading F} : reading? c scope b = .ok r ↔ ∃ r₀, reading? c scope a = .ok r₀ ∧
      r = { r₀ with values := List.zipWith (· * ·) r₀.values ws } :=
    reading_weighted hmapper ha hb hg hne hws hlen
  -- either call leaves what both of them need
  obtain ⟨r, hr, hsettled⟩ : ∃ r, reading? c scope a = .ok r ∧ Settled c t.deviates r := by
    obtain ⟨values, hcall | hcall⟩ := hcall
    · obtain ⟨r, hr, hsettled, -⟩ := hes.settled hs.deviates hsame hcall
      exact ⟨r, hr, hsettled⟩
    · obtain ⟨_, hr', hsettled, -⟩ := hes.settled hs.deviates hsame hcall
      obtain ⟨r, hr, rfl⟩ := hreading.1 hr'
      have hlength := (length_reading hmapper ha hg hr).2
      exact ⟨r, hr, fun hany => by simpa [hlength, hlen] using hsettled.fits hany, hsettled.isSome⟩
  obtain ⟨hmain, hlength⟩ := length_reading hmapper ha hg hr
  let r' : Reading F := { r with values := List.zipWith (· * ·) r.values ws }
  have hr' : reading? c scope b = .ok r' := hreading.2 ⟨r, hr, rfl⟩
  have hsettled' : Settled c t.deviates r' :=
    ⟨fun hany => by simpa [r', hlength, hlen] using hsettled.fits hany, hsettled.isSome⟩
  have hunknown : r.unknown =
      g.cells.map fun v => (Mapper.Levels.position? levels v.plain).isNone := by
    rw [unknown_eq hr hrole hmapper rfl, hmain]
  refine ⟨kept c t.deviates r, kept c t.deviates r',
    fun values hmem => hes.values_eq hs.deviates hsame hmem hr,
    fun values hmem => hes.values_eq hs.deviates hsame hmem hr',
    hsettled.outcome_call hr generator, hsettled'.outcome_call hr' generator, ?_, ?_,
    fun j v hv => ⟨fun x hx hnone => ?_, fun hsome => ?_⟩⟩
  · rw [length_kept, hlength, hlen]
  · rw [length_kept]
    simp [r', hlength, hlen]
  · have hmark : r.unknown[j]? = some true := by simp [hunknown, hx, hnone]
    have hcell : r.main.cells[j]? = some x := by rw [hmain, hx]
    rw [hsettled.getElem?_kept hcell hmark] at hv
    exact ⟨hv, (hsettled'.getElem?_kept hcell hmark).trans hv⟩
  · have hmark : r.unknown[j]? ≠ some true := by
      rw [hunknown, List.getElem?_map]
      intro hmark
      obtain ⟨x, hx, hnone⟩ := Option.map_eq_some_iff.1 hmark
      exact hsome x hx (Option.isNone_iff_eq_none.1 hnone)
    rw [getElem?_kept_of_ne hmark] at hv
    have hj : j < ws.length := hlen ▸ hlength ▸ (List.getElem?_eq_some_iff.1 hv).1
    refine ⟨ws[j], List.getElem?_eq_getElem hj, ?_⟩
    rw [getElem?_kept_of_ne (r := r') hmark]
    simp [r', List.getElem?_zipWith, hv, hj]

end Weights

def weightedSites : Arguments ℚ :=
  ⟨[.list [.str "b", .str "a", .str "c", .str "b"]], [(some "weights", .ofReals [2, 3, 4, 5])]⟩

theorem site_weighted : ∃ t weighted, History .given siteStart siteEvents t ∧
    (call site siteScope .given weightedSites).outcome t = (.ok (column weighted), t) ∧
    weighted[0]? = some (1 / 2) ∧ weighted[1]? = some (5 * 3) := by
  obtain ⟨t, ht⟩ := site_history
  have hmem : .call site siteScope (.ofList [.list [.str "b", .str "a", .str "c", .str "b"]])
      [1 / 2, 5, 1, 1 / 2] ∈ siteEvents := List.mem_cons_self
  obtain ⟨plain, weighted, hplain, -, -, hcall, -, -, hrows⟩ :=
    weighted_call (c := site) (a := .ofList [.list [.str "b", .str "a", .str "c", .str "b"]])
      (b := weightedSites) rfl rfl rfl rfl nofun (vector_ofReals _) rfl rfl siteStart_begins ht
      siteEvents_active ⟨_, Or.inl hmem⟩
  obtain rfl := hplain _ hmem
  refine ⟨t, weighted, ht, hcall, ((hrows 0 _ rfl).1 _ rfl rfl).2, ?_⟩
  obtain ⟨w, hw, hweighted⟩ := (hrows 1 _ rfl).2 (by rintro x ⟨⟩; decide +kernel)
  obtain rfl := Option.some.inj hw
  exact hweighted

/-- The deviate of an unknown site is not multiplied. -/
theorem site_unweighted : ∃ t,
    (call site siteScope .given (.ofList [.list [.str "b", .str "a", .str "c", .str "b"]])).outcome
      siteStart = (.ok (column [1 / 2, 5, 1, 1 / 2]), t) ∧
    (call site siteScope .given weightedSites).outcome t =
      (.ok (column [1 / 2, 15, 1, 1 / 2]), t) ∧
    [1 / 2, 15, 1, 1 / 2] ≠ List.zipWith (· * ·) [(1 : ℚ) / 2, 5, 1, 1 / 2] [2, 3, 4, 5] :=
  ⟨_, Prod.ext (by with_unfolding_all rfl) rfl, by with_unfolding_all rfl, by decide +kernel⟩

end Evaluator

end AdditiveModel
