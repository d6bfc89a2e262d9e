import Mathlib
import AdditiveModel.Proofs.Again
import AdditiveModel.Proofs.Calls
import AdditiveModel.Proofs.Keys

/-! Which unknown points share a deviate. A deviate belongs to the text of a value, so two points share
one where their values read the same. Among integers, among texts and among truth values that is where
they are the same level; an integer and a float can be the same level and read differently, and a number
and a text can read the same and be different levels. -/

namespace AdditiveModel

variable {F : Type} [Scalar F]

namespace Value

inductive OfOneKind : Value F → Value F → Prop
  | int (n m : Int) : OfOneKind (.int n) (.int m)
  | str (s t : String) : OfOneKind (.str s) (.str t)
  | bool (a b : Bool) : OfOneKind (.bool a) (.bool b)

theorem OfOneKind.plainText_eq_iff {a b : Value F} (h : OfOneKind a b) :
    a.plainText = b.plainText ↔ same a b = true := by
  cases h with
  | int n m => simp [plainText, display, same, equal?, number?, PlainNumber.eq, toString, Int.repr_inj]
  | str s t => simp [plainText, same, equal?]
  | bool a b => cases a <;> cases b <;> simp [plainText, display, same, equal?, number?, PlainNumber.eq]

end Value

namespace Evaluator

/-- A call of the component's evaluator that has the value `x` at place `j` of its main input. -/
def Passes (es : List (Event F)) (c : Component F) (values : List F) (j : Nat) (x : Value F) : Prop :=
  ∃ scope a bound g, .call c scope a values ∈ es ∧ a.bind? parameters = .ok bound ∧
    mainGrid? (argument bound 0) = .ok g ∧ g.cells[j]? = some x

section Shared

variable {generator : Generator} {s t : Context F} {es : List (Event F)} {c : Component F}
  {m : Mapper F} {levels : List (Value F)}

theorem Passes.deviate (hes : History generator s es t) (hs : s.deviates = [])
    (hsame : ∀ k, .advance k ∈ es → s.active = some k) (hrole : c.role = .iid)
    (hmapper : c.mapper = some m) (hfirst : m.firstStage = .index levels) {values : List F} {j : Nat}
    {x : Value F} (h : Passes es c values j x)
    (hx : Mapper.Levels.position? levels x.plain = none) :
    ∃ v, values[j]? = some v ∧ t.deviates.lookup c.label x.plain.plainText = some v := by
  obtain ⟨scope, a, bound, g, hcall, hbound, hg, hcell⟩ := h
  obtain ⟨r, hr, hsettled, rfl⟩ := hes.settled hs hsame hcall
  obtain ⟨bound', _, _, hbound', hmain, -⟩ := reading_eq_ok.1 hr
  obtain rfl := Except.ok.inj (hbound.symm.trans hbound')
  obtain rfl := Except.ok.inj (hg.symm.trans hmain)
  have hunknown : r.unknown[j]? = some true := by
    simp [unknown_eq hr hrole hmapper hfirst, hcell, hx]
  obtain ⟨v, hv⟩ := Option.isSome_iff_exists.1 (hsettled.isSome _ (mem_keysAt hcell hunknown))
  exact ⟨v, (hsettled.getElem?_kept hcell hunknown).trans hv, hv⟩

/-- In one state, two main values that are no levels have the same deviate where they read the same:
for two integers, two texts or two truth values, where they are the same level. -/
theorem deviates_shared (hs : Begins s) (hes : History generator s es t)
    (hsame : ∀ k, .advance k ∈ es → s.active = some k) (hrole : c.role = .iid)
    (hmapper : c.mapper = some m) (hfirst : m.firstStage = .index levels) :
    ∃ draws : List (Draw F),
      t.source.requests = s.source.requests ++ draws.map (Draw.request generator) ∧
      ∀ {values values' : List F} {j k : Nat} {x y : Value F}, Passes es c values j x →
        Passes es c values' k y → Mapper.Levels.position? levels x.plain = none →
        Mapper.Levels.position? levels y.plain = none →
        ∃ (i i' : Nat) (d d' : Draw F), draws[i]? = some d ∧ draws[i']? = some d' ∧
          values[j]? = some d.value ∧ values'[k]? = some d'.value ∧
          (i = i' ↔ x.plain.plainText = y.plain.plainText) ∧
          (Value.OfOneKind x.plain y.plain → (i = i' ↔ Value.same x.plain y.plain = true)) := by
  obtain ⟨draws, -, hdrawn, hledger, -⟩ := hes.accounted hs.deviates hsame
  refine ⟨draws.flatten, hdrawn.requests, fun {values values' j k x y} hx hy hxnone hynone => ?_⟩
  have hdraw {values : List F} {j : Nat} {x : Value F} (h : Passes es c values j x)
      (hx : Mapper.Levels.position? levels x.plain = none) :
      ∃ (i : Nat) (d : Draw F), draws.flatten[i]? = some d ∧ values[j]? = some d.value ∧
        d.level = (c.label, x.plain.plainText) := by
    obtain ⟨v, hv, hlookup⟩ := h.deviate hes hs.deviates hsame hrole hmapper hfirst hx
    obtain ⟨d, hd, hlevel, rfl⟩ := (hledger.lookup _ _ v).1 hlookup
    obtain ⟨i, hi⟩ := List.mem_iff_getElem?.1 hd
    exact ⟨i, d, hi, hv, hlevel⟩
  obtain ⟨i, d, hi, hv, hlevel⟩ := hdraw hx hxnone
  obtain ⟨i', d', hi', hv', hlevel'⟩ := hdraw hy hynone
  have hiff : i = i' ↔ x.plain.plainText = y.plain.plainText := by
    constructor
    · rintro rfl
      obtain rfl := Option.some.inj (hi.symm.trans hi')
      exact (Prod.mk.inj (hlevel.symm.trans hlevel')).2
    · intro htext
      -- no level is drawn twice
      have hlevels : (draws.flatten.map Draw.level)[i]? = (draws.flatten.map Draw.level)[i']? := by
        rw [List.getElem?_map, List.getElem?_map, hi, hi', Option.map_some, Option.map_some, hlevel,
          hlevel', htext]
      refine (List.getElem?_inj ?_ hledger.nodup).1 hlevels
      rw [List.length_map]
      exact (List.getElem?_eq_some_iff.1 hi).1
  exact ⟨i, i', d, d', hi, hi', hv, hv', hiff, fun hkind => hiff.trans hkind.plainText_eq_iff⟩

end Shared

/-- The run asks for an unknown site twice and for another one once. -/
theorem site_shared : ∃ (t : Context ℚ) (draws : List (Draw ℚ)) (i k : Nat) (d e : Draw ℚ),
    History .given siteStart siteEvents t ∧
    t.source.requests = siteStart.source.requests ++ draws.map (Draw.request .given) ∧
    draws[i]? = some d ∧ draws[k]? = some e ∧ i ≠ k ∧ d.value = 1 ∧ e.value = 3 / 2 := by
  obtain ⟨t, ht⟩ := site_history
  have hfirst : Passes siteEvents site [1 / 2, 5, 1, 1 / 2] 2 (.str "c") :=
    ⟨siteScope, _, _, _, List.mem_cons_self, rfl, rfl, rfl⟩
  have hsecond : Passes siteEvents site [1, 3 / 2] 1 (.str "d") :=
    ⟨siteScope, .ofList [.list [.str "c", .str "d"]], _, _, by simp [siteEvents], rfl, rfl, rfl⟩
  obtain ⟨draws, hrequests, hshared⟩ :=
    deviates_shared siteStart_begins ht siteEvents_active (c := site) rfl rfl rfl
  obtain ⟨i, k, d, e, hd, he, hvalue, hvalue', htext, -⟩ :=
    hshared hfirst hsecond (by decide +kernel) (by decide +kernel)
  refine ⟨t, draws, i, k, d, e, ht, hrequests, hd, he, fun h => ?_, (Option.some.inj hvalue).symm,
    (Option.some.inj hvalue').symm⟩
  exact absurd (htext.1 h) (by decide +kernel)

/-- A truth value and an integer are the same level and read differently; an integer and a text are
different levels and read the same. -/
theorem site_confused : ∃ t u v,
    (call site siteScope .given (.ofList [.list [.int 1]])).outcome siteStart =
      (.ok (column [1 / 2]), t) ∧
    (call site siteScope .given (.ofList [.list [.bool true]])).outcome t = (.ok (column [1]), u) ∧
    (call site siteScope .given (.ofList [.list [.str "1"]])).outcome u = (.ok (column [1 / 2]), v) ∧
    Value.same (.int 1 : Value ℚ) (.bool true) = true ∧
    Value.same (.int 1 : Value ℚ) (.str "1") = false :=
  ⟨_, _, _, Prod.ext (by with_unfolding_all rfl) rfl, Prod.ext (by with_unfolding_all rfl) rfl,
    Prod.ext (by with_unfolding_all rfl) rfl, by decide +kernel, by decide +kernel⟩

end Evaluator

end AdditiveModel
