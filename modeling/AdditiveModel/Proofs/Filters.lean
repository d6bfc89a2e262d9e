import AdditiveModel.Proofs.Formula

/-! Filters that name labels. A pair of filters is refused exactly when one of them names an unknown
label. Otherwise it selects the labels that the first names and the second does not, in the order of
the labels, so only which labels a filter names counts. -/

namespace AdditiveModel.Inclusion

section Labels

variable {α : Type} [BEq α] {quote : α → String} {labels : List α}

def Known (labels : List α) (filter : Option (List α)) : Prop := ∀ named ∈ filter, ∀ l ∈ named, l ∈ labels

theorem check_fails {which : Filter} {filter : Option (List α)} {e : Error}
    (h : check quote which labels filter = .error e) : e.category = .configuration := by
  unfold check at h
  split at h
  · cases h
  split at h
  · cases h
  · cases h
    rfl

theorem select_fails {includes excludes : Option (List α)} {e : Error}
    (h : select quote labels includes excludes = .error e) : e.category = .configuration := by
  have hfails : FailsOnly (fun e => e.category = .configuration)
      (select quote labels includes excludes) :=
    .bind (fun _ => check_fails) fun _ _ => .bind (fun _ => check_fails) fun _ _ => .ok _
  exact hfails e h

variable [LawfulBEq α]

theorem check_eq_ok {which : Filter} {filter : Option (List α)} {u : Unit} :
    check quote which labels filter = .ok u ↔ Known labels filter := by
  cases filter with
  | none => simp [check, Known]
  | some named =>
    have hunknown : unknown labels named = [] ↔ ∀ l ∈ named, l ∈ labels := by
      simp [unknown, List.filter_eq_nil_iff]
    simp only [Known, Option.mem_some_iff, forall_eq', ← hunknown, check]
    cases unknown labels named <;> simp

theorem select_eq_ok {selected : List α} {includes excludes : Option (List α)} :
    select quote labels includes excludes = .ok selected ↔
      (Known labels includes ∧ Known labels excludes) ∧
        selected = labels.filter (keeps includes excludes) := by
  simp only [select, bind_eq_ok, check_eq_ok, pure_eq_ok, exists_const, and_assoc, @eq_comm _ selected]

theorem keeps_iff {includes excludes : Option (List α)} {l : α} : keeps includes excludes l = true ↔
    (∀ named ∈ includes, l ∈ named) ∧ ∀ named ∈ excludes, l ∉ named := by
  cases includes <;> cases excludes <;> simp [keeps]

end Labels

variable {F : Type} [Scalar F]

/-- The labels that a filter names. A text is one label, and any other collection names its items. -/
inductive Names : Value F → Option (List String) → Prop
  | absent : Names .null none
  | single (label : String) : Names (.str label) (some [label])
  | collection {v : Value F} {named : List String} : (∀ s, v ≠ .str s) →
      v.items? = .ok (named.map .str) → Names v (some named)

omit [Scalar F] in
theorem Names.list (named : List String) : Names (.list (named.map .str) : Value F) (some named) :=
  .collection (fun _ => by simp) rfl

omit [Scalar F] in
theorem Names.filterItems {v : Value F} {filter : Option (List String)} (h : Names v filter) :
    filterItems? v = .ok (filter.map (·.map .str)) := by
  cases h with
  | absent => rfl
  | single label => rfl
  | collection hne hitems =>
    unfold filterItems?
    split
    · cases hitems
    · exact absurd rfl (hne _)
    · rw [hitems]
      rfl

theorem unknown_str (labels named : List String) :
    unknown (labels.map .str : List (Value F)) (named.map .str) = (unknown labels named).map .str := by
  simp only [unknown, List.filter_map, Function.comp_def, Model.contains_str]

theorem check_str {which : Filter} (labels : List String) (filter : Option (List String)) :
    check Value.display which (labels.map .str : List (Value F)) (filter.map (·.map .str)) =
      check (fun l => (Value.str l : Value F).display) which labels filter := by
  cases filter with
  | none => rfl
  | some named =>
    simp only [check, Option.map_some, unknown_str]
    cases unknown labels named with
    | nil => rfl
    | cons l bad => simp [Function.comp_def]

theorem keeps_str (includes excludes : Option (List String)) (l : String) :
    keeps (includes.map (·.map .str)) (excludes.map (·.map .str)) (.str l : Value F) =
      keeps includes excludes l := by
  cases includes <;> cases excludes <;>
    simp only [keeps, Option.map_none, Option.map_some, Option.all_none, Option.all_some, Model.contains_str]

theorem select_str (labels : List String) (includes excludes : Option (List String)) :
    select Value.display (labels.map .str : List (Value F)) (includes.map (·.map .str))
        (excludes.map (·.map .str)) =
      (select (fun l => (Value.str l : Value F).display) labels includes excludes).map (·.map .str) := by
  simp only [select, check_str, List.filter_map, Function.comp_def, keeps_str]
  cases check (fun l => (Value.str l : Value F).display) .includes labels includes with
  | error e => rfl
  | ok u =>
    cases check (fun l => (Value.str l : Value F).display) .excludes labels excludes <;> rfl

omit [Scalar F] in
theorem checkKeys_str (filter : Option (List String)) :
    checkKeys ((filter.map (·.map .str)).getD [] : List (Value F)) = .ok () := by
  cases filter with
  | none => rfl
  | some named =>
    rw [checkKeys, Option.map_some, Option.getD_some, Model.areKeys_str, if_pos rfl]

theorem ofValues_eq {labels includes excludes : Value F} {ls : List String}
    {inc exc : Option (List String)} (hlabels : labels.items? = .ok (ls.map .str))
    (hinc : Names includes inc) (hexc : Names excludes exc) : ofValues? labels includes excludes =
      (select (fun l => (Value.str l : Value F).display) ls inc exc).map (·.map .str) := by
  have hkeys : checkKeys (ls.map .str : List (Value F)) = .ok () := checkKeys_str (some ls)
  rw [ofValues?, hlabels]
  simp only [lift, pure, bind, Except.pure, Except.bind, ofItems?, hinc.filterItems, hexc.filterItems,
    hkeys, checkKeys_str, select_str]
  -- the check of the first filter is made twice, so its refusal comes first in either order
  simp only [check_str, select, bind, Except.bind]
  cases check (fun l => (Value.str l : Value F).display) .includes ls inc <;> rfl

/-- Two filters that are both absent or name the same labels, in any order and any number of times. -/
def SameNames : Option (List String) → Option (List String) → Prop :=
  Option.Rel fun named named' => ∀ l, l ∈ named ↔ l ∈ named'

theorem SameNames.known_iff {filter filter' : Option (List String)} (h : SameNames filter filter')
    (labels : List String) : Known labels filter ↔ Known labels filter' := by
  cases h with
  | none => exact Iff.rfl
  | some h => simp [Known, h]

theorem SameNames.keeps_eq {inc inc' exc exc' : Option (List String)} (hinc : SameNames inc inc')
    (hexc : SameNames exc exc') : keeps inc exc = keeps inc' exc' := by
  funext l
  rw [Bool.eq_iff_iff, keeps_iff, keeps_iff]
  cases hinc <;> cases hexc <;> simp_all

theorem known_iff {ls : List String} {inc exc : Option (List String)} :
    Known ls inc ∧ Known ls exc ↔ ∀ l, l ∈ inc.getD [] ∨ l ∈ exc.getD [] → l ∈ ls := by
  cases inc <;> cases exc <;> simp [Known, or_imp, forall_and]

section Texts

variable {labels includes excludes : Value F} {ls : List String} {inc exc : Option (List String)}

theorem ofValues_eq_ok (hlabels : labels.items? = .ok (ls.map .str)) (hinc : Names includes inc)
    (hexc : Names excludes exc) {vs : List (Value F)} : ofValues? labels includes excludes = .ok vs ↔
      (Known ls inc ∧ Known ls exc) ∧ vs = (ls.filter (keeps inc exc)).map .str := by
  simp only [ofValues_eq hlabels hinc hexc, map_eq_ok, select_eq_ok, @eq_comm _ vs]
  constructor
  · rintro ⟨selected, ⟨hknown, rfl⟩, hvs⟩
    exact ⟨hknown, hvs⟩
  · rintro ⟨hknown, hvs⟩
    exact ⟨_, ⟨hknown, rfl⟩, hvs⟩

theorem ofValues_fails_iff (hlabels : labels.items? = .ok (ls.map .str)) (hinc : Names includes inc)
    (hexc : Names excludes exc) :
    (∃ e, ofValues? labels includes excludes = .error e ∧ e.category = .configuration) ↔
      ¬ (Known ls inc ∧ Known ls exc) := by
  constructor
  · rintro ⟨e, he, -⟩ hknown
    cases he.symm.trans ((ofValues_eq_ok hlabels hinc hexc).2 ⟨hknown, rfl⟩)
  · intro hunknown
    cases hresult : ofValues? labels includes excludes with
    | ok vs => exact absurd ((ofValues_eq_ok hlabels hinc hexc).1 hresult).1 hunknown
    | error e =>
      rw [ofValues_eq hlabels hinc hexc] at hresult
      refine ⟨e, rfl, ?_⟩
      cases hselect : select (fun l => (Value.str l : Value F).display) ls inc exc with
      | ok selected =>
        rw [hselect] at hresult
        cases hresult
      | error e' =>
        rw [hselect] at hresult
        cases hresult
        exact select_fails hselect

/-- A selection is selected again, whether or not the second filter is applied again. -/
theorem ofValues_again (hlabels : labels.items? = .ok (ls.map .str)) (hexc : Names excludes exc)
    (hknown : Known ls exc) {again : Value F} (hagain : Names again (some (ls.filter (keeps inc exc))))
    {rest : Value F} (hrest : rest = .null ∨ rest = excludes) :
    ofValues? labels again rest = .ok ((ls.filter (keeps inc exc)).map .str) := by
  have hselected : Known ls (some (ls.filter (keeps inc exc))) := by
    rintro named ⟨⟩ l hl
    exact List.mem_of_mem_filter hl
  have hmem {l : String} (hl : l ∈ ls) : keeps inc exc l = true ↔ l ∈ ls.filter (keeps inc exc) := by
    rw [List.mem_filter, and_iff_right hl]
  rcases hrest with rfl | rfl
  · refine (ofValues_eq_ok hlabels hagain .absent).2 ⟨⟨hselected, by simp [Known]⟩, ?_⟩
    refine congrArg _ (List.filter_congr fun l hl => ?_)
    rw [Bool.eq_iff_iff, hmem hl, keeps_iff]
    simp
  · refine (ofValues_eq_ok hlabels hagain hexc).2 ⟨⟨hselected, hknown⟩, ?_⟩
    refine congrArg _ (List.filter_congr fun l hl => ?_)
    have hremoved : keeps inc exc l = true → ∀ named ∈ exc, l ∉ named := fun h => (keeps_iff.1 h).2
    rw [Bool.eq_iff_iff, @keeps_iff _ _ _ (some _) exc l]
    constructor
    · intro h
      exact ⟨by simpa using (hmem hl).1 h, hremoved h⟩
    · rintro ⟨h, -⟩
      exact (hmem hl).2 (h _ rfl)

theorem ofValues_congr (hlabels : labels.items? = .ok (ls.map .str)) (hinc : Names includes inc)
    (hexc : Names excludes exc) {includes' excludes' : Value F} {inc' exc' : Option (List String)}
    (hinc' : Names includes' inc') (hexc' : Names excludes' exc') (hsame : SameNames inc inc')
    (hsame' : SameNames exc exc') :
    (ofValues? labels includes' excludes').toOption = (ofValues? labels includes excludes).toOption := by
  refine Option.ext fun vs => ?_
  have hoption {x : Except Error (List (Value F))} : x.toOption = some vs ↔ x = .ok vs := by
    cases x <;> simp [Except.toOption]
  rw [hoption, hoption, ofValues_eq_ok hlabels hinc hexc, ofValues_eq_ok hlabels hinc' hexc',
    hsame.known_iff, hsame'.known_iff, hsame.keeps_eq hsame']

end Texts

/-- Two filters are refused for a label that one of them names and that is not known; all others select
the labels that the first names and the second does not, in the order of the labels. Filters that name
the same labels select the same, and so does the selection itself as the first filter. -/
theorem selects_named {labels includes excludes : Value F} {ls : List String}
    {inc exc : Option (List String)} (hlabels : labels.items? = .ok (ls.map .str))
    (hinc : Names includes inc) (hexc : Names excludes exc) :
    ((∃ e, ofValues? labels includes excludes = .error e ∧ e.category = .configuration) ↔
      ∃ l, (l ∈ inc.getD [] ∨ l ∈ exc.getD []) ∧ l ∉ ls) ∧
    ((∀ l, l ∈ inc.getD [] ∨ l ∈ exc.getD [] → l ∈ ls) →
      ∃ selected : List String, ofValues? labels includes excludes = .ok (selected.map .str) ∧
        selected = ls.filter (fun l => (∀ named ∈ inc, l ∈ named) ∧ ∀ named ∈ exc, l ∉ named) ∧
        ∀ again, Names again (some selected) →
          ofValues? labels again .null = .ok (selected.map .str) ∧
          ofValues? labels again excludes = .ok (selected.map .str)) ∧
    ∀ includes' excludes' inc' exc', Names includes' inc' → Names excludes' exc' →
      SameNames inc inc' → SameNames exc exc' →
      (ofValues? labels includes' excludes').toOption = (ofValues? labels includes excludes).toOption := by
  refine ⟨?_, fun hall => ?_, fun includes' excludes' inc' exc' => ofValues_congr hlabels hinc hexc⟩
  · rw [ofValues_fails_iff hlabels hinc hexc, known_iff]
    simp only [not_forall, exists_prop]
  · have hknown := known_iff.2 hall
    refine ⟨ls.filter (keeps inc exc), (ofValues_eq_ok hlabels hinc hexc).2 ⟨hknown, rfl⟩, ?_,
      fun again hagain => ?_⟩
    · exact List.filter_congr fun l _ => by rw [Bool.eq_iff_iff, keeps_iff, decide_eq_true_iff]
    · exact ⟨ofValues_again hlabels hexc hknown.2 hagain (.inl rfl),
        ofValues_again hlabels hexc hknown.2 hagain (.inr rfl)⟩

def fieldLabels : Value ℚ := .list [.str "Intercept", .str "x", .str "field", .str "u"]

/-- A label that both filters name is removed, in whatever order and how often they name it. -/
theorem field_selected :
    ofValues? fieldLabels (.list [.str "u", .str "x"]) (.str "u") = .ok [.str "x"] ∧
    ofValues? fieldLabels (.list [.str "x"]) (.str "u") = .ok [.str "x"] ∧
    (ofValues? fieldLabels (.list [.str "x", .str "u", .str "x"]) (.list [.str "u", .str "u"])).toOption =
      some [.str "x"] := by
  have hlabels : fieldLabels.items? = .ok (["Intercept", "x", "field", "u"].map .str) := rfl
  obtain ⟨-, hselects, hsame⟩ := selects_named hlabels (.list ["u", "x"]) (.single "u")
  have hknown : ∀ l ∈ ["u", "x"] ++ ["u"], l ∈ ["Intercept", "x", "field", "u"] := by decide
  obtain ⟨selected, hok, hselected, hagain⟩ := hselects fun l hl => hknown l (List.mem_append.2 hl)
  obtain rfl : selected = ["x"] := hselected.trans (by decide)
  refine ⟨hok, (hagain _ (.list ["x"])).2, ?_⟩
  have hrepeated := hsame _ _ _ _ (.list ["x", "u", "x"]) (.list ["u", "u"])
    (.some (by simp [or_comm])) (.some (by simp))
  exact hrepeated.trans (congrArg Except.toOption hok)

end AdditiveModel.Inclusion
