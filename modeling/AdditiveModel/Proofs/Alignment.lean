import AdditiveModel.Model.Evaluate
import AdditiveModel.Proofs.Effects
import AdditiveModel.Proofs.Formula

/-! Labels through the pipeline. Inputs, ready mappers and effects are entries by label: each of them
has exactly the labels that were asked for, in the order of the components, and what it has for a label
comes from the component with that label. -/

namespace AdditiveModel

variable {F α : Type}

namespace Components

variable {cs sub : Components F} {labels : List String}

theorem go_eq_ok {done items : List (Component F)} (h : ofList?.go done items = .ok cs)
    (hdone : (done.map (·.label)).Nodup) : cs.labels.Nodup := by
  induction items generalizing done with
  | nil =>
    obtain rfl := Except.ok.inj h
    rw [Components.labels, List.map_reverse]
    exact List.nodup_reverse.2 hdone
  | cons c items ih =>
    unfold ofList?.go at h
    split at h
    · cases h
    · rename_i hnew
      refine ih h (List.nodup_cons.2 ⟨fun hc => hnew ?_, hdone⟩)
      obtain ⟨d, hd, hlabel⟩ := List.mem_map.1 hc
      exact List.any_eq_true.2 ⟨d, hd, beq_iff_eq.2 hlabel⟩

theorem nodup_of_ofList {items : List (Component F)} (h : ofList? items = .ok cs) : cs.labels.Nodup :=
  go_eq_ok h List.nodup_nil

theorem find_of_mem (hnodup : cs.labels.Nodup) {c : Component F} (hc : c ∈ cs.toList) :
    cs.find? c.label = some c := by
  obtain ⟨d, hd⟩ : ∃ d, cs.toList.find? (·.label == c.label) = some d :=
    Option.isSome_iff_exists.1 (List.find?_isSome.2 ⟨c, hc, beq_self_eq_true _⟩)
  have hlabel := List.find?_some hd
  rw [find?, hd, List.inj_on_of_nodup_map hnodup (List.mem_of_find?_eq_some hd) hc (eq_of_beq hlabel)]

theorem get_of_mem (hnodup : cs.labels.Nodup) {c : Component F} (hc : c ∈ cs.toList) :
    cs.get? c.label = .ok c := by
  rw [get?, find_of_mem hnodup hc]

theorem contains_iff {label : String} : cs.contains label = true ↔ label ∈ cs.labels := by
  simp [contains, find?, Components.labels, List.find?_isSome]

theorem subset_eq_ok : cs.subset? labels = .ok sub ↔
    (∀ label ∈ labels, label ∈ cs.labels) ∧
      sub = ⟨cs.toList.filter fun c => labels.contains c.label⟩ := by
  have hknown : (labels.filter fun l => !cs.contains l) = [] ↔ ∀ label ∈ labels, label ∈ cs.labels := by
    simp [List.filter_eq_nil_iff, contains_iff]
  rw [← hknown, subset?]
  split
  · rename_i h
    simp [h, eq_comm]
  · rename_i h
    exact iff_of_false nofun fun h' => h h'.1

/-- Entries for exactly the given labels, in the order of the components. What a label has is related
to the component of that label. -/
structure Aligned (cs : Components F) (labels : List String) (R : Component F → α → Prop)
    (entries : Named α) : Prop where
  order : Named.names entries = cs.labels.filter labels.contains
  mem_iff (label : String) : label ∈ Named.names entries ↔ label ∈ labels
  own {label : String} {a : α} : (label, a) ∈ entries → ∃ c, cs.get? label = .ok c ∧ R c a

theorem aligned_of_subset (hnodup : cs.labels.Nodup) (hsub : cs.subset? labels = .ok sub)
    {R : Component F → α → Prop} {entries : Named α}
    (h : List.Forall₂ (fun c e => e.1 = c.label ∧ R c e.2) sub.toList entries) :
    cs.Aligned labels R entries := by
  obtain ⟨hknown, rfl⟩ := subset_eq_ok.1 hsub
  have horder : Named.names entries = cs.labels.filter labels.contains := by
    rw [Components.labels, List.filter_map]
    exact map_eq_of_forall₂ (h.imp fun c e hc => hc.1)
  refine ⟨horder, fun label => ?_, fun {label a} hmem => ?_⟩
  · rw [horder, List.mem_filter, List.contains_iff_mem]
    exact and_iff_right_of_imp (hknown label)
  · obtain ⟨c, hc, hlabel, hR⟩ := forall₂_mem h hmem
    obtain rfl : label = c.label := hlabel
    exact ⟨c, get_of_mem hnodup (List.mem_filter.1 hc).1, hR⟩

/-- Labels that were selected in the order of the components are the labels of the entries. -/
theorem Aligned.names_eq {R : Component F → α → Prop} {entries : Named α} {p : String → Bool}
    (h : cs.Aligned (cs.labels.filter p) R entries) : Named.names entries = cs.labels.filter p := by
  rw [h.order]
  refine List.filter_congr fun label hlabel => ?_
  rw [Bool.eq_iff_iff, List.contains_iff_mem, List.mem_filter]
  exact and_iff_right hlabel

end Components

variable [Scalar F]

/-- What a mapper is prepared as: it is expanded on its input where it is linear, and stays as it is
otherwise. -/
def Mapper.PreparedAs (m : Mapper F) (input : Option (Mapper.Input F)) (ready : Mapper F) : Prop :=
  if m.isLinear then ∃ i, input = some i ∧ m.ofLinear? (some i) = .ok ready else ready = m

namespace Simplified

theorem Prepares.preparedAs {inputs : Named (Mapper.Input F)} {c : Component F}
    {entry : String × Mapper F} (h : Prepares inputs c entry) :
    entry.1 = c.label ∧ ∃ m, c.mapper = some m ∧
      m.PreparedAs (Named.value? inputs c.label) entry.2 := by
  obtain ⟨m, hm, hentry⟩ := h
  unfold Mapper.PreparedAs
  cases hlinear : m.isLinear with
  | true =>
    obtain ⟨i, t, hi, ht, rfl⟩ := (simplifyOne_linear hlinear).1 hentry
    exact ⟨rfl, m, hm, by simp [hlinear, hi, ht]⟩
  | false =>
    obtain rfl := (simplifyOne_nonlinear hlinear).1 hentry
    exact ⟨rfl, m, hm, by simp [hlinear]⟩

omit [Scalar F] in
theorem inputOf_eq_ok {inputs : Named (Mapper.Input F)} {c : Component F} {i : Mapper.Input F} :
    inputOf? inputs c = .ok i ↔ Named.value? inputs c.label = some i := by
  unfold inputOf?
  cases Named.value? inputs c.label <;> simp

omit [Scalar F] in
theorem of_warned {warns : Bool} {k : Unit → Run (List Warning) α} {a : α} {ws ws' : List Warning}
    (h : (if warns then warn .nonlinear >>= k else k ()).outcome ws = (.ok a, ws')) :
    ∃ r, (k ()).outcome r = (.ok a, ws') := by
  cases warns with
  | true =>
    obtain ⟨_, r, -, h⟩ := Run.bind_eq_ok.1 h
    exact ⟨r, h⟩
  | false => exact ⟨ws, h⟩

/-- Every component's mapper is expanded around its own entry of the state, in order. -/
theorem around_eq_ok {cs : Components F} {inputs : Named (Mapper.Input F)} {state : Named (Value F)}
    {ms : Simplified F} {ws ws' : List Warning}
    (h : (around cs inputs state).outcome ws = (.ok ms, ws')) :
    List.Forall₂ (fun c entry => entry.1 = c.label ∧ ∃ m i, c.mapper = some m ∧
      Named.value? inputs c.label = some i ∧
      m.linearize? (some i) ((Named.value? state c.label).getD .null) = .ok entry.2) cs.toList ms := by
  obtain ⟨warns, _, -, h⟩ := Run.bind_eq_ok.1 h
  obtain ⟨r, h⟩ := of_warned h
  rw [Run.outcome_liftError, Prod.mk.injEq, mapM_eq_ok] at h
  refine h.1.imp fun c entry hc => ?_
  obtain ⟨i, hi, hc⟩ := bind_eq_ok.1 hc
  rw [inputOf_eq_ok] at hi
  cases hm : c.mapper with
  | none =>
    rw [hm] at hc
    exact nomatch hc
  | some m =>
    rw [hm] at hc
    obtain ⟨t, ht, hentry⟩ := bind_eq_ok.1 hc
    cases hentry
    exact ⟨rfl, m, i, rfl, hi, ht⟩

end Simplified

theorem Components.value_of_inputs {cs : Components F} (hnodup : cs.labels.Nodup) {data : Value F}
    {inputs : Named (Mapper.Input F)} (h : cs.inputs? data = .ok inputs) {c : Component F}
    (hc : c ∈ cs.toList) : ∃ i, c.input? data = .ok i ∧ Named.value? inputs c.label = some i := by
  have hall := inputs_eq_ok.1 h
  have hnames : Named.names inputs = cs.labels := map_eq_of_forall₂ (hall.imp fun c e hc => hc.1)
  obtain ⟨⟨label, i⟩, hmem, hlabel, hi⟩ := forall₂_mem hall.flip hc
  obtain rfl : label = c.label := hlabel
  exact ⟨i, hi, Named.value_of_mem (hnames ▸ hnodup) hmem⟩

omit [Scalar F] in
theorem Components.nodup_of_subset {cs sub : Components F} {labels : List String}
    (hnodup : cs.labels.Nodup) (h : cs.subset? labels = .ok sub) : sub.labels.Nodup := by
  obtain ⟨-, rfl⟩ := subset_eq_ok.1 h
  exact hnodup.sublist (List.filter_sublist.map _)

namespace Model

variable {m : Model F}

theorem labels_of_build {cs : Components F} {ls : List (Likelihood F)} (h : build? cs ls = .ok m) :
    m.labels = cs.labels ∧ m.likelihoods = ls := by
  obtain ⟨completed, included, hcompleted, -, rfl⟩ := build_eq_ok.1 h
  exact ⟨labels_eq hcompleted, rfl⟩

/-- The labels that a likelihood includes stand in the order of the components. -/
theorem names_of_included {included : List String} {l : Likelihood F}
    (h : includedBy? m.labels l = .ok included) {R : Component F → α → Prop} {entries : Named α}
    (hentries : m.components.Aligned included R entries) : Named.names entries = included := by
  obtain rfl := includedBy_eq h
  exact hentries.names_eq

theorem inputs_aligned (hnodup : m.labels.Nodup) {inputs : List (Named (Mapper.Input F))}
    (h : m.inputs? = .ok inputs) :
    List.Forall₂ (fun l input => m.included? (some l) = .ok (Named.names input) ∧
      m.components.Aligned (Named.names input) (fun c i => c.input? l.data = .ok i) input)
      m.likelihoods inputs := by
  refine (mapM_eq_ok.1 h).imp fun l input h => ?_
  obtain ⟨included, hincluded, h⟩ := bind_eq_ok.1 h
  obtain ⟨sub, hsub, h⟩ := bind_eq_ok.1 h
  have haligned : m.components.Aligned included (fun c i => c.input? l.data = .ok i) input :=
    Components.aligned_of_subset hnodup hsub (Components.inputs_eq_ok.1 h)
  rw [names_of_included hincluded haligned]
  exact ⟨hincluded, haligned⟩

/-- The mapper of a component, prepared on its own input. -/
def ReadyFor (input : Named (Mapper.Input F)) (c : Component F) (ready : Mapper F) : Prop :=
  ∃ own, c.mapper = some own ∧ own.PreparedAs (Named.value? input c.label) ready

theorem simplify_aligned (hnodup : m.labels.Nodup) {inputs : List (Named (Mapper.Input F))}
    {ready : List (Simplified F)} {ws ws' : List Warning}
    (h : (m.simplify inputs).outcome ws = (.ok ready, ws')) :
    List.Forall₂ (fun input ms => m.components.Aligned (Named.names input) (ReadyFor input) ms)
      inputs ready := by
  refine (Run.mapM_steps h).imp fun input ms ⟨s, t, h⟩ => ?_
  obtain ⟨sub, r, hsub, h⟩ := Run.bind_eq_ok.1 h
  rw [Run.outcome_liftError, Prod.mk.injEq] at hsub
  exact Components.aligned_of_subset hnodup hsub.1
    ((Simplified.ofComponents_eq_ok h).1.imp fun c e hc => hc.preparedAs)

/-- The mapper of a component, expanded on its own input around its own entry of the state. -/
def ExpandedFor (input : Named (Mapper.Input F)) (state : State F) (c : Component F)
    (ready : Mapper F) : Prop :=
  ∃ own i, c.mapper = some own ∧ Named.value? input c.label = some i ∧
    own.linearize? (some i) ((Named.value? state c.label).getD .null) = .ok ready

theorem linearize_aligned (hnodup : m.labels.Nodup) {inputs : List (Named (Mapper.Input F))}
    {state : State F} {ready : List (Simplified F)} {ws ws' : List Warning}
    (h : (m.linearize inputs state).outcome ws = (.ok ready, ws')) :
    List.Forall₂ (fun input ms =>
      m.components.Aligned (Named.names input) (ExpandedFor input state) ms) inputs ready := by
  refine (Run.mapM_steps h).imp fun input ms ⟨s, t, h⟩ => ?_
  obtain ⟨sub, r, hsub, h⟩ := Run.bind_eq_ok.1 h
  rw [Run.outcome_liftError, Prod.mk.injEq] at hsub
  exact Components.aligned_of_subset hnodup hsub.1 (Simplified.around_eq_ok h)

theorem inputsFor_eq_ok {cs : Components F} {e : Evaluation F} (hinputs : e.inputs = none)
    (hdata : e.data ≠ .null) {r : Option (Named (Mapper.Input F))} :
    inputsFor? cs e = .ok r ↔ ∃ inputs, cs.inputs? e.data = .ok inputs ∧ some inputs = r := by
  unfold inputsFor?
  split
  · simp_all
  · simp_all
  · rw [bind_eq_ok]
    simp only [pure_eq_ok]

theorem simplifiedFor_some {cs : Components F} {e : Evaluation F} (hsimplified : e.simplified = none)
    {inputs : Named (Mapper.Input F)} {r : Option (Simplified F)} {ws ws' : List Warning} :
    (simplifiedFor cs e (some inputs)).outcome ws = (.ok r, ws') ↔
      ∃ ready, (Simplified.ofComponents cs inputs).outcome ws = (.ok ready, ws') ∧ some ready = r := by
  unfold simplifiedFor
  rw [hsimplified]
  exact Run.map_eq_ok

/-- An evaluation of effects takes the inputs and the ready mappers of the included components from the
data, once for all states. -/
theorem evaluate_eq_ok {e : Evaluation F} (hinputs : e.inputs = none) (hsimplified : e.simplified = none)
    (hdata : e.data ≠ .null) (hpredictor : e.predictor = .null) {o : Outcome F} {s s' : Session F}
    (h : (m.evaluate e).outcome s = (.ok o, s')) :
    ∃ included states sub inputs ready ws effects,
      Inclusion.ofNames? m.labels e.includes e.excludes = .ok included ∧ e.states = some states ∧
      m.components.subset? included = .ok sub ∧ sub.inputs? e.data = .ok inputs ∧
      (Simplified.ofComponents sub inputs).outcome s.warnings = (.ok ready, ws) ∧
      Effects.ofStates? ready inputs states = .ok effects ∧ o = .effects (some effects) := by
  obtain ⟨included, _, hincluded, h⟩ := Run.bind_eq_ok.1 h
  rw [Run.outcome_liftError, Prod.mk.injEq] at hincluded
  obtain ⟨hincluded, rfl⟩ := hincluded
  cases hstates : e.states with
  | none =>
    rw [hstates] at h
    exact nomatch h
  | some states =>
    rw [hstates] at h
    obtain ⟨sub, _, hsub, h⟩ := Run.bind_eq_ok.1 h
    obtain ⟨inputs?, _, hin, h⟩ := Run.bind_eq_ok.1 h
    obtain ⟨mappers, _, hmappers, h⟩ := Run.bind_eq_ok.1 h
    obtain ⟨_, _, hall, h⟩ := Run.bind_eq_ok.1 h
    simp only [Run.outcome_liftError, Prod.mk.injEq] at hsub hin hall
    obtain ⟨hsub, rfl⟩ := hsub
    obtain ⟨hin, rfl⟩ := hin
    obtain ⟨inputs, hinputs, rfl⟩ := (inputsFor_eq_ok hinputs hdata).1 hin
    rw [Session.warning, Run.outcome_within, Prod.mk.injEq] at hmappers
    obtain ⟨ready, hready, rfl⟩ := (simplifiedFor_some hsimplified).1 (Prod.ext hmappers.1 rfl)
    obtain ⟨effects, heffects, rfl⟩ := map_eq_ok.1 hall.1
    rw [hpredictor] at h
    cases h
    exact ⟨included, states, sub, inputs, ready, _, effects, hincluded, rfl, hsub, hinputs, hready,
      heffects, rfl⟩

/-- The effect of a component in a state: its own mapper, prepared on its own input for the data, at its
own entry of the state. -/
def EffectIn (data : Value F) (state : State F) (c : Component F) (xs : List F) : Prop :=
  ∃ own i ready, c.mapper = some own ∧ c.input? data = .ok i ∧ own.PreparedAs (some i) ready ∧
    ready.evaluate? (some i) ((Named.value? state c.label).getD .null) = .ok xs

theorem effectIn_of_prepares {cs : Components F} (hnodup : cs.labels.Nodup) {data : Value F}
    {inputs : Named (Mapper.Input F)} (hinputs : cs.inputs? data = .ok inputs) {ready : Simplified F}
    (hready : List.Forall₂ (Simplified.Prepares inputs) cs.toList ready) {state : State F}
    {effects : Effects F} (h : Effects.ofSimplified? ready inputs state = .ok effects) :
    List.Forall₂ (fun c e => e.1 = c.label ∧ EffectIn data state c e.2) cs.toList effects := by
  refine (forall₂_with_mem (forall₂_trans hready (Effects.ofSimplified_eq_ok.1 h))).imp ?_
  rintro c _ ⟨hc, ⟨label, t⟩, hprepares, xs, hxs, rfl⟩
  obtain ⟨hlabel, own, hown, hprepared⟩ := hprepares.preparedAs
  obtain rfl : label = c.label := hlabel
  obtain ⟨i, hi, hvalue⟩ := Components.value_of_inputs hnodup hinputs hc
  rw [hvalue] at hprepared
  rw [hvalue] at hxs
  exact ⟨rfl, own, i, t, hown, hi, hprepared, hxs⟩

theorem evaluate_aligned (hnodup : m.labels.Nodup) {e : Evaluation F} (hinputs : e.inputs = none)
    (hsimplified : e.simplified = none) (hdata : e.data ≠ .null) (hpredictor : e.predictor = .null)
    {o : Outcome F} {s s' : Session F} (h : (m.evaluate e).outcome s = (.ok o, s')) :
    ∃ included states effects,
      Inclusion.ofNames? m.labels e.includes e.excludes = .ok included ∧ e.states = some states ∧
      o = .effects (some effects) ∧
      List.Forall₂ (fun state values => Named.names values = included ∧
        m.components.Aligned included (EffectIn e.data state) values) states effects := by
  obtain ⟨included, states, sub, inputs, ready, _, effects, hincluded, hstates, hsub, hin, hready,
    heffects, ho⟩ := evaluate_eq_ok hinputs hsimplified hdata hpredictor h
  have hready := (Simplified.ofComponents_eq_ok hready).1
  refine ⟨included, states, effects, hincluded, hstates, ho, (mapM_eq_ok.1 heffects).imp ?_⟩
  intro state values hvalues
  have haligned : m.components.Aligned included (EffectIn e.data state) values :=
    Components.aligned_of_subset hnodup hsub
      (effectIn_of_prepares (Components.nodup_of_subset hnodup hsub) hin hready hvalues)
  have hincludes : includedBy? m.labels
      ({ includes := e.includes, excludes := e.excludes } : Likelihood F) = .ok included := hincluded
  exact ⟨names_of_included hincludes haligned, haligned⟩

/-- Labels stay aligned from data to effects. The inputs of each likelihood have the labels that it
includes; ready mappers have the labels of their inputs, whatever the order of these; the effects of
each state on data have the labels that the filters select. All stand in the order of the components,
and what stands at a label comes from the component with that label. -/
theorem labels_aligned {items : List (Component F)} {cs : Components F} {ls : List (Likelihood F)}
    (hcs : Components.ofList? items = .ok cs) (h : build? cs ls = .ok m) :
    (∀ inputs, m.inputs? = .ok inputs →
      List.Forall₂ (fun l input => m.included? (some l) = .ok (Named.names input) ∧
        m.components.Aligned (Named.names input) (fun c i => c.input? l.data = .ok i) input)
        m.likelihoods inputs) ∧
    (∀ inputs ready ws ws', (m.simplify inputs).outcome ws = (.ok ready, ws') →
      List.Forall₂ (fun input ms => m.components.Aligned (Named.names input) (ReadyFor input) ms)
        inputs ready) ∧
    (∀ inputs state ready ws ws', (m.linearize inputs state).outcome ws = (.ok ready, ws') →
      List.Forall₂ (fun input ms =>
        m.components.Aligned (Named.names input) (ExpandedFor input state) ms) inputs ready) ∧
    ∀ e o s s', e.inputs = none → e.simplified = none → e.data ≠ .null → e.predictor = .null →
      (m.evaluate e).outcome s = (.ok o, s') → ∃ included states effects,
        Inclusion.ofNames? m.labels e.includes e.excludes = .ok included ∧ e.states = some states ∧
        o = .effects (some effects) ∧
        List.Forall₂ (fun state values => Named.names values = included ∧
          m.components.Aligned included (EffectIn e.data state) values) states effects := by
  have hnodup : m.labels.Nodup := (labels_of_build h).1 ▸ Components.nodup_of_ofList hcs
  refine ⟨fun inputs hinputs => inputs_aligned hnodup hinputs,
    fun inputs ready ws ws' hready => simplify_aligned hnodup hready,
    fun inputs state ready ws ws' hready => linearize_aligned hnodup hready, ?_⟩
  intro e o s s' hinputs hsimplified hdata hpredictor ho
  exact evaluate_aligned hnodup hinputs hsimplified hdata hpredictor ho

/-- The components of each kind, which read the data fields named like them. -/
def mixedItems : List (Component ℚ) :=
  Effects.mixed.toList.map fun c => { c with main := .function (.ofData ⟨c.label, .name c.label⟩ none) }

def mixedData : Value ℚ :=
  .dict [("known", .list [.int 5, .int 6]), ("site", .list [.str "a", .str "b"]),
    ("curve", .list [.int 1, .int 2])]

/-- The first likelihood includes two components, named in another order, and the second one all. -/
def mixedLikelihoods : List (Likelihood ℚ) :=
  [{ data := mixedData, includes := .list [.str "known", .str "curve"] }, { data := mixedData }]

def mixedModel : Model ℚ where
  components := ⟨mixedItems⟩
  formula := formulaOf ⟨mixedItems⟩ ["curve", "site", "known"] true
  likelihoods := mixedLikelihoods

def mixedEvaluation : Evaluation ℚ :=
  { states := some Effects.mixedStates, data := mixedData, excludes := .str "site" }

def quiet : Session ℚ := ⟨.ofCycle [], [], none⟩

theorem mixed_collected : Components.ofList? mixedItems = .ok ⟨mixedItems⟩ := rfl

theorem mixed_built : build? ⟨mixedItems⟩ mixedLikelihoods = .ok mixedModel := by
  with_unfolding_all rfl

theorem mixed_inputs : mixedModel.inputs?.toOption.isSome = true := by decide +kernel

theorem mixed_simplified :
    ((mixedModel.simplify [Effects.mixedInputs]).outcome []).1.toOption.isSome = true := by
  decide +kernel

theorem mixed_linearized :
    ((mixedModel.linearize [Effects.mixedInputs] []).outcome []).1.toOption.isSome = true := by
  decide +kernel

theorem mixed_evaluated :
    ((mixedModel.evaluate mixedEvaluation).outcome quiet).1.toOption.isSome = true := by
  decide +kernel

theorem mixed_aligned : ∃ inputs ready expanded o included states effects,
    mixedModel.inputs? = .ok inputs ∧
    List.Forall₂ (fun l input => mixedModel.included? (some l) = .ok (Named.names input) ∧
      mixedModel.components.Aligned (Named.names input) (fun c i => c.input? l.data = .ok i) input)
      mixedLikelihoods inputs ∧
    ((mixedModel.simplify [Effects.mixedInputs]).outcome []).1 = .ok ready ∧
    List.Forall₂ (fun input ms =>
      mixedModel.components.Aligned (Named.names input) (ReadyFor input) ms)
      [Effects.mixedInputs] ready ∧
    ((mixedModel.linearize [Effects.mixedInputs] []).outcome []).1 = .ok expanded ∧
    List.Forall₂ (fun input ms =>
      mixedModel.components.Aligned (Named.names input) (ExpandedFor input []) ms)
      [Effects.mixedInputs] expanded ∧
    ((mixedModel.evaluate mixedEvaluation).outcome quiet).1 = .ok o ∧
    Inclusion.ofNames? mixedModel.labels (.null : Value ℚ) (.str "site") = .ok included ∧
    mixedEvaluation.states = some states ∧ o = .effects (some effects) ∧
    List.Forall₂ (fun state values => Named.names values = included ∧
      mixedModel.components.Aligned included (EffectIn mixedData state) values) states effects := by
  obtain ⟨hinputs, hsimplify, hlinearize, hevaluate⟩ := labels_aligned mixed_collected mixed_built
  obtain ⟨inputs, hi⟩ := exists_of_isSome mixed_inputs
  obtain ⟨ready, hr⟩ := exists_of_isSome mixed_simplified
  obtain ⟨expanded, hx⟩ := exists_of_isSome mixed_linearized
  obtain ⟨o, ho⟩ := exists_of_isSome mixed_evaluated
  obtain ⟨included, states, effects, hincluded, hstates, heffects, hall⟩ :=
    hevaluate mixedEvaluation o quiet _ rfl rfl nofun rfl (Prod.ext ho rfl)
  exact ⟨inputs, ready, expanded, o, included, states, effects, hi, hinputs inputs hi, hr,
    hsimplify _ ready [] _ (Prod.ext hr rfl), hx, hlinearize _ [] expanded [] _ (Prod.ext hx rfl), ho,
    hincluded, hstates, heffects, hall⟩

/-- Without data there are no effects, also where the inputs could be read from no data. -/
theorem intercept_without_data : ∃ (c : Component ℚ) (m : Model ℚ)
    (inputs : Named (Mapper.Input ℚ)),
    Component.construct? .intercept none none [] = .ok c ∧ build? ⟨[c]⟩ [] = .ok m ∧
    m.components.inputs? .null = .ok inputs ∧
    Inclusion.ofNames? m.labels (.null : Value ℚ) .null = .ok ["Intercept"] ∧
    (m.evaluate { states := some [[("Intercept", .ofReals [1])]] }).outcome quiet =
      (.ok (.effects none), quiet) :=
  ⟨_, _, _, rfl, rfl, rfl, rfl, rfl⟩

end Model

end AdditiveModel
