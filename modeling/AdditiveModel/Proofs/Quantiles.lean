import AdditiveModel.Proofs.ExtendedReals
import AdditiveModel.Proofs.Literals

/-! Quantiles of a posterior. A quantile is the location moved by the deviation times a standard deviate,
which grows with the probability, is infinite at the ends and zero at one half. Of binary64 numbers nothing
is assumed but what `NormalLaws` says of the quantile function, the exponential and the logarithm. -/

namespace AdditiveModel

open Scalar

namespace Gaussian

variable {F : Type} [Scalar F]

def deviate (p : F) : F :=
  if eq p zero then -infinity else if eq p one then infinity else normalQuantile p

theorem quantileOf_location {p l s : F} (hs : lt zero s = false) : quantileOf p l s = l := by
  rw [quantileOf, hs, if_neg Bool.false_ne_true]

section Deviates

variable [OrderedScalar F] {p q l s : F}

theorem inside (hzero : le zero p = true) (hone : le p one = true) (hne : eq p zero = false)
    (hne' : eq p one = false) : lt zero p = true ∧ lt p one = true := by
  refine ⟨OrderedScalar.lt_of_le_of_ne hzero ?_, OrderedScalar.lt_of_le_of_ne hone hne'⟩
  by_contra h
  rw [Bool.not_eq_false] at h
  exact Bool.noConfusion (hne.symm.trans (OrderedScalar.eq_symm h))

theorem quantileOf_eq (hzero : le zero p = true) (hone : le p one = true) (hs : lt zero s = true)
    (hl : isFinite l = true) : quantileOf p l s = deviate p * s + l := by
  rw [quantileOf, if_pos hs, Normal.quantileAt, OrderedScalar.isNaN_eq hl, hs, deviate]
  cases hp : eq p zero with
  | true => rfl
  | false =>
    cases hp' : eq p one with
    | true => rfl
    | false =>
      obtain ⟨hlow, hhigh⟩ := inside hzero hone hp hp'
      simp [hlow, hhigh]

theorem deviate_inside (hlow : lt zero p = true) (hhigh : lt p one = true) : deviate p = normalQuantile p := by
  have hzero : eq p zero = false := by
    by_contra h
    rw [Bool.not_eq_false] at h
    exact Bool.noConfusion (hlow.symm.trans (OrderedScalar.not_lt_of_eq (OrderedScalar.eq_symm h)))
  rw [deviate, hzero, OrderedScalar.ne_of_lt hhigh, if_neg Bool.false_ne_true, if_neg Bool.false_ne_true]

theorem inside_of_half (h : eq p half = true) : lt zero p = true ∧ lt p one = true := by
  obtain ⟨hzero, hone⟩ := OrderedScalar.half_between (F := F)
  obtain ⟨hle, hge⟩ := OrderedScalar.eq_iff.1 h
  exact ⟨OrderedScalar.lt_of_lt_of_le hzero hge, OrderedScalar.lt_of_le_of_lt hle hone⟩

variable [NormalLaws F]

theorem deviate_le (hzero : le zero p = true) (hle : le p q = true) (hone : le q one = true) :
    le (deviate p) (deviate q) = true := by
  have hp_one : le p one = true := OrderedScalar.le_trans hle hone
  have hq_zero : le zero q = true := OrderedScalar.le_trans hzero hle
  have hinside {r : F} (hr : le zero r = true) (hr' : le r one = true) (hne : eq r zero = false)
      (hne' : eq r one = false) : le (normalQuantile r) (normalQuantile r) = true := by
    obtain ⟨hlow, hhigh⟩ := inside hr hr' hne hne'
    exact NormalLaws.quantile_le hlow (OrderedScalar.le_self hr') hhigh
  obtain ⟨hbelow, habove⟩ := OrderedScalar.infinity_refl (F := F)
  unfold deviate
  cases hp0 : eq p zero with
  | true =>
    cases hq0 : eq q zero with
    | true => exact hbelow
    | false =>
      cases hq1 : eq q one with
      | true => exact (OrderedScalar.le_infinity habove).1
      | false => exact (OrderedScalar.le_infinity (hinside hq_zero hone hq0 hq1)).1
  | false =>
    have hq0 : eq q zero = false := by
      by_contra hq0
      rw [Bool.not_eq_false] at hq0
      have hp : eq p zero = true :=
        OrderedScalar.eq_iff.2 ⟨OrderedScalar.le_trans hle (OrderedScalar.eq_iff.1 hq0).1, hzero⟩
      exact Bool.noConfusion (hp0.symm.trans hp)
    rw [hq0]
    cases hp1 : eq p one with
    | true =>
      have hq1 : eq q one = true :=
        OrderedScalar.eq_iff.2 ⟨hone, OrderedScalar.le_trans (OrderedScalar.eq_iff.1 hp1).2 hle⟩
      rw [hq1]
      exact habove
    | false =>
      cases hq1 : eq q one with
      | true => exact (OrderedScalar.le_infinity (hinside hzero hp_one hp0 hp1)).2
      | false =>
        exact NormalLaws.quantile_le (inside hzero hp_one hp0 hp1).1 hle (inside hq_zero hone hq0 hq1).2

theorem quantileOf_le (hzero : le zero p = true) (hle : le p q = true) (hone : le q one = true)
    (hl : isFinite l = true) (hs : isFinite s = true) :
    le (quantileOf p l s) (quantileOf q l s) = true := by
  cases hpos : lt zero s with
  | true =>
    rw [quantileOf_eq hzero (OrderedScalar.le_trans hle hone) hpos hl,
      quantileOf_eq (OrderedScalar.le_trans hzero hle) hone hpos hl]
    exact OrderedScalar.mul_add_le (deviate_le hzero hle hone) hpos hs hl
  | false =>
    rw [quantileOf_location hpos, quantileOf_location hpos]
    exact OrderedScalar.le_refl hl

theorem quantileOf_half (h : eq p half = true) (hl : isFinite l = true) (hs : isFinite s = true) :
    eq (quantileOf p l s) l = true := by
  cases hpos : lt zero s with
  | true =>
    obtain ⟨hzero, hone⟩ := OrderedScalar.half_between (F := F)
    obtain ⟨hlow, hhigh⟩ := inside_of_half h
    obtain ⟨hle, hge⟩ := OrderedScalar.eq_iff.1 h
    have hmiddle : eq (normalQuantile p) (normalQuantile half) = true :=
      OrderedScalar.eq_iff.2 ⟨NormalLaws.quantile_le hlow hle hone, NormalLaws.quantile_le hzero hge hhigh⟩
    rw [quantileOf_eq (OrderedScalar.lt_iff.1 hlow).1 (OrderedScalar.lt_iff.1 hhigh).1 hpos hl,
      deviate_inside hlow hhigh]
    exact OrderedScalar.mul_add_eq (OrderedScalar.eq_trans hmiddle NormalLaws.quantile_half) hpos hs hl
  | false =>
    rw [quantileOf_location hpos]
    exact OrderedScalar.eq_refl hl

end Deviates

/-- What an entry of a property is computed from. -/
inductive Cell (F : Type) where
  | latent (mean deviation : F)
  | hyper (h : Hyperparameter F)

/-- The entry of a property. -/
def Cell.value (property : Property) (internal : Bool) : Cell F → F
  | .latent mean deviation =>
    match property with
    | .sd => deviation
    | .quantile .. => quantileOf ((property.probability).getD nan) mean deviation
    | _ => mean
  | .hyper h => hyperProperty property internal h

/-- The entries of a property: those of the latent vectors, and one for each hyperparameter. -/
def latentCells (mean : Named (List F)) (deviations : List F) : Named (List (Cell F)) :=
  (mean.zip (cut mean deviations)).map fun e => (e.1.1, List.zipWith Cell.latent e.1.2 e.2.2)

def hyperCells (hs : List (Hyperparameter F)) : Named (List (Cell F)) :=
  hs.map fun h => (h.name, [Cell.hyper h])

def valuesAt (property : Property) (internal : Bool) (cells : Named (List (Cell F))) : Named (List F) :=
  cells.map fun e => (e.1, e.2.map (Cell.value property internal))

omit [Scalar F] in
theorem names_latentCells (mean : Named (List F)) (deviations : List F) :
    Named.names (latentCells mean deviations) = Named.names mean := by
  induction mean generalizing deviations with
  | nil => rfl
  | cons e mean ih => exact congrArg _ (ih _)

theorem names_valuesAt (property : Property) (internal : Bool) (cells : Named (List (Cell F))) :
    Named.names (valuesAt property internal cells) = Named.names cells := by
  simp [Named.names, valuesAt]

theorem latentProperty_eq (property : Property) (internal : Bool) {mean deviations : List F}
    (h : mean.length = deviations.length) : latentProperty property mean deviations =
      (List.zipWith Cell.latent mean deviations).map (Cell.value property internal) := by
  have hfst : List.zipWith (fun m _ => m) mean deviations = mean := by
    apply List.ext_getElem <;> simp [h]
  have hsnd : List.zipWith (fun _ s => s) mean deviations = deviations := by
    apply List.ext_getElem <;> simp [h]
  rw [List.map_zipWith]
  cases property with
  | sd => exact hsnd.symm
  | quantile m k => rfl
  | _ => exact hfst.symm

theorem latentProperties_eq (property : Property) (internal : Bool) {mean : Named (List F)}
    {deviations : List F} (h : deviations.length = (Named.joined mean).length) :
    ((mean.zip (cut mean deviations)).map fun e => (e.1.1, latentProperty property e.1.2 e.2.2)) =
      valuesAt property internal (latentCells mean deviations) := by
  induction mean generalizing deviations with
  | nil => rfl
  | cons e mean ih =>
    obtain ⟨name, block⟩ := e
    have hlength : deviations.length = block.length + (Named.joined mean).length := by
      simpa [Named.joined] using h
    have hblock : block.length = (deviations.take block.length).length := by
      rw [List.length_take, hlength, Nat.min_eq_left (Nat.le_add_right _ _)]
    have hrest := @ih (deviations.drop block.length)
      (by rw [List.length_drop, hlength, Nat.add_sub_cancel_left])
    rw [cut, List.zip_cons_cons, List.map_cons, hrest, latentProperty_eq property internal hblock]
    rfl

theorem length_deviations (g : Gaussian F) : g.deviations.length = (Named.joined g.mean).length := by
  simp [deviations, size, Named.joined]

/-- The places of the entries of every property. -/
def cells (g : Gaussian F) : Named (List (Cell F)) :=
  latentCells g.mean g.deviations ++ hyperCells g.hyperparameters

theorem property_eq {g : Gaussian F} {v : Value F} {property : Property} (internal : Bool)
    (hv : Property.ofValue? v = .ok property) (hsample : property ≠ .sample)
    (hnodup : (Named.names g.cells).Nodup) :
    g.property? v internal = .ok (valuesAt property internal g.cells) := by
  have hhyper : (g.hyperparameters.map fun h => (h.name, [hyperProperty property internal h])) =
      valuesAt property internal (hyperCells g.hyperparameters) := by
    simp [valuesAt, hyperCells, Cell.value]
  have hsame : g.property? v internal = .ok (Named.ofList (valuesAt property internal g.cells)) := by
    simp only [property?, hv, bind, Except.bind]
    rw [if_neg (by simpa using hsample)]
    have hlatent := latentProperties_eq property internal (length_deviations g)
    rw [cells, valuesAt, List.map_append, ← valuesAt, ← valuesAt, ← hlatent, ← hhyper]
    rfl
  rw [hsame, Named.ofList_of_nodup (by rwa [names_valuesAt])]

/-- A posterior whose means, deviations and hyperparameters are finite, the hyperparameters on both
scales. -/
structure Finite (g : Gaussian F) : Prop where
  means : ∀ m ∈ Named.joined g.mean, isFinite m = true
  deviations : ∀ s ∈ g.deviations, isFinite s = true
  hyperparameters : ∀ h ∈ g.hyperparameters, isFinite h.value = true ∧ isFinite (log h.value) = true ∧
    isFinite (h.deviation / h.value) = true

def Cell.Finite : Cell F → Prop
  | .latent mean deviation => isFinite mean = true ∧ isFinite deviation = true
  | .hyper h => lt zero h.value = true ∧ isFinite h.value = true ∧ isFinite (log h.value) = true ∧
    isFinite (h.deviation / h.value) = true

theorem latentCells_finite {mean : Named (List F)} {deviations : List F}
    (hmean : ∀ m ∈ Named.joined mean, isFinite m = true) (hdeviations : ∀ s ∈ deviations, isFinite s = true) :
    ∀ e ∈ latentCells mean deviations, ∀ c ∈ e.2, c.Finite := by
  induction mean generalizing deviations with
  | nil => simp [latentCells]
  | cons e mean ih =>
    obtain ⟨name, block⟩ := e
    simp only [Named.joined, List.flatMap_cons, List.forall_mem_append] at hmean
    have hrest := @ih (deviations.drop block.length) hmean.2
      fun s hs => hdeviations s (List.mem_of_mem_drop hs)
    refine List.forall_mem_cons.2 ⟨fun c hc => ?_, hrest⟩
    obtain ⟨i, hi, rfl⟩ := List.mem_iff_getElem.1 hc
    rw [List.getElem_zipWith]
    exact ⟨hmean.1 _ (List.getElem_mem _), hdeviations _ (List.mem_of_mem_take (List.getElem_mem _))⟩

section Positive

variable [OrderedScalar F]

theorem value_pos {name : String} {pair : Value F} {h : Hyperparameter F}
    (hh : hyperparameter? name pair = .ok h) (hfinite : isFinite h.value = true) :
    lt zero h.value = true := by
  obtain ⟨-, value, deviation, -, hpositive, -, hvalue, -⟩ := hyperparameter_cases hh
  rcases SignRules.compared_zero hpositive hvalue with ⟨n, hn, hcompared⟩ | hcompared
  · have hpos : 0 < n := by
      simp [SignRules.intAtZero] at hcompared
      omega
    rw [hn]
    exact OrderedScalar.pos_ofInt hpos
  · refine OrderedScalar.pos_of_intLt ?_
    simp only [SignRules.realAtZero, Bool.true_and, Bool.false_eq, Bool.or_eq_false_iff,
      OrderedScalar.isNaN_eq hfinite, Bool.not_false, Bool.and_true, Bool.not_eq_false'] at hcompared
    exact hcompared.2

theorem cells_finite {mean : Named (List F)} {shape : List Nat} {covariance : List F}
    {hyperparameters : Named (Value F)} {g : Gaussian F}
    (hg : ofCovariance? mean shape covariance hyperparameters = .ok g) (hfinite : g.Finite) :
    ∀ e ∈ g.cells, ∀ c ∈ e.2, c.Finite := by
  obtain ⟨-, hs, hhs, rfl⟩ := ofCovariance_eq_ok.1 hg
  refine List.forall_mem_append.2 ⟨latentCells_finite hfinite.means hfinite.deviations, ?_⟩
  intro e he c hc
  obtain ⟨h, hmem, rfl⟩ := List.mem_map.1 he
  obtain rfl := List.mem_singleton.1 hc
  obtain ⟨e, -, hread⟩ := forall₂_mem hhs hmem
  have hh := hfinite.hyperparameters h hmem
  exact ⟨value_pos hread hh.1, hh⟩

end Positive

/-- The text names the quantile of the probability. -/
def NamesQuantile (s : String) (p : F) : Prop :=
  ∃ mantissa places, Property.ofValue? (.str s : Value F) = .ok (.quantile mantissa places) ∧
    p = ofDecimal mantissa (-(places : Int))

theorem namesQuantile_tenths {s : String} {d : Char} (hs : Property.Written s ['0', '.', d])
    (hd : d.isDigit = true) :
    NamesQuantile s (ofDecimal (Text.Numeral.digitsValue [d]) (-(1 : Nat)) : F) :=
  ⟨_, 1, Property.ofValue_eq_ok.2 (hs.read (List.cons_ne_nil _ _) (List.forall_mem_singleton.2 hd)), rfl⟩

theorem NamesQuantile.bounds [UnitDecimals F] {s : String} {p : F} (h : NamesQuantile s p) :
    le zero p = true ∧ le p one = true := by
  obtain ⟨m, k, hread, rfl⟩ := h
  rw [Property.ofValue_eq_ok] at hread
  have hname : s ∉ Error.propertyNames := by
    intro hmem
    obtain ⟨q, hq, -, hnone⟩ := Property.ofName_of_name (F := F) hmem
    obtain rfl := Option.some.inj (hread.symm.trans hq)
    cases hnone
  obtain ⟨cs, -, hcs⟩ := (Property.ofName_eq_some hname).1 hread
  obtain ⟨v, hliteral⟩ := Property.literal_of_probability hcs
  obtain ⟨q, hq, hquantile⟩ := hliteral.probability
  obtain rfl := Option.some.inj (hcs.symm.trans hq)
  obtain ⟨-, -, -, x, -, -, hx, hbounds⟩ := hquantile.probability (F := F) hliteral.bounds.2
  obtain rfl := Option.some.inj hx
  exact hbounds

theorem Cell.value_latent (m k : Nat) (internal : Bool) (mean deviation : F) :
    (Cell.latent mean deviation).value (.quantile m k) internal =
      quantileOf (ofDecimal m (-(k : Int))) mean deviation := rfl

theorem Cell.value_hyper (m k : Nat) (internal : Bool) (h : Hyperparameter F) :
    (Cell.hyper h).value (.quantile m k) internal =
      if internal then quantileOf (ofDecimal m (-(k : Int))) (log h.value) (h.deviation / h.value)
      else exp (quantileOf (ofDecimal m (-(k : Int))) (log h.value) (h.deviation / h.value)) := rfl

section Entries

variable [OrderedScalar F] [NormalLaws F] {c : Cell F} {internal scale : Bool} {m k m' k' : Nat}

theorem Cell.quantile_le (hc : c.Finite) (hzero : le (zero : F) (ofDecimal m (-(k : Int))) = true)
    (hle : le (ofDecimal m (-(k : Int)) : F) (ofDecimal m' (-(k' : Int))) = true)
    (hone : le (ofDecimal m' (-(k' : Int)) : F) one = true) :
    le (c.value (.quantile m k) internal) (c.value (.quantile m' k') internal) = true := by
  cases c with
  | latent mean deviation => exact quantileOf_le hzero hle hone hc.1 hc.2
  | hyper h =>
    have hlog := quantileOf_le hzero hle hone hc.2.2.1 hc.2.2.2
    rw [Cell.value_hyper, Cell.value_hyper]
    cases internal with
    | true => exact hlog
    | false => exact NormalLaws.exp_le hlog

theorem exp_congr {x y : F} (h : eq x y = true) : eq (exp x) (exp y) = true := by
  obtain ⟨hle, hge⟩ := OrderedScalar.eq_iff.1 h
  exact OrderedScalar.eq_iff.2 ⟨NormalLaws.exp_le hle, NormalLaws.exp_le hge⟩

def IsLocation (property : Property) : Prop := property = .mode ∨ property = .mean ∨ property = .median

theorem IsLocation.ne_sample {property : Property} (h : IsLocation property) : property ≠ .sample := by
  obtain rfl | rfl | rfl := h <;> simp

/-- What lies at the location on the log scale lies at the value on the scale of the hyperparameter. -/
theorem Cell.hyper_location {h : Hyperparameter F} (hc : (Cell.hyper h).Finite) {property : Property}
    (hproperty : IsLocation property)
    (hq : eq (quantileOf (ofDecimal m (-(k : Int))) (log h.value) (h.deviation / h.value)) (log h.value) = true) :
    eq ((Cell.hyper h).value (.quantile m k) internal) ((Cell.hyper h).value property internal) = true := by
  have hlocation : (Cell.hyper h).value property internal = if internal then log h.value else h.value := by
    obtain rfl | rfl | rfl := hproperty <;> rfl
  rw [hlocation, Cell.value_hyper]
  cases internal with
  | true => exact hq
  | false => exact OrderedScalar.eq_trans (exp_congr hq) (NormalLaws.exp_log hc.1 hc.2.1)

theorem Cell.quantile_half (hc : c.Finite) (hhalf : eq (ofDecimal m (-(k : Int)) : F) half = true)
    {property : Property} (hproperty : IsLocation property) :
    eq (c.value (.quantile m k) internal) (c.value property internal) = true := by
  cases c with
  | latent mean deviation =>
    have hlocation : (Cell.latent mean deviation).value property internal = mean := by
      obtain rfl | rfl | rfl := hproperty <;> rfl
    rw [hlocation]
    exact quantileOf_half hhalf hc.1 hc.2
  | hyper h => exact Cell.hyper_location hc hproperty (quantileOf_half hhalf hc.2.2.1 hc.2.2.2)

/-- An entry without deviation, on either scale, has its location for every quantile. -/
theorem Cell.quantile_point (hc : c.Finite) (hsd : eq (c.value .sd scale) zero = true)
    {property : Property} (hproperty : IsLocation property) :
    eq (c.value (.quantile m k) internal) (c.value property internal) = true := by
  cases c with
  | latent mean deviation =>
    have hlocation : (Cell.latent mean deviation).value property internal = mean := by
      obtain rfl | rfl | rfl := hproperty <;> rfl
    have hpoint : lt zero deviation = false := OrderedScalar.not_lt_of_eq (OrderedScalar.eq_symm hsd)
    rw [hlocation, Cell.value_latent, quantileOf_location hpoint]
    exact OrderedScalar.eq_refl hc.1
  | hyper h =>
    have hpoint : lt zero (h.deviation / h.value) = false := by
      cases scale with
      | true => exact OrderedScalar.not_lt_of_eq (OrderedScalar.eq_symm hsd)
      | false => exact OrderedScalar.div_not_pos hsd hc.1
    refine Cell.hyper_location hc hproperty ?_
    rw [quantileOf_location hpoint]
    exact OrderedScalar.eq_refl hc.2.2.1

end Entries

/-- Two properties with the same names and numbers of entries, and entries that stand in the relation. -/
def Entrywise (r : F → F → Prop) (out out' : Named (List F)) : Prop :=
  List.Forall₂ (fun e e' => e.1 = e'.1 ∧ List.Forall₂ r e.2 e'.2) out out'

/-- An entry of a property. -/
def cellAt? {α : Type} (out : Named (List α)) (i j : Nat) : Option α := (out[i]?).bind fun e => e.2[j]?

theorem cellAt_valuesAt (property : Property) (internal : Bool) (cells : Named (List (Cell F))) (i j : Nat) :
    cellAt? (valuesAt property internal cells) i j =
      (cellAt? cells i j).map (Cell.value property internal) := by
  simp only [cellAt?, valuesAt, List.getElem?_map]
  cases cells[i]? <;> simp

theorem entrywise_valuesAt {r : F → F → Prop} {property property' : Property} {internal internal' : Bool}
    {cells : Named (List (Cell F))}
    (h : ∀ e ∈ cells, ∀ c ∈ e.2, r (c.value property internal) (c.value property' internal')) :
    Entrywise r (valuesAt property internal cells) (valuesAt property' internal' cells) := by
  unfold Entrywise valuesAt
  simp only [List.forall₂_map_left_iff, List.forall₂_map_right_iff, List.forall₂_same, true_and]
  exact h

theorem valuesAt_append (property : Property) (internal : Bool) (cells cells' : Named (List (Cell F))) :
    valuesAt property internal (cells ++ cells') =
      valuesAt property internal cells ++ valuesAt property internal cells' := List.map_append

theorem valuesAt_latent (m k : Nat) (mean : Named (List F)) (deviations : List F) :
    valuesAt (.quantile m k) false (latentCells mean deviations) =
      valuesAt (.quantile m k) true (latentCells mean deviations) := by
  simp only [valuesAt, latentCells, List.map_map, List.map_zipWith, Cell.value_latent, Function.comp_def]

/-- The quantiles of the hyperparameters are the exponentials of those on the log scale. -/
theorem valuesAt_hyper (m k : Nat) (hs : List (Hyperparameter F)) :
    valuesAt (.quantile m k) false (hyperCells hs) =
      (valuesAt (.quantile m k) true (hyperCells hs)).map fun e => (e.1, e.2.map exp) := by
  simp [valuesAt, hyperCells, Cell.value_hyper]

theorem mem_of_cellAt {α : Type} {out : Named (List α)} {i j : Nat} {a : α} (h : cellAt? out i j = some a) :
    ∃ e ∈ out, a ∈ e.2 := by
  obtain ⟨e, he, ha⟩ := Option.bind_eq_some_iff.1 h
  exact ⟨e, List.mem_of_getElem? he, List.mem_of_getElem? ha⟩

theorem names_hyperCells {hyperparameters : Named (Value F)} {hs : List (Hyperparameter F)}
    (h : List.Forall₂ (fun e h => hyperparameter? e.1 e.2 = .ok h) hyperparameters hs) :
    Named.names (hyperCells hs) = Named.names hyperparameters := by
  rw [Named.names, hyperCells, List.map_map]
  exact map_eq_of_forall₂ (h.imp fun e h hh => (hyperparameter_cases hh).1)

theorem names_cells {mean : Named (List F)} {shape : List Nat} {covariance : List F}
    {hyperparameters : Named (Value F)} {g : Gaussian F}
    (hg : ofCovariance? mean shape covariance hyperparameters = .ok g) :
    Named.names (latentCells g.mean g.deviations) = Named.names mean ∧
      Named.names (hyperCells g.hyperparameters) = Named.names hyperparameters := by
  obtain ⟨-, hs, hhs, rfl⟩ := ofCovariance_eq_ok.1 hg
  exact ⟨names_latentCells _ _, names_hyperCells hhs⟩

def locationNames : List String := ["mode", "mean", "median"]

theorem location_of_name {s : String} (h : s ∈ locationNames) :
    ∃ property, Property.ofValue? (.str s : Value F) = .ok property ∧ IsLocation property := by
  fin_cases h
  · exact ⟨_, rfl, .inl rfl⟩
  · exact ⟨_, rfl, .inr (.inl rfl)⟩
  · exact ⟨_, rfl, .inr (.inr rfl)⟩

/-- The quantiles of a finite posterior grow with the probability, on both scales. That of one half is
the location; those of a hyperparameter are the exponentials of those on the log scale; an entry without
deviation has its location for every quantile. -/
theorem quantiles_ordered [UnitDecimals F] [OrderedScalar F] [NormalLaws F] {mean : Named (List F)}
    {shape : List Nat} {covariance : List F} {hyperparameters : Named (Value F)} {g : Gaussian F}
    (hg : ofCovariance? mean shape covariance hyperparameters = .ok g)
    (hnodup : (Named.names mean ++ Named.names hyperparameters).Nodup) (hfinite : g.Finite) :
    (∀ internal s s' (p p' : F), NamesQuantile s p → NamesQuantile s' p' → le p p' = true →
      ∃ out out', g.property? (.str s) internal = .ok out ∧ g.property? (.str s') internal = .ok out' ∧
        Entrywise (le · · = true) out out') ∧
    (∀ internal s (p : F), NamesQuantile s p → eq p half = true → ∀ location ∈ locationNames,
      ∃ out out', g.property? (.str s) internal = .ok out ∧
        g.property? (.str location) internal = .ok out' ∧ Entrywise (eq · · = true) out out') ∧
    (∃ p : F, NamesQuantile "0.5quant" p ∧ eq p half = true) ∧
    (∀ s (p : F), NamesQuantile s p → ∃ latent hyper, Named.names latent = Named.names mean ∧
      Named.names hyper = Named.names hyperparameters ∧
      g.property? (.str s) true = .ok (latent ++ hyper) ∧
      g.property? (.str s) false = .ok (latent ++ hyper.map fun e => (e.1, e.2.map exp))) ∧
    ∀ internal scale s (p : F), NamesQuantile s p → ∃ out sds means,
      g.property? (.str s) internal = .ok out ∧ g.property? (.str "sd") scale = .ok sds ∧
      g.property? (.str "mean") internal = .ok means ∧
      ∀ i j sd, cellAt? sds i j = some sd → eq sd zero = true →
        ∃ x m, cellAt? out i j = some x ∧ cellAt? means i j = some m ∧ eq x m = true := by
  have hcells := cells_finite hg hfinite
  obtain ⟨hlatent, hhyper⟩ := names_cells hg
  have hnames : (Named.names g.cells).Nodup := by
    rw [cells, Named.names, List.map_append, ← Named.names, ← Named.names, hlatent, hhyper]
    exact hnodup
  have hread {s : String} {property : Property} (internal : Bool)
      (hs : Property.ofValue? (.str s : Value F) = .ok property) (hproperty : property ≠ .sample) :
      g.property? (.str s) internal = .ok (valuesAt property internal g.cells) :=
    property_eq internal hs hproperty hnames
  have hquantile (m k : Nat) : Property.quantile m k ≠ .sample := by simp
  refine ⟨?order, ?middle, ?named, ?scales, ?points⟩
  case order =>
    rintro internal s s' p p' hs hs' hle
    have hzero := hs.bounds.1
    have hone := hs'.bounds.2
    obtain ⟨m, k, hs, rfl⟩ := hs
    obtain ⟨m', k', hs', rfl⟩ := hs'
    exact ⟨_, _, hread internal hs (hquantile m k), hread internal hs' (hquantile m' k'),
      entrywise_valuesAt fun e he c hc => Cell.quantile_le (hcells e he c hc) hzero hle hone⟩
  case middle =>
    rintro internal s p ⟨m, k, hs, rfl⟩ hhalf location hmem
    obtain ⟨property, hname, hproperty⟩ := location_of_name (F := F) hmem
    exact ⟨_, _, hread internal hs (hquantile m k), hread internal hname hproperty.ne_sample,
      entrywise_valuesAt fun e he c hc => Cell.quantile_half (hcells e he c hc) hhalf hproperty⟩
  case named =>
    have hwritten : Property.Written "0.5quant" ['0', '.', '5'] := .inl (by decide +kernel)
    exact ⟨_, namesQuantile_tenths hwritten rfl, OrderedScalar.half_eq⟩
  case scales =>
    rintro s p ⟨m, k, hs, rfl⟩
    refine ⟨valuesAt (.quantile m k) true (latentCells g.mean g.deviations),
      valuesAt (.quantile m k) true (hyperCells g.hyperparameters), by rw [names_valuesAt, hlatent],
      by rw [names_valuesAt, hhyper], ?_, ?_⟩
    · rw [hread true hs (hquantile m k), cells, valuesAt_append]
    · rw [hread false hs (hquantile m k), cells, valuesAt_append, valuesAt_latent m k g.mean g.deviations,
        valuesAt_hyper]
  case points =>
    rintro internal scale s p ⟨m, k, hs, rfl⟩
    refine ⟨_, _, _, hread internal hs (hquantile m k), hread scale rfl (by simp),
      hread internal rfl (by simp), ?_⟩
    intro i j sd hsd hzero
    rw [cellAt_valuesAt] at hsd
    obtain ⟨c, hc, rfl⟩ := Option.map_eq_some_iff.1 hsd
    obtain ⟨e, he, hmem⟩ := mem_of_cellAt hc
    rw [cellAt_valuesAt, cellAt_valuesAt, hc]
    exact ⟨_, _, rfl, rfl, Cell.quantile_point (hcells e he c hmem) hzero (.inr (.inl rfl))⟩

/-- Two latent variables, the second without deviation, and a hyperparameter. -/
noncomputable def pointPosterior : Gaussian EReal where
  mean := [("u", [ofInt 1, ofInt 2])]
  covariance := [[ofInt 4, zero], [zero, zero]]
  hyperparameters := [⟨"precision", ofInt 4, ofInt 1⟩]

theorem hyperparameter_precision : hyperparameter? "precision" (.tuple [.int 4, .int 1]) =
    .ok (⟨"precision", ofInt 4, ofInt 1⟩ : Hyperparameter EReal) := by
  have hreal (n : Int) : Value.toReal? (.int n) = .ok (ofInt n : EReal) := by
    change (if isFinite (ofInt n : EReal) then Except.ok (ofInt n : EReal) else .error .overflow) = _
    rw [ExtendedReals.finite_ofInt, if_pos rfl]
  have hopen : hyperparameter? "precision" (.tuple [.int 4, .int 1]) = (do
      return ⟨"precision", ← lift (Value.toReal? (.int 4)), ← lift (Value.toReal? (.int 1))⟩ :
        Except Error (Hyperparameter EReal)) := rfl
  rw [hopen, hreal, hreal]
  rfl

theorem pointPosterior_built : ofCovariance? pointPosterior.mean [2, 2] [ofInt 4, zero, zero, zero]
    [("precision", .tuple [.int 4, .int 1])] = .ok pointPosterior :=
  ofCovariance_eq_ok.2 ⟨rfl, _, .cons hyperparameter_precision .nil, rfl⟩

theorem deviations_pointPosterior : pointPosterior.deviations = [sqrt (ofInt 4), sqrt zero] := by
  have hopen : pointPosterior.deviations =
      [sqrt (if lt (ofInt 4 : EReal) zero then zero else ofInt 4),
        sqrt (if lt (zero : EReal) zero then zero else zero)] := rfl
  rw [hopen, ite_self, OrderedScalar.not_lt_of_le
    (OrderedScalar.lt_iff.1 (OrderedScalar.pos_ofInt (F := EReal) (n := 4) (by decide))).1,
    if_neg Bool.false_ne_true]

theorem pointPosterior_finite : pointPosterior.Finite where
  means m hm := by
    have hm : m = ofInt 1 ∨ m = ofInt 2 := by simpa [pointPosterior, Named.joined] using hm
    obtain rfl | rfl := hm <;> exact ExtendedReals.finite_ofInt _
  deviations s hs := by
    rw [deviations_pointPosterior] at hs
    have hs : s = sqrt (ofInt 4) ∨ s = sqrt zero := by simpa using hs
    obtain rfl | rfl := hs <;> exact ExtendedReals.finite_sqrt (ExtendedReals.finite_ofInt _)
  hyperparameters h hh := by
    obtain rfl := List.mem_singleton.1 hh
    have hvalue := ExtendedReals.finite_ofInt 4
    exact ⟨hvalue, ExtendedReals.finite_log hvalue (OrderedScalar.pos_ofInt (by decide)),
      ExtendedReals.finite_div (ExtendedReals.finite_ofInt 1) hvalue⟩

/-- The quantiles of a tenth are below those of nine tenths; the variable without deviation has its mean
for both. -/
theorem pointPosterior_ordered : ∃ low high means,
    pointPosterior.property? (.str "0.1quant") false = .ok low ∧
    pointPosterior.property? (.str "0.9quant") false = .ok high ∧ Entrywise (le · · = true) low high ∧
    pointPosterior.property? (.str "mean") false = .ok means ∧ cellAt? low 0 1 = cellAt? means 0 1 := by
  have hnodup : (Named.names pointPosterior.mean ++
      Named.names [("precision", (.tuple [.int 4, .int 1] : Value EReal))]).Nodup := by decide
  have htenth : NamesQuantile "0.1quant" (ofDecimal 1 (-1) : EReal) :=
    namesQuantile_tenths (d := '1') (.inl (by decide +kernel)) rfl
  have hninetenths : NamesQuantile "0.9quant" (ofDecimal 9 (-1) : EReal) :=
    namesQuantile_tenths (d := '9') (.inl (by decide +kernel)) rfl
  have hle : le (ofDecimal 1 (-1) : EReal) (ofDecimal 9 (-1)) = true := by
    rw [ExtendedReals.le_iff]
    simp only [ofDecimal]
    norm_cast
    norm_num
  obtain ⟨horder, -, -, -, hpoints⟩ := quantiles_ordered pointPosterior_built hnodup pointPosterior_finite
  obtain ⟨low, high, hlow, hhigh, hentries⟩ := horder false _ _ _ _ htenth hninetenths hle
  obtain ⟨out, sds, means, hout, hsds, hmeans, hentry⟩ := hpoints false false _ _ htenth
  obtain rfl := Except.ok.inj (hlow.symm.trans hout)
  have hsd : cellAt? sds 0 1 = some (sqrt zero) := by
    rw [property_sd, deviations_pointPosterior] at hsds
    obtain rfl := Except.ok.inj hsds
    rfl
  have hzero : eq (sqrt (zero : EReal)) zero = true := by
    rw [ExtendedReals.eq_iff, ExtendedReals.zero_eq]
    simp [sqrt]
  obtain ⟨x, m, hx, hm, heq⟩ := hentry 0 1 _ hsd hzero
  refine ⟨low, high, means, hlow, hhigh, hentries, hmeans, ?_⟩
  rw [hx, hm, ExtendedReals.eq_iff.1 heq]

/-- A posterior with a deviation whose square is beyond the greatest finite number. -/
def overflowing : Gaussian Float where
  mean := [("u", [1])]
  covariance := [[ofDecimal 1 200 * ofDecimal 1 200]]
  hyperparameters := []

/-- The variance is infinite, and one half has no quantile, although the mean is one. -/
theorem variance_overflows : ∃ quantiles means,
    ofDeviations? [("u", .list [.float (1 : Float)])] [("u", .list [.float (ofDecimal 1 200)])] [] =
      .ok overflowing ∧
    overflowing.property? (.str "0.5quant") false = .ok quantiles ∧
    overflowing.property? (.str "mean") false = .ok means ∧
    (cellAt? quantiles 0 0).map isNaN = some true ∧ cellAt? means 0 0 = some 1 := by
  have hnodup : (Named.names overflowing.cells).Nodup := List.nodup_singleton _
  have hwritten : Property.Written "0.5quant" ['0', '.', '5'] := .inl (by decide +kernel)
  have hquantile : Property.ofValue? (.str "0.5quant" : Value Float) = .ok (.quantile 5 1) :=
    Property.ofValue_eq_ok.2 (hwritten.read (List.cons_ne_nil _ _) (List.forall_mem_singleton.2 rfl))
  refine ⟨_, _, rfl, property_eq false hquantile (by simp) hnodup,
    property_eq false rfl (by simp) hnodup, ?_, rfl⟩
  decide +kernel

end Gaussian

end AdditiveModel
