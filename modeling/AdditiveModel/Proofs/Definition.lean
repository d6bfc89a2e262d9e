import AdditiveModel.Proofs.Completion
import AdditiveModel.Proofs.Counts
import AdditiveModel.Proofs.Named

/-! Components whose counts are given and components whose counts are inferred. A component with all of
its counts gets its mapper when it is defined, before there is data. That is the mapper it would have
been completed with, unless the main mapper depends on the values of the main input. -/

namespace AdditiveModel

variable {F : Type} [Scalar F]

namespace Mapper

/-- The number of columns; a single value and a vector are one column. -/
def widthOf (g : Grid F) : Nat :=
  match g.shape with
  | _ :: width :: _ => width
  | _ => 1

/-- The mapper of a named model depends on the main values: on the number of their columns, where a
linear mapper is not told its number of coefficients, or on their levels. Without values a linear
mapper has one coefficient and takes no other options. -/
def DependsOn (model : String) (options : Named (Value F)) (main : Grid F) : Prop :=
  (model = "linear" ∨ model = "intercept") ∧ Named.value? options "n" = none ∧
      (options ≠ [] ∨ widthOf main ≠ 1) ∨
    model = "iid" ∧ option options "levels" .null = .null

omit [Scalar F] in
theorem onlyOptions_eq_ok {options : Named (Value F)} {names : List String} {u : Unit} :
    onlyOptions options names = .ok u ↔ ∀ e ∈ options, e.1 ∈ names := by
  unfold onlyOptions
  split
  · rename_i h
    simpa using h
  · rename_i h
    simpa using h

/-- Without a number of coefficients there is one without values, and one for each column with them. -/
theorem ofCovariates_null {options : Named (Value F)} {g : Grid F} {m : Mapper F}
    (h : ofCovariates? (Value.ofGrid g) options = .ok m) :
    ofCovariates? .null options = .ok m ↔
      ¬ (Named.value? options "n" = none ∧ (options ≠ [] ∨ widthOf g ≠ 1)) := by
  cases hn : Named.value? options "n" with
  | some n =>
    have hsame : ofCovariates? (Value.ofGrid g) options = ofCovariates? .null options := by
      simp only [ofCovariates?, hn, Value.ofGrid]
    rw [← hsame]
    exact iff_of_true h (by simp)
  | none =>
    have hwidth : ofCovariates? (Value.ofGrid g) options = .ok (linear (widthOf g)) := by
      obtain ⟨kind, shape, cells⟩ := g
      rcases shape with _ | ⟨_, _ | ⟨_, _⟩⟩ <;> simp only [ofCovariates?, Value.ofGrid, hn] <;> rfl
    obtain rfl := Except.ok.inj (hwidth.symm.trans h)
    have hnone : ∀ e ∈ options, e.1 ≠ "n" := by
      rintro e he hname
      have hsome := Named.isSome_value.2 (List.mem_map.2 ⟨e, he, hname⟩)
      rw [hn] at hsome
      cases hsome
    have hone : option options "n" (.int 1) = .int 1 := by rw [option, hn]; rfl
    simp only [ofCovariates?, bind_eq_ok, onlyOptions_eq_ok, lift_eq_ok, pure_eq_ok, hone,
      List.mem_singleton, exists_const, true_and, not_or, not_not]
    constructor
    · rintro ⟨honly, n, hn, hm⟩
      cases hn
      refine ⟨List.eq_nil_iff_forall_not_mem.2 fun e he => hnone e he (honly e he), ?_⟩
      injection hm with hm
      omega
    · rintro ⟨rfl, hcolumn⟩
      exact ⟨by simp, 1, rfl, by rw [hcolumn]; rfl⟩

theorem ofLevels_null {options : Named (Value F)} {g : Grid F} {m : Mapper F}
    (h : ofLevels? (Value.ofGrid g) options = .ok m) :
    ofLevels? .null options = .ok m ↔ option options "levels" .null ≠ .null := by
  by_cases hnull : option options "levels" .null = .null
  · refine iff_of_false (fun hm => ?_) (not_not.2 hnull)
    obtain ⟨-, -, hm⟩ := bind_eq_ok.1 hm
    rw [hnull] at hm
    cases hm
  · refine iff_of_true ?_ hnull
    have hsame : ofLevels? (Value.ofGrid g) options = ofLevels? .null options := by
      unfold ofLevels?
      cases hlevels : option options "levels" .null with
      | null => exact absurd hlevels hnull
      | _ => rfl
    rw [← hsame, h]

/-- The mapper that a model has for main values is the one it has without them, unless it depends on
them. -/
theorem ofModel_null {model : String} {options : Named (Value F)} {g : Grid F} {m : Mapper F}
    (h : ofModel? (.str model) (Value.ofGrid g) options = .ok m) :
    ofModel? (.str model) .null options = .ok m ↔ ¬ DependsOn model options g := by
  have hmodel := h
  unfold ofModel? at hmodel
  replace hmodel := (check_eq_ok.1 hmodel).2
  split at hmodel
  · rename_i heq
    cases heq
    exact (ofCovariates_null h).trans (by simp [DependsOn])
  · rename_i heq
    cases heq
    exact (ofCovariates_null h).trans (by simp [DependsOn])
  · rename_i heq
    cases heq
    exact iff_of_true h (by simp [DependsOn])
  · rename_i heq
    cases heq
    exact (ofLevels_null h).trans (by simp [DependsOn])
  · rename_i heq
    cases heq
    exact iff_of_true h (by simp [DependsOn])
  · cases hmodel

end Mapper

namespace Component

def Definition.unbuilt (d : Definition F) (label : String) (role : Role)
    (groups replicates : Option Int) : Component F :=
  { label, main := d.main, group := d.group, replicate := d.replicate, weights := d.weights,
    model := d.model.plainText, role, mapper := none, groups, replicates, options := d.options }

/-- A definition without a mapper of its own gives a component that waits for data, or one with the
mapper of the model. -/
theorem define_eq_ok {label : String} {d : Definition F} {c : Component F} (hmapper : d.mapper = none) :
    define? label d = .ok c ↔ ∃ role groups replicates, roleOf? d.role d.model = .ok role ∧
      count? d.groups = .ok groups ∧ count? d.replicates = .ok replicates ∧
      ((d.unbuilt label role groups replicates).needsData = true ∧
          c = d.unbuilt label role groups replicates ∨
        (d.unbuilt label role groups replicates).needsData = false ∧
          ∃ m, Mapper.ofModel? d.model .null d.options = .ok m ∧
            c = (d.unbuilt label role groups replicates).withMapper m) := by
  have hlast (c₀ : Component F) :
      (if c₀.needsData = true then pure c₀
        else Mapper.ofModel? d.model .null d.options >>= fun m => pure (c₀.withMapper m)) =
          (.ok c : Except Error (Component F)) ↔
        c₀.needsData = true ∧ c = c₀ ∨ c₀.needsData = false ∧
          ∃ m, Mapper.ofModel? d.model .null d.options = .ok m ∧ c = c₀.withMapper m := by
    cases c₀.needsData
    · simp only [Bool.false_eq_true, if_false, bind_eq_ok, pure_eq_ok, false_and, false_or, true_and,
        @eq_comm _ c]
    · simp only [if_true, pure_eq_ok, true_and, Bool.true_eq_false, false_and, or_false, @eq_comm _ c]
  simp only [define?, hmapper, bind_eq_ok, lift_eq_ok]
  constructor
  · rintro ⟨role, hrole, groups, hgroups, replicates, hreplicates, h⟩
    exact ⟨role, groups, replicates, hrole, hgroups, hreplicates, (hlast _).1 h⟩
  · rintro ⟨role, groups, replicates, hrole, hgroups, hreplicates, h⟩
    exact ⟨role, hrole, groups, hgroups, replicates, hreplicates, (hlast _).2 h⟩

omit [Scalar F] in
theorem isNull_iff {v : Value F} : isNull v = true ↔ v = .null := by
  cases v <;> simp [isNull]

/-- What is missing without data: levels that are not given, and counts of indices. -/
def Definition.Waits (d : Definition F) (model : String) (groups replicates : Option Int) : Prop :=
  model = "iid" ∧ Named.value? d.options "levels" = none ∨ d.group ≠ .null ∧ groups = none ∨
    d.replicate ≠ .null ∧ replicates = none

theorem needsData_unbuilt {d : Definition F} {label model : String} {role : Role}
    {groups replicates : Option Int} (hmodel : d.model = .str model) :
    (d.unbuilt label role groups replicates).needsData = true ↔ d.Waits model groups replicates := by
  have hname : d.model.plainText = model := by rw [hmodel]; rfl
  simp [needsData, Definition.unbuilt, Definition.Waits, hname, ← isNull_iff, or_assoc]

theorem Reads.null {data v : Value F} {size : Nat} (h : Reads data size .null v) : v = .null := by
  obtain ⟨w, hw, hv⟩ := h
  cases hw
  cases hv
  rfl

theorem inferCount_null {c : Component F} {data : List (Value F)} {inputs : List (Mapper.Input F)}
    (hinputs : data.mapM c.input? = .ok inputs) (which : BlockIndex)
    (hspec : which.pick c.group c.replicate = .null) {n : Int}
    (hn : inferCount? none (inputs.map fun i => which.pick i.group i.replicate) = .ok n) : n = 1 := by
  obtain ⟨ns, hns, hn⟩ := bind_eq_ok.1 hn
  have hones : ∀ k ∈ ns, k = 1 := by
    intro k hk
    obtain ⟨v, hv, hvk⟩ := forall₂_mem (mapM_eq_ok.1 hns) hk
    obtain ⟨i, hi, rfl⟩ := List.mem_map.1 hv
    obtain ⟨x, -, hx⟩ := forall₂_mem (mapM_eq_ok.1 hinputs) hi
    obtain ⟨size, -, -, hgroup, hreplicate, -⟩ := input_eq_ok.1 hx
    have hnull : which.pick i.group i.replicate = .null := by
      cases which with
      | group =>
        have hspec : c.group = .null := hspec
        rw [hspec] at hgroup
        exact hgroup.null
      | replicate =>
        have hspec : c.replicate = .null := hspec
        rw [hspec] at hreplicate
        exact hreplicate.null
    rw [hnull] at hvk
    exact (Except.ok.inj hvk).symm
  cases ns with
  | nil => cases hn
  | cons k ns =>
    cases hn
    exact hones _ (isGreatest_foldl k ns).1

omit [Scalar F] in
theorem countOr_null {k : Option Int} {n : Int} (hk : k = none ∨ k = some n) (hn : k = none → n = 1) :
    countOr k = countOr (some n) := by
  rcases hk with rfl | rfl
  · rw [hn rfl]
    rfl
  · rfl

theorem inferCount_given {k : Option Int} {n : Int} {values : List (Value F)} (hk : k = none ∨ k = some n)
    (hn : inferCount? none values = .ok n) : inferCount? k values = .ok n := by
  rcases hk with rfl | rfl
  · exact hn
  · rfl

/-- A definition and its completion, together: the mapper is built with the data, or without. -/
theorem define_then_complete {label : String} {d : Definition F} {data : List (Value F)} {role : Role}
    {groups replicates : Option Int} {mapper : Option (Mapper F)} (hmapper : d.mapper = none)
    (hrole : roleOf? d.role d.model = .ok role) (hgroups : count? d.groups = .ok groups)
    (hreplicates : count? d.replicates = .ok replicates) :
    (∃ c c', define? label d = .ok c ∧ c.complete? data = .ok c' ∧ c'.mapper = mapper) ↔
      (d.unbuilt label role groups replicates).needsData = true ∧
          (∃ c', (d.unbuilt label role groups replicates).complete? data = .ok c' ∧ c'.mapper = mapper) ∨
        (d.unbuilt label role groups replicates).needsData = false ∧
          ∃ m, Mapper.ofModel? d.model .null d.options = .ok m ∧
            some (m.forComponent (countOr groups) (countOr replicates)) = mapper := by
  simp only [define_eq_ok hmapper, hrole, hgroups, hreplicates, Except.ok.injEq, exists_and_left,
    exists_eq_left', ↓existsAndEq, true_and]
  constructor
  · rintro ⟨c, ⟨hneeds, rfl⟩ | ⟨hneeds, m, hm, rfl⟩, c', hc', hmapper⟩
    · exact Or.inl ⟨hneeds, c', hc', hmapper⟩
    · obtain rfl := Except.ok.inj ((complete_of_mapper rfl data).symm.trans hc')
      exact Or.inr ⟨hneeds, m, hm, hmapper⟩
  · rintro (⟨hneeds, c', hc', hmapper⟩ | ⟨hneeds, m, hm, hmapper⟩)
    · exact ⟨_, Or.inl ⟨hneeds, rfl⟩, c', hc', hmapper⟩
    · exact ⟨_, Or.inr ⟨hneeds, m, hm, rfl⟩, _, complete_of_mapper rfl data, hmapper⟩

/-- A component that is defined with the counts that would be inferred has the mapper that it would be
completed with, exactly when it still waits for data or its mapper does not depend on the main values.
-/
theorem given_counts {label model : String} {d : Definition F} {c c₁ : Component F}
    {data : List (Value F)} (hmodel : d.model = .str model) (hmapper : d.mapper = none)
    (hgroups : d.groups = .null) (hreplicates : d.replicates = .null)
    (hspec : d.group ≠ .null ∨ d.replicate ≠ .null) (hdefine : define? label d = .ok c)
    (hcomplete : c.complete? data = .ok c₁) :
    ∃ inputs main groups replicates m, data.mapM c.input? = .ok inputs ∧
      Joining.concat? (inputs.map (·.main)) = .ok main ∧
      inferCount? none (inputs.map (·.group)) = .ok groups ∧
      inferCount? none (inputs.map (·.replicate)) = .ok replicates ∧
      c₁.mapper = some (.component m (countOr (some groups)) (countOr (some replicates))) ∧
      ∀ g r k k', count? g = .ok k → count? r = .ok k' → k = none ∨ k = some groups →
        k' = none ∨ k' = some replicates →
        ((∃ c₂ c₃, define? label { d with groups := g, replicates := r } = .ok c₂ ∧
            c₂.complete? data = .ok c₃ ∧ c₃.mapper = c₁.mapper) ↔
          d.Waits model k k' ∨ ¬ Mapper.DependsOn model d.options main) := by
  obtain ⟨role, n, n', hrole, hn, hn', hbuilt⟩ := (define_eq_ok hmapper).1 hdefine
  rw [hgroups] at hn
  rw [hreplicates] at hn'
  cases hn
  cases hn'
  have hwaits : (d.unbuilt label role none none).needsData = true :=
    (needsData_unbuilt hmodel).2 (Or.inr (by simpa using hspec))
  rw [hwaits] at hbuilt
  obtain rfl : c = d.unbuilt label role none none := by simpa using hbuilt
  have hname : d.model.plainText = model := by rw [hmodel]; rfl
  obtain ⟨inputs, main, groups, replicates, m, hinputs, hne, hmain, hg, hr, hm, rfl⟩ :=
    (complete_eq_ok rfl).1 hcomplete
  have hcomponent {m : Mapper F} {values : Value F}
      (hm : Mapper.ofModel? (.str model) values d.options = .ok m) (a b : Int) :
      m.forComponent a b = .component m a b :=
    (Mapper.main_ofModel hm).forComponent a b
  replace hm : Mapper.ofModel? (.str model) (Value.ofGrid main) d.options = .ok m := hname ▸ hm
  refine ⟨inputs, main, groups, replicates, m, hinputs, hmain, hg, hr,
    congrArg some (hcomponent hm _ _), fun g r k k' hk hk' hgiven hgiven' => ?_⟩
  rw [define_then_complete (d := { d with groups := g, replicates := r }) hmapper hrole hk hk']
  change (d.unbuilt label role k k').needsData = true ∧ _ ∨ (d.unbuilt label role k k').needsData = false ∧ _ ↔ _
  have hneeds : (d.unbuilt label role k k').needsData = true ↔ d.Waits model k k' :=
    needsData_unbuilt hmodel
  by_cases hw : d.Waits model k k'
  · refine iff_of_true (Or.inl ⟨hneeds.2 hw, _, (complete_eq_ok rfl).2 ⟨inputs, main, groups, replicates,
      m, hinputs, hne, hmain, inferCount_given hgiven hg, inferCount_given hgiven' hr, ?_, rfl⟩, rfl⟩)
      (Or.inl hw)
    rw [← hname] at hm
    exact hm
  · -- the counts that are left out belong to no index
    have hgroup : countOr k = countOr (some groups) := countOr_null hgiven fun hk =>
      inferCount_null hinputs .group (not_not.1 fun hne => hw (Or.inr (Or.inl ⟨hne, hk⟩))) hg
    have hreplicate : countOr k' = countOr (some replicates) := countOr_null hgiven' fun hk =>
      inferCount_null hinputs .replicate (not_not.1 fun hne => hw (Or.inr (Or.inr ⟨hne, hk⟩))) hr
    have hno : (d.unbuilt label role k k').needsData = false := Bool.eq_false_iff.2 (mt hneeds.1 hw)
    simp only [hw, hno, Bool.false_eq_true, false_and, false_or, true_and, hmodel, hgroup, hreplicate]
    rw [← Mapper.ofModel_null hm]
    constructor
    · rintro ⟨m', hm', heq⟩
      rw [hcomponent hm'] at heq
      have hsame := (Option.some.inj heq).trans (hcomponent hm _ _)
      rw [Mapper.component.injEq] at hsame
      exact hsame.1 ▸ hm'
    · intro hnull
      exact ⟨m, hnull, rfl⟩

def slopeDefinition : Definition ℚ := { main := field "x", group := field "g" }

theorem slopes_given : ∃ c₁ c₂ c₃,
    define? "b" slopeDefinition = .ok slopes ∧
    slopes.complete? [(inGroups [1, 2] [1, 3]).data, (inGroups [5] [2]).data] = .ok c₁ ∧
    define? "b" { slopeDefinition with groups := .int 3, replicates := .int 1 } = .ok c₂ ∧
    c₂.complete? [(inGroups [1, 2] [1, 3]).data, (inGroups [5] [2]).data] = .ok c₃ ∧
    c₃.mapper = c₁.mapper := by
  have hdefine : define? "b" slopeDefinition = .ok slopes := rfl
  obtain ⟨c₁, hcomplete⟩ : ∃ c₁,
      slopes.complete? [(inGroups [1, 2] [1, 3]).data, (inGroups [5] [2]).data] = .ok c₁ := ⟨_, rfl⟩
  obtain ⟨inputs, main, groups, replicates, m, hinputs, hmain, hgroups, hreplicates, -, hsame⟩ :=
    given_counts (show slopeDefinition.model = .str "linear" from rfl) rfl rfl rfl
      (Or.inl fun h => by cases h) hdefine hcomplete
  cases hinputs
  obtain rfl : 3 = groups := Except.ok.inj hgroups
  obtain rfl : 1 = replicates := Except.ok.inj hreplicates
  have hfree : ¬ Mapper.DependsOn "linear" slopeDefinition.options main := by
    have hwidth : Mapper.widthOf main = 1 := by
      cases hmain
      rfl
    simp [Mapper.DependsOn, hwidth, slopeDefinition]
  obtain ⟨c₂, c₃, hc₂, hc₃, hmapper⟩ :=
    (hsame (.int 3) (.int 1) _ _ rfl rfl (Or.inr rfl) (Or.inr rfl)).2 (Or.inr hfree)
  exact ⟨c₁, c₂, c₃, hdefine, hcomplete, hc₂, hc₃, hmapper⟩

def twoColumns : Value ℚ :=
  .dict [("x", .array .double [2, 2] [.float 1, .float 10, .float 2, .float 20]),
    ("g", .list [.int 1, .int 2])]

/-- With its counts the component has one coefficient for each group instead of two. -/
theorem columns_given : ∃ c c₁ c₂,
    define? "b" slopeDefinition = .ok c ∧ c.complete? [twoColumns] = .ok c₁ ∧
    c₁.groups = some 2 ∧ c₁.replicates = some 1 ∧
    c₁.mapper = some (.component (.linear 2) 2 1) ∧
    define? "b" { slopeDefinition with groups := .int 2, replicates := .int 1 } = .ok c₂ ∧
    c₂.complete? [twoColumns] = .ok c₂ ∧ c₂.mapper = some (.component (.linear 1) 2 1) :=
  ⟨_, _, _, rfl, rfl, rfl, rfl, rfl, rfl, rfl, rfl⟩

end Component

end AdditiveModel
