import AdditiveModel.Proofs.Inputs
import AdditiveModel.Proofs.Keys
import AdditiveModel.Proofs.Ranges
import Mathlib.Order.Bounds.Basic

/-! Numbers of groups and replicates that are inferred from data. A component that is defined without a
mapper of its own gets the greatest value of all data objects as its count, so none of these values is
out of range when it is evaluated. -/

namespace AdditiveModel

/-- Real numbers that are integers are ordered as these integers. -/
class OrderedIntegers (F : Type) [Scalar F] : Prop where
  isNaN {k : Int} {x : F} : Number.intEq k x = true → Scalar.isNaN x = false
  not_signed {k : Int} {x : F} : Number.intEq k x = true → 0 < k → Scalar.signed x = false
  lt_iff {k l : Int} {x y : F} : Number.intEq k x = true → Number.intEq l y = true → 0 < k → 0 < l →
    (Scalar.lt x y = true ↔ k < l)

theorem Number.intEq_rat {k : Int} {x : ℚ} : Number.intEq k x = true ↔ x = k := by
  simp only [Number.intEq_iff, Scalar.floor?, Scalar.eq, Scalar.ofInt, Option.some.injEq, beq_iff_eq]
  constructor
  · rintro ⟨-, h⟩
    exact h
  · rintro rfl
    exact ⟨Rat.floor_intCast k, rfl⟩

instance : OrderedIntegers ℚ where
  isNaN _ := rfl
  not_signed h hk := by
    rw [Number.intEq_rat] at h
    subst h
    simpa [Scalar.signed] using hk.le
  lt_iff h h' _ _ := by
    rw [Number.intEq_rat] at h h'
    subst h h'
    simp [Scalar.lt]

variable {F : Type} [Scalar F]

namespace Mapper.Block

/-- The element of an array of the given kind is the integer, which the real numbers and the integers
of 64 bits hold exactly. -/
inductive Holds (kind : Kind) : Value F → Int → Prop
  | int {k : Int} : Kind.int64.holds k = true → Number.intEq k (Scalar.ofInt k : F) = true →
    Holds kind (.int k) k
  | float {k : Int} {x : F} : kind ≠ .int64 → Kind.int64.holds k = true → Number.intEq k x = true →
    Holds kind (.float x) k

/-- The integers that the values of a block index are; one when they are left out. -/
inductive Indices : Value F → List Int → Prop
  | null : Indices .null [1]
  | array {kind : Kind} {shape : List Nat} {cells : List (Value F)} {ks : List Int} :
    List.Forall₂ (Holds kind) cells ks → Indices (.array kind shape cells) ks

theorem Holds.real {kind : Kind} {v : Value F} {k : Int} (h : Holds kind v k) :
    ∃ x, Grid.cellToReal? kind v = .ok x ∧ Number.intEq k x = true := by
  cases h with
  | int _ hk =>
    refine ⟨Scalar.ofInt k, ?_, hk⟩
    have hfinite : Scalar.isFinite (Scalar.ofInt k : F) = true := by
      rw [Scalar.isFinite, (Number.intEq_iff.1 hk).1]
      rfl
    have hreal : Grid.cellToReal? kind (.int k : Value F) = Number.ofInt? k := by
      cases kind <;> rfl
    rw [hreal, Number.ofInt?, if_pos hfinite]
  | @float _ x _ _ hk =>
    refine ⟨x, ?_, hk⟩
    cases kind <;> rfl

theorem wrap_of_holds {k : Int} (h : Kind.int64.holds k = true) : Kind.int64.wrap k = k := by
  simp only [Kind.holds, Bool.and_eq_true, decide_eq_true_eq] at h
  have h63 : Nat.pow 2 63 = 9223372036854775808 := rfl
  have h64 : Nat.pow 2 64 = 18446744073709551616 := rfl
  rw [Kind.wrap]
  exact Int.bmod_eq_of_le (by omega) (by omega)

theorem truncate_of_intEq [OrderedIntegers F] {k : Int} {x : F} (h : Number.intEq k x = true)
    (hk : 0 < k) : Scalar.truncate? x = some k := by
  rw [Scalar.truncate?, OrderedIntegers.not_signed h hk]
  exact (Number.intEq_iff.1 h).1

theorem Holds.word [OrderedIntegers F] {kind : Kind} {v : Value F} {k : Int} (h : Holds kind v k)
    (hk : 0 < k) : (kind = .int64 → integerOf v = k) ∧
      ∃ w, Value.cast? .int64 v = .ok w ∧ integerOf w = k := by
  cases h with
  | int hword _ => exact ⟨fun _ => rfl, _, rfl, wrap_of_holds hword⟩
  | float hkind hword h =>
    refine ⟨fun hint => absurd hint hkind, _, rfl, ?_⟩
    simp only [Value.realToWord, truncate_of_intEq h hk, if_pos hword, integerOf]
    exact wrap_of_holds hword

omit [Scalar F] in
theorem mem_spread {α : Type} {size : Nat} {l : List α} {a : α} (h : a ∈ spread size l) : a ∈ l := by
  unfold spread at h
  split at h
  · split at h
    · rw [List.eq_of_mem_replicate h]
      exact List.mem_singleton_self _
    · exact h
  · exact h

theorem words_of_holds [OrderedIntegers F] {kind : Kind} {cells : List (Value F)} {count : Int}
    (h : ∀ v ∈ cells, ∃ k, Holds kind v k ∧ 0 < k ∧ k ≤ count) :
    ∃ words, Value.castAll? kind .int64 cells = .ok words ∧
      ∀ w ∈ words, 0 < integerOf w ∧ integerOf w ≤ count := by
  unfold Value.castAll?
  split
  · rename_i hkind
    refine ⟨cells, rfl, fun v hv => ?_⟩
    obtain ⟨k, hk, hpos, hle⟩ := h v hv
    rw [(hk.word hpos).1 (eq_of_beq hkind)]
    exact ⟨hpos, hle⟩
  · obtain ⟨words, hwords⟩ := exists_mapM (f := Value.cast? .int64) (l := cells) fun v hv => by
      obtain ⟨k, hk, hpos, -⟩ := h v hv
      obtain ⟨w, hw, -⟩ := (hk.word hpos).2
      exact ⟨w, hw⟩
    refine ⟨words, hwords, fun w hw => ?_⟩
    obtain ⟨v, hv, hvw⟩ := forall₂_mem (mapM_eq_ok.1 hwords) hw
    obtain ⟨k, hk, hpos, hle⟩ := h v hv
    obtain ⟨w', hw', hword⟩ := (hk.word hpos).2
    obtain rfl := Except.ok.inj (hvw.symm.trans hw')
    rw [hword]
    exact ⟨hpos, hle⟩

theorem spares_of_indices [OrderedIntegers F] {which : BlockIndex} {v : Value F} {ks : List Int}
    (h : Indices v ks) {count : Int} (hks : ∀ k ∈ ks, 0 < k ∧ k ≤ count) (size : Nat) :
    Spares which (indices? which count size v) := by
  cases h with
  | null => exact .pure _
  | @array kind shape cells _ h =>
    have hcells : ∀ v ∈ spread size cells, ∃ k, Holds kind v k ∧ 0 < k ∧ k ≤ count := by
      intro v hv
      obtain ⟨k, hk, hvk⟩ := forall₂_mem h.flip (mem_spread hv)
      exact ⟨k, hvk, hks k hk⟩
    obtain ⟨words, hwords, hrange⟩ := words_of_holds hcells
    refine (Spares.lift _).bind fun g hg => ?_
    cases lift_eq_ok.1 hg
    refine (Spares.lift _).bind fun cells' hcells => ?_
    rw [lift_eq_ok, hwords] at hcells
    cases hcells
    refine .ite (.error nofun) ?_
    have hany : (words.map integerOf).any (fun k => k < 1 || count < k) = false := by
      rw [List.any_eq_false]
      intro k hk
      obtain ⟨w, hw, rfl⟩ := List.mem_map.1 hk
      have := hrange w hw
      simp
      omega
    rw [hany]
    exact .pure _

end Mapper.Block

namespace Component

open Mapper.Block

theorem greater_intEq [OrderedIntegers F] {k l : Int} {x y : F} (hx : Number.intEq k x = true)
    (hy : Number.intEq l y = true) (hk : 0 < k) (hl : 0 < l) :
    Number.intEq (max k l) (greatestIndex?.greater x y) = true := by
  unfold greatestIndex?.greater
  rw [OrderedIntegers.isNaN hx, OrderedIntegers.isNaN hy]
  have hlt := OrderedIntegers.lt_iff hx hy hk hl
  by_cases h : k < l
  · simpa [hlt.2 h, max_eq_right h.le] using hy
  · simpa [mt hlt.1 h, max_eq_left (not_lt.1 h)] using hx

theorem isGreatest_foldl (k : Int) (ks : List Int) :
    IsGreatest {l | l ∈ k :: ks} (ks.foldl max k) := by
  induction ks generalizing k with
  | nil => simp [IsGreatest, upperBounds]
  | cons l ks ih =>
    obtain ⟨hmem, hle⟩ := ih (max k l)
    have hk : max k l ≤ ks.foldl max (max k l) := hle List.mem_cons_self
    rw [List.foldl_cons]
    constructor
    · rcases List.mem_cons.1 hmem with heq | hmem
      · rw [heq]
        rcases max_choice k l with h | h <;> rw [h] <;> simp
      · exact List.mem_cons_of_mem _ (List.mem_cons_of_mem _ hmem)
    · intro n hn
      rcases List.mem_cons.1 hn with rfl | hn
      · exact (le_max_left _ _).trans hk
      rcases List.mem_cons.1 hn with rfl | hn
      · exact (le_max_right _ _).trans hk
      · exact hle (List.mem_cons_of_mem _ hn)

theorem foldl_greater [OrderedIntegers F] {ks : List Int} {xs : List F}
    (h : List.Forall₂ (fun k x => Number.intEq k x = true) ks xs) (hpos : ∀ k ∈ ks, 0 < k)
    {k : Int} {x : F} (hx : Number.intEq k x = true) (hk : 0 < k) :
    Number.intEq (ks.foldl max k) (xs.foldl greatestIndex?.greater x) = true := by
  induction h generalizing k x with
  | nil => exact hx
  | cons hy _ ih =>
    rw [List.forall_mem_cons] at hpos
    exact ih hpos.2 (greater_intEq hx hy hk hpos.1) (lt_max_of_lt_left hk)

theorem greatestIndex_eq [OrderedIntegers F] {v : Value F} {ks : List Int} (h : Indices v ks)
    (hpos : ∀ k ∈ ks, 0 < k) {n : Int} (hn : greatestIndex? v = .ok n) : IsGreatest {k | k ∈ ks} n := by
  cases h with
  | null =>
    cases hn
    exact isGreatest_foldl 1 []
  | @array kind shape cells _ h =>
    obtain ⟨⟨_, xs⟩, hreals, hn⟩ := bind_eq_ok.1 hn
    obtain ⟨xs, hxs, heq⟩ := map_eq_ok.1 hreals
    cases heq
    have hints : List.Forall₂ (fun k x => Number.intEq k x = true) ks xs := by
      refine (forall₂_trans h.flip (mapM_eq_ok.1 hxs)).imp fun k x hkx => ?_
      obtain ⟨v, hv, hvx⟩ := hkx
      obtain ⟨y, hvy, hy⟩ := hv.real
      obtain rfl := Except.ok.inj (hvx.symm.trans hvy)
      exact hy
    cases hints with
    | nil => cases hn
    | @cons k x ks xs hk hints =>
      rw [List.forall_mem_cons] at hpos
      have hgreatest := isGreatest_foldl k ks
      have hmax : 0 < ks.foldl max k := hpos.1.trans_le (hgreatest.2 List.mem_cons_self)
      have htruncate := truncate_of_intEq (foldl_greater hints hpos.2 hk hpos.1) hmax
      simp only [Value.truncate?, htruncate, Except.ok.injEq] at hn
      exact hn ▸ hgreatest

theorem inferCount_eq [OrderedIntegers F] {values : List (Value F)} {kss : List (List Int)}
    (h : List.Forall₂ Indices values kss) (hpos : ∀ ks ∈ kss, ∀ k ∈ ks, 0 < k) {n : Int}
    (hn : inferCount? none values = .ok n) : IsGreatest {k | k ∈ kss.flatten} n := by
  obtain ⟨ns, hns, hn⟩ := bind_eq_ok.1 hn
  have hgreatest : List.Forall₂ (fun ks n => IsGreatest {k | k ∈ ks} n) kss ns := by
    refine (forall₂_with_mem (forall₂_trans h.flip (mapM_eq_ok.1 hns))).imp fun ks n hksn => ?_
    obtain ⟨hks, v, hv, hvn⟩ := hksn
    exact greatestIndex_eq hv (hpos ks hks) hvn
  cases ns with
  | nil => cases hn
  | cons k ns =>
    cases hn
    obtain ⟨hmem, hle⟩ := isGreatest_foldl k ns
    constructor
    · obtain ⟨ks, hks, hn⟩ := forall₂_mem hgreatest hmem
      exact List.mem_flatten.2 ⟨ks, hks, hn.1⟩
    · intro l hl
      obtain ⟨ks, hks, hl⟩ := List.mem_flatten.1 hl
      obtain ⟨n, hn, hksn⟩ := forall₂_mem hgreatest.flip hks
      exact (hksn.2 hl).trans (hle hn)

omit [Scalar F] in
theorem countOr_some {n : Int} (h : n ≠ 0) : countOr (some n) = n := by
  unfold countOr
  split
  · rename_i heq
    exact absurd (Option.some.inj heq) h
  · rename_i heq
    cases heq
  · rename_i heq
    exact (Option.some.inj heq).symm

theorem pick_countOr {which : BlockIndex} {groups replicates : Int}
    (h : which.pick groups replicates ≠ 0) :
    which.pick (countOr (some groups)) (countOr (some replicates)) = which.pick groups replicates := by
  cases which with
  | group => exact countOr_some h
  | replicate => exact countOr_some h

theorem define_of_construct {constructor : Constructor} {label : Option String}
    {mapper : Option (Mapper F)} {given : Named (Value F)} {c : Component F}
    (h : construct? constructor label mapper given = .ok c) :
    ∃ label arguments, define? label (definitionOf mapper arguments) = .ok c := by
  unfold construct? at h
  dsimp only at h
  split at h
  · obtain ⟨l, -, h⟩ := bind_eq_ok.1 h
    obtain ⟨arguments, -, h⟩ := bind_eq_ok.1 h
    exact ⟨l, arguments, h⟩
  · obtain ⟨l, -, h⟩ := bind_eq_ok.1 h
    obtain ⟨arguments, -, h⟩ := bind_eq_ok.1 h
    exact ⟨l, arguments, h⟩
  · cases h

omit [Scalar F] in
theorem isNull_of_ne {v : Value F} (h : v ≠ .null) : isNull v = false := by
  cases v <;> first | rfl | exact absurd rfl h

omit [Scalar F] in
theorem needsData_of_index {c : Component F} {which : BlockIndex}
    (hspec : which.pick c.group c.replicate ≠ .null)
    (hcount : which.pick c.groups c.replicates = none) : c.needsData = true := by
  cases which with
  | group =>
    have hgroup : isNull c.group = false := isNull_of_ne hspec
    have hgroups : c.groups = none := hcount
    simp [needsData, hgroup, hgroups]
  | replicate =>
    have hreplicate : isNull c.replicate = false := isNull_of_ne hspec
    have hreplicates : c.replicates = none := hcount
    simp [needsData, hreplicate, hreplicates]

/-- A component with an index but without its count waits for data, if it is defined without a mapper
of its own. -/
theorem mapper_of_define {label : String} {d : Definition F} {c : Component F}
    (h : define? label d = .ok c) (hmapper : d.mapper = none) {which : BlockIndex}
    (hspec : which.pick c.group c.replicate ≠ .null)
    (hcount : which.pick c.groups c.replicates = none) : c.mapper = none := by
  obtain ⟨role, -, h⟩ := bind_eq_ok.1 h
  obtain ⟨groups, -, h⟩ := bind_eq_ok.1 h
  obtain ⟨replicates, -, h⟩ := bind_eq_ok.1 h
  rw [hmapper] at h
  dsimp only at h
  split at h
  · cases h
    rfl
  · rename_i hneeds
    obtain ⟨m, -, h⟩ := bind_eq_ok.1 h
    cases h
    exact (hneeds (needsData_of_index hspec hcount)).elim

/-- A count that is inferred is the greatest value of all data objects. It is the count of the mapper
that the component gets in a model, and no value of these data objects is out of range for it. -/
theorem inferred_count [OrderedIntegers F] (which : BlockIndex) {constructor : Constructor}
    {label : Option String} {given : Named (Value F)} {c : Component F} {cs : Components F}
    {ls : List (Likelihood F)} {m : Model F}
    (hc : construct? constructor label none given = .ok c)
    (hspec : which.pick c.group c.replicate ≠ .null)
    (hcount : which.pick c.groups c.replicates = none) (hmem : c ∈ cs.toList)
    (hvalues : ∀ d ∈ Model.dataOf ls, ∀ i, c.input? d = .ok i →
      ∃ ks, Indices (which.pick i.group i.replicate) ks ∧ ∀ k ∈ ks, 0 < k)
    (hm : Model.build? cs ls = .ok m) :
    ∃ c' ∈ m.components.toList, ∃ inputs kss main groups replicates,
      c'.label = c.label ∧ (Model.dataOf ls).mapM c'.input? = .ok inputs ∧
      List.Forall₂ (fun i ks => Indices (which.pick i.group i.replicate) ks) inputs kss ∧
      c'.mapper = some (.component main groups replicates) ∧
      IsGreatest {k | k ∈ kss.flatten} (which.pick groups replicates) ∧
      ∀ i ∈ inputs, ∀ state,
        Spares which ((Mapper.component main groups replicates).evaluate? (some i) state) ∧
        Spares which ((Mapper.component main groups replicates).jacobian? (some i) state) := by
  obtain ⟨l, arguments, hdefine⟩ := define_of_construct hc
  have hmapper := mapper_of_define hdefine rfl hspec hcount
  obtain ⟨completed, included, hcompleted, -, rfl⟩ := Model.build_eq_ok.1 hm
  obtain ⟨c', hc', hcomplete⟩ := forall₂_mem hcompleted.flip hmem
  obtain ⟨inputs, main, groups, replicates, m, hinputs, -, -, hgroups, hreplicates, hm, rfl⟩ :=
    (complete_eq_ok hmapper).1 hcomplete
  have hmain := Mapper.main_ofModel hm
  have hindices : ∀ i ∈ inputs, ∃ ks, Indices (which.pick i.group i.replicate) ks ∧ ∀ k ∈ ks, 0 < k := by
    intro i hi
    obtain ⟨d, hd, hdi⟩ := forall₂_mem (mapM_eq_ok.1 hinputs) hi
    exact hvalues d hd i hdi
  obtain ⟨kss, hkss⟩ := exists_forall₂ hindices
  have hpos : ∀ ks ∈ kss, ∀ k ∈ ks, 0 < k := by
    intro ks hks
    obtain ⟨i, -, -, hpos⟩ := forall₂_mem hkss hks
    exact hpos
  have hinfer : inferCount? none (inputs.map fun i => which.pick i.group i.replicate) =
      .ok (which.pick groups replicates) := by
    cases which with
    | group => exact hcount ▸ hgroups
    | replicate => exact hcount ▸ hreplicates
  have hgreatest := inferCount_eq (List.forall₂_map_left_iff.2 (hkss.imp fun i ks h => h.1)) hpos hinfer
  obtain ⟨ks, hks, hk⟩ := List.mem_flatten.1 hgreatest.1
  have hcounts := pick_countOr (hpos ks hks _ hk).ne'
  refine ⟨_, hc', inputs, kss, m, countOr (some groups), countOr (some replicates), rfl, hinputs,
    hkss.imp fun i ks h => h.1, congrArg some (hmain.forComponent _ _), hcounts.symm ▸ hgreatest, ?_⟩
  intro i hi state
  obtain ⟨ks, hks, hiks, -⟩ := forall₂_mem hkss.flip hi
  refine hmain.spares_component (Mapper.Block.spares_of_indices hiks (fun k hk => ?_) _) state
  rw [hcounts]
  exact ⟨hpos ks hks k hk, hgreatest.2 (List.mem_flatten.2 ⟨ks, hks, hk⟩)⟩

def field (name : String) : Value ℚ := .function (.ofData ⟨name, .name name⟩ none)

def inGroups (xs : List ℚ) (gs : List Int) : Likelihood ℚ :=
  { data := .dict [("x", .list (xs.map .float)), ("g", .list (gs.map .int))] }

def slopeArguments : Named (Value ℚ) := [("main", field "x"), ("group", field "g")]

def slopes : Component ℚ where
  label := "b"
  main := field "x"
  group := field "g"
  replicate := .null
  weights := .null
  model := "linear"
  role := .fixed
  mapper := none
  groups := none
  replicates := none
  options := []

theorem slopes_constructed : construct? .define (some "b") none slopeArguments = .ok slopes := rfl

theorem slopes_count : ∃ m,
    Model.build? ⟨[slopes]⟩ [inGroups [1, 2] [1, 3], inGroups [5, 7] [2, 2]] = .ok m ∧
    ∃ c' ∈ m.components.toList, ∃ inputs kss main groups replicates,
      c'.label = slopes.label ∧
      (Model.dataOf [inGroups [1, 2] [1, 3], inGroups [5, 7] [2, 2]]).mapM c'.input? = .ok inputs ∧
      List.Forall₂ (fun i ks => Indices (BlockIndex.group.pick i.group i.replicate) ks) inputs kss ∧
      c'.mapper = some (.component main groups replicates) ∧
      IsGreatest {k | k ∈ kss.flatten} (BlockIndex.group.pick groups replicates) ∧
      ∀ i ∈ inputs, ∀ state,
        Spares .group ((Mapper.component main groups replicates).evaluate? (some i) state) ∧
        Spares .group ((Mapper.component main groups replicates).jacobian? (some i) state) := by
  obtain ⟨m, hm⟩ : ∃ m,
      Model.build? ⟨[slopes]⟩ [inGroups [1, 2] [1, 3], inGroups [5, 7] [2, 2]] = .ok m := ⟨_, rfl⟩
  refine ⟨m, hm, inferred_count .group slopes_constructed nofun rfl List.mem_cons_self ?_ hm⟩
  intro d hd i hi
  rcases List.mem_pair.1 hd with rfl | rfl
  · cases hi
    refine ⟨[1, 3], .array (.cons (.int rfl ?_) (.cons (.int rfl ?_) .nil)), by decide⟩
    · decide +kernel
    · decide +kernel
  · cases hi
    refine ⟨[2, 2], .array (.cons (.int rfl ?_) (.cons (.int rfl ?_) .nil)), by decide⟩
    · decide +kernel
    · decide +kernel

/-- With a mapper of its own a component never infers its count, and the second of two groups is out of
range. -/
theorem own_mapper_out_of_range : ∃ c m c' i mapper,
    construct? .define (some "b") (some (.linear 1)) slopeArguments = .ok c ∧ c.groups = none ∧
    Model.build? ⟨[c]⟩ [inGroups [1, 2] [1, 2]] = .ok m ∧
    m.components.toList = [c'] ∧ c'.input? (inGroups [1, 2] [1, 2]).data = .ok i ∧
    c'.mapper = some mapper ∧
    mapper.evaluate? (some i) (.ofReals [3]) = .error (.blockRange .group 1) :=
  ⟨_, _, _, _, _, rfl, rfl, rfl, rfl, rfl, rfl, rfl⟩

end Component

end AdditiveModel
