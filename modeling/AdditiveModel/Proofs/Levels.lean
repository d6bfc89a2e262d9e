import AdditiveModel.Proofs.Completion
import AdditiveModel.Proofs.Inputs
import AdditiveModel.Proofs.Keys
import AdditiveModel.Proofs.Rows
import AdditiveModel.Real.Instance

/-! Levels that are learned from data. The main values of all data objects are joined in the kind in
which they meet, and a value is looked up as it stands in its own data object: it is known when it is found
under an observed value in that kind. -/

namespace AdditiveModel

variable {F : Type} [Scalar F]

namespace Joining

/-- Several arrays in the kind in which all of them meet. -/
def common? (values : List (Value F)) : Except Fault (List (Grid F)) := do
  let grids ← values.mapM Grid.ofValue
  grids.mapM (Grid.cast? (Kind.promoteAll (grids.map (·.kind))))

theorem cast_eq_ok {kind : Kind} {g g' : Grid F} :
    g.cast? kind = .ok g' ↔
      ∃ cells, Value.castAll? g.kind kind g.cells = .ok cells ∧ g' = ⟨kind, g.shape, cells⟩ := by
  simp only [Grid.cast?, bind_eq_ok, pure_eq_ok, @eq_comm _ g']

theorem shaped_of_cast {kind : Kind} {g g' : Grid F} (hg : g.Shaped) (h : g.cast? kind = .ok g') :
    g'.Shaped := by
  obtain ⟨cells, hcells, rfl⟩ := cast_eq_ok.1 h
  exact (castAll_length hcells).trans hg

theorem along_zero {parts : List (Grid F)} {g : Grid F} (hparts : ∀ p ∈ parts, p.Shaped)
    (h : along? 0 parts = .ok g) :
    ∃ casts, parts.mapM (Grid.cast? (Kind.promoteAll (parts.map (·.kind)))) = .ok casts ∧
      g.kind = Kind.promoteAll (parts.map (·.kind)) ∧ g.cells = casts.flatMap (·.cells) := by
  unfold along? at h
  split at h
  · cases h
  · dsimp only at h
    split at h
    · cases h
    · obtain ⟨casts, hcasts, h⟩ := bind_eq_ok.1 h
      cases h
      have hwhole : ∀ p ∈ casts, p.cells.take (Shape.count p.shape) = p.cells := by
        intro p hp
        obtain ⟨q, hq, hqp⟩ := forall₂_mem (mapM_eq_ok.1 hcasts) hp
        rw [← shaped_of_cast (hparts q hq) hqp, List.take_length]
      refine ⟨casts, hcasts, rfl, ?_⟩
      simp [List.flatMap_def, List.map_congr_left hwhole]

def asVector (g : Grid F) : Grid F := if g.shape.isEmpty then { g with shape := [1] } else g

omit [Scalar F] in
theorem kind_asVector (g : Grid F) : (asVector g).kind = g.kind := by
  unfold asVector
  split <;> rfl

omit [Scalar F] in
theorem cells_asVector (g : Grid F) : (asVector g).cells = g.cells := by
  unfold asVector
  split <;> rfl

omit [Scalar F] in
theorem shaped_asVector {g : Grid F} (h : g.Shaped) : (asVector g).Shaped := by
  unfold asVector
  split
  · rename_i hg
    rw [List.isEmpty_iff] at hg
    simpa [Grid.Shaped, hg] using h
  · exact h

theorem cast_asVector {kind : Kind} {g g' : Grid F} (h : (asVector g).cast? kind = .ok g') :
    ∃ g'', g.cast? kind = .ok g'' ∧ g''.cells = g'.cells := by
  obtain ⟨cells, hcells, rfl⟩ := cast_eq_ok.1 h
  rw [kind_asVector, cells_asVector] at hcells
  exact ⟨_, cast_eq_ok.2 ⟨cells, hcells, rfl⟩, rfl⟩

theorem concat_eq_ok {values : List (Value F)} {g : Grid F} (hvalues : ∀ v ∈ values, v.Shaped)
    (h : concat? values = .ok g) :
    ∃ arrays, common? values = .ok arrays ∧ (∀ a ∈ arrays, a.kind = g.kind) ∧
      g.cells = arrays.flatMap (·.cells) := by
  obtain ⟨grids, hgrids, h⟩ := bind_eq_ok.1 h
  have hshaped : ∀ p ∈ grids.map asVector, p.Shaped := by
    intro p hp
    obtain ⟨q, hq, rfl⟩ := List.mem_map.1 hp
    obtain ⟨v, hv, hvq⟩ := forall₂_mem (mapM_eq_ok.1 hgrids) hq
    exact shaped_asVector (ofValue_shaped v (hvalues v hv) hvq)
  obtain ⟨casts, hcasts, hkind, hcells⟩ := along_zero hshaped h
  have hkinds : (grids.map asVector).map (·.kind) = grids.map (·.kind) := by
    rw [List.map_map]
    exact List.map_congr_left fun g _ => kind_asVector g
  rw [hkinds] at hkind
  rw [hkinds, mapM_eq_ok, List.forall₂_map_left_iff] at hcasts
  obtain ⟨arrays, harrays, hsame⟩ := forall₂_exists.1
    (List.forall₂_map_right_iff.2 (hcasts.imp fun p p' hp => cast_asVector hp))
  refine ⟨arrays, bind_eq_ok.2 ⟨grids, hgrids, mapM_eq_ok.2 harrays⟩, fun a ha => ?_, ?_⟩
  · obtain ⟨p, -, hp⟩ := forall₂_mem harrays ha
    obtain ⟨cells, -, rfl⟩ := cast_eq_ok.1 hp
    exact hkind.symm
  rw [hcells, List.flatMap_def, List.flatMap_def, hsame]

end Joining

namespace Value

omit [Scalar F] in
theorem number_plain {v : Value F} {x : PlainNumber F} (h : number? v = some x) :
    number? v.plain = some x := by
  cases v with
  | cell kind w => cases w <;> simp_all [number?, plain]
  | _ => exact h

/-- An element of an array as a level: the number of an array of numbers, or of a single element, becomes
another object. -/
def asLevel (kind : Kind) (w : Value F) : Value F := (element kind w).key

omit [Scalar F] in
theorem isKey_of_plain {v : Value F} (h : v.plain.isKey = true) : v.isKey = true := by
  cases v with
  | cell kind w => rfl
  | _ => exact h

theorem isKey_key {v : Value F} (h : v.plain.isKey = true) : v.key.isKey = true := by
  cases v with
  | cell kind w => cases w <;> first | rfl | exact h
  | _ => exact h

theorem isKey_asLevel {kind : Kind} {w : Value F} (h : w.plain.isKey = true) :
    (asLevel kind w).isKey = true := by
  unfold asLevel element
  split
  · exact isKey_key h
  · exact isKey_key h
  · exact isKey_key (v := cell kind w.plain) h

section Renewed

variable [ComparedByValue F] {kind : Kind} {u w b : Value F}

theorem renew_of_eq {x y : F} (h : Scalar.eq x y = true) : Scalar.renew x = x := by
  simp [Scalar.renew, ComparedByValue.isNumber h]

theorem key_of_same (h : same u.plain u.plain = true) : u.key = u.plain := by
  cases u with
  | cell kind w =>
    cases w with
    | float x =>
      have hx : Scalar.eq x x = true := by simpa [same, equal?, number?, PlainNumber.eq, plain] using h
      exact congrArg float (renew_of_eq hx)
    | complex x x' =>
      have hx : Scalar.eq x x = true ∧ Scalar.eq x' x' = true := by
        simpa [same, equal?, number?, PlainNumber.eq, plain] using h
      exact congrArg₂ complex (renew_of_eq hx.1) (renew_of_eq hx.2)
    | _ => rfl
  | _ => rfl

theorem asLevel_of_same (h : same w.plain w.plain = true) : asLevel kind w = w.plain := by
  unfold asLevel element
  split
  · exact key_of_same h
  · exact key_of_same h
  · exact key_of_same (u := cell kind w.plain) h

theorem asLevel_of_number {x y : PlainNumber F} (hu : number? u = some x) (h : x.eq y = true) :
    asLevel kind u = u.plain := by
  have hplain := number_plain hu
  refine asLevel_of_same ?_
  rw [same, equal_of_number hplain (isKey_of_number hplain), hplain]
  exact PlainNumber.eq_trans h (PlainNumber.eq_symm h)

theorem alike_asLevel (hu : isKey u = true) (hw : isKey w = true) (hsame : same u w = true) :
    Alike (asLevel kind u) (asLevel kind w) := by
  cases alike_of_same hu hw hsame with
  | @number _ _ x y hx hy =>
    have heq : x.eq y = true := by
      simpa [same, equal_of_number hx hw, hy] using hsame
    rw [asLevel_of_number hx heq, asLevel_of_number hy (PlainNumber.eq_symm heq)]
    exact .number (number_plain hx) (number_plain hy) (PlainNumber.found_of_eq heq)
  | null => cases kind <;> exact .null
  | ellipsis => cases kind <;> exact .ellipsis
  | str s => cases kind <;> exact .str s
  | bytes octets => cases kind <;> exact .bytes octets
  | function h => cases kind <;> exact .function h
  | expression h => cases kind <;> exact .expression h
  | unit => cases kind <;> exact .unit
  | cons h h' => cases kind <;> exact .cons h h'

theorem not_alike_renew {x : F} (hx : Scalar.isNaN x = true) : ¬ Alike (float (Scalar.renew x)) b := by
  intro h
  rw [Scalar.renew, if_pos hx] at h
  have hnan := ComparedByValue.nan_isNaN hx
  obtain ⟨y, -, h⟩ := (alike_of_number (x := .real Scalar.nan) rfl).1 h
  have heq : ∃ z : F, Scalar.eq Scalar.nan z = true := by
    cases y with
    | int n => exact ⟨_, (Number.intEq_iff.1 h).2⟩
    | real y =>
      rw [PlainNumber.found, PlainNumber.found.samePart, ComparedByValue.nan_not_identical,
        Bool.or_false] at h
      exact ⟨_, h⟩
    | complex p => exact ⟨_, ComparedByValue.symm (Bool.and_eq_true _ _ ▸ h).1⟩
  obtain ⟨z, hz⟩ := heq
  rw [ComparedByValue.isNumber hz] at hnan
  cases hnan

end Renewed

theorem isKey_of_cast {kind : Kind} {v w : Value F} (h : cast? kind v = .ok w)
    (hv : isKey v.plain = true) : isKey w.plain = true := by
  unfold cast? at h
  split at h
  case h_1 =>
    cases h
    exact hv
  case h_12 =>
    obtain ⟨n, -, h⟩ := bind_eq_ok.1 h
    split at h
    · cases h
      rfl
    · cases h
  all_goals first
    | cases h; rfl
    | obtain ⟨x, -, rfl⟩ := map_eq_ok.1 h; rfl

theorem castAll_keys {source target : Kind} {cells out : List (Value F)}
    (h : castAll? source target cells = .ok out)
    (hkeys : areKeys (cells.map plain) = true) :
    areKeys (out.map plain) = true := by
  unfold castAll? at h
  split at h
  · cases h
    exact hkeys
  · rw [areKeys_iff] at hkeys ⊢
    intro v hv
    obtain ⟨w, hw, rfl⟩ := List.mem_map.1 hv
    obtain ⟨u, hu, hcast⟩ := forall₂_mem (mapM_eq_ok.1 h) hw
    exact isKey_of_cast hcast (hkeys _ (List.mem_map_of_mem hu))

theorem mem_of_mem_runHeads {kind : Kind} {cells : List (Value F)} {last : Option (Value F)}
    {h : Value F} (hh : h ∈ runHeads kind last cells) : h ∈ cells := by
  induction cells generalizing last with
  | nil => cases hh
  | cons b cells ih =>
    unfold runHeads at hh
    split at hh
    · exact List.mem_cons_of_mem _ (ih hh)
    · rcases List.mem_cons.1 hh with rfl | hh
      · exact List.mem_cons_self
      · exact List.mem_cons_of_mem _ (ih hh)

/-- Every element is kept, or coincides with one that is: the one that was kept before it. -/
theorem runHeads_covers {kind : Kind} {cells : List (Value F)} {last : Option (Value F)} {b : Value F}
    (hb : b ∈ cells) :
    b ∈ runHeads kind last cells ∨
      ∃ h, (h ∈ runHeads kind last cells ∨ last = some h) ∧ coincides kind h b = true := by
  induction cells generalizing last with
  | nil => cases hb
  | cons c cells ih =>
    unfold runHeads
    split
    · rename_i hlast
      rcases List.mem_cons.1 hb with rfl | hb
      · obtain ⟨h, rfl, hcoincides⟩ := (Option.any_eq_true _ _).1 hlast
        exact Or.inr ⟨h, Or.inr rfl, hcoincides⟩
      · exact ih hb
    · rcases List.mem_cons.1 hb with rfl | hb
      · exact Or.inl List.mem_cons_self
      · rcases @ih (some c) hb with hmem | ⟨h, hmem, hcoincides⟩
        · exact Or.inl (List.mem_cons_of_mem _ hmem)
        · refine Or.inr ⟨h, Or.inl ?_, hcoincides⟩
          rcases hmem with hmem | hmem
          · exact List.mem_cons_of_mem _ hmem
          · cases hmem
            exact List.mem_cons_self

theorem distinct_eq_ok {g : Grid F} {items : List (Value F)} (h : distinct? g = .ok items) :
    (∀ v ∈ items, v ∈ g.cells) ∧
      ∀ b ∈ g.cells, b ∈ items ∨ ∃ v ∈ items, coincides g.kind v b = true := by
  have hruns : ∃ le : Value F → Value F → Bool, items = runHeads g.kind none (g.cells.mergeSort le) := by
    unfold distinct? at h
    dsimp only at h
    split at h
    · obtain ⟨-, -, h⟩ := bind_eq_ok.1 h
      exact ⟨_, (pure_eq_ok.1 h).symm⟩
    · exact ⟨_, (pure_eq_ok.1 h).symm⟩
  obtain ⟨le, rfl⟩ := hruns
  refine ⟨fun v hv => ?_, fun b hb => ?_⟩
  · exact List.mem_mergeSort.1 (mem_of_mem_runHeads hv)
  · have hsorted : b ∈ g.cells.mergeSort le := List.mem_mergeSort.2 hb
    rcases @runHeads_covers _ _ g.kind _ none b hsorted with hmem | ⟨v, hmem | hmem, hv⟩
    · exact Or.inl hmem
    · exact Or.inr ⟨v, hmem, hv⟩
    · cases hmem

theorem distinct_sorted {g : Grid F} (hkind : g.kind ≠ .any)
    (hsorted : g.cells.Pairwise fun a b => before? g.kind b a ≠ .ok true) :
    distinct? g = .ok (runHeads g.kind none g.cells) := by
  unfold distinct?
  dsimp only
  rw [if_neg (by simpa using hkind), pure_eq_ok, List.mergeSort_of_pairwise]
  refine hsorted.imp fun {a b} h => ?_
  cases hb : before? g.kind b a with
  | error e => rfl
  | ok t =>
    cases t with
    | true => exact absurd hb h
    | false => rfl

theorem coincides_cases {kind : Kind} {a b : Value F} (h : coincides kind a b = true) :
    same a b = true ∨ ∃ x, asLevel kind b = .float (Scalar.renew x) ∧ Scalar.isNaN x = true := by
  unfold coincides at h
  split at h
  iterate 2
    · rw [Bool.or_eq_true, Bool.and_eq_true] at h
      rcases h with h | ⟨-, h⟩
      · exact .inl h
      · exact .inr ⟨_, rfl, h⟩
  · exact .inl h

end Value

namespace Mapper.Levels

theorem allDistinct_iff (levels : List (Value F)) :
    allDistinct levels = true ↔ levels.Pairwise fun a b => Value.found a b = false := by
  induction levels with
  | nil => simp [allDistinct]
  | cons v levels ih =>
    rw [allDistinct, Bool.and_eq_true, ih, List.pairwise_cons, Bool.not_eq_true', List.any_eq_false]
    simp only [Bool.not_eq_true]

theorem ofItems_eq_ok {items levels : List (Value F)} :
    ofItems? items = .ok levels ↔ levels = items.map Value.key ∧ Value.areKeys levels = true ∧
      levels.Pairwise fun a b => Value.found a b = false := by
  unfold ofItems?
  rw [← allDistinct_iff]
  by_cases hkeys : Value.areKeys (items.map Value.key) = true
  · by_cases hdistinct : allDistinct (items.map Value.key) = true
    · simp only [hkeys, hdistinct, Bool.not_true, Bool.false_eq_true, if_false, if_true, pure_eq_ok]
      constructor
      · rintro rfl
        exact ⟨rfl, hkeys, hdistinct⟩
      · rintro ⟨rfl, -, -⟩
        rfl
    · simp only [hkeys, hdistinct, Bool.not_true, Bool.false_eq_true, if_false, throw_eq_ok, false_iff]
      rintro ⟨rfl, -, h⟩
      exact hdistinct h
  · simp only [hkeys, Bool.not_false, if_true]
    constructor
    · intro h
      cases h
    · rintro ⟨rfl, h, -⟩
      exact absurd h hkeys

/-- Levels as a lookup finds them: keys, none of which is found under another one. -/
structure Distinct (levels : List (Value F)) : Prop where
  keys : Value.areKeys levels = true
  pairwise : levels.Pairwise fun a b => Value.found a b = false

section Position

variable {levels : List (Value F)} {v w : Value F}

theorem Distinct.isKey (hlevels : Distinct levels) {l : Value F} (hl : l ∈ levels) : l.isKey = true :=
  Value.areKeys_iff.1 hlevels.keys l hl

theorem position_eq_none (hlevels : Distinct levels) (hv : v.isKey = true) :
    position? levels v = none ↔ ∀ l ∈ levels, ¬ Value.Alike l v := by
  rw [position?, List.findIdx?_eq_none_iff]
  refine forall₂_congr fun l hl => ?_
  rw [← Value.found_iff (hlevels.isKey hl) hv, Bool.not_eq_true]

variable [ComparedByValue F]

theorem Distinct.symm (hlevels : Distinct levels) :
    levels.Pairwise fun a b => Value.found a b = false ∧ Value.found b a = false := by
  refine hlevels.pairwise.imp_of_mem fun {a b} ha hb hab => ⟨hab, ?_⟩
  rw [← Bool.not_eq_true, Value.found_iff (hlevels.isKey hb) (hlevels.isKey ha)]
  rw [← Bool.not_eq_true, Value.found_iff (hlevels.isKey ha) (hlevels.isKey hb)] at hab
  exact fun h => hab h.symm

theorem position_inj (hlevels : Distinct levels) (hv : v.isKey = true) (hw : w.isKey = true)
    {i j : Nat} (hi : position? levels v = some i) (hj : position? levels w = some j) :
    i = j ↔ Value.Alike v w := by
  obtain ⟨hi, hvi, -⟩ := List.findIdx?_eq_some_iff_getElem.1 hi
  obtain ⟨hj, hwj, -⟩ := List.findIdx?_eq_some_iff_getElem.1 hj
  have hki := hlevels.isKey (List.getElem_mem hi)
  have hkj := hlevels.isKey (List.getElem_mem hj)
  rw [Value.found_iff hki hv] at hvi
  rw [Value.found_iff hkj hw] at hwj
  constructor
  · rintro rfl
    exact hvi.symm.trans hwj
  · intro h
    have hij : Value.found levels[i] levels[j] = true :=
      (Value.found_iff hki hkj).2 ((hvi.trans h).trans hwj.symm)
    have hpairs := List.pairwise_iff_getElem.1 hlevels.symm
    rcases Nat.lt_trichotomy i j with hlt | heq | hlt
    · rw [(hpairs i j hi hj hlt).1] at hij
      cases hij
    · exact heq
    · rw [(hpairs j i hj hi hlt).2] at hij
      cases hij

end Position

theorem common_keys {values : List (Value F)} {arrays : List (Grid F)}
    (hcommon : Joining.common? values = .ok arrays)
    (hvalues : ∀ v ∈ values, ∀ g, Grid.ofValue v = .ok g →
      Value.areKeys (g.cells.map Value.plain) = true) :
    ∀ a ∈ arrays, Value.areKeys (a.cells.map Value.plain) = true := by
  obtain ⟨grids, hgrids, hcasts⟩ := bind_eq_ok.1 hcommon
  intro a ha
  obtain ⟨g, hg, hcast⟩ := forall₂_mem (mapM_eq_ok.1 hcasts) ha
  obtain ⟨v, hv, hvg⟩ := forall₂_mem (mapM_eq_ok.1 hgrids) hg
  obtain ⟨cells, hcells, rfl⟩ := Joining.cast_eq_ok.1 hcast
  exact Value.castAll_keys hcells (hvalues v hv g hvg)

/-- The keys that main values are looked up as. -/
def keysOf (main : Value F) : List (Value F) := (Grid.objects main).cells.map Value.plain

theorem ofObserved_eq_ok {main : Grid F} {levels : List (Value F)} :
    ofObserved? (.ofGrid main) = .ok levels ↔
      ∃ items, Value.distinct? main = .ok items ∧ ofItems? (items.map (Value.element main.kind)) = .ok levels := by
  simp only [ofObserved?, Value.ofGrid, Grid.ofValue, bind_eq_ok, lift_eq_ok, Except.ok.injEq,
    exists_eq_left']

theorem ofObserved_distinct {main : Grid F} {levels : List (Value F)}
    (h : ofObserved? (.ofGrid main) = .ok levels) : Distinct levels := by
  obtain ⟨items, -, hitems⟩ := ofObserved_eq_ok.1 h
  obtain ⟨-, hkeys, hdistinct⟩ := ofItems_eq_ok.1 hitems
  exact ⟨hkeys, hdistinct⟩

/-- A level that was learned is found under a key exactly when an observed value is. -/
theorem learned_iff [ComparedByValue F] {main : Grid F} {levels : List (Value F)}
    (hobserved : ofObserved? (.ofGrid main) = .ok levels)
    (hkeys : Value.areKeys (main.cells.map Value.plain) = true) {v : Value F} :
    (∃ l ∈ levels, Value.Alike l v) ↔ ∃ w ∈ main.cells, Value.Alike (Value.asLevel main.kind w) v := by
  obtain ⟨items, hitems, hlevels⟩ := ofObserved_eq_ok.1 hobserved
  obtain ⟨rfl, -, -⟩ := ofItems_eq_ok.1 hlevels
  obtain ⟨hsub, hcovers⟩ := Value.distinct_eq_ok hitems
  have hkey : ∀ w ∈ main.cells, w.isKey = true := fun w hw =>
    Value.isKey_of_plain (Value.areKeys_iff.1 hkeys _ (List.mem_map_of_mem hw))
  have hmem {w : Value F} (hw : w ∈ items) :
      Value.asLevel main.kind w ∈ (items.map (Value.element main.kind)).map Value.key :=
    List.mem_map_of_mem (List.mem_map_of_mem hw)
  refine ⟨fun h => ?_, fun h => ?_⟩
  · obtain ⟨_, hl, h⟩ := h
    rw [List.map_map] at hl
    obtain ⟨w, hw, rfl⟩ := List.mem_map.1 hl
    exact ⟨w, hsub w hw, h⟩
  · obtain ⟨w, hw, h⟩ := h
    rcases hcovers w hw with hitem | ⟨u, hu, hcoincides⟩
    · exact ⟨_, hmem hitem, h⟩
    · rcases Value.coincides_cases hcoincides with hsame | ⟨x, hlevel, hx⟩
      · exact ⟨_, hmem hu, (Value.alike_asLevel (hkey u (hsub u hu)) (hkey w hw) hsame).trans h⟩
      · -- a number that is none became a new object
        rw [hlevel] at h
        exact absurd h (Value.not_alike_renew hx)

/-- A main input that can be looked up: an array of keys with as many elements as its shape says. -/
structure Readable (main : Value F) : Prop where
  shaped : main.Shaped
  keys : Value.areKeys (keysOf main) = true

/-- What levels are that were learned from main values; `observed` are the main values in the kind in
which all of them meet. -/
structure Learned (mains : List (Value F)) (observed : List (Grid F)) (levels : List (Value F)) :
    Prop where
  /-- No level is found under another one. -/
  distinct : levels.Pairwise fun a b => Value.found a b = false ∧ Value.found b a = false
  /-- A main value is unknown when it is found under no observed value, and only then. -/
  unknown_iff : ∀ main ∈ mains, ∀ v ∈ keysOf main,
    position? levels v = none ↔
      ∀ a ∈ observed, ∀ w ∈ a.cells, Value.found (Value.asLevel a.kind w) v = false
  /-- Main values that are in the common kind already are known, unless they equal nothing. -/
  known : ∀ main ∈ mains, ∀ a ∈ observed, Grid.ofValue main = .ok a →
    ∀ v ∈ keysOf main, Value.same v v = true → (position? levels v).isSome = true
  /-- So are the objects in an array of objects, also those that equal nothing. -/
  object_known : ∀ main ∈ mains, ∀ a ∈ observed, Grid.ofValue main = .ok a → a.kind = .any →
    ∀ v ∈ a.cells, v.key = v → Value.found v v = true → (position? levels v).isSome = true
  /-- Known main values share a position when one is found under the other, and only then. -/
  shared_iff : ∀ main ∈ mains, ∀ main' ∈ mains, ∀ v ∈ keysOf main, ∀ w ∈ keysOf main', ∀ p q,
    position? levels v = some p → position? levels w = some q → (p = q ↔ Value.found v w = true)

/-- A key is unknown exactly when it is found under no value that the levels were learned from. -/
theorem position_learned [ComparedByValue F] {main : Grid F} {levels : List (Value F)}
    {observed : List (Grid F)} (hobserved : ofObserved? (.ofGrid main) = .ok levels)
    (hkind : ∀ a ∈ observed, a.kind = main.kind)
    (hcells : main.cells = observed.flatMap (·.cells))
    (hkeys : ∀ a ∈ observed, Value.areKeys (a.cells.map Value.plain) = true) {v : Value F}
    (hv : v.isKey = true) :
    position? levels v = none ↔
      ∀ a ∈ observed, ∀ w ∈ a.cells, Value.found (Value.asLevel a.kind w) v = false := by
  have hisKey : ∀ a ∈ observed, ∀ w ∈ a.cells, w.plain.isKey = true := fun a ha w hw =>
    Value.areKeys_iff.1 (hkeys a ha) _ (List.mem_map_of_mem hw)
  have hmain : Value.areKeys (main.cells.map Value.plain) = true := by
    rw [hcells, Value.areKeys_iff]
    intro u hu
    obtain ⟨w, hw, rfl⟩ := List.mem_map.1 hu
    obtain ⟨a, ha, hw⟩ := List.mem_flatMap.1 hw
    exact hisKey a ha w hw
  have hlearned := not_congr (learned_iff (v := v) hobserved hmain)
  push Not at hlearned
  rw [position_eq_none (ofObserved_distinct hobserved) hv, hlearned, hcells]
  simp only [List.mem_flatMap, forall_exists_index, and_imp]
  refine ⟨fun h a ha w hw => ?_, fun h w a ha hw => ?_⟩
  · rw [← Bool.not_eq_true, Value.found_iff (Value.isKey_asLevel (hisKey a ha w hw)) hv, hkind a ha]
    exact h w a ha hw
  · rw [← hkind a ha, ← Value.found_iff (Value.isKey_asLevel (hisKey a ha w hw)) hv, Bool.not_eq_true]
    exact h a ha w hw

theorem invalid_index {levels : List (Value F)} {groups replicates : Int} {i : Input F}
    (hkeys : Value.areKeys (keysOf i.main) = true) :
    (Mapper.component (.index levels) groups replicates).invalid? (some i) =
      .ok ((keysOf i.main).map fun v => (position? levels v).isNone) := by
  have hpositions : positions? levels i.main = .ok ((keysOf i.main).map (position? levels)) := by
    rw [positions?, ← keysOf]
    exact if_pos hkeys
  simp [Mapper.invalid?, required?, Input.ofMain, Levels.invalid?, hpositions, bind, Except.bind,
    pure, Except.pure, AdditiveModel.lift]

theorem learned_of_observed [ComparedByValue F] {mains : List (Value F)} {observed : List (Grid F)}
    {main : Grid F} {levels : List (Value F)}
    (hread : ∀ v ∈ mains, Readable v ∧ ∀ g, Grid.ofValue v = .ok g → keysOf v = g.cells.map Value.plain)
    (hcommon : Joining.common? mains = .ok observed) (hkind : ∀ a ∈ observed, a.kind = main.kind)
    (hcells : main.cells = observed.flatMap (·.cells))
    (hobserved : ofObserved? (.ofGrid main) = .ok levels) : Learned mains observed levels := by
  have hdistinct := ofObserved_distinct hobserved
  have hkey : ∀ main ∈ mains, ∀ v ∈ keysOf main, v.isKey = true := fun main hmain =>
    Value.areKeys_iff.1 (hread main hmain).1.keys
  have hkeys : ∀ a ∈ observed, Value.areKeys (a.cells.map Value.plain) = true := by
    refine common_keys hcommon fun v hv g hg => ?_
    rw [← (hread v hv).2 g hg]
    exact (hread v hv).1.keys
  have hposition {v : Value F} (hv : v.isKey = true) := position_learned hobserved hkind hcells hkeys hv
  -- a value that is found under itself as a level is among the levels
  have hknown {a : Grid F} (ha : a ∈ observed) {w v : Value F} (hw : w ∈ a.cells) (hv : v.isKey = true)
      (hfound : Value.found (Value.asLevel a.kind w) v = true) : (position? levels v).isSome = true := by
    rw [Option.isSome_iff_ne_none, Ne, hposition hv]
    intro hnever
    rw [hnever a ha w hw] at hfound
    cases hfound
  refine ⟨hdistinct.symm, fun main hmain v hv => hposition (hkey main hmain v hv), ?_, ?_, ?_⟩
  · intro main hmain a ha hmaina v hv hself
    have hisKey := hkey main hmain v hv
    obtain ⟨w, hw, rfl⟩ := List.mem_map.1 ((hread main hmain).2 a hmaina ▸ hv)
    refine hknown ha hw hisKey ?_
    rw [Value.asLevel_of_same hself, Value.found, hself, Bool.or_true]
  · intro main hmain a ha hmaina hany v hv hself hfound
    have hplain : v.plain ∈ keysOf main := (hread main hmain).2 a hmaina ▸ List.mem_map_of_mem hv
    refine hknown ha hv (Value.isKey_of_plain (hkey main hmain _ hplain)) ?_
    rw [hany, Value.asLevel, Value.element, hself]
    exact hfound
  · intro main hmain main' hmain' v hv w hw p q hp hq
    rw [Value.found_iff (hkey main hmain v hv) (hkey main' hmain' w hw)]
    exact position_inj hdistinct (hkey main hmain v hv) (hkey main' hmain' w hw) hp hq

end Mapper.Levels

namespace Component

open Mapper.Levels

theorem ofModel_levels {main : Grid F} {options : Named (Value F)} {m : Mapper F}
    (hlevels : Mapper.option options "levels" .null = .null) :
    Mapper.ofModel? (.str "iid") (.ofGrid main) options = .ok m ↔
      Mapper.onlyOptions options ["levels"] = .ok () ∧
      ∃ levels, Mapper.Levels.ofObserved? (.ofGrid main) = .ok levels ∧ m = .index levels := by
  have hmodel : Mapper.ofModel? (.str "iid") (.ofGrid main) options =
      Mapper.ofLevels? (.ofGrid main) options := by
    simp [Mapper.ofModel?, Value.isKey, Value.plain]
  rw [hmodel]
  unfold Mapper.ofLevels?
  rw [hlevels, Value.ofGrid]
  simp only [bind_eq_ok, pure_eq_ok, @eq_comm _ m]
  constructor
  · rintro ⟨⟨⟩, honly, h⟩
    exact ⟨honly, h⟩
  · rintro ⟨honly, h⟩
    exact ⟨(), honly, h⟩

theorem keysOf_main {c : Component F} {d : Value F} {i : Mapper.Input F} (h : c.input? d = .ok i)
    {g : Grid F} (hg : Grid.ofValue i.main = .ok g) : keysOf i.main = g.cells.map Value.plain := by
  obtain ⟨size, -, ⟨w, -, hmain⟩, -⟩ := input_eq_ok.1 h
  rcases spread_cases hmain with hnull | ⟨g', hg'⟩
  · rw [hnull] at hg ⊢
    cases hg
    rfl
  · rw [hg'] at hg ⊢
    cases hg
    rfl

/-- Levels that are learned from data are distinct, and a main value is among them when it is found under an
observed value in the common kind; all other main values are reported as invalid. -/
theorem learned_levels [ComparedByValue F] {c c' : Component F} {data : List (Value F)}
    (hmodel : c.model = "iid") (hlevels : Mapper.option c.options "levels" .null = .null)
    (hmapper : c.mapper = none)
    (hmain : ∀ d ∈ data, ∀ i, c.input? d = .ok i → Readable i.main)
    (hc : c.complete? data = .ok c') :
    ∃ inputs observed levels groups replicates,
      data.mapM c'.input? = .ok inputs ∧
      Joining.common? (inputs.map (·.main)) = .ok observed ∧
      c'.mapper = some (.component (.index levels) groups replicates) ∧
      Learned (inputs.map (·.main)) observed levels ∧
      ∀ i ∈ inputs, (Mapper.component (.index levels) groups replicates).invalid? (some i) =
        .ok ((keysOf i.main).map fun v => (position? levels v).isNone) := by
  obtain ⟨inputs, main, groups, replicates, m, hinputs, -, hconcat, -, -, hm, rfl⟩ :=
    (complete_eq_ok hmapper).1 hc
  rw [hmodel] at hm
  obtain ⟨-, levels, hobserved, rfl⟩ := (ofModel_levels hlevels).1 hm
  have hread : ∀ v ∈ inputs.map (·.main), Readable v ∧
      ∀ g, Grid.ofValue v = .ok g → keysOf v = g.cells.map Value.plain := by
    intro v hv
    obtain ⟨i, hi, rfl⟩ := List.mem_map.1 hv
    obtain ⟨d, hd, hdi⟩ := forall₂_mem (mapM_eq_ok.1 hinputs) hi
    exact ⟨hmain d hd i hdi, fun g => keysOf_main hdi⟩
  obtain ⟨observed, hcommon, hkind, hcells⟩ :=
    Joining.concat_eq_ok (fun v hv => (hread v hv).1.shaped) hconcat
  refine ⟨inputs, observed, levels, _, _, hinputs, hcommon, rfl, ?_, ?_⟩
  · exact learned_of_observed hread hcommon hkind hcells hobserved
  · intro i hi
    exact invalid_index (hread i.main (List.mem_map_of_mem hi)).1.keys

def missing (mark : Nat) : Value (Real.Marked Float) := .float ⟨Scalar.nan, some mark⟩

-- a missing value is a level as the object that it is, and can be one only once
example : (ofItems? [missing 0, missing 1, .int 1]).toOption.map (fun levels =>
    [missing 0, missing 1, missing 2].map (position? levels)) = some [some 0, some 1, none] := by
  decide +kernel

example : (ofItems? [missing 0, missing 0]).toOption.isNone := by decide +kernel

def named (names : List String) : Value ℚ := .dict [("z", .list (names.map .str))]

def numbered (numbers : List Int) : Value ℚ := .dict [("z", .list (numbers.map .int))]

/-- The effect of levels for data objects whose names or numbers are joined in ascending order. -/
theorem complete_sorted {data : List (Value ℚ)} {inputs : List (Mapper.Input ℚ)} {main : Grid ℚ}
    {levels : List (Value ℚ)} (hinputs : data.mapM Model.levelsComponent.input? = .ok inputs)
    (hdata : inputs ≠ []) (hmain : Joining.concat? (inputs.map (·.main)) = .ok main)
    (hgroups : inferCount? none (inputs.map (·.group)) = .ok 1)
    (hreplicates : inferCount? none (inputs.map (·.replicate)) = .ok 1) (hkind : main.kind ≠ .any)
    (hsorted : main.cells.Pairwise fun a b => Value.before? main.kind b a ≠ .ok true)
    (hlevels : ofItems? ((Value.runHeads main.kind none main.cells).map (Value.element main.kind)) =
      .ok levels) :
    Model.levelsComponent.complete? data = .ok
      { Model.levelsComponent with
        groups := some 1, replicates := some 1, mapper := some (.component (.index levels) 1 1) } :=
  (complete_eq_ok rfl).2 ⟨inputs, main, 1, 1, .index levels, hinputs, hdata, hmain, hgroups, hreplicates,
    (ofModel_levels rfl).2
      ⟨rfl, levels, ofObserved_eq_ok.2 ⟨_, Value.distinct_sorted hkind hsorted, hlevels⟩, rfl⟩, rfl⟩

theorem named_learned : ∃ c, Model.levelsComponent.complete? [named ["a", "b"], named ["b", "c"]] = .ok c ∧
    ∃ inputs observed levels groups replicates,
      [named ["a", "b"], named ["b", "c"]].mapM c.input? = .ok inputs ∧
      Joining.common? (inputs.map (·.main)) = .ok observed ∧
      c.mapper = some (.component (.index levels) groups replicates) ∧
      Learned (inputs.map (·.main)) observed levels ∧
      ∀ i ∈ inputs, (Mapper.component (.index levels) groups replicates).invalid? (some i) =
        .ok ((keysOf i.main).map fun v => (position? levels v).isNone) := by
  have hc : Model.levelsComponent.complete? [named ["a", "b"], named ["b", "c"]] = .ok _ :=
    complete_sorted rfl (by simp) rfl rfl rfl (by decide) (by decide +kernel) rfl
  refine ⟨_, hc, learned_levels rfl rfl rfl ?_ hc⟩
  intro d hd i hi
  rcases List.mem_pair.1 hd with rfl | rfl
  all_goals
    cases hi
    exact ⟨rfl, rfl⟩

/-- Numbers that are learned together with names become texts, and are no levels themselves. -/
theorem mixed_unknown : ∃ c i m,
    Model.levelsComponent.complete? [numbered [1, 2], named ["a"]] = .ok c ∧
    c.input? (numbered [1, 2]) = .ok i ∧ c.mapper = some m ∧ m.invalid? (some i) = .ok [true, true] := by
  have hc : Model.levelsComponent.complete? [numbered [1, 2], named ["a"]] = .ok _ :=
    complete_sorted rfl (by simp) rfl rfl rfl (by decide) (by decide +kernel) rfl
  exact ⟨_, _, _, hc, rfl, rfl, by decide +kernel⟩

end Component

end AdditiveModel
