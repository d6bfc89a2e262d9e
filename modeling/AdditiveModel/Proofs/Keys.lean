import AdditiveModel.Mapper.Levels
import AdditiveModel.Proofs.Exact
import AdditiveModel.Proofs.Outcome
import AdditiveModel.Real.Marked

/-! Keys are found by value, and a value that equals nothing as the object that it is. On keys this is
symmetric and transitive, so a lookup among distinct keys finds the same place for values that are alike and
different places for different ones. -/

namespace AdditiveModel

/-- Equal numbers have the same value: equality is symmetric and transitive, keeps the integer part,
and a value that is no number equals nothing. Such values are objects, of which the constant is none. -/
class ComparedByValue (F : Type) [Scalar F] : Prop where
  symm {x y : F} : Scalar.eq x y = true → Scalar.eq y x = true
  trans {x y z : F} : Scalar.eq x y = true → Scalar.eq y z = true → Scalar.eq x z = true
  floor_eq {x y : F} : Scalar.eq x y = true → Scalar.floor? x = Scalar.floor? y
  isNumber {x y : F} : Scalar.eq x y = true → Scalar.isNaN x = false
  identical_symm {x y : F} : Scalar.identical x y = true → Scalar.identical y x = true
  identical_trans {x y z : F} :
    Scalar.identical x y = true → Scalar.identical y z = true → Scalar.identical x z = true
  isNaN_of_identical {x y : F} : Scalar.identical x y = true → Scalar.isNaN x = true
  nan_isNaN {x : F} : Scalar.isNaN x = true → Scalar.isNaN (Scalar.nan : F) = true
  nan_not_identical (x : F) : Scalar.identical Scalar.nan x = false

instance : ComparedByValue ℚ where
  symm h := by
    simp only [Scalar.eq, beq_iff_eq] at h ⊢
    exact h.symm
  trans h h' := by
    simp only [Scalar.eq, beq_iff_eq] at h h' ⊢
    exact h.trans h'
  floor_eq h := by
    simp only [Scalar.eq, beq_iff_eq] at h
    rw [h]
  isNumber _ := rfl
  identical_symm h := h
  identical_trans h _ := h
  isNaN_of_identical h := h
  nan_isNaN h := h
  nan_not_identical _ := rfl

variable {F : Type} [Scalar F]

instance [ComparedByValue F] : ComparedByValue (Real.Marked F) where
  symm {x y} h := ComparedByValue.symm (x := x.number) (y := y.number) h
  trans {x y z} h h' := ComparedByValue.trans (x := x.number) (y := y.number) (z := z.number) h h'
  floor_eq {x y} h := ComparedByValue.floor_eq (x := x.number) (y := y.number) h
  isNumber {x y} h := ComparedByValue.isNumber (x := x.number) (y := y.number) h
  identical_symm h := by
    simp only [Scalar.identical, Real.Marked.identical, Bool.and_eq_true, beq_iff_eq] at h ⊢
    grind
  identical_trans h h' := by
    simp only [Scalar.identical, Real.Marked.identical, Bool.and_eq_true, beq_iff_eq] at h h' ⊢
    grind
  isNaN_of_identical h := by
    simp only [Scalar.identical, Real.Marked.identical, Bool.and_eq_true] at h
    exact h.1.1.1
  nan_isNaN {x} h := ComparedByValue.nan_isNaN (F := F) (x := x.number) h
  nan_not_identical x := by
    simp [Scalar.identical, Real.Marked.identical, Scalar.nan, Real.Marked.plain]

theorem Number.intEq_iff {n : Int} {x : F} :
    intEq n x = true ↔ Scalar.floor? x = some n ∧ Scalar.eq x (Scalar.ofInt n) = true := by
  unfold intEq isIntegral
  cases Scalar.floor? x with
  | none => simp
  | some m =>
    simp only [Bool.and_eq_true, beq_iff_eq, Option.some.injEq]
    constructor
    · rintro ⟨h, rfl⟩
      exact ⟨rfl, h⟩
    · rintro ⟨rfl, h⟩
      exact ⟨h, rfl⟩

namespace PlainNumber

variable [ComparedByValue F] {x y z : PlainNumber F}

omit [ComparedByValue F] in
theorem found_of_eq (h : x.eq y = true) : x.found y = true := by
  cases x <;> cases y <;> simp_all [found, found.samePart, eq]

theorem eq_symm (h : x.eq y = true) : y.eq x = true := by
  cases x <;> cases y <;>
    simp only [eq, Bool.and_eq_true, beq_iff_eq] at h ⊢ <;>
    grind [ComparedByValue.symm]

theorem eq_trans (h : x.eq y = true) (h' : y.eq z = true) : x.eq z = true := by
  cases x <;> cases y <;> cases z <;>
    simp only [eq, Bool.and_eq_true, beq_iff_eq, Scalar.isZero, Number.intEq_iff] at h h' ⊢ <;>
    grind [ComparedByValue.symm, ComparedByValue.trans, ComparedByValue.floor_eq]

theorem found_symm (h : x.found y = true) : y.found x = true := by
  cases x <;> cases y <;>
    simp only [found, found.samePart, eq, Bool.and_eq_true, Bool.or_eq_true, beq_iff_eq] at h ⊢ <;>
    grind [ComparedByValue.symm, ComparedByValue.identical_symm]

theorem not_eq_of_identical {x y z : F} (h : Scalar.identical x y = true) :
    Scalar.eq y z = false ∧ Scalar.eq z x = false := by
  have hx := ComparedByValue.isNaN_of_identical h
  have hy := ComparedByValue.isNaN_of_identical (ComparedByValue.identical_symm h)
  rw [← Bool.not_eq_true, ← Bool.not_eq_true]
  refine ⟨fun heq => ?_, fun heq => ?_⟩
  · rw [ComparedByValue.isNumber heq] at hy
    cases hy
  · rw [ComparedByValue.isNumber (ComparedByValue.symm heq)] at hx
    cases hx

theorem found_trans (h : x.found y = true) (h' : y.found z = true) : x.found z = true := by
  cases x <;> cases y <;> cases z <;>
    simp only [found, found.samePart, eq, Bool.and_eq_true, Bool.or_eq_true, beq_iff_eq, Scalar.isZero,
      Number.intEq_iff] at h h' ⊢ <;>
    grind [ComparedByValue.symm, ComparedByValue.trans, ComparedByValue.floor_eq,
      ComparedByValue.identical_trans, not_eq_of_identical]

end PlainNumber

namespace Value

omit [Scalar F] in
theorem areKeys_iff {vs : List (Value F)} : areKeys vs = true ↔ ∀ v ∈ vs, isKey v = true := by
  induction vs with
  | nil => simp [areKeys]
  | cons v vs ih => rw [areKeys, Bool.and_eq_true, ih, List.forall_mem_cons]

/-- What a key is found under: a number under every number of the same value, what equals nothing under
itself, anything else under a key that is built the same way from such parts. -/
inductive Alike : Value F → Value F → Prop
  | number {a b : Value F} {x y : PlainNumber F} :
    number? a = some x → number? b = some y → x.found y = true → Alike a b
  | null : Alike null null
  | ellipsis : Alike ellipsis ellipsis
  | str (s : String) : Alike (str s) (str s)
  | bytes (octets : List UInt8) : Alike (bytes octets) (bytes octets)
  | function {f g : Callable} : sameFunction f g = true → Alike (function f) (function g)
  | expression {e e' : Expression} : e.text = e'.text → Alike (expression e) (expression e')
  | unit : Alike (tuple []) (tuple [])
  | cons {a b : Value F} {as bs : List (Value F)} :
    Alike a b → Alike (tuple as) (tuple bs) → Alike (tuple (a :: as)) (tuple (b :: bs))

theorem alike_of_number {a b : Value F} {x : PlainNumber F} (ha : number? a = some x) :
    Alike a b ↔ ∃ y, number? b = some y ∧ x.found y = true := by
  constructor
  · intro h
    cases h with
    | number hx hy h =>
      obtain rfl := Option.some.inj (ha.symm.trans hx)
      exact ⟨_, hy, h⟩
    | _ => simp [number?] at ha
  · rintro ⟨y, hy, h⟩
    exact .number ha hy h

def numbersEqual? (x y : Option (PlainNumber F)) : Except Fault Bool :=
  match x, y with
  | some x, some y => .ok (x.eq y)
  | _, _ => .ok false

theorem equal_of_number {a b : Value F} {x : PlainNumber F} (ha : number? a = some x)
    (hb : isKey b = true) : equal? a b = .ok ((number? b).any (x.eq ·)) := by
  have hdefault : equal? a b = numbersEqual? (number? a) (number? b) := by
    cases a <;> simp only [number?, reduceCtorEq] at ha <;> cases b <;>
      first | rfl | simp [isKey] at hb
  rw [hdefault, ha]
  cases number? b <;> rfl

omit [Scalar F] in
theorem isKey_of_number {a : Value F} {x : PlainNumber F} (ha : number? a = some x) :
    isKey a = true := by
  cases a <;> first | rfl | simp [number?] at ha

theorem number_of_sameNumber {a b : Value F} (h : sameNumber a b = true) :
    ∃ x y, number? a = some x ∧ number? b = some y ∧ x.found y = true := by
  unfold sameNumber at h
  split at h
  · rename_i x y hx hy
    exact ⟨x, y, hx, hy, h⟩
  · cases h

theorem found_of_equal {a b : Value F} {r : Bool} (h : equal? a b = .ok r) :
    found a b = (sameNumber a b || r) := by
  simp [found, same, h]

theorem equal_of_found {a b : Value F} (h : found a b = true) : ∃ r, equal? a b = .ok r := by
  rw [found, Bool.or_eq_true] at h
  rcases h with h | h
  · obtain ⟨x, y, hx, hy, -⟩ := number_of_sameNumber h
    exact ⟨_, equal_of_number hx (isKey_of_number hy)⟩
  · unfold same at h
    split at h
    · exact ⟨_, ‹_›⟩
    · cases h

theorem equalItems_cons {a b : Value F} {as bs : List (Value F)} :
    equalItems? (a :: as) (b :: bs) = .ok true ↔
      as.length = bs.length ∧ found a b = true ∧ equalItems? as bs = .ok true := by
  rw [equalItems?]
  by_cases hlen : as.length = bs.length
  · simp only [hlen, bne_self_eq_false, Bool.false_eq_true, if_false, bind_eq_ok,
      true_and]
    refine ⟨fun h => ?_, fun h => ?_⟩
    · obtain ⟨r, hr, h⟩ := h
      rw [← found_of_equal hr] at h
      cases hfound : found a b with
      | true => exact ⟨rfl, by simpa [hfound] using h⟩
      | false => simp [hfound] at h
    · obtain ⟨hfound, h⟩ := h
      obtain ⟨r, hr⟩ := equal_of_found hfound
      refine ⟨r, hr, ?_⟩
      rw [← found_of_equal hr, hfound]
      exact h
  · simp [hlen, pure, Except.pure]

theorem Alike.length_eq {a b : Value F} (h : Alike a b) {as bs : List (Value F)}
    (ha : a = tuple as) (hb : b = tuple bs) : as.length = bs.length := by
  induction h generalizing as bs with
  | number hx =>
    subst ha
    simp [number?] at hx
  | unit =>
    cases ha
    cases hb
    rfl
  | cons _ _ _ ih =>
    cases ha
    cases hb
    rw [List.length_cons, List.length_cons, ih rfl rfl]
  | _ => cases ha

theorem found_tuple {as bs : List (Value F)} :
    found (tuple as) (tuple bs) = true ↔ equalItems? as bs = .ok true := by
  have hitems : equal? (tuple as) (tuple bs) = equalItems? as bs := by rw [equal?]
  have hnumber : sameNumber (tuple as) (tuple bs) = false := rfl
  rw [found, hnumber, Bool.false_or, same, hitems]
  cases equalItems? as bs <;> simp

theorem found_of_alike {a b : Value F} (h : Alike a b) : found a b = true := by
  induction h with
  | number hx hy h => simp [found, sameNumber, hx, hy, h]
  | null | ellipsis | unit => rfl
  | str | bytes => simp [found, same, equal?]
  | function h => simpa [found, same, equal?] using .inr h
  | expression h => simpa [found, same, equal?] using .inr h
  | cons _ h ih ih' =>
    exact found_tuple.2 (equalItems_cons.2 ⟨h.length_eq rfl rfl, ih, found_tuple.1 ih'⟩)

theorem alike_of_sameNumber {a b : Value F} (h : sameNumber a b = true) : Alike a b := by
  obtain ⟨x, y, hx, hy, h⟩ := number_of_sameNumber h
  exact .number hx hy h

theorem alike_of_any {a b : Value F} {x : PlainNumber F} (ha : number? a = some x)
    (h : (number? b).any (x.eq ·) = true) : Alike a b := by
  obtain ⟨y, hy, h⟩ := (Option.any_eq_true _ _).1 h
  exact .number ha hy (PlainNumber.found_of_eq h)

mutual

theorem alike_of_equal : ∀ {a b : Value F}, isKey a = true → isKey b = true →
    equal? a b = .ok true → Alike a b
  | .tuple as, b, ha, hb, h => by
    cases b with
    | tuple bs => exact alike_of_equalItems ha hb h
    | _ => simp_all [equal?, number?, isKey]
  | .null, b, _, hb, h => by
    cases b <;> simp_all [equal?, number?, isKey, Alike.null]
  | .ellipsis, b, _, hb, h => by
    cases b <;> simp_all [equal?, number?, isKey, Alike.ellipsis]
  | .function _, b, _, hb, h => by
    cases b <;> simp_all [equal?, number?, isKey, Alike.function]
  | .expression _, b, _, hb, h => by
    cases b <;> simp_all [equal?, number?, isKey, Alike.expression]
  | .str _, b, _, hb, h => by
    cases b <;> simp_all [equal?, number?, isKey, Alike.str]
  | .bytes _, b, _, hb, h => by
    cases b <;> simp_all [equal?, number?, isKey, Alike.bytes]
  | .bool _, b, _, hb, h | .int _, b, _, hb, h | .float _, b, _, hb, h
  | .complex _ _, b, _, hb, h => by
    rw [equal_of_number rfl hb, Except.ok.injEq] at h
    exact alike_of_any rfl h
  | .cell kind v, b, _, hb, h => by
    cases hv : number? (.cell kind v) with
    | some x =>
      rw [equal_of_number hv hb, Except.ok.injEq] at h
      exact alike_of_any hv h
    | none => cases b <;> simp_all [equal?, isKey]
  | .list _, _, ha, _, _ | .dict _, _, ha, _, _ | .slice .., _, ha, _, _ | .array .., _, ha, _, _
  | .series .., _, ha, _, _ | .table .., _, ha, _, _ | .sparse .., _, ha, _, _ => by
    simp [isKey] at ha

theorem alike_of_equalItems : ∀ {as bs : List (Value F)}, areKeys as = true → areKeys bs = true →
    equalItems? as bs = .ok true → Alike (tuple as) (tuple bs)
  | [], bs, _, _, h => by
    cases bs with
    | nil => exact .unit
    | cons b bs => simp [equalItems?] at h
  | a :: as, [], _, _, h => by
    simp [equalItems?] at h
  | a :: as, b :: bs, ha, hb, h => by
    simp only [areKeys, Bool.and_eq_true] at ha hb
    obtain ⟨-, h, h'⟩ := equalItems_cons.1 h
    refine .cons ?_ (alike_of_equalItems ha.2 hb.2 h')
    obtain ⟨r, hr⟩ := equal_of_found h
    rw [found_of_equal hr, Bool.or_eq_true] at h
    rcases h with h | rfl
    · exact alike_of_sameNumber h
    · exact alike_of_equal ha.1 hb.1 hr

end

theorem alike_of_same {a b : Value F} (ha : isKey a = true) (hb : isKey b = true)
    (h : same a b = true) : Alike a b := by
  refine alike_of_equal ha hb ?_
  unfold same at h
  split at h
  · rename_i r hr
    rw [hr, h]
  · cases h

theorem found_iff {a b : Value F} (ha : isKey a = true) (hb : isKey b = true) :
    found a b = true ↔ Alike a b := by
  refine ⟨fun h => ?_, found_of_alike⟩
  rw [found, Bool.or_eq_true] at h
  exact h.elim alike_of_sameNumber (alike_of_same ha hb)

section Laws

omit [Scalar F] in
theorem sameFunction_symm {f g : Callable} (h : sameFunction f g = true) : sameFunction g f = true := by
  cases f <;> cases g <;> simp_all [sameFunction]

theorem sameFunction_trans {f g k : Callable} (h : sameFunction f g = true)
    (h' : sameFunction g k = true) : sameFunction f k = true := by
  cases f <;> cases g <;> simp only [sameFunction, Bool.false_eq_true] at h <;>
    cases k <;> simp_all [sameFunction]

variable [ComparedByValue F] {a b c : Value F}

theorem Alike.symm (h : Alike a b) : Alike b a := by
  induction h with
  | number hx hy h => exact .number hy hx (PlainNumber.found_symm h)
  | null => exact .null
  | ellipsis => exact .ellipsis
  | str s => exact .str s
  | bytes octets => exact .bytes octets
  | function h => exact .function (sameFunction_symm h)
  | expression h => exact .expression h.symm
  | unit => exact .unit
  | cons _ _ ih ih' => exact .cons ih ih'

theorem Alike.trans (h : Alike a b) (h' : Alike b c) : Alike a c := by
  induction h generalizing c with
  | number hx hy h =>
    obtain ⟨z, hz, h'⟩ := (alike_of_number hy).1 h'
    exact .number hx hz (PlainNumber.found_trans h h')
  | null | ellipsis | str | bytes | unit => exact h'
  | function h =>
    cases h' with
    | number hy => simp [number?] at hy
    | function h' => exact .function (sameFunction_trans h h')
  | expression h =>
    cases h' with
    | number hy => simp [number?] at hy
    | expression h' => exact .expression (h.trans h')
  | cons _ _ ih ih' =>
    cases h' with
    | number hy => simp [number?] at hy
    | cons h h' => exact .cons (ih h) (ih' h')

end Laws

end Value

end AdditiveModel
