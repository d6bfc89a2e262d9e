import AdditiveModel.Proofs.Blocks

/-! Signs of numbers. A posterior accepts a hyperparameter when its value is not zero or less and its
deviation is not negative; then the deviation on the log scale, their quotient, is not negative. -/

namespace AdditiveModel

/-- The sign of a number agrees with its order against zero, and a quotient has the sign of its
numerator where the denominator has none. -/
class SignRules (F : Type) [Scalar F] : Prop where
  not_lt {x : F} : Scalar.signed x = false → Scalar.lt x Scalar.zero = false
  not_lt_of_ltInt {x : F} : Number.ltInt x 0 = false → Scalar.lt x Scalar.zero = false
  not_signed_of_intLt {x : F} : Number.intLt 0 x = true → Scalar.signed x = false
  not_signed_ofInt {n : Int} : 0 ≤ n → Scalar.signed (Scalar.ofInt n : F) = false
  div_not_lt {x y : F} : Scalar.signed x = false ∨ Scalar.isNaN x = true →
    Scalar.lt y Scalar.zero = false → Scalar.lt (y / x) Scalar.zero = false

instance : SignRules ℚ where
  not_lt {x} h := by simpa [Scalar.signed, Scalar.lt, Scalar.zero, Scalar.ofInt] using h
  not_lt_of_ltInt {x} h := by
    have hfloor : 0 ≤ x.floor := by simpa [Number.ltInt, Scalar.floor?] using h
    simpa [Scalar.lt, Scalar.zero, Scalar.ofInt] using Rat.le_floor_iff.1 hfloor
  not_signed_of_intLt {x} h := by
    have hfloor : 0 ≤ x.floor := by
      simp only [Number.intLt, Scalar.floor?, Bool.or_eq_true, Bool.and_eq_true, decide_eq_true_eq,
        beq_iff_eq] at h
      omega
    simpa [Scalar.signed] using Rat.le_floor_iff.1 hfloor
  not_signed_ofInt {n} h := by simpa [Scalar.signed, Scalar.ofInt] using h
  div_not_lt {x y} hx hy := by
    have hx : 0 ≤ x := by simpa [Scalar.signed, Scalar.isNaN] using hx
    have hy : 0 ≤ y := by simpa [Scalar.lt, Scalar.zero, Scalar.ofInt] using hy
    simpa [Scalar.lt, Scalar.zero, Scalar.ofInt] using div_nonneg hy hx

namespace SignRules

variable {F : Type} [Scalar F]

theorem ofInt_eq_ok {n : Int} {x : F} (h : (Number.ofInt? n : Except Fault F) = .ok x) :
    x = Scalar.ofInt n := by
  have hopen : Number.ofInt? n =
      if Scalar.isFinite (Scalar.ofInt n : F) then .ok (Scalar.ofInt n : F) else .error .overflow := rfl
  rw [hopen] at h
  split at h
  · exact (Except.ok.inj h).symm
  · cases h

def intAtZero (orEqual : Bool) (n : Int) : Bool := decide (n < 0) || orEqual && !decide (0 < n)

def realAtZero (orEqual : Bool) (x : F) : Bool :=
  Number.ltInt x 0 || orEqual && !Number.intLt 0 x && !Scalar.isNaN x

theorem less_int (orEqual : Bool) (v : Value F) (n : Int) : Value.less? orEqual v (.int n) =
    match v.number? with
    | some p =>
      match p.lt? (.int n), (PlainNumber.int n).lt? p with
      | some before, some after =>
        .ok (before || (orEqual && !after && !p.isNaN && !(PlainNumber.int (F := F) n).isNaN))
      | _, _ => .error .type
    | none => .error .type := by
  cases v with
  | cell kind v => cases v <;> rfl
  | _ => rfl

theorem less_zero {orEqual b : Bool} {v : Value F} (h : Value.less? orEqual v (.int 0) = .ok b) :
    (∃ n, v.number? = some (.int n) ∧ b = intAtZero orEqual n) ∨
      ∃ x, v.number? = some (.real x) ∧ b = realAtZero orEqual x := by
  rw [less_int] at h
  rcases hnumber : v.number? with _ | p
  · rw [hnumber] at h
    cases h
  rw [hnumber] at h
  cases p with
  | int n => exact .inl ⟨n, rfl, by simpa [PlainNumber.lt?, PlainNumber.isNaN, intAtZero] using h.symm⟩
  | real x => exact .inr ⟨x, rfl, by simpa [PlainNumber.lt?, PlainNumber.isNaN, realAtZero] using h.symm⟩
  | complex p => cases h

theorem toReal_of_number {v : Value F} {x : F} (hx : v.toReal? = .ok x) :
    (∀ n, v.number? = some (.int n) → x = Scalar.ofInt n) ∧ ∀ y, v.number? = some (.real y) → x = y := by
  have hint {n : Int} (hn : v.number? = some (.int n)) (hx : Number.ofInt? n = .ok x) :
      (∀ m, v.number? = some (.int m) → x = Scalar.ofInt m) ∧
        ∀ y, v.number? = some (.real y) → x = y := by
    simp [hn, ofInt_eq_ok hx]
  cases v with
  | cell kind v =>
    cases v with
    | int n => exact hint rfl hx
    | _ => simp_all [Value.number?, Value.toReal?]
  | int n => exact hint rfl hx
  | _ => simp_all [Value.number?, Value.toReal?]

theorem compared_zero {orEqual b : Bool} {v : Value F} {x : F}
    (h : Value.less? orEqual v (.int 0) = .ok b) (hx : v.toReal? = .ok x) :
    (∃ n : Int, x = Scalar.ofInt n ∧ b = intAtZero orEqual n) ∨ b = realAtZero orEqual x := by
  rcases less_zero h with ⟨n, hn, hb⟩ | ⟨y, hy, hb⟩
  · exact .inl ⟨n, (toReal_of_number hx).1 n hn, hb⟩
  · obtain rfl := (toReal_of_number hx).2 y hy
    exact .inr hb

variable [SignRules F]

end SignRules

namespace Gaussian

variable {F : Type} [Scalar F] [SignRules F]

end Gaussian

end AdditiveModel
