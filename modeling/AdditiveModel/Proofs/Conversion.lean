import AdditiveModel.Proofs.Outcome
import AdditiveModel.Value.Coercion

/-! Why a value is no array of real numbers. Of all elementary failures three can be met: something is no
number, a text or a shape does not fit, or an integer is too large. -/

namespace AdditiveModel

variable {F : Type} [Scalar F]

def Fault.OfReals (f : Fault) : Prop := f = .type ∨ f = .value ∨ f = .overflow

theorem Fault.ofReals_type : OfReals .type := .inl rfl

theorem Fault.ofReals_value : OfReals .value := .inr (.inl rfl)

theorem Fault.ofReals_overflow : OfReals .overflow := .inr (.inr rfl)

namespace Value

open Fault

theorem toReal_fails (v : Value F) : FailsOnly OfReals v.toReal? := by
  have hint (n : Int) : FailsOnly OfReals (Number.ofInt? n : Except Fault F) :=
    .ite (.ok _) (.error ofReals_overflow)
  have htext (s : String) : FailsOnly OfReals (textToReal? s : Except Fault F) := by
    unfold textToReal?
    split
    · exact .ok _
    · exact .error ofReals_value
  unfold toReal?
  split
  all_goals first
    | with_reducible exact .ok _
    | with_reducible exact hint _
    | with_reducible exact htext _
    | with_reducible exact .error ofReals_type

theorem elementToReal_fails (v : Value F) : FailsOnly OfReals v.elementToReal? := by
  unfold elementToReal?
  split
  all_goals first
    | with_reducible exact .ok _
    | with_reducible exact .error ofReals_value
    | with_reducible exact toReal_fails _

theorem cellToReal_fails (kind : Kind) (v : Value F) : FailsOnly OfReals (Grid.cellToReal? kind v) := by
  unfold Grid.cellToReal?
  split
  · exact .ok _
  · exact elementToReal_fails _

theorem toInt_fails (v : Value F) : FailsOnly OfReals v.toInt? := by
  have hreal (x : F) : FailsOnly OfReals (truncate? x) := by
    unfold truncate?
    split
    · exact .ok _
    · exact .ite (.error ofReals_value) (.error ofReals_overflow)
  have htext (s : String) : FailsOnly OfReals (textToInt? s) := by
    unfold textToInt?
    split
    · exact .ok _
    · exact .error ofReals_value
  unfold toInt?
  split
  all_goals first
    | with_reducible exact .ok _
    | with_reducible exact hreal _
    | with_reducible exact htext _
    | with_reducible exact .error ofReals_type

theorem cast_fails (kind : Kind) (v : Value F) : FailsOnly OfReals (v.cast? kind) := by
  unfold cast?
  split
  all_goals first
    | with_reducible exact .ok _
    | with_reducible exact (elementToReal_fails _).map
    | with_reducible exact (toInt_fails _).bind fun n _ => .ite (.ok _) (.error ofReals_overflow)

theorem tableGrid_fails (rows : Nat) (columns : List (String × Kind × List (Value F))) :
    FailsOnly OfReals (tableGrid rows columns) :=
  .bind (.mapM fun _ _ => .ite (.ok _) (.mapM fun _ _ => cast_fails _ _)) fun _ _ => .ok _

mutual

theorem realsOfValue_fails : ∀ v : Value F, FailsOnly OfReals (Grid.realsOfValue v)
  | .list items | .tuple items => by
    refine (realsOfValues_fails items).bind fun parts _ => ?_
    split
    · exact .ok _
    · exact .ite (.ok _) (.error ofReals_value)
  | .array .. | .series .. => FailsOnly.map (.mapM fun _ _ => cellToReal_fails _ _)
  | .table _ _ => (tableGrid_fails _ _).bind fun g _ =>
    .bind (.mapM fun _ _ => cellToReal_fails _ _) fun _ _ => .ok _
  | .cell .. => (cellToReal_fails _ _).map
  | .null | .bool _ | .int _ | .float _ | .complex .. | .str _ | .bytes _ | .dict _ | .function _
  | .expression _ | .ellipsis | .slice .. | .sparse .. => by
    unfold Grid.realsOfValue
    exact (elementToReal_fails _).map

theorem realsOfValues_fails : ∀ vs : List (Value F), FailsOnly OfReals (Grid.realsOfValues vs)
  | [] => .ok _
  | v :: vs => (realsOfValue_fails v).bind fun _ _ => (realsOfValues_fails vs).bind fun _ _ => .ok _

end

theorem vector_fails (v : Value F) : FailsOnly OfReals v.vector? := by
  unfold vector?
  split
  · exact .ok _
  · exact (realsOfValue_fails v).map

end Value

end AdditiveModel
