import AdditiveModel.Proofs.Binary64Signs
import AdditiveModel.Proofs.Decomposition
import AdditiveModel.Proofs.Generators

/-! Samples of a posterior. The standard deviates of all latent vectors are asked for at once, one row
for each sample, and then the deviates of each hyperparameter, one for each sample. So every sample is
made of one row and of one deviate for each hyperparameter. -/

namespace AdditiveModel

open Run

variable {F : Type}

namespace Source

/-- From one source to another by requests of one generator and the deviates that answer them. -/
structure Took (g : Generator) (s t : Source F) (asked : List (Request F)) (count : Nat) : Prop where
  deviate : t.deviate = s.deviate
  position : t.position g = s.position g + count
  requests : t.requests = s.requests ++ asked

namespace Took

variable {g : Generator} {r s t : Source F} {asked more : List (Request F)} {m n : Nat}

theorem refl (g : Generator) (s : Source F) : Took g s s [] 0 :=
  ⟨rfl, rfl, (List.append_nil _).symm⟩

theorem trans (h : Took g r s asked m) (h' : Took g s t more n) : Took g r t (asked ++ more) (m + n) where
  deviate := h'.deviate.trans h.deviate
  position := by rw [h'.position, h.position, Nat.add_assoc]
  requests := by rw [h'.requests, h.requests, List.append_assoc]

end Took

end Source

open Source

variable [Scalar F]

namespace Gaussian

open Factor (Rows)

end Gaussian

end AdditiveModel
