import AdditiveModel.Posterior.Factor
import AdditiveModel.Proofs.Outcome
import AdditiveModel.Real.Instance

/-! The factor of a covariance, for decompositions that keep the shape of their matrix. It has a row for
each row of the covariance. It is missing where no triangular factor was found and the eigenvectors were
not found either. -/

namespace AdditiveModel.Factor

variable {F : Type}

/-- Decompositions have as many rows as the matrix. -/
class LawfulDecompositions (F : Type) [Decompositions F] : Prop where
  length_cholesky {A L : Rows F} : Decompositions.cholesky? A = some L → L.length = A.length
  length_eigh {A V : Rows F} {values : List F} :
    Decompositions.eigh? A = some (values, V) → V.length = A.length

variable [Scalar F]

/-- The eigenvectors of a finite matrix are found. -/
def Converges (F : Type) [Scalar F] [Decompositions F] : Prop :=
  ∀ A : Rows F, (∀ row ∈ A, ∀ x ∈ row, Scalar.isFinite x = true) →
    (Decompositions.eigh? A).isSome = true

section Elimination

theorem length_triangularFrom {done rows L : Rows F} (h : triangularFrom done rows = some L) :
    L.length = done.length + rows.length := by
  induction rows generalizing done with
  | nil =>
    cases h
    rfl
  | cons row rows ih =>
    rw [triangularFrom] at h
    split at h
    · rw [ih h, List.length_append, List.length_singleton, List.length_cons]
      omega
    · cases h

theorem length_triangular {A L : Rows F} (h : triangular? A = some L) : L.length = A.length := by
  obtain ⟨M, hM, rfl⟩ := Option.map_eq_some_iff.1 h
  rw [List.length_map, length_triangularFrom hM, List.length_nil, Nat.zero_add]

theorem length_rotate (n p q : Nat) (A V : Rows F) : (rotate n p q A V).2.length = V.length := by
  unfold rotate
  dsimp only
  split
  · rfl
  · exact List.length_map _

theorem length_eigen (n : Nat) (A : Rows F) : (eigen n A).2.length = n := by
  have hsweep (acc : Rows F × Rows F) : ((axisPairs n).foldl
      (fun (acc : Rows F × Rows F) (pair : Nat × Nat) => rotate n pair.1 pair.2 acc.1 acc.2) acc).2.length =
        acc.2.length := by
    generalize axisPairs n = pairs
    induction pairs generalizing acc with
    | nil => rfl
    | cons pair pairs ih => rw [List.foldl_cons, ih, length_rotate]
  unfold eigen
  dsimp only
  rw [List.length_map]
  generalize List.range sweeps = ks
  have hidentity : (build n n fun i j => if i == j then (Scalar.one : F) else Scalar.zero).length = n := by
    simp [build]
  revert hidentity
  generalize (build n n fun i j => if i == j then (Scalar.one : F) else Scalar.zero) = V
  intro hV
  induction ks generalizing A V with
  | nil => exact hV
  | cons k ks ih =>
    rw [List.foldl_cons]
    exact ih _ _ ((hsweep (A, V)).trans hV)

theorem eigh_byElimination (A : Rows F) : Decompositions.byElimination.eigh? A =
    if A.length > 1 && A.any (·.any fun x => !Scalar.isFinite x) then none
    else some (eigen A.length A) :=
  rfl

theorem byElimination_lawful : @LawfulDecompositions F .byElimination := by
  refine @LawfulDecompositions.mk F .byElimination length_triangular fun {A V values} h => ?_
  rw [eigh_byElimination] at h
  split at h
  · cases h
  · have hV : (eigen A.length A).2 = V := congrArg Prod.snd (Option.some.inj h)
    rw [← hV, length_eigen]

theorem byElimination_converges : @Converges F _ .byElimination := by
  intro A hA
  rw [eigh_byElimination, if_neg, Option.isSome_some]
  simp only [Bool.and_eq_true, List.any_eq_true, Bool.not_eq_true', not_and, not_exists]
  intro _ row hrow x hx
  rw [hA row hrow x hx]
  exact Bool.noConfusion

instance : LawfulDecompositions Float := byElimination_lawful

end Elimination

variable [Decompositions F]

end AdditiveModel.Factor
