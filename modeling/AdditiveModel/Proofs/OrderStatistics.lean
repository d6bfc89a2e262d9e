import AdditiveModel.Proofs.ExactOrder
import AdditiveModel.Summary.Quantile
import Mathlib.Data.List.GetD

/-! Quantiles of exact numbers. In ascending order a quantile lies on the line between the two numbers next
to its place, so it grows with the probability between two numbers and also from one pair to the next. The
order in which the numbers are given does not matter. -/

namespace AdditiveModel.Quantile

open Scalar

variable {F : Type} [Scalar F] [ExactOrder F] {xs ys : List F} {p q : F}

theorem ascending_sorted (xs : List F) : (ascending xs).Pairwise (le · · = true) := by
  have htotal (x y : F) : (le x y || le y x) = true := Bool.or_eq_true_iff.2 (ExactOrder.le_total x y)
  have htrans (x y z : F) : le x y = true → le y z = true → le x z = true := ExactOrder.le_trans
  exact List.pairwise_mergeSort htrans htotal xs

/-- Numbers in ascending order are the same in whatever order they were given. -/
theorem ascending_perm (h : xs.Perm ys) : ascending xs = ascending ys := by
  have hperm : (ascending xs).Perm (ascending ys) :=
    ((List.mergeSort_perm xs le).trans h).trans (List.mergeSort_perm ys le).symm
  exact hperm.eq_of_pairwise (fun _ _ _ _ => ExactOrder.le_antisymm) (ascending_sorted xs)
    (ascending_sorted ys)

def ranked (xs : List F) (i : Nat) : F := xs.getD (min i (xs.length - 1)) nan

omit [ExactOrder F] in
theorem ranked_eq (hne : xs ≠ []) (i : Nat) : ∃ h, ranked xs i = xs.get ⟨min i (xs.length - 1), h⟩ := by
  have hpos : 0 < xs.length := List.length_pos_of_ne_nil hne
  have hlt : min i (xs.length - 1) < xs.length := by omega
  exact ⟨hlt, List.getD_eq_getElem _ _ hlt⟩

omit [ExactOrder F] in
theorem ranked_mem (hne : xs ≠ []) (i : Nat) : ranked xs i ∈ xs := by
  obtain ⟨hlt, heq⟩ := ranked_eq hne i
  rw [heq]
  exact List.getElem_mem hlt

theorem ranked_mono (hne : xs ≠ []) (hsorted : xs.Pairwise (le · · = true)) {i j : Nat} (hij : i ≤ j) :
    le (ranked xs i) (ranked xs j) = true := by
  let := ExactOrder.linearOrder F
  obtain ⟨hi, heq⟩ := ranked_eq hne i
  obtain ⟨hj, heq'⟩ := ranked_eq hne j
  rw [heq, heq']
  rcases Nat.lt_or_ge (min i (xs.length - 1)) (min j (xs.length - 1)) with hlt | hge
  · exact List.pairwise_iff_getElem.1 hsorted _ _ hi hj hlt
  · have hsame : min i (xs.length - 1) = min j (xs.length - 1) := by omega
    simp only [hsame]
    exact le_refl (xs.get ⟨min j (xs.length - 1), hj⟩)

/-- From whichever neighbour a point is computed, it is on the line from the first to the second. -/
theorem between_eq (a b t : F) : between a b t = a + (b - a) * t := by
  let := Exact.commRing F
  unfold between
  split
  · change b - (b - a) * (1 - t) = _
    ring
  · rfl

/-- The place of a quantile among numbers in ascending order: a rank and a fraction of the way to the next
one. -/
structure Place (xs : List F) (p : F) (k : Nat) (t : F) : Prop where
  nonneg : le zero t = true
  lt_one : lt t one = true
  place : ofInt (xs.length - 1 : Nat) * p = ofInt k + t
  value : ofSorted xs p = between (ranked xs k) (ranked xs (k + 1)) t

theorem last_nonneg (xs : List F) : le zero (ofInt (xs.length - 1 : Nat) : F) = true := by
  let := Exact.commRing F
  let := ExactOrder.linearOrder F
  have := ExactOrder.isStrictOrderedRing F
  have hlast : (0 : F) ≤ ofInt (xs.length - 1 : Nat) := by
    rw [ExactOrder.ofInt_eq, Int.cast_nonneg_iff]
    omega
  exact hlast

theorem exists_place (xs : List F) (hzero : le zero p = true) (hone : le p one = true) :
    ∃ k t, Place xs p k t := by
  let := Exact.commRing F
  let := ExactOrder.linearOrder F
  have := ExactOrder.isStrictOrderedRing F
  obtain ⟨k, hfloor, hlow, hhigh⟩ := ExactOrder.exists_floor (ofInt (xs.length - 1 : Nat) * p)
  have hlast : (0 : F) ≤ ofInt (xs.length - 1 : Nat) := last_nonneg xs
  have hk : 0 ≤ k := by
    have hlt : (0 : F) < ofInt (k + 1) := lt_of_le_of_lt (mul_nonneg hlast hzero) hhigh
    rw [ExactOrder.ofInt_eq, Int.cast_pos] at hlt
    omega
  have hbound : k ≤ (xs.length - 1 : Nat) := by
    have hle : (ofInt k : F) ≤ ofInt (xs.length - 1 : Nat) :=
      le_trans hlow (mul_le_of_le_one_right hlast hone)
    rwa [ExactOrder.ofInt_eq, ExactOrder.ofInt_eq, Int.cast_le] at hle
  lift k to Nat using hk
  have hnonneg : 0 ≤ ofInt (xs.length - 1 : Nat) * p - ofInt k := sub_nonneg.2 hlow
  refine ⟨k, ofInt (xs.length - 1 : Nat) * p - ofInt k, hnonneg, ?_, ?_, ?_⟩
  · rw [ExactOrder.ofInt_add] at hhigh
    have hlt : ofInt (xs.length - 1 : Nat) * p < ofInt k + 1 := hhigh
    exact sub_lt_iff_lt_add'.2 hlt
  · exact (add_sub_cancel _ _).symm
  · have hmin : min k (xs.length - 1) = k := by omega
    simp only [ofSorted, hfloor, Int.toNat_natCast, ranked, hmin]

section Place

variable {k l : Nat} {t u : F} (hne : xs ≠ []) (hsorted : xs.Pairwise (le · · = true))

include hne hsorted

theorem Place.between_neighbours (h : Place xs p k t) :
    le (ranked xs k) (ofSorted xs p) = true ∧ le (ofSorted xs p) (ranked xs (k + 1)) = true := by
  let := Exact.commRing F
  let := ExactOrder.linearOrder F
  have := ExactOrder.isStrictOrderedRing F
  have hnonneg : 0 ≤ t := h.nonneg
  have hone : t ≤ 1 := le_of_lt h.lt_one
  have hgap : 0 ≤ ranked xs (k + 1) - ranked xs k := sub_nonneg.2 (ranked_mono hne hsorted k.le_succ)
  rw [h.value, between_eq]
  refine ⟨le_add_of_nonneg_right (mul_nonneg hgap hnonneg), ?_⟩
  calc ranked xs k + (ranked xs (k + 1) - ranked xs k) * t
      ≤ ranked xs k + (ranked xs (k + 1) - ranked xs k) :=
        add_le_add le_rfl (mul_le_of_le_one_right hgap hone)
    _ = ranked xs (k + 1) := add_sub_cancel _ _

/-- Quantiles grow with their places: on one line with the fraction, and from one line to another because
the first ends where the second has not yet begun. -/
theorem Place.mono (h : Place xs p k t) (h' : Place xs q l u) (hle : le p q = true) :
    le (ofSorted xs p) (ofSorted xs q) = true := by
  let := Exact.commRing F
  let := ExactOrder.linearOrder F
  have := ExactOrder.isStrictOrderedRing F
  have hplaces : (ofInt k + t : F) ≤ ofInt l + u := by
    rw [← h.place, ← h'.place]
    exact mul_le_mul_of_nonneg_left hle (last_nonneg xs)
  have hranks : k ≤ l := by
    have hlt : (ofInt k : F) < ofInt (l + 1) := by
      rw [ExactOrder.ofInt_add]
      exact lt_of_le_of_lt (le_trans (le_add_of_nonneg_right h.nonneg) hplaces)
        (add_lt_add_right h'.lt_one (ofInt l))
    rw [ExactOrder.ofInt_eq, ExactOrder.ofInt_eq, Int.cast_lt] at hlt
    omega
  rcases Nat.eq_or_lt_of_le hranks with rfl | hlt
  · have hfractions : t ≤ u := le_of_add_le_add_left hplaces
    have hgap : 0 ≤ ranked xs (k + 1) - ranked xs k := sub_nonneg.2 (ranked_mono hne hsorted k.le_succ)
    rw [h.value, h'.value, between_eq, between_eq]
    exact add_le_add le_rfl (mul_le_mul_of_nonneg_left hfractions hgap)
  · calc ofSorted xs p ≤ ranked xs (k + 1) := (h.between_neighbours hne hsorted).2
      _ ≤ ranked xs l := ranked_mono hne hsorted hlt
      _ ≤ ofSorted xs q := (h'.between_neighbours hne hsorted).1

end Place

theorem ofList_eq (xs : List F) (p : F) : ofList xs p = ofSorted (ascending xs) p := by
  have hnumbers : xs.any isNaN = false := by simp [ExactOrder.isNaN_eq]
  rw [ofList, hnumbers, if_neg Bool.false_ne_true]

theorem ofList_perm (h : xs.Perm ys) (p : F) : ofList xs p = ofList ys p := by
  rw [ofList_eq, ofList_eq, ascending_perm h]

omit [ExactOrder F] in
theorem mem_ascending {x : F} : x ∈ ascending xs ↔ x ∈ xs := (List.mergeSort_perm xs le).mem_iff

omit [ExactOrder F] in
theorem ascending_ne_nil (hne : xs ≠ []) : ascending xs ≠ [] := by
  simpa [ascending, ← List.length_eq_zero_iff] using hne

theorem exists_extremes (hne : xs ≠ []) :
    ∃ least ∈ xs, ∃ greatest ∈ xs, ∀ x ∈ xs, le least x = true ∧ le x greatest = true := by
  have hne := ascending_ne_nil hne
  refine ⟨_, mem_ascending.1 (ranked_mem hne 0), _,
    mem_ascending.1 (ranked_mem hne ((ascending xs).length - 1)), fun x hx => ?_⟩
  obtain ⟨k, hk, hx⟩ := List.getElem_of_mem (mem_ascending.2 hx)
  obtain rfl : ranked (ascending xs) k = x := by
    have hmin : min k ((ascending xs).length - 1) = k := by omega
    rw [← hx, ranked, hmin, List.getD_eq_getElem _ _ hk]
  exact ⟨ranked_mono hne (ascending_sorted xs) k.zero_le,
    ranked_mono hne (ascending_sorted xs) (Nat.le_sub_one_of_lt hk)⟩

theorem ofList_between {a b : F} (hne : xs ≠ []) (hzero : le zero p = true) (hone : le p one = true)
    (ha : ∀ x ∈ xs, le a x = true) (hb : ∀ x ∈ xs, le x b = true) :
    le a (ofList xs p) = true ∧ le (ofList xs p) b = true := by
  have hne := ascending_ne_nil hne
  obtain ⟨k, t, hp⟩ := exists_place (ascending xs) hzero hone
  obtain ⟨hlow, hhigh⟩ := hp.between_neighbours hne (ascending_sorted xs)
  rw [ofList_eq]
  exact ⟨ExactOrder.le_trans (ha _ (mem_ascending.1 (ranked_mem hne k))) hlow,
    ExactOrder.le_trans hhigh (hb _ (mem_ascending.1 (ranked_mem hne (k + 1))))⟩

theorem ofList_mono (hne : xs ≠ []) (hzero : le zero p = true) (hle : le p q = true)
    (hone : le q one = true) : le (ofList xs p) (ofList xs q) = true := by
  obtain ⟨k, t, hp⟩ := exists_place (ascending xs) hzero (ExactOrder.le_trans hle hone)
  obtain ⟨l, u, hq⟩ := exists_place (ascending xs) (ExactOrder.le_trans hzero hle) hone
  rw [ofList_eq, ofList_eq]
  exact hp.mono (ascending_ne_nil hne) (ascending_sorted xs) hq hle

end AdditiveModel.Quantile
