import Mathlib.Algebra.BigOperators.Group.List.Basic
import Mathlib.Data.List.Forall2
import Mathlib.Data.List.Nodup

/-! Facts about lists that the library's own lists need: lists that agree item by item, lists cut into
parts of one length, and items that occur once. -/

namespace AdditiveModel

variable {α β γ : Type}

theorem forall₂_mem {R : α → β → Prop} {l : List α} {r : List β} (h : List.Forall₂ R l r) {b : β}
    (hb : b ∈ r) : ∃ a ∈ l, R a b := by
  induction h with
  | nil => simp at hb
  | cons hab _ ih =>
    rcases List.mem_cons.1 hb with rfl | hb
    · exact ⟨_, List.mem_cons_self, hab⟩
    · obtain ⟨a, ha, hr⟩ := ih hb
      exact ⟨a, List.mem_cons_of_mem _ ha, hr⟩

theorem forall₂_getElem? {R : α → β → Prop} {l : List α} {r : List β} (h : List.Forall₂ R l r)
    {i : Nat} {a : α} (ha : l[i]? = some a) : ∃ b, r[i]? = some b ∧ R a b := by
  induction h generalizing i with
  | nil => simp at ha
  | cons hab _ ih =>
    cases i with
    | zero =>
      cases ha
      exact ⟨_, rfl, hab⟩
    | succ i => exact ih ha

theorem forall₂_of_getElem? {R : α → β → Prop} {l : List α} {r : List β} (hlength : r.length = l.length)
    (h : ∀ (i : Nat) a, l[i]? = some a → ∃ b, r[i]? = some b ∧ R a b) : List.Forall₂ R l r := by
  refine List.forall₂_iff_get.2 ⟨hlength.symm, fun i hi hi' => ?_⟩
  obtain ⟨b, hb, hr⟩ := h i l[i] (List.getElem?_eq_getElem hi)
  obtain rfl : r[i] = b := Option.some_inj.1 ((List.getElem?_eq_getElem hi').symm.trans hb)
  exact hr

theorem forall₂_iff_of_mem {R S : α → β → Prop} {l : List α} {r : List β}
    (h : ∀ a ∈ l, ∀ b, R a b ↔ S a b) : List.Forall₂ R l r ↔ List.Forall₂ S l r := by
  induction l generalizing r with
  | nil => simp
  | cons a l ih =>
    simp only [List.mem_cons, forall_eq_or_imp] at h
    simp only [List.forall₂_cons_left_iff, h.1, ih h.2]

theorem forall₂_with_mem {R : α → β → Prop} {l : List α} {r : List β} (h : List.Forall₂ R l r) :
    List.Forall₂ (fun a b => a ∈ l ∧ R a b) l r := by
  induction h with
  | nil => exact .nil
  | cons hab _ ih =>
    exact .cons ⟨List.mem_cons_self, hab⟩ (ih.imp fun _ _ hr => ⟨List.mem_cons_of_mem _ hr.1, hr.2⟩)

theorem forall₂_trans {R : α → β → Prop} {S : β → γ → Prop} {l : List α} {m : List β} {r : List γ}
    (h : List.Forall₂ R l m) (h' : List.Forall₂ S m r) :
    List.Forall₂ (fun a c => ∃ b, R a b ∧ S b c) l r := by
  induction h generalizing r with
  | nil => rwa [List.forall₂_nil_left_iff] at h' ⊢
  | cons hab _ ih =>
    obtain ⟨c, r, hbc, htail, rfl⟩ := List.forall₂_cons_left_iff.1 h'
    exact .cons ⟨_, hab, hbc⟩ (ih htail)

theorem exists_forall₂ {R : α → β → Prop} {l : List α} (h : ∀ a ∈ l, ∃ b, R a b) :
    ∃ r, List.Forall₂ R l r := by
  induction l with
  | nil => exact ⟨[], .nil⟩
  | cons a l ih =>
    rw [List.forall_mem_cons] at h
    obtain ⟨b, hb⟩ := h.1
    obtain ⟨r, hr⟩ := ih h.2
    exact ⟨b :: r, .cons hb hr⟩

/-- Lists that agree item by item in what two functions say about the items. -/
theorem map_eq_of_forall₂ {f : α → γ} {g : β → γ} {l : List α} {r : List β}
    (h : List.Forall₂ (fun a b => g b = f a) l r) : r.map g = l.map f := by
  induction h with
  | nil => rfl
  | cons hab _ ih => rw [List.map_cons, List.map_cons, hab, ih]

theorem flatten_singletons (f : α → β) (l : List α) :
    (l.map fun a => [f a]).flatten = l.map f := by
  rw [← List.flatMap_def, ← List.map_eq_flatMap]

theorem map_singleton_flatten {parts : List (List α)} (h : ∀ p ∈ parts, p.length = 1) :
    (parts.flatten.map fun a => [a]) = parts := by
  induction parts with
  | nil => rfl
  | cons p parts ih =>
    simp only [List.mem_cons, forall_eq_or_imp] at h
    obtain ⟨a, rfl⟩ := List.length_eq_one_iff.1 h.1
    simp [ih h.2]

theorem forall₂_exists {R : α → γ → Prop} {f : γ → β} {l : List α} {r : List β} :
    List.Forall₂ (fun a b => ∃ x, R a x ∧ f x = b) l r ↔
      ∃ xs, List.Forall₂ R l xs ∧ xs.map f = r := by
  constructor
  · intro h
    induction h with
    | nil => exact ⟨[], .nil, rfl⟩
    | cons hab _ ih =>
      obtain ⟨x, hx, rfl⟩ := hab
      obtain ⟨xs, hxs, rfl⟩ := ih
      exact ⟨x :: xs, .cons hx hxs, rfl⟩
  · rintro ⟨xs, hxs, rfl⟩
    rw [List.forall₂_map_right_iff]
    exact hxs.imp fun a x hx => ⟨x, hx, rfl⟩

/-- A condition on all of a list at once, beside one on each of its elements. -/
theorem forall₂_and_exists {P : Prop} {R : α → γ → Prop} {f : γ → β} {l : List α} {r : List β}
    (hl : l ≠ []) :
    List.Forall₂ (fun a b => P ∧ ∃ x, R a x ∧ f x = b) l r ↔
      P ∧ ∃ xs, List.Forall₂ R l xs ∧ xs.map f = r := by
  rw [← forall₂_exists]
  constructor
  · intro h
    refine ⟨?_, h.imp fun a b hab => hab.2⟩
    cases h with
    | nil => exact absurd rfl hl
    | cons hab _ => exact hab.1
  · rintro ⟨hP, h⟩
    exact h.imp fun a b hab => ⟨hP, hab⟩

/-- Lists that agree item by item, the second one as a function of the place. -/
theorem forall₂_range [Inhabited β] {R : α → β → Prop} {l : List α} {r : List β} {n : Nat}
    (hl : l.length = n) :
    List.Forall₂ R l r ↔
      ∃ c : Nat → β, r = (List.range n).map c ∧ ∀ i < n, ∃ a, l[i]? = some a ∧ R a (c i) := by
  subst hl
  rw [List.forall₂_iff_get]
  constructor
  · rintro ⟨hlen, h⟩
    refine ⟨fun i => r.getD i default, ?_, fun i hi => ?_⟩
    · apply List.ext_getElem (by simp [hlen])
      intro i hi _
      simp [List.getElem?_eq_getElem hi]
    · refine ⟨l[i], List.getElem?_eq_getElem hi, ?_⟩
      simpa [List.getElem?_eq_getElem (hlen ▸ hi)] using h i hi (hlen ▸ hi)
  · rintro ⟨c, rfl, h⟩
    refine ⟨by simp, fun i hi _ => ?_⟩
    obtain ⟨a, ha, hR⟩ := h i hi
    obtain ⟨_, rfl⟩ := List.getElem?_eq_some_iff.1 ha
    simpa using hR

theorem chunks_flatten {size : Nat} {parts : List (List α)} (h : ∀ p ∈ parts, p.length = size) :
    ((List.range parts.length).map fun i => (parts.flatten.drop (i * size)).take size) = parts := by
  induction parts with
  | nil => rfl
  | cons p parts ih =>
    have hp : p.length = size := h p (by simp)
    rw [List.length_cons, List.range_succ_eq_map, List.map_cons, List.map_map]
    congr 1
    · simp [← hp]
    · refine Eq.trans (List.map_congr_left fun i _ => ?_) (ih fun q hq => h q (by simp [hq]))
      have hi : (i + 1) * size = p.length + i * size := by rw [hp, Nat.succ_mul, Nat.add_comm]
      change ((p :: parts).flatten.drop ((i + 1) * size)).take size = _
      rw [hi, ← List.drop_drop, List.flatten_cons, List.drop_left]

theorem exists_chunks {n size : Nat} {cells : List α} (h : cells.length = n * size) :
    ∃ parts : List (List α), parts.length = n ∧ (∀ p ∈ parts, p.length = size) ∧
      parts.flatten = cells := by
  induction n generalizing cells with
  | zero =>
    rw [Nat.zero_mul, List.length_eq_zero_iff] at h
    exact ⟨[], rfl, by simp, h.symm⟩
  | succ n ih =>
    rw [Nat.succ_mul] at h
    have hrest : (cells.drop size).length = n * size := by simp [h]
    obtain ⟨parts, hn, hparts, hflatten⟩ := ih hrest
    refine ⟨cells.take size :: parts, by simp [hn], ?_, by simp [hflatten]⟩
    rintro p (_ | ⟨_, hp⟩)
    · rw [List.length_take, h]
      omega
    · exact hparts p hp

theorem length_of_mem_chunks {n size : Nat} {cells : List α} (h : cells.length = n * size)
    {p : List α} (hp : p ∈ (List.range n).map fun i => (cells.drop (i * size)).take size) :
    p.length = size := by
  obtain ⟨i, hi, rfl⟩ := List.mem_map.1 hp
  have hle : (i + 1) * size ≤ n * size := Nat.mul_le_mul_right _ (List.mem_range.1 hi)
  rw [List.length_take, List.length_drop, h]
  rw [Nat.succ_mul] at hle
  omega

theorem length_flatten_of_length {size : Nat} {parts : List (List α)}
    (h : ∀ p ∈ parts, p.length = size) : parts.flatten.length = parts.length * size := by
  rw [List.length_flatten, List.map_congr_left h]
  simp

theorem length_flatMap_range {f : Nat → List β} {width : Nat} (hf : ∀ i, (f i).length = width) (n : Nat) :
    ((List.range n).flatMap f).length = n * width := by
  simp [List.length_flatMap, hf]

/-- The entry at place `k` of part `i`, where all parts have the same length. -/
theorem getElem?_flatMap_range {f : Nat → List β} {width : Nat} (hf : ∀ i, (f i).length = width)
    {n i k : Nat} (hi : i < n) (hk : k < width) :
    ((List.range n).flatMap f)[i * width + k]? = (f i)[k]? := by
  induction n with
  | zero => omega
  | succ n ih =>
    rw [List.range_succ, List.flatMap_append, List.flatMap_singleton]
    have hlength := length_flatMap_range hf n
    rcases Nat.lt_succ_iff_lt_or_eq.1 hi with hlt | rfl
    · have hplace : i * width + k < n * width := by
        calc i * width + k < (i + 1) * width := by rw [Nat.succ_mul]; omega
          _ ≤ n * width := Nat.mul_le_mul_right width hlt
      rw [List.getElem?_append_left (hlength ▸ hplace), ih hlt]
    · rw [List.getElem?_append_right (by omega), hlength, Nat.add_sub_cancel_left]

theorem nodup_eraseDups [BEq α] [LawfulBEq α] (l : List α) : l.eraseDups.Nodup := by
  induction h : l.length using Nat.strongRecOn generalizing l with
  | _ n ih =>
    cases l with
    | nil => simp
    | cons a l =>
      rw [List.eraseDups_cons, List.nodup_cons]
      refine ⟨by simp [List.mem_eraseDups], ih _ ?_ _ rfl⟩
      rw [← h, List.length_cons]
      exact Nat.lt_succ_of_le (List.length_filter_le _ _)

theorem pairwise_zipIdx (l : List α) : l.zipIdx.Pairwise fun a b => a.2 ≠ b.2 := by
  rw [← List.pairwise_map, List.zipIdx_map_snd]
  exact List.nodup_range'

theorem nodup_zipIdx (l : List α) : l.zipIdx.Nodup :=
  (pairwise_zipIdx l).imp fun hne heq => hne (congrArg Prod.snd heq)

theorem flatMap_unique {l : List α} {f : α → List β} {a : α} (hl : l.Nodup) (ha : a ∈ l)
    (h : ∀ x ∈ l, x ≠ a → f x = []) : l.flatMap f = f a := by
  induction l with
  | nil => simp at ha
  | cons x l ih =>
    rw [List.nodup_cons] at hl
    rw [List.flatMap_cons]
    rcases List.mem_cons.1 ha with rfl | ha
    · have hrest : l.flatMap f = [] := by
        rw [List.flatMap_eq_nil_iff]
        exact fun y hy => h y (List.mem_cons_of_mem _ hy) fun hya => hl.1 (hya ▸ hy)
      rw [hrest, List.append_nil]
    · have hx : f x = [] := h x List.mem_cons_self fun hxa => hl.1 (hxa ▸ ha)
      rw [hx, List.nil_append]
      exact ih hl.2 ha fun y hy => h y (List.mem_cons_of_mem _ hy)

end AdditiveModel
