import AdditiveModel.Error
import AdditiveModel.Proofs.Lists

/-! Computations that can fail, taken apart: a sequence of steps succeeds when every step
does, and then the outcomes stand in the order of the steps. -/

namespace AdditiveModel

variable {ε α β γ : Type}

instance decidableEqOk [DecidableEq α] (x : Except ε α) (a : α) : Decidable (x = .ok a) :=
  match x with
  | .ok b => decidable_of_iff (b = a) (by simp)
  | .error _ => .isFalse nofun

def Error.fault? : Error → Option Fault
  | .fault kind => some kind
  | _ => none

theorem Error.fault?_eq_some {e : Error} {kind : Fault} : e.fault? = some kind ↔ e = .fault kind := by
  cases e <;> simp [Error.fault?]

instance decidableEqFault (x : Except Error α) (kind : Fault) : Decidable (x = .error (.fault kind)) :=
  match x with
  | .ok _ => .isFalse nofun
  | .error e =>
    decidable_of_iff (e.fault? = some kind) (by rw [Error.fault?_eq_some, Except.error.injEq])

theorem exists_of_isSome {x : Except ε α} (h : x.toOption.isSome = true) : ∃ a, x = .ok a := by
  cases x with
  | error e => simp [Except.toOption] at h
  | ok a => exact ⟨a, rfl⟩

theorem bind_eq_ok {x : Except ε α} {f : α → Except ε β} {b : β} :
    (x >>= f) = .ok b ↔ ∃ a, x = .ok a ∧ f a = .ok b := by
  cases x with
  | error e => simp [bind, Except.bind]
  | ok a => simp [bind, Except.bind]

theorem map_eq_ok {x : Except ε α} {f : α → β} {b : β} :
    x.map f = .ok b ↔ ∃ a, x = .ok a ∧ f a = b := by
  cases x with
  | error e => simp [Except.map]
  | ok a => simp [Except.map]

@[simp] theorem pure_eq_ok {a b : α} : (pure a : Except ε α) = .ok b ↔ a = b := by
  simp [pure, Except.pure]

@[simp] theorem throw_eq_ok {e : ε} {b : α} : (throw e : Except ε α) = .ok b ↔ False :=
  ⟨nofun, False.elim⟩

@[simp] theorem lift_eq_ok {r : Except Fault α} {v : α} :
    (lift r : Except Error α) = .ok v ↔ r = .ok v := by
  cases r with
  | error e => simp [lift]
  | ok a => simp [lift]

@[simp] theorem liftError_eq {r : Except Error α} : (liftError r : Except Error α) = r := by
  cases r <;> rfl

theorem check_eq_ok {c : Prop} [Decidable c] {e : ε} {f : α → Except ε β} {x : Except ε β} {b : β} :
    (if c then throw e >>= f else x) = .ok b ↔ ¬ c ∧ x = .ok b := by
  by_cases h : c <;> simp [h, bind_eq_ok]

theorem mapM_eq_ok {f : α → Except ε β} {l : List α} {r : List β} :
    l.mapM f = .ok r ↔ List.Forall₂ (fun a b => f a = .ok b) l r := by
  induction l generalizing r with
  | nil => simp
  | cons a l ih =>
    simp only [List.mapM_cons, bind_eq_ok, pure_eq_ok, ih, List.forall₂_cons_left_iff]
    constructor
    · rintro ⟨b, hb, bs, hbs, rfl⟩
      exact ⟨b, bs, hb, hbs, rfl⟩
    · rintro ⟨b, bs, hb, hbs, rfl⟩
      exact ⟨b, hb, bs, hbs, rfl⟩

theorem mapM_length {f : α → Except ε β} {l : List α} {r : List β} (h : l.mapM f = .ok r) :
    r.length = l.length :=
  (mapM_eq_ok.1 h).length_eq.symm

theorem exists_mapM {f : α → Except ε β} {l : List α} (h : ∀ a ∈ l, ∃ b, f a = .ok b) :
    ∃ r, l.mapM f = .ok r := by
  induction l with
  | nil => exact ⟨[], rfl⟩
  | cons a l ih =>
    simp only [List.mem_cons, forall_eq_or_imp] at h
    obtain ⟨⟨b, hb⟩, h⟩ := h
    obtain ⟨r, hr⟩ := ih h
    exact ⟨b :: r, mapM_eq_ok.2 (.cons hb (mapM_eq_ok.1 hr))⟩

theorem mapM_eq_ok_map {f : α → Except ε β} {g : α → β} {l : List α}
    (h : ∀ a ∈ l, f a = .ok (g a)) : l.mapM f = .ok (l.map g) := by
  rw [mapM_eq_ok, List.forall₂_map_right_iff, List.forall₂_same]
  exact h

theorem mapM_flatten_eq_ok {f : α → Except ε β} {parts : List (List α)} {r : List β} :
    parts.flatten.mapM f = .ok r ↔
      ∃ rs, List.Forall₂ (fun part r => part.mapM f = .ok r) parts rs ∧ r = rs.flatten := by
  induction parts generalizing r with
  | nil =>
    rw [List.flatten_nil, List.mapM_nil, pure_eq_ok]
    simp
  | cons part parts ih =>
    rw [List.flatten_cons, List.mapM_append]
    simp only [bind_eq_ok, pure_eq_ok, ih, List.forall₂_cons_left_iff]
    constructor
    · rintro ⟨r₁, h₁, _, ⟨rs, hrs, rfl⟩, rfl⟩
      exact ⟨r₁ :: rs, ⟨r₁, rs, h₁, hrs, rfl⟩, by simp⟩
    · rintro ⟨_, ⟨r₁, rs, h₁, hrs, rfl⟩, rfl⟩
      exact ⟨r₁, h₁, rs.flatten, ⟨rs, hrs, rfl⟩, by simp⟩

theorem mapM_flatten_of_forall₂ {f : β → Except ε γ} {g : α → Except ε γ} {l : List α}
    {parts : List (List β)}
    (h : List.Forall₂ (fun a part => part.mapM f = (g a).map fun c => [c]) l parts) :
    parts.flatten.mapM f = l.mapM g := by
  induction h with
  | nil => rfl
  | @cons a part l parts hpart _ ih =>
    rw [List.flatten_cons, List.mapM_append, List.mapM_cons, hpart, ih]
    cases g a with
    | error e => rfl
    | ok c => cases l.mapM g <;> rfl

def FailsOnly (allowed : ε → Prop) (x : Except ε α) : Prop := ∀ e, x = .error e → allowed e

namespace FailsOnly

variable {allowed : ε → Prop} {x : Except ε α}

theorem ok (a : α) : FailsOnly allowed (.ok a : Except ε α) := nofun

theorem error {e : ε} (h : allowed e) : FailsOnly allowed (.error e : Except ε α) := by
  rintro _ ⟨⟩
  exact h

theorem bind {f : α → Except ε β} (hx : FailsOnly allowed x)
    (hf : ∀ a, x = .ok a → FailsOnly allowed (f a)) : FailsOnly allowed (x >>= f) := by
  cases x with
  | ok a => exact hf a rfl
  | error e => exact error (hx e rfl)

theorem map {f : α → β} (hx : FailsOnly allowed x) : FailsOnly allowed (x.map f) := by
  cases x with
  | ok a => exact ok _
  | error e => exact error (hx e rfl)

theorem ite {c : Prop} [Decidable c] {y : Except ε α} (hx : FailsOnly allowed x)
    (hy : FailsOnly allowed y) : FailsOnly allowed (if c then x else y) := by
  split
  · exact hx
  · exact hy

theorem mapM {f : α → Except ε β} {l : List α} (hf : ∀ a ∈ l, FailsOnly allowed (f a)) :
    FailsOnly allowed (l.mapM f) := by
  induction l with
  | nil => exact ok []
  | cons a l ih =>
    rw [List.forall_mem_cons] at hf
    rw [List.mapM_cons]
    exact hf.1.bind fun b _ => (ih hf.2).bind fun bs _ => ok _

theorem foldlM {f : β → α → Except ε β} {l : List α} (hf : ∀ b, ∀ a ∈ l, FailsOnly allowed (f b a))
    (b : β) : FailsOnly allowed (l.foldlM f b) := by
  induction l generalizing b with
  | nil => exact ok b
  | cons a l ih =>
    rw [List.foldlM_cons]
    exact (hf b a List.mem_cons_self).bind fun b' _ =>
      ih (fun b a ha => hf b a (List.mem_cons_of_mem _ ha)) b'

end FailsOnly

end AdditiveModel
