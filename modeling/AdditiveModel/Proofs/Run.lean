import AdditiveModel.Predictor.Context
import AdditiveModel.Proofs.Outcome

/-! Computations that change a state, run from a state: what each step gives and what it leaves. -/

namespace AdditiveModel

namespace Run

variable {σ τ α β : Type}

theorem ext {x y : Run σ α} (h : ∀ s, outcome x s = outcome y s) : x = y :=
  funext h

@[simp] theorem outcome_pure (a : α) (s : σ) : outcome (pure a) s = (.ok a, s) := rfl

@[simp] theorem outcome_throw (e : Error) (s : σ) :
    outcome (throw e : Run σ α) s = (.error e, s) := rfl

@[simp] theorem outcome_lift (r : Except Fault α) (s : σ) :
    outcome (lift r : Run σ α) s = (lift r, s) := by
  cases r <;> rfl

theorem state_lift {r : Except Fault α} {x : Except Error α} {s t : σ}
    (h : outcome (lift r : Run σ α) s = (x, t)) : s = t := by
  rw [outcome_lift] at h
  exact congrArg Prod.snd h

@[simp] theorem outcome_liftError (r : Except Error α) (s : σ) :
    outcome (liftError r : Run σ α) s = (r, s) := by
  cases r <;> rfl

theorem outcome_bind (x : Run σ α) (f : α → Run σ β) (s : σ) :
    outcome (x >>= f) s =
      match outcome x s with
      | (.ok a, t) => outcome (f a) t
      | (.error e, t) => (.error e, t) := by
  have h : outcome (x >>= f) s = ExceptT.bindCont f (outcome x s).1 (outcome x s).2 := rfl
  rw [h]
  rcases outcome x s with ⟨_ | a, t⟩
  · rfl
  · rfl

@[simp] theorem outcome_read (s : σ) : outcome read s = (.ok s, s) := rfl

@[simp] theorem outcome_write (t s : σ) : outcome (write t) s = (.ok (), t) := rfl

@[simp] theorem outcome_change (f : σ → σ) (s : σ) : outcome (change f) s = (.ok (), f s) := rfl

@[simp] theorem outcome_within (part : σ → τ) (replace : σ → τ → σ) (x : Run τ α) (s : σ) :
    outcome (within part replace x) s =
      ((outcome x (part s)).1, replace s (outcome x (part s)).2) := rfl

theorem outcome_tryCatch (x : Run σ α) (f : Error → Run σ α) (s : σ) :
    outcome (tryCatchThe Error x f) s =
      match outcome x s with
      | (.ok a, t) => (.ok a, t)
      | (.error e, t) => outcome (f e) t := by
  simp only [outcome, ExceptT.run, tryCatchThe, MonadExceptOf.tryCatch, ExceptT.tryCatch, ExceptT.mk,
    bind, StateT.bind]
  rcases x s with ⟨_ | a, t⟩
  · rfl
  · rfl

/-- A sequence succeeds when its steps do, each from where the one before it stopped. -/
theorem bind_eq_ok {x : Run σ α} {f : α → Run σ β} {s t : σ} {b : β} :
    outcome (x >>= f) s = (.ok b, t) ↔
      ∃ a r, outcome x s = (.ok a, r) ∧ outcome (f a) r = (.ok b, t) := by
  rw [outcome_bind]
  rcases hx : outcome x s with ⟨_ | a, r⟩
  · simp
  · simp

theorem map_eq_ok {x : Run σ α} {f : α → β} {s t : σ} {b : β} :
    outcome (do return f (← x)) s = (.ok b, t) ↔ ∃ a, outcome x s = (.ok a, t) ∧ f a = b := by
  rw [outcome_bind]
  rcases outcome x s with ⟨_ | a, r⟩
  · simp
  · simp [and_comm]

def Gives (x : Run σ α) (a : α) : Prop := ∀ s, (outcome x s).1 = .ok a

namespace Gives

variable {a : α} {b : β} {x : Run σ α}

theorem pure (a : α) : Gives (pure a : Run σ α) a := fun _ => rfl

theorem change (f : σ → σ) : Gives (Run.change f) () := fun _ => rfl

theorem lift {r : Except Fault α} (h : r = .ok a) : Gives (lift r : Run σ α) a := by
  subst h
  exact pure a

theorem liftError {r : Except Error α} (h : r = .ok a) : Gives (liftError r : Run σ α) a := by
  subst h
  exact pure a

theorem outcome_eq (hx : Gives x a) (s : σ) : outcome x s = (.ok a, (outcome x s).2) :=
  Prod.ext (hx s) rfl

theorem bind {f : α → Run σ β} (hx : Gives x a) (hf : Gives (f a) b) : Gives (x >>= f) b := by
  intro s
  rw [outcome_bind, hx.outcome_eq]
  exact hf _

theorem tryCatch (hx : Gives x a) (f : Error → Run σ α) : Gives (tryCatchThe Error x f) a := by
  intro s
  rw [outcome_tryCatch, hx.outcome_eq]

theorem mapM {l : List β} {f : β → Run σ α} (h : ∀ i ∈ l, Gives (f i) a) :
    Gives (l.mapM f) (List.replicate l.length a) := by
  induction l with
  | nil => exact pure []
  | cons i l ih =>
    rw [List.forall_mem_cons] at h
    rw [List.mapM_cons]
    exact h.1.bind ((ih h.2).bind (pure _))

end Gives

theorem mapM_steps {f : α → Run σ β} {l : List α} {r : List β} {s t : σ}
    (h : outcome (l.mapM f) s = (.ok r, t)) :
    List.Forall₂ (fun a b => ∃ s t, outcome (f a) s = (.ok b, t)) l r := by
  induction l generalizing r s with
  | nil =>
    cases h
    exact .nil
  | cons a l ih =>
    rw [List.mapM_cons] at h
    obtain ⟨b, s', hb, h⟩ := bind_eq_ok.1 h
    obtain ⟨bs, t', hbs, h⟩ := bind_eq_ok.1 h
    cases h
    exact .cons ⟨s, s', hb⟩ (ih hbs)

section Range

variable {f : Nat → Run σ α} {s t : σ} {n : Nat} {vs : List α}

def after (f : Nat → Run σ α) (s : σ) (k : Nat) : σ :=
  (outcome ((List.range k).mapM f) s).2

theorem range_succ_eq_ok :
    outcome ((List.range (n + 1)).mapM f) s = (.ok vs, t) ↔ ∃ us v, us ++ [v] = vs ∧
      outcome ((List.range n).mapM f) s = (.ok us, after f s n) ∧
      outcome (f n) (after f s n) = (.ok v, t) := by
  rw [List.range_succ, List.mapM_append, bind_eq_ok]
  simp only [List.mapM_cons, List.mapM_nil, bind_assoc, pure_bind]
  constructor
  · rintro ⟨us, r, hus, h⟩
    obtain ⟨v, _, hv, h⟩ := bind_eq_ok.1 h
    obtain ⟨rfl, rfl⟩ : us ++ [v] = vs ∧ _ = t := by simpa using h
    have hr : after f s n = r := by rw [after, hus]
    exact ⟨us, v, rfl, hr ▸ hus, hr ▸ hv⟩
  · rintro ⟨us, v, rfl, hus, hv⟩
    exact ⟨us, _, hus, bind_eq_ok.2 ⟨v, _, hv, rfl⟩⟩

/-- What each step of a sequence gives, from where the steps before it stop. -/
theorem range_steps (h : outcome ((List.range n).mapM f) s = (.ok vs, t)) :
    vs.length = n ∧ t = after f s n ∧
      ∀ k v, vs[k]? = some v → outcome (f k) (after f s k) = (.ok v, after f s (k + 1)) := by
  induction n generalizing vs t with
  | zero =>
    obtain ⟨rfl, rfl⟩ : [] = vs ∧ s = t := by simpa using h
    exact ⟨rfl, rfl, by simp⟩
  | succ n ih =>
    have hafter : t = after f s (n + 1) := by rw [after, h]
    obtain ⟨us, v, rfl, hus, hv⟩ := range_succ_eq_ok.1 h
    obtain ⟨rfl, -, hall⟩ := ih hus
    refine ⟨by simp, hafter, fun k w hk => ?_⟩
    rcases Nat.lt_trichotomy k us.length with hlt | rfl | hgt
    · rw [List.getElem?_append_left hlt] at hk
      exact hall k w hk
    · rw [List.getElem?_concat_length, Option.some_inj] at hk
      rw [hv, hk, hafter]
    · rw [List.getElem?_eq_none (by simp; omega)] at hk
      simp at hk

/-- Of two sequences of the same steps the longer one begins with the shorter one. -/
theorem range_agree {m : Nat} {us : List α} {r : σ}
    (h : outcome ((List.range n).mapM f) s = (.ok vs, t))
    (h' : outcome ((List.range m).mapM f) s = (.ok us, r)) {k : Nat} {v u : α}
    (hv : vs[k]? = some v) (hu : us[k]? = some u) : v = u := by
  have hstep := (range_steps h).2.2 k v hv
  rw [(range_steps h').2.2 k u hu, Prod.mk.injEq, Except.ok.injEq] at hstep
  exact hstep.1.symm

def checked (f : Nat → Run σ α) (g : Nat → α → Except Error β) (k : Nat) : Run σ β := do
  liftError (g k (← f k))

/-- All values pass their checks, or the first step that fails or is refused ends the sequence. -/
theorem range_checked (f : Nat → Run σ α) (g : Nat → α → Except Error β) (n : Nat) (s : σ) :
    (∃ vs bs t, outcome ((List.range n).mapM f) s = (.ok vs, t) ∧ bs.length = vs.length ∧
      (∀ k v, vs[k]? = some v → ∃ b, bs[k]? = some b ∧ g k v = .ok b) ∧
      outcome ((List.range n).mapM (checked f g)) s = (.ok bs, t)) ∨
    ∃ k < n, ∃ us r err t, outcome ((List.range k).mapM f) s = (.ok us, r) ∧
      (∀ j v, us[j]? = some v → ∃ b, g j v = .ok b) ∧
      outcome ((List.range n).mapM (checked f g)) s = (.error err, t) ∧
      (outcome (f k) r = (.error err, t) ∨ ∃ v, outcome (f k) r = (.ok v, t) ∧ g k v = .error err) := by
  induction n with
  | zero => exact .inl ⟨[], [], s, rfl, rfl, by simp, rfl⟩
  | succ n ih =>
    simp only [List.range_succ, List.mapM_append, List.mapM_cons, List.mapM_nil, outcome_bind]
    rcases ih with ⟨vs, bs, t, hvs, hlength, hpass, hbs⟩ | ⟨k, hk, us, r, err, t, hus, hpass, herr, hstep⟩
    · simp only [hvs, hbs, checked, outcome_bind]
      rcases hf : outcome (f n) t with ⟨err | v, t'⟩
      · exact .inr ⟨n, Nat.lt_succ_self n, vs, t, err, t', hvs,
          fun j v hv => (hpass j v hv).imp fun _ h => h.2, rfl, .inl hf⟩
      cases hg : g n v with
      | error err =>
        exact .inr ⟨n, Nat.lt_succ_self n, vs, t, err, t', hvs,
          fun j v hv => (hpass j v hv).imp fun _ h => h.2, by simp [hg], .inr ⟨v, hf, hg⟩⟩
      | ok b =>
        refine .inl ⟨vs ++ [v], bs ++ [b], t', rfl, by simp [hlength], fun k w hw => ?_, by simp [hg]⟩
        have hn : vs.length = n := (range_steps hvs).1
        rcases Nat.lt_or_ge k vs.length with hlt | hge
        · rw [List.getElem?_append_left hlt] at hw
          rw [List.getElem?_append_left (hlength ▸ hlt)]
          exact hpass k w hw
        · obtain ⟨hlt, hw⟩ := List.getElem?_eq_some_iff.1 hw
          obtain rfl : k = n := by simp at hlt; omega
          simp only [← hn, List.getElem_concat_length] at hw
          subst hw
          exact ⟨b, by rw [← hn, ← hlength, List.getElem?_concat_length], hg⟩
    · simp only [herr]
      exact .inr ⟨k, Nat.lt_succ_of_lt hk, us, r, err, t, hus, hpass, rfl, hstep⟩

end Range

end Run

namespace Context

variable {F α β : Type} {c : Context F} {k : Option Int}

theorem advance_of_eq (h : c.active = k) : c.advance k = c := by
  simp [advance, h]

theorem advance_of_ne (h : c.active ≠ k) : c.advance k = { start c.source with active := k } := by
  simp [advance, start, Ne.symm h]

theorem outcome_fresh (x : Run (Context F) α) (source : Source F) :
    (fresh x).outcome source = ((x.outcome (start source)).1, (x.outcome (start source)).2.source) :=
  rfl

end Context

end AdditiveModel
