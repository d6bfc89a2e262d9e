import AdditiveModel.Predictor.Evaluate
import AdditiveModel.Proofs.Evaluation
import AdditiveModel.Proofs.Run

/-! Two runs side by side: from related states they give the same outcome and leave related states.
The evaluation of a predictor looks at its context only for the deviates, so two of them stay side by
side when their contexts keep the same deviates and their draws do. -/

namespace AdditiveModel

namespace Run

variable {σ σ' τ τ' α β : Type}

/-- The same outcome, with the states related before and afterwards. -/
def Alike (S T : σ → τ → Prop) (x : Run σ α) (y : Run τ α) : Prop :=
  ∀ s t, S s t → (outcome x s).1 = (outcome y t).1 ∧ T (outcome x s).2 (outcome y t).2

namespace Alike

variable {S T U : σ → τ → Prop} {x : Run σ α} {y : Run τ α}

theorem weaken (h : Alike S T x y) (hT : ∀ s t, T s t → U s t) : Alike S U x y :=
  fun s t hst => ⟨(h s t hst).1, hT _ _ (h s t hst).2⟩

/-- A failure of the first part ends both, so what it leaves must be enough for the whole. -/
theorem bind {f : α → Run σ β} {g : α → Run τ β} (hx : Alike S T x y)
    (hf : ∀ a, Alike T U (f a) (g a)) (hT : ∀ s t, T s t → U s t) : Alike S U (x >>= f) (y >>= g) := by
  intro s t hst
  rw [outcome_bind, outcome_bind]
  rcases hs : outcome x s with ⟨e | a, s'⟩ <;> rcases ht : outcome y t with ⟨e' | a', t'⟩
  all_goals
    obtain ⟨hvalue, hstate⟩ := hx s t hst
    rw [hs, ht] at hvalue hstate
  · exact ⟨congrArg Except.error (Except.error.inj hvalue), hT _ _ hstate⟩
  · cases hvalue
  · cases hvalue
  · obtain rfl : a = a' := Except.ok.inj hvalue
    exact hf a s' t' hstate

theorem relates (S : σ → τ → Prop) :
    Relates (m := Run σ) (n := Run τ) fun x y => Alike S S x y where
  pure _ _ _ h := ⟨rfl, h⟩
  bind hx hf := hx.bind hf fun _ _ h => h
  throw _ _ _ h := ⟨rfl, h⟩
  tryCatch {α x y f g} hx hf s t hst := by
    rw [outcome_tryCatch, outcome_tryCatch]
    rcases hs : outcome x s with ⟨e | a, s'⟩ <;> rcases ht : outcome y t with ⟨e' | a', t'⟩
    all_goals
      obtain ⟨hvalue, hstate⟩ := hx s t hst
      rw [hs, ht] at hvalue hstate
    · obtain rfl : e = e' := Except.error.inj hvalue
      exact hf e s' t' hstate
    · cases hvalue
    · cases hvalue
    · exact ⟨congrArg Except.ok (Except.ok.inj hvalue), hstate⟩

theorem lift (r : Except Fault α) : Alike S S (lift r : Run σ α) (AdditiveModel.lift r : Run τ α) :=
  (relates S).lift r

theorem liftError (r : Except Error α) :
    Alike S S (liftError r : Run σ α) (AdditiveModel.liftError r : Run τ α) :=
  (relates S).liftError r

theorem change {f : σ → σ} {g : τ → τ} (h : ∀ s t, S s t → T (f s) (g t)) :
    Alike S T (Run.change f) (Run.change g) :=
  fun s t hst => ⟨rfl, h s t hst⟩

theorem read_bind {f : σ → Run σ α} {g : τ → Run τ α}
    (h : ∀ s t, S s t → Alike S T (f s) (g t)) : Alike S T (read >>= f) (read >>= g) :=
  fun s t hst => h s t hst s t hst

theorem within {part : σ → σ'} {part' : τ → τ'} {replace : σ → σ' → σ} {replace' : τ → τ' → τ}
    {S' T' : σ' → τ' → Prop} {x : Run σ' α} {y : Run τ' α} (h : Alike S' T' x y)
    (hpart : ∀ s t, S s t → S' (part s) (part' t))
    (hreplace : ∀ s t p q, S s t → T' p q → T (replace s p) (replace' t q)) :
    Alike S T (Run.within part replace x) (Run.within part' replace' y) := by
  intro s t hst
  obtain ⟨hvalue, hstate⟩ := h _ _ (hpart s t hst)
  exact ⟨hvalue, hreplace s t _ _ hst hstate⟩

theorem mapM {f : β → Run σ α} {g : β → Run τ α} (h : ∀ b, Alike S S (f b) (g b)) (l : List β) :
    Alike S S (l.mapM f) (l.mapM g) := by
  induction l with
  | nil => exact (relates S).pure []
  | cons b l ih =>
    rw [List.mapM_cons, List.mapM_cons]
    exact (relates S).bind (h b) fun _ => (relates S).bind ih fun _ => (relates S).pure _

theorem forM {f : β → Run σ Unit} {g : β → Run τ Unit} (h : ∀ b, Alike S S (f b) (g b))
    (l : List β) : Alike S S (l.forM f) (l.forM g) := by
  induction l with
  | nil => exact (relates S).pure ()
  | cons b l ih => exact (relates S).bind (h b) fun _ => ih

end Alike

end Run

open Run

variable {F : Type} [Scalar F]

/-- Contexts with the same deviates, and that a draw with the one or the other generator leaves so. -/
structure Abreast (S : Context F → Context F → Prop) (g h : Generator) : Prop where
  deviates {s t : Context F} : S s t → s.deviates = t.deviates
  draw (label : String) (sd : F) (key : String) :
    Alike S S (Evaluator.draw label g sd key) (Evaluator.draw label h sd key)

namespace Abreast

variable {S : Context F → Context F → Prop} {g h : Generator} (hS : Abreast S g h)

include hS

theorem drawMissing (c : Component F) (scope : Scope F) (keys : List String) :
    Alike S S (Evaluator.drawMissing c scope g keys) (Evaluator.drawMissing c scope h keys) := by
  refine .read_bind fun s t hst => ?_
  rw [hS.deviates hst]
  split
  · exact (Alike.relates S).pure ()
  · exact (Alike.relates S).bind (.liftError _) fun sd => .forM (hS.draw c.label sd) _

theorem substitute (c : Component F) (scope : Scope F) (main : Grid F) (unknown : List Bool)
    (values : List F) : Alike S S (Evaluator.substitute c scope g main unknown values)
      (Evaluator.substitute c scope h main unknown values) := by
  refine (Alike.relates S).bind (hS.drawMissing c scope _) fun _ => ?_
  have hrest : Alike S S (do
      let context ← Run.read
      return Evaluator.replaceMarked values unknown ((Evaluator.keysAt main unknown).map fun k =>
        (context.deviates.lookup c.label k).getD Scalar.nan)) (do
      let context ← Run.read
      return Evaluator.replaceMarked values unknown ((Evaluator.keysAt main unknown).map fun k =>
        (context.deviates.lookup c.label k).getD Scalar.nan)) := by
    refine .read_bind fun s t hst => ?_
    rw [hS.deviates hst]
    exact (Alike.relates S).pure _
  split
  · exact (Alike.relates S).bind ((Alike.relates S).throw _) fun _ => hrest
  · exact hrest

theorem call (c : Component F) (scope : Scope F) (a : Arguments F) :
    Alike S S (Evaluator.call c scope g a) (Evaluator.call c scope h a) := by
  refine (Alike.relates S).bind (.liftError _) fun r => ?_
  split
  · exact (Alike.relates S).bind (hS.substitute c scope _ _ _) fun _ => (Alike.relates S).pure _
  · exact (Alike.relates S).pure _

theorem evaluateWith (cs : Components F) (scope : Scope F) (e : Expression) :
    Alike S S (e.evaluateWith (Predictor.meaning cs g scope))
      (e.evaluateWith (Predictor.meaning cs h scope)) := by
  refine (Alike.relates S).evaluateWith (fun f a => ?_) fun x _ => .liftError _
  cases f with
  | function f =>
    refine (Alike.relates S).applyWith (fun label a => ?_) _ f a
    exact (Alike.relates S).bind (.liftError _) fun c => hS.call c scope a
  | _ => exact (Alike.relates S).throw _

end Abreast

end AdditiveModel
