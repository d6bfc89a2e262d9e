import AdditiveModel.Model.Evaluate
import AdditiveModel.Proofs.Alike

/-! What a computation asks of one generator. With two generators that have the same deviates ahead it
gives the same outcome, and other generators stay where they are. -/

namespace AdditiveModel

open Run

variable {F α : Type}

theorem Value.compare_int [Scalar F] (a b : Int) :
    Value.compare? .ne (.int a : Value F) (.int b) = .ok (a != b) := by
  simp [Value.compare?, Value.equal?, Value.number?, PlainNumber.eq, Except.map, bne]

namespace Source

theorem position_advance (s : Source F) (g h : Generator) (count : Nat) :
    (s.advance g count).position h =
      if s.counter h = s.counter g then s.position g + count else s.position h := by
  simp only [position, advance]
  by_cases heq : s.counter h = s.counter g
  · simp [heq]
  · have hfilter : (s.positions.filter (·.1 != s.counter g)).find? (·.1 == s.counter h) =
        s.positions.find? (·.1 == s.counter h) := by
      rw [List.find?_filter]
      congr 1
      funext p
      by_cases hp : p.1 = s.counter h
      · simp [hp, heq]
      · simp [hp]
    rw [if_neg heq, List.find?_cons_of_neg (by simpa using Ne.symm heq), hfilter]

/-- From one source to another by normal deviates of one generator. -/
structure AsksOnly (g : Generator) (s t : Source F) : Prop where
  deviate : t.deviate = s.deviate
  counter : t.counter = s.counter
  seeds : t.seeds = s.seeds
  refusal : t.refusal = s.refusal
  requests : ∃ asked, t.requests = s.requests ++ asked ∧
    ∀ r ∈ asked, ∃ location scale shape, r = .normal g location scale shape
  unmoved (h : Generator) : s.counter h ≠ s.counter g → t.position h = s.position h

namespace AsksOnly

variable {g : Generator} {r s t : Source F}

theorem refl (g : Generator) (s : Source F) : AsksOnly g s s where
  deviate := rfl
  counter := rfl
  seeds := rfl
  refusal := rfl
  requests := ⟨[], by simp⟩
  unmoved _ _ := rfl

theorem trans (h : AsksOnly g r s) (h' : AsksOnly g s t) : AsksOnly g r t where
  deviate := h'.deviate.trans h.deviate
  counter := h'.counter.trans h.counter
  seeds := h'.seeds.trans h.seeds
  refusal := h'.refusal.trans h.refusal
  requests := by
    obtain ⟨asked, hs, hasked⟩ := h.requests
    obtain ⟨more, ht, hmore⟩ := h'.requests
    exact ⟨asked ++ more, by rw [ht, hs, List.append_assoc],
      List.forall_mem_append.2 ⟨hasked, hmore⟩⟩
  unmoved k hk := by rw [h'.unmoved k (by rwa [h.counter]), h.unmoved k hk]

theorem record (s : Source F) (location scale : F) (shape : List Int) :
    AsksOnly g s (s.record (.normal g location scale shape)) where
  deviate := rfl
  counter := rfl
  seeds := rfl
  refusal := rfl
  requests := ⟨_, rfl, by simp⟩
  unmoved _ _ := rfl

theorem advance (s : Source F) (g : Generator) (count : Nat) : AsksOnly g s (s.advance g count) where
  deviate := rfl
  counter := rfl
  seeds := rfl
  refusal := rfl
  requests := ⟨[], by simp [Source.advance]⟩
  unmoved h hne := by rw [position_advance, if_neg hne]

end AsksOnly

def made (s : Source F) (seed : Value F) : Source F :=
  { s with seeds := s.seeds + 1 }.record (.seed (.seeded s.seeds) seed)

theorem outcome_fromSeed (s : Source F) (seed : Value F) :
    outcome (Random.fromSeed seed) s =
      match s.refusal seed with
      | some f => (.error (.fault f), s)
      | none => (.ok (.seeded s.seeds), s.made seed) := by
  unfold Random.fromSeed
  simp only [outcome_bind, outcome_read]
  cases s.refusal seed <;> rfl

/-- From one source to another by one generator that is made from the seed, if by any. -/
def DrawsFrom (seed : Value F) (s t : Source F) : Prop :=
  t = s ∨ AsksOnly (.seeded s.seeds) (s.made seed) t

/-- From one source to another by generators made on the way. -/
structure Isolated (s t : Source F) : Prop where
  deviate : t.deviate = s.deviate
  counter : t.counter = s.counter
  seeds : s.seeds ≤ t.seeds
  refusal : t.refusal = s.refusal
  requests : ∃ asked, t.requests = s.requests ++ asked ∧
    ∀ r ∈ asked, ∃ i, s.seeds ≤ i ∧ i < t.seeds ∧ r.generator = .seeded i
  unmoved (g : Generator) :
    (∀ i, s.seeds ≤ i → s.counter g ≠ s.counter (.seeded i)) → t.position g = s.position g

theorem Isolated.trans {r s t : Source F} (h : Isolated r s) (h' : Isolated s t) : Isolated r t where
  deviate := h'.deviate.trans h.deviate
  counter := h'.counter.trans h.counter
  seeds := Nat.le_trans h.seeds h'.seeds
  refusal := h'.refusal.trans h.refusal
  requests := by
    obtain ⟨asked, hs, hasked⟩ := h.requests
    obtain ⟨more, ht, hmore⟩ := h'.requests
    refine ⟨asked ++ more, by rw [ht, hs, List.append_assoc], List.forall_mem_append.2 ⟨?_, ?_⟩⟩
    · intro q hq
      obtain ⟨i, hi, his, hgenerator⟩ := hasked q hq
      exact ⟨i, hi, Nat.lt_of_lt_of_le his h'.seeds, hgenerator⟩
    · intro q hq
      obtain ⟨i, hi, hit, hgenerator⟩ := hmore q hq
      exact ⟨i, Nat.le_trans h.seeds hi, hit, hgenerator⟩
  unmoved g hg := by
    refine (h'.unmoved g fun i hi => ?_).trans (h.unmoved g hg)
    rw [h.counter]
    exact hg i (Nat.le_trans h.seeds hi)

theorem DrawsFrom.isolated {seed : Value F} {s t : Source F} (h : DrawsFrom seed s t) :
    Isolated s t := by
  rcases h with rfl | h
  · exact ⟨rfl, rfl, Nat.le_refl _, rfl, ⟨[], by simp⟩, fun _ _ => rfl⟩
  have hseeds : t.seeds = s.seeds + 1 := h.seeds
  obtain ⟨asked, ht, hasked⟩ := h.requests
  refine ⟨h.deviate, h.counter, by omega, h.refusal, ⟨.seed (.seeded s.seeds) seed :: asked, ?_, ?_⟩,
    fun g hg => h.unmoved g (hg _ (Nat.le_refl _))⟩
  · rw [ht, made, record, List.append_assoc, List.singleton_append]
  · rw [List.forall_mem_cons]
    refine ⟨⟨s.seeds, Nat.le_refl _, by omega, rfl⟩, fun r hr => ?_⟩
    obtain ⟨location, scale, shape, rfl⟩ := hasked r hr
    exact ⟨s.seeds, Nat.le_refl _, by omega, rfl⟩

end Source

open Source

/-- Two generators, each the only one that was asked since, answer the same from here on. -/
structure Paired (g h : Generator) (s₀ t₀ s t : Source F) : Prop where
  left : AsksOnly g s₀ s
  right : AsksOnly h t₀ t
  ahead (i : Nat) : s.deviate g (s.position g + i) = t.deviate h (t.position h + i)

namespace Paired

variable {g h : Generator} {s₀ t₀ s t : Source F}

theorem record (hst : Paired g h s₀ t₀ s t) (location scale : F) (shape : List Int) :
    Paired g h s₀ t₀ (s.record (.normal g location scale shape))
      (t.record (.normal h location scale shape)) where
  left := hst.left.trans (.record s location scale shape)
  right := hst.right.trans (.record t location scale shape)
  ahead := hst.ahead

theorem advance (hst : Paired g h s₀ t₀ s t) (count : Nat) :
    Paired g h s₀ t₀ (s.advance g count) (t.advance h count) where
  left := hst.left.trans (.advance s g count)
  right := hst.right.trans (.advance t h count)
  ahead i := by
    rw [position_advance, position_advance, if_pos rfl, if_pos rfl, Nat.add_assoc, Nat.add_assoc]
    exact hst.ahead (count + i)

theorem next_eq (hst : Paired g h s₀ t₀ s t) (count : Nat) : s.next g count = t.next h count :=
  List.map_congr_left fun i _ => hst.ahead i

variable [Scalar F]

theorem normals (g h : Generator) (s₀ t₀ : Source F) (location scale : F) (shape : List Int) :
    Alike (Paired g h s₀ t₀) (Paired g h s₀ t₀) (Random.normals g location scale shape)
      (Random.normals h location scale shape) := by
  refine (Alike.change (T := Paired g h s₀ t₀) fun s t hst => hst.record location scale shape).bind
    (fun _ => ?_) fun _ _ hst => hst
  have hdraw : Alike (Paired g h s₀ t₀) (Paired g h s₀ t₀) (do
      let s ← Run.read
      Run.write (s.advance g ((shape.map Int.toNat).foldl (· * ·) 1))
      return (s.next g ((shape.map Int.toNat).foldl (· * ·) 1)).map fun z => location + scale * z) (do
      let s ← Run.read
      Run.write (s.advance h ((shape.map Int.toNat).foldl (· * ·) 1))
      return (s.next h ((shape.map Int.toNat).foldl (· * ·) 1)).map fun z => location + scale * z) := by
    intro s t hst
    simp only [outcome_bind, outcome_read, outcome_write, outcome_pure]
    exact ⟨by rw [hst.next_eq], hst.advance _⟩
  split
  · exact (Alike.relates _).bind ((Alike.relates _).throw _) fun _ => hdraw
  · exact hdraw

theorem sampleVector [Factor.Decompositions F] (g h : Generator) (s₀ t₀ : Source F) (mean : List F) (shape : List Nat)
    (cells : List F) (count : Int) : Alike (Paired g h s₀ t₀) (Paired g h s₀ t₀)
      (Gaussian.sampleVector g mean shape cells count)
      (Gaussian.sampleVector h mean shape cells count) := by
  have hR := Alike.relates (Paired g h s₀ t₀)
  have hdraw : Alike (Paired g h s₀ t₀) (Paired g h s₀ t₀) (do
      let factor ← lift (Factor.ofCovariance? shape cells)
      let zs ← Random.normals g Scalar.zero Scalar.one [count, mean.length]
      if factor.length != mean.length then throw (.fault .value)
      return Gaussian.draws mean factor (Mapper.Covariates.rowsOf count.toNat mean.length zs)) (do
      let factor ← lift (Factor.ofCovariance? shape cells)
      let zs ← Random.normals h Scalar.zero Scalar.one [count, mean.length]
      if factor.length != mean.length then throw (.fault .value)
      return Gaussian.draws mean factor (Mapper.Covariates.rowsOf count.toNat mean.length zs)) := by
    refine hR.bind (.lift _) fun factor => hR.bind (normals g h s₀ t₀ _ _ _) fun zs => ?_
    split
    · exact hR.bind (hR.throw _) fun _ => hR.pure _
    · exact hR.pure _
  unfold Gaussian.sampleVector
  split
  · split
    · exact hR.bind (hR.throw _) fun _ => hR.pure _
    · exact hR.pure _
  · exact hdraw

theorem sample [Factor.Decompositions F] (g h : Generator) (s₀ t₀ : Source F) (p : Gaussian F) (count : Int) :
    Alike (Paired g h s₀ t₀) (Paired g h s₀ t₀) (p.sample count g) (p.sample count h) := by
  have hR := Alike.relates (Paired g h s₀ t₀)
  refine hR.bind (sampleVector g h s₀ t₀ _ _ _ _) fun latent => ?_
  refine hR.bind (.mapM (fun k => ?_) _) fun hyper => hR.pure _
  exact hR.bind (normals g h s₀ t₀ _ _ _) fun xs => hR.pure _

end Paired

/-- Contexts on such sources that keep the same deviates for the same state. -/
structure PairedContexts (g h : Generator) (s₀ t₀ : Source F) (c d : Context F) : Prop where
  source : Paired g h s₀ t₀ c.source d.source
  deviates : c.deviates = d.deviates
  active : c.active = d.active

namespace PairedContexts

variable (g h : Generator) (s₀ t₀ : Source F)

theorem advance (k : Option Int) : Alike (PairedContexts g h s₀ t₀) (PairedContexts g h s₀ t₀)
    (Run.change (·.advance k)) (Run.change (·.advance k)) := by
  refine .change fun s t hst => ?_
  unfold Context.advance
  rw [← hst.active]
  split
  · exact hst
  · exact ⟨hst.source, rfl, rfl⟩

theorem fresh {x y : Run (Context F) α}
    (hxy : Alike (PairedContexts g h s₀ t₀) (PairedContexts g h s₀ t₀) x y) :
    Alike (Paired g h s₀ t₀) (Paired g h s₀ t₀) (Context.fresh x) (Context.fresh y) := by
  intro s t hst
  obtain ⟨hvalue, hstate⟩ := hxy (.start s) (.start t) ⟨hst, rfl, rfl⟩
  exact ⟨hvalue, hstate.source⟩

variable [Scalar F]

theorem abreast : Abreast (PairedContexts g h s₀ t₀) g h where
  deviates hst := hst.deviates
  draw label sd key := by
    have hnormal : Alike (Paired g h s₀ t₀) (Paired g h s₀ t₀) (Random.normal g Scalar.zero sd)
        (Random.normal h Scalar.zero sd) :=
      (Alike.relates _).bind (Paired.normals g h s₀ t₀ _ _ _) fun _ => (Alike.relates _).pure _
    refine (Alike.relates _).bind (.within hnormal (fun _ _ hst => hst.source) ?_) fun v =>
      .change fun s t hst => ?_
    · exact fun s t p q hst hpq => ⟨hpq, hst.deviates, hst.active⟩
    · exact ⟨hst.source, by rw [hst.deviates], hst.active⟩

variable (t : Predictor.Task F) (e : Expression)

theorem evaluateState (k : Nat) (scope : Scope F) (state : State F) :
    Alike (PairedContexts g h s₀ t₀) (PairedContexts g h s₀ t₀)
      (Predictor.evaluateState t e g k scope state)
      (Predictor.evaluateState t e h k scope state) := by
  have hR := Alike.relates (PairedContexts g h s₀ t₀)
  refine hR.bind (advance g h s₀ t₀ _) fun _ => hR.bind (.lift _) fun scope => ?_
  exact hR.bind ((abreast g h s₀ t₀).evaluateWith t.components scope e) fun v => hR.pure _

theorem evaluateRest (layout : Predictor.Layout F) (k : Nat) (scope : Scope F)
    (rest : List (State F)) : Alike (PairedContexts g h s₀ t₀) (PairedContexts g h s₀ t₀)
      (Predictor.evaluateRest t e g layout k scope rest)
      (Predictor.evaluateRest t e h layout k scope rest) := by
  have hR := Alike.relates (PairedContexts g h s₀ t₀)
  induction rest generalizing k scope with
  | nil => exact hR.pure []
  | cons state rest ih =>
    refine hR.bind (evaluateState g h s₀ t₀ t e k scope state) fun _ => ?_
    exact hR.bind (.liftError _) fun placed => hR.bind (ih _ _) fun _ => hR.pure _

end PairedContexts

end AdditiveModel
