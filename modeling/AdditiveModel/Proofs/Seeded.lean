import AdditiveModel.Proofs.Deviates
import AdditiveModel.Proofs.Generators

/-! Predictions with a seed. All random numbers come from two generators that are made inside the
prediction, one for the samples and one for the deviates of unknown levels. What the other generators
answer, and what was asked before, makes no difference. -/

namespace AdditiveModel

open Run Source

variable {F α : Type}

namespace Source

/-- Two sources refuse the seed alike, and the generators that they make next answer the same. -/
structure SameNext (seed : Value F) (s t : Source F) : Prop where
  refusal : s.refusal seed = t.refusal seed
  answers (i : Nat) : s.deviate (.seeded s.seeds) (s.position (.seeded s.seeds) + i) =
    t.deviate (.seeded t.seeds) (t.position (.seeded t.seeds) + i)

theorem SameNext.refl (seed : Value F) (s : Source F) : SameNext seed s s := ⟨rfl, fun _ => rfl⟩

/-- The seeds are refused as `refusal` says. The generators that are made next have not moved, take no
turns with each other, and answer with the stream of their seed. -/
structure Ready (stream : Value F → Nat → F) (refusal : Value F → Option Fault)
    (seeds : List (Value F)) (s : Source F) : Prop where
  refuses {seed : Value F} : seed ∈ seeds → s.refusal seed = refusal seed
  answers {i : Nat} {seed : Value F} :
    seeds[i]? = some seed → ∀ k, s.deviate (.seeded (s.seeds + i)) k = stream seed k
  start {i : Nat} : i < seeds.length → s.position (.seeded (s.seeds + i)) = 0
  apart {i j : Nat} : i < j → j < seeds.length →
    s.counter (.seeded (s.seeds + j)) ≠ s.counter (.seeded (s.seeds + i))

section Ready

variable {stream : Value F → Nat → F} {refusal : Value F → Option Fault} {seed : Value F}
  {seeds : List (Value F)} {s s' t : Source F}

theorem Ready.sameNext (h : s.Ready stream refusal (seed :: seeds))
    (h' : s'.Ready stream refusal (seed :: seeds)) : SameNext seed s s' := by
  refine ⟨(h.refuses List.mem_cons_self).trans (h'.refuses List.mem_cons_self).symm, fun i => ?_⟩
  have hs := h.start (i := 0) (Nat.succ_pos _)
  have hs' := h'.start (i := 0) (Nat.succ_pos _)
  rw [Nat.add_zero] at hs hs'
  rw [hs, hs']
  exact (h.answers (i := 0) rfl _).trans (h'.answers (i := 0) rfl _).symm

theorem Ready.tail (h : s.Ready stream refusal (seed :: seeds))
    (ht : AsksOnly (.seeded s.seeds) (s.made seed) t) : t.Ready stream refusal seeds := by
  have hseeds (i : Nat) : t.seeds + i = s.seeds + (i + 1) := by
    have : t.seeds = s.seeds + 1 := ht.seeds
    omega
  refine ⟨fun {v} hv => ?_, fun {i v} hv k => ?_, fun {i} hi => ?_, fun {i j} hij hj => ?_⟩
  · rw [ht.refusal]
    exact h.refuses (List.mem_cons_of_mem seed hv)
  · rw [hseeds, ht.deviate]
    exact h.answers (i := i + 1) hv k
  · have hne : (s.made seed).counter (.seeded (s.seeds + (i + 1))) ≠
        (s.made seed).counter (.seeded s.seeds) :=
      h.apart (i := 0) (Nat.succ_pos i) (Nat.succ_lt_succ hi)
    rw [hseeds, ht.unmoved _ hne]
    exact h.start (Nat.succ_lt_succ hi)
  · rw [hseeds, hseeds, ht.counter]
    exact h.apart (Nat.succ_lt_succ hij) (Nat.succ_lt_succ hj)

end Ready

end Source

def Session.Over (R : Source F → Source F → Prop) (s t : Session F) : Prop := R s.source t.source

/-- Only the generators made last from the seed were asked, and they answer the same from here on. -/
def PairedFrom (seed : Value F) (s₀ t₀ : Source F) : Source F → Source F → Prop :=
  Paired (.seeded s₀.seeds) (.seeded t₀.seeds) (s₀.made seed) (t₀.made seed)

def BothFrom (seed : Value F) (s₀ t₀ s t : Source F) : Prop :=
  DrawsFrom seed s₀ s ∧ DrawsFrom seed t₀ t

theorem PairedFrom.both {seed : Value F} {s₀ t₀ s t : Source F} (h : PairedFrom seed s₀ t₀ s t) :
    BothFrom seed s₀ t₀ s t :=
  ⟨.inr h.left, .inr h.right⟩

section

variable [Scalar F]

theorem compare_seed {seed : Int} (h : seed ≠ 0) :
    Value.compare? .ne (.int seed : Value F) (.int 0) = .ok true := by
  rw [Value.compare_int, bne_iff_ne.2 h]

omit [Scalar F] in
theorem fromSeed_bind {seed : Value F} {s₀ t₀ : Source F} (h : SameNext seed s₀ t₀)
    {f : Generator → Run (Source F) α}
    (hf : Alike (PairedFrom seed s₀ t₀) (PairedFrom seed s₀ t₀) (f (.seeded s₀.seeds))
      (f (.seeded t₀.seeds))) :
    Alike (fun s t => s = s₀ ∧ t = t₀) (BothFrom seed s₀ t₀) (Random.fromSeed seed >>= f)
      (Random.fromSeed seed >>= f) := by
  rintro s t ⟨rfl, rfl⟩
  simp only [outcome_bind, outcome_fromSeed, ← h.refusal]
  cases s.refusal seed with
  | some e => exact ⟨rfl, .inl rfl, .inl rfl⟩
  | none => exact (hf.weaken fun _ _ => PairedFrom.both) _ _ ⟨.refl _ _, .refl _ _, h.answers⟩

omit [Scalar F] in
theorem Session.fromSeed_cases {seed : Value F} {s t : Session F} (h : SameNext seed s.source t.source)
    {f : Generator → Run (Session F) α}
    (hf : Alike (Over (PairedFrom seed s.source t.source)) (Over (PairedFrom seed s.source t.source))
      (f (.seeded s.source.seeds)) (f (.seeded t.source.seeds))) :
    (∃ err, outcome (drawing (Random.fromSeed seed) >>= f) s = (.error err, s) ∧
      outcome (drawing (Random.fromSeed seed) >>= f) t = (.error err, t)) ∨
    Alike (fun s' t' => s' = s ∧ t' = t) (Over (PairedFrom seed s.source t.source))
      (drawing (Random.fromSeed seed) >>= f) (drawing (Random.fromSeed seed) >>= f) := by
  cases hrefusal : s.source.refusal seed with
  | some e =>
    refine .inl ⟨.fault e, ?_⟩
    simp only [outcome_bind, drawing, outcome_within, outcome_fromSeed, ← h.refusal, hrefusal, and_self]
  | none =>
    refine .inr ?_
    rintro _ _ ⟨rfl, rfl⟩
    simp only [outcome_bind, drawing, outcome_within, outcome_fromSeed, ← h.refusal, hrefusal]
    exact hf _ _ ⟨.refl _ _, .refl _ _, h.answers⟩

theorem Predictor.evaluate_seeded (t : Task F) {seed : Int} (hseed : seed ≠ 0) {s₀ t₀ : Source F}
    (h : SameNext (.list [.int seed, .int 1]) s₀ t₀) :
    Alike (fun s t => s = s₀ ∧ t = t₀) (BothFrom (.list [.int seed, .int 1]) s₀ t₀)
      (evaluate t none (.int seed)) (evaluate t none (.int seed)) := by
  have hstill {s t : Source F} (hst : s = s₀ ∧ t = t₀) :
      BothFrom (.list [.int seed, .int 1]) s₀ t₀ s t :=
    ⟨.inl hst.1, .inl hst.2⟩
  have hgenerator : generatorFor none (.int seed : Value F) =
      Random.fromSeed (.list [.int seed, .int 1]) := by
    simp only [generatorFor, compare_seed hseed, lift, pure_bind, if_true]
  unfold evaluate
  refine (Alike.liftError _).bind (fun format => ?_) fun _ _ => hstill
  split
  · exact ((Alike.relates _).throw _).weaken fun _ _ => hstill
  · refine (Alike.liftError _).bind (fun e => ?_) fun _ _ => hstill
    rw [hgenerator]
    refine fromSeed_bind h ?_
    refine (Alike.relates _).bind (.liftError _) fun scope => PairedContexts.fresh _ _ _ _ ?_
    have hR := Alike.relates (PairedContexts (.seeded s₀.seeds) (.seeded t₀.seeds)
      (s₀.made (.list [.int seed, .int 1])) (t₀.made (.list [.int seed, .int 1])))
    refine hR.bind (PairedContexts.evaluateState _ _ _ _ t e _ _ _) fun _ => ?_
    refine hR.bind (.liftError _) fun placed => ?_
    exact hR.bind (PairedContexts.evaluateRest _ _ _ _ t e _ _ _ _) fun _ => hR.pure _

theorem Model.alike_simplifiedFor (cs : Components F) (e : Evaluation F)
    (inputs : Option (Named (Mapper.Input F))) :
    Alike (fun _ _ => True) (fun _ _ => True) (simplifiedFor cs e inputs)
      (simplifiedFor cs e inputs) := by
  have hR := Alike.relates fun _ _ : List Warning => True
  have hready (inputs : Named (Mapper.Input F)) : Alike (fun _ _ => True) (fun _ _ => True)
      (Simplified.ofComponents cs inputs) (Simplified.ofComponents cs inputs) := by
    refine hR.bind (.liftError _) fun mappers => hR.bind (.liftError _) fun built => ?_
    split
    · exact hR.bind (.change fun _ _ _ => trivial) fun _ => hR.pure _
    · exact hR.pure _
  unfold simplifiedFor
  split
  · exact hR.pure _
  · exact hR.pure _
  · exact hR.bind (hready _) fun _ => hR.pure _

theorem Model.evaluate_seeded (m : Model F) {e : Evaluation F} {seed : Int} (hseed : seed ≠ 0)
    (he : e.seed = .int seed) (hgenerator : e.generator = none) {s₀ t₀ : Source F}
    (h : SameNext (.list [.int seed, .int 1]) s₀ t₀) :
    Alike (Session.Over fun s t => s = s₀ ∧ t = t₀)
      (Session.Over (BothFrom (.list [.int seed, .int 1]) s₀ t₀)) (m.evaluate e) (m.evaluate e) := by
  have hR := Alike.relates (Session.Over fun s t => s = s₀ ∧ t = t₀)
  have hstill (s t : Session F) (hst : Session.Over (fun s t => s = s₀ ∧ t = t₀) s t) :
      Session.Over (BothFrom (.list [.int seed, .int 1]) s₀ t₀) s t :=
    ⟨.inl hst.1, .inl hst.2⟩
  unfold Model.evaluate
  refine (Alike.liftError _).bind (fun included => ?_) hstill
  split
  · exact (hR.throw _).weaken hstill
  refine (Alike.liftError _).bind (fun cs => ?_) hstill
  refine (Alike.liftError _).bind (fun inputs => ?_) hstill
  refine Alike.bind (.within (alike_simplifiedFor cs e inputs) (fun _ _ _ => trivial)
    fun _ _ _ _ hst _ => hst) (fun mappers => ?_) hstill
  refine (Alike.liftError _).bind (fun effects => ?_) hstill
  split
  · exact (hR.pure _).weaken hstill
  · refine (Alike.lift _).bind (fun format => ?_) hstill
    rw [he, hgenerator]
    refine Alike.bind (.within (Predictor.evaluate_seeded _ hseed h) (fun _ _ hst => hst)
      fun _ _ _ _ _ hst => hst) (fun value => (Alike.relates _).pure _) fun _ _ hst => hst

variable [Factor.Decompositions F]

/-- Samples with a seed are drawn from one new generator, unless they are refused before. -/
theorem State.extract_seeded (cs : Components F) (g : Gaussian F) (count : Value F) {seed : Int}
    (hseed : seed ≠ 0) {s t : Session F} (h : SameNext (.int seed) s.source t.source) :
    (∃ err,
      outcome (extract cs (some g) { property := .str "sample", count, seed := .int seed }) s =
        (.error err, s) ∧
      outcome (extract cs (some g) { property := .str "sample", count, seed := .int seed }) t =
        (.error err, t)) ∨
    Alike (fun s' t' => s' = s ∧ t' = t)
      (Session.Over (PairedFrom (.int seed) s.source t.source))
      (extract cs (some g) { property := .str "sample", count, seed := .int seed })
      (extract cs (some g) { property := .str "sample", count, seed := .int seed }) := by
  have hproperty : Property.ofValue? (.str "sample" : Value F) = .ok .sample := rfl
  have hint (k : Int) : (Value.int k : Value F).toInt? = .ok k := rfl
  cases hcount : count.toInt? with
  | error f =>
    refine .inl ⟨.fault f, ?_⟩
    simp only [extract, hproperty, hcount, liftError, lift, outcome_bind, outcome_pure, outcome_throw,
      and_self]
  | ok n =>
    by_cases hn : n < 1
    · refine .inl ⟨.sampleCount count.display, ?_⟩
      simp only [extract, hproperty, hcount, liftError, lift, pure_bind, if_pos hn, outcome_bind,
        outcome_throw, and_self]
    · have hextract : extract cs (some g) { property := .str "sample", count, seed := .int seed } = (do
          let generator ← Session.drawing (Random.fromSeed (.int seed))
          Run.change ({ · with threads := some (.str singleThread) })
          return (← Session.drawing (g.sample n generator)).map ofVectors) := by
        simp only [extract, Gaussian.sampleFrom, Gaussian.generatorFor, hproperty, hcount, hint, liftError,
          lift, pure_bind, if_neg hn, compare_seed hseed, if_true, bind_assoc]
      rw [hextract]
      have hR := Alike.relates (Session.Over (PairedFrom (.int seed) s.source t.source))
      refine Session.fromSeed_cases h (hR.bind (.change fun _ _ hst => hst) fun _ => ?_)
      refine hR.bind (.within (Paired.sample _ _ _ _ g n) (fun _ _ hst => hst)
        fun _ _ _ _ _ hst => hst) fun samples => hR.pure _

namespace Model

/-- What a prediction asks a posterior for. -/
def Prediction.demand (p : Prediction F) : State.Demand F :=
  { property := .str "sample", count := p.count, seed := p.seed }

/-- A prediction with a seed draws its samples from a new generator of the seed and the deviates of
unknown levels from one of the seed with a one, and asks no other generator. What was done before it has
no influence on its outcome. -/
theorem predict_isolated (m : Model F) (g : Gaussian F) {p : Prediction F} {seed : Int}
    (hp : p.seed = .int seed) (hseed : seed ≠ 0) :
    (∀ s : Session F, let sampled := (outcome (State.extract m.components (some g) p.demand) s).2.source
      let done := (outcome (m.predict (some g) p) s).2.source
      Isolated s.source done ∧ DrawsFrom (.int seed) s.source sampled ∧
        DrawsFrom (.list [.int seed, .int 1]) sampled done) ∧
    ∀ (stream : Value F → Nat → F) (refusal : Value F → Option Fault) (s t : Session F),
      s.source.Ready stream refusal [.int seed, .list [.int seed, .int 1]] →
      t.source.Ready stream refusal [.int seed, .list [.int seed, .int 1]] →
        (outcome (m.predict (some g) p) s).1 = (outcome (m.predict (some g) p) t).1 := by
  have hdemand : p.demand = { property := .str "sample", count := p.count, seed := .int seed } := by
    rw [Prediction.demand, hp]
  let sampling : Run (Session F) (List (State F)) := State.extract m.components (some g) p.demand
  let sampled (s : Session F) : Source F := (outcome sampling s).2.source
  have hsamples {s t : Session F} (h : SameNext (.int seed) s.source t.source) :
      (∃ err, outcome sampling s = (.error err, s) ∧ outcome sampling t = (.error err, t)) ∨
      Alike (fun s' t' => s' = s ∧ t' = t)
        (Session.Over (PairedFrom (.int seed) s.source t.source)) sampling sampling := by
    simp only [sampling, hdemand]
    exact State.extract_seeded m.components g p.count hseed h
  have hfails {s : Session F} {err : Error} (h : outcome sampling s = (.error err, s)) :
      outcome (m.predict (some g) p) s = (.error err, s) := by
    have hextract : outcome (State.extract m.components (some g) p.demand) s = (.error err, s) := h
    rw [predict, outcome_bind, ← Prediction.demand, hextract]
  -- the sources meet between the two parts, where each has made one generator
  have hrest {s t : Session F}
      (hfirst : Alike (fun s' t' => s' = s ∧ t' = t)
        (Session.Over (PairedFrom (.int seed) s.source t.source)) sampling sampling)
      (hsecond : SameNext (.list [.int seed, .int 1]) (sampled s) (sampled t)) :
      Alike (fun s' t' => s' = s ∧ t' = t)
        (Session.Over (BothFrom (.list [.int seed, .int 1]) (sampled s) (sampled t)))
        (m.predict (some g) p) (m.predict (some g) p) := by
    refine Alike.bind (T := Session.Over fun s' t' => s' = sampled s ∧ t' = sampled t) ?_
      (fun states => ?_) fun _ _ hst => ⟨.inl hst.1, .inl hst.2⟩
    · rintro _ _ ⟨rfl, rfl⟩
      exact ⟨(hfirst _ _ ⟨rfl, rfl⟩).1, rfl, rfl⟩
    · exact (m.evaluate_seeded hseed hp rfl hsecond).bind (fun _ => .liftError _) fun _ _ hst => hst
  refine ⟨fun s => ?_, fun stream refusal s t hs ht => ?_⟩
  · rcases hsamples (.refl _ s.source) with ⟨err, hs, -⟩ | hpaired
    · change Isolated s.source _ ∧ DrawsFrom (.int seed) s.source (sampled s) ∧
        DrawsFrom (.list [.int seed, .int 1]) (sampled s) _
      have hstill : sampled s = s.source := by simp only [sampled, hs]
      have hnone : DrawsFrom (.int seed) s.source s.source := .inl rfl
      rw [hfails hs, hstill]
      exact ⟨hnone.isolated, hnone, .inl rfl⟩
    · have hdeviates : DrawsFrom (.list [.int seed, .int 1]) (sampled s)
          (outcome (m.predict (some g) p) s).2.source :=
        (hrest hpaired (.refl _ _) s s ⟨rfl, rfl⟩).2.1
      have hdraws : DrawsFrom (.int seed) s.source (sampled s) :=
        .inr (hpaired s s ⟨rfl, rfl⟩).2.left
      exact ⟨hdraws.isolated.trans hdeviates.isolated, hdraws, hdeviates⟩
  · rcases hsamples (hs.sameNext ht) with ⟨err, hs', ht'⟩ | hpaired
    · rw [hfails hs', hfails ht']
    · have hst := (hpaired s t ⟨rfl, rfl⟩).2
      have hsecond := (hs.tail hst.left).sameNext (ht.tail hst.right)
      exact (hrest hpaired hsecond s t ⟨rfl, rfl⟩).1

end Model

end

open Evaluator

/-- A session in which generators were made and the shared ones have moved. The next two generators
answer with the numbers from one on and with the odd ones. -/
def usedSession (made moved : Nat) : Session ℚ where
  source :=
    { deviate := fun
        | .seeded k, i => if k = made then i + 1 else 2 * i + 1
        | _, _ => 0
      counter := fun
        | .given => 0
        | .evaluation => 1
        | .sampling => 2
        | .seeded k => k + 3
      positions := [(1, moved), (2, moved)]
      seeds := made
      refusal := fun _ => none
      requests := [] }
  warnings := []
  threads := none

theorem usedSession_ready (made moved : Nat) : (usedSession made moved).source.Ready
    (fun seed i => match seed with
      | .int _ => i + 1
      | _ => 2 * i + 1) (fun _ => none) [.int 7, .list [.int 7, .int 1]] where
  refuses _ := rfl
  answers {i seed} hseed k := by
    match i, hseed with
    | 0, rfl => exact if_pos rfl
    | 1, rfl => exact if_neg (Nat.succ_ne_self made)
  start {i} _ := by
    have h1 : ((1 == made + i + 3) : Bool) = false := by simp
    have h2 : ((2 == made + i + 3) : Bool) = false := by simp
    simp [usedSession, Source.position, h1, h2]
  apart {i j} hij _ := by
    simp only [usedSession]
    omega

def siteModel : Model ℚ :=
  ⟨⟨[{ site with main := .list [.str "a"] }]⟩, ⟨Formula.defaultResponse, []⟩, []⟩

def siteGaussian : Gaussian ℚ := ⟨[("site", [5])], [[4]], []⟩

/-- The second point has a level without a latent variable. -/
def sitePrediction : Model.Prediction ℚ where
  predictor := .expression ⟨"site_eval(['a', 'b'])",
    .call "site_eval" [.list [.literal (.str "a"), .literal (.str "b")]] []⟩
  data := .dict [("Precision_for_site", .float 4)]
  count := .int 2
  seed := .int 7

/-- Both generators are asked, whatever was asked before. -/
theorem sitePrediction_isolated :
    (∃ v, (outcome (siteModel.predict (some siteGaussian) sitePrediction) (usedSession 0 0)).1 = .ok v ∧
      (outcome (siteModel.predict (some siteGaussian) sitePrediction) (usedSession 3 5)).1 = .ok v) ∧
    (outcome (siteModel.predict (some siteGaussian) sitePrediction)
        (usedSession 3 5)).2.source.requests.map Request.generator =
      [.seeded 3, .seeded 3, .seeded 4, .seeded 4, .seeded 4] ∧
    Isolated (usedSession 3 5).source
      (outcome (siteModel.predict (some siteGaussian) sitePrediction) (usedSession 3 5)).2.source := by
  obtain ⟨hisolated, hsame⟩ :=
    Model.predict_isolated siteModel siteGaussian (p := sitePrediction) rfl (by decide : (7 : Int) ≠ 0)
  obtain ⟨v, hv⟩ := exists_of_isSome (x := (outcome (siteModel.predict (some siteGaussian)
    sitePrediction) (usedSession 0 0)).1) (by decide +kernel)
  refine ⟨⟨v, hv, ?_⟩, by decide +kernel, (hisolated (usedSession 3 5)).1⟩
  rw [← hsame _ _ _ _ (usedSession_ready 0 0) (usedSession_ready 3 5), hv]

end AdditiveModel
