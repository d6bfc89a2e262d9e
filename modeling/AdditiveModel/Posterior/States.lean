import AdditiveModel.Component.Collection
import AdditiveModel.Posterior.Gaussian

/-!
Latent states: a summary of a posterior, samples of it, or zeros when there is none.
-/

namespace AdditiveModel

abbrev State (F : Type) := Named (Value F)

namespace State

variable {F : Type} [Scalar F]

def ofVectors (vectors : Named (List F)) : State F := vectors.map fun (name, xs) => (name, .ofReals xs)

def zero? (cs : Components F) : Except Error (State F) :=
  cs.toList.mapM fun c =>
    match c.mapper with
    | some m => do return (c.label, .ofReals (← Mapper.latent? m.n .null))
    | none => throw (.withoutMapper c.quotedLabel)

structure Demand (F : Type) where
  property : Value F := .str "mode"
  count : Value F := .int 1
  seed : Value F := .int 0
  threads : Value F := .null
  /-- Whether hyperparameters are wanted on the log scale. -/
  internal : Value F := .bool false

def singleThread : String := "1:1"

def extract [Factor.Decompositions F] (cs : Components F) (posterior : Option (Gaussian F)) (d : Demand F) :
    Run (Session F) (List (State F)) := do
  let property ← liftError (Property.ofValue? d.property)
  let count ← lift d.count.toInt?
  if count < 1 then throw (.sampleCount d.count.display)
  match posterior, property with
  | none, _ => return [← liftError (zero? cs)]
  | some g, .sample =>
    let seeded ← lift (Value.compare? .ne d.seed (.int 0))
    let seed ← lift d.seed.toInt?
    let threads := if seeded then .str singleThread else d.threads
    return (← g.sampleFrom (.int count) (.int seed) threads none).map ofVectors
  | some g, _ =>
    let vectors ← liftError (g.property? d.property (← lift d.internal.truth?))
    return [ofVectors vectors]

end State

end AdditiveModel
