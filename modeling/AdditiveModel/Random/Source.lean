import AdditiveModel.Random.Run
import AdditiveModel.Value.Basic

/-!
Random numbers as data. A generator is a name; the source answers the next deviate of each generator
and keeps a record of everything that was asked for. Generators that share a counter take turns on one
stream.
-/

namespace AdditiveModel

inductive Generator where
  /-- The one that a caller passes. -/
  | given
  /-- The one that all predictor evaluations without a seed share. -/
  | evaluation
  /-- The one that all posterior samples without a seed share. -/
  | sampling
  /-- A generator made from a seed, by the order in which they were made. -/
  | seeded (serial : Nat)
  deriving DecidableEq, Repr, Inhabited

inductive Request (F : Type) where
  | seed (generator : Generator) (seed : Value F)
  | normal (generator : Generator) (location scale : F) (shape : List Int)

def Request.generator {F : Type} : Request F → Generator
  | seed g _ => g
  | normal g _ _ _ => g

structure Source (F : Type) where
  /-- The standard normal deviate of a generator at a position of its counter. -/
  deviate : Generator → Nat → F
  /-- The counter that a generator moves. -/
  counter : Generator → Nat
  /-- Counters that have moved, with their positions. -/
  positions : List (Nat × Nat)
  /-- How many generators were made from seeds. -/
  seeds : Nat
  /-- What making a generator from a seed fails with, if it does. -/
  refusal : Value F → Option Fault
  requests : List (Request F)

namespace Source

variable {F : Type}

def position (s : Source F) (g : Generator) : Nat :=
  ((s.positions.find? (·.1 == s.counter g)).map (·.2)).getD 0

def next (s : Source F) (g : Generator) (count : Nat) : List F :=
  (List.range count).map fun i => s.deviate g (s.position g + i)

def advance (s : Source F) (g : Generator) (count : Nat) : Source F :=
  let k := s.counter g
  { s with positions := (k, s.position g + count) :: s.positions.filter (·.1 != k) }

def record (s : Source F) (r : Request F) : Source F := { s with requests := s.requests ++ [r] }

def ofCycle [Scalar F] (deviates : List F) : Source F where
  deviate _ i := deviates.getD (i % deviates.length) Scalar.zero
  counter _ := 0
  positions := []
  seeds := 0
  refusal _ := none
  requests := []

end Source

namespace Random

variable {F : Type} [Scalar F]

/-- A new generator for a seed; a seed that is refused leaves the source as it is. -/
def fromSeed (seed : Value F) : Run (Source F) Generator := do
  let s ← Run.read
  match s.refusal seed with
  | some f => throw (.fault f)
  | none =>
    let g := Generator.seeded s.seeds
    Run.write ({ s with seeds := s.seeds + 1 }.record (.seed g seed))
    return g

/-- Normal deviates with a location and a scale, one for each element of a shape. -/
def normals (g : Generator) (location scale : F) (shape : List Int) : Run (Source F) (List F) := do
  Run.change (·.record (.normal g location scale shape))
  if Scalar.lt scale Scalar.zero || shape.any (· < 0) then throw (.fault .value)
  let count := (shape.map Int.toNat).foldl (· * ·) 1
  let s ← Run.read
  let zs := s.next g count
  Run.write (s.advance g count)
  return zs.map fun z => location + scale * z

def normal (g : Generator) (location scale : F) : Run (Source F) F := do
  return (← normals g location scale []).headD Scalar.nan

end Random

end AdditiveModel
