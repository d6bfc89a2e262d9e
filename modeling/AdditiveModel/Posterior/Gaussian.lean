import AdditiveModel.Function.Normal
import AdditiveModel.Posterior.Factor
import AdditiveModel.Posterior.Property
import AdditiveModel.Random.Source
import AdditiveModel.Session
import AdditiveModel.Value.Items

/-!
A Gaussian posterior: latent vectors that are jointly normal, one after the other in the order of
their labels, and positive hyperparameters that are normal on the log scale. A hyperparameter is given
by its value and its deviation; on the log scale the deviation is their quotient.
-/

namespace AdditiveModel

structure Hyperparameter (F : Type) where
  name : String
  value : F
  deviation : F
  deriving Inhabited

structure Gaussian (F : Type) where
  mean : Named (List F)
  /-- The covariance of the concatenated latent vectors, row by row. -/
  covariance : List (List F)
  hyperparameters : List (Hyperparameter F)
  deriving Inhabited

namespace Gaussian

variable {F : Type} [Scalar F]

open Scalar

def size (g : Gaussian F) : Nat := (g.mean.flatMap (·.2)).length

def flatMean (g : Gaussian F) : List F := g.mean.flatMap (·.2)

def vectors? (entries : Named (Value F)) : Except Fault (Named (List F)) :=
  entries.mapM fun (name, v) => do return (name, (← Grid.realsOfValue v).2)

def pair? (v : Value F) : Except Fault (Value F × Value F) := do
  match ← v.items? with
  | [a, b] => return (a, b)
  | _ => throw .value

/-- A hyperparameter; its value is positive and its deviation is not negative. -/
def hyperparameter? (name : String) (pair : Value F) : Except Error (Hyperparameter F) := do
  let (value, deviation) ← lift (pair? pair)
  let tooSmall ← lift (Value.compare? .le value (.int 0))
  let negative ← if tooSmall then pure true else lift (Value.compare? .lt deviation (.int 0))
  if negative then throw (.hyperparameter (Text.Quoted.quote name))
  return ⟨name, ← lift value.toReal?, ← lift deviation.toReal?⟩

/-- A posterior with a covariance of the given shape, which must fit the latent vectors. -/
def ofCovariance? (mean : Named (List F)) (shape : List Nat) (cells : List F)
    (hyperparameters : Named (Value F)) : Except Error (Gaussian F) := do
  let n := (mean.flatMap (·.2)).length
  if shape != [n, n] then throw (.covarianceShape n shape)
  let hyper ← hyperparameters.mapM fun (name, pair) => hyperparameter? name pair
  return ⟨mean, Mapper.Covariates.rowsOf n n cells, hyper⟩

def ofValues? (mean : Named (Value F)) (covariance : Value F)
    (hyperparameters : Named (Value F)) : Except Error (Gaussian F) := do
  let mean ← lift (vectors? mean)
  let (shape, cells) ← lift (Grid.realsOfValue covariance)
  ofCovariance? mean shape cells hyperparameters

def diagonal (variances : List F) : List F :=
  variances.zipIdx.flatMap fun (v, i) =>
    (List.range variances.length).map fun j => if i == j then v else zero

/-- A posterior of independent variables with the given deviations. -/
def ofDeviations? (mean : Named (Value F)) (deviations : Named (Value F))
    (hyperparameters : Named (Value F)) : Except Error (Gaussian F) := do
  let blocks ← mean.mapM fun (name, _) =>
    match Named.value? deviations name with
    | some v => do return (← lift (Grid.realsOfValue v)).2
    | none => throw (.fault .key)
  let variances := blocks.flatten.map fun d => d * d
  let n := variances.length
  ofCovariance? (← lift (vectors? mean)) [n, n] (diagonal variances) hyperparameters

/-- The deviation of each latent variable; a negative variance counts as zero. -/
def deviations (g : Gaussian F) : List F :=
  (List.range g.size).map fun i =>
    let v := Factor.entryAt g.covariance i i
    sqrt (if lt v zero then zero else v)

def cut {α : Type} : Named (List F) → List α → Named (List α)
  | [], _ => []
  | (name, block) :: rest, xs =>
    (name, xs.take block.length) :: cut rest (xs.drop block.length)

/-- The quantile of a normal variable; without deviation it is the location. -/
def quantileOf (p location deviation : F) : F :=
  if lt zero deviation then Normal.quantileAt p location deviation else location

/-- A property of the latent vector with the given means and deviations. -/
def latentProperty (property : Property) (mean deviations : List F) : List F :=
  match property with
  | .sd => deviations
  | .quantile .. => List.zipWith (quantileOf ((property.probability).getD nan)) mean deviations
  | _ => mean

/-- A property of a hyperparameter, on its own scale or on the log scale. -/
def hyperProperty (property : Property) (internal : Bool) (h : Hyperparameter F) : F :=
  let location := log h.value
  let deviation := h.deviation / h.value
  match property with
  | .sd => if internal then deviation else h.deviation
  | .quantile .. =>
    let q := quantileOf ((property.probability).getD nan) location deviation
    if internal then q else exp q
  | _ => if internal then location else h.value

def property? (g : Gaussian F) (property : Value F) (internal : Bool) :
    Except Error (Named (List F)) := do
  let property ← Property.ofValue? property
  if property == .sample then throw .sampleAsSummary
  let latent := (g.mean.zip (cut g.mean g.deviations)).map fun ((name, mean), (_, sd)) =>
    (name, latentProperty property mean sd)
  let hyper := g.hyperparameters.map fun h => (h.name, [hyperProperty property internal h])
  return Named.ofList (latent ++ hyper)

/-- Rows of standard deviates as draws with the given mean and factor. -/
def draws (mean : List F) (factor : List (List F)) (rows : List (List F)) : List (List F) :=
  rows.map fun z => List.zipWith (· + ·) mean (factor.map (dot z))

def generatorFor (given : Option Generator) (seed : Value F) : Run (Source F) Generator :=
  match given with
  | some g => pure g
  | none => do
    if ← lift (Value.compare? .ne seed (.int 0)) then Random.fromSeed seed else return .sampling

variable [Factor.Decompositions F]

/-- Joint draws of a normal vector; a vector without entries needs no random numbers. -/
def sampleVector (g : Generator) (mean : List F) (shape : List Nat) (cells : List F) (count : Int) :
    Run (Source F) (List (List F)) := do
  if mean.isEmpty then
    if count < 0 then throw (.fault .value)
    return List.replicate count.toNat []
  let factor ← lift (Factor.ofCovariance? shape cells)
  let zs ← Random.normals g zero one [count, mean.length]
  if factor.length != mean.length then throw (.fault .value)
  return draws mean factor (Mapper.Covariates.rowsOf count.toNat mean.length zs)

/-- Joint draws of the latent vectors and the hyperparameters: all latent variables first, then each
hyperparameter. -/
def sample (g : Gaussian F) (count : Int) (generator : Generator) :
    Run (Source F) (List (Named (List F))) := do
  let n := g.size
  let latent ← sampleVector generator g.flatMean [n, n] g.covariance.flatten count
  let hyper ← g.hyperparameters.mapM fun h => do
    return (h.name, (← Random.normals generator (log h.value) (h.deviation / h.value) [count]).map exp)
  return latent.zipIdx.map fun (row, i) =>
    Named.ofList (cut g.mean row ++ hyper.map fun (name, xs) => (name, [xs.getD i nan]))

/-- A sample as it is asked for from outside. The number of threads is only kept. -/
def sampleFrom (g : Gaussian F) (count seed threads : Value F) (given : Option Generator) :
    Run (Session F) (List (Named (List F))) := do
  let generator ← Session.drawing (generatorFor given seed)
  Run.change ({ · with threads := some threads })
  Session.drawing (g.sample (← lift count.toInt?) generator)

end Gaussian

end AdditiveModel
