import AdditiveModel.Component.Collection
import AdditiveModel.Effect.Simplified
import AdditiveModel.Inclusion

/-!
Models: components, completed with the data of the likelihoods, and the joint formula. A component is
in the formula when some likelihood includes it; offsets and constants only when all likelihoods are
linear, because otherwise the linearization carries them.
-/

namespace AdditiveModel

/-- Observations, and which components they depend on. -/
structure Likelihood (F : Type) where
  data : Value F := .null
  linear : Bool := true
  includes : Value F := .null
  excludes : Value F := .null
  deriving Inhabited

structure Formula where
  response : String
  terms : List String
  deriving DecidableEq, Repr, Inhabited

namespace Formula

def defaultResponse : String := "BRU_response"

def display (f : Formula) : String := String.intercalate " + " ((f.response ++ " ~ -1") :: f.terms)

end Formula

structure Model (F : Type) where
  components : Components F
  formula : Formula
  likelihoods : List (Likelihood F)
  deriving Inhabited

namespace Model

variable {F : Type} [Scalar F]

def likelihoodsOrOne (likelihoods : List (Likelihood F)) : List (Likelihood F) :=
  match likelihoods with
  | [] => [{}]
  | ls => ls

def includedBy? (labels : List String) (l : Likelihood F) : Except Error (List String) :=
  Inclusion.ofNames? labels l.includes l.excludes

def includedByAny? (labels : List String) (likelihoods : List (Likelihood F)) :
    Except Error (List String) := do
  let selected ← (likelihoodsOrOne likelihoods).mapM (includedBy? labels)
  return labels.filter fun label => selected.any (·.contains label)

/-- Whether a component has a term in a formula that is linear or not. -/
def hasTerm (linear : Bool) (c : Component F) : Bool :=
  linear || !(c.role == .offset || c.role == .const)

def formulaOf (cs : Components F) (included : List String) (linear : Bool) : Formula where
  response := Formula.defaultResponse
  terms := (cs.toList.filter fun c => included.contains c.label && hasTerm linear c).map (·.term)

def dataOf (likelihoods : List (Likelihood F)) : List (Value F) :=
  (likelihoods.map (·.data)).filter fun d => !Component.isNull d

/-- A model: the components are completed with the data of all likelihoods. -/
def build? (cs : Components F) (likelihoods : List (Likelihood F)) : Except Error (Model F) := do
  let cs ← cs.complete? (dataOf likelihoods)
  let included ← includedByAny? cs.labels likelihoods
  return ⟨cs, formulaOf cs included (likelihoods.all (·.linear)), likelihoods⟩

def labels (m : Model F) : List String := m.components.labels

def included? (m : Model F) (l : Option (Likelihood F)) : Except Error (List String) :=
  match l with
  | some l => includedBy? m.labels l
  | none => includedByAny? m.labels m.likelihoods

/-- The inputs of the included components, for the data of each likelihood. -/
def inputs? (m : Model F) : Except Error (List (Named (Mapper.Input F))) :=
  m.likelihoods.mapM fun l => do (← m.components.subset? (← includedBy? m.labels l)).inputs? l.data

/-- The ready mappers of each likelihood, for the components that have an input there. -/
def simplify (m : Model F) (inputs : List (Named (Mapper.Input F))) :
    Run (List Warning) (List (Simplified F)) :=
  inputs.mapM fun input => do
    Simplified.ofComponents (← liftError (m.components.subset? (Named.names input))) input

def linearize (m : Model F) (inputs : List (Named (Mapper.Input F))) (state : Named (Value F)) :
    Run (List Warning) (List (Simplified F)) :=
  inputs.mapM fun input => do
    Simplified.around (← liftError (m.components.subset? (Named.names input))) input state

def summary (m : Model F) : String :=
  String.intercalate "\n"
    (("Model(" ++ toString m.components.toList.length ++ " components, "
        ++ toString m.likelihoods.length ++ " likelihoods)")
      :: ("  formula: " ++ m.formula.display)
      :: m.components.toList.map fun c => "  " ++ c.summary)

end Model

end AdditiveModel
