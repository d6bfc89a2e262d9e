import AdditiveModel.Random.Source
import AdditiveModel.Named

/-!
What the evaluation of predictors keeps: the random source, the deviates that were drawn for unknown
levels and the state that is active. The deviates are forgotten when another state becomes active, so
no two states share one.
-/

namespace AdditiveModel

abbrev Deviates (F : Type) := Named (Named F)

namespace Deviates

variable {F : Type}

def lookup (d : Deviates F) (label key : String) : Option F :=
  (Named.value? d label).bind (Named.value? · key)

def store (d : Deviates F) (label key : String) (v : F) : Deviates F :=
  Named.write d label (Named.write ((Named.value? d label).getD []) key v)

end Deviates

structure Context (F : Type) where
  source : Source F
  deviates : Deviates F
  /-- The active state; none before the first one. -/
  active : Option Int

namespace Context

variable {F α : Type}

def start (source : Source F) : Context F := ⟨source, [], none⟩

def advance (c : Context F) (k : Option Int) : Context F :=
  if k == c.active then c else { c with active := k, deviates := [] }

def drawing (c : Run (Source F) α) : Run (Context F) α :=
  c.within (·.source) fun s source => { s with source }

def fresh (c : Run (Context F) α) : Run (Source F) α :=
  ExceptT.mk fun source =>
    let (r, context) := Run.outcome c (start source)
    (r, context.source)

end Context

end AdditiveModel
