import AdditiveModel.Random.Source

/-!
What a session keeps from one evaluation to the next: the source of random numbers, the warnings that
were given and the number of threads that was last asked for.
-/

namespace AdditiveModel

inductive Warning where
  /-- Mappers that are not linear were used. -/
  | nonlinear
  deriving DecidableEq, Repr, Inhabited

def Warning.message : Warning → String
  | nonlinear => "Non-linear mappers are experimental!"

structure Session (F : Type) where
  source : Source F
  warnings : List Warning
  threads : Option (Value F)

namespace Session

variable {F α : Type}

def drawing (c : Run (Source F) α) : Run (Session F) α :=
  c.within (·.source) fun s source => { s with source }

def warning (c : Run (List Warning) α) : Run (Session F) α :=
  c.within (·.warnings) fun s warnings => { s with warnings }

end Session

end AdditiveModel
