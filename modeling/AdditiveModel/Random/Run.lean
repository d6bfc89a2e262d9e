import AdditiveModel.Error

/-!
Computations that change a state and can fail. What was changed before a failure stays changed.
-/

namespace AdditiveModel

abbrev Run (σ α : Type) : Type := ExceptT Error (StateM σ) α

namespace Run

variable {σ τ α : Type}

def outcome (c : Run σ α) (s : σ) : Except Error α × σ := ExceptT.run c s

def read : Run σ σ := ExceptT.lift get

def write (s : σ) : Run σ Unit := ExceptT.lift (set s)

def change (f : σ → σ) : Run σ Unit := ExceptT.lift (modify f)

def within (part : σ → τ) (replace : σ → τ → σ) (c : Run τ α) : Run σ α :=
  ExceptT.mk fun s =>
    let (r, t) := outcome c (part s)
    (r, replace s t)

end Run

end AdditiveModel
