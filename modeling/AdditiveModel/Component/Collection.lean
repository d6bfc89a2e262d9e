import AdditiveModel.Component.Completion

/-!
Components in order, with distinct labels.
-/

namespace AdditiveModel

structure Components (F : Type) where
  toList : List (Component F)
  deriving Inhabited

namespace Components

variable {F : Type}

def labels (cs : Components F) : List String := cs.toList.map (·.label)

def ofList? (items : List (Component F)) : Except Error (Components F) :=
  go [] items
where
  go (done : List (Component F)) : List (Component F) → Except Error (Components F)
    | [] => .ok ⟨done.reverse⟩
    | c :: rest =>
      if done.any (·.label == c.label) then .error (.duplicateLabel c.quotedLabel)
      else go (c :: done) rest

def find? (cs : Components F) (label : String) : Option (Component F) :=
  cs.toList.find? (·.label == label)

def contains (cs : Components F) (label : String) : Bool := (cs.find? label).isSome

def get? (cs : Components F) (label : String) : Except Error (Component F) :=
  match cs.find? label with
  | some c => .ok c
  | none => .error (.labelled (Text.Quoted.quote label))

def subset? (cs : Components F) (labels : List String) : Except Error (Components F) :=
  match labels.filter fun l => !cs.contains l with
  | [] => .ok ⟨cs.toList.filter fun c => labels.contains c.label⟩
  | unknown => .error (.subsetLabels ((unknown.eraseDups.mergeSort (· ≤ ·)).map Text.Quoted.quote))

variable [Scalar F]

def complete? (cs : Components F) (data : List (Value F)) : Except Error (Components F) := do
  return ⟨← cs.toList.mapM (·.complete? data)⟩

def inputs? (cs : Components F) (data : Value F) : Except Error (Named (Mapper.Input F)) :=
  cs.toList.mapM fun c => do return (c.label, ← c.input? data)

def summary (cs : Components F) : String :=
  String.intercalate "\n" (("ComponentList(" ++ toString cs.toList.length ++ " components)")
    :: cs.toList.map fun c => "  " ++ c.summary)

def display (cs : Components F) : String :=
  "ComponentList(" ++ Text.Quoted.list (cs.labels.map Text.Quoted.quote) ++ ")"

end Components

end AdditiveModel
