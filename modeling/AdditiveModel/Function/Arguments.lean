import AdditiveModel.Value.Basic

/-!
Arguments of a call and how they are assigned to parameters: by place, then by name. Each parameter
takes one argument at most, and no argument is left over.
-/

namespace AdditiveModel

structure Arguments (F : Type) where
  args : List (Value F)
  /-- By name; an argument without a name comes from an unpacked table. -/
  keywords : List (Option String × Value F)

namespace Arguments

variable {F : Type}

def ofList (args : List (Value F)) : Arguments F := ⟨args, []⟩

/-- Adds a keyword argument; a repeated name keeps its place and takes the new value. -/
def setKeyword (keywords : List (Option String × Value F)) (name : Option String) (v : Value F) :
    List (Option String × Value F) :=
  if keywords.any (·.1 == name) then keywords.map fun e => if e.1 == name then (name, v) else e
  else keywords ++ [(name, v)]

def bind? (a : Arguments F) (parameters : List String) : Except Fault (List (Option (Value F))) :=
  let placed := parameters.take a.args.length
  let fits := decide (a.args.length ≤ parameters.length)
    && a.keywords.all fun (name, _) =>
      match name with
      | some k => parameters.contains k && !placed.contains k
      | none => false
  if fits then
    .ok (parameters.zipIdx.map fun (p, i) =>
      match a.args[i]? with
      | some v => some v
      | none => (a.keywords.find? (·.1 == some p)).map (·.2))
  else .error .type

/-- Parameters of which the first `required` must be given; the others default to null. -/
def bindRequired? (a : Arguments F) (required : Nat) (parameters : List String) :
    Except Fault (List (Value F)) := do
  let values ← a.bind? parameters
  if (values.take required).all (·.isSome) then return values.map (·.getD .null) else throw .type

def positional? (a : Arguments F) : Except Fault (List (Value F)) :=
  if a.keywords.isEmpty then .ok a.args else .error .type

end Arguments

end AdditiveModel
