import AdditiveModel.Component.Collection
import AdditiveModel.Session

/-!
Mappers that are ready for evaluation. With fixed inputs a linear mapper is a fixed vector plus a
matrix; mappers that are not linear stay as they are, with a warning, or are expanded around a state.
-/

namespace AdditiveModel

abbrev Simplified (F : Type) := Named (Mapper F)

namespace Simplified

variable {F : Type} [Scalar F]

def mapperOf? (c : Component F) : Except Error (Mapper F) :=
  match c.mapper with
  | some m => .ok m
  | none => .error (.withoutMapper c.quotedLabel)

def inputOf? (inputs : Named (Mapper.Input F)) (c : Component F) : Except Error (Mapper.Input F) :=
  match Named.value? inputs c.label with
  | some input => .ok input
  | none => .error (.withoutInput c.quotedLabel)

def warn (w : Warning) : Run (List Warning) Unit := Run.change (· ++ [w])

def simplifyOne? (inputs : Named (Mapper.Input F)) (c : Component F) (m : Mapper F) :
    Except Error (String × Mapper F) := do
  if m.isLinear then
    let input ← inputOf? inputs c
    return (c.label, ← m.ofLinear? (some input))
  else return (c.label, m)

def ofComponents (cs : Components F) (inputs : Named (Mapper.Input F)) :
    Run (List Warning) (Simplified F) := do
  let mappers ← liftError (cs.toList.mapM fun c => do return (c, ← mapperOf? c))
  let built ← liftError (mappers.mapM fun (c, m) => simplifyOne? inputs c m)
  if mappers.any fun (_, m) => !m.isLinear then warn .nonlinear
  return built

/-- Whether a mapper that is not linear comes before a missing one. -/
def anyNonlinear? : List (Component F) → Except Error Bool
  | [] => .ok false
  | c :: rest => do if (← mapperOf? c).isLinear then anyNonlinear? rest else return true

def around (cs : Components F) (inputs : Named (Mapper.Input F)) (state : Named (Value F)) :
    Run (List Warning) (Simplified F) := do
  if ← liftError (anyNonlinear? cs.toList) then warn .nonlinear
  liftError (cs.toList.mapM fun c => do
    let input ← inputOf? inputs c
    let s := (Named.value? state c.label).getD .null
    match c.mapper with
    | some m => return (c.label, ← m.linearize? (some input) s)
    | none => throw (.fault .attribute))

def display (s : Simplified F) : String :=
  "SimplifiedMappers(" ++ Text.Quoted.bracketed "\x7b"
    (s.map fun (label, m) => Text.Quoted.quote label ++ ": " ++ m.display) "\x7d" ++ ")"

end Simplified

end AdditiveModel
