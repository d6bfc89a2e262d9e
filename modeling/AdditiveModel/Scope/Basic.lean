import AdditiveModel.Function.Builtin

/-!
Tables of names. The last value written to a name is the one that is read. Reading knows one alias:
the name of the raw data, which cannot be written as a name in an expression.
-/

namespace AdditiveModel

/-- Names with their values, in the order in which the names were first written. -/
structure Scope (F : Type) where
  symbols : Named (Value F)
  deriving Inhabited

namespace Scope

variable {F : Type}

def dataName : String := ".data."

def dataAlias : String := "_data_"

def resolve (name : String) : String := if name == dataAlias then dataName else name

def bind (s : Scope F) (name : String) (v : Value F) : Scope F := ⟨Named.write s.symbols name v⟩

def update (s : Scope F) (symbols : Named (Value F)) : Scope F :=
  symbols.foldl (fun s (k, v) => s.bind k v) s

def empty : Scope F := ⟨[]⟩

def ofSymbols (symbols : Named (Value F)) : Scope F := empty.update symbols

def get? (s : Scope F) (name : String) : Option (Value F) := Named.value? s.symbols (resolve name)

def contains (s : Scope F) (name : String) : Bool := (s.get? name).isSome

def lookup (s : Scope F) (name : String) : Except Error (Value F) :=
  match s.get? name with
  | some v => .ok v
  | none => .error (.unbound (resolve name))

def names (s : Scope F) : List String := s.symbols.map (·.1)

def functions : Named (Value F) :=
  Builtin.table.map fun (name, f) => (name, .function (.builtin f))

def ownNames (s : Scope F) : List String :=
  s.names.filter fun name => !Builtin.table.any (·.1 == name)

end Scope

end AdditiveModel
