/-!
Things by name, in the order in which the names were first written. The last value that was written to
a name is the one that is read.
-/

namespace AdditiveModel

abbrev Named (α : Type) := List (String × α)

namespace Named

variable {α β : Type}

def value? (entries : Named α) (name : String) : Option α := (entries.find? (·.1 == name)).map (·.2)

def write (entries : Named α) (name : String) (v : α) : Named α :=
  match entries with
  | [] => [(name, v)]
  | (k, w) :: rest => if k == name then (name, v) :: rest else (k, w) :: write rest name v

def writeAll (entries : Named α) (more : Named α) : Named α :=
  more.foldl (fun done (name, v) => write done name v) entries

def ofList (entries : Named α) : Named α := writeAll [] entries

def names (entries : Named α) : List String := entries.map (·.1)

end Named

end AdditiveModel
