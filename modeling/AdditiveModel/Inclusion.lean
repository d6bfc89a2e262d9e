import AdditiveModel.Value.Items

/-!
Which labels a pair of filters selects. Leaving a filter out selects every label or removes none. A
label that both filters name is removed, and a filter that names an unknown label is refused.
-/

namespace AdditiveModel.Inclusion

section Labels

variable {α : Type} [BEq α]

def unknown (labels filter : List α) : List α := filter.filter fun a => !labels.contains a

/-- Refuses a filter with unknown labels. `quote` writes a label in the message. -/
def check (quote : α → String) (filter : Filter) (labels : List α) : Option (List α) → Except Error Unit
  | none => .ok ()
  | some items =>
    match unknown labels items with
    | [] => .ok ()
    | bad => .error (.filterLabels filter (bad.map quote) (labels.map quote))

def keeps (includes excludes : Option (List α)) (label : α) : Bool :=
  includes.all (·.contains label) && excludes.all (!·.contains label)

def select (quote : α → String) (labels : List α) (includes excludes : Option (List α)) :
    Except Error (List α) := do
  check quote .includes labels includes
  check quote .excludes labels excludes
  return labels.filter (keeps includes excludes)

end Labels

section Values

variable {F : Type} [Scalar F]

def filterItems? : Value F → Except Fault (Option (List (Value F)))
  | .null => .ok none
  | .str s => .ok (some [.str s])
  | v => v.items?.map some

def checkKeys (items : List (Value F)) : Except Error Unit :=
  if Value.areKeys items then .ok () else .error (.fault .type)

def ofItems? (labels : List (Value F)) (includes excludes : Value F) :
    Except Error (List (Value F)) := do
  let includes ← lift (filterItems? includes)
  let excludes ← lift (filterItems? excludes)
  checkKeys labels
  checkKeys (includes.getD [])
  check Value.display .includes labels includes
  checkKeys (excludes.getD [])
  select Value.display labels includes excludes

def ofValues? (labels includes excludes : Value F) : Except Error (List (Value F)) := do
  ofItems? (← lift labels.items?) includes excludes

def ofNames? (names : List String) (includes excludes : Value F) : Except Error (List String) := do
  let selected ← ofItems? (names.map .str) includes excludes
  return names.filter fun name => selected.contains (.str name)

end Values

end AdditiveModel.Inclusion
