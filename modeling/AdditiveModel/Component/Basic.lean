import AdditiveModel.Mapper.Basic

/-!
Components: a named effect with the specification of its inputs and a mapper. A mapper that does not
depend on data is built when the component is defined; the others are missing until the component is
completed.
-/

namespace AdditiveModel

inductive Role where
  | fixed
  | offset
  /-- A covariate effect that is constant. -/
  | const
  | iid
  | other
  deriving DecidableEq, Repr, Inhabited

namespace Role

def name : Role → String
  | fixed => "fixed"
  | offset => "offset"
  | const => "const"
  | iid => "iid"
  | other => "other"

def all : List Role := [fixed, offset, const, iid, other]

def ofName? (s : String) : Option Role := all.find? (·.name == s)

def ofModel : String → Role
  | "linear" => fixed
  | "intercept" => const
  | "offset" => offset
  | "iid" => iid
  | _ => other

end Role

/-- A named effect. An input is specified by the text of an expression in the data, a function of the
data or a constant; null is the data field named like the component for the main input, and no input
for the others. -/
structure Component (F : Type) where
  label : String
  main : Value F
  group : Value F
  replicate : Value F
  weights : Value F
  model : String
  role : Role
  mapper : Option (Mapper F)
  groups : Option Int
  replicates : Option Int
  options : Named (Value F)
  deriving Inhabited

namespace Component

variable {F : Type}

def quotedLabel (c : Component F) : String := Text.Quoted.quote c.label

def countOr (n : Option Int) : Int :=
  match n with
  | some 0 | none => 1
  | some n => n

def withMapper (c : Component F) (m : Mapper F) : Component F :=
  { c with mapper := some (m.forComponent (countOr c.groups) (countOr c.replicates)) }

def isNull : Value F → Bool
  | .null => true
  | _ => false

/-- Whether the mapper depends on data: on the levels seen, or on the greatest group or replicate. -/
def needsData (c : Component F) : Bool :=
  (c.model == "iid" && (Named.value? c.options "levels").isNone)
    || (!isNull c.group && c.groups.isNone)
    || (!isNull c.replicate && c.replicates.isNone)

def term (c : Component F) : String :=
  match c.role with
  | .offset => "offset(" ++ c.label ++ ")"
  | .fixed | .const => c.label
  | _ => "f(" ++ c.label ++ ", model=\"" ++ c.model ++ "\")"

variable [Scalar F]

def describe (spec : Value F) (label : String) : String :=
  match spec with
  | .null => label
  | .str s => s
  | .function f => f.ownName?.getD "<function>"
  | v => v.display

def summary (c : Component F) : String :=
  let mapper := (c.mapper.map Mapper.display).getD "<incomplete>"
  c.label ++ ": main=" ++ describe c.main c.label ++ ", model=" ++ Text.Quoted.quote c.model
    ++ ", type=" ++ Text.Quoted.quote c.role.name ++ ", mapper=" ++ mapper

structure Definition (F : Type) where
  main : Value F := .null
  model : Value F := .str "linear"
  role : Value F := .null
  group : Value F := .null
  replicate : Value F := .null
  weights : Value F := .null
  mapper : Option (Mapper F) := none
  groups : Value F := .null
  replicates : Value F := .null
  options : Named (Value F) := []

def roleOf? (role model : Value F) : Except Error Role := do
  match role with
  | .null =>
    if !model.isKey then throw (.fault .type)
    match model.plain with
    | .str s => return Role.ofModel s
    | _ => return .other
  | v =>
    let found := match v.plain with
      | .str s => Role.ofName? s
      | _ => none
    match found with
    | some r => return r
    | none => throw (.componentType v.display)

def count? : Value F → Except Fault (Option Int)
  | .null => .ok none
  | v => (v.toInt?).map some

/-- A component. Its mapper is built at once when it does not depend on data. -/
def define? (label : String) (d : Definition F) : Except Error (Component F) := do
  let role ← roleOf? d.role d.model
  let c : Component F :=
    { label, main := d.main, group := d.group, replicate := d.replicate, weights := d.weights,
      model := d.model.plainText, role, mapper := none, groups := ← lift (count? d.groups),
      replicates := ← lift (count? d.replicates), options := d.options }
  match d.mapper with
  | some m => return c.withMapper m
  | none =>
    if c.needsData then return c
    return c.withMapper (← Mapper.ofModel? d.model .null d.options)

inductive Constructor where
  /-- A linear effect with `n` coefficients. -/
  | fixed
  /-- A constant effect. -/
  | intercept
  /-- A known effect. -/
  | offset
  /-- An unstructured effect over levels. -/
  | iid
  /-- A function of the main input and the latent vector. -/
  | nonlinear
  /-- Any of them. -/
  | define
  deriving DecidableEq, Repr

/-- Adds arguments that a constructor sets itself; they cannot be given. -/
def setting (fixed : Named (Value F)) (given : Named (Value F)) : Except Error (Named (Value F)) :=
  if given.any fun (k, _) => fixed.any (·.1 == k) then .error (.fault .type) else .ok (fixed ++ given)

def taking (given : Named (Value F)) (name : String) : Option (Value F) × Named (Value F) :=
  (Named.value? given name, given.filter (·.1 != name))

/-- The arguments of the general definition that a constructor stands for. -/
def generalArguments? (constructor : Constructor) (given : Named (Value F)) :
    Except Error (Named (Value F)) := do
  match constructor with
  | .define => return given
  | .fixed =>
    let (n, rest) := taking given "n"
    setting [("model", .str "linear"), ("n", n.getD (.int 1))] rest
  | .intercept => setting [("main", .float Scalar.one), ("model", .str "intercept")] given
  | .offset => setting [("model", .str "offset")] given
  | .iid =>
    let (levels, rest) := taking given "levels"
    let levels := match levels with
      | none | some .null => []
      | some v => [("levels", v)]
    setting [("model", .str "iid")] (levels ++ rest)
  | .nonlinear =>
    let (f, rest) := taking given "func"
    let (n, rest) := taking rest "n"
    match f with
    | some f => setting [("model", .str "function"), ("func", f), ("n", n.getD (.int 1))] rest
    | none => throw (.fault .type)

def definitionNames : List String :=
  ["main", "model", "type", "group", "replicate", "weights", "n_group", "n_replicate"]

/-- Named arguments as a definition; those without a meaning of their own are options of the mapper. -/
def definitionOf (mapper : Option (Mapper F)) (given : Named (Value F)) : Definition F :=
  let get (name : String) (default : Value F) : Value F := (Named.value? given name).getD default
  { main := get "main" .null, model := get "model" (.str "linear"), role := get "type" .null,
    group := get "group" .null, replicate := get "replicate" .null, weights := get "weights" .null,
    mapper, groups := get "n_group" .null, replicates := get "n_replicate" .null,
    options := given.filter fun (k, _) => !definitionNames.contains k }

/-- A component from named arguments. Only an intercept has a label of its own. -/
def construct? (constructor : Constructor) (label : Option String) (mapper : Option (Mapper F))
    (given : Named (Value F)) : Except Error (Component F) := do
  let label ← match label, constructor with
    | some s, _ => pure s
    | none, .intercept => pure "Intercept"
    | none, _ => throw (.fault .type)
  define? label (definitionOf mapper (← generalArguments? constructor given))

end Component

end AdditiveModel
