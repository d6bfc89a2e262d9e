import AdditiveModel.Operation.Operator

/-!
The normal distribution with a location and a scale, element by element. A scale that is not positive
gives no number.
-/

namespace AdditiveModel.Normal

variable {F : Type} [Scalar F]

open Value Scalar

def stretchAll? (parts : List (List Nat × List F)) : Except Fault (List Nat × List (List F)) := do
  let shape ← Shape.broadcastAll (parts.map (·.1))
  return (shape, parts.map fun (s, xs) =>
    let store := xs.toArray
    if s == shape then xs
    else (Shape.offsets (Shape.stretched s shape)).map fun i => store.getD i nan)

def reals? (v : Value F) : Except Fault (List Nat × List F) := do
  let g ← Grid.ofValue v
  match g.kind with
  | .text | .any | .complex => throw .type
  | _ => return (g.shape, (← g.cast? .double).cells.map Grid.realOf)

def strong? (v : Value F) : Except Fault (Value F) := do return ofGrid (← Grid.ofValue v)

def standardized? (x loc scale : Value F) : Except Fault (Value F) := do
  let d ← Pointwise.binary? .sub (← strong? x) (← strong? loc)
  return ofGrid (← Pointwise.binary? .div (ofGrid d) (← strong? scale))

def ofShape (shape : List Nat) (xs : List F) : Value F := ofResult ⟨.double, shape, xs.map float⟩

def cdf? (x loc scale : Value F) : Except Fault (Value F) := do
  let (shape, parts) ← stretchAll? [← reals? (← standardized? x loc scale), ← reals? scale]
  match parts with
  | [zs, scales] =>
    return ofShape shape (List.zipWith (fun z s =>
      if isNaN z || !lt zero s then nan else normalCdf z) zs scales)
  | _ => throw .value

def pdf? (x loc scale : Value F) : Except Fault (Value F) := do
  let (shape, parts) ← stretchAll? [← reals? (← standardized? x loc scale), ← reals? scale]
  match parts with
  | [zs, scales] =>
    return ofShape shape (List.zipWith (fun z s =>
      if isNaN z || !lt zero s then nan else normalDensity z / s) zs scales)
  | _ => throw .value

/-- The quantile of one probability; the ends of the interval are infinite. -/
def quantileAt (p loc scale : F) : F :=
  if isNaN loc || !lt zero scale then nan
  else if eq p zero then -infinity * scale + loc
  else if eq p one then infinity * scale + loc
  else if lt zero p && lt p one then normalQuantile p * scale + loc
  else nan

def quantile? (p loc scale : Value F) : Except Fault (Value F) := do
  let (shape, parts) ← stretchAll? [← reals? p, ← reals? loc, ← reals? scale]
  match parts with
  | [ps, locs, scales] =>
    return ofShape shape (List.zipWith (fun p (l, s) => quantileAt p l s) ps (locs.zip scales))
  | _ => throw .value

end AdditiveModel.Normal
