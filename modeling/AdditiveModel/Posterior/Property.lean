import AdditiveModel.Text.Numeral
import AdditiveModel.Value.Coercion

/-!
The properties that latent states can be extracted by: a summary, a sample, or the quantile of a
probability. A quantile is written as its probability, a decimal number from zero to one, followed by
`quant`.
-/

namespace AdditiveModel

/-- A probability is kept as `mantissa / 10 ^ places`. -/
inductive Property where
  | mode
  | mean
  | sd
  | median
  | sample
  | quantile (mantissa places : Nat)
  deriving DecidableEq, Repr, Inhabited

namespace Property

open Text

def digits? (cs : List Char) : Option (List Char) :=
  if cs.all Digit.isDigit then some (Numeral.foldDigits cs) else none

/-- A probability: `0` or nothing before a point and digits behind it, `0`, or `1` with a point and
zeros or without. -/
def probability? : List Char → Option Property
  | ['0'] => some (quantile 0 0)
  | ['1'] => some (quantile 1 0)
  | '0' :: '.' :: d :: ds | '.' :: d :: ds =>
    (digits? (d :: ds)).map fun ds => quantile (Numeral.digitsValue ds) ds.length
  | '1' :: '.' :: zeros =>
    if zeros.all (· == '0') then some (quantile (Nat.pow 10 zeros.length) zeros.length) else none
  | _ => none

def suffix : List Char := "quant".toList

/-- The text in front of the final `quant`; a line end may follow. -/
def stem? (cs : List Char) : Option (List Char) :=
  let whole := match cs.reverse with
    | '\n' :: rest => rest.reverse
    | _ => cs
  if suffix.isSuffixOf whole then some (whole.take (whole.length - suffix.length)) else none

def ofName? : String → Option Property
  | "mode" => some mode
  | "mean" => some mean
  | "sd" => some sd
  | "median" => some median
  | "sample" => some sample
  | s => (stem? s.toList).bind probability?

def kindName : Property → String
  | mode => "mode"
  | mean => "mean"
  | sd => "sd"
  | median => "median"
  | sample => "sample"
  | quantile _ _ => "quantile"

variable {F : Type} [Scalar F]

def probability : Property → Option F
  | quantile mantissa places => some (Scalar.ofDecimal mantissa (-(places : Int)))
  | _ => none

def ofValue? (v : Value F) : Except Error Property :=
  let found := match v.plain with
    | .str s => ofName? s
    | _ => none
  match found with
  | some p => .ok p
  | none => .error (.property v.display)

end Property

end AdditiveModel
