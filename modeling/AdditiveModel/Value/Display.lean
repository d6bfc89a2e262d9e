import AdditiveModel.Value.Basic

/-!
How values are written in messages and summaries. `Value.display` is the notation that can be read
back where there is one; `Value.plainText` differs from it for texts, which stand for themselves.
-/

namespace AdditiveModel

open Text

variable {F : Type} [Scalar F]

namespace ArrayText

/-- The digits of a shortest decimal text without sign and the power of ten of the first one. -/
def digitsOf (text : List Char) : List Char × Int :=
  let body := text.dropWhile (· == '-')
  let mantissa := body.takeWhile (· != 'e')
  let exponent := ((String.ofList (body.drop (mantissa.length + 1))).dropWhile (· == '+')).toString.toInt?.getD 0
  let whole := mantissa.takeWhile (· != '.')
  let all := whole ++ mantissa.drop (whole.length + 1)
  let leading := (all.takeWhile (· == '0')).length
  let digits := ((all.drop leading).reverse.dropWhile (· == '0')).reverse
  (digits, exponent + whole.length - 1 - leading)

/-- A number of at most eight decimal places: what stands in front of the point and after it. -/
def positional (x : F) : List Char × List Char :=
  let text := (Scalar.text x).toList
  let split (cs : List Char) : List Char × List Char :=
    let whole := cs.takeWhile (· != '.')
    (whole, ((cs.drop (whole.length + 1)).reverse.dropWhile (· == '0')).reverse)
  let (whole, fraction) := split text
  if fraction.length ≤ 8 then (whole, fraction)
  else
    let (_, magnitude) := digitsOf text
    let rounded := (Scalar.scientific (magnitude + 9).toNat x).toList
    let (digits, k) := digitsOf rounded
    let sign := text.takeWhile (· == '-')
    if k < 0 then
      (sign ++ ['0'], List.replicate (-k - 1).toNat '0' ++ digits)
    else
      let padded := digits ++ List.replicate ((k + 1).toNat - digits.length) '0'
      (sign ++ padded.take (k + 1).toNat, padded.drop (k + 1).toNat)

/-- Scientific notation with at most eight decimal places: sign and first digit, the other digits,
and the exponent with its sign. -/
def exponential (x : F) : List Char × List Char × List Char :=
  let text := (Scalar.text x).toList
  let (digits, k) := digitsOf text
  let (digits, k) := if digits.length ≤ 9 then (digits, k) else digitsOf (Scalar.scientific 9 x).toList
  let sign := text.takeWhile (· == '-')
  let magnitude := Nat.toDigits 10 k.natAbs
  let exponent := (if k < 0 then '-' else '+') :: (List.replicate (2 - magnitude.length) '0' ++ magnitude)
  match digits with
  | [] => (sign ++ ['0'], [], ['+', '0', '0'])
  | d :: ds => (sign ++ [d], ds, exponent)

def greatest (ns : List Nat) : Nat := ns.foldl max 0

def padLeft (width : Nat) (cs : List Char) : List Char := List.replicate (width - cs.length) ' ' ++ cs

def padRight (fill : Char) (width : Nat) (cs : List Char) : List Char :=
  cs ++ List.replicate (width - cs.length) fill

/-- Whether numbers are written with exponents: when one is large, one is small or they spread. -/
def needsExponent (xs : List F) : Bool :=
  let sizes := (xs.filter fun x => !Scalar.isZero x).map Scalar.abs
  match sizes with
  | [] => false
  | s :: rest =>
    let high := rest.foldl (fun a b => if Scalar.lt a b then b else a) s
    let low := rest.foldl (fun a b => if Scalar.lt b a then b else a) s
    Scalar.le (Scalar.ofDecimal 1 16) high || Scalar.lt low (Scalar.ofDecimal 1 (-4))
      || Scalar.lt (Scalar.ofInt 1000) (high / low)

def floats (xs : List F) : List (List Char) :=
  let finite := xs.filter Scalar.isFinite
  let special := xs.filter fun x => !Scalar.isFinite x
  let specialWidth := greatest (special.map fun x => (Scalar.text x).length)
  if needsExponent finite then
    let parts := finite.map exponential
    let places := greatest (parts.map fun p => p.2.1.length)
    let exponentWidth := greatest (parts.map fun p => p.2.2.length)
    let after := places + exponentWidth + 1
    let before := max (greatest (parts.map fun p => p.1.length)) (specialWidth - (after + 1))
    xs.map fun x =>
      if Scalar.isFinite x then
        let (whole, fraction, exponent) := exponential x
        padLeft before whole ++ '.' :: (padRight '0' places fraction ++ 'e' :: exponent)
      else padLeft (before + after + 1) (Scalar.text x).toList
  else
    let parts := finite.map positional
    let places := greatest (parts.map fun p => p.2.length)
    let before := max (greatest (parts.map fun p => p.1.length)) (specialWidth - (places + 1))
    xs.map fun x =>
      if Scalar.isFinite x then
        let (whole, fraction) := positional x
        padLeft before whole ++ '.' :: padRight ' ' places fraction
      else padLeft (before + places + 1) (Scalar.text x).toList

def lineWidth : Nat := 75

/-- Items separated by commas; a line that would grow too long is broken. -/
def wrapped (indent : Nat) (items : List String) : String :=
  let width := lineWidth - 1
  let step (acc : String × Nat) (item : String) : String × Nat :=
    let (done, column) := acc
    if done.isEmpty then (item, indent + item.length)
    else if width < column + 2 + item.length then
      (done ++ ",\n" ++ String.ofList (List.replicate indent ' ') ++ item, indent + item.length)
    else (done ++ ", " ++ item, column + 2 + item.length)
  (items.foldl step ("", indent)).1

/-- Rows within brackets, one below the other from the second axis on. -/
def nested (indent : Nat) : List Nat → List String → String
  | [], items => items.headD ""
  | [_], items => "[" ++ wrapped (indent + 1) items ++ "]"
  | n :: shape, items =>
    let size := Shape.count shape
    let parts := (List.range n).map fun i => nested (indent + 1) shape ((items.drop (i * size)).take size)
    let gap := ",".append (String.ofList (List.replicate shape.length '\n'))
      ++ String.ofList (List.replicate (indent + 1) ' ')
    "[" ++ String.intercalate gap parts ++ "]"

end ArrayText

namespace Value

def complexText (re im : F) : String :=
  let trim (x : F) : String :=
    let cs := (Scalar.text x).toList
    match cs.reverse with
    | '0' :: '.' :: rest => String.ofList rest.reverse
    | _ => String.ofList cs
  let imaginary := trim im ++ "j"
  if Scalar.isZero re && !Scalar.signed re then imaginary
  else "(" ++ trim re ++ (if Scalar.signed im then "" else "+") ++ imaginary ++ ")"

def typeSuffix (kind : Kind) (cells : List (Value F)) : String :=
  match kind with
  | .int8 => ", dtype=int8"
  | .uint64 => ", dtype=uint64"
  | .half => ", dtype=float16"
  | .any => ", dtype=object"
  | .text =>
    let width := ArrayText.greatest (cells.map fun
      | str s => s.length
      | _ => 0)
    ", dtype='<U" ++ toString (max width 1) ++ "'"
  | .bool => if cells.isEmpty then ", dtype=bool" else ""
  | .int64 => if cells.isEmpty then ", dtype=int64" else ""
  | .double => if cells.isEmpty then ", dtype=float64" else ""
  | .complex => if cells.isEmpty then ", dtype=complex128" else ""

/-- The elements of an array, padded to a common width where their kind asks for it. -/
def elementTexts (kind : Kind) (cells : List (Value F)) (texts : List String) : List String :=
  let align (texts : List String) : List String :=
    let width := ArrayText.greatest (texts.map String.length)
    texts.map fun t => String.ofList (ArrayText.padLeft width t.toList)
  match kind with
  | .half | .double =>
    (ArrayText.floats (cells.map fun
      | float x => x
      | _ => Scalar.nan)).map String.ofList
  | .bool | .int8 | .int64 | .uint64 => align texts
  | .text =>
    let width := ArrayText.greatest (texts.map String.length)
    texts.map fun t => String.ofList (ArrayText.padRight ' ' width t.toList)
  | _ => texts

mutual

def display : Value F → String
  | null => "None"
  | bool b => if b then "True" else "False"
  | int n => toString n
  | float x => Scalar.text x
  | complex re im => complexText re im
  | str s => Quoted.quote s
  | bytes octets => Quoted.quoteOctets octets
  | ellipsis => "Ellipsis"
  | list items => Quoted.list (displayAll items)
  | tuple items => Quoted.tuple (displayAll items)
  | dict entries => Quoted.bracketed "\x7b" (displayEntries entries) "\x7d"
  | slice lower upper step =>
    "slice(" ++ display lower ++ ", " ++ display upper ++ ", " ++ display step ++ ")"
  | cell .bool v => "np." ++ display v ++ "_"
  | cell .any v => display v
  | cell kind v => "np." ++ typeName (cell kind v) ++ "(" ++ display v ++ ")"
  | array kind [] cells => "array(" ++ String.intercalate ", " (displayAll cells) ++ typeSuffix kind cells ++ ")"
  | array kind shape cells =>
    let texts := elementTexts kind cells (displayAll cells)
    let shapeNote := if cells.isEmpty && shape != [0] then ", shape=" ++ Error.shapeText shape else ""
    let body := if cells.isEmpty then "[]" else ArrayText.nested 6 shape texts
    "array(" ++ body ++ shapeNote ++ typeSuffix kind cells ++ ")"
  | series _ _ cells => Quoted.list (displayAll cells)
  | table _ columns => Quoted.list (columns.map (·.1))
  | sparse rows columns _ => "<" ++ toString rows ++ "x" ++ toString columns ++ " sparse matrix>"
  | function _ => "<function>"
  | expression e => e.display

def displayAll : List (Value F) → List String
  | [] => []
  | v :: vs => display v :: displayAll vs

def displayEntries : List (String × Value F) → List String
  | [] => []
  | (k, v) :: rest => (Quoted.quote k ++ ": " ++ display v) :: displayEntries rest

end

def plainText : Value F → String
  | str s => s
  | cell .text (str s) => s
  | cell _ v => display v
  | v => display v

end Value

end AdditiveModel
