import AdditiveModel.Text.Printable

/-!
Quoted texts. A text is written between single quotes, or between double quotes when it holds single
quotes only; backslashes, the quote in use and characters without a visible form are escaped.
-/

namespace AdditiveModel.Text.Quoted

def hexDigit (n : Nat) : Char := Char.ofNat (if n < 10 then 48 + n else 87 + n)

def hexText (width n : Nat) : List Char :=
  (List.range width).reverse.map fun i => hexDigit (n / Nat.pow 16 i % 16)

/-- The quote that needs the fewest escapes; single quotes where both need the same. -/
def quoteFor (cs : List Char) : Char :=
  if cs.contains '\'' && !cs.contains '"' then '"' else '\''

def escape (quote c : Char) : List Char :=
  if c == quote || c == '\\' then ['\\', c]
  else if c == '\n' then ['\\', 'n']
  else if c == '\r' then ['\\', 'r']
  else if c == '\t' then ['\\', 't']
  else if Printable.isPrintable c then [c]
  else if c.toNat < 0x100 then '\\' :: 'x' :: hexText 2 c.toNat
  else if c.toNat < 0x10000 then '\\' :: 'u' :: hexText 4 c.toNat
  else '\\' :: 'U' :: hexText 8 c.toNat

def encode (cs : List Char) : List Char :=
  let quote := quoteFor cs
  quote :: (cs.flatMap (escape quote) ++ [quote])

def quote (s : String) : String := String.ofList (encode s.toList)

def quoteOctets (octets : List UInt8) : String :=
  let cs := octets.map fun o => Char.ofNat o.toNat
  let quote := quoteFor cs
  let one (c : Char) : List Char :=
    if 0x7f ≤ c.toNat then '\\' :: 'x' :: hexText 2 c.toNat else escape quote c
  String.ofList ('b' :: quote :: (cs.flatMap one ++ [quote]))

def bracketed (opening : String) (items : List String) (closing : String) : String :=
  opening ++ String.intercalate ", " items ++ closing

def list (items : List String) : String := bracketed "[" items "]"

/-- A sequence of items in round brackets; a single item keeps a comma. -/
def tuple : List String → String
  | [item] => "(" ++ item ++ ",)"
  | items => bracketed "(" items ")"

end AdditiveModel.Text.Quoted
