import AdditiveModel.Text.Blank
import AdditiveModel.Text.Digit

/-!
Numerals in free text: what a text must look like to be read as a number.
-/

namespace AdditiveModel.Text

/-- What a numeral stands for: `mantissa * 10 ^ exponent`, or an exceptional value. -/
inductive Numeral where
  | decimal (negative : Bool) (mantissa : Nat) (exponent : Int)
  | infinity (negative : Bool)
  | nan
  deriving Repr, DecidableEq

namespace Numeral

def digitsValue (cs : List Char) : Nat := cs.foldl (fun acc c => 10 * acc + (c.toNat - 48)) 0

def foldDigits (cs : List Char) : List Char :=
  cs.map fun c => match Digit.value? c with
    | some d => Char.ofNat (48 + d)
    | none => c

/-- Removes underscores that stand between two digits; none when one stands elsewhere. -/
def dropUnderscores? : List Char → Option (List Char)
  | [] => some []
  | '_' :: _ => none
  | a :: '_' :: b :: rest =>
    if a.isDigit && b.isDigit then (dropUnderscores? (b :: rest)).map (a :: ·) else none
  | a :: rest => (dropUnderscores? rest).map (a :: ·)

def sign : List Char → Bool × List Char
  | '-' :: cs => (true, cs)
  | '+' :: cs => (false, cs)
  | cs => (false, cs)

/-- The exponent part: empty, or a mark, an optional sign and at least one digit. -/
def exponent? : List Char → Option Int
  | [] => some 0
  | c :: cs =>
    if c == 'e' || c == 'E' then
      let (negative, ds) := sign cs
      if ds.isEmpty || !ds.all Char.isDigit then none
      else some (if negative then -(digitsValue ds : Int) else digitsValue ds)
    else none

/-- An unsigned decimal numeral: digits with at most one point and at least one digit, then an
optional exponent. -/
def unsigned? (negative : Bool) (cs : List Char) : Option Numeral :=
  let whole := cs.takeWhile Char.isDigit
  let rest := cs.dropWhile Char.isDigit
  let (fraction, rest) :=
    match rest with
    | '.' :: r => (r.takeWhile Char.isDigit, r.dropWhile Char.isDigit)
    | r => ([], r)
  if whole.isEmpty && fraction.isEmpty then none
  else (exponent? rest).map fun e =>
    .decimal negative (digitsValue (whole ++ fraction)) (e - fraction.length)

/-- Reads a number: blanks around it, a sign, digits of any script with single underscores between
them, or the words for infinity and for no number in any case. -/
def ofText? (s : String) : Option Numeral :=
  let cs := foldDigits (Blank.strip s.toList)
  let (negative, body) := sign cs
  let word := String.ofList (body.map Char.toLower)
  if word == "nan" then some .nan
  else if word == "inf" || word == "infinity" then some (.infinity negative)
  else (dropUnderscores? body).bind (unsigned? negative)

/-- Reads an integer with the same blanks, sign, digits and underscores. -/
def integerOfText? (s : String) : Option Int :=
  let (negative, body) := sign (foldDigits (Blank.strip s.toList))
  (dropUnderscores? body).bind fun ds =>
    if ds.isEmpty || !ds.all Char.isDigit then none
    else some (if negative then -(digitsValue ds : Int) else digitsValue ds)

end Numeral

end AdditiveModel.Text
