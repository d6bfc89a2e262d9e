import AdditiveModel.Expr.Basic
import AdditiveModel.Text.Compatibility
import AdditiveModel.Text.Identifier
import AdditiveModel.Text.Numeral

/-!
The words of an expression text. Line ends count only outside brackets, and blank or comment lines
never do. `Token.scan` reads a whole text; what cannot be read ends the words with `Token.bad`, so
that a mistake in front of it is found first.
-/

namespace AdditiveModel

inductive Token where
  /-- A name in composed compatibility form. -/
  | name (name : String)
  | keyword (word : String)
  | number (value : Literal)
  /-- A plain text literal. -/
  | text (value : String)
  /-- An octet literal. -/
  | octets (value : List UInt8)
  /-- A formatted text literal: the content between its quotes, and whether escapes are kept. -/
  | template (content : List Char) (raw : Bool)
  | symbol (symbol : String)
  | newline
  | indent
  | bad
  deriving DecidableEq, Repr, Inhabited

namespace Token

open Text

def keywords : List String :=
  ["False", "None", "True", "and", "as", "assert", "async", "await", "break", "class", "continue",
   "def", "del", "elif", "else", "except", "finally", "for", "from", "global", "if", "import", "in",
   "is", "lambda", "nonlocal", "not", "or", "pass", "raise", "return", "try", "while", "with",
   "yield"]

def symbols : List (List Char) :=
  (["**=", "//=", ">>=", "<<=", "...", "!=", "<>", "<=", ">=", "==", "<<", ">>", "**", "//", "->",
    ":=", "+=", "-=", "*=", "/=", "%=", "&=", "|=", "^=", "@=", "+", "-", "*", "/", "%", "@", "&",
    "|", "^", "~", "<", ">", "(", ")", "[", "]", "\x7b", "\x7d", ",", ":", ".", ";", "="] :
    List String).map String.toList

def isNameChar (c : Char) : Bool := c.isAlphanum || c == '_' || 128 ≤ c.toNat

def after? : List Char → List Char → Option (List Char)
  | [], cs => some cs
  | _ :: _, [] => none
  | p :: ps, c :: cs => if p == c then after? ps cs else none

def unifyLines : List Char → List Char
  | '\r' :: '\n' :: cs => '\n' :: unifyLines cs
  | '\r' :: cs => '\n' :: unifyLines cs
  | c :: cs => c :: unifyLines cs
  | [] => []

/-- Digits of a class, with single underscores between them; none without a first digit or when an
underscore is not followed by a digit. -/
def digits? (isDigit : Char → Bool) : List Char → Option (List Char × List Char)
  | [] => none
  | c :: cs => if isDigit c then more isDigit [c] cs else none
where
  more (isDigit : Char → Bool) (seen : List Char) : List Char → Option (List Char × List Char)
    | '_' :: c :: cs => if isDigit c then more isDigit (c :: seen) cs else none
    | ['_'] => none
    | c :: cs => if isDigit c then more isDigit (c :: seen) cs else some (seen.reverse, c :: cs)
    | [] => some (seen.reverse, [])

def digitValue (c : Char) : Nat :=
  if c.isDigit then c.toNat - 48 else if c.isUpper then c.toNat - 55 else c.toNat - 87

def valueIn (base : Nat) (ds : List Char) : Nat := ds.foldl (fun acc c => base * acc + digitValue c) 0

def followers : List (List Char) :=
  (["and", "else", "for", "if", "in", "is", "or", "not"] : List String).map String.toList

def endsNumber (cs : List Char) : Bool :=
  followers.any (fun w => (after? w cs).isSome) || !(cs.head?.any isNameChar)

def radix? : Char → Option (Nat × (Char → Bool))
  | 'x' | 'X' => some (16, fun c => c.isDigit || ('a' ≤ c && c ≤ 'f') || ('A' ≤ c && c ≤ 'F'))
  | 'o' | 'O' => some (8, fun c => '0' ≤ c && c ≤ '7')
  | 'b' | 'B' => some (2, fun c => c == '0' || c == '1')
  | _ => none

def longestInteger : Nat := 4300

def fraction? : List Char → Option (List Char × List Char)
  | c :: cs => if c.isDigit then digits? Char.isDigit (c :: cs) else some ([], c :: cs)
  | [] => some ([], [])

/-- An exponent, when a mark is followed by digits. A mark in front of anything else belongs to what
follows the number. -/
def exponent? : List Char → Option (Int × List Char)
  | mark :: cs =>
    if mark == 'e' || mark == 'E' then
      let (negative, ds) := Numeral.sign cs
      let signed := decide (ds.length < cs.length)
      match ds with
      | c :: _ =>
        if c.isDigit then
          (digits? Char.isDigit ds).map fun (e, rest) =>
            (if negative then -(Numeral.digitsValue e : Int) else Numeral.digitsValue e, rest)
        else if signed then none
        else some (0, mark :: cs)
      | [] => if signed then none else some (0, mark :: cs)
    else some (0, mark :: cs)
  | [] => some (0, [])

def imaginary : List Char → Bool × List Char
  | c :: cs => if c == 'j' || c == 'J' then (true, cs) else (false, c :: cs)
  | [] => (false, [])

/-- A decimal number with the given whole digits; `rest` starts after them. -/
def decimal? (whole rest : List Char) : Option (Literal × List Char) := do
  let (pointed, fraction, rest) ←
    match rest with
    | '.' :: r => (fraction? r).map fun (f, r) => (true, f, r)
    | r => some (false, [], r)
  let (exponent, afterExponent) ← exponent? rest
  let scaled := decide (afterExponent.length < rest.length)
  let (unreal, rest) := imaginary afterExponent
  if !endsNumber rest then none
  let mantissa := Numeral.digitsValue (whole ++ fraction)
  if unreal then return (.imaginary mantissa (exponent - fraction.length), rest)
  if pointed || scaled then return (.decimal mantissa (exponent - fraction.length), rest)
  if whole.length > longestInteger then none
  if whole.head? == some '0' && mantissa != 0 then none
  return (.int mantissa, rest)

/-- A number; the text starts with a digit, or with a point and a digit. -/
def number? : List Char → Option (Literal × List Char)
  | '.' :: cs => decimal? [] ('.' :: cs)
  | '0' :: c :: cs =>
    match radix? c with
    | some (base, isDigit) => do
      let body := match cs with
        | '_' :: r => r
        | r => r
      let (ds, rest) ← digits? isDigit body
      if rest.head?.any Char.isDigit || !endsNumber rest then none
      return (.int (valueIn base ds), rest)
    | none => do
      let (whole, rest) ← digits? Char.isDigit ('0' :: c :: cs)
      decimal? whole rest
  | cs => do
    let (whole, rest) ← digits? Char.isDigit cs
    decimal? whole rest

structure StringKind where
  octets : Bool
  raw : Bool
  template : Bool
  deriving Repr

def stringKind? (letters : List Char) : Option StringKind :=
  match letters.map Char.toLower with
  | [] | ['u'] => some ⟨false, false, false⟩
  | ['b'] => some ⟨true, false, false⟩
  | ['r'] => some ⟨false, true, false⟩
  | ['f'] => some ⟨false, false, true⟩
  | ['b', 'r'] | ['r', 'b'] => some ⟨true, true, false⟩
  | ['f', 'r'] | ['r', 'f'] => some ⟨false, true, true⟩
  | _ => none

/-- The content up to the closing quotes and the rest. A backslash keeps the next character. -/
def content? (quote : Char) (triple : Bool) (seen : List Char) :
    List Char → Option (List Char × List Char)
  | [] => none
  | '\\' :: c :: cs => content? quote triple (c :: '\\' :: seen) cs
  | c :: cs =>
    if c == quote then
      if triple then
        match after? [quote, quote] cs with
        | some rest => some (seen.reverse, rest)
        | none => content? quote triple (c :: seen) cs
      else some (seen.reverse, cs)
    else if c == '\n' && !triple then none
    else content? quote triple (c :: seen) cs

def isOctal (c : Char) : Bool := '0' ≤ c && c ≤ '7'

def isHex (c : Char) : Bool := c.isDigit || ('a' ≤ c && c ≤ 'f') || ('A' ≤ c && c ≤ 'F')

def charOf? (n : Nat) : Option Char := if n.isValidChar then some (Char.ofNat n) else none

def simpleEscape? : Char → Option Char
  | '\\' => some '\\'
  | '\'' => some '\''
  | '"' => some '"'
  | 'a' => some '\x07'
  | 'b' => some '\x08'
  | 'f' => some '\x0c'
  | 'n' => some '\n'
  | 'r' => some '\r'
  | 't' => some '\t'
  | 'v' => some '\x0b'
  | _ => none

def escapeWidth? (octets : Bool) : Char → Option Nat
  | 'x' => some 2
  | 'u' => if octets then none else some 4
  | 'U' => if octets then none else some 8
  | _ => none

/-- Replaces escapes; an unknown one stays as it is. The fuel is the length of the text. -/
def unescape? (octets : Bool) : Nat → List Char → Option (List Char)
  | 0, _ => some []
  | _, [] => some []
  | fuel + 1, '\\' :: '\n' :: cs => unescape? octets fuel cs
  | fuel + 1, '\\' :: c :: cs =>
    match simpleEscape? c with
    | some d => (unescape? octets fuel cs).map (d :: ·)
    | none =>
      if isOctal c then
        let ds := c :: (cs.take 2).takeWhile isOctal
        let code := if octets then valueIn 8 ds % 256 else valueIn 8 ds
        (unescape? octets fuel (cs.drop (ds.length - 1))).map (Char.ofNat code :: ·)
      else
        match escapeWidth? octets c with
        | some width => do
          let ds := cs.take width
          if ds.length < width || !ds.all isHex then none
          let d ← charOf? (valueIn 16 ds)
          return d :: (← unescape? octets fuel (cs.drop width))
        | none =>
          if c == 'N' && !octets then none
          else (unescape? octets fuel cs).map ('\\' :: c :: ·)
  | fuel + 1, c :: cs => (unescape? octets fuel cs).map (c :: ·)

def literal? (kind : StringKind) (content : List Char) : Option Token :=
  if kind.template then some (.template content kind.raw)
  else do
    if kind.octets && content.any (fun c => 128 ≤ c.toNat) then none
    let cs ← if kind.raw then some content else unescape? kind.octets content.length content
    if kind.octets then return .octets (cs.map fun c => UInt8.ofNat c.toNat)
    return .text (String.ofList cs)

def quoted? (kind : StringKind) : List Char → Option (Token × List Char)
  | quote :: cs => do
    let (triple, body) := match after? [quote, quote] cs with
      | some body => (true, body)
      | none => (false, cs)
    let (content, rest) ← content? quote triple [] body
    return (← literal? kind content, rest)
  | [] => none

/-- Letters that may stand in front of a quote, when a quote does follow them. -/
def stringStart? (cs : List Char) : Option (StringKind × List Char) :=
  let letters := cs.takeWhile fun c => c.isAlpha
  let rest := cs.drop letters.length
  if rest.head? == some '\'' || rest.head? == some '"' then
    (stringKind? letters).map fun kind => (kind, rest)
  else none

def ofWord (cs : List Char) : Token :=
  let word := String.ofList cs
  if keywords.contains word then .keyword word
  else if Identifier.isName cs then .name (Compatibility.normalize word)
  else .bad

/-- The word at the head of a text that starts with none of blank, line end and comment. -/
def word? (cs : List Char) : Option (Token × List Char) :=
  match stringStart? cs with
  | some (kind, rest) => quoted? kind rest
  | none =>
    match cs with
    | [] => none
    | c :: rest =>
      if c.isDigit || (c == '.' && rest.head?.any Char.isDigit) then
        (number? cs).map fun (value, rest) => (.number value, rest)
      else if isNameChar c then some (ofWord (cs.takeWhile isNameChar), cs.dropWhile isNameChar)
      else symbols.findSome? fun s => (after? s cs).map fun rest => (.symbol (String.ofList s), rest)

def deepestBracket : Nat := 200

/-- The brackets that are open after a token, innermost first; none when a bracket does not match. -/
def brackets? (opened : List String) : Token → Option (List String)
  | .symbol "(" => open? ")"
  | .symbol "[" => open? "]"
  | .symbol "\x7b" => open? "\x7d"
  | .symbol ")" => close? ")"
  | .symbol "]" => close? "]"
  | .symbol "\x7d" => close? "\x7d"
  | _ => some opened
where
  open? (closing : String) : Option (List String) :=
    if opened.length < deepestBracket then some (closing :: opened) else none
  close? (closing : String) : Option (List String) :=
    match opened with
    | expected :: rest => if expected == closing then some rest else none
    | [] => none

def isSpace (c : Char) : Bool := c == ' ' || c == '\t' || c == '\x0c'

def dropComment (cs : List Char) : List Char :=
  match cs with
  | '#' :: _ => cs.dropWhile (· != '\n')
  | _ => cs

/-- The column that a line starts at: a form feed starts anew, a tabulator goes to the next multiple
of eight. -/
def column (cs : List Char) : Nat :=
  (cs.takeWhile isSpace).foldl (fun col c =>
    if c == ' ' then col + 1 else if c == '\t' then (col / 8 + 1) * 8 else 0) 0

/-- Reads the words. `fresh` holds at the start of a line outside brackets. The fuel is one more than
the length of the text. -/
def scanFrom : Nat → Bool → List String → List Char → List Token
  | 0, _, _, _ => []
  | fuel + 1, fresh, opened, cs =>
    let body := dropComment (cs.dropWhile isSpace)
    match body with
    | [] => if opened.isEmpty then [] else [.bad]
    | '\n' :: rest =>
      if fresh || !opened.isEmpty then scanFrom fuel fresh opened rest
      else .newline :: scanFrom fuel true opened rest
    | '\\' :: '\n' :: rest =>
      if rest.isEmpty then [.bad]
      else if fresh && 0 < column cs then .indent :: scanFrom fuel false opened rest
      else scanFrom fuel fresh opened rest
    | _ =>
      if fresh && 0 < column cs then .indent :: scanFrom fuel false opened body
      else
        match word? body with
        | some (token, rest) =>
          match brackets? opened token with
          | some opened => token :: scanFrom fuel false opened rest
          | none => [.bad]
        | none => [.bad]

def scan (text : String) : List Token :=
  let cs := unifyLines text.toList
  scanFrom (2 * cs.length + 2) true [] cs

end Token

end AdditiveModel
