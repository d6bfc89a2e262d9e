import AdditiveModel.Expr.Token

/-!
Formatted text literals: which texts between braces have to be expressions. The language refuses such
a literal, but only after it has been read, so its parts must be well formed.
-/

namespace AdditiveModel.Template

open Token

/-- A field ends its expression at one of these, outside brackets. -/
def isTerminator (c : Char) : Bool :=
  c == '!' || c == ':' || c == '}' || c == '=' || c == '<' || c == '>'

def closing? : Char → Option Char
  | '(' => some ')'
  | '[' => some ']'
  | '{' => some '}'
  | _ => none

/-- The expression at the head of a field and what follows it. `quote` is the open quote, with true
for a triple one; `opened` holds the brackets to close. The fuel is the length of the text. -/
def expressionText? (quote : Option (Char × Bool)) (opened seen : List Char) :
    Nat → List Char → Option (List Char × List Char)
  | 0, _ | _, [] => none
  | fuel + 1, c :: cs =>
    if c == '\\' then none
    else
      match quote with
      | some (q, triple) =>
        if c == q then
          if triple then
            match after? [q, q] cs with
            | some rest => expressionText? none opened (q :: q :: q :: seen) fuel rest
            | none => expressionText? quote opened (c :: seen) fuel cs
          else expressionText? none opened (c :: seen) fuel cs
        else expressionText? quote opened (c :: seen) fuel cs
      | none =>
        if c == '\'' || c == '"' then
          match after? [c, c] cs with
          | some rest => expressionText? (some (c, true)) opened (c :: c :: c :: seen) fuel rest
          | none => expressionText? (some (c, false)) opened (c :: seen) fuel cs
        else if c == '#' then none
        else if opened.isEmpty && isTerminator c then
          match cs with
          | '=' :: rest =>
            if c == '!' || c == '=' || c == '<' || c == '>' then
              expressionText? none opened ('=' :: c :: seen) fuel rest
            else some (seen.reverse, c :: cs)
          | _ =>
            if c == '<' || c == '>' then expressionText? none opened (c :: seen) fuel cs
            else some (seen.reverse, c :: cs)
        else
          match closing? c with
          | some close => expressionText? none (close :: opened) (c :: seen) fuel cs
          | none =>
            if c == ')' || c == ']' || c == '}' then
              match opened with
              | close :: opened =>
                if c == close then expressionText? none opened (c :: seen) fuel cs else none
              | [] => none
            else expressionText? none opened (c :: seen) fuel cs

/-- The literal text up to a brace. At the outer level doubled braces are text. -/
def literalText? (outer raw : Bool) (seen : List Char) :
    Nat → List Char → Option (List Char × List Char)
  | 0, cs => some (seen.reverse, cs)
  | _, [] => some (seen.reverse, [])
  | fuel + 1, c :: cs =>
    if c == '{' || c == '}' then
      if outer && cs.head? == some c then literalText? outer raw (c :: seen) fuel (cs.drop 1)
      else if outer && c == '}' then none
      else some (seen.reverse, c :: cs)
    else if c == '\\' && !raw then
      match cs with
      | d :: rest =>
        if d == '{' || d == '}' then literalText? outer raw (c :: seen) fuel cs
        else literalText? outer raw (d :: c :: seen) fuel rest
      | [] => some ((c :: seen).reverse, [])
    else literalText? outer raw (c :: seen) fuel cs

/-- What follows the expression of a field up to its format, or its closing brace. -/
def conversion? (cs : List Char) : Option (List Char) :=
  let cs := match cs with
    | '=' :: rest => rest.dropWhile fun c => c == ' ' || ('\t' ≤ c && c ≤ '\r')
    | _ => cs
  match cs with
  | '!' :: c :: rest => if c == 's' || c == 'r' || c == 'a' then some rest else none
  | ['!'] => none
  | _ => some cs

/-- The expressions of all fields from here on, and the rest at the closing brace of an enclosing
field. Fields nest in formats only, two deep. -/
def fieldsFrom (raw : Bool) : Nat → Nat → List Char → Option (List (List Char) × List Char)
  | 0, _, _ => none
  | fuel + 1, level, cs => do
    let (passage, rest) ← literalText? (level == 0) raw [] cs.length cs
    if !raw then
      let _ ← unescape? false passage.length passage
    match rest with
    | '{' :: body =>
      if 2 ≤ level then none
      let (expression, rest) ← expressionText? none [] [] body.length body
      if expression.all fun c => c == ' ' || ('\t' ≤ c && c ≤ '\r') then none
      let rest ← conversion? rest
      let (inner, rest) ← match rest with
        | ':' :: format => fieldsFrom raw fuel (level + 1) format
        | _ => some ([], rest)
      match rest with
      | '}' :: rest =>
        let (others, rest) ← fieldsFrom raw fuel level rest
        return (expression :: (inner ++ others), rest)
      | _ => none
    | _ => return ([], rest)

/-- The expressions of all fields of a literal; none when it is not well formed. -/
def fields? (content : List Char) (raw : Bool) : Option (List (List Char)) := do
  let (expressions, rest) ← fieldsFrom raw (content.length + 1) 0 content
  if rest.isEmpty then some expressions else none

end AdditiveModel.Template
