import AdditiveModel.Expr.Grammar

/-!
Expressions with their text. A leading tilde is dropped, so that the right hand side of a formula can
be written as one. An expression holds its checked tree, so that evaluating it cannot meet anything
outside the language.
-/

namespace AdditiveModel

structure Expression where
  text : String
  tree : Expr
  deriving Repr, Inhabited

namespace Expression

open Text

/-- Drops blanks at both ends and one leading tilde with the blanks after it. -/
def clean (text : String) : String :=
  match Blank.strip text.toList with
  | '~' :: rest => String.ofList (Blank.strip rest)
  | cs => String.ofList cs

def tree? (text : String) : Except Error Expr :=
  match Grammar.parse (Token.scan text) with
  | .error kind => .error (.grammar text kind)
  | .ok surface =>
    match surface.refusal? with
    | some refusal => .error (refusal.error text)
    | none =>
      match surface.toExpr? with
      | some tree => .ok tree
      | none => .error (.grammar text .grammar)

def ofText (text : String) : Except Error Expression :=
  let text := clean text
  (tree? text).map (Expression.mk text)

/-- The names that the expression refers to, each once, by code point. -/
def names (e : Expression) : List String :=
  e.tree.names.eraseDups.mergeSort (fun a b => decide (a ≤ b))

def display (e : Expression) : String := "Expression(" ++ Quoted.quote e.text ++ ")"

end Expression

end AdditiveModel
