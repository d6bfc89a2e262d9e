import AdditiveModel.Expr.Surface
import AdditiveModel.Expr.Template

/-!
Reads the words of an expression as a tree. Each function takes fuel, the words left, and gives what
it has read and the words after it. The fuel bounds the depth of the calls: between two words at most
`depthPerWord` calls are nested, so `fuelFor` is enough for any list of words.
-/

namespace AdditiveModel

/-- A tree together with whether it may be assigned to. -/
structure Reading where
  tree : Surface
  target : Bool
  deriving Inhabited

namespace Grammar

abbrev Words := List Token

def foreign (construct : String) : Reading := ⟨.foreign construct, false⟩

def plain (tree : Surface) : Reading := ⟨tree, false⟩

def tupleOf (items : List Reading) : Reading :=
  ⟨.tuple (items.map (·.tree)), items.all (·.target)⟩

def listOf (items : List Reading) : Reading :=
  ⟨.list (items.map (·.tree)), items.all (·.target)⟩

/-- The operators of one level of precedence, the loosest level first. -/
def operator? : Nat → String → Option (Except String BinaryOp)
  | 0, "|" => some (.ok .bitOr)
  | 1, "^" => some (.error "BitXor")
  | 2, "&" => some (.ok .bitAnd)
  | 3, "<<" => some (.error "LShift")
  | 3, ">>" => some (.error "RShift")
  | 4, "+" => some (.ok .add)
  | 4, "-" => some (.ok .sub)
  | 5, "*" => some (.ok .mul)
  | 5, "/" => some (.ok .div)
  | 5, "//" => some (.ok .floorDiv)
  | 5, "%" => some (.ok .mod)
  | 5, "@" => some (.ok .matMul)
  | _, _ => none

def tightest : Nat := 5

def combine : Except String BinaryOp → Surface → Surface → Surface
  | .ok op, left, right => .binary op left right
  | .error construct, left, right => .strange left construct right

def comparison? : Words → Option (Except String Comparison × Words)
  | .symbol "==" :: rest => some (.ok .eq, rest)
  | .symbol "!=" :: rest => some (.ok .ne, rest)
  | .symbol "<" :: rest => some (.ok .lt, rest)
  | .symbol "<=" :: rest => some (.ok .le, rest)
  | .symbol ">" :: rest => some (.ok .gt, rest)
  | .symbol ">=" :: rest => some (.ok .ge, rest)
  | .keyword "in" :: rest => some (.error "In", rest)
  | .keyword "not" :: .keyword "in" :: rest => some (.error "NotIn", rest)
  | .keyword "is" :: .keyword "not" :: rest => some (.error "IsNot", rest)
  | .keyword "is" :: rest => some (.error "Is", rest)
  | _ => none

def unary? : Words → Option (UnaryOp × Words)
  | .symbol "-" :: rest => some (.neg, rest)
  | .symbol "+" :: rest => some (.pos, rest)
  | .symbol "~" :: rest => some (.invert, rest)
  | _ => none

def accept? (symbol : String) : Words → Option Words
  | .symbol s :: rest => if s == symbol then some rest else none
  | _ => none

def acceptWord? (word : String) : Words → Option Words
  | .keyword w :: rest => if w == word then some rest else none
  | _ => none

def isText : Token → Bool
  | .text _ | .octets _ | .template _ _ => true
  | _ => false

def text? : Token → Option String
  | .text s => some s
  | _ => none

def octets? : Token → Option (List UInt8)
  | .octets os => some os
  | _ => none

def joined? (parts : Words) : Option Literal :=
  match parts.mapM text? with
  | some texts => some (.str (String.join texts))
  | none =>
    (parts.mapM octets?).map fun groups => .bytes groups.flatten

def isOctets : Token → Bool
  | .octets _ => true
  | _ => false

def isTemplate : Token → Bool
  | .template _ _ => true
  | _ => false

def startsLoop : Words → Bool
  | .keyword "for" :: _ | .keyword "async" :: .keyword "for" :: _ => true
  | _ => false

inductive Parameter where
  | plain (optional : Bool)
  | slash
  | star
  | rest
  | table
  deriving DecidableEq, Repr

/-- Whether parameters may stand in this order. `optional` holds after an optional parameter, `slash`
while a slash may still come, `first` for the first parameter. -/
def parametersOk (first slash optional : Bool) : List Parameter → Bool
  | [] => true
  | .plain o :: ps => (o || !optional) && parametersOk false slash (o || optional) ps
  | .slash :: ps => slash && !first && parametersOk false false optional ps
  | .star :: .plain _ :: ps => keywordsOk ps
  | .star :: _ => false
  | .rest :: ps => keywordsOk ps
  | .table :: ps => ps.isEmpty
where
  keywordsOk : List Parameter → Bool
    | [] => true
    | .plain _ :: ps => keywordsOk ps
    | .table :: ps => ps.isEmpty
    | _ => false

mutual

def expression? : Nat → Words → Option (Reading × Words)
  | 0, _ => none
  | fuel + 1, .keyword "lambda" :: rest => do
    let (parameters, rest) ← parameters? fuel rest
    if !parametersOk true true false parameters then none
    let rest ← accept? ":" rest
    let (_, rest) ← expression? fuel rest
    return (foreign "Lambda", rest)
  | fuel + 1, words => do
    let (first, rest) ← disjunction? fuel words
    match acceptWord? "if" rest with
    | some rest =>
      let (_, rest) ← disjunction? fuel rest
      let rest ← acceptWord? "else" rest
      let (_, rest) ← expression? fuel rest
      return (foreign "IfExp", rest)
    | none => return (first, rest)

def parameters? : Nat → Words → Option (List Parameter × Words)
  | 0, _ => none
  | fuel + 1, words =>
    match words with
    | .symbol ":" :: _ => some ([], words)
    | .symbol "/" :: rest => moreParameters? fuel .slash rest
    | .symbol "**" :: .name _ :: rest => moreParameters? fuel .table rest
    | .symbol "*" :: .name _ :: rest => moreParameters? fuel .rest rest
    | .symbol "*" :: rest => moreParameters? fuel .star rest
    | .name _ :: .symbol "=" :: rest => do
      let (_, rest) ← expression? fuel rest
      moreParameters? fuel (.plain true) rest
    | .name _ :: rest => moreParameters? fuel (.plain false) rest
    | _ => none

def moreParameters? : Nat → Parameter → Words → Option (List Parameter × Words)
  | 0, _, _ => none
  | fuel + 1, parameter, words =>
    match words with
    | .symbol ":" :: _ => some ([parameter], words)
    | .symbol "," :: rest => (parameters? fuel rest).map fun (ps, rest) => (parameter :: ps, rest)
    | _ => none

def disjunction? : Nat → Words → Option (Reading × Words)
  | 0, _ => none
  | fuel + 1, words => do
    let (first, rest) ← conjunction? fuel words
    match acceptWord? "or" rest with
    | some rest => (disjunction? fuel rest).map fun (_, rest) => (foreign "BoolOp", rest)
    | none => return (first, rest)

def conjunction? : Nat → Words → Option (Reading × Words)
  | 0, _ => none
  | fuel + 1, words => do
    let (first, rest) ← inversion? fuel words
    match acceptWord? "and" rest with
    | some rest => (conjunction? fuel rest).map fun (_, rest) => (foreign "BoolOp", rest)
    | none => return (first, rest)

def inversion? : Nat → Words → Option (Reading × Words)
  | 0, _ => none
  | fuel + 1, .keyword "not" :: rest =>
    (inversion? fuel rest).map fun (r, rest) => (plain (.unary .not r.tree), rest)
  | fuel + 1, words => do
    let (first, rest) ← binary? fuel 0 words
    let (chain, rest) ← comparisons? fuel rest
    if chain.isEmpty then return (first, rest)
    return (plain (.compare first.tree chain), rest)

def comparisons? : Nat → Words → Option (List (Except String Comparison × Surface) × Words)
  | 0, _ => none
  | fuel + 1, words =>
    match comparison? words with
    | some (op, rest) => do
      let (operand, rest) ← binary? fuel 0 rest
      let (chain, rest) ← comparisons? fuel rest
      return ((op, operand.tree) :: chain, rest)
    | none => some ([], words)

def binary? : Nat → Nat → Words → Option (Reading × Words)
  | 0, _, _ => none
  | fuel + 1, level, words =>
    if tightest < level then factor? fuel words
    else do
      let (first, rest) ← binary? fuel (level + 1) words
      moreOperands? fuel level first rest

/-- Further operands of one level, to the left of which `left` stands. -/
def moreOperands? : Nat → Nat → Reading → Words → Option (Reading × Words)
  | 0, _, _, _ => none
  | fuel + 1, level, left, words =>
    match words with
    | .symbol s :: rest =>
      match operator? level s with
      | some op => do
        let (right, rest) ← binary? fuel (level + 1) rest
        moreOperands? fuel level (plain (combine op left.tree right.tree)) rest
      | none => some (left, words)
    | _ => some (left, words)

def factor? : Nat → Words → Option (Reading × Words)
  | 0, _ => none
  | fuel + 1, words =>
    match unary? words with
    | some (op, rest) =>
      (factor? fuel rest).map fun (r, rest) => (plain (.unary op r.tree), rest)
    | none => do
      let (base, rest) ←
        match acceptWord? "await" words with
        | some rest => (primary? fuel rest).map fun (_, rest) => (foreign "Await", rest)
        | none => primary? fuel words
      match accept? "**" rest with
      | some rest =>
        (factor? fuel rest).map fun (r, rest) => (plain (.binary .pow base.tree r.tree), rest)
      | none => return (base, rest)

def primary? : Nat → Words → Option (Reading × Words)
  | 0, _ => none
  | fuel + 1, words => do
    let (first, rest) ← atom? fuel words
    trailers? fuel first rest

def trailers? : Nat → Reading → Words → Option (Reading × Words)
  | 0, _, _ => none
  | fuel + 1, left, words =>
    match words with
    | .symbol "." :: .name _ :: rest => trailers? fuel ⟨.foreign "Attribute", true⟩ rest
    | .symbol "(" :: rest => do
      let (args, keywords, rest) ← arguments? fuel rest
      trailers? fuel (plain (.call left.tree args keywords)) rest
    | .symbol "[" :: rest => do
      let (index, rest) ← subscript? fuel rest
      trailers? fuel ⟨.subscript left.tree index.tree, true⟩ rest
    | _ => some (left, words)

def arguments? : Nat → Words →
    Option (List Surface × List (Option String × Surface) × Words)
  | 0, _ => none
  | fuel + 1, words =>
    match accept? ")" words with
    | some rest => some ([], [], rest)
    | none =>
      match words with
      | .symbol "*" :: _ => positional? fuel words
      | .symbol "**" :: _ | .name _ :: .symbol "=" :: _ => named? fuel false words
      | _ => do
        let (first, rest) ← namedExpression? fuel words
        if startsLoop rest then
          let rest ← loops? fuel rest
          let rest ← accept? ")" rest
          return ([.foreign "GeneratorExp"], [], rest)
        morePositional? fuel first.tree rest

def positional? : Nat → Words →
    Option (List Surface × List (Option String × Surface) × Words)
  | 0, _ => none
  | fuel + 1, words =>
    match words with
    | .symbol ")" :: rest => some ([], [], rest)
    | .symbol "**" :: _ | .name _ :: .symbol "=" :: _ => named? fuel false words
    | _ => do
      let (arg, rest) ←
        match accept? "*" words with
        | some rest => (expression? fuel rest).map fun (_, rest) => (Surface.foreign "Starred", rest)
        | none => (namedExpression? fuel words).map fun (r, rest) => (r.tree, rest)
      morePositional? fuel arg rest

/-- The arguments from a positional one on, which has been read already. -/
def morePositional? : Nat → Surface → Words →
    Option (List Surface × List (Option String × Surface) × Words)
  | 0, _, _ => none
  | fuel + 1, arg, words =>
    match words with
    | .symbol "," :: rest =>
      (positional? fuel rest).map fun (args, keywords, rest) => (arg :: args, keywords, rest)
    | .symbol ")" :: rest => some ([arg], [], rest)
    | _ => none

/-- Keyword arguments and unpacked values. After an unpacked table no unpacked list may come. -/
def named? : Nat → Bool → Words →
    Option (List Surface × List (Option String × Surface) × Words)
  | 0, _, _ => none
  | fuel + 1, tables, words =>
    match words with
    | .symbol ")" :: rest => some ([], [], rest)
    | .symbol "**" :: rest => do
      let (value, rest) ← expression? fuel rest
      let (args, keywords, rest) ← moreNamed? fuel true rest
      return (args, (none, value.tree) :: keywords, rest)
    | .name x :: .symbol "=" :: rest => do
      let (value, rest) ← expression? fuel rest
      let (args, keywords, rest) ← moreNamed? fuel tables rest
      return (args, (some x, value.tree) :: keywords, rest)
    | .symbol "*" :: rest =>
      if tables then none
      else do
        let (_, rest) ← expression? fuel rest
        let (args, keywords, rest) ← moreNamed? fuel tables rest
        return (.foreign "Starred" :: args, keywords, rest)
    | _ => none

def moreNamed? : Nat → Bool → Words →
    Option (List Surface × List (Option String × Surface) × Words)
  | 0, _, _ => none
  | fuel + 1, tables, words =>
    match words with
    | .symbol "," :: rest => named? fuel tables rest
    | .symbol ")" :: rest => some ([], [], rest)
    | _ => none

/-- A subscript up to and with the closing bracket: one index, or several as a tuple. -/
def subscript? : Nat → Words → Option (Reading × Words)
  | 0, _ => none
  | fuel + 1, words => do
    let (first, starred, rest) ← index? fuel words
    match rest with
    | .symbol "]" :: rest =>
      if starred then return (tupleOf [first], rest) else return (first, rest)
    | .symbol "," :: rest =>
      let (others, rest) ← indices? fuel rest
      return (plain (.tuple (first.tree :: others)), rest)
    | _ => none

def indices? : Nat → Words → Option (List Surface × Words)
  | 0, _ => none
  | fuel + 1, words =>
    match accept? "]" words with
    | some rest => some ([], rest)
    | none => do
      let (first, _, rest) ← index? fuel words
      match rest with
      | .symbol "]" :: rest => return ([first.tree], rest)
      | .symbol "," :: rest =>
        let (others, rest) ← indices? fuel rest
        return (first.tree :: others, rest)
      | _ => none

/-- One index: an expression, a slice or an unpacked list, with true for the latter. -/
def index? : Nat → Words → Option (Reading × Bool × Words)
  | 0, _ => none
  | fuel + 1, words =>
    match words with
    | .symbol "*" :: rest =>
      (expression? fuel rest).map fun (_, rest) => (foreign "Starred", true, rest)
    | .symbol ":" :: _ => sliceFrom? fuel none words
    | _ => do
      let (first, rest) ← namedExpression? fuel words
      match rest with
      | .symbol ":" :: _ =>
        match first.tree, words with
        | .foreign "NamedExpr", .name _ :: _ => none
        | _, _ => sliceFrom? fuel (some first.tree) rest
      | _ => return (first, false, rest)

def sliceFrom? : Nat → Option Surface → Words → Option (Reading × Bool × Words)
  | 0, _, _ => none
  | fuel + 1, lower, words => do
    let rest ← accept? ":" words
    let (upper, rest) ← bound? fuel rest
    match accept? ":" rest with
    | some rest =>
      let (step, rest) ← bound? fuel rest
      return (plain (.slice lower upper step), false, rest)
    | none => return (plain (.slice lower upper none), false, rest)

def bound? : Nat → Words → Option (Option Surface × Words)
  | 0, _ => none
  | fuel + 1, words =>
    match words with
    | .symbol ":" :: _ | .symbol "]" :: _ | .symbol "," :: _ => some (none, words)
    | _ => (expression? fuel words).map fun (r, rest) => (some r.tree, rest)

def namedExpression? : Nat → Words → Option (Reading × Words)
  | 0, _ => none
  | fuel + 1, .name _ :: .symbol ":=" :: rest =>
    (expression? fuel rest).map fun (_, rest) => (foreign "NamedExpr", rest)
  | fuel + 1, words => expression? fuel words

def item? : Nat → Words → Option (Reading × Words)
  | 0, _ => none
  | fuel + 1, .symbol "*" :: rest =>
    (binary? fuel 0 rest).map fun (r, rest) => (⟨.foreign "Starred", r.target⟩, rest)
  | fuel + 1, words => namedExpression? fuel words

def items? : Nat → String → Words → Option (List Reading × Words)
  | 0, _, _ => none
  | fuel + 1, closing, words =>
    match accept? closing words with
    | some rest => some ([], rest)
    | none => do
      let (first, rest) ← item? fuel words
      match accept? closing rest with
      | some rest => return ([first], rest)
      | none =>
        let rest ← accept? "," rest
        let (others, rest) ← items? fuel closing rest
        return (first :: others, rest)

def loops? : Nat → Words → Option Words
  | 0, _ => none
  | fuel + 1, words => do
    let words := (acceptWord? "async" words).getD words
    let rest ← acceptWord? "for" words
    let rest ← targets? fuel rest
    let rest ← acceptWord? "in" rest
    let (_, rest) ← disjunction? fuel rest
    let rest ← conditions? fuel rest
    if startsLoop rest then loops? fuel rest else some rest

def targets? : Nat → Words → Option Words
  | 0, _ => none
  | fuel + 1, words => do
    let words := (accept? "*" words).getD words
    let (target, rest) ← primary? fuel words
    if !target.target then none
    match rest with
    | .symbol "," :: .keyword "in" :: _ => return rest.drop 1
    | .symbol "," :: rest => targets? fuel rest
    | _ => return rest

def conditions? : Nat → Words → Option Words
  | 0, _ => none
  | fuel + 1, words =>
    match acceptWord? "if" words with
    | some rest => do
      let (_, rest) ← disjunction? fuel rest
      conditions? fuel rest
    | none => some words

def atom? : Nat → Words → Option (Reading × Words)
  | 0, _ => none
  | fuel + 1, words =>
    match words with
    | .name x :: rest => some (⟨.name x, true⟩, rest)
    | .keyword "None" :: rest => some (plain (.literal .null), rest)
    | .keyword "True" :: rest => some (plain (.literal (.bool true)), rest)
    | .keyword "False" :: rest => some (plain (.literal (.bool false)), rest)
    | .number value :: rest => some (plain (.literal value), rest)
    | .symbol "..." :: rest => some (plain (.literal .ellipsis), rest)
    | .symbol "(" :: rest => group? fuel rest
    | .symbol "[" :: rest => display? fuel rest
    | .symbol "\x7b" :: rest => braces? fuel rest
    | first :: _ =>
      if isText first then
        let parts := words.takeWhile isText
        let rest := words.drop parts.length
        if parts.any isTemplate then
          if parts.any isOctets then none else some (foreign "JoinedStr", rest)
        else (joined? parts).map fun value => (plain (.literal value), rest)
      else none
    | [] => none

/-- What stands between round brackets: nothing, an expression, a tuple, a generator or a
suspension. -/
def group? : Nat → Words → Option (Reading × Words)
  | 0, _ => none
  | fuel + 1, .keyword "yield" :: .keyword "from" :: rest => do
    let (_, rest) ← expression? fuel rest
    let rest ← accept? ")" rest
    return (foreign "YieldFrom", rest)
  | fuel + 1, .keyword "yield" :: rest => do
    let rest ← yielded? fuel rest
    return (foreign "Yield", rest)
  | fuel + 1, words =>
    match accept? ")" words with
    | some rest => some (tupleOf [], rest)
    | none => do
      let (first, rest) ← item? fuel words
      let starred := (accept? "*" words).isSome
      match rest with
      | .symbol ")" :: rest => if starred then none else return (first, rest)
      | .symbol "," :: rest =>
        let (others, rest) ← items? fuel ")" rest
        return (tupleOf (first :: others), rest)
      | _ =>
        if starred || !startsLoop rest then none
        let rest ← loops? fuel rest
        let rest ← accept? ")" rest
        return (foreign "GeneratorExp", rest)

/-- What a suspension hands out, up to and with the closing bracket. -/
def yielded? : Nat → Words → Option Words
  | 0, _ => none
  | fuel + 1, words =>
    match accept? ")" words with
    | some rest => some rest
    | none => do
      let (_, rest) ←
        match accept? "*" words with
        | some rest => binary? fuel 0 rest
        | none => expression? fuel words
      match rest with
      | .symbol ")" :: rest => return rest
      | .symbol "," :: rest => yielded? fuel rest
      | _ => none

def display? : Nat → Words → Option (Reading × Words)
  | 0, _ => none
  | fuel + 1, words =>
    match accept? "]" words with
    | some rest => some (listOf [], rest)
    | none => do
      let (first, rest) ← item? fuel words
      match rest with
      | .symbol "]" :: rest => return (listOf [first], rest)
      | .symbol "," :: rest =>
        let (others, rest) ← items? fuel "]" rest
        return (listOf (first :: others), rest)
      | _ =>
        if (accept? "*" words).isSome || !startsLoop rest then none
        let rest ← loops? fuel rest
        let rest ← accept? "]" rest
        return (foreign "ListComp", rest)

/-- What stands between braces: a table, a set or a comprehension of either. -/
def braces? : Nat → Words → Option (Reading × Words)
  | 0, _ => none
  | fuel + 1, words =>
    match words with
    | .symbol "\x7d" :: rest => some (foreign "Dict", rest)
    | .symbol "**" :: _ => (entries? fuel words).map fun rest => (foreign "Dict", rest)
    | _ => do
      let (_, rest) ← item? fuel words
      let starred := (accept? "*" words).isSome
      let named := match words with
        | .name _ :: .symbol ":=" :: _ => true
        | _ => false
      match rest with
      | .symbol "\x7d" :: rest => return (foreign "Set", rest)
      | .symbol "," :: rest => (items? fuel "\x7d" rest).map fun (_, rest) => (foreign "Set", rest)
      | .symbol ":" :: value =>
        if starred || named then none
        let (_, rest) ← expression? fuel value
        if startsLoop rest then
          let rest ← loops? fuel rest
          let rest ← accept? "\x7d" rest
          return (foreign "DictComp", rest)
        (moreEntries? fuel rest).map fun rest => (foreign "Dict", rest)
      | _ =>
        if starred || !startsLoop rest then none
        let rest ← loops? fuel rest
        let rest ← accept? "\x7d" rest
        return (foreign "SetComp", rest)

def entries? : Nat → Words → Option Words
  | 0, _ => none
  | fuel + 1, words =>
    match accept? "\x7d" words with
    | some rest => some rest
    | none => do
      let rest ←
        match accept? "**" words with
        | some rest => (binary? fuel 0 rest).map (·.2)
        | none =>
          let (_, rest) ← expression? fuel words
          let rest ← accept? ":" rest
          (expression? fuel rest).map (·.2)
      moreEntries? fuel rest

def moreEntries? : Nat → Words → Option Words
  | 0, _ => none
  | fuel + 1, words =>
    match words with
    | .symbol "\x7d" :: rest => some rest
    | .symbol "," :: rest => entries? fuel rest
    | _ => none

end

def depthPerWord : Nat := 24

def fuelFor (words : Words) : Nat := depthPerWord * (words.length + 2)

/-- A list of expressions without brackets; a comma makes it a tuple. -/
def whole? : Nat → Nat → Words → Option (List Surface × Bool × Words)
  | 0, _, _ => none
  | count + 1, fuel, words => do
    let (first, rest) ← expression? fuel words
    match rest with
    | [.symbol ","] | .symbol "," :: .newline :: _ => return ([first.tree], true, rest.drop 1)
    | .symbol "," :: rest =>
      let (others, _, rest) ← whole? count fuel rest
      return (first.tree :: others, true, rest)
    | _ => return ([first.tree], false, rest)

/-- Whether the words are an expression in round brackets and nothing else. -/
def isGroup (words : Words) : Bool :=
  match accept? "(" words with
  | some rest =>
    match group? (fuelFor words) rest with
    | some (_, []) => true
    | _ => false
  | none => false

/-- Whether the fields of all formatted literals among the words are expressions, and those in them. A
literal holds none with its own kind of quotes, so they nest no deeper than there are kinds. -/
def templatesOk : Nat → Words → Bool
  | 0, words => !words.any isTemplate
  | depth + 1, words => words.all fun
    | .template content raw =>
      match Template.fields? content raw with
      | some fields => fields.all fun field =>
        let inner := Token.scan (String.ofList ('(' :: (field ++ [')'])))
        templatesOk depth inner && isGroup inner
      | none => false
    | _ => true

def quoteKinds : Nat := 4

/-- Reads all words as one tree. A mistake is a wrong indentation when the words before it are
complete, and otherwise a wrong word. -/
def parse (words : Words) : Except Fault Surface :=
  match words, templatesOk quoteKinds (words.takeWhile (· != .newline)) with
  | .indent :: _, _ => .error .indentation
  | _, false => .error .grammar
  | _, true =>
    match whole? (words.length + 1) (fuelFor words) words with
    | none => .error .grammar
    | some (items, comma, rest) =>
      let tree := match items, comma with
        | [item], false => item
        | _, _ => .tuple items
      match rest, rest.dropWhile (· == .newline) with
      | _, [] => .ok tree
      | .newline :: _, .indent :: _ => .error .indentation
      | _, _ => .error .grammar

end Grammar

end AdditiveModel
