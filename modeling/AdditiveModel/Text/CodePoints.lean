/-!
Sets of code points as sorted closed ranges, read from a compact text of hexadecimal bounds.
-/

namespace AdditiveModel.Text

/-- Disjoint closed ranges of code points in increasing order. -/
structure CodePoints where
  ranges : Array (Nat × Nat)

namespace CodePoints

def hexadecimal (cs : List Char) : Nat :=
  cs.foldl (fun acc c => 16 * acc + (if c.isDigit then c.toNat - 48 else c.toNat - 87)) 0

def splitAt (sep : Char) (cs : List Char) : List (List Char) :=
  cs.foldr (fun c acc =>
    match acc with
    | [] => [[c]]
    | first :: rest => if c == sep then [] :: first :: rest else (c :: first) :: rest) [[]]

def rangeOfText (cs : List Char) : Nat × Nat :=
  match splitAt '-' cs with
  | [a, b] => (hexadecimal a, hexadecimal b)
  | _ => (hexadecimal cs, hexadecimal cs)

def ofLines (lines : List String) : CodePoints :=
  ⟨(lines.flatMap fun l => (splitAt ' ' l.toList).map rangeOfText).toArray⟩

/-- The number of ranges, among those from `lo` below `hi`, that start at or below `n`, found by
halving. -/
def countBelow (rs : Array (Nat × Nat)) (n : Nat) : Nat → Nat → Nat → Nat
  | 0, lo, _ => lo
  | fuel + 1, lo, hi =>
    if hi ≤ lo then lo
    else
      let mid := (lo + hi) / 2
      match rs[mid]? with
      | some r => if r.1 ≤ n then countBelow rs n fuel (mid + 1) hi else countBelow rs n fuel lo mid
      | none => lo

def contains (s : CodePoints) (n : Nat) : Bool :=
  let k := countBelow s.ranges n s.ranges.size 0 s.ranges.size
  match s.ranges[k - 1]? with
  | some r => decide (0 < k ∧ r.1 ≤ n ∧ n ≤ r.2)
  | none => false

end CodePoints

end AdditiveModel.Text
