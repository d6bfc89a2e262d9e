import AdditiveModel.Real.Scalar

/-!
Element kinds of arrays and the kind that two of them meet in.
-/

namespace AdditiveModel

/-- What the elements of an array are. The integer kinds wrap around. -/
inductive Kind where
  | bool
  | int8
  | int64
  | uint64
  | half
  | double
  | complex
  | text
  | any
  deriving DecidableEq, Repr, Inhabited

namespace Kind

def isInteger : Kind → Bool
  | int8 | int64 | uint64 => true
  | _ => false

def isReal : Kind → Bool
  | half | double => true
  | _ => false

def isInexact : Kind → Bool
  | half | double | complex => true
  | _ => false

def isNumeric : Kind → Bool
  | text | any => false
  | _ => true

def promote : Kind → Kind → Kind
  | any, _ | _, any => any
  | text, _ | _, text => text
  | complex, _ | _, complex => complex
  | double, _ | _, double => double
  | half, int64 | half, uint64 | int64, half | uint64, half => double
  | half, _ | _, half => half
  | uint64, int64 | int64, uint64 | uint64, int8 | int8, uint64 => double
  | uint64, _ | _, uint64 => uint64
  | int64, _ | _, int64 => int64
  | int8, _ | _, int8 => int8
  | bool, bool => bool

/-- The kind in which a plain number of kind `weak` joins elements of kind `strong`: it only decides
when it is of a wider class of numbers. -/
def adapt (strong weak : Kind) : Kind :=
  match weak, strong with
  | double, bool | double, int8 | double, int64 | double, uint64 => double
  | complex, bool | complex, int8 | complex, int64 | complex, uint64 | complex, half
  | complex, double => complex
  | int64, bool | uint64, bool | any, bool => int64
  | _, _ => strong

/-- The kinds of a list met in one; no elements count as real numbers. -/
def promoteAll : List Kind → Kind
  | [] => double
  | k :: ks => ks.foldl promote k

def holds (k : Kind) (n : Int) : Bool :=
  match k with
  | int8 => -128 ≤ n && n ≤ 127
  | int64 => -(Nat.pow 2 63) ≤ n && n < Nat.pow 2 63
  | uint64 => 0 ≤ n && n < Nat.pow 2 64
  | _ => true

def wrap (k : Kind) (n : Int) : Int :=
  match k with
  | int8 => n.bmod (Nat.pow 2 8)
  | int64 => n.bmod (Nat.pow 2 64)
  | uint64 => n % Nat.pow 2 64
  | _ => n

def ofInt (n : Int) : Kind :=
  if int64.holds n then int64 else if uint64.holds n then uint64 else any

def precision : Kind → Precision
  | half => .half
  | _ => .double

end Kind

end AdditiveModel
