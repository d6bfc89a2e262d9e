import AdditiveModel.Real.Scalar

/-!
Sums whose rounding errors grow slowly: eight running sums for a block of terms, and halves for a
longer list.
-/

namespace AdditiveModel.Summation

variable {F : Type} [Scalar F]

/-- Adds the terms, eight at a time, onto eight running sums; gives the sums and the terms left over. -/
def lanes : List F → List F → List F × List F
  | acc, a :: b :: c :: d :: e :: f :: g :: h :: rest =>
    lanes (List.zipWith (· + ·) acc [a, b, c, d, e, f, g, h]) rest
  | acc, rest => (acc, rest)

def join : List F → F
  | [a, b, c, d, e, f, g, h] => ((a + b) + (c + d)) + ((e + f) + (g + h))
  | xs => Scalar.sum xs

def block (xs : List F) : F :=
  match xs with
  | a :: b :: c :: d :: e :: f :: g :: h :: rest =>
    let (acc, left) := lanes [a, b, c, d, e, f, g, h] rest
    left.foldl (· + ·) (join acc)
  | xs => Scalar.sum xs

def blockLength : Nat := 128

/-- The sum of a list; a long one is cut near the middle. The fuel is the length of the list. -/
def pairwise : Nat → List F → F
  | 0, xs => block xs
  | fuel + 1, xs =>
    let n := xs.length
    if n ≤ blockLength then block xs
    else
      let half := n / 2 - n / 2 % 8
      pairwise fuel (xs.take half) + pairwise fuel (xs.drop half)

def sum (xs : List F) : F := Scalar.zero + pairwise xs.length xs

def mean (xs : List F) : F := sum xs / Scalar.ofInt xs.length

/-- The square root of the sum of squared distances from the mean over one less than their number. -/
def deviation (xs : List F) : F :=
  let m := mean xs
  let squares := xs.map fun x => (x - m) * (x - m)
  Scalar.sqrt (sum squares / Scalar.ofInt (xs.length - 1 : Int))

end AdditiveModel.Summation
