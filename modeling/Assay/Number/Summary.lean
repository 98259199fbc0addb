/-!
# Sums, means and deviations

The sum of a row of doubles depends on the order of its additions. Here rows are
summed pairwise: fewer than eight from left to right, up to 128 in eight interleaved
partial sums, and longer rows as the sum of two halves. Mean and deviation are built
on that sum.

## Main definitions

* `Number.pairwiseSum`, `Number.sum` — the sum of a row
* `Number.mean`, `Number.deviation` — arithmetic mean and population deviation
-/

namespace Assay.Number

/-- The sum from left to right, starting from `start`. -/
def sumFrom (start : Float) (xs : List Float) : Float := xs.foldl (· + ·) start

/-- Eight partial sums, one for each position modulo eight. -/
structure Octet where
  (a b c d e f g h : Float)

namespace Octet

/-- Add the next eight numbers, each to its partial sum. -/
def add (o : Octet) (p : Octet) : Octet :=
  ⟨o.a + p.a, o.b + p.b, o.c + p.c, o.d + p.d, o.e + p.e, o.f + p.f, o.g + p.g, o.h + p.h⟩

/-- The partial sums together, neighbours first. -/
def total (o : Octet) : Float :=
  ((o.a + o.b) + (o.c + o.d)) + ((o.e + o.f) + (o.g + o.h))

/-- Add complete blocks of eight while there are any, then the rest from left to
right. -/
def sum (o : Octet) : List Float → Float
  | a :: b :: c :: d :: e :: f :: g :: h :: rest => sum (o.add ⟨a, b, c, d, e, f, g, h⟩) rest
  | rest => sumFrom o.total rest

end Octet

/-- The sum of a row of at most 128 numbers. -/
def blockSum : List Float → Float
  | a :: b :: c :: d :: e :: f :: g :: h :: rest => Octet.sum ⟨a, b, c, d, e, f, g, h⟩ rest
  | few => sumFrom (-0.0) few

/-- The sum of a row, in halves while it is longer than 128. The first half is a
multiple of eight long. -/
def pairwiseSum (xs : List Float) : Float :=
  let n := xs.length
  if _h : 128 < n then
    let half := n / 2 - n / 2 % 8
    pairwiseSum (xs.take half) + pairwiseSum (xs.drop half)
  else blockSum xs
termination_by xs.length
decreasing_by
  all_goals simp only [List.length_take, List.length_drop]; omega

/-- The sum of a row, added to a positive zero: a row of negative zeros has it as sum. -/
def sum (xs : List Float) : Float := 0.0 + pairwiseSum xs

/-- The arithmetic mean. -/
def mean (xs : List Float) : Float := sum xs / Float.ofNat xs.length

/-- The population standard deviation. -/
def deviation (xs : List Float) : Float :=
  let m := mean xs
  Float.sqrt (sum (xs.map fun x => (x - m) * (x - m)) / Float.ofNat xs.length)

/-- The least of a row, with its first element as the start. -/
def least (x : Float) (xs : List Float) : Float :=
  xs.foldl (fun m y => if y < m then y else m) x

/-- The greatest of a row, with its first element as the start. -/
def greatest (x : Float) (xs : List Float) : Float :=
  xs.foldl (fun m y => if m < y then y else m) x

end Assay.Number
