import ShieldedPayments.Curve.Edwards

/-!
# Multiples of points

Linear combinations of curve points, with coefficients below `2^253`. A coefficient is written in
signed digits of base `2^w`: digits between `-2^(w-1)` and `2^(w-1)`, least significant first.

* `signedDigits`: the digits of a coefficient.
* `multiple`: one point, in base 16 with a table of its first eight multiples.
* `combination`: many points. Up to `tableLimit` points share the doublings and use one table each;
  beyond that the points are sorted into buckets by digit, in base 256.
-/

namespace ShieldedPayments.Curve

/-- The signed digits of `n` in base `2 ^ w`, `count` of them and the rest of `n` unwritten. -/
def signedDigits (w : Nat) : (count n : Nat) → List Int
  | 0, _ => []
  | count + 1, n =>
    let base := 1 <<< w
    let digit := n % base
    if digit ≤ 1 <<< (w - 1) then (digit : Int) :: signedDigits w count (n / base)
    else ((digit : Int) - base) :: signedDigits w count (n / base + 1)

/-- Digits in base 16 that hold any coefficient below `2 ^ 253`. -/
def digitCount16 : Nat := 64

/-- Digits in base 256 that hold any coefficient below `2 ^ 253`. -/
def digitCount256 : Nat := 32

/-- The first `count` multiples of a point, from once upwards, prepared for additions. -/
def multiplesTable (count : Nat) (p : EdwardsPoint) : Array Addend :=
  let step := fun (state : EdwardsPoint × Array Addend) (_ : Nat) =>
    let a := state.1.toAddend
    (p.addPrepared a, state.2.push a)
  ((List.range count).foldl step (p, #[])).2

/-- Adds the multiple `d` of the point with the given table. -/
def addMultiple (acc : EdwardsPoint) (table : Array Addend) (d : Int) : EdwardsPoint :=
  match d with
  | .ofNat 0 => acc
  | .ofNat (n + 1) => if h : n < table.size then acc.addPrepared table[n] else acc
  | .negSucc n => if h : n < table.size then acc.subPrepared table[n] else acc

/-- Multiplies a point by `2 ^ n`. -/
def doublings (n : Nat) (p : EdwardsPoint) : EdwardsPoint :=
  Nat.repeat EdwardsPoint.double n p

/-- The linear combination of points with tables and base-16 digits, from the most significant
digit down. -/
def combineTables (terms : List (Array Int × Array Addend)) : EdwardsPoint :=
  (List.range digitCount16).foldr
    (fun i acc =>
      terms.foldl (fun acc (digits, table) => addMultiple acc table (digits.getD i 0))
        (doublings 4 acc))
    EdwardsPoint.identity

/-- The `n`-fold of a point. -/
def multiple (n : Nat) (p : EdwardsPoint) : EdwardsPoint :=
  combineTables [((signedDigits 4 digitCount16 n).toArray, multiplesTable 8 p)]

/-- Adds each point, or its opposite, to the bucket of its digit's absolute value less one. -/
def fillBuckets (terms : List (Array Int × Addend)) (i : Nat) : Array EdwardsPoint :=
  terms.foldl
    (fun buckets (digits, p) =>
      match digits.getD i 0 with
      | .ofNat 0 => buckets
      | .ofNat (n + 1) => buckets.modify n (·.addPrepared p)
      | .negSucc n => buckets.modify n (·.subPrepared p))
    (Array.replicate 128 EdwardsPoint.identity)

/-- The sum of the buckets, each taken as often as its position plus one. -/
def weighBuckets (buckets : Array EdwardsPoint) : EdwardsPoint :=
  (buckets.foldr
    (fun bucket (running, total) =>
      let running := running + bucket
      (running, total + running))
    (EdwardsPoint.identity, EdwardsPoint.identity)).2

/-- The linear combination of points with base-256 digits, from the most significant digit down. -/
def combineBuckets (terms : List (Array Int × Addend)) : EdwardsPoint :=
  (List.range digitCount256).foldr
    (fun i acc => doublings 8 acc + weighBuckets (fillBuckets terms i))
    EdwardsPoint.identity

/-- The most points for which tables are faster than buckets. -/
def tableLimit : Nat := 128

/-- The sum of the points, each multiplied by its coefficient. -/
def combination (terms : List (Nat × EdwardsPoint)) : EdwardsPoint :=
  if terms.length ≤ tableLimit then
    combineTables (terms.map fun (n, p) =>
      ((signedDigits 4 digitCount16 n).toArray, multiplesTable 8 p))
  else
    combineBuckets (terms.map fun (n, p) => ((signedDigits 8 digitCount256 n).toArray, p.toAddend))

/-- A point together with the tables of its multiples by powers of 256, for fast multiplication. -/
structure FixedPoint where
  point : EdwardsPoint
  tables : List (Array Addend)

/-- Prepares a point that is multiplied often. -/
def FixedPoint.ofPoint (p : EdwardsPoint) : FixedPoint :=
  let step := fun (state : EdwardsPoint × List (Array Addend)) (_ : Nat) =>
    (doublings 8 state.1, multiplesTable 128 state.1 :: state.2)
  ⟨p, ((List.range digitCount256).foldl step (p, [])).2.reverse⟩

/-- The `n`-fold of a prepared point. -/
def FixedPoint.multiple (p : FixedPoint) (n : Nat) : EdwardsPoint :=
  ((signedDigits 8 digitCount256 n).zip p.tables).foldl
    (fun acc (d, table) => addMultiple acc table d) EdwardsPoint.identity

end ShieldedPayments.Curve
