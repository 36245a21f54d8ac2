namespace XmlQuery.Decimal

/-!
# The fewest digits that read back

Each binary floating-point number is the nearest one to all reals of an interval around it.  Of
the decimal numbers in that interval, those on the coarsest grid `10 ^ e` have the fewest digits.

* `Neighbourhood` — a positive number with the interval of reals that round to it, as whole
  multiples of a common fraction.
* `Neighbourhood.onGrid?` — the multiple of `10 ^ e` nearest to the number that lies inside.
* `Neighbourhood.shortest` — that multiple on the coarsest grid that has one.
-/

/-- A positive number `value / scale`, and the ends `low / scale` and `high / scale` of the
    interval of reals that round to it.  The ends belong to it if `closed` is true. -/
structure Neighbourhood where
  low : Nat
  value : Nat
  high : Nat
  scale : Nat
  closed : Bool

namespace Neighbourhood

/-- The neighbourhood of `significand · 2 ^ exponent`.  It reaches half a unit to either side; but
    below a power of two the next number is half as far, and so is the lower end
    (`atPower`).  Ties go to even significands. -/
def ofBinary (significand : Nat) (exponent : Int) (atPower : Bool) : Neighbourhood :=
  let up := Nat.pow 2 (exponent - 2).toNat
  { low := (4 * significand - if atPower then 1 else 2) * up
    value := 4 * significand * up
    high := (4 * significand + 2) * up
    scale := Nat.pow 2 (2 - exponent).toNat
    closed := significand % 2 = 0 }

/-- Whether `x` lies between the ends `low` and `high`. -/
def inside (closed : Bool) (low x high : Nat) : Bool :=
  if closed then low ≤ x && x ≤ high else low < x && x < high

/-- The multiple `d · 10 ^ e` of `10 ^ e` nearest to the number, if it lies in the interval; of
    two at the same distance the larger one.  One of the number's two neighbours on the grid lies
    in the interval if any multiple does. -/
def onGrid? (n : Neighbourhood) (e : Int) : Option Nat :=
  let step := Nat.pow 10 e.toNat * n.scale
  let part := Nat.pow 10 (-e).toNat
  let below := n.value * part / step
  let lower := inside n.closed (n.low * part) (below * step) (n.high * part)
  let upper := inside n.closed (n.low * part) ((below + 1) * step) (n.high * part)
  let lowerIsNearer := n.value * part - below * step < (below + 1) * step - n.value * part
  if lower && (lowerIsNearer || !upper) then some below
  else if upper then some (below + 1)
  else none

/-- The exponent `e` with `10 ^ e ≤ value / scale < 10 ^ (e + 1)`. -/
def leadingExponent (n : Neighbourhood) : Int :=
  if n.scale ≤ n.value then (Nat.toDigits 10 (n.value / n.scale)).length - 1
  else
    let digits := (Nat.toDigits 10 (n.scale / n.value)).length
    if n.value * Nat.pow 10 (digits - 1) = n.scale then 1 - digits else -digits

/-- The first hit on the grids `10 ^ e`, `10 ^ (e - 1)` and so on, `count` of them; on the grid
    after the last of them the number itself, rounded down. -/
def firstHit (n : Neighbourhood) : Nat → Int → Nat × Int
  | 0, e => (n.value * Nat.pow 10 (-e).toNat / (Nat.pow 10 e.toNat * n.scale), e)
  | count + 1, e =>
    match n.onGrid? e with
    | some d => (d, e)
    | none => firstHit n count (e - 1)

/-- The digits `d` and exponent `e` of the decimal number `d · 10 ^ e` with the fewest digits in
    the interval, and nearest to the number of those.  Seventeen digits are enough for any
    double. -/
def shortest (n : Neighbourhood) : Nat × Int :=
  n.firstHit 17 n.leadingExponent

end Neighbourhood

end XmlQuery.Decimal
