import XmlQuery.Decimal.Shortest

namespace XmlQuery.Decimal

/-!
# How a double is spelled

The fewest digits that read back, written out in full without a power of ten, and with a point
only before a digit.

* `positional` — a decimal number `d · 10 ^ e` written out.
* `spell` — a double written out.
-/

/-- The digits of `d · 10 ^ e` with the point where it belongs: none for a whole number, and a
    zero before it for a number below one. -/
def positional (d : Nat) (e : Int) : List Char :=
  let digits := Nat.toDigits 10 d
  if 0 ≤ e then digits ++ List.replicate e.toNat '0'
  else
    let places := e.natAbs
    let padded := List.replicate (places + 1 - digits.length) '0' ++ digits
    let fraction := ((padded.drop (padded.length - places)).reverse.dropWhile (· = '0')).reverse
    let whole := padded.take (padded.length - places)
    if fraction = [] then whole else whole ++ '.' :: fraction

/-- A double written out: `NaN` without a sign, `inf` and zero with one if they are negative. -/
def spell (x : Float) : String :=
  let bits := x.toBits.toNat
  let exponent : Nat := bits / 0x10000000000000 % 0x800
  let fraction : Nat := bits % 0x10000000000000
  let sign := if 0x8000000000000000 ≤ bits then ['-'] else []
  if exponent = 2047 then
    if fraction = 0 then String.ofList (sign ++ ['i', 'n', 'f']) else "NaN"
  else if exponent = 0 ∧ fraction = 0 then String.ofList (sign ++ ['0'])
  else
    let neighbourhood :=
      if exponent = 0 then Neighbourhood.ofBinary fraction (-1074) false
      else
        Neighbourhood.ofBinary (0x10000000000000 + fraction) ((exponent : Int) - 1075)
          (fraction = 0 && exponent ≠ 1)
    let (d, e) := neighbourhood.shortest
    String.ofList (sign ++ positional d e)

end XmlQuery.Decimal
