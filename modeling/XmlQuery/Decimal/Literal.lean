import XmlQuery.Decimal.Digits

namespace XmlQuery.Decimal

/-!
# Decimal literals

Fractional numbers as they are written: digits with at most one point among or beside them, then
perhaps a power of ten; or a word for infinity or for no number.

* `Literal` — what a text says, before rounding.
* `Literal.parse?` — reads a literal off a whole text.
* `Literal.toFloat` — the double nearest to it.
-/

/-- A decimal number as written.  `finite negative digits exponent` is
    `± digits · 10 ^ exponent`. -/
inductive Literal where
  | finite (negative : Bool) (digits : Nat) (exponent : Int)
  | infinite (negative : Bool)
  | notANumber
  deriving Repr, DecidableEq

namespace Literal

/-- The exponent of a literal: nothing, or the letter `e` in either case, a sign or none, and at
    least one digit. -/
def exponent? : List Char → Option Int
  | [] => some 0
  | c :: cs =>
    if c = 'e' ∨ c = 'E' then
      match cs with
      | '-' :: digits => (natural? 10 digits).map fun n => -(n : Int)
      | '+' :: digits => (natural? 10 digits).map fun n => (n : Int)
      | digits => (natural? 10 digits).map fun n => (n : Int)
    else none

/-- A literal after its sign.  The digits before and after the point count as one number, which
    each digit after the point divides by ten; one of the two runs may be empty. -/
def parseUnsigned? (negative : Bool) (cs : List Char) : Option Literal :=
  let word := String.ofList (cs.map Char.toLower)
  if word = "inf" ∨ word = "infinity" then some (.infinite negative)
  else if word = "nan" then some .notANumber
  else
    let whole := cs.takeWhile Char.isDigit
    let afterWhole := cs.dropWhile Char.isDigit
    let (fraction, rest) :=
      match afterWhole with
      | '.' :: more => (more.takeWhile Char.isDigit, more.dropWhile Char.isDigit)
      | _ => ([], afterWhole)
    match natural? 10 (whole ++ fraction), exponent? rest with
    | some digits, some e => some (.finite negative digits (e - fraction.length))
    | _, _ => none

/-- The literal that a whole text writes. -/
def parse? : List Char → Option Literal
  | '-' :: cs => parseUnsigned? true cs
  | '+' :: cs => parseUnsigned? false cs
  | cs => parseUnsigned? false cs

/-- The double nearest to a literal without its sign.  Numbers of more than 310 digits before the
    point are infinite and those with more than 330 zeros after it are zero: both lie far beyond
    what a double holds, and need no power of ten. -/
def magnitude (digits : Nat) (exponent : Int) : Float :=
  let size := (Nat.toDigits 10 digits).length + exponent
  if digits = 0 ∨ size < -330 then 0.0
  else if 310 < size then 1.0 / 0.0
  else Float.ofScientific digits (exponent < 0) exponent.natAbs

/-- The double nearest to a literal.  The sign is kept on zero. -/
def toFloat : Literal → Float
  | .finite negative digits exponent =>
    if negative then -(magnitude digits exponent) else magnitude digits exponent
  | .infinite negative => if negative then -(1.0 / 0.0) else 1.0 / 0.0
  | .notANumber => 0.0 / 0.0

end Literal

end XmlQuery.Decimal
