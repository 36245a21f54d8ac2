import XmlQuery.Decimal.Literal
import XmlQuery.Decimal.Spelling
import XmlQuery.Text.Character

namespace XmlQuery

/-!
# Typed values

An attribute is a text, but often stands for a number or a truth value, and is compared as one.

* `Value` — a typed value.
* `Value.ofAttribute` — the value that the text of an attribute stands for.
* `Value.display` — a value as text.
-/

/-- A typed value.  Whole numbers lie in the range of 64 bits with a sign.  `raw` holds the text of
    something without a type, which no comparison accepts. -/
inductive Value where
  | text (s : String)
  | integer (n : Int)
  | float (x : Float)
  | boolean (b : Bool)
  | raw (s : String)

namespace Value

/-- A whole number of 64 bits with a sign, as a text writes it. -/
def parseInteger? (s : String) : Option Int :=
  Decimal.signed? 0x8000000000000000 s.toList

/-- A double, as a text writes it. -/
def parseFloat? (s : String) : Option Float :=
  (Decimal.Literal.parse? s.toList).map Decimal.Literal.toFloat

/-- The value that the text of an attribute stands for: a whole number if it is one, else a
    double, else `true` or `false` in any case, else the text. -/
def ofAttribute (s : String) : Value :=
  match parseInteger? s with
  | some n => .integer n
  | none =>
    match parseFloat? s with
    | some x => .float x
    | none =>
      if Text.eqIgnoringCase s "true" then .boolean true
      else if Text.eqIgnoringCase s "false" then .boolean false
      else .text s

/-- The name of the type of a value. -/
def typeName : Value → String
  | text _ => "text"
  | integer _ => "integer"
  | float _ => "float"
  | boolean _ => "boolean"
  | raw _ => "raw"

/-- A value as text. -/
def display : Value → String
  | text s => s
  | integer n => toString n
  | float x => Decimal.spell x
  | boolean b => if b then "true" else "false"
  | raw s => s

/-- The text of a text value. -/
def text? : Value → Option String
  | text s => some s
  | _ => none

/-- The number of an integer value. -/
def integer? : Value → Option Int
  | integer n => some n
  | _ => none

/-- The number of a float value. -/
def float? : Value → Option Float
  | float x => some x
  | _ => none

/-- The truth value of a boolean value. -/
def boolean? : Value → Option Bool
  | boolean b => some b
  | _ => none

end Value

end XmlQuery
