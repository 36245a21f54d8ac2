import XmlQuery.Value

namespace XmlQuery

/-!
# Comparing values with a comparand

The right-hand side of a comparison is a text.  It is read as the type of the value on the left.

* `Comparison` — the six operators, with their symbols and mnemonics.
* `Comparison.accepts` — whether an operator holds of two things in a given order.
* `Value.satisfies` — whether a value stands in a comparison to a comparand.
-/

/-- A comparison operator. -/
inductive Comparison where
  | greaterOrEqual
  | lessOrEqual
  | notEqual
  | less
  | greater
  | equal
  deriving DecidableEq, Repr

namespace Comparison

/-- The operators in the order in which a predicate is searched for them: those of two characters
    come before those that are part of them. -/
def all : List Comparison :=
  [greaterOrEqual, lessOrEqual, notEqual, less, greater, equal]

/-- An operator as it is written. -/
def symbol : Comparison → String
  | greaterOrEqual => ">="
  | lessOrEqual => "<="
  | notEqual => "!="
  | less => "<"
  | greater => ">"
  | equal => "="

/-- The name of an operator in a listing. -/
def mnemonic : Comparison → String
  | greaterOrEqual => "GEQ?"
  | lessOrEqual => "LEQ?"
  | notEqual => "NEQ"
  | less => "LT?"
  | greater => "GT?"
  | equal => "EQL?"

/-- Whether an operator holds of two things of which the first is in the given order to the
    second. -/
def accepts (op : Comparison) (order : Ordering) : Bool :=
  match op with
  | greaterOrEqual => order != .lt
  | lessOrEqual => order != .gt
  | notEqual => order != .eq
  | less => order == .lt
  | greater => order == .gt
  | equal => order == .eq

/-- Whether an operator holds of two truth values.  They have no order: `=` asks for equality and
    every other operator for inequality. -/
def acceptsBool (op : Comparison) (x y : Bool) : Bool :=
  match op with
  | equal => x == y
  | _ => x != y

end Comparison

/-- The order of two doubles, or `none` where one of them is not a number. -/
def floatOrder? (x y : Float) : Option Ordering :=
  if x < y then some .lt
  else if y < x then some .gt
  else if x == y then some .eq
  else none

/-- The number that stands for a comparand that is no number. -/
def unreadableComparand : Int := -65535

/-- Whether a value stands in the comparison `op` to a comparand.  The comparand of a number is
    read as a number of its kind, and as `unreadableComparand` if it is none; what is not a number
    is unequal to everything; that of a truth value is true if it is the word `true` in any case;
    and a raw value stands in no comparison. -/
def Value.satisfies (value : Value) (op : Comparison) (comparand : String) : Bool :=
  match value with
  | .text s => op.accepts (compare s comparand)
  | .integer n => op.accepts (compare n ((parseInteger? comparand).getD unreadableComparand))
  | .float x =>
    match floatOrder? x ((parseFloat? comparand).getD (Float.ofInt unreadableComparand)) with
    | some order => op.accepts order
    | none => op == .notEqual
  | .boolean b => op.acceptsBool b (Text.eqIgnoringCase comparand "true")
  | .raw _ => false

end XmlQuery
