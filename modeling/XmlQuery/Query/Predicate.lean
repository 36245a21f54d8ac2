import XmlQuery.Document
import XmlQuery.Text.Character
import XmlQuery.Value.Comparison

namespace XmlQuery.Query

/-!
# Attribute predicates

A predicate asks for an attribute, or compares the value of one.

* `Predicate` — a key, and perhaps a comparison.
* `Predicate.parse` — reads a predicate; every text is one.
* `Predicate.accepts`, `Predicate.filter` — the nodes of which a predicate holds.
-/

/-- The key of an attribute, and perhaps a comparison with a text. -/
structure Predicate where
  key : String
  test : Option (Comparison × String)
  deriving DecidableEq, Repr

namespace Predicate

/-- A text without its outer blanks. -/
def trimmed (cs : List Char) : String :=
  String.ofList (Text.trim cs)

/-- The predicate that a text writes with one of some operators: the first one that occurs in it
    anywhere splits it where it occurs first. -/
def parseWith? (source : List Char) : List Comparison → Option Predicate
  | [] => none
  | op :: ops =>
    match Text.splitAround? op.symbol.toList source with
    | some (key, comparand) => some ⟨trimmed key, some (op, trimmed comparand)⟩
    | none => parseWith? source ops

/-- The predicate that a text writes.  Without an operator it asks for an attribute. -/
def parse (source : String) : Predicate :=
  match parseWith? source.toList Comparison.all with
  | some p => p
  | none => ⟨trimmed source.toList, none⟩

/-- Whether a predicate holds of a node: the node has the attribute, and its typed value stands in
    the comparison. -/
def accepts (p : Predicate) (n : Node) : Bool :=
  match p.test with
  | none => (n.attribute? p.key).isSome
  | some (op, comparand) =>
    match n.typedAttribute? p.key with
    | some value => value.satisfies op comparand
    | none => false

/-- The nodes of which a predicate holds, in the given order. -/
def filter (p : Predicate) (d : Document) (ids : List Nat) : List Nat :=
  ids.filter fun id => (d.node? id).any p.accepts

end Predicate

end XmlQuery.Query
