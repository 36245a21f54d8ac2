import XmlQuery.Text.Alphabetic

namespace XmlQuery.Query

/-!
# Classes of query characters

What a character does in a query depends on its class alone.

* `CharClass` — the classes, and what they are called.
* `classOf` — the class of a character.
-/

/-- The classes of query characters. -/
inductive CharClass where
  | entityName
  | comparison
  | digit
  | path
  | squareBracket
  | attributeIndicator
  | wildcard
  | whitespace
  | other
  deriving DecidableEq, Repr

/-- The name of a class. -/
def CharClass.name : CharClass → String
  | entityName => "entity name"
  | comparison => "comparison"
  | digit => "digit"
  | path => "path"
  | squareBracket => "square bracket"
  | attributeIndicator => "attribute indicator"
  | wildcard => "wildcard"
  | whitespace => "whitespace"
  | other => "other"

/-- The class of a character.  The full stop counts as a digit, and quotes as whitespace; of all
    other characters the alphabetic ones make up names. -/
def classOf (c : Char) : CharClass :=
  if c = ':' ∨ c = '_' then .entityName
  else if c = '=' ∨ c = '<' ∨ c = '>' ∨ c = '!' then .comparison
  else if c = '@' then .attributeIndicator
  else if c.isDigit ∨ c = '.' then .digit
  else if c = '/' then .path
  else if c = '[' ∨ c = ']' then .squareBracket
  else if c = '*' then .wildcard
  else if c = ' ' ∨ c = '\t' ∨ c = '"' ∨ c = '\x27' then .whitespace
  else if Text.isAlphabetic c then .entityName
  else .other

/-- Whether a character may stand in the name of an element. -/
def isEntityName (c : Char) : Bool :=
  classOf c == .entityName

end XmlQuery.Query
