namespace XmlQuery.Markup

/-!
# What can be wrong with markup

* `Construct` — the parts of a document that need a closing mark.
* `ScanError` — why a byte string is not a sequence of tags and texts, and where.
* `ScanError.message` — the same in words.
-/

/-- A part of a document that needs a closing mark. -/
inductive Construct where
  | instruction
  | comment
  | cdataSection
  | doctype
  | endTag
  | startTag
  | attributeValue
  deriving DecidableEq, Repr

/-- The name of a construct. -/
def Construct.name : Construct → String
  | instruction => "processing instruction"
  | comment => "comment"
  | cdataSection => "CDATA section"
  | doctype => "DOCTYPE"
  | endTag => "end tag"
  | startTag => "start tag"
  | attributeValue => "attribute value"

/-- Why a byte string is not a sequence of tags and texts.  The offset is that of the first byte
    that is no UTF-8, or of the construct or tag at fault. -/
inductive ScanError where
  | invalidUtf8 (offset : Nat)
  | unterminated (construct : Construct) (offset : Nat)
  | malformedTag (offset : Nat)
  deriving DecidableEq, Repr

/-- A scanning error in words. -/
def ScanError.message : ScanError → String
  | invalidUtf8 offset => "invalid UTF-8 at byte " ++ toString offset
  | unterminated construct offset =>
    "unterminated " ++ construct.name ++ " starting at byte " ++ toString offset
  | malformedTag offset => "malformed tag at byte " ++ toString offset

end XmlQuery.Markup
