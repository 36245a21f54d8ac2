import XmlQuery.Markup.Token

namespace XmlQuery.Markup

/-!
# Scanning

A document as bytes is turned into its events.

* `Scan` — the events of a document up to its end or its first error.
* `scanText` — the events of a document given as characters.
* `scan` — the events of a document given as bytes.
-/

/-- The events of a document up to its end or its first error. -/
structure Scan where
  events : List Event
  error : Option ScanError
  deriving DecidableEq, Repr

/-- The events of a document, up to its end or to its first fault.  The end is an event too. -/
def scanText : List Char → List Event × Option Fault
  | [] => ([.endDocument], none)
  | c :: cs =>
    match _h : readToken c cs with
    | .error fault => ([], some fault)
    | .ok (token, rest) =>
      let (events, fault) := scanText rest
      (token.events ++ events, fault)
  termination_by cs => cs.length
  decreasing_by exact readToken_shortens _h

/-- Of nothing, the end is all that is met. -/
theorem scanText_nil : scanText [] = ([.endDocument], none) := by
  rw [scanText]

/-- The events of a document are those of its first token and of what follows it. -/
theorem scanText_cons (c : Char) (cs : List Char) :
    scanText (c :: cs)
      = match readToken c cs with
        | .error fault => ([], some fault)
        | .ok (token, rest) => (token.events ++ (scanText rest).1, (scanText rest).2) := by
  rw [scanText]
  split <;> rename_i h <;> rw [h]

/-- A fault as an error, in a document of `size` bytes: what was left of the document tells the
    offset. -/
def Fault.toError (size : Nat) : Fault → ScanError
  | unterminated construct rest => .unterminated construct (size - (Utf8.encode rest).length)
  | malformedTag rest => .malformedTag (size - (Utf8.encode rest).length)

/-- The mark that may stand in front of a document to tell its encoding. -/
def byteOrderMark : List UInt8 := [0xEF, 0xBB, 0xBF]

/-- A document without the byte-order mark in front of it. -/
def withoutMark (bytes : List UInt8) : List UInt8 :=
  if byteOrderMark.isPrefixOf bytes then bytes.drop byteOrderMark.length else bytes

/-- The events of a document.  A byte-order mark is passed over, and offsets count from after
    it. -/
def scan (bytes : List UInt8) : Scan :=
  let body := withoutMark bytes
  match Utf8.decode body with
  | .error offset => ⟨[], some (.invalidUtf8 offset)⟩
  | .ok cs =>
    let (events, fault) := scanText cs
    ⟨events, fault.map (Fault.toError body.length)⟩

end XmlQuery.Markup
