import XmlQuery.Document.Composition
import XmlQuery.Document.Navigation
import XmlQuery.Log
import XmlQuery.Markup.Scan

namespace XmlQuery

/-!
# Reading documents

A builder takes the events of a document one by one.  It stands at the innermost element that is
open, and stops at the first event that does not fit.

* `Options` — how a document is read.
* `Builder` — a document in the making.
* `Builder.step` — the builder after an event.
* `Builder.finish` — the document, if every element is closed.
* `Builder.notice?` — what is reported about an event.
* `Document.parse` — the document that a byte string writes.
* `Document.parseNotices` — what is reported on the way.
-/

/-! ### Builders -/

/-- How a document is read: the encoding label of a document that declares none, and whether
    character data made of spaces, tabs and line breaks alone is left out. -/
structure Options where
  encoding : String := "utf-8"
  dropFormatting : Bool := true
  deriving DecidableEq, Repr

/-- A document in the making: the place where the next node goes, and the first error. -/
structure Builder where
  document : Document
  cursor : Nat
  options : Options
  error : Option ParseError

namespace Builder

/-- The builder of a document that holds nothing yet. -/
def ofOptions (options : Options) : Builder :=
  ⟨.ofEncoding options.encoding, Document.root, options, none⟩

/-- The builder stopped by an error. -/
def fail (b : Builder) (error : ParseError) : Builder :=
  { b with error := some error }

/-- The builder with a content added at its place.  It moves into an element. -/
def insert (b : Builder) (content : Content) : Builder :=
  if b.error.isSome then b
  else
    match (Document.append b.cursor content).run b.document with
    | .ok id document =>
      { b with document, cursor := if content.isElement then id else b.cursor }
    | .error .tooManyNodes document => { b with document }.fail .tooManyNodes
    | .error error document => { b with document }.fail (.tree error)

/-- Whether character data is left out: it is made of spaces, tabs and line breaks alone, and
    such formatting is not wanted. -/
def drops (b : Builder) (text : String) : Bool :=
  b.options.dropFormatting && text.toList.all Markup.isSpace

/-- The name of the innermost element that is open. -/
def openName (b : Builder) : String :=
  (b.document.name? b.cursor).getD ""

/-- Whether an element would be a second one at top level. -/
def isSecondRoot (b : Builder) : Bool :=
  b.cursor == Document.root && b.document.rootElement?.isSome

/-- The builder after the end tag of an element: it moves to the parent if the tag closes the
    innermost open element. -/
def close (b : Builder) (name : String) : Builder :=
  match b.document.parent? b.cursor with
  | none => b.fail (.unexpectedEndTag name)
  | some parent =>
    if b.openName = name then { b with cursor := parent }
    else b.fail (.mismatchedEndTag b.openName name)

/-- The builder after an event.  Once it has met an error only declarations are heard. -/
def step (b : Builder) : Markup.Event → Builder
  | .startElement name attributes =>
    if b.error.isNone && b.isSecondRoot then b.fail (.multipleRootElements name)
    else b.insert (.element (.ofAttributes name attributes))
  | .characters text => if b.drops text then b else b.insert (.text text)
  | .cdata bytes => b.insert (.cdata bytes)
  | .endElement name => if b.error.isSome then b else b.close name
  | .declaration (some encoding) => { b with document := b.document.setEncoding encoding }
  | .declaration none => b
  | .endDocument => b

/-- The builder after events one after the other. -/
def run (b : Builder) (events : List Markup.Event) : Builder :=
  events.foldl step b

/-- The document that was built: there was no error and every element is closed. -/
def finish (b : Builder) : Except ParseError Document :=
  match b.error with
  | some error => .error error
  | none =>
    if b.cursor = Document.root then .ok b.document else .error (.unclosedElement b.openName)

/-! ### Reports -/

/-- What a builder reports: the path of an element leads from its parent upwards. -/
inductive Notice where
  | elementStarted (name path : String) (attributes : Nat)
  | textMet (size : Nat) (parent : String)
  | cdataMet (size : Nat) (parent : String)
  | elementEnded (name path : String)
  | documentEnded (nodes : Nat)
  deriving DecidableEq, Repr

/-- A report of a builder as a log record. -/
def Notice.record : Notice → Log.Record
  | elementStarted name path attributes =>
    ⟨.trace, "start element",
      [("tag", .text name), ("parent", .text path), ("attributes", .number attributes)]⟩
  | textMet size parent => ⟨.trace, "text", [("len", .number size), ("parent", .text parent)]⟩
  | cdataMet size parent => ⟨.trace, "cdata", [("len", .number size), ("parent", .text parent)]⟩
  | elementEnded name path =>
    ⟨.trace, "end element", [("tag", .text name), ("parent", .text path)]⟩
  | documentEnded nodes => ⟨.trace, "end document", [("nodes", .number nodes)]⟩

/-- What a builder reports about the event that it takes next.  An end tag is reported only if it
    closes an element; what is left out, and declarations, are not. -/
def notice? (b : Builder) : Markup.Event → Option Notice
  | .startElement name attributes =>
    some (.elementStarted name (b.document.ancestorPath b.cursor) attributes.length)
  | .characters text =>
    if b.drops text then none else some (.textMet text.utf8ByteSize b.openName)
  | .cdata bytes => some (.cdataMet bytes.length b.openName)
  | .endElement name =>
    if b.error.isSome || (b.close name).error.isSome then none
    else some (.elementEnded name (b.document.ancestorPath b.cursor))
  | .declaration _ => none
  | .endDocument => some (.documentEnded b.document.nodeCount)

/-- What a builder reports about events one after the other. -/
def notices (b : Builder) : List Markup.Event → List Notice
  | [] => []
  | e :: es => (b.notice? e).toList ++ (b.step e).notices es

end Builder

/-! ### Bytes -/

namespace Document

/-- The document that a byte string writes.  An error of the markup counts before one of the
    nesting, wherever the two are. -/
def parse (options : Options) (bytes : List UInt8) : Except ParseError Document :=
  let scan := Markup.scan bytes
  match scan.error with
  | some error => .error (.scan error)
  | none => ((Builder.ofOptions options).run scan.events).finish

/-- What is reported while a byte string is read as a document. -/
def parseNotices (options : Options) (bytes : List UInt8) : List Builder.Notice :=
  (Builder.ofOptions options).notices (Markup.scan bytes).events

end Document

end XmlQuery
