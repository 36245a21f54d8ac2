import XmlQuery.Markup.Declaration
import XmlQuery.Markup.Error
import XmlQuery.Markup.Reference
import XmlQuery.Markup.Symbol
import XmlQuery.Text.Utf8

namespace XmlQuery.Markup

/-!
# Tokens and events

A document is a sequence of texts, tags, and marked sections.  A token is one of them, taken off
the front of what is left of a document.  Read in order, they make a sequence of events.

* `Event` — something that is met in a document.
* `Token` — a token as it is written, with references unresolved.
* `Fault` — what is wrong with a token, and what was left of the document at that place.
* `readToken` — the token at the front of a nonempty document, and what follows it.
* `readToken_shortens` — what follows a token is shorter than what it was taken off.
* `Token.events` — what a token makes happen.
-/

/-- Something that is met while a document is read.  Names and texts are given with their
    references resolved, the contents of CDATA sections as bytes.  An empty-element tag starts an
    element and ends it at once. -/
inductive Event where
  | startElement (name : String) (attributes : List (String × String))
  | characters (text : String)
  | cdata (bytes : List UInt8)
  | endElement (name : String)
  | declaration (encoding : Option String)
  | endDocument
  deriving DecidableEq, Repr

/-- A token as it is written, its delimiters left out.  Comments and document type declarations
    mean nothing here, and only the place where they end is kept. -/
inductive Token where
  | text (raw : List Char)
  | instruction (contents : List Char)
  | comment (contents : List Char)
  | cdata (contents : List Char)
  | doctype
  | endTag (name : List Char)
  | startTag (name : List Char) (attributes : List (List Char × List Char)) (selfClosing : Bool)
  deriving DecidableEq, Repr

/-- What is wrong with a token, and the characters from the place at fault on: the start of the
    token, or of the attribute value that does not end. -/
inductive Fault where
  | unterminated (construct : Construct) (rest : List Char)
  | malformedTag (rest : List Char)
  deriving DecidableEq, Repr

/-! ### Sections between marks -/

/-- The contents up to `mark` of a construct that begins at `start`, and what follows the mark. -/
def delimited (construct : Construct) (start mark cs : List Char) :
    Except Fault (List Char × List Char) :=
  match Text.splitAround? mark cs with
  | some parts => .ok parts
  | none => .error (.unterminated construct start)

/-- What follows a document type declaration, which ends at the first `>` outside of quotes and of
    square brackets.  `depth` brackets are open, and perhaps a quote. -/
def skipDoctype (depth : Nat) (quote : Option Char) : List Char → Option (List Char)
  | [] => none
  | c :: cs =>
    match quote with
    | some q => if c = q then skipDoctype depth none cs else skipDoctype depth quote cs
    | none =>
      if c = '"' ∨ c = '\x27' then skipDoctype depth (some c) cs
      else if c = '[' then skipDoctype (depth + 1) none cs
      else if c = ']' then skipDoctype (depth - 1) none cs
      else if c = '>' ∧ depth = 0 then some cs
      else skipDoctype depth none cs

/-- What follows a document type declaration is shorter than its contents with it. -/
theorem length_lt_of_skipDoctype {depth : Nat} {quote : Option Char} {cs rest : List Char}
    (h : skipDoctype depth quote cs = some rest) : rest.length < cs.length := by
  fun_induction skipDoctype depth quote cs with
  | case1 => cases h
  | case7 => cases h; exact Nat.lt_succ_self _
  | case2 _ _ _ ih | case3 _ _ _ _ _ ih | case4 _ _ _ _ ih | case5 _ _ _ ih | case6 _ _ _ _ ih
  | case8 _ _ _ _ _ _ _ ih => exact Nat.lt_succ_of_lt (ih h)

/-! ### Tags -/

/-- The rest of the end tag that begins at `start`. -/
def readEndTag (start cs : List Char) : Except Fault (Token × List Char) :=
  match readName? cs with
  | none => .error (.malformedTag start)
  | some (name, afterName) =>
    match skipSpaces afterName with
    | [] => .error (.unterminated .endTag start)
    | c :: rest => if c = '>' then .ok (.endTag name, rest) else .error (.malformedTag start)

/-- What follows an end tag is shorter than what it was taken off. -/
theorem length_lt_of_readEndTag {start cs rest : List Char} {token : Token}
    (h : readEndTag start cs = .ok (token, rest)) : rest.length < cs.length := by
  unfold readEndTag at h
  split at h
  · cases h
  rename_i name afterName hname
  split at h
  · cases h
  rename_i c rest' hrest
  split at h
  · cases h
    have hname := congrArg List.length (readName?_eq_append hname).1
    have hspaces := length_skipSpaces_le afterName
    rw [hrest] at hspaces
    simp only [List.length_append, List.length_cons] at *
    omega
  · cases h

/-- An attribute, in quotes of either kind, of the tag that begins at `start`. -/
def readAttribute (start cs : List Char) :
    Except Fault ((List Char × List Char) × List Char) :=
  match readName? cs with
  | none => .error (.malformedTag start)
  | some (key, afterKey) =>
    match skipSpaces afterKey with
    | '=' :: afterEquals =>
      match skipSpaces afterEquals with
      | quote :: value =>
        if quote = '"' ∨ quote = '\x27' then
          match Text.splitAt? quote value with
          | some (raw, rest) => .ok ((key, raw), rest)
          | none => .error (.unterminated .attributeValue value)
        else .error (.malformedTag start)
      | [] => .error (.malformedTag start)
    | _ => .error (.malformedTag start)

/-- What follows an attribute is shorter than what it was taken off. -/
theorem length_lt_of_readAttribute {start cs rest : List Char} {a : List Char × List Char}
    (h : readAttribute start cs = .ok (a, rest)) : rest.length < cs.length := by
  simp only [readAttribute] at h
  split at h
  · cases h
  rename_i key afterKey hkey
  split at h
  · rename_i afterEquals hequals
    split at h
    · rename_i quote value hvalue
      split at h
      · split at h
        · rename_i raw rest' hsplit
          cases h
          have hkey := congrArg List.length (readName?_eq_append hkey).1
          have hspaces := length_skipSpaces_le afterKey
          have hspaces' := length_skipSpaces_le afterEquals
          have hraw := congrArg List.length (Text.splitAt?_eq_append hsplit).1
          rw [hequals] at hspaces
          rw [hvalue] at hspaces'
          simp only [List.length_append, List.length_cons] at *
          omega
        · cases h
      · cases h
    · cases h
  · cases h

/-- The attributes and the end of the start tag that begins at `start`: the attributes in order,
    whether the tag closes its element too, and what follows it.  A space stands before each
    attribute. -/
def readAttributes (start cs : List Char) :
    Except Fault (List (List Char × List Char) × Bool × List Char) :=
  match skipSpaces cs with
  | '/' :: '>' :: rest => .ok ([], true, rest)
  | '>' :: rest => .ok ([], false, rest)
  | [] => .error (.unterminated .startTag start)
  | _ =>
    if cs.head?.any isSpace then
      match _h : readAttribute start (skipSpaces cs) with
      | .error fault => .error fault
      | .ok (pair, afterPair) =>
        match readAttributes start afterPair with
        | .error fault => .error fault
        | .ok (attributes, selfClosing, rest) =>
          .ok (pair :: attributes, selfClosing, rest)
    else .error (.malformedTag start)
  termination_by cs.length
  decreasing_by
    exact Nat.lt_of_lt_of_le (length_lt_of_readAttribute _h) (length_skipSpaces_le cs)

/-- What follows the attributes of a tag is shorter than what they were taken off. -/
theorem length_lt_of_readAttributes {start cs rest : List Char}
    {attributes : List (List Char × List Char)} {selfClosing : Bool}
    (h : readAttributes start cs = .ok (attributes, selfClosing, rest)) :
    rest.length < cs.length := by
  fun_induction readAttributes start cs generalizing attributes with
  | case1 cs rest' heq =>
    cases h
    have := length_skipSpaces_le cs
    rw [heq] at this
    simp only [List.length_cons] at this
    omega
  | case2 cs rest' heq =>
    cases h
    have := length_skipSpaces_le cs
    rw [heq] at this
    exact Nat.lt_of_succ_le this
  | case3 => cases h
  | case4 => cases h
  | case5 => cases h
  | case6 cs _ _ _ hread _ _ _ hrec _ _ _ ih =>
    cases h
    have := length_lt_of_readAttribute hread
    have := length_skipSpaces_le cs
    have := ih hrec
    omega
  | case7 => cases h

/-- The rest of the start tag that begins at `start`. -/
def readStartTag (start cs : List Char) : Except Fault (Token × List Char) :=
  match readName? cs with
  | none => .error (.malformedTag start)
  | some (name, afterName) =>
    match readAttributes start afterName with
    | .error fault => .error fault
    | .ok (attributes, selfClosing, rest) => .ok (.startTag name attributes selfClosing, rest)

/-- What follows a start tag is shorter than what it was taken off. -/
theorem length_lt_of_readStartTag {start cs rest : List Char} {token : Token}
    (h : readStartTag start cs = .ok (token, rest)) : rest.length < cs.length := by
  unfold readStartTag at h
  split at h
  · cases h
  rename_i name afterName hname
  split at h
  · cases h
  rename_i hattributes
  cases h
  have hname := congrArg List.length (readName?_eq_append hname).1
  have := length_lt_of_readAttributes hattributes
  simp only [List.length_append] at *
  omega

/-! ### Reading a token -/

/-- The token that begins with `<` at `start`, of which `cs` follows the `<`. -/
def readMarkup (start cs : List Char) : Except Fault (Token × List Char) :=
  match cs with
  | '?' :: cs =>
    (delimited .instruction start ['?', '>'] cs).map fun (contents, rest) =>
      (.instruction contents, rest)
  | '!' :: '-' :: '-' :: cs =>
    (delimited .comment start ['-', '-', '>'] cs).map fun (contents, rest) =>
      (.comment contents, rest)
  | '!' :: '[' :: 'C' :: 'D' :: 'A' :: 'T' :: 'A' :: '[' :: cs =>
    (delimited .cdataSection start [']', ']', '>'] cs).map fun (contents, rest) =>
      (.cdata contents, rest)
  | '!' :: cs =>
    match skipDoctype 0 none cs with
    | some rest => .ok (.doctype, rest)
    | none => .error (.unterminated .doctype start)
  | '/' :: cs => readEndTag start cs
  | cs => readStartTag start cs

/-- The token at the front of the nonempty document `c :: cs`, and what follows it: what begins
    with `<`, or else the text up to the next `<`. -/
def readToken (c : Char) (cs : List Char) : Except Fault (Token × List Char) :=
  if c = '<' then readMarkup (c :: cs) cs
  else .ok (.text (c :: cs.takeWhile (· != '<')), cs.dropWhile (· != '<'))

/-- What follows a section between marks is no longer than its contents with it. -/
theorem length_le_of_delimited {construct : Construct} {start mark cs contents rest : List Char}
    (h : delimited construct start mark cs = .ok (contents, rest)) :
    rest.length ≤ cs.length := by
  simp only [delimited] at h
  split at h
  · rename_i parts hsplit
    cases h
    have := congrArg List.length (Text.splitAround?_eq_append hsplit)
    simp only [List.length_append] at this
    omega
  · cases h

/-- What follows markup is no longer than what follows its `<`. -/
theorem length_le_of_readMarkup {start cs rest : List Char} {token : Token}
    (h : readMarkup start cs = .ok (token, rest)) : rest.length ≤ cs.length := by
  have hmap : ∀ {construct : Construct} {mark cs : List Char} {f : List Char → Token},
      (delimited construct start mark cs).map (fun p => (f p.1, p.2)) = .ok (token, rest) →
      rest.length ≤ cs.length := by
    intro construct mark cs f h
    cases hd : delimited construct start mark cs with
    | error => rw [hd] at h; cases h
    | ok parts =>
      rw [hd] at h
      cases h
      exact length_le_of_delimited hd
  simp only [readMarkup] at h
  split at h
  · exact Nat.le_succ_of_le (hmap h)
  · have := hmap h
    simp only [List.length_cons]
    omega
  · have := hmap h
    simp only [List.length_cons]
    omega
  · split at h
    · rename_i hskip
      cases h
      have := length_lt_of_skipDoctype hskip
      simp only [List.length_cons]
      omega
    · cases h
  · exact Nat.le_succ_of_le (Nat.le_of_lt (length_lt_of_readEndTag h))
  · exact Nat.le_of_lt (length_lt_of_readStartTag h)

/-- What follows a token is shorter than what it was taken off. -/
theorem readToken_shortens {c : Char} {cs rest : List Char} {token : Token}
    (h : readToken c cs = .ok (token, rest)) : rest.length < (c :: cs).length := by
  simp only [readToken] at h
  split at h
  · exact Nat.lt_succ_of_le (length_le_of_readMarkup h)
  · cases h
    exact Nat.lt_succ_of_le (List.dropWhile_suffix _).length_le

/-! ### What tokens mean -/

/-- What a token makes happen, in order. -/
def Token.events : Token → List Event
  | text raw => [.characters (String.ofList (Reference.decode raw))]
  | instruction contents =>
    match declaration? contents with
    | some encoding => [.declaration (encoding.map String.ofList)]
    | none => []
  | comment _ => []
  | cdata contents => [.cdata (Utf8.encode contents)]
  | doctype => []
  | endTag name => [.endElement (String.ofList name)]
  | startTag name attributes selfClosing =>
    let start := .startElement (String.ofList name)
      (attributes.map fun (key, raw) =>
        (String.ofList key, String.ofList (Reference.decode raw)))
    if selfClosing then [start, .endElement (String.ofList name)] else [start]

end XmlQuery.Markup
