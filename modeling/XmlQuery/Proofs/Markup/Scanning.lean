import Mathlib.Data.List.TakeWhile
import XmlQuery.Document.Tree
import XmlQuery.Markup.Scan
import XmlQuery.Proofs.Markup.Escaping
import XmlQuery.Proofs.Markup.StartTags

namespace XmlQuery.Markup

/-!
# Scanning what was written

Each piece of markup that a document is written with is scanned as the event that it stands for,
whatever follows it.

* `readStartTag_written`, `readEndTag_written` — tags are read up to their ends.
* `beforeQuote` — what is read of a label that may hold quotes.
* `scanText_written`, `scanText_startTag`, `scanText_endTag`, `scanText_cdata`,
  `scanText_declaration` — the events of each piece.
-/

/-! ### Tags -/

variable {name : List Char}

/-- An end tag is read up to its end. -/
theorem readEndTag_written (h : IsName name) (start rest : List Char) :
    readEndTag start (name ++ '>' :: rest) = .ok (.endTag name, rest) := by
  rw [readEndTag, h.readName?_append (by decide)]
  dsimp only
  rw [skipSpaces_cons (by decide)]
  rfl

/-- An attribute as it is read off a start tag, with the references in its value. -/
def writtenAttribute (a : String × String) : List Char × List Char :=
  (a.1.toList, Reference.escapeAttribute a.2.toList)

/-- Attributes are written as pairs in double quotes, with a space in front of each. -/
theorem exists_pairs_of_attributes {attributes : List (String × String)}
    (h : ∀ a ∈ attributes, IsName a.1.toList) :
    ∃ pairs : List SpacedPair,
      pairs.flatMap SpacedPair.text = attributes.flatMap Tree.attributeSource ∧
        pairs.map (fun p => p.content) = attributes.map writtenAttribute := by
  induction attributes with
  | nil => exact ⟨[], rfl, rfl⟩
  | cons a attributes ih =>
    rw [List.forall_mem_cons] at h
    obtain ⟨pairs, htext, hcontent⟩ := ih h.2
    let pair : SpacedPair :=
      ⟨⟨a.1.toList, [], [], '"', Reference.escapeAttribute a.2.toList, h.1, nofun, nofun, .inl rfl,
        Reference.quote_notMem_escapeAttribute a.2.toList⟩, [' '], by decide, by decide⟩
    have hpair : pair.text = Tree.attributeSource a := by
      simp [pair, SpacedPair.text, QuotedPair.text, Tree.attributeSource]
    refine ⟨pair :: pairs, ?_, ?_⟩
    · rw [List.flatMap_cons, List.flatMap_cons, htext, hpair]
    · rw [List.map_cons, List.map_cons, hcontent]
      rfl

/-- **A start tag is read up to its end**, with its attributes in order. -/
theorem readStartTag_written {attributes : List (String × String)} (h : IsName name)
    (hkeys : ∀ a ∈ attributes, IsName a.1.toList) (start rest : List Char) :
    readStartTag start (name ++ (attributes.flatMap Tree.attributeSource ++ '>' :: rest))
      = .ok (.startTag name (attributes.map writtenAttribute) false, rest) := by
  obtain ⟨pairs, htext, hcontent⟩ := exists_pairs_of_attributes hkeys
  refine readStartTag_eq_ok_iff.2 ⟨⟨name, pairs, [], false, h, nofun⟩, ?_, ?_⟩
  · simp [StartTag.text, StartTag.textBehindName, tagEnd, htext]
  · rw [StartTag.token, hcontent]

/-! ### Pieces of markup -/

/-- Whether character data ends before what follows: that begins markup, or there is nothing. -/
def EndsText (rest : List Char) : Prop :=
  ∀ c ∈ rest.head?, c = '<'

/-- Where character data ends, none is left. -/
theorem EndsText.takeWhile_dropWhile {rest : List Char} (h : EndsText rest) :
    rest.takeWhile (· != '<') = [] ∧ rest.dropWhile (· != '<') = rest := by
  cases rest with
  | nil => exact ⟨rfl, rfl⟩
  | cons c rest =>
    rw [h c rfl]
    exact ⟨rfl, rfl⟩

/-- A token and what follows it give the events of both. -/
theorem scanText_token {c : Char} {cs rest : List Char} {token : Token}
    (h : readToken c cs = .ok (token, rest)) :
    scanText (c :: cs) = (token.events ++ (scanText rest).1, (scanText rest).2) := by
  rw [scanText_cons, h]

/-- **Character data is scanned as the text that was escaped**; none is no event. -/
theorem scanText_written (run : String) {rest : List Char} (h : EndsText rest) :
    scanText (Reference.escapeText run.toList ++ rest)
      = ((if run = "" then [] else [.characters run]) ++ (scanText rest).1,
        (scanText rest).2) := by
  by_cases hrun : run = ""
  · rw [if_pos hrun, hrun]
    rfl
  · rw [if_neg hrun]
    have hlt := Reference.lt_notMem_escapeText run.toList
    cases hcs : Reference.escapeText run.toList with
    | nil =>
      -- only a text that says nothing is escaped as nothing
      have hdecode := Reference.decode_escapeText run.toList
      rw [hcs, Reference.decode] at hdecode
      exact absurd (String.toList_eq_nil_iff.1 hdecode.symm) hrun
    | cons c cs =>
      rw [hcs, List.mem_cons, not_or] at hlt
      have hcs' : ∀ b ∈ cs, (b != '<') = true := by
        intro b hb
        rw [bne_iff_ne]
        rintro rfl
        exact hlt.2 hb
      obtain ⟨htake, hdrop⟩ := h.takeWhile_dropWhile
      have hread : readToken c (cs ++ rest) = .ok (.text (c :: cs), rest) := by
        rw [readToken, if_neg (Ne.symm hlt.1), List.takeWhile_append_of_pos hcs',
          List.dropWhile_append_of_pos hcs', htake, hdrop, List.append_nil]
      rw [List.cons_append, scanText_token hread, Token.events, ← hcs,
        Reference.decode_escapeText, String.ofList_toList]

/-- What begins with a name behind `<` is a start tag. -/
theorem readMarkup_of_isNameStart {c : Char} (h : isNameStart c) (start cs : List Char) :
    readMarkup start (c :: cs) = readStartTag start (c :: cs) := by
  obtain ⟨hinstruction, hsection, hend, -, -⟩ := ne_of_isNameStart h
  unfold readMarkup
  split
  · rename_i heq
    exact absurd (List.cons.inj heq).1 hinstruction
  · rename_i heq
    exact absurd (List.cons.inj heq).1 hsection
  · rename_i heq
    exact absurd (List.cons.inj heq).1 hsection
  · rename_i heq
    exact absurd (List.cons.inj heq).1 hsection
  · rename_i heq
    exact absurd (List.cons.inj heq).1 hend
  · rfl

/-- **A start tag is scanned as the start of its element**, with the attributes that were
    escaped. -/
theorem scanText_startTag {name : String} {attributes : List (String × String)}
    (h : IsName name.toList) (hkeys : ∀ a ∈ attributes, IsName a.1.toList) (rest : List Char) :
    scanText ('<' :: (name.toList ++ (attributes.flatMap Tree.attributeSource ++ '>' :: rest)))
      = (.startElement name attributes :: (scanText rest).1, (scanText rest).2) := by
  have hread : readToken '<'
      (name.toList ++ (attributes.flatMap Tree.attributeSource ++ '>' :: rest))
      = .ok (.startTag name.toList (attributes.map writtenAttribute) false, rest) := by
    obtain ⟨c, cs, hname, hc, -⟩ := h.exists_cons
    rw [readToken, if_pos rfl, ← readStartTag_written h hkeys _ rest, hname, List.cons_append]
    exact readMarkup_of_isNameStart hc _ _
  have hdecoded : (attributes.map writtenAttribute).map
      (fun a => (String.ofList a.1, String.ofList (Reference.decode a.2))) = attributes := by
    rw [List.map_map]
    refine List.map_id'' (fun a => ?_) attributes
    rw [Function.comp_apply, writtenAttribute, String.ofList_toList,
      Reference.decode_escapeAttribute, String.ofList_toList]
  rw [scanText_token hread, Token.events, hdecoded, String.ofList_toList]
  rfl

/-- **An end tag is scanned as the end of its element.** -/
theorem scanText_endTag {name : String} (h : IsName name.toList) (rest : List Char) :
    scanText ('<' :: '/' :: (name.toList ++ '>' :: rest))
      = (.endElement name :: (scanText rest).1, (scanText rest).2) := by
  have hread : readToken '<' ('/' :: (name.toList ++ '>' :: rest))
      = .ok (.endTag name.toList, rest) := by
    rw [readToken, if_pos rfl, readMarkup]
    exact readEndTag_written h _ rest
  rw [scanText_token hread, Token.events, String.ofList_toList]
  rfl

/-- A section that does not hold its own mark ends where the mark begins. -/
theorem delimited_append (before : List Char) {contents : List Char} (last : Char)
    (hlast : last ∉ before)
    (h : ¬ before ++ [last] <:+: contents) (construct : Construct) (start rest : List Char) :
    delimited construct start (before ++ [last]) (contents ++ (before ++ [last] ++ rest))
      = .ok (contents, rest) := by
  rw [delimited, Text.splitAround?_append before contents last hlast h]

/-- **A CDATA section is scanned as its bytes**, if it does not hold its own end. -/
theorem scanText_cdata {contents : List Char} (h : ¬ [']', ']', '>'] <:+: contents)
    (rest : List Char) :
    scanText ("<![CDATA[".toList ++ (contents ++ ("]]>".toList ++ rest)))
      = (.cdata (Utf8.encode contents) :: (scanText rest).1, (scanText rest).2) := by
  have hmark : "]]>".toList = [']', ']', '>'] := by decide
  have hread : readToken '<' ("![CDATA[".toList ++ (contents ++ ("]]>".toList ++ rest)))
      = .ok (.cdata contents, rest) := by
    have hcontents := delimited_append [']', ']'] '>' (by decide) h .cdataSection
      ('<' :: ("![CDATA[".toList ++ (contents ++ ("]]>".toList ++ rest)))) rest
    rw [hmark] at hcontents ⊢
    exact congrArg (Except.map fun parts => (Token.cdata parts.1, parts.2)) hcontents
  exact scanText_token hread

/-! ### Declarations -/

/-- The contents of the declaration that a document is written with. -/
def declarationContents (label : List Char) : List Char :=
  'x' :: 'm' :: 'l' :: (" version=\"1.0\" encoding=\"".toList ++ (label ++ ['"']))

/-- What a label says before the first quote in it. -/
def beforeQuote (label : String) : String :=
  String.ofList (label.toList.takeWhile (· != '"'))

/-- A label without quotes says it all before one. -/
theorem beforeQuote_eq_self_iff {label : String} :
    beforeQuote label = label ↔ '"' ∉ label.toList := by
  rw [beforeQuote, ← String.toList_inj, String.toList_ofList, List.takeWhile_eq_self_iff]
  constructor
  · intro h hquote
    cases h '"' hquote
  · intro h c hc
    rw [bne_iff_ne]
    rintro rfl
    exact h hc

/-- The label of a declaration is found between its quotes, so it ends at the first one in it. -/
theorem declaration?_written (label : String) :
    declaration? (declarationContents label.toList) = some (some (beforeQuote label).toList) := by
  -- the key does not stand in the version before it
  have hkey : Text.splitAround? "encoding".toList
      (" version=\"1.0\" encoding=\"".toList ++ (label.toList ++ ['"']))
      = some (" version=\"1.0\" ".toList, '=' :: '"' :: (label.toList ++ ['"'])) :=
    Text.splitAround?_append "encodin".toList " version=\"1.0\" ".toList 'g' (by decide)
      (Text.splitAround?_eq_none_iff.1 (by decide))
      ('=' :: '"' :: (label.toList ++ ['"']))
  have hequals : Text.isBlank '=' = false := by decide
  have hopen : Text.isBlank '"' = false := by decide
  have hvalue : pairValue? "encoding".toList
      (" version=\"1.0\" encoding=\"".toList ++ (label.toList ++ ['"']))
      = some (beforeQuote label).toList := by
    rw [pairValue?, hkey]
    simp only [Text.trimStart, List.dropWhile_cons, hequals, hopen, Text.splitAt?_concat,
      Bool.false_eq_true, if_false, true_or, if_true, beforeQuote, String.toList_ofList]
  have hblank : (" version=\"1.0\" encoding=\"".toList ++ (label.toList ++ ['"'])).head?.all
      Text.isBlank := rfl
  rw [declarationContents, declaration?, if_pos hblank, hvalue]

/-- A label that does not end a declaration leaves it to its end. -/
theorem declarationContents_free {label : List Char} (h : ¬ ['?', '>'] <:+: label) :
    ¬ ['?', '>'] <:+: declarationContents label := by
  intro hmark
  have hbehind := Text.infix_of_infix_append
    ('x' :: 'm' :: 'l' :: " version=\"1.0\" encoding=\"".toList) (by decide) hmark
  exact h (Text.infix_of_infix_concat ['?'] (by decide) hbehind)

/-- A declaration is an instruction with its contents between the marks. -/
theorem declarationSource_append (label : String) (rest : List Char) :
    Document.declarationSource label ++ rest
      = '<' :: '?' :: (declarationContents label.toList ++ (['?', '>'] ++ rest)) := by
  have hfront : "<?xml version=\"1.0\" encoding=\"".toList
      = '<' :: '?' :: 'x' :: 'm' :: 'l' :: " version=\"1.0\" encoding=\"".toList := by simp
  have hback : "\"?>".toList = ['"', '?', '>'] := by simp
  unfold Document.declarationSource declarationContents
  rw [hfront, hback]
  -- the pairs are not looked into
  generalize " version=\"1.0\" encoding=\"".toList = pairs
  simp only [List.cons_append, List.append_assoc, List.nil_append]

/-- **The declaration of a document is scanned as its label**, up to the first quote in it, if that
    does not end it. -/
theorem scanText_declaration {label : String} (hend : ¬ ['?', '>'] <:+: label.toList)
    (rest : List Char) :
    scanText (Document.declarationSource label ++ rest)
      = (.declaration (some (beforeQuote label)) :: (scanText rest).1, (scanText rest).2) := by
  have hmark := delimited_append ['?'] '>' (by decide) (declarationContents_free hend) .instruction
    ('<' :: '?' :: (declarationContents label.toList ++ (['?', '>'] ++ rest))) rest
  have hread : readToken '<' ('?' :: (declarationContents label.toList ++ (['?', '>'] ++ rest)))
      = .ok (.instruction (declarationContents label.toList), rest) := by
    rw [readToken, if_pos rfl]
    exact congrArg (Except.map fun parts => (Token.instruction parts.1, parts.2)) hmark
  rw [declarationSource_append, scanText_token hread, Token.events, declaration?_written]
  simp only [Option.map_some, String.ofList_toList, List.singleton_append]

end XmlQuery.Markup
