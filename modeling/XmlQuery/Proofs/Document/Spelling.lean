import XmlQuery.Proofs.Document.RoundTrip
import XmlQuery.Proofs.Markup.Boundary

namespace XmlQuery

/-!
# What is read can be spelled

Names that are read are names, and a section that is read does not hold its own mark.  So a document
that was read from bytes has nothing in it that markup could not spell.

* `Markup.Token.Spelled`, `Markup.readToken_spelled` — tokens as markup can spell them, and as they
  are read.
* `Markup.Event.Spelled`, `Markup.spelled_of_mem_scan` — the same of events.
* `Document.Spelled.insertNode` — what can be spelled may be added to a document.
* `Builder.document_step_cases` — what one event does to the document of a builder.
* `Builder.encoding_run` — the label of a document is the one that was declared last.
* `Document.spelled_of_parse`, `Document.label_of_parse` — every document that was read can be
  spelled, and so can its label.
-/

namespace Markup

/-! ### Parts of markup -/

/-- What is split off before a mark does not hold the mark. -/
theorem not_infix_of_splitAround? {mark cs before after : List Char} (hmark : mark ≠ [])
    (h : Text.splitAround? mark cs = some (before, after)) : ¬ mark <:+: before := by
  rintro ⟨b, a, rfl⟩
  have hcs : cs = b ++ mark ++ (a ++ (mark ++ after)) := by
    rw [Text.splitAround?_eq_append h]
    simp only [List.append_assoc]
  -- the mark would have been found there
  have hle := Text.splitAround?_least h hcs
  have hpos := List.length_pos_iff.2 hmark
  simp only [List.length_append] at hle
  omega

/-- The contents of a section do not hold the mark behind it. -/
theorem not_infix_of_delimited {construct : Construct} {start mark cs contents rest : List Char}
    (hmark : mark ≠ []) (h : delimited construct start mark cs = .ok (contents, rest)) :
    ¬ mark <:+: contents := by
  rw [delimited] at h
  split at h
  · rename_i hsplit
    cases h
    exact not_infix_of_splitAround? hmark hsplit
  · cases h

/-- The value of a pair stands among the pairs. -/
theorem infix_of_pairValue? {key cs value : List Char} (h : pairValue? key cs = some value) :
    value <:+: cs := by
  have htrim : ∀ cs, Text.trimStart cs <:+ cs := fun cs => List.dropWhile_suffix _
  simp only [pairValue?] at h
  split at h
  · cases h
  rename_i before afterKey hkey
  split at h
  · rename_i afterEquals hequals
    split at h
    · rename_i quote behind hbehind
      split at h
      · obtain ⟨⟨_, after⟩, hsplit, rfl⟩ := Option.map_eq_some_iff.1 h
        have hvalue : _ <:+: behind := ⟨[], quote :: after, (Text.splitAt?_eq_append hsplit).1.symm⟩
        have hequals' : behind <:+ afterEquals :=
          (List.suffix_cons quote behind).trans (hbehind ▸ htrim afterEquals)
        have hkey' : afterEquals <:+ afterKey :=
          (List.suffix_cons '=' afterEquals).trans (hequals ▸ htrim afterKey)
        have hcs : afterKey <:+ cs := ⟨before ++ key, (Text.splitAround?_eq_append hkey).symm⟩
        exact hvalue.trans (hequals'.trans (hkey'.trans hcs)).isInfix
      · cases h
    · cases h
  · cases h

/-- The label of a declaration stands in it. -/
theorem infix_of_declaration? {contents label : List Char}
    (h : declaration? contents = some (some label)) : label <:+: contents := by
  unfold declaration? at h
  split at h
  · rename_i pairs
    split at h
    · have hpairs : pairs <:+ 'x' :: 'm' :: 'l' :: pairs := ⟨['x', 'm', 'l'], rfl⟩
      exact (infix_of_pairValue? (Option.some.inj h)).trans hpairs.isInfix
    · cases h
  · cases h

/-! ### Tokens -/

/-- A token as markup can spell it: names and keys are names, and sections do not hold the mark at
    their end. -/
def Token.Spelled : Token → Prop
  | startTag name attributes _ => IsName name ∧ ∀ a ∈ attributes, IsName a.1
  | cdata contents => ¬ [']', ']', '>'] <:+: contents
  | instruction contents => ¬ ['?', '>'] <:+: contents
  | _ => True

/-- A section is read as it can be spelled. -/
theorem delimited_spelled {construct : Construct} {start mark cs rest : List Char}
    {f : List Char → Token} {token : Token} (hmark : mark ≠ [])
    (h : (delimited construct start mark cs).map (fun parts => (f parts.1, parts.2))
      = .ok (token, rest))
    (hf : ∀ contents, ¬ mark <:+: contents → (f contents).Spelled) : token.Spelled := by
  cases hread : delimited construct start mark cs with
  | error fault => rw [hread] at h; cases h
  | ok parts =>
    rw [hread] at h
    cases h
    exact hf _ (not_infix_of_delimited hmark hread)

/-- A start tag is read as it can be spelled: its name and the keys of its pairs are names. -/
theorem readStartTag_spelled {start cs rest : List Char} {token : Token}
    (h : readStartTag start cs = .ok (token, rest)) : token.Spelled := by
  obtain ⟨tag, -, rfl⟩ := readStartTag_eq_ok_iff.1 h
  refine ⟨tag.isName_name, fun a ha => ?_⟩
  obtain ⟨p, -, rfl⟩ := List.mem_map.1 ha
  exact p.isName_key

/-- Nothing is asked of the name in an end tag. -/
theorem readEndTag_spelled {start cs rest : List Char} {token : Token}
    (h : readEndTag start cs = .ok (token, rest)) : token.Spelled := by
  simp only [readEndTag] at h
  repeat' split at h
  all_goals cases h
  exact trivial

/-- **Every token is read as it can be spelled.** -/
theorem readToken_spelled {c : Char} {cs rest : List Char} {token : Token}
    (h : readToken c cs = .ok (token, rest)) : token.Spelled := by
  rw [readToken] at h
  split at h
  · unfold readMarkup at h
    split at h
    · exact delimited_spelled (by decide) h fun _ hmark => hmark
    · exact delimited_spelled (by decide) h fun _ _ => trivial
    · exact delimited_spelled (by decide) h fun _ hmark => hmark
    · split at h
      · cases h; exact trivial
      · cases h
    · exact readEndTag_spelled h
    · exact readStartTag_spelled h
  · cases h
    exact trivial

/-! ### Events -/

/-- An event as markup can spell it: names and keys are names, a CDATA section is a text that does
    not hold the mark at its end, and a label does not end its declaration. -/
def Event.Spelled : Event → Prop
  | startElement name attributes => IsName name.toList ∧ ∀ a ∈ attributes, IsName a.1.toList
  | cdata bytes => ∃ cs, Utf8.decode bytes = .ok cs ∧ ¬ [']', ']', '>'] <:+: cs
  | declaration (some label) => ¬ ['?', '>'] <:+: label.toList
  | _ => True

/-- What can be spelled as a token can be as events. -/
theorem Token.Spelled.of_mem_events {token : Token} (h : token.Spelled) {e : Event}
    (he : e ∈ token.events) : e.Spelled := by
  cases token with
  | text raw => rw [List.mem_singleton.1 he]; exact trivial
  | comment contents => cases he
  | doctype => cases he
  | endTag name => rw [List.mem_singleton.1 he]; exact trivial
  | cdata contents =>
    rw [List.mem_singleton.1 he]
    exact ⟨contents, Utf8.decode_encode contents, h⟩
  | instruction contents =>
    rw [events] at he
    split at he
    · rename_i encoding hdeclaration
      rw [List.mem_singleton.1 he]
      cases encoding with
      | none => exact trivial
      | some label =>
        -- a label with the mark in it would have ended the declaration
        rw [Option.map_some, Event.Spelled, String.toList_ofList]
        exact fun hmark => h (hmark.trans (infix_of_declaration? hdeclaration))
    · cases he
  | startTag name attributes selfClosing =>
    have hstart : Event.Spelled (.startElement (String.ofList name) (attributes.map fun a =>
        (String.ofList a.1, String.ofList (Reference.decode a.2)))) := by
      refine ⟨by rw [String.toList_ofList]; exact h.1, fun a ha => ?_⟩
      obtain ⟨pair, hpair, rfl⟩ := List.mem_map.1 ha
      rw [String.toList_ofList]
      exact h.2 pair hpair
    cases selfClosing with
    | false => rw [List.mem_singleton.1 he]; exact hstart
    | true =>
      rcases List.mem_cons.1 he with rfl | he
      · exact hstart
      · rw [List.mem_singleton.1 he]
        exact trivial

/-- Every event of a text can be spelled. -/
theorem spelled_of_mem_scanText {cs : List Char} {e : Event} (h : e ∈ (scanText cs).1) :
    e.Spelled := by
  induction cs using scanText.induct with
  | case1 =>
    rw [scanText_nil] at h
    rw [List.mem_singleton.1 h]
    exact trivial
  | case2 c cs fault hread =>
    rw [scanText_cons, hread] at h
    cases h
  | case3 c cs token rest hread _ _ _ ih =>
    rw [scanText_token hread] at h
    rcases List.mem_append.1 h with htoken | hrest
    · exact (readToken_spelled hread).of_mem_events htoken
    · exact ih hrest

/-- **Every event of a scan can be spelled.** -/
theorem spelled_of_mem_scan {bytes : List UInt8} {e : Event} (h : e ∈ (scan bytes).events) :
    e.Spelled := by
  unfold scan at h
  dsimp only at h
  split at h
  · cases h
  · exact spelled_of_mem_scanText h

end Markup

open Markup Nesting

/-! ### Documents -/

/-- A child does not matter for how a content is spelled. -/
theorem Content.Spelled.addChild {content : Content} (h : content.Spelled) (id : Nat) :
    (content.addChild id).Spelled := by
  cases content with
  | element e => exact h
  | text s => exact h
  | cdata bytes => exact h

/-- An element can be spelled if its name and the keys that are set can be. -/
theorem Element.spelled_ofAttributes {name : String} {attributes : List (String × String)}
    (hname : IsName name.toList) (hkeys : ∀ a ∈ attributes, IsName a.1.toList) :
    Content.Spelled (.element (.ofAttributes name attributes)) := by
  refine ⟨by rwa [name_ofAttributes], fun key hkey => ?_⟩
  obtain ⟨a, ha, rfl⟩ := List.mem_map.1 (mem_of_mem_keys_ofAttributes hkey)
  exact hkeys a ha

namespace Document

variable {d : Document}

/-- A document that holds nothing can be spelled. -/
theorem spelled_ofEncoding (encoding : String) : (Document.ofEncoding encoding).Spelled := by
  intro id owner content hid hn
  cases id with
  | zero => exact absurd rfl hid
  | succ id =>
    have hnone : (Document.ofEncoding encoding).node? (id + 1) = none := rfl
    rw [hnone] at hn
    cases hn

/-- **What can be spelled may be added.** -/
theorem Spelled.insertNode (h : d.Spelled) {content : Content} (hcontent : content.Spelled)
    (parent : Nat) : (d.insertNode parent content).Spelled := by
  intro id owner content' hid hn
  rw [node?_insertNode] at hn
  split at hn
  · cases hn
    exact hcontent
  split at hn
  · obtain ⟨⟨owner', old⟩, hold, hn⟩ := Option.map_eq_some_iff.1 hn
    cases hn
    exact (h id owner' old hid hold).addChild _
  · exact h id owner content' hid hn

end Document

namespace Builder

/-- The content that an event brings, if it brings one. -/
def content? : Event → Option Content
  | .startElement name attributes => some (.element (.ofAttributes name attributes))
  | .characters text => some (.text text)
  | .cdata bytes => some (.cdata bytes)
  | _ => none

/-- A content is entered at the cursor, or left out. -/
theorem document_insert_cases (b : Builder) (content : Content) :
    (b.insert content).document = b.document ∨
      (b.insert content).document = b.document.insertNode b.cursor content := by
  rcases b.document_insert_after content with hsame | hafter
  · exact .inl hsame
  · have hcases := (Document.atomic_append b.cursor content).after_cases b.document
    rcases hcases with hsame | ⟨id, hadded⟩
    · exact .inl (hafter.trans hsame)
    · obtain ⟨-, -, -, -, hnext⟩ := Document.append_eq_ok_iff.1 hadded
      exact .inr (hafter.trans hnext)

/-- **What an event does to a document:** its content is entered at the cursor, or only its label is
    taken over, if it has one. -/
theorem document_step_cases (b : Builder) (e : Event) :
    (b.step e).document = b.document.setEncoding (relabel b.document.encoding e) ∨
      ∃ content, content? e = some content ∧
        (b.step e).document = b.document.insertNode b.cursor content := by
  cases e with
  | startElement name attributes =>
    unfold step
    dsimp only
    split
    · exact .inl rfl
    · exact (document_insert_cases b _).imp id fun h => ⟨_, rfl, h⟩
  | characters text =>
    unfold step
    dsimp only
    split
    · exact .inl rfl
    · exact (document_insert_cases b _).imp id fun h => ⟨_, rfl, h⟩
  | cdata bytes => exact (document_insert_cases b _).imp id fun h => ⟨_, rfl, h⟩
  | endElement name =>
    -- the end of an element moves the cursor or is an error; the document stays as it is
    unfold step close
    dsimp only
    split
    · exact .inl rfl
    · split
      · exact .inl rfl
      · split <;> exact .inl rfl
  | declaration encoding => cases encoding <;> exact .inl rfl
  | endDocument => exact .inl rfl

/-- An event that can be spelled brings a content that can be. -/
theorem spelled_of_content? {e : Event} (he : e.Spelled) {content : Content}
    (h : content? e = some content) : content.Spelled := by
  cases e with
  | startElement name attributes => cases h; exact Element.spelled_ofAttributes he.1 he.2
  | characters text => cases h; exact trivial
  | cdata bytes => cases h; exact he
  | endElement name => cases h
  | declaration encoding => cases h
  | endDocument => cases h

/-- An event that brings a content declares no label. -/
theorem relabel_of_content? {e : Event} {content : Content} (h : content? e = some content)
    (label : String) : relabel label e = label := by
  cases e with
  | declaration encoding => cases h
  | _ => rfl

/-- Events that can be spelled leave the document so. -/
theorem spelled_run {b : Builder} (h : b.document.Spelled) {events : List Event}
    (hevents : ∀ e ∈ events, e.Spelled) : (b.run events).document.Spelled := by
  induction events generalizing b with
  | nil => exact h
  | cons e events ih =>
    have hstep : (b.step e).document.Spelled := by
      rcases document_step_cases b e with hnext | ⟨content, hcontent, hnext⟩
      · exact hnext ▸ h
      · rw [hnext]
        exact h.insertNode (spelled_of_content? (hevents e List.mem_cons_self) hcontent) _
    exact ih hstep fun e' he' => hevents e' (List.mem_cons_of_mem e he')

/-- **The label of a document is the one that was declared last**, whether there was an error or
    not. -/
theorem encoding_run (b : Builder) (events : List Event) :
    (b.run events).document.encoding = declared b.document.encoding events := by
  induction events generalizing b with
  | nil => rfl
  | cons e events ih =>
    have hstep : (b.step e).document.encoding = relabel b.document.encoding e := by
      rcases document_step_cases b e with hnext | ⟨content, hcontent, hnext⟩
      · rw [hnext]
        rfl
      · rw [hnext, relabel_of_content? hcontent]
        rfl
    rw [run_cons, ih, hstep, declared, declared, List.foldl_cons]

end Builder

/-- Events that can be spelled leave a label that does not end its declaration. -/
theorem Nesting.declared_spelled {label : String} (h : ¬ ['?', '>'] <:+: label.toList)
    {events : List Event} (hevents : ∀ e ∈ events, e.Spelled) :
    ¬ ['?', '>'] <:+: (declared label events).toList := by
  induction events generalizing label with
  | nil => exact h
  | cons e events ih =>
    have he := hevents e List.mem_cons_self
    have hnext : ¬ ['?', '>'] <:+: (relabel label e).toList := by
      cases e with
      | declaration encoding =>
        cases encoding with
        | none => exact h
        | some encoding => exact he
      | _ => exact h
    exact ih hnext fun e' he' => hevents e' (List.mem_cons_of_mem e he')

namespace Document

variable {options : Options} {bytes : List UInt8} {d : Document}

/-- What is read is what a builder makes of events that can be spelled. -/
theorem exists_spelled_of_parse (h : parse options bytes = .ok d) :
    ∃ events, (∀ e ∈ events, e.Spelled) ∧
      ((Builder.ofOptions options).run events).document = d := by
  simp only [parse] at h
  split at h
  · cases h
  · exact ⟨_, fun e he => spelled_of_mem_scan he, Builder.document_of_finish h⟩

/-- **Every document that was read can be spelled.** -/
theorem spelled_of_parse (h : parse options bytes = .ok d) : d.Spelled := by
  obtain ⟨events, hevents, rfl⟩ := exists_spelled_of_parse h
  exact Builder.spelled_run (spelled_ofEncoding _) hevents

/-- **The label of a document that was read does not end its declaration**, if the label that the
    document would have had without one does not. -/
theorem label_of_parse (hlabel : ¬ ['?', '>'] <:+: options.encoding.toList)
    (h : parse options bytes = .ok d) : ¬ ['?', '>'] <:+: d.encoding.toList := by
  obtain ⟨events, hevents, rfl⟩ := exists_spelled_of_parse h
  rw [Builder.encoding_run]
  exact Nesting.declared_spelled hlabel hevents

end Document

end XmlQuery
