import XmlQuery.Proofs.Markup.Faults

namespace XmlQuery.Markup

/-!
# Which start tags are recognised

Where `<` and the beginning of a name stand, there is a start tag exactly if the text goes on as one
is written.  There is one way at most to see it so.

* `StartTag.events` — what a start tag makes happen.
* `readToken_eq_ok_iff` — a start tag is taken off the front exactly if one is written there.
* `StartTag.text_unique` — two start tags at one place are the same.
* `readToken_startTag` — what is recognised, what is taken off and delivered, and what happens
  otherwise.
-/

/-- What a start tag as it is written makes happen: its element starts, with the attributes in order
    and the references in their values resolved, and ends at once if the tag ends it too. -/
def StartTag.events (tag : StartTag) : List Event :=
  .startElement (String.ofList tag.name)
      (tag.pairs.map fun p => (String.ofList p.key, String.ofList (Reference.decode p.value)))
    :: if tag.selfClosing then [.endElement (String.ofList tag.name)] else []

/-- A start tag is read as what makes that happen. -/
theorem StartTag.events_token (tag : StartTag) : tag.token.events = tag.events := by
  have hattributes : (tag.pairs.map fun p => p.content).map
      (fun a => (String.ofList a.1, String.ofList (Reference.decode a.2)))
      = tag.pairs.map fun p => (String.ofList p.key, String.ofList (Reference.decode p.value)) :=
    List.map_map
  cases hclosing : tag.selfClosing with
  | false => simp only [StartTag.token, Token.events, hattributes, hclosing, StartTag.events,
      Bool.false_eq_true, if_false]
  | true => simp only [StartTag.token, Token.events, hattributes, hclosing, StartTag.events,
      if_true]

/-- **Two start tags at one place are the same**, and are read as the same. -/
theorem StartTag.text_unique {cs : List Char} {tag tag' : StartTag} (htag : tag.text <+: '<' :: cs)
    (htag' : tag'.text <+: '<' :: cs) : tag.text = tag'.text ∧ tag.token = tag'.token := by
  obtain ⟨rest, hrest⟩ := htag
  obtain ⟨rest', hrest'⟩ := htag'
  have hread : readStartTag [] cs = .ok (tag.token, rest) :=
    readStartTag_eq_ok_iff.2 ⟨tag, hrest.symm, rfl⟩
  have hread' : readStartTag [] cs = .ok (tag'.token, rest') :=
    readStartTag_eq_ok_iff.2 ⟨tag', hrest'.symm, rfl⟩
  rw [hread, Except.ok.injEq, Prod.mk.injEq] at hread'
  obtain ⟨htoken, rfl⟩ := hread'
  exact ⟨List.append_cancel_right (hrest.trans hrest'.symm), htoken⟩

/-- Where a name begins behind `<`, a start tag is taken off the front exactly if one is written
    there. -/
theorem readToken_eq_ok_iff {c : Char} (hc : isNameStart c) {cs rest : List Char} {token : Token} :
    readToken '<' (c :: cs) = .ok (token, rest) ↔
      ∃ tag : StartTag, '<' :: c :: cs = tag.text ++ rest ∧ token = tag.token := by
  rw [readToken, if_pos rfl, readMarkup_of_isNameStart hc]
  exact readStartTag_eq_ok_iff

/-- What can be wrong where a name begins behind `<`. -/
theorem readToken_eq_error {c : Char} (hc : isNameStart c) {cs : List Char} {fault : Fault}
    (h : readToken '<' (c :: cs) = .error fault) :
    fault = .malformedTag ('<' :: c :: cs) ∨ fault = .unterminated .startTag ('<' :: c :: cs) ∨
      ∃ value, fault = .unterminated .attributeValue value := by
  rw [readToken, if_pos rfl, readMarkup_of_isNameStart hc] at h
  rcases readStartTag_fault h with hfault | hfault | ⟨_, value, _, _, _, hfault, -⟩
  · exact .inl hfault
  · exact .inr (.inl hfault)
  · exact .inr (.inr ⟨value, hfault⟩)

/-- **Start tags are recognised by exactly their grammar.**  Where a name begins behind `<`, reading
    succeeds exactly if a start tag is written there.  Then that one is the only one; it is what is
    taken off, and the start of its element, and perhaps the end, is what is delivered.  In every
    other case the tag is malformed, or it or the value of an attribute does not end, and nothing is
    delivered. -/
theorem readToken_startTag {c : Char} (hc : isNameStart c) (cs : List Char) :
    ((∃ token rest, readToken '<' (c :: cs) = .ok (token, rest)) ↔
      ∃ tag : StartTag, tag.text <+: '<' :: c :: cs) ∧
    (∀ (tag : StartTag) (rest : List Char), '<' :: c :: cs = tag.text ++ rest →
      readToken '<' (c :: cs) = .ok (tag.token, rest) ∧
      scanText ('<' :: c :: cs) = (tag.events ++ (scanText rest).1, (scanText rest).2) ∧
      ∀ tag' : StartTag, tag'.text <+: '<' :: c :: cs → tag'.text = tag.text) ∧
    ((¬ ∃ tag : StartTag, tag.text <+: '<' :: c :: cs) →
      ∃ fault, readToken '<' (c :: cs) = .error fault ∧
        scanText ('<' :: c :: cs) = ([], some fault) ∧
        (fault = .malformedTag ('<' :: c :: cs) ∨ fault = .unterminated .startTag ('<' :: c :: cs) ∨
          ∃ value, fault = .unterminated .attributeValue value)) := by
  have hiff : (∃ token rest, readToken '<' (c :: cs) = .ok (token, rest)) ↔
      ∃ tag : StartTag, tag.text <+: '<' :: c :: cs := by
    constructor
    · rintro ⟨token, rest, hread⟩
      obtain ⟨tag, htext, -⟩ := (readToken_eq_ok_iff hc).1 hread
      exact ⟨tag, rest, htext.symm⟩
    · rintro ⟨tag, rest, htext⟩
      exact ⟨tag.token, rest, (readToken_eq_ok_iff hc).2 ⟨tag, htext.symm, rfl⟩⟩
  refine ⟨hiff, fun tag rest htext => ?_, fun hnone => ?_⟩
  · have hread : readToken '<' (c :: cs) = .ok (tag.token, rest) :=
      (readToken_eq_ok_iff hc).2 ⟨tag, htext, rfl⟩
    refine ⟨hread, ?_, fun tag' htag' => (StartTag.text_unique htag' ⟨rest, htext.symm⟩).1⟩
    rw [scanText_token hread, tag.events_token]
  · cases hread : readToken '<' (c :: cs) with
    | ok parts => exact absurd (hiff.1 ⟨parts.1, parts.2, hread⟩) hnone
    | error fault =>
      refine ⟨fault, rfl, ?_, readToken_eq_error hc hread⟩
      rw [scanText_cons, hread]

/-- A tag with a value that holds the end of a tag and the other quote, and with line breaks. -/
theorem readToken_startTag_quoted :
    isNameStart 'r' ∧
      ∃ tag : StartTag, tag.text = "<r k = '/>\"'\n\tl=\"&lt;\"\n/>".toList ∧
        tag.events = [.startElement "r" [("k", "/>\""), ("l", "<")], .endElement "r"] ∧
        readToken '<' "r k = '/>\"'\n\tl=\"&lt;\"\n/>t".toList = .ok (tag.token, ['t']) := by
  have hc : isNameStart 'r' := by decide
  let tag : StartTag :=
    ⟨['r'], [
        ⟨⟨['k'], [' '], [' '], '\x27', ['/', '>', '"'], rfl, by decide, by decide, .inr rfl,
          by decide⟩, [' '], by decide, by decide⟩,
        ⟨⟨['l'], [], [], '"', ['&', 'l', 't', ';'], rfl, by decide, by decide, .inl rfl,
          by decide⟩, ['\n', '\t'], by decide, by decide⟩],
      ['\n'], true, rfl, by decide⟩
  have htext : tag.text = "<r k = '/>\"'\n\tl=\"&lt;\"\n/>".toList := by decide
  have hevents : tag.events
      = [.startElement "r" [("k", "/>\""), ("l", "<")], .endElement "r"] := by decide +kernel
  have hread := (readToken_startTag hc " k = '/>\"'\n\tl=\"&lt;\"\n/>t".toList).2.1 tag ['t']
    (by rw [htext]; decide)
  exact ⟨hc, tag, htext, hevents, hread.1⟩

end XmlQuery.Markup
