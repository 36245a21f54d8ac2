import XmlQuery.Proofs.Markup.Boundary

namespace XmlQuery.Markup

/-!
# Where markup is at fault

What is wrong with a document is wrong with one token.  It is reported where that token begins, or,
if the value of an attribute does not end, where the value does; and all that stands before the
token has been delivered.

* `Unclosed` — a quote that is not met again.
* `readAttribute_fault`, `readAttributes_fault`, `readStartTag_fault` — the faults of a start tag.
* `FaultOf`, `readToken_fault` — the faults of a token.
* `exists_fault_of_scanText` — the fault of a document is that of one token, with whole tokens
  before it.
* `DeliveredBefore`, `OpensValue`, `ErrorAt` — the same of an error, in bytes.
* `scan_errorAt` — every error of a scan is at such a place.
-/

/-! ### Start tags -/

/-- Whether `cs` is a part `used`, and behind it a quote that is not met again in what follows. -/
structure Unclosed (cs used value : List Char) (quote : Char) : Prop where
  split : cs = used ++ quote :: value
  isQuote : quote = '"' ∨ quote = '\x27'
  free : quote ∉ value

variable {start cs : List Char} {fault : Fault}

/-- What begins with a name and goes up to a quote does not begin with the quote. -/
theorem Unclosed.exists_cons {used value more : List Char} {quote : Char}
    (h : Unclosed cs used value quote)
    (hname : ∀ c tail, used ++ quote :: more = c :: tail → isNameStart c) :
    ∃ c rest, used = c :: rest ∧ isNameStart c := by
  cases used with
  | nil =>
    have hquote := hname quote more rfl
    rcases h.isQuote with rfl | rfl <;> cases hquote
  | cons c used => exact ⟨c, used, rfl, hname c _ rfl⟩

/-- An attribute is at fault where its tag begins; or its value does not end, and it is one up to
    that. -/
theorem readAttribute_fault (h : readAttribute start cs = .error fault) :
    fault = .malformedTag start ∨
      ∃ (p : QuotedPair) (value : List Char), fault = .unterminated .attributeValue value ∧
        cs = p.key ++ (p.separator ++ value) ∧ p.value = [] ∧ p.quote ∉ value := by
  simp only [readAttribute] at h
  split at h
  · cases h
    exact .inl rfl
  rename_i key afterKey hkey
  split at h
  · rename_i afterEquals hequals
    split at h
    · rename_i quote value hvalue
      split at h
      · rename_i hquote
        split at h
        · cases h
        · rename_i hsplit
          cases h
          obtain ⟨hcs, hname, -⟩ := readName?_eq_some_iff.1 hkey
          obtain ⟨-, before, hbefore, hafterKey⟩ := skipSpaces_eq_cons_iff.1 hequals
          obtain ⟨-, behind, hbehind, hafterEquals⟩ := skipSpaces_eq_cons_iff.1 hvalue
          refine .inr ⟨⟨key, before, behind, quote, [], hname, hbefore, hbehind, hquote,
            List.not_mem_nil⟩, value, rfl, ?_, rfl, Text.splitAt?_eq_none_iff.1 hsplit⟩
          rw [QuotedPair.separator_append, hcs, hafterKey, hafterEquals]
      · cases h
        exact .inl rfl
    · cases h
      exact .inl rfl
  · cases h
    exact .inl rfl

/-- Attributes are at fault where their tag begins; or the value of one does not end, and if it
    ended at once, and the tag behind it, the attributes would be those of a start tag. -/
theorem readAttributes_fault (h : readAttributes start cs = .error fault) :
    fault = .malformedTag start ∨ fault = .unterminated .startTag start ∨
      ∃ used value quote attributes, fault = .unterminated .attributeValue value ∧
        Unclosed cs used value quote ∧
        ∀ start more, readAttributes start (used ++ quote :: quote :: '>' :: more)
          = .ok (attributes, false, more) := by
  fun_induction readAttributes start cs with
  | case1 => cases h
  | case2 => cases h
  | case3 =>
    cases h
    exact .inr (.inl rfl)
  | case4 cs =>
    cases h
    rename_i hspace _ _ _ hread
    rcases readAttribute_fault hread with hfault | ⟨p, value, hfault, hskip, hempty, hfree⟩
    · exact .inl hfault
    -- the attribute whose value does not end is the only one that is left
    · obtain ⟨c, key, hkey, -, -⟩ := p.isName_key.exists_cons
      rw [hkey, List.cons_append] at hskip
      obtain ⟨spaces, hspaces, hne, rfl⟩ := exists_spaces_of_skipSpaces hspace hskip
      refine .inr (.inr ⟨spaces ++ (p.key ++ (p.beforeEquals ++ '=' :: p.afterEquals)), value,
        p.quote, [p.content], hfault, ⟨?_, p.isQuote, hfree⟩, fun start more => ?_⟩)
      · rw [p.separator_append, hkey]
        simp
      · have hnone : IsSpaces [] := List.forall_mem_nil _
        have hpair := readAttributes_pair ⟨p, spaces, hspaces, hne⟩
          (readAttributes_tagEnd hnone false start more)
        rw [SpacedPair.text, List.append_assoc, p.text_append, p.separator_append, hempty] at hpair
        rw [← hpair]
        simp [tagEnd]
  | case5 cs =>
    cases h
    rename_i hspace a afterPair hread _ _ _ ih hrec
    rcases ih hrec with hfault | hfault | ⟨used, value, quote, attributes, hfault, hvalue, hreads⟩
    · exact .inl hfault
    · exact .inr (.inl hfault)
    -- an attribute that was read stands in front of the others
    · obtain ⟨p, hskip, rfl⟩ := readAttribute_eq_ok_iff.1 hread
      obtain ⟨c, tail, htail, -⟩ := p.exists_text_eq_cons
      rw [htail, List.cons_append] at hskip
      obtain ⟨spaces, hspaces, hne, rfl⟩ := exists_spaces_of_skipSpaces hspace hskip
      let pair : SpacedPair := ⟨p, spaces, hspaces, hne⟩
      refine .inr (.inr ⟨pair.text ++ used, value, quote, p.content :: attributes, hfault,
        ⟨?_, hvalue.isQuote, hvalue.free⟩, fun start more => ?_⟩)
      · rw [hvalue.split, SpacedPair.text, htail]
        simp [pair]
      · rw [List.append_assoc]
        exact readAttributes_pair pair (hreads start more)
  | case6 => cases h
  | case7 =>
    cases h
    exact .inl rfl

/-- A start tag is at fault where it begins; or the value of an attribute does not end, and if it
    ended at once, and the tag behind it, the tag would be whole. -/
theorem readStartTag_fault (h : readStartTag start cs = .error fault) :
    fault = .malformedTag start ∨ fault = .unterminated .startTag start ∨
      ∃ used value quote name attributes, fault = .unterminated .attributeValue value ∧
        Unclosed cs used value quote ∧
        ∀ start more, readStartTag start (used ++ quote :: quote :: '>' :: more)
          = .ok (.startTag name attributes false, more) := by
  simp only [readStartTag] at h
  split at h
  · cases h
    exact .inl rfl
  rename_i name afterName hname
  split at h
  · rename_i hattributes
    cases h
    rcases readAttributes_fault hattributes with
      hfault | hfault | ⟨used, value, quote, attributes, hfault, hvalue, hreads⟩
    · exact .inl hfault
    · exact .inr (.inl hfault)
    · refine .inr (.inr ⟨name ++ used, value, quote, name, attributes, hfault,
        ⟨?_, hvalue.isQuote, hvalue.free⟩, fun start more => ?_⟩)
      · rw [(readName?_eq_append hname).1, hvalue.split, List.append_assoc]
      · have hmore : (used ++ quote :: quote :: '>' :: more).head? = afterName.head? := by
          cases used <;> simp [hvalue.split]
        rw [List.append_assoc, readStartTag, readName?_replace hname hmore]
        simp only [hreads]
  · cases h

/-! ### Tokens -/

/-- What can be wrong with the token that `<` and `tag` begin: it is at fault where it begins; or it
    is a start tag and the value of an attribute does not end, and if that ended at once, and the
    tag behind it, the tag would be whole. -/
inductive FaultOf (tag : List Char) : Fault → Prop
  | malformedTag : FaultOf tag (.malformedTag ('<' :: tag))
  | unterminated {construct : Construct} (hconstruct : construct ≠ .attributeValue) :
      FaultOf tag (.unterminated construct ('<' :: tag))
  | attributeValue {used value name : List Char} {quote : Char}
      {attributes : List (List Char × List Char)} (hvalue : Unclosed tag used value quote)
      (hreads : ∀ more, readToken '<' (used ++ quote :: quote :: '>' :: more)
        = .ok (.startTag name attributes false, more)) :
      FaultOf tag (.unterminated .attributeValue value)

/-- A section that does not end is at fault where it begins. -/
theorem delimited_fault {construct : Construct} {mark : List Char}
    (h : delimited construct start mark cs = .error fault) :
    fault = .unterminated construct start := by
  rw [delimited] at h
  split at h <;> cases h
  rfl

/-- An end tag is at fault where it begins. -/
theorem readEndTag_fault (h : readEndTag start cs = .error fault) :
    fault = .malformedTag start ∨ fault = .unterminated .endTag start := by
  simp only [readEndTag] at h
  split at h
  · cases h
    exact .inl rfl
  split at h
  · cases h
    exact .inr rfl
  split at h <;> cases h
  exact .inl rfl

/-- **Markup is at fault where it begins**, or at the value of an attribute. -/
theorem readMarkup_fault (h : readMarkup ('<' :: cs) cs = .error fault) : FaultOf cs fault := by
  have hsection : ∀ {construct : Construct} {start mark more : List Char}
      {f : List Char → Token},
      (delimited construct start mark more).map (fun parts => (f parts.1, parts.2))
        = .error fault → fault = .unterminated construct start := by
    intro construct start mark more f h
    cases hread : delimited construct start mark more with
    | ok parts => rw [hread] at h; cases h
    | error fault' =>
      rw [hread] at h
      cases h
      exact delimited_fault hread
  unfold readMarkup at h
  split at h
  · exact hsection h ▸ .unterminated (by decide)
  · exact hsection h ▸ .unterminated (by decide)
  · exact hsection h ▸ .unterminated (by decide)
  · split at h <;> cases h
    exact .unterminated (by decide)
  · rcases readEndTag_fault h with rfl | rfl
    · exact .malformedTag
    · exact .unterminated (by decide)
  · rcases readStartTag_fault h with
      rfl | rfl | ⟨used, value, quote, name, attributes, rfl, hvalue, hreads⟩
    · exact .malformedTag
    · exact .unterminated (by decide)
    · obtain ⟨c, used, rfl, hc⟩ := hvalue.exists_cons fun c tail heq =>
        isNameStart_of_readStartTag (heq ▸ hreads [] [])
      have htoken : ∀ more, readToken '<' (c :: used ++ quote :: quote :: '>' :: more)
          = .ok (.startTag name attributes false, more) := by
        intro more
        rw [List.cons_append, readToken, if_pos rfl, readMarkup_of_isNameStart hc]
        exact hreads _ more
      exact .attributeValue hvalue htoken

/-- **A token at fault is markup**, and at fault where it begins or at the value of an
    attribute. -/
theorem readToken_fault {c : Char} (h : readToken c cs = .error fault) :
    c = '<' ∧ FaultOf cs fault := by
  rw [readToken] at h
  split at h
  · rename_i hc
    subst hc
    exact ⟨rfl, readMarkup_fault h⟩
  · cases h

/-! ### Documents -/

/-- No token is the end of a document. -/
theorem Token.endDocument_notMem_events (token : Token) : .endDocument ∉ token.events := by
  cases token with
  | instruction contents =>
    rw [events]
    split <;> simp
  | startTag name attributes selfClosing =>
    cases selfClosing <;> simp [events]
  | _ => simp [events]

/-- **The fault of a document is that of one token.**  What stands before the token is whole, and
    its events are those that were met. -/
theorem exists_fault_of_scanText (h : (scanText cs).2 = some fault) :
    ∃ before tag, cs = before ++ '<' :: tag ∧ FaultOf tag fault ∧
      scanText before = ((scanText cs).1 ++ [.endDocument], none) ∧
      .endDocument ∉ (scanText cs).1 := by
  induction cs using scanText.induct with
  | case1 =>
    rw [scanText_nil] at h
    cases h
  | case2 c cs fault' hread =>
    rw [scanText_cons, hread] at h
    cases h
    obtain ⟨rfl, hfault⟩ := readToken_fault hread
    refine ⟨[], cs, rfl, hfault, ?_, ?_⟩
    · rw [scanText_cons, hread, scanText_nil]
      rfl
    · rw [scanText_cons, hread]
      exact List.not_mem_nil
  | case3 c cs token rest hread _ _ _ ih =>
    rw [scanText_cons, hread] at h
    obtain ⟨before, tag, rfl, hfault, hbefore, hend⟩ := ih h
    obtain ⟨used, rfl, hends, hreads⟩ := readToken_replace hread
    have hevents := scanText_token hread
    -- character data that ended at the token that follows still ends there
    have hmore : c ≠ '<' → EndsText before := by
      intro hc d hd
      refine hends hc d ?_
      cases before with
      | nil => cases hd
      | cons d' before => exact hd
    refine ⟨c :: (used ++ before), tag, by simp, hfault, ?_, ?_⟩
    · rw [scanText_token (hreads before hmore), hbefore, hevents, List.append_assoc]
    · rw [hevents, List.mem_append, not_or]
      exact ⟨token.endDocument_notMem_events, hend⟩

/-! ### Places in bytes -/

/-- How many bytes the byte-order mark takes in front of a document, if there is one. -/
def markLength (bytes : List UInt8) : Nat :=
  if byteOrderMark.isPrefixOf bytes then byteOrderMark.length else 0

/-- Whether markup begins at a place, and all that stands before it is delivered: it can be scanned
    to its end, and has the events that are met in the whole. -/
def DeliveredBefore (bytes : List UInt8) (place : Nat) : Prop :=
  bytes[place]? = some 0x3C ∧
    scan (bytes.take place) = ⟨(scan bytes).events ++ [.endDocument], none⟩

/-- Whether a quote behind `tag` opens the value of an attribute: if the value ended at once, and
    the tag behind it, there would be one whole start tag. -/
def OpensValue (tag : List UInt8) (quote : UInt8) : Prop :=
  ∃ cs name attributes, Utf8.decode (tag ++ [quote, quote, 0x3E]) = .ok ('<' :: cs) ∧
    readToken '<' cs = .ok (.startTag name attributes false, [])

/-- Where an error of a scan is, with offsets that count from behind the first `skipped` bytes: at
    the start of a tag or construct, with all before it delivered; or right behind a quote that is
    not met again and opens a value in a tag, with all before that tag delivered. -/
inductive ErrorAt (bytes : List UInt8) (skipped : Nat) : ScanError → Prop
  | malformedTag {s : Nat} (h : DeliveredBefore bytes (skipped + s)) :
      ErrorAt bytes skipped (.malformedTag s)
  | unterminated {construct : Construct} {s : Nat} (hconstruct : construct ≠ .attributeValue)
      (h : DeliveredBefore bytes (skipped + s)) : ErrorAt bytes skipped (.unterminated construct s)
  | attributeValue {s v : Nat} {quote : UInt8} (h : DeliveredBefore bytes (skipped + s))
      (hlt : s < v) (hquote : quote = 0x22 ∨ quote = 0x27)
      (hbefore : bytes[skipped + v - 1]? = some quote) (hfree : quote ∉ bytes.drop (skipped + v))
      (hopens : OpensValue ((bytes.take (skipped + v - 1)).drop (skipped + s)) quote) :
      ErrorAt bytes skipped (.unterminated .attributeValue v)

/-- A document is its mark and what stands behind it; so is every front part that has the mark. -/
theorem exists_mark (bytes : List UInt8) :
    ∃ mark, bytes = mark ++ withoutMark bytes ∧ mark.length = markLength bytes ∧
      ∀ part, part <+: withoutMark bytes → withoutMark (mark ++ part) = part := by
  by_cases hmark : byteOrderMark <+: bytes
  · obtain ⟨body, rfl⟩ := hmark
    exact ⟨byteOrderMark, rfl, rfl, fun part _ => rfl⟩
  · have hnone : ∀ part, part <+: bytes → withoutMark part = part := by
      intro part hpart
      rw [withoutMark, if_neg]
      rw [List.isPrefixOf_iff_prefix]
      exact fun h => hmark (h.trans hpart)
    refine ⟨[], (hnone bytes List.prefix_rfl).symm, ?_, fun part hpart => ?_⟩
    · rw [markLength, if_neg (by rwa [List.isPrefixOf_iff_prefix])]
      rfl
    · rw [hnone bytes List.prefix_rfl] at hpart
      exact hnone part hpart

/-- What stands behind the mark of a text is one. -/
theorem decode_withoutMark {bytes : List UInt8} {cs : List Char} (h : Utf8.decode bytes = .ok cs) :
    ∃ body, Utf8.decode (withoutMark bytes) = .ok body := by
  by_cases hmark : byteOrderMark <+: bytes
  · obtain ⟨rest, rfl⟩ := hmark
    -- the mark is the bytes of one character, so it is the first of the text
    have hrest := Utf8.encode_decode h
    cases cs with
    | nil => cases hrest
    | cons c body =>
      obtain ⟨b, behind, hfirst, hhead⟩ := Utf8.head_encodeChar c (Utf8.encode body)
      have hwhole : b :: behind = byteOrderMark ++ rest := hfirst.symm.trans hrest
      cases hwhole
      have hmark : Utf8.head 0xEF (0xBB :: 0xBF :: rest) = .char '\uFEFF' rest := rfl
      cases hmark.symm.trans hhead
      exact ⟨body, Utf8.decode_encode body⟩
  · refine ⟨cs, ?_⟩
    rw [withoutMark, if_neg (by rwa [List.isPrefixOf_iff_prefix])]
    exact h

/-- A document whose text is known has the events of that text. -/
theorem scan_of_decode {bytes : List UInt8} (h : Utf8.decode (withoutMark bytes) = .ok cs) :
    scan bytes = ⟨(scanText cs).1,
      (scanText cs).2.map (Fault.toError (withoutMark bytes).length)⟩ := by
  simp only [scan, h]

/-- A document that begins with markup has the events of its text. -/
theorem scan_encode_markup (cs : List Char) :
    scan (Utf8.encode ('<' :: cs)) = ⟨(scanText ('<' :: cs)).1,
      (scanText ('<' :: cs)).2.map (Fault.toError (Utf8.encode ('<' :: cs)).length)⟩ :=
  scan_of_decode (Utf8.decode_encode ('<' :: cs))

/-- What stands before the token at fault is delivered. -/
theorem deliveredBefore {bytes mark : List UInt8} {before tag : List Char}
    (hbytes : bytes = mark ++ (Utf8.encode before ++ 0x3C :: Utf8.encode tag))
    (hmark : withoutMark (mark ++ Utf8.encode before) = Utf8.encode before)
    (hscan : scanText before = ((scan bytes).events ++ [.endDocument], none)) :
    DeliveredBefore bytes (mark.length + (Utf8.encode before).length) := by
  have hfront : bytes = (mark ++ Utf8.encode before) ++ 0x3C :: Utf8.encode tag := by
    rw [hbytes, List.append_assoc]
  rw [← List.length_append]
  constructor
  · rw [hfront, List.getElem?_append_right (Nat.le_refl _), Nat.sub_self]
    rfl
  · have htake : bytes.take (mark ++ Utf8.encode before).length = mark ++ Utf8.encode before := by
      rw [hfront, List.take_left]
    have hdecode : Utf8.decode (withoutMark (mark ++ Utf8.encode before)) = .ok before := by
      rw [hmark, Utf8.decode_encode]
    rw [htake, scan_of_decode hdecode, hscan]
    rfl

/-- A quote is one byte, and where it does not stand in a text, its byte does not in the bytes. -/
theorem Unclosed.exists_byte {used value : List Char} {quote : Char}
    (h : Unclosed cs used value quote) :
    ∃ q, Utf8.encodeChar quote = [q] ∧ (q = 0x22 ∨ q = 0x27) ∧ q ∉ Utf8.encode value := by
  have hfree : ∀ {q : UInt8}, q.toNat < 0x80 → q.toNat = quote.toNat → q ∉ Utf8.encode value := by
    intro q hascii hq hmem
    obtain ⟨c, hc, hq'⟩ := List.mem_flatMap.1 hmem
    have hsame : c = quote := Char.toNat_inj.1 ((Utf8.toNat_eq_of_mem hq' hascii).trans hq)
    exact h.free (hsame ▸ hc)
  rcases h.isQuote with rfl | rfl
  · exact ⟨0x22, rfl, .inl rfl, hfree (by decide) (by decide)⟩
  · exact ⟨0x27, rfl, .inr rfl, hfree (by decide) (by decide)⟩

/-- A value that does not end is at fault right behind its quote. -/
theorem errorAt_attributeValue {bytes mark : List UInt8} {before tag used value name : List Char}
    {quote : Char} {attributes : List (List Char × List Char)}
    (hbytes : bytes = mark ++ (Utf8.encode before ++ 0x3C :: Utf8.encode tag))
    (hdelivered : DeliveredBefore bytes (mark.length + (Utf8.encode before).length))
    (hvalue : Unclosed tag used value quote)
    (hreads : readToken '<' (used ++ [quote, quote, '>'])
      = .ok (.startTag name attributes false, [])) :
    ErrorAt bytes mark.length (.unterminated .attributeValue
      (bytes.length - mark.length - (Utf8.encode value).length)) := by
  obtain ⟨q, hq, hquote, hfree⟩ := hvalue.exists_byte
  have hused : Utf8.encode ('<' :: used) = 0x3C :: Utf8.encode used := rfl
  have hcons : ∀ cs, Utf8.encode (quote :: cs) = q :: Utf8.encode cs := by
    intro cs
    rw [Utf8.encode, List.flatMap_cons, hq]
    rfl
  -- the tag up to the quote stands between what is before it and the quote
  have hsplit : bytes = (mark ++ Utf8.encode before ++ Utf8.encode ('<' :: used))
      ++ q :: Utf8.encode value := by
    rw [hbytes, hvalue.split, Utf8.encode_append, hcons, hused]
    simp only [List.append_assoc, List.cons_append]
  have hplace : mark.length + (bytes.length - mark.length - (Utf8.encode value).length)
      = (mark ++ Utf8.encode before ++ Utf8.encode ('<' :: used)).length + 1 := by
    rw [hsplit]
    simp only [List.length_append, List.length_cons]
    omega
  have hplace' : mark.length + (bytes.length - mark.length - (Utf8.encode value).length) - 1
      = (mark ++ Utf8.encode before ++ Utf8.encode ('<' :: used)).length := by
    rw [hplace, Nat.add_sub_cancel]
  have hopens : OpensValue (Utf8.encode ('<' :: used)) q := by
    refine ⟨_, name, attributes, ?_, hreads⟩
    have hend : [q, q, 0x3E] = Utf8.encode [quote, quote, '>'] := by
      rw [hcons, hcons]
      rfl
    rw [hend, ← Utf8.encode_append, Utf8.decode_encode]
    rfl
  refine .attributeValue hdelivered ?_ hquote ?_ ?_ ?_
  · have hlength := congrArg List.length hsplit
    rw [hused] at hlength
    simp only [List.length_append, List.length_cons] at hlength
    omega
  · rw [hplace', hsplit, List.getElem?_append_right (Nat.le_refl _), Nat.sub_self]
    rfl
  · have hdrop : bytes.drop (mark.length
        + (bytes.length - mark.length - (Utf8.encode value).length)) = Utf8.encode value := by
      rw [hplace, hsplit, ← List.drop_drop, List.drop_left]
      rfl
    rw [hdrop]
    exact hfree
  · rw [hplace', hsplit, List.take_left, ← List.length_append, List.drop_left]
    exact hopens

/-- **Every error of a scan is at the place that it tells.**  If the bytes are a text, the error is
    at the start of a tag or construct, or behind the quote of a value that does not end; all that
    stands before the tag or construct is delivered, and the end of the document is not. -/
theorem scan_errorAt {bytes : List UInt8} {cs : List Char} (hvalid : Utf8.decode bytes = .ok cs)
    {error : ScanError} (h : (scan bytes).error = some error) :
    ErrorAt bytes (markLength bytes) error ∧ .endDocument ∉ (scan bytes).events := by
  obtain ⟨body, hbody⟩ := decode_withoutMark hvalid
  obtain ⟨mark, hbytes, hlength, hmark⟩ := exists_mark bytes
  have hscan := scan_of_decode hbody
  rw [hscan] at h
  obtain ⟨fault, hfault, rfl⟩ := Option.map_eq_some_iff.1 h
  obtain ⟨before, tag, rfl, hof, hbefore, hend⟩ := exists_fault_of_scanText hfault
  have hencode : withoutMark bytes = Utf8.encode before ++ 0x3C :: Utf8.encode tag := by
    rw [← Utf8.encode_decode hbody, Utf8.encode_append]
    rfl
  have hevents : (scan bytes).events = (scanText (before ++ '<' :: tag)).1 := by rw [hscan]
  rw [← hevents] at hbefore hend
  refine ⟨?_, hend⟩
  have hpart : withoutMark (mark ++ Utf8.encode before) = Utf8.encode before :=
    hmark _ (hencode ▸ List.prefix_append _ _)
  have hsize : bytes.length - mark.length = (withoutMark bytes).length := by
    have := congrArg List.length hbytes
    rw [List.length_append] at this
    omega
  rw [hencode] at hbytes
  have hdelivered := deliveredBefore hbytes hpart hbefore
  -- what is left at the token tells how many bytes stand before it
  have hoffset : (withoutMark bytes).length - (Utf8.encode ('<' :: tag)).length
      = (Utf8.encode before).length := by
    have hcons : (Utf8.encode ('<' :: tag)).length = (0x3C :: Utf8.encode tag).length := rfl
    rw [hencode, List.length_append, hcons, Nat.add_sub_cancel]
  rw [← hlength]
  cases hof with
  | malformedTag =>
    rw [Fault.toError, hoffset]
    exact .malformedTag hdelivered
  | unterminated hconstruct =>
    rw [Fault.toError, hoffset]
    exact .unterminated hconstruct hdelivered
  | attributeValue hvalue hreads =>
    rw [Fault.toError, ← hsize]
    exact errorAt_attributeValue hbytes hdelivered hvalue (hreads [])

/-- A value that does not end behind a text and an attribute that holds the other quote and a `<`;
    the byte-order mark does not count. -/
theorem scan_errorAt_value :
    let bytes := byteOrderMark ++ Utf8.encode "é<a k='\"<' l=\"'>".toList
    Utf8.decode bytes = .ok "\uFEFFé<a k='\"<' l=\"'>".toList ∧
      (scan bytes).error = some (.unterminated .attributeValue 15) ∧
      ErrorAt bytes 3 (.unterminated .attributeValue 15) ∧
      .endDocument ∉ (scan bytes).events ∧ (scan bytes).events = [.characters "é"] := by
  intro bytes
  have hvalid : Utf8.decode bytes = .ok "\uFEFFé<a k='\"<' l=\"'>".toList := by
    have hmark : Utf8.encode ['\uFEFF'] = byteOrderMark := by decide
    exact Utf8.decode_append (hmark ▸ Utf8.decode_encode ['\uFEFF']) (Utf8.decode_encode _)
  have hscan : scan bytes
      = ⟨[.characters "é"], some (.unterminated .attributeValue 15)⟩ := by decide +kernel
  have herror : (scan bytes).error = some (.unterminated .attributeValue 15) := by rw [hscan]
  obtain ⟨hplace, hend⟩ := scan_errorAt hvalid herror
  exact ⟨hvalid, herror, hplace, hend, by rw [hscan]⟩

end XmlQuery.Markup
