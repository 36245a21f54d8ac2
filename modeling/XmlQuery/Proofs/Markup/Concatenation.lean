import XmlQuery.Proofs.Markup.Faults

namespace XmlQuery.Markup

/-!
# Documents one after the other

Markup, or nothing at all, may be put behind a document that is scanned to its end.  The events of
both come one after the other, and what is wrong with the second is as wrong there, only further on.

* `ScanError.shift` — the same error, further on.
* `scanText_fault` — a place at fault lies within what was read.
* `scanText_append`, `withoutMark_append` — each stage of a scan goes on behind the first document
  as it would have begun there.
* `scan_append` — hence the whole scan does.
* `scan_behind_mark` — what a byte-order mark in front of a document does to its errors.
-/

/-! ### Places at fault -/

/-- The characters from the place at fault on. -/
def Fault.rest : Fault → List Char
  | unterminated _ rest => rest
  | malformedTag rest => rest

/-- A token is at fault at a place within it. -/
theorem FaultOf.rest_suffix {tag : List Char} {fault : Fault} (h : FaultOf tag fault) :
    fault.rest <:+ '<' :: tag := by
  cases h with
  | malformedTag => exact List.suffix_rfl
  | unterminated _ => exact List.suffix_rfl
  | @attributeValue used value _ quote _ hvalue _ =>
    exact ⟨'<' :: (used ++ [quote]), by simp [Fault.rest, hvalue.split]⟩

variable {cs : List Char} {fault : Fault}

/-- **What is wrong with a document is at a place within it.** -/
theorem scanText_fault (h : (scanText cs).2 = some fault) : fault.rest <:+ cs := by
  obtain ⟨before, tag, rfl, hfault, -⟩ := exists_fault_of_scanText h
  exact hfault.rest_suffix.trans (List.suffix_append before _)

/-! ### Errors further on -/

/-- The same error, `count` bytes further on. -/
def ScanError.shift (count : Nat) : ScanError → ScanError
  | invalidUtf8 offset => invalidUtf8 (count + offset)
  | unterminated construct offset => unterminated construct (count + offset)
  | malformedTag offset => malformedTag (count + offset)

/-- In front of a place within a text there are as many bytes more as are put in front of the
    text. -/
theorem Fault.toError_shift (h : fault.rest <:+ cs) (count : Nat) :
    fault.toError (count + (Utf8.encode cs).length)
      = (fault.toError (Utf8.encode cs).length).shift count := by
  obtain ⟨before, rfl⟩ := h
  have hlength : (Utf8.encode (before ++ fault.rest)).length
      = (Utf8.encode before).length + (Utf8.encode fault.rest).length := by
    rw [Utf8.encode_append, List.length_append]
  cases fault with
  | unterminated construct rest =>
    rw [Fault.rest] at hlength
    simp only [toError, ScanError.shift, Fault.rest, ScanError.unterminated.injEq, true_and]
    omega
  | malformedTag rest =>
    rw [Fault.rest] at hlength
    simp only [toError, ScanError.shift, Fault.rest, ScanError.malformedTag.injEq]
    omega

/-! ### The stages of a scan -/

/-- **The events of two texts come one after the other**, if the first is scanned to its end and
    the second does not go on with its character data. -/
theorem scanText_append {as bs : List Char} (h : (scanText as).2 = none) (hbs : EndsText bs) :
    ∃ events, (scanText as).1 = events ++ [.endDocument] ∧
      scanText (as ++ bs) = (events ++ (scanText bs).1, (scanText bs).2) := by
  induction as using scanText.induct with
  | case1 => exact ⟨[], by rw [scanText_nil, List.nil_append], rfl⟩
  | case2 c cs fault hread =>
    rw [scanText_cons, hread] at h
    cases h
  | case3 c cs token rest hread _ _ _ ih =>
    rw [scanText_cons, hread] at h
    obtain ⟨events, hevents, hscan⟩ := ih h
    obtain ⟨used, hused, hends, hreads⟩ := readToken_replace hread
    -- what follows the token in the first text, or else the second text, ends it
    have hmore : c ≠ '<' → EndsText (rest ++ bs) := by
      intro hc
      cases rest with
      | nil => exact hbs
      | cons d rest => exact hends hc
    refine ⟨token.events ++ events, ?_, ?_⟩
    · rw [scanText_cons, hread, List.append_assoc, ← hevents]
    · rw [hused, List.cons_append, List.append_assoc, scanText_token (hreads _ hmore), hscan,
        List.append_assoc]

/-- Bytes that are `<`, if anything, in front are read as a text that is so. -/
theorem endsText_of_decode {b : List UInt8} {bs : List Char} (hb : Utf8.decode b = .ok bs)
    (hjoint : ∀ byte ∈ b.head?, byte = 0x3C) : EndsText bs := by
  intro c hc
  obtain ⟨cs, rfl⟩ := List.head?_eq_some_iff.1 hc
  rw [← Utf8.encode_decode hb, Utf8.encode, List.flatMap_cons] at hjoint
  obtain ⟨byte, rest, hfirst, hhead⟩ := Utf8.head_encodeChar c (cs.flatMap Utf8.encodeChar)
  rw [hfirst] at hjoint
  rw [hjoint byte rfl] at hhead
  cases hhead
  rfl

/-- A byte-order mark in front of two documents stands in front of the first. -/
theorem withoutMark_append (a : List UInt8) {b : List UInt8}
    (hjoint : ∀ byte ∈ b.head?, byte = 0x3C) : withoutMark (a ++ b) = withoutMark a ++ b := by
  have hwithin : byteOrderMark <+: a ++ b → byteOrderMark <+: a := by
    intro hfront
    cases b with
    | nil => rwa [List.append_nil] at hfront
    | cons byte b =>
      -- the mark ends before the first byte of markup
      rw [hjoint byte rfl, List.append_cons] at hfront
      have hbefore := prefix_of_mem hfront List.mem_concat_self (by decide)
      rcases List.prefix_concat_iff.1 hbefore with heq | hle
      · exact absurd (heq ▸ List.mem_concat_self) (by decide : (0x3C : UInt8) ∉ byteOrderMark)
      · exact hle
  by_cases hmark : byteOrderMark <+: a
  · obtain ⟨rest, rfl⟩ := hmark
    rfl
  · have hneither : ¬ byteOrderMark <+: a ++ b := fun hfront => hmark (hwithin hfront)
    rw [← List.isPrefixOf_iff_prefix] at hmark hneither
    rw [withoutMark, withoutMark, if_neg hmark, if_neg hneither]

/-! ### The whole scan -/

/-- **Documents can be scanned one after the other.**  If the first is scanned to its end, and the
    second begins with markup or holds nothing, the events of the second follow those of the first.
    An error of the second is met further on, by the bytes of the first without its byte-order
    mark. -/
theorem scan_append {a b : List UInt8} {bs : List Char} (ha : (scan a).error = none)
    (hb : Utf8.decode b = .ok bs) (hjoint : ∀ byte ∈ b.head?, byte = 0x3C) :
    ∃ events, (scan a).events = events ++ [.endDocument] ∧
      scan (a ++ b) = ⟨events ++ (scan b).events,
        (scan b).error.map (ScanError.shift (withoutMark a).length)⟩ := by
  cases hdecode : Utf8.decode (withoutMark a) with
  | error offset =>
    simp only [scan, hdecode] at ha
    cases ha
  | ok as =>
    simp only [scan, hdecode] at ha ⊢
    obtain ⟨events, hevents, happend⟩ :=
      scanText_append (Option.map_eq_none_iff.1 ha) (endsText_of_decode hb hjoint)
    have hmark : withoutMark b = b := withoutMark_append [] hjoint
    refine ⟨events, hevents, ?_⟩
    have herror : (scanText bs).2.map (Fault.toError (withoutMark a ++ b).length)
        = ((scanText bs).2.map (Fault.toError b.length)).map
          (ScanError.shift (withoutMark a).length) := by
      rw [Option.map_map, List.length_append, ← Utf8.encode_decode hb]
      exact Option.map_congr fun fault hfault => Fault.toError_shift (scanText_fault hfault) _
    rw [withoutMark_append a hjoint, Utf8.decode_append hdecode hb, hmark, hb]
    simp only [happend, herror]

/-- A comment that does not end is at fault behind both tags and the text between them; the mark
    does not count. -/
theorem scan_append_comment :
    let a := byteOrderMark ++ Utf8.encode "<a>t".toList
    let b := Utf8.encode "<b/><!-- ".toList
    (scan a).error = none ∧ Utf8.decode b = .ok "<b/><!-- ".toList ∧
      (∀ byte ∈ b.head?, byte = 0x3C) ∧
      scan (a ++ b) = ⟨[.startElement "a" [], .characters "t", .startElement "b" [],
        .endElement "b"], some (.unterminated .comment 8)⟩ := by
  intro a b
  have ha : scan a = ⟨[.startElement "a" [], .characters "t", .endDocument], none⟩ := by
    decide +kernel
  have hb : scan b = ⟨[.startElement "b" [], .endElement "b"],
      some (.unterminated .comment 4)⟩ := by
    decide +kernel
  have herror : (scan a).error = none := by rw [ha]
  have hdecode : Utf8.decode b = .ok "<b/><!-- ".toList := Utf8.decode_encode _
  have hjoint : ∀ byte ∈ b.head?, byte = 0x3C := fun _ h => (Option.some.inj h).symm
  obtain ⟨events, hevents, hscan⟩ := scan_append herror hdecode hjoint
  have hfirst : events = [.startElement "a" [], .characters "t"] := by
    rw [ha] at hevents
    have hlast : [.startElement "a" [], .characters "t"] ++ [.endDocument]
        = events ++ [.endDocument] := hevents
    exact (List.append_cancel_right hlast).symm
  refine ⟨herror, hdecode, hjoint, ?_⟩
  rw [hscan, hfirst, hb]
  rfl

/-! ### Documents behind a byte-order mark -/

/-- The offset that an error tells. -/
def ScanError.offset : ScanError → Nat
  | invalidUtf8 offset => offset
  | unterminated _ offset => offset
  | malformedTag offset => offset

/-- The same error further on has an offset that is larger by as much. -/
theorem ScanError.offset_shift (error : ScanError) (count : Nat) :
    (error.shift count).offset = count + error.offset := by
  cases error <;> rfl

/-- **A byte-order mark changes neither events nor errors**, offsets included: behind a mark they
    still count from where the document begins.  So an error never tells the byte at fault among all
    the bytes, which is the one as many bytes further on as the mark takes. -/
theorem scan_behind_mark {bytes : List UInt8} (h : ¬ byteOrderMark <+: bytes) :
    scan (byteOrderMark ++ bytes) = scan bytes ∧
      ∀ error, (scan bytes).error = some error →
        (scan (byteOrderMark ++ bytes)).error ≠ some (error.shift byteOrderMark.length) ∧
          (byteOrderMark ++ bytes).drop (error.shift byteOrderMark.length).offset
            = bytes.drop error.offset := by
  have hmark : withoutMark (byteOrderMark ++ bytes) = withoutMark bytes := by
    rw [← List.isPrefixOf_iff_prefix] at h
    rw [withoutMark, withoutMark, if_neg h, if_pos (by simp), List.drop_left]
  have hscan : scan (byteOrderMark ++ bytes) = scan bytes := by
    rw [scan, scan, hmark]
  refine ⟨hscan, fun error herror => ⟨?_, ?_⟩⟩
  · rw [hscan, herror, ne_eq, Option.some.injEq]
    intro heq
    have hoffset := congrArg ScanError.offset heq
    rw [error.offset_shift] at hoffset
    exact absurd hoffset (by simp [byteOrderMark])
  · rw [error.offset_shift, ← List.drop_drop, List.drop_left]

/-- The value of an attribute does not end; among all bytes it begins three bytes further on than is
    told. -/
theorem scan_behind_mark_value :
    let bytes := Utf8.encode "<r a=\"1".toList
    ¬ byteOrderMark <+: bytes ∧ (scan bytes).error = some (.unterminated .attributeValue 6) ∧
      scan (byteOrderMark ++ bytes) = ⟨[], some (.unterminated .attributeValue 6)⟩ ∧
      (byteOrderMark ++ bytes).drop 9 = Utf8.encode ['1'] := by
  intro bytes
  have hbytes : ¬ byteOrderMark <+: bytes := by decide
  have hscan : scan bytes = ⟨[], some (.unterminated .attributeValue 6)⟩ := by decide +kernel
  have herror : (scan bytes).error = some (.unterminated .attributeValue 6) := by rw [hscan]
  obtain ⟨hbehind, hplace⟩ := scan_behind_mark hbytes
  exact ⟨hbytes, herror, hbehind.trans hscan, (hplace _ herror).2⟩

/-- A byte that is no UTF-8 is reported at the same offset with a mark in front as without. -/
theorem exists_scan_behind_mark_ne_shift :
    ∃ bytes error, ¬ byteOrderMark <+: bytes ∧ (scan bytes).error = some error ∧
      (scan (byteOrderMark ++ bytes)).error ≠ some (error.shift byteOrderMark.length) :=
  ⟨[0x3C, 0x72, 0x3E, 0xFF, 0x3C, 0x2F, 0x72, 0x3E], .invalidUtf8 3, by decide, by decide +kernel,
    by decide +kernel⟩

end XmlQuery.Markup
