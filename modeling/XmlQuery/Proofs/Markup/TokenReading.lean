import XmlQuery.Markup.Scan
import XmlQuery.Proofs.Markup.Boundary
import XmlQuery.Proofs.Markup.Places

namespace XmlQuery.Markup

/-!
# Tokens read by bytes

Read by bytes, every part of markup is what it is read as by characters.  A reader that stands
between two characters comes to stand between two characters again, and what is at fault is told by
its offset.

* `Reading.Mirrors` — a step by bytes does what a step by characters does.
* `mirrors_readEndTag`, `mirrors_readAttribute`, `mirrors_readStartTag`, `mirrors_skipDoctype` — the
  parts of markup.
* `mirrors_readToken` — a token.
-/

namespace Reading

open Reader

variable {text cs start : List Char} {pieces : List Piece} {r : Reader text} {α β : Type}

/-- Whether an error is the fault of a step by characters, and the reader is intact that meets
    it. -/
def FailsAs (pieces : List Piece) (read : Except Fault α) (e : ScanError) (r : Reader text) : Prop :=
  ∃ fault, read = .error fault ∧ e = fault.toError (Utf8.encode text).length ∧ r.Intact pieces

/-- Whether a step by bytes comes to what a step by characters comes to: to the same result, with
    the same characters left, or to the same fault. -/
def Mirrors (pieces : List Piece) (x : Reading text α) (r : Reader text)
    (read : Except Fault (α × List Char)) : Prop :=
  Meets x r (fun a r' => ∃ rest, read = .ok (a, rest) ∧ r'.At pieces rest) (FailsAs pieces read)

theorem mirrors_pure {a : α} (h : r.At pieces cs) : Mirrors pieces (pure a) r (.ok (a, cs)) :=
  ⟨cs, rfl, h⟩

theorem mirrors_malformedTag (h : r.Intact pieces) :
    Mirrors pieces (throw (.malformedTag (offset text start)) : Reading text α) r
      (.error (.malformedTag start)) :=
  ⟨_, rfl, rfl, h⟩

theorem mirrors_unterminated {construct : Construct} (h : r.Intact pieces) :
    Mirrors pieces (throw (.unterminated construct (offset text start)) : Reading text α) r
      (.error (.unterminated construct start)) :=
  ⟨_, rfl, rfl, h⟩

section Steps

variable {f : α → Reading text β} {g : List Char → Reading text β} {k : Unit → Reading text β}
  {read : Except Fault (β × List Char)}

theorem mirrors_bind_look {tell : Cursor → α} (h : Mirrors pieces (f (tell r.cursor)) r read) :
    Mirrors pieces (look tell >>= f) r read :=
  meets_bind.2 h

theorem mirrors_bind_advance (front : List Char) (h : r.At pieces (front ++ cs))
    (hk : ∀ r', r'.At pieces cs → Mirrors pieces (k ()) r' read) :
    Mirrors pieces (advance (Utf8.encode front).length >>= k) r read :=
  meets_bind.2 (hk _ h.advance)

/-- An ASCII character is passed by one byte. -/
theorem mirrors_bind_pass {c : Char} (hc : c.toNat < 0x80) (h : r.At pieces (c :: cs))
    (hk : ∀ r', r'.At pieces cs → Mirrors pieces (k ()) r' read) :
    Mirrors pieces (advance 1 >>= k) r read :=
  meets_bind.2 (hk _ (h.pass hc))

theorem mirrors_bind_moveTo {rest : List Char} (h : r.At pieces cs) (hrest : rest <:+ text)
    (hk : ∀ r', r'.At pieces rest → Mirrors pieces (k ()) r' read) :
    Mirrors pieces (moveTo (offset text rest) >>= k) r read :=
  meets_bind.2 (hk _ (h.moveTo hrest))

theorem mirrors_bind_cut {middle back : List Char} (h : r.At pieces cs)
    (hback : middle ++ back <:+ text)
    (hg : ∀ r', r'.At pieces cs → Mirrors pieces (g middle) r' read) :
    Mirrors pieces (cut (offset text (middle ++ back)) (offset text back) >>= g) r read := by
  refine meets_bind.2 ((meets_cut h hback).mono ?_ fun _ _ h => h)
  rintro raw r' ⟨rfl, h'⟩
  exact hg r' h'

theorem mirrors_bind_skipSpaces (h : r.At pieces cs)
    (hk : ∀ r', r'.At pieces (skipSpaces cs) → Mirrors pieces (k ()) r' read) :
    Mirrors pieces (skipWhile isSpace >>= k) r read :=
  meets_bind.2 ((meets_skipSpaces h).mono (fun _ r' h' => hk r' h'.2) fun _ _ h => h)

theorem mirrors_bind_readName (h : r.At pieces cs)
    (hsome : ∀ name rest r', Markup.readName? cs = some (name, rest) → r'.At pieces rest →
      Mirrors pieces (g name) r' read)
    (hnone : Markup.readName? cs = none → read = .error (.malformedTag start)) :
    Mirrors pieces (readName (offset text start) >>= g) r read := by
  refine meets_bind.2 ((meets_readName _ h).mono ?_ ?_)
  · rintro name r' ⟨rest, hname, h⟩
    exact hsome name rest r' hname h
  · rintro e r' ⟨hname, rfl, h⟩
    exact ⟨_, hnone hname, rfl, h⟩

/-- After another step, what follows depends on whether it has failed. -/
theorem Mirrors.bind {x : Reading text α} {first : Except Fault (α × List Char)}
    (hx : Mirrors pieces x r first)
    (hok : ∀ a rest r', first = .ok (a, rest) → r'.At pieces rest → Mirrors pieces (f a) r' read)
    (herror : ∀ fault, first = .error fault → read = .error fault) :
    Mirrors pieces (x >>= f) r read := by
  refine meets_bind.2 (hx.mono ?_ ?_)
  · rintro a r' ⟨rest, hfirst, h⟩
    exact hok a rest r' hfirst h
  · rintro e r' ⟨fault, hfirst, he, h⟩
    exact ⟨fault, herror fault hfirst, he, h⟩

end Steps

/-! ### Sections between marks -/

theorem mirrors_delimited {construct : Construct} (opening : List Char) {c : Char}
    (hc : c.toNat < 0x80) (mark : List Char) (h : r.At pieces (opening ++ cs)) :
    Mirrors pieces
      (Reading.delimited construct (offset text (opening ++ cs)) (Utf8.encode opening).length
        (Utf8.encode (c :: mark))) r
      (Markup.delimited construct (opening ++ cs) (c :: mark) cs) := by
  rw [Reading.delimited, Markup.delimited]
  refine mirrors_bind_advance opening h fun r₁ h₁ => mirrors_bind_look ?_
  rw [h₁.find?_eq hc]
  cases hsplit : Text.splitAround? (c :: mark) cs with
  | none => exact mirrors_unterminated h₁.toIntact
  | some parts =>
    obtain ⟨contents, rest⟩ := parts
    have hcs := Text.splitAround?_eq_append hsplit
    rw [List.append_assoc] at hcs
    subst hcs
    show Mirrors pieces (cut _ (offset text (c :: mark ++ rest)) >>= _) r₁ _
    rw [← offset_append h.suffix]
    refine mirrors_bind_cut h₁ h₁.suffix fun r₂ h₂ => ?_
    have hrest := (List.suffix_append contents _).trans h₁.suffix
    rw [← offset_append hrest]
    exact mirrors_bind_moveTo h₂ ((List.suffix_append _ rest).trans hrest) fun r₃ h₃ =>
      mirrors_pure h₃

/-! ### Document type declarations -/

/-- A turn of the loop through a document type declaration, at a byte of a character: it does what
    the character does, which is nothing for a character that is no ASCII. -/
theorem meets_doctypeTurn {e : Enclosure} {c : Char} {byte : UInt8}
    (hbyte : byte ∈ Utf8.encodeChar c) (hpeek : r.cursor.peek? = some byte)
    {post : Turn (Nat × Option UInt8) Bool → Reader text → Prop}
    {fail : ScanError → Reader text → Prop}
    (hleave : e = .free ∧ c = '>' → post (.leave true) (r.moveTo (r.position + 1)))
    (hagain : ¬ (e = .free ∧ c = '>') →
      post (.again ((e.next c).depth, (e.next c).quote.map Char.toUInt8))
        (r.moveTo (r.position + 1))) :
    Meets (doctypeTurn (e.depth, e.quote.map Char.toUInt8)) r post fail := by
  have hmark : ∀ {d : Char}, d.toNat < 0x80 → (byte = d.toUInt8 ↔ c = d) := fun hd =>
    Utf8.eq_toUInt8_iff hd hbyte
  rw [doctypeTurn, meets_bind, meets_look, hpeek]
  refine meets_bind.2 ?_
  obtain ⟨depth, quote, hquote⟩ := e
  cases quote with
  | some q =>
    -- within a quote nothing but its own mark is looked for
    have hq : q.toNat < 0x80 := by
      rcases hquote q rfl with rfl | rfl <;> decide
    have hagain := hagain fun h => by cases h.1
    show post (.again (depth, if byte = q.toUInt8 then none else some q.toUInt8)) _
    by_cases hc : c = q
    · simp only [Enclosure.next, if_pos hc] at hagain
      rw [if_pos ((hmark hq).2 hc)]
      exact hagain
    · simp only [Enclosure.next, if_neg hc] at hagain
      rw [if_neg (mt (hmark hq).1 hc)]
      exact hagain
  | none =>
    have hfree : (⟨depth, none, hquote⟩ : Enclosure) = .free ↔ depth = 0 := by
      simp [Enclosure.free, Enclosure.brackets]
    simp only [hfree, Enclosure.next] at hleave hagain
    -- outside of quotes the byte may open one, open or close a bracket, or end the declaration
    show Meets (if byte = '"'.toUInt8 ∨ byte = '\x27'.toUInt8 then _ else _) _ post fail
    have hquotes : byte = '"'.toUInt8 ∨ byte = '\x27'.toUInt8 ↔ c = '"' ∨ c = '\x27' :=
      or_congr (hmark (by decide)) (hmark (by decide))
    split
    · rename_i h
      have hc := hquotes.1 h
      have hbyte : byte = c.toUInt8 := (hmark (by rcases hc with rfl | rfl <;> decide)).2 rfl
      rw [dif_pos hc] at hagain
      rw [hbyte]
      exact hagain fun h => by rcases hc with rfl | rfl <;> cases h.2
    rename_i h
    rw [dif_neg (mt hquotes.2 h)] at hagain
    split
    · rename_i h
      have hc := (hmark (by decide)).1 h
      rw [if_pos hc] at hagain
      exact hagain fun h => by cases hc.symm.trans h.2
    rename_i h
    rw [if_neg (mt (hmark (by decide)).2 h)] at hagain
    split
    · rename_i h
      have hc := (hmark (by decide)).1 h
      rw [if_pos hc] at hagain
      exact hagain fun h => by cases hc.symm.trans h.2
    rename_i h
    rw [if_neg (mt (hmark (by decide)).2 h)] at hagain
    split
    · rename_i h
      exact hleave ⟨h.2, (hmark (by decide)).1 h.1⟩
    · rename_i h
      exact hagain fun hend => h ⟨(hmark (by decide)).2 hend.2, hend.1⟩

/-- Whether some bytes are of characters that are no ASCII. -/
def AllHigh (bytes : List UInt8) : Prop :=
  ∀ byte ∈ bytes, ∃ c : Char, 0x80 ≤ c.toNat ∧ byte ∈ Utf8.encodeChar c

/-- A character has only one byte, or it is no ASCII. -/
theorem allHigh_of_encodeChar {c : Char} {byte : UInt8} {bytes : List UInt8}
    (h : Utf8.encodeChar c = byte :: bytes) : AllHigh bytes := by
  intro b hb
  refine ⟨c, Nat.le_of_not_lt fun hc => ?_, h ▸ List.mem_cons_of_mem _ hb⟩
  rw [Utf8.encodeChar_of_lt hc, List.cons.injEq] at h
  rw [← h.2] at hb
  cases hb

/-- No mark of a document type declaration but is ASCII. -/
theorem next_of_high {c : Char} (h : 0x80 ≤ c.toNat) (e : Enclosure) : e.next c = e ∧ c ≠ '>' := by
  have hne : ∀ {d : Char}, d.toNat < 0x80 → c ≠ d := by
    rintro d hd rfl
    omega
  refine ⟨Enclosure.next_of_notMem fun hmem => ?_, hne (by decide)⟩
  simp only [Enclosure.marks, List.mem_cons, List.not_mem_nil, or_false] at hmem
  rcases hmem with h | h | h | h <;> exact hne (by decide) h

/-- Whether the loop through a document type declaration, which began before `cs`, has come to `e`
    and to a reader before `cs'`, or before bytes of a character that stands in front of `cs'`. -/
structure WithinDoctype (pieces : List Piece) (cs : List Char) (e : Enclosure)
    (bytes : List UInt8) (cs' : List Char) (r : Reader text) : Prop extends Intact r pieces where
  allHigh : AllHigh bytes
  rest_eq : r.cursor.rest = bytes ++ Utf8.encode cs'
  suffix : cs' <:+ text
  skip_eq : Markup.skipDoctype e.depth e.quote cs' = Markup.skipDoctype 0 none cs

theorem rest_moveTo_of_cons {byte : UInt8} {bytes : List UInt8}
    (h : r.cursor.rest = byte :: bytes) :
    (r.moveTo (r.position + 1)).cursor.rest = bytes := by
  show (r.cursor.moveTo (r.cursor.position + 1)).rest = _
  rw [Cursor.rest_advance, h, List.drop_one, List.tail_cons]

/-- **The loop through a document type declaration ends where the declaration does.** -/
theorem meets_doctypeLoop (h : r.At pieces cs) {fail : ScanError → Reader text → Prop} :
    Meets (loop doctypeTurn movesOn_doctypeTurn.progresses (0, none)) r (fun found r' =>
      match Markup.skipDoctype 0 none cs with
      | some rest => found = true ∧ r'.At pieces rest
      | none => found = false ∧ r'.Intact pieces) fail := by
  refine meets_loop (fun state r' => ∃ e bytes cs',
    state = (e.depth, e.quote.map Char.toUInt8) ∧ WithinDoctype pieces cs e bytes cs' r')
    ?_ ⟨.free, [], cs, rfl, h.toIntact, nofun, h.rest_eq, h.suffix, rfl⟩
  rintro _ r' ⟨e, bytes, cs', rfl, hwithin⟩
  have hrest := hwithin.rest_eq
  cases bytes with
  | cons byte bytes =>
    obtain ⟨c, hc, hbyte⟩ := hwithin.allHigh byte List.mem_cons_self
    obtain ⟨hnext, hend⟩ := next_of_high hc e
    have hpeek : r'.cursor.peek? = some byte := by rw [Cursor.peek?, hrest]; rfl
    refine meets_doctypeTurn hbyte hpeek (fun h => absurd h.2 hend) fun _ => ?_
    rw [hnext]
    exact ⟨e, bytes, cs', rfl, ⟨hwithin.pieces_eq, hwithin.isSome_slice?⟩,
      fun b hb => hwithin.allHigh b (List.mem_cons_of_mem _ hb), rest_moveTo_of_cons hrest,
      hwithin.suffix, hwithin.skip_eq⟩
  | nil =>
    have hskip := hwithin.skip_eq
    cases cs' with
    | nil =>
      have hpeek : r'.cursor.peek? = none := by rw [Cursor.peek?, hrest]; rfl
      rw [doctypeTurn, meets_bind, meets_look, hpeek, ← hskip]
      exact ⟨rfl, hwithin.toIntact⟩
    | cons c cs' =>
      obtain ⟨byte, bytes, hbytes⟩ := Utf8.exists_encodeChar_eq_cons c
      rw [Utf8.encode_cons, hbytes] at hrest
      have hpeek : r'.cursor.peek? = some byte := by rw [Cursor.peek?, hrest]; rfl
      have hbyte : byte ∈ Utf8.encodeChar c := hbytes ▸ List.mem_cons_self
      have hsuffix := (List.suffix_cons c cs').trans hwithin.suffix
      rw [skipDoctype_cons] at hskip
      refine meets_doctypeTurn hbyte hpeek (fun hend => ?_) fun hend => ?_
      · rw [if_pos hend] at hskip
        obtain ⟨-, rfl⟩ := hend
        rw [Utf8.encodeChar_of_lt (by decide), List.cons.injEq] at hbytes
        rw [← hskip]
        refine ⟨rfl, ⟨hwithin.pieces_eq, hwithin.isSome_slice?⟩, hsuffix, ?_⟩
        rw [rest_moveTo_of_cons hrest, ← hbytes.2]
        rfl
      · rw [if_neg hend] at hskip
        exact ⟨e.next c, bytes, cs', rfl, ⟨hwithin.pieces_eq, hwithin.isSome_slice?⟩,
          allHigh_of_encodeChar hbytes, rest_moveTo_of_cons hrest, hsuffix, hskip⟩

theorem mirrors_skipDoctype (start : List Char) (h : r.At pieces ('<' :: '!' :: cs)) :
    Mirrors pieces (Reading.skipDoctype (offset text start)) r
      (match Markup.skipDoctype 0 none cs with
        | some rest => .ok ((), rest)
        | none => .error (.unterminated .doctype start)) := by
  rw [Reading.skipDoctype]
  refine mirrors_bind_advance ['<', '!'] h fun r₁ h₁ => ?_
  refine meets_bind.2 ((meets_doctypeLoop h₁).mono (fun found r₂ h₂ => ?_) fun _ _ h => h)
  cases hskip : Markup.skipDoctype 0 none cs with
  | some rest =>
    rw [hskip] at h₂
    obtain ⟨rfl, h₂⟩ := h₂
    exact mirrors_pure h₂
  | none =>
    rw [hskip] at h₂
    obtain ⟨rfl, h₂⟩ := h₂
    exact mirrors_unterminated h₂

/-! ### Tags -/

/-- At the `>` of a tag, which is passed. -/
theorem mirrors_tagEnd {a : α} (h : r.At pieces ('>' :: cs)) :
    Mirrors pieces (do advance 1; return a) r (.ok (a, cs)) :=
  mirrors_bind_pass (by decide) h fun _ h' => mirrors_pure h'

theorem mirrors_readEndTag (h : r.At pieces cs) :
    Mirrors pieces (Reading.readEndTag (offset text start)) r (Markup.readEndTag start cs) := by
  rw [Reading.readEndTag]
  refine mirrors_bind_readName h (fun name rest r₁ hname h₁ => ?_) fun hname => ?_
  · simp only [Markup.readEndTag, hname]
    refine mirrors_bind_skipSpaces h₁ fun r₂ h₂ => mirrors_bind_look ?_
    cases hrest : skipSpaces rest with
    | nil =>
      rw [hrest] at h₂
      rw [h₂.peek?_nil]
      exact mirrors_unterminated h₂.toIntact
    | cons c rest' =>
      rw [hrest] at h₂
      obtain ⟨byte, hbyte, hpeek⟩ := h₂.exists_peek?
      have hc : byte = '>'.toUInt8 ↔ c = '>' := Utf8.eq_toUInt8_iff (by decide) hbyte
      simp only [hpeek, hc]
      split
      · rename_i heq
        exact mirrors_tagEnd (heq ▸ h₂)
      · exact mirrors_malformedTag h₂.toIntact
  · simp only [Markup.readEndTag, hname]

/-- **The value of an attribute goes up to its quote**, which is ASCII and so found in the bytes. -/
theorem mirrors_value {quote : Char} {value : List Char} (hquote : quote.toNat < 0x80)
    (key : List Char) (h : r.At pieces value) :
    Mirrors pieces (do
        let first ← look Cursor.position
        match ← look (·.findByte? quote.toUInt8) with
        | some last =>
          moveTo (last + 1)
          return (key, ← cut first last)
        | none => throw (.unterminated .attributeValue first)) r
      (match Text.splitAt? quote value with
        | some (raw, rest) => .ok ((key, raw), rest)
        | none => .error (.unterminated .attributeValue value)) := by
  have hfirst : r.cursor.position = offset text value := h.position_eq
  refine mirrors_bind_look (mirrors_bind_look ?_)
  rw [h.findByte?_eq hquote, hfirst]
  cases hsplit : Text.splitAt? quote value with
  | none => exact mirrors_unterminated h.toIntact
  | some parts =>
    obtain ⟨raw, rest⟩ := parts
    obtain ⟨rfl, -⟩ := Text.splitAt?_eq_append hsplit
    have hsuffix := (List.suffix_append raw _).trans h.suffix
    have hrest : offset text rest = offset text (quote :: rest) + 1 := by
      rw [← List.singleton_append] at hsuffix ⊢
      rw [offset_append hsuffix, Utf8.encode_cons_of_lt hquote]
      rfl
    show Mirrors pieces (moveTo (offset text (quote :: rest) + 1) >>= _) r _
    rw [← hrest]
    refine mirrors_bind_moveTo h ((List.suffix_cons quote rest).trans hsuffix) fun r₁ h₁ => ?_
    exact mirrors_bind_cut h₁ h.suffix fun r₂ h₂ => mirrors_pure h₂

theorem mirrors_readAttribute (h : r.At pieces cs) :
    Mirrors pieces (Reading.readAttribute (offset text start)) r
      (Markup.readAttribute start cs) := by
  rw [Reading.readAttribute]
  refine mirrors_bind_readName h (fun key rest r₁ hkey h₁ => ?_) fun hkey => ?_
  · simp only [Markup.readAttribute, hkey]
    refine mirrors_bind_skipSpaces h₁ fun r₂ h₂ => mirrors_bind_look ?_
    rw [if_congr (h₂.peek?_eq_iff (by decide)) rfl rfl]
    split
    · rename_i hhead
      obtain ⟨afterEquals, hequals⟩ := List.head?_eq_some_iff.1 hhead
      rw [hequals] at h₂
      simp only [hequals]
      refine mirrors_bind_pass (by decide) h₂ fun r₃ h₃ => ?_
      refine mirrors_bind_skipSpaces h₃ fun r₄ h₄ => mirrors_bind_look ?_
      cases hvalue : skipSpaces afterEquals with
      | nil =>
        rw [hvalue] at h₄
        rw [h₄.peek?_nil]
        exact mirrors_malformedTag h₄.toIntact
      | cons quote value =>
        rw [hvalue] at h₄
        obtain ⟨byte, hbyte, hpeek⟩ := h₄.exists_peek?
        have hquotes : byte = '"'.toUInt8 ∨ byte = '\x27'.toUInt8 ↔ quote = '"' ∨ quote = '\x27' :=
          or_congr (Utf8.eq_toUInt8_iff (by decide) hbyte) (Utf8.eq_toUInt8_iff (by decide) hbyte)
        simp only [hpeek, hquotes]
        split
        · rename_i hquote
          have hascii : quote.toNat < 0x80 := by rcases hquote with rfl | rfl <;> decide
          obtain rfl : byte = quote.toUInt8 := (Utf8.eq_toUInt8_iff hascii hbyte).2 rfl
          exact mirrors_bind_pass hascii h₄ fun r₅ h₅ => mirrors_value hascii key h₅
        · exact mirrors_malformedTag h₄.toIntact
    · rename_i hhead
      split
      · rename_i hequals
        exact absurd (by rw [hequals]; rfl) hhead
      · exact mirrors_malformedTag h₂.toIntact
  · simp only [Markup.readAttribute, hkey]

/-- What is no end of a tag is an attribute, behind a space. -/
theorem readAttributes_of_ne (start : List Char) {c : Char} {rest : List Char}
    (hskip : skipSpaces cs = c :: rest) (hslash : ¬ ['/', '>'] <+: c :: rest) (hend : c ≠ '>') :
    Markup.readAttributes start cs
      = if cs.head?.any isSpace then
          match Markup.readAttribute start (c :: rest) with
          | .error fault => .error fault
          | .ok (pair, afterPair) =>
            (Markup.readAttributes start afterPair).map fun parts => (pair :: parts.1, parts.2)
        else .error (.malformedTag start) := by
  rw [Markup.readAttributes, hskip]
  split
  · rename_i heq
    rw [heq] at hslash
    exact absurd (List.prefix_append ['/', '>'] _) hslash
  · rename_i heq
    exact absurd (List.cons.inj heq).1 hend
  · rename_i heq
    cases heq
  · split
    · split <;> rename_i hread <;> rw [hread]
      rename_i pair afterPair
      cases hrest : Markup.readAttributes start afterPair <;>
        simp only [hrest, Except.map]
    · rfl

/-- The cursor stays where it is over spaces exactly if there are none. -/
theorem position_skipSpaces_iff {r' : Reader text} (h : r.At pieces cs)
    (h' : r'.At pieces (skipSpaces cs)) :
    r.cursor.position = r'.cursor.position ↔ cs.head?.any isSpace = false := by
  have hbefore : r.cursor.position = offset text cs := h.position_eq
  have hafter : r'.cursor.position = offset text (skipSpaces cs) := h'.position_eq
  have hsplit : cs.takeWhile isSpace ++ skipSpaces cs = cs := List.takeWhile_append_dropWhile
  have hmove := offset_append (hsplit.symm ▸ h.suffix)
  rw [hsplit] at hmove
  have hnil : r.cursor.position = r'.cursor.position ↔ cs.takeWhile isSpace = [] := by
    rw [← Utf8.encode_eq_nil_iff, ← List.length_eq_zero_iff]
    omega
  rw [hnil]
  cases cs with
  | nil => simp
  | cons c cs => cases hc : isSpace c <;> simp [hc]

/-- What a turn of the loop through attributes has come to before `cs`: it has read one more, behind
    which the others are read, or the end of the tag. -/
def ReadsOne (pieces : List Piece) (start cs : List Char) (attributes : List (List Char × List Char)) :
    Turn (List (List Char × List Char)) (List (List Char × List Char) × Bool) →
      Reader text → Prop
  | .again attributes', r => ∃ pair rest, attributes' = attributes ++ [pair] ∧ r.At pieces rest ∧
      Markup.readAttributes start cs
        = (Markup.readAttributes start rest).map fun parts => (pair :: parts.1, parts.2)
  | .leave result, r => ∃ rest, result.1 = attributes ∧ r.At pieces rest ∧
      Markup.readAttributes start cs = .ok ([], result.2, rest)

theorem meets_attributesTurn (h : r.At pieces cs) (attributes : List (List Char × List Char)) :
    Meets (attributesTurn (offset text start) attributes) r (ReadsOne pieces start cs attributes)
      (FailsAs pieces (Markup.readAttributes start cs)) := by
  rw [attributesTurn]
  refine meets_bind.2 (meets_bind.2 ((meets_skipSpaces h).mono (fun _ r₁ hr₁ => ?_)
    fun _ _ h => h))
  have h₁ := hr₁.2
  have hposition := position_skipSpaces_iff h h₁
  rw [meets_bind, meets_look]
  split
  · rename_i hstarts
    obtain ⟨rest, hrest⟩ := (h₁.startsWith_iff _).1 hstarts
    have hread : Markup.readAttributes start cs = .ok ([], true, rest) := by
      rw [Markup.readAttributes, ← hrest]
      rfl
    rw [← hrest] at h₁
    exact ⟨rest, rfl, h₁.advance, hread⟩
  rename_i hslash
  rw [h₁.startsWith_iff] at hslash
  rw [meets_bind, meets_look]
  cases hskip : skipSpaces cs with
  | nil =>
    have hread : Markup.readAttributes start cs = .error (.unterminated .startTag start) := by
      rw [Markup.readAttributes, hskip]
    rw [hskip] at h₁
    rw [h₁.peek?_nil]
    exact ⟨_, hread, rfl, h₁.toIntact⟩
  | cons c rest =>
    rw [hskip] at h₁ hslash
    obtain ⟨byte, hbyte, hpeek⟩ := h₁.exists_peek?
    have hc : byte = '>'.toUInt8 ↔ c = '>' := Utf8.eq_toUInt8_iff (by decide) hbyte
    rw [hpeek]
    show Meets (if byte = '>'.toUInt8 then _ else _) r₁ _ _
    split
    · rename_i hend
      obtain rfl := hc.1 hend
      have hread : Markup.readAttributes start cs = .ok ([], false, rest) := by
        rw [Markup.readAttributes, hskip]
        rfl
      exact ⟨rest, rfl, h₁.pass (by decide), hread⟩
    · rename_i hend
      have hread := readAttributes_of_ne start hskip hslash (mt hc.2 hend)
      rw [meets_bind, meets_look]
      split
      · rename_i heq
        rw [hposition.1 heq] at hread
        exact ⟨_, hread, rfl, h₁.toIntact⟩
      · rename_i hne
        rw [if_pos (Bool.of_not_eq_false (mt hposition.2 hne))] at hread
        refine meets_bind.2 ((mirrors_readAttribute h₁).mono ?_ ?_)
        · rintro pair r₂ ⟨rest', hpair, h₂⟩
          rw [hpair] at hread
          exact ⟨pair, rest', rfl, h₂, hread⟩
        · rintro e r₂ ⟨fault, hfault, he, h₂⟩
          rw [hfault] at hread
          exact ⟨fault, hread, he, h₂⟩

/-- **The loop through the attributes of a tag collects them all.** -/
theorem meets_attributesLoop (h : r.At pieces cs) :
    Meets (loop (attributesTurn (offset text start)) (movesOn_attributesTurn _).progresses []) r
      (fun result r' => ∃ rest, Markup.readAttributes start cs = .ok (result.1, result.2, rest) ∧
        r'.At pieces rest)
      (FailsAs pieces (Markup.readAttributes start cs)) := by
  -- before each turn, what there is to read are the attributes so far and what is read from there
  refine meets_loop (fun attributes r' => ∃ cs', r'.At pieces cs' ∧
    Markup.readAttributes start cs = (Markup.readAttributes start cs').map fun parts =>
      (attributes ++ parts.1, parts.2)) ?_ ⟨cs, h, ?_⟩
  · rintro attributes r' ⟨cs', h', heq⟩
    refine (meets_attributesTurn h' attributes).mono (fun t r'' ht => ?_) ?_
    · cases t with
      | again attributes' =>
        obtain ⟨pair, rest, rfl, h'', hread⟩ := ht
        refine ⟨rest, h'', ?_⟩
        rw [heq, hread]
        cases Markup.readAttributes start rest with
        | error => rfl
        | ok parts => simp only [Except.map, List.append_assoc, List.singleton_append]
      | leave result =>
        obtain ⟨rest, rfl, h'', hread⟩ := ht
        refine ⟨rest, ?_, h''⟩
        rw [heq, hread]
        simp only [Except.map, List.append_nil]
    · rintro e r'' ⟨fault, hread, he, h''⟩
      exact ⟨fault, by rw [heq, hread]; rfl, he, h''⟩
  · cases Markup.readAttributes start cs <;> rfl

theorem mirrors_readStartTag (h : r.At pieces cs) :
    Mirrors pieces (Reading.readStartTag (offset text start)) r
      (Markup.readStartTag start cs) := by
  rw [Reading.readStartTag]
  refine mirrors_bind_readName h (fun name rest r₁ hname h₁ => ?_) fun hname => ?_
  · simp only [Markup.readStartTag, hname]
    refine meets_bind.2 ((meets_attributesLoop h₁).mono ?_ ?_)
    · rintro ⟨attributes, selfClosing⟩ r₂ ⟨rest', hread, h₂⟩
      rw [hread]
      exact mirrors_pure h₂
    · rintro e r₂ ⟨fault, hread, he, h₂⟩
      rw [hread]
      exact ⟨fault, rfl, he, h₂⟩
  · simp only [Markup.readStartTag, hname]

/-! ### Tokens -/

/-- A token made of what stands between two marks. -/
theorem mirrors_section {construct : Construct} (opening : List Char) {c : Char}
    (hc : c.toNat < 0x80) (mark : List Char) (f : List Char → Token)
    (h : r.At pieces (opening ++ cs)) :
    Mirrors pieces (do return f (← Reading.delimited construct (offset text (opening ++ cs))
        (Utf8.encode opening).length (Utf8.encode (c :: mark)))) r
      ((Markup.delimited construct (opening ++ cs) (c :: mark) cs).map fun parts =>
        (f parts.1, parts.2)) := by
  refine (mirrors_delimited opening hc mark h).bind ?_ ?_
  · intro contents rest r' hread h'
    rw [hread]
    exact mirrors_pure h'
  · intro fault hread
    rw [hread]
    rfl

/-- What begins with none of the other marks is a start tag. -/
theorem readMarkup_startTag (hinstruction : ¬ ['?'] <+: cs) (hdeclaration : ¬ ['!'] <+: cs)
    (hend : ¬ ['/'] <+: cs) : Markup.readMarkup start cs = Markup.readStartTag start cs := by
  unfold Markup.readMarkup
  split
  · exact absurd (List.prefix_append ['?'] _) hinstruction
  · exact absurd (List.prefix_append ['!'] _) hdeclaration
  · exact absurd (List.prefix_append ['!'] _) hdeclaration
  · exact absurd (List.prefix_append ['!'] _) hdeclaration
  · exact absurd (List.prefix_append ['/'] _) hend
  · rfl

/-- **Markup is what it begins with**, in its bytes too. -/
theorem mirrors_readMarkup (h : r.At pieces ('<' :: cs)) :
    Mirrors pieces Reading.readMarkup r (Markup.readMarkup ('<' :: cs) cs) := by
  have hstarts : ∀ mark, r.cursor.startsWith (Utf8.encode ('<' :: mark)) = true ↔ mark <+: cs := by
    intro mark
    rw [h.startsWith_iff, List.cons_prefix_cons]
    exact and_iff_right rfl
  have hposition : r.cursor.position = offset text ('<' :: cs) := h.position_eq
  rw [Reading.readMarkup]
  refine mirrors_bind_look (mirrors_bind_look ?_)
  rw [hposition]
  split
  · rename_i hmark
    obtain ⟨rest, rfl⟩ := (hstarts _).1 hmark
    exact mirrors_section ['<', '?'] (by decide) ['>'] .instruction h
  rename_i hinstruction
  rw [hstarts] at hinstruction
  refine mirrors_bind_look ?_
  split
  · rename_i hmark
    obtain ⟨rest, rfl⟩ := (hstarts _).1 hmark
    exact mirrors_section ['<', '!', '-', '-'] (by decide) ['-', '>'] .comment h
  rename_i hcomment
  rw [hstarts] at hcomment
  refine mirrors_bind_look ?_
  split
  · rename_i hmark
    obtain ⟨rest, rfl⟩ := (hstarts _).1 hmark
    exact mirrors_section ['<', '!', '[', 'C', 'D', 'A', 'T', 'A', '['] (by decide) [']', '>']
      .cdata h
  rename_i hsection
  rw [hstarts] at hsection
  refine mirrors_bind_look ?_
  split
  · rename_i hmark
    obtain ⟨rest, rfl⟩ := (hstarts _).1 hmark
    rw [List.singleton_append] at h hcomment hsection ⊢
    rw [readMarkup_doctype (mt (List.cons_prefix_cons.2 ⟨rfl, ·⟩) hcomment)
      (mt (List.cons_prefix_cons.2 ⟨rfl, ·⟩) hsection)]
    have hread := mirrors_skipDoctype ('<' :: '!' :: rest) h
    cases hskip : Markup.skipDoctype 0 none rest with
    | some rest' =>
      rw [hskip] at hread
      refine hread.bind (fun _ _ r₁ heq h₁ => ?_) fun _ heq => by cases heq
      cases heq
      exact mirrors_pure h₁
    | none =>
      rw [hskip] at hread
      exact hread.bind (fun _ _ _ heq => by cases heq) fun fault heq => by cases heq; rfl
  rename_i hdeclaration
  rw [hstarts] at hdeclaration
  refine mirrors_bind_look ?_
  split
  · rename_i hmark
    obtain ⟨rest, rfl⟩ := (hstarts _).1 hmark
    exact mirrors_bind_advance ['<', '/'] h fun r₁ h₁ => mirrors_readEndTag h₁
  · rename_i hend
    rw [hstarts] at hend
    rw [readMarkup_startTag hinstruction hdeclaration hend]
    exact mirrors_bind_pass (by decide) h fun r₁ h₁ => mirrors_readStartTag h₁

/-- The next `<`, or the end if there is none, is the place behind the text that it ends. -/
theorem findByte?_getD (h : r.At pieces cs) :
    (r.cursor.findByte? '<'.toUInt8).getD (Utf8.encode text).length
      = offset text (cs.dropWhile (· != '<')) := by
  rw [h.findByte?_eq (by decide)]
  have hsplit : cs.takeWhile (· != '<') ++ cs.dropWhile (· != '<') = cs :=
    List.takeWhile_append_dropWhile
  cases hdrop : cs.dropWhile (· != '<') with
  | nil =>
    have hnone : Text.splitAt? '<' cs = none := by
      refine Text.splitAt?_eq_none_iff.2 fun hmem => ?_
      simpa using List.dropWhile_eq_nil_iff.1 hdrop _ hmem
    rw [hnone]
    rfl
  | cons d rest =>
    obtain rfl : d = '<' := by simpa using eq_false_of_dropWhile hdrop
    have hfree : '<' ∉ cs.takeWhile (· != '<') := fun hmem => by
      simpa using List.mem_takeWhile_imp hmem
    rw [hdrop] at hsplit
    have hsome : Text.splitAt? '<' (cs.takeWhile (· != '<') ++ '<' :: rest) = some (_, rest) :=
      Text.splitAt?_append hfree
    rw [hsplit] at hsome
    rw [hsome]
    rfl

theorem mirrors_readText {c : Char} (hc : c ≠ '<') (h : r.At pieces (c :: cs)) :
    Mirrors pieces Reading.readText r
      (.ok (.text (c :: cs.takeWhile (· != '<')), cs.dropWhile (· != '<'))) := by
  have hdrop : (c :: cs).dropWhile (· != '<') = cs.dropWhile (· != '<') :=
    List.dropWhile_cons_of_pos (bne_iff_ne.2 hc)
  have hfirst : r.cursor.position = offset text (c :: cs) := h.position_eq
  have hlast := findByte?_getD h
  have hsplit : (c :: cs.takeWhile (· != '<')) ++ cs.dropWhile (· != '<') = c :: cs := by
    rw [List.cons_append, List.takeWhile_append_dropWhile]
  rw [hdrop] at hlast
  rw [Reading.readText]
  refine mirrors_bind_look (mirrors_bind_look ?_)
  rw [hfirst, hlast, ← hsplit]
  have hsuffix := hsplit.symm ▸ h.suffix
  exact mirrors_bind_cut h hsuffix fun r₁ h₁ =>
    mirrors_bind_moveTo h₁ ((List.suffix_append _ _).trans hsuffix) fun r₂ h₂ => mirrors_pure h₂

/-- **A token is read by bytes as it is by characters**, and the reader goes on behind it. -/
theorem mirrors_readToken {c : Char} (h : r.At pieces (c :: cs)) :
    Mirrors pieces Reading.readToken r (Markup.readToken c cs) := by
  rw [Reading.readToken, Markup.readToken]
  refine mirrors_bind_look ?_
  rw [if_congr (h.peek?_eq_iff (by decide)) rfl rfl, List.head?_cons]
  by_cases hc : c = '<'
  · subst hc
    exact mirrors_readMarkup h
  · rw [if_neg hc, if_neg (fun heq => hc (Option.some.inj heq))]
    exact mirrors_readText hc h

end Reading

end XmlQuery.Markup
