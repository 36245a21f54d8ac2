import XmlQuery.Markup.TokenReader
import XmlQuery.Proofs.Markup.Bytes
import XmlQuery.Proofs.Markup.Searching

namespace XmlQuery.Markup

/-!
# Where a reader stands

A reader that stands between two characters of its text sees the bytes of the characters that are
left.  Looking for ASCII marks, it goes from one such place to another one, and cuts the text at
such places only.

* `offset` — the place at which some characters are left.
* `Reader.Intact` — nothing delivered so far has changed, and no cut has lost its text.
* `Reader.At` — a reader that has these characters left.
* `Reader.At.advance`, `Reader.At.moveTo`, `Reader.At.cut` — from place to place.
* `Reader.At.findByte?`, `Reader.At.find?` — what a reader finds is such a place.
* `Reading.meets_skipSpaces`, `Reading.meets_readName` — past spaces, and past a name.
-/

variable {text cs cs' : List Char} {pieces : List Piece}

/-- The offset into the bytes of a text at which `cs` is left. -/
def offset (text cs : List Char) : Nat :=
  (Utf8.encode text).length - (Utf8.encode cs).length

/-- What stands before an offset, and what is left there, make up the text. -/
theorem offset_add_length (h : cs <:+ text) :
    offset text cs + (Utf8.encode cs).length = (Utf8.encode text).length := by
  obtain ⟨front, rfl⟩ := h
  rw [offset, Utf8.encode_append, List.length_append, Nat.add_sub_cancel]

theorem offset_append {front back : List Char} (h : front ++ back <:+ text) :
    offset text back = offset text (front ++ back) + (Utf8.encode front).length := by
  have hwhole := offset_add_length h
  have hback := offset_add_length ((List.suffix_append front back).trans h)
  rw [Utf8.encode_append, List.length_append] at hwhole
  omega

/-- **What stands between two places is cut between their offsets.** -/
theorem slice?_offset {middle back : List Char} (h : middle ++ back <:+ text) :
    Utf8.slice? text ⟨offset text (middle ++ back), offset text back⟩ = some middle := by
  rw [offset_append h]
  obtain ⟨front, rfl⟩ := h
  refine Utf8.slice?_eq_some_iff.2 ⟨front, back, rfl, ?_, ?_⟩
  · rw [offset, Utf8.encode_append, List.length_append, Nat.add_sub_cancel]
  · rw [offset, Utf8.encode_append, List.length_append, Nat.add_sub_cancel, Utf8.encode_append,
      List.length_append]

/-! ### Cursors -/

/-- Further on, there is less left. -/
theorem Cursor.rest_advance (c : Cursor) (count : Nat) :
    (c.moveTo (c.position + count)).rest = c.rest.drop count := by
  show c.input.drop (min (c.position + count) c.input.length)
    = (c.input.drop c.position).drop count
  rw [List.drop_drop]
  rcases Nat.le_total (c.position + count) c.input.length with h | h
  · rw [Nat.min_eq_left h]
  · rw [Nat.min_eq_right h, List.drop_length, List.drop_of_length_le h]

/-- What a cursor has been moved past is what stood at the front of what was left. -/
theorem Cursor.drop_take_advance (c : Cursor) {front : List UInt8} (h : front <+: c.rest) :
    let c' := c.moveTo (c.position + front.length)
    (c'.input.take c'.position).drop c.position = front := by
  have hle := h.length_le
  have := c.position_add_length_rest
  show (c.input.take (min (c.position + front.length) c.input.length)).drop c.position = front
  rw [Nat.min_eq_left (by omega), List.drop_take, Nat.add_sub_cancel_left]
  exact (List.prefix_iff_eq_take.1 h).symm

/-- A cursor stays where it is moved to where it is. -/
theorem Cursor.moveTo_position (c : Cursor) : c.moveTo c.position = c := by
  obtain ⟨input, position, hle⟩ := c
  simp only [Cursor.moveTo, Nat.min_eq_left hle]

namespace Reader

variable {r : Reader text}

theorem moveTo_position (r : Reader text) : r.moveTo r.position = r := by
  obtain ⟨cursor, hinput, cuts, pieces⟩ := r
  simp only [Reader.moveTo, position, Cursor.moveTo_position]

theorem rest_advance (r : Reader text) (count : Nat) :
    (r.moveTo (r.position + count)).cursor.rest = r.cursor.rest.drop count :=
  r.cursor.rest_advance count

/-- Before the end, one byte further on is another place. -/
theorem position_advance_one {byte : UInt8} {bytes : List UInt8}
    (h : r.cursor.rest = byte :: bytes) :
    (r.moveTo (r.position + 1)).position = r.position + 1 := by
  have hlt : r.position < (Utf8.encode text).length :=
    position_lt (by rw [Cursor.peek?, h]; rfl)
  rw [position_moveTo]
  omega

/-- Whether `pieces` is all that a reader has delivered, and all that it has cut from its text was
    there to be cut. -/
structure Intact (r : Reader text) (pieces : List Piece) : Prop where
  pieces_eq : r.pieces = pieces
  isSome_slice? : ∀ span ∈ r.cuts, (Utf8.slice? text span).isSome

/-- Whether, besides, the reader stands before `cs`, which goes up to the end of its text. -/
structure At (r : Reader text) (pieces : List Piece) (cs : List Char) : Prop
    extends Intact r pieces where
  suffix : cs <:+ text
  rest_eq : r.cursor.rest = Utf8.encode cs

/-- A reader begins at the start of its text. -/
theorem at_start (text : List Char) : (start text).At [] text :=
  ⟨⟨rfl, List.forall_mem_nil _⟩, List.suffix_refl text, rfl⟩

namespace At

theorem position_eq (h : r.At pieces cs) : r.position = offset text cs := by
  have := r.cursor.position_add_length_rest
  rw [h.rest_eq, r.input_eq] at this
  show r.cursor.position = _
  rw [offset]
  omega

theorem cut {middle back : List Char} (h : r.At pieces cs) (hback : middle ++ back <:+ text) :
    (r.cut ⟨offset text (middle ++ back), offset text back⟩).At pieces cs := by
  refine ⟨⟨h.pieces_eq, ?_⟩, h.suffix, h.rest_eq⟩
  intro span hspan
  rcases List.mem_append.1 hspan with hspan | hspan
  · exact h.isSome_slice? span hspan
  · rw [List.mem_singleton.1 hspan, slice?_offset hback]
    rfl

theorem advance {front : List Char} (h : r.At pieces (front ++ cs)) :
    (r.moveTo (r.position + (Utf8.encode front).length)).At pieces cs := by
  refine ⟨⟨h.pieces_eq, h.isSome_slice?⟩, (List.suffix_append front cs).trans h.suffix, ?_⟩
  show (r.cursor.moveTo (r.cursor.position + _)).rest = _
  rw [Cursor.rest_advance, h.rest_eq, Utf8.encode_append, List.drop_left]

/-- An ASCII character is passed by one byte. -/
theorem pass {c : Char} (h : r.At pieces (c :: cs)) (hc : c.toNat < 0x80) :
    (r.moveTo (r.position + 1)).At pieces cs := by
  have hbytes : (Utf8.encode [c]).length = 1 := by
    rw [Utf8.encode_cons_of_lt hc]
    rfl
  exact hbytes ▸ At.advance (h : r.At pieces ([c] ++ cs))

theorem moveTo (h : r.At pieces cs) (hsuffix : cs' <:+ text) :
    (r.moveTo (offset text cs')).At pieces cs' := by
  refine ⟨⟨h.pieces_eq, h.isSome_slice?⟩, hsuffix, ?_⟩
  obtain ⟨front, rfl⟩ := hsuffix
  have hinput := r.input_eq
  rw [Utf8.encode_append] at hinput
  have hoffset : offset (front ++ cs') cs' = (Utf8.encode front).length := by
    rw [offset, Utf8.encode_append, List.length_append, Nat.add_sub_cancel]
  show r.cursor.input.drop (min (offset (front ++ cs') cs') r.cursor.input.length) = _
  rw [hoffset, hinput, List.length_append, Nat.min_eq_left (Nat.le_add_right _ _), List.drop_left]

/-! ### Looking ahead -/

theorem atEnd_iff (h : r.At pieces cs) : r.cursor.atEnd = true ↔ cs = [] := by
  rw [Cursor.atEnd, List.isEmpty_iff, h.rest_eq, Utf8.encode_eq_nil_iff]

theorem startsWith_iff (h : r.At pieces cs) (mark : List Char) :
    r.cursor.startsWith (Utf8.encode mark) = true ↔ mark <+: cs := by
  rw [Cursor.startsWith, List.isPrefixOf_iff_prefix, h.rest_eq, Utf8.encode_prefix_iff]

/-- At the end there is no byte to look at. -/
theorem peek?_nil (h : r.At pieces []) : r.cursor.peek? = none := by
  rw [Cursor.peek?, h.rest_eq]
  rfl

/-- Before a character, there is its first byte. -/
theorem exists_peek? {c : Char} (h : r.At pieces (c :: cs)) :
    ∃ byte ∈ Utf8.encodeChar c, r.cursor.peek? = some byte := by
  obtain ⟨byte, bytes, hbytes⟩ := Utf8.exists_encodeChar_eq_cons c
  refine ⟨byte, hbytes ▸ List.mem_cons_self, ?_⟩
  rw [Cursor.peek?, h.rest_eq, Utf8.encode_cons, hbytes]
  rfl

/-- **An ASCII character is seen exactly where it stands.** -/
theorem peek?_eq_iff (h : r.At pieces cs) {c : Char} (hc : c.toNat < 0x80) :
    r.cursor.peek? = some c.toUInt8 ↔ cs.head? = some c := by
  cases cs with
  | nil =>
    rw [h.peek?_nil]
    exact iff_of_false nofun nofun
  | cons d cs =>
    obtain ⟨byte, hbyte, hpeek⟩ := h.exists_peek?
    rw [hpeek, Option.some.injEq, List.head?_cons, Option.some.injEq]
    exact Utf8.eq_toUInt8_iff hc hbyte

/-- **What is found of an ASCII character is the place before it.** -/
theorem findByte?_eq (h : r.At pieces cs) {c : Char} (hc : c.toNat < 0x80) :
    r.cursor.findByte? c.toUInt8
      = (Text.splitAt? c cs).map fun parts => offset text (c :: parts.2) := by
  show ((Text.splitAt? c.toUInt8 r.cursor.rest).map _).map _ = _
  rw [h.rest_eq, Utf8.splitAt?_encode hc, Option.map_map, Option.map_map]
  cases hparts : Text.splitAt? c cs with
  | none => rfl
  | some parts =>
    obtain ⟨hcs, -⟩ := Text.splitAt?_eq_append hparts
    have hsuffix := h.suffix
    rw [hcs] at hsuffix
    show some (r.position + (Utf8.encode parts.1).length) = some (offset text (c :: parts.2))
    rw [h.position_eq, hcs, offset_append hsuffix]

/-- **So is what is found of a mark that begins with one.** -/
theorem find?_eq (h : r.At pieces cs) {c : Char} (hc : c.toNat < 0x80) (mark : List Char) :
    r.cursor.find? (Utf8.encode (c :: mark))
      = (Text.splitAround? (c :: mark) cs).map fun parts => offset text (c :: mark ++ parts.2) := by
  have hne : Utf8.encode (c :: mark) ≠ [] := fun h => by cases Utf8.encode_eq_nil_iff.1 h
  rw [Cursor.find?_eq_splitAround? _ hne, h.rest_eq, Utf8.splitAround?_encode hc, Option.map_map]
  cases hparts : Text.splitAround? (c :: mark) cs with
  | none => rfl
  | some parts =>
    have hcs := Text.splitAround?_eq_append hparts
    rw [List.append_assoc] at hcs
    have hsuffix := h.suffix
    rw [hcs] at hsuffix
    show some (r.position + (Utf8.encode parts.1).length)
      = some (offset text (c :: mark ++ parts.2))
    rw [h.position_eq, hcs, offset_append hsuffix]

end At

end Reader

namespace Reading

open Reader

variable {r : Reader text} {fail : ScanError → Reader text → Prop}

/-- **What is cut between two places is what stands between them**, and never lost. -/
theorem meets_cut {middle back : List Char} (h : r.At pieces cs) (hback : middle ++ back <:+ text) :
    Meets (cut (offset text (middle ++ back)) (offset text back)) r
      (fun raw r' => raw = middle ∧ r'.At pieces cs) fail := by
  refine ⟨?_, h.cut hback⟩
  rw [slice?_offset hback]
  rfl

/-! ### Names and spaces -/

/-- **The bytes that a rule allows are passed**, and nothing else changes. -/
theorem meets_skipWhile_bytes (accepts : UInt8 → Bool) :
    Meets (skipWhile accepts) r (fun _ r' =>
      r' = r.moveTo (r.position + (r.cursor.rest.takeWhile accepts).length)) fail := by
  -- wherever a turn begins, the loop has the same place still to come to
  refine meets_loop (fun _ r' =>
    r'.moveTo (r'.position + (r'.cursor.rest.takeWhile accepts).length)
      = r.moveTo (r.position + (r.cursor.rest.takeWhile accepts).length))
    (fun _ r' hr' => ?_) rfl
  rw [skipTurn, meets_bind, meets_look, Cursor.peek?]
  cases hrest : r'.cursor.rest with
  | nil =>
    rw [hrest, List.takeWhile_nil, List.length_nil, Nat.add_zero, moveTo_position] at hr'
    exact hr'
  | cons byte bytes =>
    rw [hrest] at hr'
    show Meets (if accepts byte = true then _ else _) r' _ fail
    split
    · rename_i haccepts
      rw [List.takeWhile_cons_of_pos haccepts, List.length_cons] at hr'
      show (r'.moveTo (r'.position + 1)).moveTo _ = _
      rw [position_advance_one hrest, rest_advance, hrest, List.drop_one, List.tail_cons, ← hr',
        Nat.add_assoc, Nat.add_comm 1]
      rfl
    · rename_i haccepts
      rw [List.takeWhile_cons_of_neg haccepts, List.length_nil, Nat.add_zero,
        moveTo_position] at hr'
      exact hr'

/-- **Spaces are passed byte by byte as the cursor tells them**, and so as the text has them. -/
theorem meets_skipSpaces (h : r.At pieces cs) :
    Meets (skipWhile isSpace) r (fun _ r' =>
      r'.cursor = r.cursor.skipSpaces ∧ r'.At pieces (skipSpaces cs)) fail := by
  refine (meets_skipWhile_bytes isSpace).mono ?_ fun _ _ h => h
  rintro _ r' rfl
  refine ⟨rfl, ?_⟩
  rw [h.rest_eq, Utf8.takeWhile_encode Utf8.agree_isSpace]
  refine At.advance ?_
  rwa [skipSpaces, List.takeWhile_append_dropWhile]

/-- **A name is read byte by byte as the cursor tells it.** -/
theorem meets_readName?_bytes :
    Meets readName? r (fun name r' =>
      r.cursor.readName? = name.map (fun bytes => (bytes, r'.cursor)) ∧
        r' = r.moveTo (r.position + (name.getD []).length)) fail := by
  have hnone : r = r.moveTo (r.position + 0) := (moveTo_position r).symm
  rw [readName?]
  refine meets_bind.2 (meets_bind.2 ?_)
  rw [meets_look, Cursor.peek?, Cursor.readName?]
  cases hrest : r.cursor.rest with
  | nil => exact ⟨rfl, hnone⟩
  | cons byte bytes =>
    show Meets (if isNameStart byte = true then _ else _) r _ fail
    rw [Markup.readName?]
    split
    · refine meets_bind.2 (meets_bind.2 ((meets_skipWhile_bytes _).mono ?_ fun _ _ h => h))
      rintro _ r' hr'
      have hmove : r' = r.moveTo (r.position + (byte :: bytes.takeWhile isNameSymbol).length) := by
        rw [hr', position_advance_one hrest, rest_advance, hrest, List.drop_one, List.tail_cons,
          List.length_cons, Nat.add_assoc, Nat.add_comm 1]
        rfl
      have hfront : byte :: bytes.takeWhile isNameSymbol <+: r.cursor.rest := by
        rw [hrest]
        exact List.cons_prefix_cons.2 ⟨rfl, List.takeWhile_prefix _⟩
      have hpassed : (r'.cursor.input.take r'.cursor.position).drop r.cursor.position
          = byte :: bytes.takeWhile isNameSymbol := by
        rw [hmove]
        exact r.cursor.drop_take_advance hfront
      rw [meets_bind, meets_look, hpassed]
      exact ⟨by rw [hmove]; rfl, hmove⟩
    · exact ⟨rfl, hnone⟩

theorem meets_readName? (h : r.At pieces cs) :
    Meets readName? r (fun name r' =>
      match Markup.readName? cs with
      | some (_, rest) => name.isSome ∧ r'.At pieces rest
      | none => name = none ∧ r'.At pieces cs) fail := by
  refine meets_readName?_bytes.mono ?_ fun _ _ h => h
  rintro name r' ⟨hname, rfl⟩
  rw [Cursor.readName?, h.rest_eq, Utf8.readName?_encode] at hname
  cases hread : Markup.readName? cs with
  | none =>
    rw [hread] at hname
    obtain rfl : name = none := Option.map_eq_none_iff.1 hname.symm
    refine ⟨rfl, ?_⟩
    rw [Option.getD_none, List.length_nil, Nat.add_zero, moveTo_position]
    exact h
  | some parts =>
    obtain ⟨first, rest⟩ := parts
    obtain ⟨rfl, -⟩ := readName?_eq_append hread
    rw [hread] at hname
    obtain ⟨bytes, rfl, hbytes⟩ := Option.map_eq_some_iff.1 hname.symm
    obtain rfl : bytes = Utf8.encode first := congrArg Prod.fst hbytes
    exact ⟨rfl, h.advance⟩

theorem meets_readName (start : Nat) (h : r.At pieces cs) :
    Meets (readName start) r
      (fun name r' => ∃ rest, Markup.readName? cs = some (name, rest) ∧ r'.At pieces rest)
      (fun e r' => Markup.readName? cs = none ∧ e = .malformedTag start ∧ r'.Intact pieces) := by
  rw [readName]
  refine meets_bind.2 (meets_bind.2 ((meets_readName? h).mono (fun found r' hr' => ?_)
    fun _ _ h => h))
  cases hname : Markup.readName? cs with
  | none =>
    rw [hname] at hr'
    obtain ⟨rfl, hr'⟩ := hr'
    exact ⟨rfl, rfl, hr'.toIntact⟩
  | some parts =>
    obtain ⟨name, rest⟩ := parts
    rw [hname] at hr'
    obtain ⟨hfound, hr'⟩ := hr'
    obtain ⟨found, rfl⟩ := Option.isSome_iff_exists.1 hfound
    obtain ⟨rfl, -⟩ := readName?_eq_append hname
    have hfirst : r.cursor.position = offset text (name ++ rest) := h.position_eq
    have hlast : r'.cursor.position = offset text rest := hr'.position_eq
    show Meets (look Cursor.position >>= fun last => cut r.cursor.position last) r' _ _
    rw [meets_bind, meets_look, hfirst, hlast]
    refine (meets_cut hr' h.suffix).mono (fun raw r'' hraw => ?_) fun _ _ h => h
    exact ⟨rest, by rw [hraw.1], hraw.2⟩

end Reading

end XmlQuery.Markup
