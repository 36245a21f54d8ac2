import XmlQuery.Markup.Reading

namespace XmlQuery.Markup.Reading

/-!
# Reading tokens by bytes

The marks of markup are ASCII, and a cursor finds them in the bytes of a text.

* `skipWhile`, `readName?` — move past spaces, and past a name.
* `delimited`, `skipDoctype`, `readEndTag`, `readStartTag` — the parts of markup.
* `readMarkup`, `readText`, `readToken` — the token at the cursor.
* `readTokens` — all tokens, up to the end or to the first error.
* `reaches_readToken` — reading a token moves the cursor on.
-/

variable {text : List Char}

/-! ### Names and spaces -/

/-- A turn of the loop over all bytes that `accepts` allows. -/
def skipTurn (accepts : UInt8 → Bool) (_ : Unit) : Reading text (Turn Unit Unit) := do
  match ← look Cursor.peek? with
  | some byte =>
    if accepts byte then
      advance 1
      return .again ()
    else return .leave ()
  | none => return .leave ()

theorem movesOn_skipTurn (accepts : UInt8 → Bool) : MovesOn text (skipTurn accepts) := by
  intro _ r
  rw [skipTurn, meets_bind, meets_look]
  split
  · rename_i heq
    split
    · have := Reader.position_lt heq
      exact meets_bind.2 ((reaches_advance this).mono (fun _ r' hle => hle) fun _ _ h => h)
    · exact Nat.le_refl r.position
  · exact Nat.le_refl r.position

/-- Moves past the bytes that `accepts` allows. -/
def skipWhile (accepts : UInt8 → Bool) : Reading text Unit :=
  loop (skipTurn accepts) (movesOn_skipTurn accepts).progresses ()

theorem reaches_skipWhile (accepts : UInt8 → Bool) (r : Reader text) :
    Reaches r.position (skipWhile accepts) r :=
  (movesOn_skipTurn accepts).reaches_loop ()

/-- Moves past the name at the cursor, if there is one, and tells its bytes. -/
def readName? : Reading text (Option (List UInt8)) := do
  let first ← look Cursor.position
  match ← look Cursor.peek? with
  | some byte =>
    if isNameStart byte then
      advance 1
      skipWhile isNameSymbol
      return some (← look fun c => (c.input.take c.position).drop first)
    else return none
  | none => return none

theorem moves_readName? (r : Reader text) :
    Meets readName? r (fun name r' => name.isSome → r.position < r'.position)
      fun _ _ => True := by
  rw [readName?]
  refine meets_bind.2 (meets_bind.2 ?_)
  rw [meets_look]
  split
  · rename_i heq
    split
    · have := Reader.position_lt heq
      refine meets_bind.2 ((reaches_advance this).mono (fun _ r₁ hle => ?_) fun _ _ h => h)
      refine meets_bind.2 ((reaches_skipWhile _ r₁).mono (fun _ r₂ hle' => ?_) fun _ _ h => h)
      exact fun _ => Nat.le_trans hle hle'
    · exact nofun
  · exact nofun

/-- The name at the cursor, cut from the text, in the tag that begins at `start`. -/
def readName (start : Nat) : Reading text (List Char) := do
  let first ← look Cursor.position
  match ← readName? with
  | some _ => cut first (← look Cursor.position)
  | none => throw (.malformedTag start)

theorem reaches_readName (start : Nat) (r : Reader text) :
    Reaches (r.position + 1) (readName start) r := by
  rw [readName]
  refine reaches_bind_look (meets_bind.2 ?_)
  refine (moves_readName? r).mono (fun name r' hlt => ?_) fun _ _ h => h
  split
  · exact reaches_bind_look (reaches_cut.of_le (hlt rfl))
  · exact reaches_throw

/-! ### Sections between marks -/

/-- The contents of a construct, from behind an opening of so many bytes up to `close`, which the
    cursor is moved past. -/
def delimited (construct : Construct) (start opening : Nat) (close : List UInt8) :
    Reading text (List Char) := do
  advance opening
  match ← look (·.find? close) with
  | some last =>
    let contents ← cut (start + opening) last
    moveTo (last + close.length)
    return contents
  | none => throw (.unterminated construct start)

theorem reaches_delimited (construct : Construct) (start opening : Nat) (close : List UInt8)
    (r : Reader text) :
    Reaches (r.position + close.length) (delimited construct start opening close) r := by
  rw [delimited]
  refine reaches_bind reaches_position_advance fun _ r₁ h₁ => reaches_bind_look ?_
  split
  · rename_i last heq
    obtain ⟨hle, hend⟩ := r₁.le_of_find? heq
    refine reaches_bind reaches_cut fun _ r₂ _ => ?_
    refine reaches_bind (reaches_moveTo (Nat.le_refl _) hend) fun _ r₃ h₃ => ?_
    exact reaches_pure (by omega)
  · exact reaches_throw

/-- A turn of the loop through a document type declaration: `depth` brackets are open, and perhaps
    a quote.  Whether the end of the declaration has been passed is told where the loop is left. -/
def doctypeTurn : Nat × Option UInt8 → Reading text (Turn (Nat × Option UInt8) Bool)
  | (depth, quote) => do
    match ← look Cursor.peek? with
    | some byte =>
      advance 1
      match quote with
      | some q => return .again (depth, if byte = q then none else some q)
      | none =>
        if byte = '"'.toUInt8 ∨ byte = '\x27'.toUInt8 then return .again (depth, some byte)
        else if byte = '['.toUInt8 then return .again (depth + 1, none)
        else if byte = ']'.toUInt8 then return .again (depth - 1, none)
        else if byte = '>'.toUInt8 ∧ depth = 0 then return .leave true
        else return .again (depth, none)
    | none => return .leave false

theorem movesOn_doctypeTurn : MovesOn text doctypeTurn := by
  intro (depth, quote) r
  rw [doctypeTurn, meets_bind, meets_look]
  split
  · rename_i heq
    have := Reader.position_lt heq
    refine meets_bind.2 ((reaches_advance this).mono (fun _ r' hlt => ?_) fun _ _ h => h)
    have hle := Nat.le_of_succ_le hlt
    repeat' split
    all_goals first
      | exact hlt
      | exact hle
  · exact Nat.le_refl r.position

/-- Moves past a document type declaration. -/
def skipDoctype (start : Nat) : Reading text Unit := do
  advance 2
  if ← loop doctypeTurn movesOn_doctypeTurn.progresses (0, none) then return ()
  else throw (.unterminated .doctype start)

theorem reaches_skipDoctype (start : Nat) {r : Reader text}
    (h : r.position < (Utf8.encode text).length) :
    Reaches (r.position + 1) (skipDoctype start) r := by
  rw [skipDoctype]
  refine reaches_bind (reaches_advance_of_lt Nat.two_pos h) fun _ r₁ h₁ => ?_
  refine reaches_bind (movesOn_doctypeTurn.reaches_loop _) fun found r₂ h₂ => ?_
  split
  · exact reaches_pure (Nat.le_trans h₁ h₂)
  · exact reaches_throw

/-! ### Tags -/

/-- The rest of the end tag that begins at `start`. -/
def readEndTag (start : Nat) : Reading text Token := do
  let name ← readName start
  skipWhile isSpace
  match ← look Cursor.peek? with
  | some byte =>
    if byte = '>'.toUInt8 then
      advance 1
      return .endTag name
    else throw (.malformedTag start)
  | none => throw (.unterminated .endTag start)

theorem reaches_readEndTag (start : Nat) (r : Reader text) :
    Reaches (r.position + 1) (readEndTag start) r := by
  rw [readEndTag]
  refine reaches_bind (reaches_readName start r) fun name r₁ h₁ => ?_
  refine reaches_bind (reaches_skipWhile _ r₁) fun _ r₂ h₂ => ?_
  refine reaches_bind_look ?_
  split
  · split
    · refine reaches_bind reaches_position_advance fun _ r₃ h₃ => ?_
      exact reaches_pure (by omega)
    · exact reaches_throw
  · exact reaches_throw

/-- An attribute, in quotes of either kind, of the tag that begins at `start`. -/
def readAttribute (start : Nat) : Reading text (List Char × List Char) := do
  let key ← readName start
  skipWhile isSpace
  if (← look Cursor.peek?) = some '='.toUInt8 then
    advance 1
    skipWhile isSpace
    match ← look Cursor.peek? with
    | some quote =>
      if quote = '"'.toUInt8 ∨ quote = '\x27'.toUInt8 then
        advance 1
        let first ← look Cursor.position
        match ← look (·.findByte? quote) with
        | some last =>
          moveTo (last + 1)
          return (key, ← cut first last)
        | none => throw (.unterminated .attributeValue first)
      else throw (.malformedTag start)
    | none => throw (.malformedTag start)
  else throw (.malformedTag start)

theorem reaches_readAttribute (start : Nat) (r : Reader text) :
    Reaches (r.position + 1) (readAttribute start) r := by
  rw [readAttribute]
  refine reaches_bind (reaches_readName start r) fun key r₁ h₁ => ?_
  refine reaches_bind (reaches_skipWhile _ r₁) fun _ r₂ h₂ => ?_
  refine reaches_bind_look ?_
  split
  · refine reaches_bind reaches_position_advance fun _ r₃ h₃ => ?_
    refine reaches_bind (reaches_skipWhile _ r₃) fun _ r₄ h₄ => ?_
    refine reaches_bind_look ?_
    split
    · split
      · refine reaches_bind reaches_position_advance fun _ r₅ h₅ => ?_
        refine reaches_bind_look (reaches_bind_look ?_)
        split
        · rename_i last heq
          obtain ⟨hle, hlt⟩ := r₅.le_of_findByte? heq
          refine reaches_bind (reaches_moveTo (Nat.le_refl _) hlt) fun _ r₆ h₆ => ?_
          refine reaches_bind reaches_cut fun _ r₇ h₇ => ?_
          exact reaches_pure (by omega)
        · exact reaches_throw
      · exact reaches_throw
    · exact reaches_throw
  · exact reaches_throw

/-- A turn of the loop through the attributes of the tag that begins at `start`.  The attributes so
    far are kept; at the end of the tag it is told, too, whether it closes its element. -/
def attributesTurn (start : Nat) (attributes : List (List Char × List Char)) :
    Reading text (Turn (List (List Char × List Char)) (List (List Char × List Char) × Bool)) := do
  let before ← look Cursor.position
  skipWhile isSpace
  if ← look (·.startsWith (Utf8.encode ['/', '>'])) then
    advance 2
    return .leave (attributes, true)
  else
    match ← look Cursor.peek? with
    | some byte =>
      if byte = '>'.toUInt8 then
        advance 1
        return .leave (attributes, false)
      else if before = (← look Cursor.position) then throw (.malformedTag start)
      else return .again (attributes ++ [← readAttribute start])
    | none => throw (.unterminated .startTag start)

theorem movesOn_attributesTurn (start : Nat) : MovesOn text (attributesTurn start) := by
  intro attributes r
  rw [attributesTurn]
  refine meets_bind.2 (meets_bind.2 ((reaches_skipWhile _ r).mono (fun _ r₁ h₁ => ?_)
    fun _ _ h => h))
  have hleave : ∀ {count : Nat} {result : List (List Char × List Char) × Bool},
      Meets (do advance count; return (.leave result : Turn (List (List Char × List Char)) _)) r₁
        (fun t r' => t.Moves r.position r'.position) fun _ _ => True := fun {_ _} =>
    meets_bind.2 (reaches_position_advance.mono (fun _ _ h => Nat.le_trans h₁ h) fun _ _ h => h)
  rw [meets_bind, meets_look]
  split
  · exact hleave
  · rw [meets_bind, meets_look]
    split
    · split
      · exact hleave
      · rw [meets_bind, meets_look]
        split
        · trivial
        · refine meets_bind.2 ((reaches_readAttribute start r₁).mono (fun _ r₂ h₂ => ?_)
            fun _ _ h => h)
          exact Nat.lt_of_le_of_lt h₁ h₂
    · trivial

/-- The rest of the start tag that begins at `start`. -/
def readStartTag (start : Nat) : Reading text Token := do
  let name ← readName start
  let (attributes, selfClosing) ←
    loop (attributesTurn start) (movesOn_attributesTurn start).progresses []
  return .startTag name attributes selfClosing

theorem reaches_readStartTag (start : Nat) (r : Reader text) :
    Reaches (r.position + 1) (readStartTag start) r := by
  rw [readStartTag]
  refine reaches_bind (reaches_readName start r) fun name r₁ h₁ => ?_
  refine reaches_bind ((movesOn_attributesTurn start).reaches_loop _) fun result r₂ h₂ => ?_
  exact reaches_pure (Nat.le_trans h₁ h₂)

/-! ### Tokens -/

/-- The token that begins with the `<` at the cursor. -/
def readMarkup : Reading text Token := do
  let start ← look Cursor.position
  if ← look (·.startsWith (Utf8.encode ['<', '?'])) then
    return .instruction (← delimited .instruction start 2 (Utf8.encode ['?', '>']))
  else if ← look (·.startsWith (Utf8.encode ['<', '!', '-', '-'])) then
    return .comment (← delimited .comment start 4 (Utf8.encode ['-', '-', '>']))
  else if ← look (·.startsWith (Utf8.encode ['<', '!', '[', 'C', 'D', 'A', 'T', 'A', '['])) then
    return .cdata (← delimited .cdataSection start 9 (Utf8.encode [']', ']', '>']))
  else if ← look (·.startsWith (Utf8.encode ['<', '!'])) then
    skipDoctype start
    return .doctype
  else if ← look (·.startsWith (Utf8.encode ['<', '/'])) then
    advance 2
    readEndTag start
  else
    advance 1
    readStartTag start

/-- The text from the cursor up to the next `<`, or up to the end. -/
def readText : Reading text Token := do
  let first ← look Cursor.position
  let last := (← look (·.findByte? '<'.toUInt8)).getD (Utf8.encode text).length
  let raw ← cut first last
  moveTo last
  return .text raw

/-- The token at the cursor. -/
def readToken : Reading text Token := do
  if (← look Cursor.peek?) = some '<'.toUInt8 then readMarkup else readText

/-- A token made of what stands before a mark that is not empty. -/
theorem reaches_section {construct : Construct} {start opening : Nat} {close : List UInt8}
    {f : List Char → Token} {r : Reader text} (hclose : 0 < close.length) :
    Reaches (r.position + 1) (do return f (← delimited construct start opening close)) r := by
  refine reaches_bind (reaches_delimited _ _ _ _ r) fun _ r₁ h₁ => ?_
  exact reaches_pure (by omega)

theorem reaches_readMarkup {r : Reader text} (h : r.position < (Utf8.encode text).length) :
    Reaches (r.position + 1) readMarkup r := by
  rw [readMarkup]
  refine reaches_bind_look (reaches_bind_look ?_)
  split
  · exact reaches_section (by decide)
  refine reaches_bind_look ?_
  split
  · exact reaches_section (by decide)
  refine reaches_bind_look ?_
  split
  · exact reaches_section (by decide)
  refine reaches_bind_look ?_
  split
  · exact reaches_bind (reaches_skipDoctype _ h) fun _ _ h₁ => reaches_pure h₁
  refine reaches_bind_look ?_
  split
  · refine reaches_bind (reaches_advance_of_lt Nat.two_pos h) fun _ r₁ h₁ => ?_
    exact (reaches_readEndTag _ r₁).of_le (Nat.le_succ_of_le h₁)
  · refine reaches_bind (reaches_advance_of_lt Nat.one_pos h) fun _ r₁ h₁ => ?_
    exact (reaches_readStartTag _ r₁).of_le (Nat.le_succ_of_le h₁)

theorem reaches_readText {r : Reader text} (h : r.position < (Utf8.encode text).length)
    (hmark : r.cursor.peek? ≠ some '<'.toUInt8) : Reaches (r.position + 1) readText r := by
  rw [readText]
  refine reaches_bind_look (reaches_bind_look (reaches_bind reaches_cut fun _ r₁ h₁ => ?_))
  refine reaches_bind (m := r.position + 1) ?_ fun _ r₂ h₂ => reaches_pure h₂
  cases heq : r.cursor.findByte? '<'.toUInt8 with
  | some last =>
    exact reaches_moveTo (Cursor.lt_of_findByte? heq hmark)
      (Nat.le_of_lt (r.le_of_findByte? heq).2)
  | none => exact reaches_moveTo h (Nat.le_refl _)

/-- **Reading a token moves the cursor on**, wherever it is. -/
theorem reaches_readToken {r : Reader text} (h : r.position < (Utf8.encode text).length) :
    Reaches (r.position + 1) readToken r := by
  rw [readToken]
  refine reaches_bind_look ?_
  split
  · exact reaches_readMarkup h
  · rename_i hmark
    exact reaches_readText h hmark

/-- A turn of the loop over all tokens. -/
def runTurn (_ : Unit) : Reading text (Turn Unit Unit) := do
  if ← look Cursor.atEnd then return .leave ()
  else
    let first ← look Cursor.position
    let token ← readToken
    let last ← look Cursor.position
    deliver ⟨⟨first, last⟩, token⟩
    return .again ()

theorem movesOn_runTurn : MovesOn text runTurn := by
  intro _ r
  rw [runTurn, meets_bind, meets_look]
  split
  · exact Nat.le_refl r.position
  · rename_i hend
    exact meets_bind.2 (meets_bind.2 ((reaches_readToken (r.lt_of_atEnd hend)).mono
      (fun token r' hlt => hlt) fun _ _ h => h))

/-- Delivers the tokens of a text, up to its end or to the first error. -/
def readTokens : Reading text Unit :=
  loop runTurn movesOn_runTurn.progresses ()

end XmlQuery.Markup.Reading
