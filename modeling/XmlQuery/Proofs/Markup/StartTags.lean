import Mathlib.Data.List.TakeWhile
import XmlQuery.Markup.Token

namespace XmlQuery.Markup

/-!
# Start tags as they are written

A start tag is a name, attributes behind spaces, and its end.  An attribute is a key with a value in
quotes, and so is a pair of a declaration.  What is written is a structure of its parts, and reading
it is finding them again.

* `IsSpaces`, `skipSpaces_eq_cons_iff` — rows of spaces, and where they end.
* `readName?_eq_some_iff` — a name goes up to the first symbol that belongs to none.
* `QuotedPair`, `SpacedPair` — a key and its value as they are written, and spaces in front of them.
* `readAttribute_eq_ok_iff`, `readAttributes_eq_ok_iff` — an attribute, and all those of a tag, are
  read exactly off such pairs.
* `StartTag`, `readStartTag_eq_ok_iff` — and so is the whole tag.
-/

/-! ### Names and spaces -/

/-- A name has a first symbol, which may begin one, and all others may go on with it. -/
theorem IsName.exists_cons {α : Type} [Symbol α] {name : List α} (h : IsName name) :
    ∃ a as, name = a :: as ∧ isNameStart a ∧ ∀ b ∈ as, isNameSymbol b := by
  cases name with
  | nil => cases h
  | cons a as =>
    rw [IsName, readName?] at h
    split at h
    · rename_i ha
      rw [Option.some.injEq, Prod.mk.injEq, List.cons.injEq] at h
      have hall : (as.takeWhile isNameSymbol).all isNameSymbol := List.all_takeWhile
      rw [h.1.2, List.all_eq_true] at hall
      exact ⟨a, as, rfl, ha, hall⟩
    · cases h

/-- **A name is read up to a symbol that belongs to none.** -/
theorem IsName.readName?_append {α : Type} [Symbol α] {name : List α} (h : IsName name) {a : α}
    (ha : isNameSymbol a = false) (rest : List α) :
    readName? (name ++ a :: rest) = some (name, a :: rest) := by
  obtain ⟨b, bs, rfl, hb, hbs⟩ := h.exists_cons
  rw [List.cons_append, readName?, if_pos hb, List.takeWhile_append_of_pos hbs,
    List.dropWhile_append_of_pos hbs, List.takeWhile_cons_of_neg (by simp [ha]),
    List.dropWhile_cons_of_neg (by simp [ha]), List.append_nil]

/-- What may begin a name is none of the characters that stand in its place in a tag. -/
theorem ne_of_isNameStart {c : Char} (h : isNameStart c) :
    c ≠ '?' ∧ c ≠ '!' ∧ c ≠ '/' ∧ c ≠ '>' ∧ isSpace c = false := by
  have hne : ∀ a, isNameStart a = false → c ≠ a := by
    rintro a ha rfl
    rw [ha] at h
    cases h
  refine ⟨hne '?' rfl, hne '!' rfl, hne '/' rfl, hne '>' rfl, ?_⟩
  simp only [isNameStart, Bool.or_eq_true, decide_eq_true_eq, beq_iff_eq] at h
  simp only [isSpace, Bool.or_eq_false_iff, beq_eq_false_iff_ne]
  omega

/-- Nothing is skipped before a character that is no space. -/
theorem skipSpaces_cons {c : Char} (h : isSpace c = false) (cs : List Char) :
    skipSpaces (c :: cs) = c :: cs :=
  List.dropWhile_cons_of_neg (by simp [h])

/-- Whether a text is a row of spaces, perhaps of none. -/
def IsSpaces (cs : List Char) : Prop :=
  ∀ c ∈ cs, isSpace c

instance (cs : List Char) : Decidable (IsSpaces cs) :=
  decidable_of_iff (cs.all isSpace) List.all_eq_true

instance (cs : List Char) : Decidable (IsName cs) :=
  inferInstanceAs (Decidable (readName? cs = some (cs, [])))

/-- The symbol that ends a row of symbols with a property does not have it. -/
theorem eq_false_of_dropWhile {α : Type} {p : α → Bool} {as rest : List α} {a : α}
    (h : as.dropWhile p = a :: rest) : p a = false := by
  have hhead := List.head?_dropWhile_not p as
  rw [h] at hhead
  exact hhead

/-- A row of spaces is skipped up to a character that is none. -/
theorem skipSpaces_append {spaces : List Char} (h : IsSpaces spaces) {c : Char}
    (hc : isSpace c = false) (cs : List Char) : skipSpaces (spaces ++ c :: cs) = c :: cs := by
  rw [skipSpaces, List.dropWhile_append_of_pos h]
  exact skipSpaces_cons hc cs

/-- **What is left behind spaces** begins with a character that is none. -/
theorem skipSpaces_eq_cons_iff {cs rest : List Char} {c : Char} :
    skipSpaces cs = c :: rest ↔
      isSpace c = false ∧ ∃ spaces, IsSpaces spaces ∧ cs = spaces ++ c :: rest := by
  constructor
  · intro h
    have hall : (cs.takeWhile isSpace).all isSpace := List.all_takeWhile
    refine ⟨eq_false_of_dropWhile h, cs.takeWhile isSpace, List.all_eq_true.1 hall, ?_⟩
    rw [← h]
    exact List.takeWhile_append_dropWhile.symm
  · rintro ⟨hc, spaces, hspaces, rfl⟩
    exact skipSpaces_append hspaces hc rest

/-- Where the first character is a space, spaces are skipped. -/
theorem exists_spaces_of_skipSpaces {cs rest : List Char} {c : Char}
    (hspace : cs.head?.any isSpace) (hskip : skipSpaces cs = c :: rest) :
    ∃ spaces, IsSpaces spaces ∧ spaces ≠ [] ∧ cs = spaces ++ c :: rest := by
  obtain ⟨hc, spaces, hspaces, rfl⟩ := skipSpaces_eq_cons_iff.1 hskip
  refine ⟨spaces, hspaces, ?_, rfl⟩
  rintro rfl
  exact absurd hspace (by simp [hc])

/-- What is read as a name is one, and a symbol behind it does not belong to it. -/
theorem isName_of_readName? {α : Type} [Symbol α] {as name rest : List α}
    (h : readName? as = some (name, rest)) :
    IsName name ∧ ∀ a ∈ rest.head?, isNameSymbol a = false := by
  cases as with
  | nil => cases h
  | cons b as =>
    rw [readName?] at h
    split at h
    · rename_i hb
      rw [Option.some.injEq, Prod.mk.injEq] at h
      obtain ⟨rfl, rfl⟩ := h
      have hall : ∀ a ∈ as.takeWhile isNameSymbol, isNameSymbol a :=
        List.all_eq_true.1 List.all_takeWhile
      constructor
      · rw [IsName, readName?, if_pos hb, List.takeWhile_eq_self_iff.2 hall,
          List.dropWhile_eq_nil_iff.2 hall]
      · intro a ha
        obtain ⟨rest, hrest⟩ := List.head?_eq_some_iff.1 ha
        exact eq_false_of_dropWhile hrest
    · cases h

/-- **A name goes up to the first symbol that belongs to none.** -/
theorem readName?_eq_some_iff {α : Type} [Symbol α] {as name rest : List α} :
    readName? as = some (name, rest) ↔
      as = name ++ rest ∧ IsName name ∧ ∀ a ∈ rest.head?, isNameSymbol a = false := by
  constructor
  · exact fun h => ⟨(readName?_eq_append h).1, isName_of_readName? h⟩
  · rintro ⟨rfl, hname, hend⟩
    cases rest with
    | nil => rwa [List.append_nil]
    | cons a rest => exact hname.readName?_append (hend a rfl) rest

/-- No name goes on with a space. -/
theorem isNameSymbol_of_isSpace {c : Char} (h : isSpace c) : isNameSymbol c = false := by
  simp only [isSpace, Bool.or_eq_true, beq_iff_eq] at h
  simp only [isNameSymbol, isNameStart, Bool.or_eq_false_iff, decide_eq_false_iff_not,
    beq_eq_false_iff_ne]
  omega

/-- A name ends before spaces, and before what stands behind them if it does not go on with
    that. -/
theorem isNameSymbol_of_head?_append {spaces : List Char} (h : IsSpaces spaces) {c : Char}
    (hc : isNameSymbol c = false) (cs : List Char) :
    ∀ a ∈ (spaces ++ c :: cs).head?, isNameSymbol a = false := by
  intro a ha
  cases spaces with
  | nil =>
    cases ha
    exact hc
  | cons s spaces =>
    cases ha
    exact isNameSymbol_of_isSpace (h _ List.mem_cons_self)

/-! ### Pairs -/

/-- A key and its value as they are written: spaces may stand around the equals sign, and the value
    stands between quotes of a kind that it does not hold. -/
structure QuotedPair where
  key : List Char
  beforeEquals : List Char
  afterEquals : List Char
  quote : Char
  value : List Char
  isName_key : IsName key
  isSpaces_beforeEquals : IsSpaces beforeEquals
  isSpaces_afterEquals : IsSpaces afterEquals
  isQuote : quote = '"' ∨ quote = '\x27'
  quote_notMem : quote ∉ value

/-- A key and its value as they are written behind a row of at least one space. -/
structure SpacedPair extends QuotedPair where
  spaces : List Char
  isSpaces_spaces : IsSpaces spaces
  spaces_ne_nil : spaces ≠ []

namespace QuotedPair

variable (p : QuotedPair)

/-- A pair as it is written. -/
def text : List Char :=
  p.key ++ (p.beforeEquals ++ '=' :: (p.afterEquals ++ p.quote :: (p.value ++ [p.quote])))

/-- What a pair says. -/
def content : List Char × List Char :=
  (p.key, p.value)

/-- What stands between a key and its value. -/
def separator : List Char :=
  p.beforeEquals ++ '=' :: (p.afterEquals ++ [p.quote])

theorem separator_append (cs : List Char) :
    p.separator ++ cs = p.beforeEquals ++ '=' :: (p.afterEquals ++ p.quote :: cs) := by
  simp [separator]

/-- A pair in front of a text. -/
theorem text_append (rest : List Char) :
    p.text ++ rest = p.key ++ (p.separator ++ (p.value ++ p.quote :: rest)) := by
  simp [text, separator]

/-- A quote is no space. -/
theorem isSpace_quote : isSpace p.quote = false := by
  rcases p.isQuote with h | h <;> rw [h] <;> decide

/-- A pair begins with the first symbol of its key. -/
theorem exists_text_eq_cons : ∃ c cs, p.text = c :: cs ∧ isNameStart c := by
  obtain ⟨c, cs, hkey, hc, -⟩ := p.isName_key.exists_cons
  exact ⟨c, _, by rw [text, hkey, List.cons_append], hc⟩

end QuotedPair

/-- A pair as it is written, with the spaces in front of it. -/
def SpacedPair.text (p : SpacedPair) : List Char :=
  p.spaces ++ p.toQuotedPair.text

variable {start cs rest : List Char}

/-- Behind a key and its separator, the value of an attribute goes up to the next quote. -/
theorem readAttribute_opening (p : QuotedPair) (start cs : List Char) :
    readAttribute start (p.key ++ (p.separator ++ cs))
      = (Text.splitAt? p.quote cs).elim (.error (.unterminated .attributeValue cs))
          fun parts => .ok ((p.key, parts.1), parts.2) := by
  have hequals : isSpace '=' = false := by decide
  have hkey := readName?_eq_some_iff.2 ⟨rfl, p.isName_key,
    isNameSymbol_of_head?_append p.isSpaces_beforeEquals (c := '=') (by decide)
      (p.afterEquals ++ p.quote :: cs)⟩
  rw [p.separator_append]
  simp only [readAttribute, hkey, skipSpaces_append p.isSpaces_beforeEquals hequals,
    skipSpaces_append p.isSpaces_afterEquals p.isSpace_quote, if_pos p.isQuote]
  cases Text.splitAt? p.quote cs <;> rfl

/-- **An attribute is read exactly off a pair as it is written**, whatever follows. -/
theorem readAttribute_eq_ok_iff {a : List Char × List Char} :
    readAttribute start cs = .ok (a, rest) ↔
      ∃ p : QuotedPair, cs = p.text ++ rest ∧ a = p.content := by
  constructor
  · intro h
    simp only [readAttribute] at h
    split at h
    · cases h
    rename_i key afterKey hkey
    split at h
    · rename_i afterEquals hequals
      split at h
      · rename_i quote value hvalue
        split at h
        · rename_i hquote
          split at h
          · rename_i raw rest' hsplit
            cases h
            obtain ⟨hcs, hname, -⟩ := readName?_eq_some_iff.1 hkey
            obtain ⟨-, before, hbefore, hafterKey⟩ := skipSpaces_eq_cons_iff.1 hequals
            obtain ⟨-, behind, hbehind, hafterEquals⟩ := skipSpaces_eq_cons_iff.1 hvalue
            obtain ⟨hraw, hfree⟩ := Text.splitAt?_eq_append hsplit
            refine ⟨⟨key, before, behind, quote, raw, hname, hbefore, hbehind, hquote, hfree⟩,
              ?_, rfl⟩
            rw [QuotedPair.text_append, QuotedPair.separator_append, hcs, hafterKey, hafterEquals,
              hraw]
          · cases h
        · cases h
      · cases h
    · cases h
  · rintro ⟨p, rfl, rfl⟩
    rw [p.text_append, readAttribute_opening, Text.splitAt?_append p.quote_notMem]
    rfl

/-! ### Start tags -/

/-- What ends a start tag; a slash stands in front of the angle if the tag ends its element too. -/
def tagEnd (selfClosing : Bool) : List Char :=
  if selfClosing then ['/', '>'] else ['>']

/-- Where a name begins behind a space, a start tag goes on with an attribute. -/
theorem readAttributes_of_isNameStart {c : Char} {cs tail : List Char}
    (hspace : cs.head?.any isSpace) (htail : skipSpaces cs = c :: tail) (hc : isNameStart c)
    (start : List Char) :
    readAttributes start cs
      = match readAttribute start (c :: tail) with
        | .error fault => .error fault
        | .ok (pair, afterPair) =>
          match readAttributes start afterPair with
          | .error fault => .error fault
          | .ok (attributes, selfClosing, rest) =>
            .ok (pair :: attributes, selfClosing, rest) := by
  have hne := ne_of_isNameStart hc
  rw [readAttributes, htail]
  -- a name begins with neither a slash nor an angle
  split
  · rename_i heq
    exact absurd (List.cons.inj heq).1 hne.2.2.1
  · rename_i heq
    exact absurd (List.cons.inj heq).1 hne.2.2.2.1
  · rename_i heq
    cases heq
  · rw [if_pos hspace]
    split
    · rename_i hfault
      rw [hfault]
    · rename_i pair afterPair hpair
      cases hrest : readAttributes start afterPair with
      | error fault => simp only [hpair, hrest]
      | ok parts => simp only [hpair, hrest]

/-- The end of a start tag is found behind spaces. -/
theorem readAttributes_tagEnd {spaces : List Char} (h : IsSpaces spaces) (selfClosing : Bool)
    (start rest : List Char) :
    readAttributes start (spaces ++ (tagEnd selfClosing ++ rest)) = .ok ([], selfClosing, rest) := by
  cases selfClosing with
  | false =>
    have hskip : skipSpaces (spaces ++ '>' :: rest) = '>' :: rest :=
      skipSpaces_append h (by decide) rest
    show readAttributes start (spaces ++ '>' :: rest) = _
    rw [readAttributes, hskip]
    rfl
  | true =>
    have hskip : skipSpaces (spaces ++ '/' :: '>' :: rest) = '/' :: '>' :: rest :=
      skipSpaces_append h (by decide) _
    show readAttributes start (spaces ++ '/' :: '>' :: rest) = _
    rw [readAttributes, hskip]
    rfl

/-- A pair behind spaces is read first, and then what follows it. -/
theorem readAttributes_pair (p : SpacedPair) {more : List Char}
    {attributes : List (List Char × List Char)} {selfClosing : Bool}
    (h : readAttributes start more = .ok (attributes, selfClosing, rest)) :
    readAttributes start (p.text ++ more) = .ok (p.content :: attributes, selfClosing, rest) := by
  obtain ⟨c, cs, hcs, hc⟩ := p.exists_text_eq_cons
  have hread : readAttribute start (p.toQuotedPair.text ++ more) = .ok (p.content, more) :=
    readAttribute_eq_ok_iff.2 ⟨p.toQuotedPair, rfl, rfl⟩
  have hspace : (p.text ++ more).head?.any isSpace := by
    obtain ⟨s, spaces, hspaces⟩ := List.exists_cons_of_ne_nil p.spaces_ne_nil
    rw [SpacedPair.text, hspaces]
    exact p.isSpaces_spaces s (hspaces ▸ List.mem_cons_self)
  have hskip : skipSpaces (p.text ++ more) = c :: (cs ++ more) := by
    rw [SpacedPair.text, hcs, List.append_assoc]
    exact skipSpaces_append p.isSpaces_spaces (ne_of_isNameStart hc).2.2.2.2 _
  rw [hcs, List.cons_append] at hread
  rw [readAttributes_of_isNameStart hspace hskip hc, hread]
  simp only [h]

/-- **The attributes of a start tag are read exactly off pairs behind spaces** and an end of the
    tag, whatever follows. -/
theorem readAttributes_eq_ok_iff {attributes : List (List Char × List Char)} {selfClosing : Bool} :
    readAttributes start cs = .ok (attributes, selfClosing, rest) ↔
      ∃ (pairs : List SpacedPair) (spaces : List Char), IsSpaces spaces ∧
        cs = pairs.flatMap SpacedPair.text ++ (spaces ++ (tagEnd selfClosing ++ rest)) ∧
        attributes = pairs.map fun p => p.content := by
  constructor
  · intro h
    fun_induction readAttributes start cs generalizing attributes with
    | case1 cs rest' hend =>
      cases h
      obtain ⟨-, spaces, hspaces, rfl⟩ := skipSpaces_eq_cons_iff.1 hend
      exact ⟨[], spaces, hspaces, rfl, rfl⟩
    | case2 cs rest' hend =>
      cases h
      obtain ⟨-, spaces, hspaces, rfl⟩ := skipSpaces_eq_cons_iff.1 hend
      exact ⟨[], spaces, hspaces, rfl, rfl⟩
    | case3 => cases h
    | case4 => cases h
    | case5 => cases h
    | case6 cs _ _ _ hread _ _ _ hrec _ _ _ ih =>
      cases h
      rename_i hspace pair afterPair attributes _ _ _
      obtain ⟨p, hp, rfl⟩ := readAttribute_eq_ok_iff.1 hread
      obtain ⟨pairs, last, hlast, rfl, rfl⟩ := ih hrec
      obtain ⟨c, tail, htail, hc⟩ := p.exists_text_eq_cons
      rw [htail, List.cons_append] at hp
      obtain ⟨spaces, hspaces, hne, rfl⟩ := exists_spaces_of_skipSpaces hspace hp
      refine ⟨⟨p, spaces, hspaces, hne⟩ :: pairs, last, hlast, ?_, rfl⟩
      rw [List.flatMap_cons, SpacedPair.text, htail]
      simp
    | case7 => cases h
  · rintro ⟨pairs, spaces, hspaces, rfl, rfl⟩
    induction pairs with
    | nil => exact readAttributes_tagEnd hspaces selfClosing start rest
    | cons p pairs ih =>
      rw [List.flatMap_cons, List.append_assoc]
      exact readAttributes_pair p ih

/-- A start tag as it is written: a name, pairs behind spaces, perhaps more spaces, and its end. -/
structure StartTag where
  name : List Char
  pairs : List SpacedPair
  spaces : List Char
  selfClosing : Bool
  isName_name : IsName name
  isSpaces_spaces : IsSpaces spaces

namespace StartTag

variable (tag : StartTag)

/-- What stands behind the name of a start tag. -/
def textBehindName : List Char :=
  tag.pairs.flatMap SpacedPair.text ++ (tag.spaces ++ tagEnd tag.selfClosing)

/-- A start tag as it is written. -/
def text : List Char :=
  '<' :: (tag.name ++ tag.textBehindName)

/-- What a start tag is read as. -/
def token : Token :=
  .startTag tag.name (tag.pairs.map fun p => p.content) tag.selfClosing

/-- What follows the name in a start tag does not belong to it. -/
theorem isNameSymbol_of_textBehindName (rest : List Char) :
    ∀ a ∈ (tag.textBehindName ++ rest).head?, isNameSymbol a = false := by
  cases hpairs : tag.pairs with
  | nil =>
    rw [textBehindName, hpairs, List.flatMap_nil, List.nil_append, List.append_assoc]
    cases tag.selfClosing with
    | false => exact isNameSymbol_of_head?_append tag.isSpaces_spaces (c := '>') (by decide) rest
    | true => exact isNameSymbol_of_head?_append tag.isSpaces_spaces (c := '/') (by decide) _
  | cons p pairs =>
    obtain ⟨s, spaces, hspaces⟩ := List.exists_cons_of_ne_nil p.spaces_ne_nil
    rw [textBehindName, hpairs, List.flatMap_cons, SpacedPair.text, hspaces]
    intro a ha
    cases ha
    exact isNameSymbol_of_isSpace (p.isSpaces_spaces s (hspaces ▸ List.mem_cons_self))

end StartTag

/-- **A start tag is read exactly off one as it is written**, whatever follows. -/
theorem readStartTag_eq_ok_iff {token : Token} :
    readStartTag start cs = .ok (token, rest) ↔
      ∃ tag : StartTag, '<' :: cs = tag.text ++ rest ∧ token = tag.token := by
  constructor
  · intro h
    simp only [readStartTag] at h
    split at h
    · cases h
    rename_i name afterName hread
    split at h
    · cases h
    rename_i attributes selfClosing rest' hattributes
    cases h
    obtain ⟨rfl, hname, -⟩ := readName?_eq_some_iff.1 hread
    obtain ⟨pairs, spaces, hspaces, rfl, rfl⟩ := readAttributes_eq_ok_iff.1 hattributes
    refine ⟨⟨name, pairs, spaces, selfClosing, hname, hspaces⟩, ?_, rfl⟩
    simp [StartTag.text, StartTag.textBehindName]
  · rintro ⟨tag, htext, rfl⟩
    rw [StartTag.text, List.cons_append, List.append_assoc, List.cons.injEq] at htext
    obtain ⟨-, rfl⟩ := htext
    have hname := readName?_eq_some_iff.2
      ⟨rfl, tag.isName_name, tag.isNameSymbol_of_textBehindName rest⟩
    have hattributes : readAttributes start (tag.textBehindName ++ rest)
        = .ok (tag.pairs.map fun p => p.content, tag.selfClosing, rest) :=
      readAttributes_eq_ok_iff.2 ⟨tag.pairs, tag.spaces, tag.isSpaces_spaces,
        by simp [StartTag.textBehindName], rfl⟩
    simp only [readStartTag, hname, hattributes, StartTag.token]

end XmlQuery.Markup
