import Mathlib.Data.Bool.AllAny
import XmlQuery.Proofs.Markup.Scanning

namespace XmlQuery

/-!
# The encoding that a declaration names

The encoding is looked for as a word in the pairs of a declaration, and not as the key of one.  So
the first pair that holds the word decides, in its key or in its value.

* `Text.after?`, `Text.after?_append` — what follows the first occurrence of a mark, in two texts of
  which the second begins with no symbol of it.
* `Text.trimStart_append_cases` — what stands behind the leading blanks of two texts.
* `Markup.after?_pair` — a mark without separators occurs in a key, in a value, or in neither.
* `Markup.valueBehind?_key`, `Markup.valueBehind?_value` — what is read behind the word in either.
* `Markup.reported?`, `Markup.pairValue?_pairs` — hence what a whole declaration is read as.
* `Markup.scanText_pairs` — a declaration is scanned so, and rightly if nothing in front of its
  pair with the word as key holds the word.
-/

namespace Text

/-! ### Behind a mark -/

section

variable {α : Type} {mark cs cs' : List α}

/-- A mark at the front of two texts is at the front of the first one, if the second one begins with
    no symbol of it. -/
theorem prefix_append_iff (h : ∀ c ∈ cs'.head?, c ∉ mark) : mark <+: cs ++ cs' ↔ mark <+: cs := by
  refine ⟨fun hmark => ?_, fun hmark => hmark.trans (List.prefix_append cs cs')⟩
  rcases List.prefix_or_prefix_of_prefix hmark (List.prefix_append cs cs') with hle | ⟨more, rfl⟩
  · exact hle
  · cases more with
    | nil => exact ⟨[], by rw [List.append_nil, List.append_nil]⟩
    | cons d more =>
      obtain ⟨rest, hrest⟩ := (List.prefix_append_right_inj cs).1 hmark
      exact absurd (List.mem_append_right cs List.mem_cons_self) (h d (by rw [← hrest]; rfl))

variable [DecidableEq α]

/-- What follows the first occurrence of a mark. -/
def after? (mark cs : List α) : Option (List α) :=
  (splitAround? mark cs).map Prod.snd

/-- A mark occurs first at the front of a text, or in the rest. -/
theorem after?_cons (mark : List α) (c : α) (cs : List α) :
    after? mark (c :: cs)
      = if mark <+: c :: cs then some ((c :: cs).drop mark.length) else after? mark cs := by
  rw [after?, splitAround?, after?]
  split
  · rfl
  · cases splitAround? mark cs <;> rfl

/-- Nothing follows a mark exactly if it does not occur. -/
theorem after?_eq_none_iff : after? mark cs = none ↔ ¬ mark <:+: cs := by
  rw [after?, Option.map_eq_none_iff, splitAround?_eq_none_iff]

/-- What follows a mark is an end of the text. -/
theorem suffix_of_after? (h : after? mark cs = some cs') : cs' <:+ cs := by
  obtain ⟨⟨before, after⟩, hsplit, rfl⟩ := Option.map_eq_some_iff.1 h
  exact ⟨before ++ mark, (splitAround?_eq_append hsplit).symm⟩

/-- **A mark occurs in the first of two texts or in the second**, if the second one begins with no
    symbol of it. -/
theorem after?_append (h : ∀ c ∈ cs'.head?, c ∉ mark) :
    after? mark (cs ++ cs')
      = (after? mark cs).elim (after? mark cs') fun behind => some (behind ++ cs') := by
  induction cs with
  | nil =>
    by_cases hmark : mark = []
    · subst hmark
      cases cs' <;> rfl
    · have hnone : after? mark [] = none := by rw [after?, splitAround?, if_neg hmark]; rfl
      rw [hnone]
      rfl
  | cons c cs ih =>
    rw [List.cons_append, after?_cons, after?_cons, ← List.cons_append]
    by_cases hmark : mark <+: c :: cs
    · rw [if_pos ((prefix_append_iff h).2 hmark), if_pos hmark,
        List.drop_append_of_le_length hmark.length_le]
      rfl
    · rw [if_neg (mt (prefix_append_iff h).1 hmark), if_neg hmark, ih]

/-- Nothing follows a mark in itself. -/
theorem after?_self (h : mark ≠ []) : after? mark mark = some [] := by
  obtain ⟨c, cs, rfl⟩ := List.exists_cons_of_ne_nil h
  rw [after?_cons, if_pos (List.prefix_refl _), List.drop_length]

/-- Symbols that are none of a mark are passed over. -/
theorem after?_of_notMem (hmark : mark ≠ []) (h : ∀ c ∈ cs, c ∉ mark) (cs' : List α) :
    after? mark (cs ++ cs') = after? mark cs' := by
  induction cs with
  | nil => rfl
  | cons c cs ih =>
    rw [List.forall_mem_cons] at h
    rw [List.cons_append, after?_cons, if_neg, ih h.2]
    intro hprefix
    cases mark with
    | nil => exact hmark rfl
    | cons d mark =>
      obtain ⟨rfl, -⟩ := List.cons_prefix_cons.1 hprefix
      exact h.1 List.mem_cons_self

end

/-! ### Behind blanks -/

variable {cs : List Char} {c : Char}

/-- What is not blank in a text. -/
def nonblank (cs : List Char) : List Char :=
  cs.filter fun c => !isBlank c

/-- Behind a blank text the leading blanks go on. -/
theorem trimStart_append (h : nonblank cs = []) (cs' : List Char) :
    trimStart (cs ++ cs') = trimStart cs' := by
  refine List.dropWhile_append_of_pos fun c hc => ?_
  simpa using List.filter_eq_nil_iff.1 h c hc

/-- **The leading blanks of two texts** reach into the second one, if the first one is blank, or up
    to the first character of the first one that is not blank. -/
theorem trimStart_append_cases (cs cs' : List Char) :
    (nonblank cs = [] ∧ trimStart (cs ++ cs') = trimStart cs') ∨
      ∃ c more, c ∈ cs ∧ more ⊆ cs ∧ nonblank cs = c :: nonblank more ∧
        trimStart (cs ++ cs') = c :: (more ++ cs') := by
  induction cs with
  | nil => exact .inl ⟨rfl, rfl⟩
  | cons d cs ih =>
    by_cases hd : isBlank d
    · have hnonblank : nonblank (d :: cs) = nonblank cs := List.filter_cons_of_neg (by simp [hd])
      have htrim : trimStart (d :: cs ++ cs') = trimStart (cs ++ cs') :=
        List.dropWhile_cons_of_pos hd
      rw [hnonblank, htrim]
      rcases ih with hblank | ⟨c, more, hc, hmore, hcons⟩
      · exact .inl hblank
      · exact .inr ⟨c, more, List.mem_cons_of_mem d hc, List.subset_cons_of_subset d hmore, hcons⟩
    · exact .inr ⟨d, cs, List.mem_cons_self, List.subset_cons_self d cs,
        List.filter_cons_of_pos (by simp [hd]), List.dropWhile_cons_of_neg hd⟩

/-- A character that is not blank ends the leading blanks. -/
theorem trimStart_cons (h : isBlank c = false) (cs : List Char) : trimStart (c :: cs) = c :: cs :=
  List.dropWhile_cons_of_neg (by simp [h])

end Text

namespace Markup

/-! ### Behind the word -/

/-- What follows an equals sign in front of which blanks may stand. -/
def afterEquals? (cs : List Char) : Option (List Char) :=
  match Text.trimStart cs with
  | '=' :: rest => some rest
  | _ => none

/-- What stands between quotes of either kind in front of which blanks may stand. -/
def quoted? (cs : List Char) : Option (List Char) :=
  match Text.trimStart cs with
  | quote :: value =>
    if quote = '"' ∨ quote = '\x27' then (Text.splitAt? quote value).map Prod.fst else none
  | [] => none

/-- The value that follows an equals sign. -/
def valueBehind? (cs : List Char) : Option (List Char) :=
  (afterEquals? cs).bind quoted?

variable {cs rest : List Char} {c : Char}

theorem afterEquals?_of_cons (h : Text.trimStart cs = c :: rest) :
    afterEquals? cs = if c = '=' then some rest else none := by
  rw [afterEquals?, h]
  split
  · rename_i heq
    cases heq
    rw [if_pos rfl]
  · rename_i hne
    rw [if_neg]
    rintro rfl
    exact hne rest rfl

theorem quoted?_of_cons (h : Text.trimStart cs = c :: rest) :
    quoted? cs
      = if c = '"' ∨ c = '\x27' then (Text.splitAt? c rest).map Prod.fst else none := by
  rw [quoted?, h]

/-- The value of a key is the one behind its first occurrence. -/
theorem pairValue?_eq (key cs : List Char) :
    pairValue? key cs = (Text.after? key cs).bind valueBehind? := by
  unfold pairValue? Text.after? valueBehind?
  cases Text.splitAround? key cs with
  | none => rfl
  | some parts =>
    rw [Option.map_some, Option.bind_some]
    cases htrim : Text.trimStart parts.2 with
    | nil =>
      have hnone : afterEquals? parts.2 = none := by rw [afterEquals?, htrim]
      rw [hnone]
      simp only [htrim]
      rfl
    | cons c rest =>
      rw [afterEquals?_of_cons htrim]
      by_cases hc : c = '='
      · subst hc
        rw [if_pos rfl]
        simp only [htrim]
        rfl
      · rw [if_neg hc]
        simp only [htrim]
        split
        · rename_i heq
          cases heq
          exact absurd rfl hc
        · rfl

/-- A space is blank. -/
theorem isBlank_of_isSpace (h : isSpace c) : Text.isBlank c := by
  simp only [isSpace, Symbol.code, Bool.or_eq_true, beq_iff_eq] at h
  rw [Text.isBlank]
  rcases h with ((h | h) | h) | h <;> rw [h] <;> decide

theorem nonblank_spaces {spaces : List Char} (h : IsSpaces spaces) : Text.nonblank spaces = [] :=
  List.filter_eq_nil_iff.2 fun c hc => by simp [isBlank_of_isSpace (h c hc)]

/-! ### A mark in a pair -/

/-- Whether a mark is made of no separators: of no spaces, equals signs or quotes. -/
structure Inseparable (mark : List Char) : Prop where
  ne_nil : mark ≠ []
  spaces : ∀ c ∈ mark, isSpace c = false
  equals : '=' ∉ mark
  double : '"' ∉ mark
  single : '\x27' ∉ mark

namespace Inseparable

variable {mark : List Char}

/-- Spaces hold nothing of such a mark. -/
theorem notMem_spaces (h : Inseparable mark) {spaces : List Char} (hspaces : IsSpaces spaces) :
    ∀ c ∈ spaces, c ∉ mark := by
  intro c hc hmem
  cases (hspaces c hc).symm.trans (h.spaces c hmem)

/-- So such a mark does not occur in spaces. -/
theorem after?_spaces (h : Inseparable mark) {spaces : List Char} (hspaces : IsSpaces spaces) :
    Text.after? mark spaces = none := by
  rw [Text.after?_eq_none_iff]
  intro hmark
  obtain ⟨c, hc⟩ := List.exists_mem_of_ne_nil mark h.ne_nil
  exact h.notMem_spaces hspaces c (hmark.subset hc) hc

/-- A quote holds nothing of it either. -/
theorem quote_notMem (h : Inseparable mark) (p : QuotedPair) : p.quote ∉ mark := by
  rcases p.isQuote with hq | hq <;> rw [hq]
  · exact h.double
  · exact h.single

end Inseparable

variable {mark : List Char}

/-- There is nothing of such a mark between a key and its value. -/
theorem Inseparable.notMem_separator (h : Inseparable mark) (p : QuotedPair) :
    ∀ c ∈ p.separator, c ∉ mark := by
  intro c hc
  rw [QuotedPair.separator, List.mem_append, List.mem_cons, List.mem_append,
    List.mem_singleton] at hc
  rcases hc with hc | rfl | hc | rfl
  · exact h.notMem_spaces p.isSpaces_beforeEquals c hc
  · exact h.equals
  · exact h.notMem_spaces p.isSpaces_afterEquals c hc
  · exact h.quote_notMem p

/-- **A mark without separators occurs first in the key of a pair, or else in its value, or else
    behind the pair.** -/
theorem after?_pair (h : Inseparable mark) (p : QuotedPair) (rest : List Char) :
    Text.after? mark (p.text ++ rest)
      = (Text.after? mark p.key).elim
          ((Text.after? mark p.value).elim (Text.after? mark rest)
            fun behind => some (behind ++ p.quote :: rest))
          fun behind => some (behind ++ (p.separator ++ (p.value ++ p.quote :: rest))) := by
  have hseparator : ∀ c ∈ (p.separator ++ (p.value ++ p.quote :: rest)).head?, c ∉ mark := by
    intro c hc
    obtain ⟨d, tail, hhead⟩ : ∃ d tail, p.separator = d :: tail := by
      cases hempty : p.separator with
      | nil => simp [QuotedPair.separator] at hempty
      | cons d tail => exact ⟨d, tail, rfl⟩
    refine h.notMem_separator p c ?_
    rw [hhead] at hc ⊢
    cases hc
    exact List.mem_cons_self
  have hquote : ∀ c ∈ (p.quote :: rest).head?, c ∉ mark := by
    intro c hc
    cases hc
    exact h.quote_notMem p
  have hrest : Text.after? mark (p.quote :: rest) = Text.after? mark rest :=
    Text.after?_of_notMem h.ne_nil (List.forall_mem_singleton.2 (h.quote_notMem p)) rest
  rw [p.text_append, Text.after?_append hseparator,
    Text.after?_of_notMem h.ne_nil (h.notMem_separator p), Text.after?_append hquote, hrest]

/-! ### Behind the word in a pair -/

/-- A quote is not blank. -/
theorem isBlank_quote (p : QuotedPair) : Text.isBlank p.quote = false := by
  rcases p.isQuote with h | h <;> rw [h] <;> decide

/-- The value of a pair stands behind its separator. -/
theorem valueBehind?_separator (p : QuotedPair) (rest : List Char) :
    valueBehind? (p.separator ++ (p.value ++ p.quote :: rest)) = some p.value := by
  have hequals : Text.trimStart (p.separator ++ (p.value ++ p.quote :: rest))
      = '=' :: (p.afterEquals ++ p.quote :: (p.value ++ p.quote :: rest)) := by
    rw [p.separator_append, Text.trimStart_append (nonblank_spaces p.isSpaces_beforeEquals),
      Text.trimStart_cons (by decide)]
  have hquote : Text.trimStart (p.afterEquals ++ p.quote :: (p.value ++ p.quote :: rest))
      = p.quote :: (p.value ++ p.quote :: rest) := by
    rw [Text.trimStart_append (nonblank_spaces p.isSpaces_afterEquals),
      Text.trimStart_cons (isBlank_quote p)]
  rw [valueBehind?, afterEquals?_of_cons hequals, if_pos rfl, Option.bind_some,
    quoted?_of_cons hquote, if_pos p.isQuote, Text.splitAt?_append p.quote_notMem]
  rfl

/-- **Behind the word in a key the value of the pair is read**, if the key ends with the word, or
    with blanks behind it. -/
theorem valueBehind?_key (p : QuotedPair) {behind : List Char} (h : '=' ∉ behind)
    (rest : List Char) :
    valueBehind? (behind ++ (p.separator ++ (p.value ++ p.quote :: rest)))
      = if Text.nonblank behind = [] then some p.value else none := by
  rcases Text.trimStart_append_cases behind (p.separator ++ (p.value ++ p.quote :: rest)) with
    ⟨hblank, htrim⟩ | ⟨c, more, hc, -, hnonblank, htrim⟩
  · rw [if_pos hblank, ← valueBehind?_separator p rest, valueBehind?, valueBehind?, afterEquals?,
      afterEquals?, htrim]
  · have hne : c ≠ '=' := fun heq => h (heq ▸ hc)
    rw [valueBehind?, afterEquals?_of_cons htrim, if_neg hne, hnonblank, if_neg nofun]
    rfl

/-- The quote that ends a value is taken for one that opens one, if nothing but blanks stands in
    front of it. -/
theorem quoted?_value (p : QuotedPair) {behind : List Char} (hdouble : '"' ∉ behind)
    (hsingle : '\x27' ∉ behind) (rest : List Char) :
    quoted? (behind ++ p.quote :: rest)
      = if Text.nonblank behind = [] then (Text.splitAt? p.quote rest).map Prod.fst else none := by
  rcases Text.trimStart_append_cases behind (p.quote :: rest) with
    ⟨hblank, htrim⟩ | ⟨c, more, hc, -, hnonblank, htrim⟩
  · rw [Text.trimStart_cons (isBlank_quote p)] at htrim
    rw [quoted?_of_cons htrim, if_pos p.isQuote, if_pos hblank]
  · have hquote : ¬ (c = '"' ∨ c = '\x27') := by
      rintro (rfl | rfl)
      · exact hdouble hc
      · exact hsingle hc
    rw [quoted?_of_cons htrim, if_neg hquote, hnonblank, if_neg nofun]

/-- **Behind the word in a value something is read** only if an equals sign stands there with
    nothing but blanks around it, and then it is what stands behind the value, up to the next such
    quote. -/
theorem valueBehind?_value (p : QuotedPair) {behind : List Char} (hdouble : '"' ∉ behind)
    (hsingle : '\x27' ∉ behind) (rest : List Char) :
    valueBehind? (behind ++ p.quote :: rest)
      = if Text.nonblank behind = ['='] then (Text.splitAt? p.quote rest).map Prod.fst
        else none := by
  rcases Text.trimStart_append_cases behind (p.quote :: rest) with
    ⟨hblank, htrim⟩ | ⟨c, more, -, hmore, hnonblank, htrim⟩
  · have hne : p.quote ≠ '=' := by
      rcases p.isQuote with h | h <;> rw [h] <;> decide
    rw [Text.trimStart_cons (isBlank_quote p)] at htrim
    rw [valueBehind?, afterEquals?_of_cons htrim, if_neg hne, hblank, if_neg nofun]
    rfl
  · rw [valueBehind?, afterEquals?_of_cons htrim, hnonblank]
    by_cases hc : c = '='
    · subst hc
      simp only [if_true, Option.bind_some, List.cons.injEq, true_and]
      exact quoted?_value p (fun h => hdouble (hmore h)) (fun h => hsingle (hmore h)) rest
    · simp only [hc, if_false, List.cons.injEq, false_and]
      rfl

/-! ### Whole declarations -/

/-- What is read as the value of a word in pairs with spaces behind them.  The first pair that holds
    the word decides.  If it is in its key, and nothing but blanks behind it, that is the value of
    the pair; and if it is in its value, and nothing but an equals sign and blanks behind it, it is
    what stands behind the pair, up to the next quote of its kind. -/
def reported? (word spaces : List Char) : List SpacedPair → Option (List Char)
  | [] => none
  | p :: ps =>
    (Text.after? word p.key).elim
      ((Text.after? word p.value).elim (reported? word spaces ps) fun behind =>
        if Text.nonblank behind = ['='] then
          (Text.splitAt? p.quote (ps.flatMap SpacedPair.text ++ spaces)).map Prod.fst
        else none)
      fun behind => if Text.nonblank behind = [] then some p.value else none

/-- Pairs in front of a text are the first one in front of the others. -/
theorem flatMap_text_append (p : SpacedPair) (ps : List SpacedPair) (rest : List Char) :
    (p :: ps).flatMap SpacedPair.text ++ rest
      = p.spaces ++ (p.toQuotedPair.text ++ (ps.flatMap SpacedPair.text ++ rest)) := by
  simp [SpacedPair.text]

/-- A key holds only characters that belong to names. -/
theorem QuotedPair.notMem_key (p : QuotedPair) {c : Char} (h : isNameSymbol c = false) :
    c ∉ p.key := by
  intro hc
  obtain ⟨first, cs, hkey, hfirst, hcs⟩ := p.isName_key.exists_cons
  rw [hkey, List.mem_cons] at hc
  rcases hc with rfl | hc
  · rw [isNameSymbol, hfirst] at h
    cases h
  · cases h.symm.trans (hcs c hc)

/-- **What is read as the value of a word** in the pairs of a declaration. -/
theorem pairValue?_pairs {word spaces : List Char} (hword : Inseparable word)
    (hspaces : IsSpaces spaces) {pairs : List SpacedPair}
    (hvalues : ∀ p ∈ pairs, '"' ∉ p.value ∧ '\x27' ∉ p.value) :
    pairValue? word (pairs.flatMap SpacedPair.text ++ spaces) = reported? word spaces pairs := by
  rw [pairValue?_eq]
  induction pairs with
  | nil =>
    rw [List.flatMap_nil, List.nil_append, hword.after?_spaces hspaces]
    rfl
  | cons p ps ih =>
    rw [List.forall_mem_cons] at hvalues
    rw [flatMap_text_append,
      Text.after?_of_notMem hword.ne_nil (hword.notMem_spaces p.isSpaces_spaces),
      after?_pair hword, reported?]
    cases hkey : Text.after? word p.key with
    | some behind =>
      have hequals : '=' ∉ behind := fun h =>
        p.notMem_key (by decide) ((Text.suffix_of_after? hkey).subset h)
      exact valueBehind?_key p.toQuotedPair hequals _
    | none =>
      cases hvalue : Text.after? word p.value with
      | some behind =>
        have hsub := (Text.suffix_of_after? hvalue).subset
        exact valueBehind?_value p.toQuotedPair (fun h => hvalues.1.1 (hsub h))
          (fun h => hvalues.1.2 (hsub h)) _
      | none => exact ih hvalues.2

/-- What is read is the value of the first pair with the word as its key, if no pair in front of that
    holds the word. -/
theorem reported?_eq_find? {word : List Char} (hword : word ≠ []) (spaces : List Char)
    {pairs : List SpacedPair}
    (h : ∀ p ∈ pairs.takeWhile (·.key ≠ word), ¬ word <:+: p.key ∧ ¬ word <:+: p.value) :
    reported? word spaces pairs
      = (pairs.find? (·.key = word)).map fun p => p.value := by
  induction pairs with
  | nil => rfl
  | cons p ps ih =>
    by_cases hkey : p.key = word
    · rw [reported?, hkey, Text.after?_self hword, List.find?_cons_of_pos (by simpa using hkey)]
      rfl
    · rw [List.takeWhile_cons_of_pos (by simpa using hkey), List.forall_mem_cons] at h
      rw [reported?, Text.after?_eq_none_iff.2 h.1.1, Text.after?_eq_none_iff.2 h.1.2,
        List.find?_cons_of_neg (by simpa using hkey)]
      exact ih h.2

/-- A mark without separators occurs in pairs only if it does in a key or a value. -/
theorem not_infix_pairs {mark spaces : List Char} (hmark : Inseparable mark)
    (hspaces : IsSpaces spaces) {pairs : List SpacedPair}
    (h : ∀ p ∈ pairs, ¬ mark <:+: p.key ∧ ¬ mark <:+: p.value) :
    ¬ mark <:+: pairs.flatMap SpacedPair.text ++ spaces := by
  rw [← Text.after?_eq_none_iff]
  induction pairs with
  | nil => exact hmark.after?_spaces hspaces
  | cons p ps ih =>
    rw [List.forall_mem_cons] at h
    rw [flatMap_text_append,
      Text.after?_of_notMem hmark.ne_nil (hmark.notMem_spaces p.isSpaces_spaces), after?_pair hmark,
      Text.after?_eq_none_iff.2 h.1.1, Text.after?_eq_none_iff.2 h.1.2]
    exact ih h.2

/-- Pairs begin with a space, if there are any. -/
theorem head?_pairs {spaces : List Char} (hspaces : IsSpaces spaces) (pairs : List SpacedPair) :
    (pairs.flatMap SpacedPair.text ++ spaces).head?.all Text.isBlank := by
  cases pairs with
  | nil =>
    cases spaces with
    | nil => rfl
    | cons c spaces => exact isBlank_of_isSpace (hspaces c List.mem_cons_self)
  | cons p ps =>
    rw [flatMap_text_append]
    cases hfront : p.spaces with
    | nil => exact absurd hfront p.spaces_ne_nil
    | cons c cs =>
      exact isBlank_of_isSpace (p.isSpaces_spaces c (hfront ▸ List.mem_cons_self))

/-- The word that the encoding of a document is looked for by. -/
def encodingKey : List Char := "encoding".toList

theorem inseparable_encodingKey : Inseparable encodingKey where
  ne_nil := by decide
  spaces := List.all_iff_forall_prop.1 (by decide)
  equals := by decide
  double := by decide
  single := by decide

/-- **A declaration is scanned as what is reported of its pairs**, and that is the value of the pair
    with the encoding, unless the word occurs in a pair in front of that. -/
theorem scanText_pairs {pairs : List SpacedPair} {spaces : List Char}
    (hvalues : ∀ p ∈ pairs, '"' ∉ p.value ∧ '\x27' ∉ p.value ∧ ¬ ['?', '>'] <:+: p.value)
    (hspaces : IsSpaces spaces) (rest : List Char) :
    scanText ("<?xml".toList ++ (pairs.flatMap SpacedPair.text ++ (spaces ++ ("?>".toList ++ rest))))
      = (.declaration ((reported? encodingKey spaces pairs).map String.ofList) :: (scanText rest).1,
          (scanText rest).2) ∧
    ((∀ p ∈ pairs.takeWhile (·.key ≠ encodingKey),
        ¬ encodingKey <:+: p.key ∧ ¬ encodingKey <:+: p.value) →
      reported? encodingKey spaces pairs
        = (pairs.find? (·.key = encodingKey)).map fun p => p.value) := by
  refine ⟨?_, reported?_eq_find? inseparable_encodingKey.ne_nil spaces⟩
  let contents := 'x' :: 'm' :: 'l' :: (pairs.flatMap SpacedPair.text ++ spaces)
  have hfree : ¬ ['?', '>'] <:+: contents := by
    have hmark : Inseparable ['?', '>'] :=
      ⟨by decide, List.all_iff_forall_prop.1 (by decide), by decide, by decide, by decide⟩
    have hpairs := not_infix_pairs hmark hspaces fun p hp =>
      ⟨fun h => p.notMem_key (by decide) (h.subset List.mem_cons_self), (hvalues p hp).2.2⟩
    exact mt (Text.infix_of_infix_append ['x', 'm', 'l'] (by decide)) hpairs
  have hdeclaration : declaration? contents = some (reported? encodingKey spaces pairs) := by
    rw [declaration?, if_pos (head?_pairs hspaces pairs)]
    exact congrArg some (pairValue?_pairs inseparable_encodingKey hspaces fun p hp =>
      ⟨(hvalues p hp).1, (hvalues p hp).2.1⟩)
  have htext : "<?xml".toList ++ (pairs.flatMap SpacedPair.text ++ (spaces ++ ("?>".toList ++ rest)))
      = '<' :: '?' :: (contents ++ (['?', '>'] ++ rest)) := by
    have hfront : "<?xml".toList = ['<', '?', 'x', 'm', 'l'] := by decide
    have hback : "?>".toList = ['?', '>'] := by decide
    rw [hfront, hback]
    simp [contents]
  have hdelimited := delimited_append ['?'] '>' (by decide) hfree .instruction
    ('<' :: '?' :: (contents ++ (['?', '>'] ++ rest))) rest
  have hread : readToken '<' ('?' :: (contents ++ (['?', '>'] ++ rest)))
      = .ok (.instruction contents, rest) := by
    rw [readToken, if_pos rfl]
    exact congrArg (Except.map fun parts => (Token.instruction parts.1, parts.2)) hdelimited
  rw [htext, scanText_token hread, Token.events, hdeclaration]
  rfl

/-- The word may occur in a pair behind the one with the encoding. -/
theorem scanText_pairs_behind :
    ∃ pairs : List SpacedPair,
      pairs.map (fun p => p.content) = [("version".toList, "1.0".toList),
        ("encoding".toList, "x".toList), ("x-encoding".toList, "encoding=".toList)] ∧
      (∀ p ∈ pairs, '"' ∉ p.value ∧ '\x27' ∉ p.value ∧ ¬ ['?', '>'] <:+: p.value) ∧
      IsSpaces ['\n'] ∧
      scanText "<?xml version='1.0'\tencoding = \"x\" x-encoding='encoding='\n?>".toList
        = ([.declaration (some "x"), .endDocument], none) := by
  let pairs : List SpacedPair :=
    [⟨⟨"version".toList, [], [], '\x27', "1.0".toList, by decide, by decide, by decide, .inr rfl,
        by decide⟩, [' '], by decide, by decide⟩,
      ⟨⟨"encoding".toList, [' '], [' '], '"', "x".toList, by decide, by decide, by decide, .inl rfl,
        by decide⟩, ['\t'], by decide, by decide⟩,
      ⟨⟨"x-encoding".toList, [], [], '\x27', "encoding=".toList, by decide, by decide, by decide,
        .inr rfl, by decide⟩, [' '], by decide, by decide⟩]
  have hvalues : ∀ p ∈ pairs, '"' ∉ p.value ∧ '\x27' ∉ p.value ∧ ¬ ['?', '>'] <:+: p.value := by
    decide +kernel
  have hspaces : IsSpaces ['\n'] := by decide
  obtain ⟨hscan, hfind⟩ := scanText_pairs hvalues hspaces []
  have hfirst : reported? encodingKey ['\n'] pairs = some ['x'] := hfind (by decide +kernel)
  have htext : "<?xml".toList ++ (pairs.flatMap SpacedPair.text ++ (['\n'] ++ ("?>".toList ++ [])))
      = "<?xml version='1.0'\tencoding = \"x\" x-encoding='encoding='\n?>".toList := by
    decide +kernel
  rw [hfirst, htext, scanText_nil] at hscan
  exact ⟨pairs, rfl, hvalues, hspaces, hscan⟩

/-- The word is found in another key, and its value is taken for the encoding. -/
theorem exists_scanText_pairs_ne :
    ∃ pairs : List SpacedPair,
      (pairs.map fun p => p.key).Nodup ∧
      (∀ p ∈ pairs, '"' ∉ p.value ∧ '\x27' ∉ p.value ∧ ¬ ['?', '>'] <:+: p.value) ∧
      "<?xml".toList ++ (pairs.flatMap SpacedPair.text ++ "?><r/>".toList)
        = "<?xml version='1.0' x-encoding='a' encoding='b'?><r/>".toList ∧
      (pairs.find? (·.key = encodingKey)).map (fun p => p.value) = some ['b'] ∧
      scanText "<?xml version='1.0' x-encoding='a' encoding='b'?><r/>".toList
        = ([.declaration (some "a"), .startElement "r" [], .endElement "r", .endDocument], none) := by
  let pairs : List SpacedPair :=
    [⟨⟨"version".toList, [], [], '\x27', "1.0".toList, by decide, by decide, by decide, .inr rfl,
        by decide⟩, [' '], by decide, by decide⟩,
      ⟨⟨"x-encoding".toList, [], [], '\x27', ['a'], by decide, by decide, by decide, .inr rfl,
        by decide⟩, [' '], by decide, by decide⟩,
      ⟨⟨"encoding".toList, [], [], '\x27', ['b'], by decide, by decide, by decide, .inr rfl,
        by decide⟩, [' '], by decide, by decide⟩]
  exact ⟨pairs, by decide +kernel, by decide +kernel, by decide +kernel, by decide +kernel,
    by decide +kernel⟩

end Markup

end XmlQuery
