import XmlQuery.Markup.Reference

namespace XmlQuery

/-!
# Marks and references that are read back

A section that does not hold its own mark ends at the mark behind it.  A text that is written with
references is read back from them, and what is written holds none of the characters that would end
it.

* `Text.splitAround?_replace` — what stands behind a mark does not matter for where it is found.
* `Text.splitAround?_append` — a part that does not hold the mark ends where the mark begins.
* `Markup.Reference.decode_flatMap` — escaping that can be undone for each character can be undone
  for a text.
* `Markup.Reference.decode_escapeText`, `Markup.Reference.decode_escapeAttribute` — hence both ways
  of escaping are undone.
* `Markup.Reference.lt_notMem_escapeText`, `Markup.Reference.quote_notMem_escapeAttribute` — what
  is escaped does not hold what would end it.
* `Markup.Reference.Escapes` — what a way to escape has to keep to; `escapes_text_and_attribute`
  says that both do.
-/

/-! ### Marks -/

namespace Text

variable {α : Type}

/-- A mark whose last symbol stands in it only once does not begin in a nonempty part that does not
    hold it: it would have to end inside of the mark that follows. -/
theorem not_prefix_append {before part : List α} {last : α} (hlast : last ∉ before)
    (hne : part ≠ []) (hpart : ¬ before ++ [last] <:+: part) (rest : List α) :
    ¬ before ++ [last] <+: part ++ (before ++ [last] ++ rest) := by
  intro hfront
  rcases List.prefix_or_prefix_of_prefix hfront (List.prefix_append part _) with h | ⟨k, hk⟩
  · exact hpart h.isInfix
  · rcases List.eq_nil_or_concat k with rfl | ⟨k', a, rfl⟩
    · rw [List.append_nil] at hk
      exact hpart (hk ▸ List.infix_refl part)
    · -- what the mark has behind the part begins the mark again, so its last symbol comes early
      rw [List.concat_eq_append, ← List.append_assoc, List.append_singleton_inj] at hk
      obtain ⟨rfl, rfl⟩ := hk
      rw [List.append_assoc part, List.prefix_append_right_inj, ← List.append_assoc part,
        List.append_assoc _ [a]] at hfront
      have hshort : (k' ++ [a]).length ≤ (part ++ k').length := by
        have := List.length_pos_iff.2 hne
        simp only [List.length_append, List.length_singleton]
        omega
      have hearly := List.prefix_of_prefix_length_le hfront (List.prefix_append _ _) hshort
      exact hlast (hearly.subset (List.mem_append_right _ (List.mem_singleton_self a)))

/-- A mark that does not begin in a part stands behind it. -/
theorem infix_of_infix_append {first : α} {mark part : List α} (before : List α)
    (hfirst : first ∉ before) (h : first :: mark <:+: before ++ part) :
    first :: mark <:+: part := by
  induction before with
  | nil => exact h
  | cons c before ih =>
    rw [List.mem_cons, not_or] at hfirst
    rw [List.cons_append, List.infix_cons_iff, List.cons_prefix_cons] at h
    rcases h with ⟨heq, -⟩ | h
    · exact absurd heq hfirst.1
    · exact ih hfirst.2 h

/-- A mark that does not end with a symbol stands before it. -/
theorem infix_of_infix_concat {last a : α} {part : List α} (mark : List α) (hlast : last ≠ a)
    (h : mark ++ [last] <:+: part ++ [a]) : mark ++ [last] <:+: part := by
  rw [List.infix_concat_iff, List.suffix_concat_iff] at h
  rcases h with (hnil | ⟨t, ht, -⟩) | h
  · cases (List.append_eq_nil_iff.1 hnil).2
  · rw [List.append_singleton_inj] at ht
    exact absurd ht.2 hlast
  · exact h

variable [DecidableEq α]

/-- **Where a sequence is split does not depend on what stands behind the mark.** -/
theorem splitAround?_replace {mark cs before after : List α}
    (h : splitAround? mark cs = some (before, after)) (more : List α) :
    splitAround? mark (before ++ mark ++ more) = some (before, more) := by
  induction cs generalizing before with
  | nil =>
    rw [splitAround?] at h
    split at h
    · cases h
      exact splitAround?_of_prefix mark more
    · cases h
  | cons c cs ih =>
    rw [splitAround?] at h
    split at h
    · cases h
      exact splitAround?_of_prefix mark more
    · rename_i hhead
      split at h
      · rename_i before' after' hsplit
        cases h
        -- a mark that began here would end before the one that was found does
        have hnot : ¬ mark <+: c :: (before' ++ mark ++ more) := by
          intro hfront
          have hshort : mark.length ≤ (c :: (before' ++ mark)).length := by
            simp only [List.length_cons, List.length_append]
            omega
          have hwithin := List.prefix_of_prefix_length_le hfront
            (List.prefix_append (c :: (before' ++ mark)) more) hshort
          refine hhead (hwithin.trans ?_)
          rw [splitAround?_eq_append hsplit]
          exact List.prefix_append (c :: (before' ++ mark)) after
        rw [List.cons_append, List.cons_append, splitAround?, if_neg hnot, ih hsplit]
      · cases h

/-- **A part that does not hold the mark ends where the mark begins**, if the last symbol of the
    mark stands in it only once. -/
theorem splitAround?_append (before part : List α) (last : α) (hlast : last ∉ before)
    (hpart : ¬ before ++ [last] <:+: part) (rest : List α) :
    splitAround? (before ++ [last]) (part ++ (before ++ [last] ++ rest)) = some (part, rest) := by
  induction part with
  | nil => exact splitAround?_of_prefix _ rest
  | cons c part ih =>
    have hhead := not_prefix_append hlast (List.cons_ne_nil c part) hpart rest
    -- the mark begins neither here nor anywhere in the rest of the part
    rw [List.infix_cons_iff, not_or] at hpart
    rw [List.cons_append] at hhead ⊢
    rw [splitAround?, if_neg hhead, ih hpart.2]

/-- Before a symbol that ends a sequence stands what comes before the first of its kind. -/
theorem splitAt?_concat (mark : α) (cs : List α) :
    (splitAt? mark (cs ++ [mark])).map Prod.fst = some (cs.takeWhile (· != mark)) := by
  induction cs with
  | nil => simp [splitAt?]
  | cons c cs ih =>
    rw [List.cons_append, splitAt?]
    by_cases hc : c = mark
    · simp [hc]
    · obtain ⟨parts, hparts, hbefore⟩ := Option.map_eq_some_iff.1 ih
      simp [hc, hparts, hbefore]

end Text

/-! ### References -/

namespace Markup.Reference

/-- A reference is read as the character that its body stands for. -/
theorem decode_reference (body : List Char) {c : Char} (hbody : ';' ∉ body)
    (h : resolve? body = some c) (rest : List Char) :
    decode ('&' :: (body ++ ';' :: rest)) = c :: decode rest := by
  rw [decode_ampersand_cons, read?, Text.splitAt?_append hbody]
  simp only [h, Option.map_some]

/-- Escaping that can be undone for each character can be undone for a text, whatever follows. -/
theorem decode_flatMap_append {escape : Char → List Char}
    (h : ∀ c rest, decode (escape c ++ rest) = c :: decode rest) (cs rest : List Char) :
    decode (cs.flatMap escape ++ rest) = cs ++ decode rest := by
  induction cs with
  | nil => rfl
  | cons c cs ih => rw [List.flatMap_cons, List.append_assoc, h, ih, List.cons_append]

/-- Escaping that can be undone for each character can be undone for a text. -/
theorem decode_flatMap {escape : Char → List Char}
    (h : ∀ c rest, decode (escape c ++ rest) = c :: decode rest) (cs : List Char) :
    decode (cs.flatMap escape) = cs := by
  have happend := decode_flatMap_append h cs []
  rwa [List.append_nil, decode, List.append_nil] at happend

/-- A character of character data is read back. -/
theorem decode_textChar (c : Char) (rest : List Char) :
    decode (textChar c ++ rest) = c :: decode rest := by
  unfold textChar
  split
  · rename_i hc
    rw [hc]
    exact decode_reference ['l', 't'] (by decide) rfl rest
  split
  · rename_i hc
    rw [hc]
    exact decode_reference ['g', 't'] (by decide) rfl rest
  split
  · rename_i hc
    rw [hc]
    exact decode_reference ['a', 'm', 'p'] (by decide) rfl rest
  · rename_i hc
    exact decode_cons_of_ne hc rest

/-- A character of an attribute value is read back. -/
theorem decode_attributeChar (c : Char) (rest : List Char) :
    decode (attributeChar c ++ rest) = c :: decode rest := by
  unfold attributeChar
  split
  · rename_i hc
    rw [hc]
    exact decode_reference ['l', 't'] (by decide) rfl rest
  split
  · rename_i hc
    rw [hc]
    exact decode_reference ['a', 'm', 'p'] (by decide) rfl rest
  rename_i hamp
  split
  · rename_i hc
    rw [hc]
    exact decode_reference ['q', 'u', 'o', 't'] (by decide) rfl rest
  · exact decode_cons_of_ne hamp rest

/-- **Character data is read back from what is escaped.** -/
theorem decode_escapeText (cs : List Char) : decode (escapeText cs) = cs :=
  decode_flatMap decode_textChar cs

/-- **An attribute value is read back from what is escaped.** -/
theorem decode_escapeAttribute (cs : List Char) : decode (escapeAttribute cs) = cs :=
  decode_flatMap decode_attributeChar cs

/-- No character of character data is written with an angle. -/
theorem notMem_textChar (c : Char) : '<' ∉ textChar c ∧ '>' ∉ textChar c := by
  unfold textChar
  split
  · decide
  rename_i hlt
  split
  · decide
  rename_i hgt
  split
  · decide
  · rw [List.mem_singleton, List.mem_singleton]
    exact ⟨Ne.symm hlt, Ne.symm hgt⟩

/-- No character of an attribute value is written with the one that begins markup, or with the one
    that ends the value. -/
theorem notMem_attributeChar (c : Char) : '<' ∉ attributeChar c ∧ '"' ∉ attributeChar c := by
  unfold attributeChar
  split
  · decide
  rename_i hlt
  split
  · decide
  split
  · decide
  · rename_i hquote
    rw [List.mem_singleton, List.mem_singleton]
    exact ⟨Ne.symm hlt, Ne.symm hquote⟩

/-- What no character is written with does not stand in what a text is written as. -/
theorem notMem_flatMap {escape : Char → List Char} {a : Char} (h : ∀ c, a ∉ escape c)
    (cs : List Char) : a ∉ cs.flatMap escape := by
  intro hmem
  obtain ⟨c, -, hc⟩ := List.mem_flatMap.1 hmem
  exact h c hc

/-- What character data is escaped as begins no markup. -/
theorem lt_notMem_escapeText (cs : List Char) : '<' ∉ escapeText cs :=
  notMem_flatMap (fun c => (notMem_textChar c).1) cs

/-- What an attribute value is escaped as does not end it. -/
theorem quote_notMem_escapeAttribute (cs : List Char) : '"' ∉ escapeAttribute cs :=
  notMem_flatMap (fun c => (notMem_attributeChar c).2) cs

/-! ### Ways to escape -/

/-- What a way to escape texts has to keep to, so that it can stand between other pieces of a
    document: it is undone by decoding, also in front of any text, it goes over a text piece by
    piece, and it writes none of `marks`. -/
structure Escapes (escape : List Char → List Char) (marks : List Char) : Prop where
  undone : ∀ s, decode (escape s) = s
  undone_append : ∀ s t, decode (escape s ++ t) = s ++ decode t
  append : ∀ s t, escape (s ++ t) = escape s ++ escape t
  free : ∀ s, ∀ mark ∈ marks, mark ∉ escape s

/-- What is so for each character is so for texts. -/
theorem Escapes.flatMap {escape : Char → List Char} {marks : List Char}
    (hundone : ∀ c rest, decode (escape c ++ rest) = c :: decode rest)
    (hfree : ∀ c, ∀ mark ∈ marks, mark ∉ escape c) :
    Escapes (fun cs => cs.flatMap escape) marks where
  undone := decode_flatMap hundone
  undone_append := decode_flatMap_append hundone
  append _ _ := List.flatMap_append
  free s mark hmark := notMem_flatMap (fun c => hfree c mark hmark) s

/-- **Escaping is safe and undone by decoding.**  Character data is written without angles, and
    attribute values without `<` and the double quote that ends them.  Either is read back as it
    was, also in front of any other text, which is read as it would be alone. -/
theorem escapes_text_and_attribute :
    Escapes escapeText ['<', '>'] ∧ Escapes escapeAttribute ['<', '"'] := by
  refine ⟨.flatMap decode_textChar fun c => ?text, .flatMap decode_attributeChar fun c => ?value⟩
  case text =>
    obtain ⟨hlt, hgt⟩ := notMem_textChar c
    simp [hlt, hgt]
  case value =>
    obtain ⟨hlt, hquote⟩ := notMem_attributeChar c
    simp [hlt, hquote]

/-- An ampersand is escaped where it begins a reference, too. -/
example : escapeText ['&', 'l', 't', ';'] = ['&', 'a', 'm', 'p', ';', 'l', 't', ';'] := by decide

end Markup.Reference

end XmlQuery
