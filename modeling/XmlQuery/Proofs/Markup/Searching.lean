import Mathlib.Order.Bounds.Basic
import XmlQuery.Markup.Cursor
import XmlQuery.Proofs.Markup.Escaping
import XmlQuery.Text.Utf8

namespace XmlQuery

/-!
# Searching for a mark

A cursor looks for a byte string by going from one occurrence of its first byte to the next.  That
way it passes no occurrence, and stops at the first one there is.  So a section that does not hold
its own mark is read up to the mark that is written behind it, whatever the section ends with.

* `Text.OccursAt`, `Markup.Cursor.occurrences` — where a mark occurs, and where a cursor has it
  still ahead.
* `Markup.Cursor.occurrences_moveTo_succ` — a turn of the search passes none of them.
* `Markup.Cursor.isLeast_of_search?`, `Markup.Cursor.occurrences_eq_empty_of_search?` — hence what
  the search comes to.
* `Markup.Cursor.find?_eq_splitAround?` — the cursor stops where what is left would be split.
* `Markup.Cursor.find?_append` — a section ends where its mark begins.
-/

/-! ### Occurrences -/

namespace Text

variable {α : Type} {mark symbols : List α} {n : Nat}

/-- Whether a mark stands in a sequence behind the first `n` symbols of it. -/
def OccursAt (mark symbols : List α) (n : Nat) : Prop :=
  ∃ before after, symbols = before ++ mark ++ after ∧ before.length = n

theorem occursAt_iff (h : n ≤ symbols.length) :
    OccursAt mark symbols n ↔ mark <+: symbols.drop n := by
  constructor
  · rintro ⟨before, after, rfl, rfl⟩
    rw [List.append_assoc, List.drop_left]
    exact List.prefix_append mark after
  · rintro ⟨after, hafter⟩
    refine ⟨symbols.take n, after, ?_, List.length_take_of_le h⟩
    rw [List.append_assoc, hafter, List.take_append_drop]

/-- A mark does not begin where its first symbol does not stand. -/
theorem OccursAt.length_le {first : α} {others before after : List α}
    (h : OccursAt (first :: others) (before ++ after) n) (hfirst : first ∉ before) :
    before.length ≤ n := by
  obtain ⟨front, back, heq, rfl⟩ := h
  refine Nat.le_of_not_lt fun hlt => hfirst ?_
  have hfront : front ++ [first] <+: before ++ after := ⟨others ++ back, by simp [heq]⟩
  have hshort : (front ++ [first]).length ≤ before.length := by
    rw [List.length_append, List.length_singleton]
    exact hlt
  have hbefore := List.prefix_of_prefix_length_le hfront (List.prefix_append before after) hshort
  exact hbefore.subset (List.mem_append_right _ (List.mem_singleton_self first))

end Text

namespace Markup.Cursor

variable {c : Cursor} {mark others : List UInt8} {first : UInt8} {n : Nat}

/-- The positions at a cursor or behind it at which a byte string occurs. -/
def occurrences (c : Cursor) (mark : List UInt8) : Set Nat :=
  {n | c.position ≤ n ∧ Text.OccursAt mark c.input n}

/-- What is ahead of a cursor is in the bytes that are left. -/
theorem mem_occurrences_iff :
    n ∈ c.occurrences mark ↔ ∃ k, Text.OccursAt mark c.rest k ∧ c.position + k = n := by
  constructor
  · rintro ⟨hle, before, after, hinput, rfl⟩
    refine ⟨before.length - c.position, ⟨before.drop c.position, after, ?_, List.length_drop⟩,
      Nat.add_sub_cancel' hle⟩
    rw [rest, hinput, List.append_assoc, List.drop_append_of_le_length hle, List.append_assoc]
  · rintro ⟨k, ⟨before, after, hrest, rfl⟩, rfl⟩
    refine ⟨Nat.le_add_right _ _, c.input.take c.position ++ before, after, ?_, ?_⟩
    · rw [List.append_assoc, List.append_assoc, ← List.append_assoc before, ← hrest, rest,
        List.take_append_drop]
    · rw [List.length_append, List.length_take_of_le c.position_le]

/-- A comparison at a position tells whether there is an occurrence. -/
theorem startsWith_moveTo_iff (h : n ≤ c.input.length) :
    (c.moveTo n).startsWith mark = true ↔ Text.OccursAt mark c.input n := by
  rw [startsWith, List.isPrefixOf_iff_prefix, rest, position_moveTo_of_le h, Text.occursAt_iff h]
  rfl

section Search

variable [ByteSearch]

/-! ### Turns of the search -/

/-- No occurrence begins before the next occurrence of its first byte. -/
theorem le_of_mem_occurrences {m : Nat} (h : c.findByte? first = some n)
    (hm : m ∈ c.occurrences (first :: others)) : n ≤ m := by
  obtain ⟨before, after, hrest, hfirst, rfl⟩ := exists_of_findByte? h
  obtain ⟨k, hk, rfl⟩ := mem_occurrences_iff.1 hm
  rw [hrest] at hk
  exact Nat.add_le_add_left (hk.length_le hfirst) _

/-- Where the first byte does not occur, nothing does. -/
theorem occurrences_eq_empty_of_findByte? (h : c.findByte? first = none) :
    c.occurrences (first :: others) = ∅ := by
  refine Set.eq_empty_iff_forall_notMem.2 fun n hn => notMem_of_findByte? h ?_
  obtain ⟨k, ⟨before, after, hrest, -⟩, -⟩ := mem_occurrences_iff.1 hn
  rw [hrest]
  simp

/-- **A turn of the search passes no occurrence.**  It goes on one byte behind the place of the
    comparison, so an occurrence that overlaps with what has been compared is still ahead. -/
theorem occurrences_moveTo_succ (h : c.findByte? first = some n)
    (hstarts : ¬ (c.moveTo n).startsWith (first :: others) = true) :
    (c.moveTo (n + 1)).occurrences (first :: others) = c.occurrences (first :: others) := by
  obtain ⟨hle, hlt⟩ := le_of_findByte? h
  ext m
  show (c.moveTo (n + 1)).position ≤ m ∧ _ ↔ m ∈ c.occurrences (first :: others)
  rw [position_moveTo_of_le hlt]
  constructor
  · rintro ⟨hm, hoccurs⟩
    exact ⟨by omega, hoccurs⟩
  · intro hm
    have hne : n ≠ m := by
      rintro rfl
      exact hstarts ((startsWith_moveTo_iff (Nat.le_of_lt hlt)).2 hm.2)
    exact ⟨Nat.lt_of_le_of_ne (le_of_mem_occurrences h hm) hne, hm.2⟩

/-! ### What the search comes to -/

/-- **What the search stops at is the first occurrence.** -/
theorem isLeast_of_search? (h : c.search? first others = some n) :
    IsLeast (c.occurrences (first :: others)) n := by
  -- by the turns of the search: what each of them keeps is the set of occurrences ahead
  fun_induction search? c first others with
  | case1 => cases h
  | case2 c m hm hstarts =>
    cases h
    obtain ⟨hle, hlt⟩ := le_of_findByte? hm
    have hoccurs := (startsWith_moveTo_iff (Nat.le_of_lt hlt)).1 hstarts
    exact ⟨⟨hle, hoccurs⟩, fun k hk => le_of_mem_occurrences hm hk⟩
  | case3 c m hm hstarts ih =>
    rw [← occurrences_moveTo_succ hm hstarts]
    exact ih h

/-- **A search that stops nowhere has had no occurrence ahead.** -/
theorem occurrences_eq_empty_of_search? (h : c.search? first others = none) :
    c.occurrences (first :: others) = ∅ := by
  fun_induction search? c first others with
  | case1 c hnone => exact occurrences_eq_empty_of_findByte? hnone
  | case2 => cases h
  | case3 c m hm hstarts ih =>
    rw [← occurrences_moveTo_succ hm hstarts]
    exact ih h

theorem find?_eq_some_iff (hmark : mark ≠ []) :
    c.find? mark = some n ↔ IsLeast (c.occurrences mark) n := by
  cases mark with
  | nil => exact absurd rfl hmark
  | cons first others =>
    refine ⟨isLeast_of_search?, fun h => ?_⟩
    rw [find?]
    cases hfound : c.search? first others with
    | none => exact absurd h.1 (by simp [occurrences_eq_empty_of_search? hfound])
    | some m => rw [(isLeast_of_search? hfound).unique h]

theorem find?_eq_none_iff (hmark : mark ≠ []) :
    c.find? mark = none ↔ c.occurrences mark = ∅ := by
  cases mark with
  | nil => exact absurd rfl hmark
  | cons first others =>
    refine ⟨occurrences_eq_empty_of_search?, fun h => ?_⟩
    rw [find?]
    cases hfound : c.search? first others with
    | none => rfl
    | some m => exact absurd (isLeast_of_search? hfound).1 (by simp [h])

/-- **The cursor stops where the bytes that are left would be split.** -/
theorem find?_eq_splitAround? (c : Cursor) (hmark : mark ≠ []) :
    c.find? mark
      = (Text.splitAround? mark c.rest).map fun parts => c.position + parts.1.length := by
  cases hsplit : Text.splitAround? mark c.rest with
  | none =>
    refine (find?_eq_none_iff hmark).2 (Set.eq_empty_iff_forall_notMem.2 fun n hn => ?_)
    obtain ⟨k, ⟨before, after, hrest, -⟩, -⟩ := mem_occurrences_iff.1 hn
    exact Text.splitAround?_eq_none_iff.1 hsplit ⟨before, after, hrest.symm⟩
  | some parts =>
    have hparts := Text.splitAround?_eq_append hsplit
    refine (find?_eq_some_iff hmark).2
      ⟨mem_occurrences_iff.2 ⟨_, ⟨parts.1, parts.2, hparts, rfl⟩, rfl⟩, fun n hn => ?_⟩
    obtain ⟨k, ⟨before, after, hrest, rfl⟩, rfl⟩ := mem_occurrences_iff.1 hn
    exact Nat.add_le_add_left (Text.splitAround?_least hsplit hrest) _

/-! ### Ends of sections -/

/-- **A section that does not hold its own mark ends where the mark begins**, if the last byte of
    the mark stands in it only once.  Then no part of the mark at the end of the section begins an
    occurrence that goes on behind it. -/
theorem find?_append (before : List UInt8) {contents rest : List UInt8} (last : UInt8)
    (hlast : last ∉ before) (hcontents : ¬ before ++ [last] <:+: contents)
    (hrest : c.rest = contents ++ (before ++ [last] ++ rest)) :
    c.find? (before ++ [last]) = some (c.position + contents.length) := by
  rw [find?_eq_splitAround? c (List.concat_ne_nil last before), hrest,
    Text.splitAround?_append before contents last hlast hcontents, Option.map_some]

end Search

/-- The marks that end processing instructions, comments and CDATA sections. -/
def sectionEnds : List (List UInt8) :=
  [Utf8.encode ['?', '>'], Utf8.encode ['-', '-', '>'], Utf8.encode [']', ']', '>']]

theorem exists_last_of_mem_sectionEnds (h : mark ∈ sectionEnds) :
    ∃ before last, mark = before ++ [last] ∧ last ∉ before := by
  simp only [sectionEnds, List.mem_cons, List.not_mem_nil, or_false] at h
  rcases h with rfl | rfl | rfl
  · exact ⟨Utf8.encode ['?'], '>'.toUInt8, by decide, by decide⟩
  · exact ⟨Utf8.encode ['-', '-'], '>'.toUInt8, by decide, by decide⟩
  · exact ⟨Utf8.encode [']', ']'], '>'.toUInt8, by decide, by decide⟩

/-- **A cursor finds the first occurrence that it has ahead, and nothing exactly if it has none.**
    So the search from the start of a section that does not hold its own mark comes to the end of
    the section, also where the section ends with a part of the mark. -/
theorem find?_occurrences [ByteSearch] (c : Cursor) :
    (∀ mark, mark ≠ [] →
      (∀ n, c.find? mark = some n ↔ IsLeast (c.occurrences mark) n) ∧
        (c.find? mark = none ↔ c.occurrences mark = ∅)) ∧
    ∀ mark ∈ sectionEnds, ∀ contents rest, ¬ mark <:+: contents →
      c.rest = contents ++ (mark ++ rest) →
        c.find? mark = some (c.position + contents.length) := by
  refine ⟨fun mark hmark => ⟨fun n => find?_eq_some_iff hmark, find?_eq_none_iff hmark⟩, ?_⟩
  intro mark hmark contents rest hcontents hrest
  obtain ⟨before, last, rfl, hlast⟩ := exists_last_of_mem_sectionEnds hmark
  exact find?_append before last hlast hcontents hrest

/-- The contents `x]` of a CDATA section end with a part of the mark behind them, so that the
    brackets `]]]` are one run; its second bracket is where the mark is found. -/
theorem find?_occurrences_brackets :
    let c := (ofBytes (Utf8.encode "<![CDATA[x]]]>".toList)).moveTo 9
    let mark := Utf8.encode [']', ']', '>']
    let contents := Utf8.encode ['x', ']']
    mark ≠ [] ∧ mark ∈ sectionEnds ∧ ¬ mark <:+: contents ∧ c.rest = contents ++ (mark ++ []) ∧
      c.find? mark = some 11 ∧ IsLeast (c.occurrences mark) 11 := by
  intro c mark contents
  have hne : mark ≠ [] := by decide
  have hmem : mark ∈ sectionEnds := by decide
  have hcontents : ¬ mark <:+: contents := by decide
  have hrest : c.rest = contents ++ (mark ++ []) := by decide
  have hfound := (find?_occurrences c).2 mark hmem contents [] hcontents hrest
  exact ⟨hne, hmem, hcontents, hrest, hfound, (((find?_occurrences c).1 mark hne).1 11).1 hfound⟩

end Markup.Cursor

end XmlQuery
