import XmlQuery.Text.Utf8

namespace XmlQuery.Utf8

/-!
# Slices

A text is cut by offsets into its bytes.  An offset within a character is no place to cut at.

* `Span` — a stretch of a byte string.
* `splitAtByte?` — the characters before and after an offset.
* `slice?` — the characters between two offsets, if both are between characters and in order.
* `IsBoundary`, `isSome_slice?_iff` — where a text can be cut.
-/

/-- A stretch of a byte string, from the offset `first` up to, and without, the offset `last`. -/
structure Span where
  first : Nat
  last : Nat
  deriving DecidableEq, Repr

/-- The characters before and after a byte offset, or `none` if it is within a character or beyond
    the end. -/
def splitAtByte? : Nat → List Char → Option (List Char × List Char)
  | 0, cs => some ([], cs)
  | _ + 1, [] => none
  | n + 1, c :: cs =>
    if (encodeChar c).length ≤ n + 1 then
      match splitAtByte? (n + 1 - (encodeChar c).length) cs with
      | some (front, rest) => some (c :: front, rest)
      | none => none
    else none

/-- The characters of a text that take up a stretch of its bytes, or `none` if its ends are out of
    order, or one of them is within a character or beyond the end. -/
def slice? (cs : List Char) (span : Span) : Option (List Char) :=
  if span.first ≤ span.last then
    match splitAtByte? span.first cs with
    | some (_, rest) =>
      match splitAtByte? (span.last - span.first) rest with
      | some (middle, _) => some middle
      | none => none
    | none => none
  else none

/-! ### Where a text can be cut -/

variable {cs front rest : List Char} {n : Nat} {span : Span}

/-- Every character has a first byte. -/
theorem exists_encodeChar_eq_cons (c : Char) : ∃ b bs, encodeChar c = b :: bs := by
  obtain ⟨b, bs, heq, -⟩ := head_encodeChar c []
  exact ⟨b, bs, by rw [← heq, List.append_nil]⟩

theorem encode_cons (c : Char) (cs : List Char) : encode (c :: cs) = encodeChar c ++ encode cs :=
  List.flatMap_cons

/-- Only no characters have no bytes. -/
theorem encode_eq_nil_iff : encode cs = [] ↔ cs = [] := by
  cases cs with
  | nil => simp [encode]
  | cons c cs =>
    obtain ⟨b, bs, heq⟩ := exists_encodeChar_eq_cons c
    simp [encode_cons, heq]

/-- A front that has bytes begins with the first character, and the other bytes are those of the
    other characters. -/
theorem cons_eq_append_iff {c : Char} :
    (c :: cs = front ++ rest ∧ n + 1 = (encode front).length) ↔
      ∃ front', front = c :: front' ∧ (encodeChar c).length ≤ n + 1 ∧ cs = front' ++ rest ∧
        n + 1 - (encodeChar c).length = (encode front').length := by
  constructor
  · rintro ⟨h, hn⟩
    cases front with
    | nil => cases hn
    | cons d front =>
      rw [List.cons_append, List.cons.injEq] at h
      obtain ⟨rfl, h⟩ := h
      rw [encode_cons, List.length_append] at hn
      exact ⟨front, rfl, by omega, h, by omega⟩
  · rintro ⟨front', rfl, hle, rfl, hn⟩
    refine ⟨rfl, ?_⟩
    rw [encode_cons, List.length_append]
    omega

/-- **A text is split at an offset exactly where characters end there.** -/
theorem splitAtByte?_eq_some_iff :
    splitAtByte? n cs = some (front, rest) ↔ cs = front ++ rest ∧ n = (encode front).length := by
  fun_induction splitAtByte? n cs generalizing front rest with
  | case1 cs =>
    rw [eq_comm (a := 0), List.length_eq_zero_iff, encode_eq_nil_iff]
    constructor
    · intro h
      cases h
      exact ⟨rfl, rfl⟩
    · rintro ⟨h, rfl⟩
      rw [h, List.nil_append]
  | case2 n =>
    refine iff_of_false nofun ?_
    rintro ⟨h, hn⟩
    rw [(List.append_eq_nil_iff.1 h.symm).1] at hn
    cases hn
  | case3 n c cs hle front' rest' heq ih =>
    rw [cons_eq_append_iff]
    constructor
    · intro h
      cases h
      exact ⟨front', rfl, hle, ih.1 heq⟩
    · rintro ⟨front, rfl, -, h⟩
      cases heq.symm.trans (ih.2 h)
      rfl
  | case4 n c cs hle hnone ih =>
    rw [cons_eq_append_iff]
    refine iff_of_false nofun ?_
    rintro ⟨front, -, -, h⟩
    cases hnone.symm.trans (ih.2 h)
  | case5 n c cs hlt =>
    rw [cons_eq_append_iff]
    exact iff_of_false nofun fun ⟨_, _, hle, _⟩ => hlt hle

/-- **A slice is what stands between two offsets at which characters end.** -/
theorem slice?_eq_some_iff {middle : List Char} :
    slice? cs span = some middle ↔
      ∃ front back, cs = front ++ (middle ++ back) ∧ span.first = (encode front).length ∧
        span.last = (encode (front ++ middle)).length := by
  simp only [encode_append, List.length_append]
  constructor
  · intro h
    rw [slice?] at h
    split at h
    · rename_i hle
      split at h
      · rename_i front rest hfront
        split at h
        · rename_i middle back hmiddle
          cases h
          obtain ⟨rfl, hfirst⟩ := splitAtByte?_eq_some_iff.1 hfront
          obtain ⟨rfl, hlast⟩ := splitAtByte?_eq_some_iff.1 hmiddle
          exact ⟨front, back, rfl, hfirst, by omega⟩
        · cases h
      · cases h
    · cases h
  · rintro ⟨front, back, rfl, hfirst, hlast⟩
    have hmiddle : splitAtByte? (span.last - span.first) (middle ++ back) = some (middle, back) :=
      splitAtByte?_eq_some_iff.2 ⟨rfl, by omega⟩
    rw [slice?, if_pos (by omega), splitAtByte?_eq_some_iff.2 ⟨rfl, hfirst⟩]
    simp only [hmiddle]

/-- Whether a character of a text, or the whole of it, ends at an offset; the start counts too. -/
def IsBoundary (cs : List Char) (n : Nat) : Prop :=
  ∃ front, front <+: cs ∧ (encode front).length = n

/-- A place between characters is not beyond the end. -/
theorem IsBoundary.le (h : IsBoundary cs n) : n ≤ (encode cs).length := by
  obtain ⟨front, ⟨rest, rfl⟩, rfl⟩ := h
  rw [encode_append, List.length_append]
  exact Nat.le_add_right _ _

/-- **There is a slice exactly between two places in order that are between characters.** -/
theorem isSome_slice?_iff :
    (slice? cs span).isSome ↔
      span.first ≤ span.last ∧ IsBoundary cs span.first ∧ IsBoundary cs span.last := by
  rw [Option.isSome_iff_exists]
  constructor
  · rintro ⟨middle, h⟩
    obtain ⟨front, back, rfl, hfirst, hlast⟩ := slice?_eq_some_iff.1 h
    refine ⟨?_, ⟨front, List.prefix_append _ _, hfirst.symm⟩,
      ⟨front ++ middle, by rw [← List.append_assoc]; exact List.prefix_append _ _, hlast.symm⟩⟩
    rw [hfirst, hlast, encode_append, List.length_append]
    exact Nat.le_add_right _ _
  · rintro ⟨hle, ⟨front, hfront, hfirst⟩, ⟨whole, hwhole, hlast⟩⟩
    -- of two fronts, the one with no more bytes is a front of the other
    have hprefix : front <+: whole := by
      rcases List.prefix_or_prefix_of_prefix hfront hwhole with h | ⟨middle, rfl⟩
      · exact h
      · rw [← hfirst, ← hlast, encode_append, List.length_append] at hle
        have hnil : (encode middle).length = 0 := by omega
        rw [List.length_eq_zero_iff, encode_eq_nil_iff] at hnil
        simp only [hnil, List.append_nil, List.prefix_rfl]
    obtain ⟨middle, rfl⟩ := hprefix
    obtain ⟨back, rfl⟩ := hwhole
    exact ⟨middle, slice?_eq_some_iff.2
      ⟨front, back, List.append_assoc _ _ _, hfirst.symm, hlast.symm⟩⟩

/-- The second byte of a character of two bytes is no place to cut at. -/
example : slice? ['é', 'x'] ⟨2, 3⟩ = some ['x'] ∧ slice? ['é', 'x'] ⟨1, 3⟩ = none := by
  decide

end XmlQuery.Utf8
