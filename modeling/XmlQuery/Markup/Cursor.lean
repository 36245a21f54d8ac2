import XmlQuery.Markup.Symbol
import XmlQuery.Text.Split

namespace XmlQuery.Markup

/-!
# Cursors

A place in a byte string, from which to look ahead and to move on.

* `ByteSearch` — a way to look for a byte, whatever it is made of.
* `Cursor` — a byte string and a position in it, its end included.
* `Cursor.moveTo`, `Cursor.advance` — other places; no move goes past the end.
* `Cursor.skipSpaces`, `Cursor.readName?` — move past spaces, and past a name.
* `Cursor.findByte?`, `Cursor.find?` — where a byte, or a byte string, occurs next.
* `Cursor.le_of_findByte?`, `Cursor.le_of_find?` — what is found is between the cursor and the end.
-/

/-- What is used of a way to look for a byte, and what is relied on.  Both belong together: a search
    for more than a byte ends only because what is found lies ahead. -/
class ByteSearch where
  /-- How many bytes there are before the first occurrence of a byte. -/
  index? : UInt8 → List UInt8 → Option Nat
  exists_of_index? : ∀ {byte bytes n}, index? byte bytes = some n →
    ∃ before after, bytes = before ++ byte :: after ∧ byte ∉ before ∧ before.length = n
  notMem_of_index? : ∀ {byte bytes}, index? byte bytes = none → byte ∉ bytes

/-- Bytes are looked for one after the other unless told otherwise. -/
instance : ByteSearch where
  index? byte bytes := (Text.splitAt? byte bytes).map fun parts => parts.1.length
  exists_of_index? h := by
    obtain ⟨parts, hparts, rfl⟩ := Option.map_eq_some_iff.1 h
    obtain ⟨hbytes, hbefore⟩ := Text.splitAt?_eq_append hparts
    exact ⟨parts.1, parts.2, hbytes, hbefore, rfl⟩
  notMem_of_index? h := Text.splitAt?_eq_none_iff.1 (Option.map_eq_none_iff.1 h)

/-- A byte string and a position in it, its end included. -/
structure Cursor where
  input : List UInt8
  position : Nat
  position_le : position ≤ input.length

namespace Cursor

/-- The start of a byte string. -/
def ofBytes (input : List UInt8) : Cursor :=
  ⟨input, 0, Nat.zero_le _⟩

/-- The bytes from the cursor on. -/
def rest (c : Cursor) : List UInt8 :=
  c.input.drop c.position

/-- The byte at the cursor, or `none` at the end. -/
def peek? (c : Cursor) : Option UInt8 :=
  c.rest.head?

/-- Whether the cursor is at the end. -/
def atEnd (c : Cursor) : Bool :=
  c.rest.isEmpty

/-- The cursor at another position, or at the end if the position lies beyond it. -/
def moveTo (c : Cursor) (position : Nat) : Cursor :=
  ⟨c.input, min position c.input.length, Nat.min_le_right _ _⟩

/-- The cursor `count` bytes further on, or at the end. -/
def advance (c : Cursor) (count : Nat) : Cursor :=
  c.moveTo (c.position + count)

/-- The cursor after the spaces that it is at. -/
def skipSpaces (c : Cursor) : Cursor :=
  c.advance (c.rest.takeWhile isSpace).length

/-- Whether the bytes from the cursor on begin with `mark`. -/
def startsWith (c : Cursor) (mark : List UInt8) : Bool :=
  mark.isPrefixOf c.rest

/-- The name at the cursor, if there is one, and the cursor after it. -/
def readName? (c : Cursor) : Option (List UInt8 × Cursor) :=
  match Markup.readName? c.rest with
  | some (name, _) => some (name, c.advance name.length)
  | none => none

/-- The cursor stands before the bytes that are left. -/
theorem position_add_length_rest (c : Cursor) : c.position + c.rest.length = c.input.length := by
  have := c.position_le
  simp only [rest, List.length_drop]
  omega

/-- There is a byte at the cursor only before the end. -/
theorem position_lt_of_peek? {c : Cursor} {byte : UInt8} (h : c.peek? = some byte) :
    c.position < c.input.length := by
  obtain ⟨bytes, hrest⟩ := List.head?_eq_some_iff.1 h
  have := c.position_add_length_rest
  rw [hrest, List.length_cons] at this
  omega

/-- A cursor that is not at the end is before it. -/
theorem position_lt_of_atEnd {c : Cursor} (h : ¬ c.atEnd = true) : c.position < c.input.length := by
  have := c.position_add_length_rest
  rw [atEnd, List.isEmpty_iff, ← List.length_eq_zero_iff] at h
  omega

theorem position_moveTo_of_le {c : Cursor} {n : Nat} (h : n ≤ c.input.length) :
    (c.moveTo n).position = n :=
  Nat.min_eq_left h

/-! ### Looking ahead -/

/-- What the bytes from a cursor on begin with ends with the bytes at the latest. -/
theorem le_of_startsWith {c : Cursor} {mark : List UInt8} (h : c.startsWith mark = true) :
    c.position + mark.length ≤ c.input.length := by
  have := (List.isPrefixOf_iff_prefix.1 h).length_le
  have := c.position_add_length_rest
  omega

section Search

variable [ByteSearch]

/-- The position of the next occurrence of a byte. -/
def findByte? (c : Cursor) (byte : UInt8) : Option Nat :=
  (ByteSearch.index? byte c.rest).map (c.position + ·)

theorem exists_of_findByte? {c : Cursor} {byte : UInt8} {n : Nat} (h : c.findByte? byte = some n) :
    ∃ before after, c.rest = before ++ byte :: after ∧ byte ∉ before ∧
      c.position + before.length = n := by
  obtain ⟨k, hk, rfl⟩ := Option.map_eq_some_iff.1 h
  obtain ⟨before, after, hrest, hbefore, rfl⟩ := ByteSearch.exists_of_index? hk
  exact ⟨before, after, hrest, hbefore, rfl⟩

theorem notMem_of_findByte? {c : Cursor} {byte : UInt8} (h : c.findByte? byte = none) :
    byte ∉ c.rest :=
  ByteSearch.notMem_of_index? (Option.map_eq_none_iff.1 h)

/-- What is found is not before the cursor. -/
theorem le_of_findByte? {c : Cursor} {byte : UInt8} {n : Nat} (h : c.findByte? byte = some n) :
    c.position ≤ n ∧ n < c.input.length := by
  obtain ⟨before, after, hrest, -, rfl⟩ := exists_of_findByte? h
  have := c.position_add_length_rest
  rw [hrest, List.length_append, List.length_cons] at this
  omega

/-- What is found elsewhere than at the cursor is behind it. -/
theorem lt_of_findByte? {c : Cursor} {byte : UInt8} {n : Nat} (h : c.findByte? byte = some n)
    (hpeek : c.peek? ≠ some byte) : c.position < n := by
  obtain ⟨before, after, hrest, -, rfl⟩ := exists_of_findByte? h
  cases before with
  | nil => exact absurd (by rw [peek?, hrest]; rfl) hpeek
  | cons => exact Nat.lt_add_of_pos_right (Nat.succ_pos _)

/-- The position of the next occurrence of the byte string `first :: others`.  The search goes from
    one `first` to the next, and compares the whole string at each of them. -/
def search? (c : Cursor) (first : UInt8) (others : List UInt8) : Option Nat :=
  match _h : c.findByte? first with
  | none => none
  | some n =>
    if (c.moveTo n).startsWith (first :: others) then some n
    else (c.moveTo (n + 1)).search? first others
  termination_by c.input.length - c.position
  decreasing_by
    obtain ⟨hle, hlt⟩ := le_of_findByte? _h
    rw [position_moveTo_of_le hlt]
    exact Nat.sub_lt_sub_left (Nat.lt_of_le_of_lt hle hlt) (Nat.lt_succ_of_le hle)

/-- The position of the next occurrence of a byte string.  The empty one is not looked for. -/
def find? (c : Cursor) : List UInt8 → Option Nat
  | [] => none
  | first :: others => c.search? first others

theorem le_of_search? {c : Cursor} {first : UInt8} {others : List UInt8} {n : Nat}
    (h : c.search? first others = some n) :
    c.position ≤ n ∧ n + (first :: others).length ≤ c.input.length := by
  fun_induction search? c first others with
  | case1 => cases h
  | case2 c m hm hstarts =>
    cases h
    obtain ⟨hle, hlt⟩ := le_of_findByte? hm
    have hend := le_of_startsWith hstarts
    rw [position_moveTo_of_le (Nat.le_of_lt hlt)] at hend
    exact ⟨hle, hend⟩
  | case3 c m hm hstarts ih =>
    obtain ⟨hle, hlt⟩ := le_of_findByte? hm
    obtain ⟨hnext, hend⟩ := ih h
    rw [position_moveTo_of_le hlt] at hnext
    exact ⟨by omega, hend⟩

/-- What is found is not before the cursor, and ends with the bytes at the latest. -/
theorem le_of_find? {c : Cursor} {mark : List UInt8} {n : Nat} (h : c.find? mark = some n) :
    c.position ≤ n ∧ n + mark.length ≤ c.input.length := by
  cases mark with
  | nil => cases h
  | cons => exact le_of_search? h

end Search

end Cursor

end XmlQuery.Markup
