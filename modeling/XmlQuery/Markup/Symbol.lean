namespace XmlQuery.Markup

/-!
# Names and spaces

What markup is made of, read off bytes or off characters alike: the rules ask only for the code
of a symbol, and from 0x80 on every code belongs to a name.  So a name ends at the same place in a
text and in its UTF-8 bytes.

* `Symbol` — bytes and characters, by their codes.
* `isSpace`, `isNameStart`, `isNameSymbol` — what stands between the parts of a tag, and what
  begins and goes on with a name.
* `skipSpaces`, `readName?` — take spaces, or a name, off the front.
* `IsName` — sequences that are a name as a whole.
-/

/-- Things that markup is written in. -/
class Symbol (α : Type) where
  /-- The number of a symbol; below 0x80 it is its ASCII code. -/
  code : α → Nat

instance : Symbol Char := ⟨Char.toNat⟩

instance : Symbol UInt8 := ⟨UInt8.toNat⟩

variable {α : Type} [Symbol α]

/-- Space, tab, line feed and carriage return. -/
def isSpace (a : α) : Bool :=
  let n := Symbol.code a
  n == 0x20 || n == 0x9 || n == 0xA || n == 0xD

/-- ASCII letters, the underscore, the colon, and all that is not ASCII. -/
def isNameStart (a : α) : Bool :=
  let n := Symbol.code a
  decide (0x41 ≤ n ∧ n ≤ 0x5A) || decide (0x61 ≤ n ∧ n ≤ 0x7A) || n == 0x5F || n == 0x3A
    || decide (0x80 ≤ n)

/-- What begins a name, ASCII digits, the hyphen and the full stop. -/
def isNameSymbol (a : α) : Bool :=
  let n := Symbol.code a
  isNameStart a || decide (0x30 ≤ n ∧ n ≤ 0x39) || n == 0x2D || n == 0x2E

/-- The symbols from the first one on that is not a space. -/
def skipSpaces (as : List α) : List α :=
  as.dropWhile isSpace

/-- The name at the front, as long as it goes, and what follows it. -/
def readName? : List α → Option (List α × List α)
  | [] => none
  | a :: as =>
    if isNameStart a then some (a :: as.takeWhile isNameSymbol, as.dropWhile isNameSymbol)
    else none

/-- Whether a sequence is a name as a whole. -/
def IsName (as : List α) : Prop :=
  readName? as = some (as, [])

/-- Reading a name loses nothing. -/
theorem readName?_eq_append {as name rest : List α} (h : readName? as = some (name, rest)) :
    as = name ++ rest ∧ name ≠ [] := by
  cases as with
  | nil => exact absurd h (by simp [readName?])
  | cons a as =>
    simp only [readName?] at h
    split at h
    · simp only [Option.some.injEq, Prod.mk.injEq] at h
      obtain ⟨rfl, rfl⟩ := h
      simp
    · exact absurd h (by simp)

/-- Skipping spaces leaves no more symbols than there were. -/
theorem length_skipSpaces_le (as : List α) : (skipSpaces as).length ≤ as.length :=
  (List.dropWhile_suffix _).length_le

end XmlQuery.Markup
