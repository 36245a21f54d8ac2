namespace XmlQuery.Text

/-!
# Properties of characters

A Unicode property is kept as an ascending list of closed ranges of code points.

* `inRanges` — membership of a code point, stopping at the first range that starts above it.
* `inRanges_sound` — a member lies in one of the ranges.
* `isBlank` — whether a character has the property `White_Space`.
* `trimStart`, `trim` — a text without its leading blanks, and without those at either end.
* `eqIgnoringCase` — equality of two texts in which `A` to `Z` count as `a` to `z`; other
  letters differ from their other case.
-/

/-! ### Ranges of code points -/

/-- Whether `n` lies in one of the closed ranges of an ascending list.  The search ends at the
    first range that starts above `n`. -/
def inRanges (n : Nat) : List (Nat × Nat) → Bool
  | [] => false
  | (low, high) :: rest => decide (low ≤ n) && (decide (n ≤ high) || inRanges n rest)

/-- A member of a list of ranges lies between the ends of one of them. -/
theorem inRanges_sound {n : Nat} {ranges : List (Nat × Nat)} (h : inRanges n ranges = true) :
    ∃ r ∈ ranges, r.1 ≤ n ∧ n ≤ r.2 := by
  induction ranges with
  | nil => simp [inRanges] at h
  | cons r rest ih =>
    obtain ⟨low, high⟩ := r
    simp only [inRanges, Bool.and_eq_true, Bool.or_eq_true, decide_eq_true_eq] at h
    obtain ⟨hlow, hhigh | hrest⟩ := h
    · exact ⟨(low, high), by simp, hlow, hhigh⟩
    · obtain ⟨r, hr, hb⟩ := ih hrest
      exact ⟨r, by simp [hr], hb⟩

/-! ### Blanks -/

/-- The code points with the property `White_Space`, in ascending ranges. -/
def blankRanges : List (Nat × Nat) :=
  [ (0x9, 0xD), (0x20, 0x20), (0x85, 0x85), (0xA0, 0xA0), (0x1680, 0x1680), (0x2000, 0x200A),
    (0x2028, 0x2029), (0x202F, 0x202F), (0x205F, 0x205F), (0x3000, 0x3000) ]

/-- Whether a character has the Unicode property `White_Space`. -/
def isBlank (c : Char) : Bool :=
  inRanges c.toNat blankRanges

/-- The characters from the first one on that is not blank. -/
def trimStart (cs : List Char) : List Char :=
  cs.dropWhile isBlank

/-- The characters up to the last one that is not blank. -/
def trimEnd (cs : List Char) : List Char :=
  (cs.reverse.dropWhile isBlank).reverse

/-- The characters between the outermost ones that are not blank. -/
def trim (cs : List Char) : List Char :=
  trimEnd (trimStart cs)

/-! ### Words without regard to case -/

/-- Whether two texts are equal once `A` to `Z` are read as `a` to `z`. -/
def eqIgnoringCase (s t : String) : Bool :=
  s.toList.map Char.toLower == t.toList.map Char.toLower

end XmlQuery.Text
