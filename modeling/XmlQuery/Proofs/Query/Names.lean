import XmlQuery.Proofs.Query.Reading
import XmlQuery.Query.Evaluation

namespace XmlQuery

/-!
# Names that queries ask for

A query asks for elements by names of letters, colons and underscores, and takes no notice of case.
Texts and CDATA sections are called by their kind, with a number sign in front.  That sign has no
other case, so that none of them is found under a name.

* `Text.lowerCode_gt` — how far codes can come down in lower case.
* `Text.numberSign_of_lower` — what begins with a number sign in lower case begins with it anyway.
* `Query.IsName.head?_lower_ne` — hence no name is called like a kind, or like a document.
* `Query.isElement_of_hasNameIgnoringCase` — only elements are found under a name.
-/

/-! ### Number signs in lower case -/

namespace Text

/-- A code above a bound stays above it in lower case if no range begins with a code that is moved
    down to the bound. -/
theorem lowerCode_gt {bound n : Nat} {ranges : List LowerRange}
    (h : ∀ r ∈ ranges, (bound : Int) < r.first + r.shift) (hn : bound < n) :
    bound < lowerCode n ranges := by
  induction ranges with
  | nil => exact hn
  | cons r rest ih =>
    rw [List.forall_mem_cons] at h
    rw [lowerCode]
    split
    · exact hn
    split
    · have hfirst := h.1
      omega
    · exact ih h.2

/-- The capitals of all ranges come to lie above the number sign. -/
theorem numberSign_lt_lowerRanges :
    ∀ r ∈ lowerRanges, (('#'.toNat : Nat) : Int) < r.first + r.shift := by
  decide +kernel

/-- A code above that of the number sign is one of another character. -/
theorem ofNat_ne_numberSign {n : Nat} (h : '#'.toNat < n) : Char.ofNat n ≠ '#' := by
  intro hsign
  by_cases hvalid : n.isValidChar
  · rw [Char.ofNat, dif_pos hvalid] at hsign
    exact Nat.ne_of_gt h (congrArg Char.toNat hsign)
  · rw [Char.ofNat, dif_neg hvalid] at hsign
    exact absurd hsign (by decide)

/-- No other character has the number sign as its lower-case form. -/
theorem eq_numberSign_of_lowerChar {c : Char} (h : lowerChar c = '#') : c = '#' := by
  have hsign : '#'.toNat = 0x23 := rfl
  unfold lowerChar at h
  split at h
  · split at h
    · rename_i hcapital
      have hlow : 'A'.toNat ≤ c.toNat := hcapital.1
      have hcode : '#'.toNat < 'A'.toNat := by decide
      exact absurd h (ofNat_ne_numberSign (by omega))
    · exact h
  · exact absurd h (ofNat_ne_numberSign (lowerCode_gt numberSign_lt_lowerRanges (by omega)))

/-- **What begins with a number sign in lower case begins with it anyway.** -/
theorem numberSign_of_lower {s : String} (h : (lower s).toList.head? = some '#') :
    s.toList.head? = some '#' := by
  rw [lower, String.toList_ofList] at h
  cases hs : s.toList with
  | nil =>
    rw [hs] at h
    cases h
  | cons c cs =>
    rw [hs, lowerAfter] at h
    -- the lower-case form of the first character stands in front of the others
    split at h
    · split at h <;> exact absurd h (by simp)
    split at h
    · exact absurd h (by simp)
    · rw [List.singleton_append, List.head?_cons, Option.some.injEq] at h
      rw [eq_numberSign_of_lowerChar h, List.head?_cons]

end Text

/-! ### Names -/

namespace Query

/-- No name begins with a number sign in lower case. -/
theorem IsName.head?_lower_ne {name : String} (h : IsName name) :
    (Text.lower name).toList.head? ≠ some '#' := by
  intro hsign
  have hfirst := Text.numberSign_of_lower hsign
  have hsignClass : classOf '#' ≠ .entityName := by decide
  exact hsignClass (h.chars '#' (List.mem_of_mem_head? hfirst))

/-- **Only elements are found under a name**, as a kind is called by what is none. -/
theorem isElement_of_hasNameIgnoringCase {d : Document} {name : String} (h : IsName name) {id : Nat}
    (hid : hasNameIgnoringCase d name id) : d.isElement id := by
  rw [hasNameIgnoringCase, Option.any_eq_true] at hid
  obtain ⟨n, hn, heq⟩ := hid
  rw [beq_iff_eq] at heq
  rw [Document.isElement, hn, Option.any_some]
  -- the name of anything else begins with a number sign, and `name` does not
  have htext : (Text.lower "#text").toList.head? = some '#' := by decide
  have hcdata : (Text.lower "#cdata").toList.head? = some '#' := by decide
  have hkind : n.isElement = true ∨ (Text.lower n.name).toList.head? = some '#' := by
    obtain ⟨owner, content⟩ := n
    cases content with
    | element e => exact .inl rfl
    | text s => exact .inr htext
    | cdata bytes => exact .inr hcdata
  refine hkind.resolve_right fun hsign => ?_
  rw [heq] at hsign
  exact h.head?_lower_ne hsign

end Query

end XmlQuery
