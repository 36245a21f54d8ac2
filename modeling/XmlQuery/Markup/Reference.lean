import XmlQuery.Decimal.Digits
import XmlQuery.Text.Split

namespace XmlQuery.Markup.Reference

/-!
# Character references

Characters that markup reserves stand in a document as references: `&lt;` for `<`, or the code of
any character as in `&#65;` and `&#x41;`.

* `resolve?` — the character that the body of a reference, between `&` and `;`, stands for.
* `decode` — a text with its references replaced by their characters.
* `escapeText`, `escapeAttribute` — a text with references for what character data, or a value in
  double quotes, cannot hold.
-/

/-! ### Reading -/

/-- The character with the code `n`, if it is a Unicode scalar value. -/
def scalar? (n : Nat) : Option Char :=
  if n.isValidChar then some (Char.ofNat n) else none

/-- The character that the body of a reference stands for: one of five names, or after `#` a code
    of 32 bits in decimal digits, or after `#x` in hexadecimal ones. -/
def resolve? (body : List Char) : Option Char :=
  match body with
  | ['l', 't'] => some '<'
  | ['g', 't'] => some '>'
  | ['a', 'm', 'p'] => some '&'
  | ['q', 'u', 'o', 't'] => some '"'
  | ['a', 'p', 'o', 's'] => some '\x27'
  | '#' :: 'x' :: digits => (Decimal.unsigned? 16 0x100000000 digits).bind scalar?
  | '#' :: 'X' :: digits => (Decimal.unsigned? 16 0x100000000 digits).bind scalar?
  | '#' :: digits => (Decimal.unsigned? 10 0x100000000 digits).bind scalar?
  | _ => none

/-- The reference that follows an ampersand, whose body ends at the first semicolon: its
    character, and the rest. -/
def read? (cs : List Char) : Option (Char × List Char) :=
  match Text.splitAt? ';' cs with
  | some (body, rest) => (resolve? body).map fun c => (c, rest)
  | none => none

/-- What follows a reference is shorter than what follows its ampersand. -/
theorem length_lt_of_read? {cs rest : List Char} {c : Char} (h : read? cs = some (c, rest)) :
    rest.length < cs.length := by
  simp only [read?] at h
  split at h
  · rename_i body rest' hsplit
    obtain ⟨rfl, -⟩ := Text.splitAt?_eq_append hsplit
    simp only [Option.map_eq_some_iff, Prod.mk.injEq] at h
    obtain ⟨_, -, -, rfl⟩ := h
    simp only [List.length_append, List.length_cons]
    omega
  · exact absurd h (by simp)

/-- A text with its references replaced by their characters.  An ampersand that begins no
    reference stands for itself, and reading goes on right after it. -/
def decode : List Char → List Char
  | [] => []
  | c :: cs =>
    if c = '&' then
      match _h : read? cs with
      | some (r, rest) => r :: decode rest
      | none => '&' :: decode cs
    else c :: decode cs
  termination_by cs => cs.length
  decreasing_by
    · exact Nat.lt_succ_of_lt (length_lt_of_read? _h)
    · exact Nat.lt_succ_self _
    · exact Nat.lt_succ_self _

/-- A character that is no ampersand stands for itself. -/
theorem decode_cons_of_ne {c : Char} (h : c ≠ '&') (cs : List Char) :
    decode (c :: cs) = c :: decode cs := by
  rw [decode, if_neg h]

/-- An ampersand begins a reference if there is one to read, and else stands for itself. -/
theorem decode_ampersand_cons (cs : List Char) :
    decode ('&' :: cs)
      = match read? cs with
        | some (c, rest) => c :: decode rest
        | none => '&' :: decode cs := by
  rw [decode, if_pos rfl]
  split <;> rename_i h <;> rw [h]

/-! ### Writing -/

/-- A character as it stands in character data. -/
def textChar (c : Char) : List Char :=
  if c = '<' then ['&', 'l', 't', ';']
  else if c = '>' then ['&', 'g', 't', ';']
  else if c = '&' then ['&', 'a', 'm', 'p', ';']
  else [c]

/-- A character as it stands in an attribute value between double quotes. -/
def attributeChar (c : Char) : List Char :=
  if c = '<' then ['&', 'l', 't', ';']
  else if c = '&' then ['&', 'a', 'm', 'p', ';']
  else if c = '"' then ['&', 'q', 'u', 'o', 't', ';']
  else [c]

/-- A text as character data. -/
def escapeText (cs : List Char) : List Char :=
  cs.flatMap textChar

/-- A text as an attribute value between double quotes. -/
def escapeAttribute (cs : List Char) : List Char :=
  cs.flatMap attributeChar

end XmlQuery.Markup.Reference
