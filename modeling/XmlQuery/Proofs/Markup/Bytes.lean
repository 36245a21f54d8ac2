import XmlQuery.Markup.Symbol
import XmlQuery.Text.Slice
import XmlQuery.Text.Split

namespace XmlQuery.Utf8

/-!
# What is found in the bytes of a text

ASCII characters are single bytes, and the bytes of other characters are no ASCII.  So what markup
asks for is found in the bytes of a text where it stands in the text.

* `encode_prefix_iff` — a text begins with what its bytes begin with.
* `Agree`, `takeWhile_encode`, `dropWhile_encode` — rules that take all bytes of a character alike.
* `splitAt?_encode`, `splitAround?_encode` — the first occurrence of an ASCII mark.
-/

open Markup

variable {c d : Char} {cs mark : List Char}

/-! ### Characters -/

theorem toNat_toUInt8 (h : c.toNat < 0x80) : c.toUInt8.toNat = c.toNat := by
  show c.val.toUInt8.toNat = c.toNat
  rw [UInt32.toNat_toUInt8]
  exact Nat.mod_eq_of_lt (Nat.lt_trans h (by decide))

/-- An ASCII character is a single byte. -/
theorem encodeChar_of_lt (h : c.toNat < 0x80) : encodeChar c = [c.toUInt8] := by
  rw [encodeChar, encodeCode, if_pos h, ← toNat_toUInt8 h, UInt8.ofNat_toNat]

theorem encode_cons_of_lt (h : c.toNat < 0x80) (cs : List Char) :
    encode (c :: cs) = c.toUInt8 :: encode cs := by
  rw [encode_cons, encodeChar_of_lt h, List.singleton_append]

/-- No byte of another character is ASCII. -/
theorem le_of_mem_encodeChar (h : 0x80 ≤ c.toNat) {b : UInt8} (hb : b ∈ encodeChar c) :
    0x80 ≤ b.toNat := by
  refine Nat.le_of_not_lt fun hlt => ?_
  have := toNat_eq_of_mem hb hlt
  omega

/-- An ASCII character is found in the bytes of no other character. -/
theorem eq_of_toUInt8_mem (h : c.toNat < 0x80) (hc : c.toUInt8 ∈ encodeChar d) : d = c := by
  have hbyte := toNat_toUInt8 h
  have hcode := toNat_eq_of_mem hc (by omega)
  exact Char.toNat_inj.1 (hcode.trans hbyte)

/-- **An ASCII byte stands for one character only.** -/
theorem eq_toUInt8_iff (h : c.toNat < 0x80) {b : UInt8} (hb : b ∈ encodeChar d) :
    b = c.toUInt8 ↔ d = c := by
  constructor
  · rintro rfl
    exact eq_of_toUInt8_mem h hb
  · rintro rfl
    rwa [encodeChar_of_lt h, List.mem_singleton] at hb

/-- Bytes begin with one character at most. -/
theorem encodeChar_append_inj {bs ds : List UInt8}
    (h : encodeChar c ++ bs = encodeChar d ++ ds) : c = d ∧ bs = ds := by
  obtain ⟨b, rest, heq, hhead⟩ := head_encodeChar c bs
  obtain ⟨b', rest', heq', hhead'⟩ := head_encodeChar d ds
  rw [h, heq'] at heq
  cases heq
  cases hhead.symm.trans hhead'
  exact ⟨rfl, rfl⟩

/-- **A text begins with another one exactly if its bytes begin with those of the other one.** -/
theorem encode_prefix_iff : encode mark <+: encode cs ↔ mark <+: cs := by
  induction mark generalizing cs with
  | nil => exact iff_of_true List.nil_prefix List.nil_prefix
  | cons d mark ih =>
    cases cs with
    | nil =>
      rw [List.prefix_nil]
      show encode (d :: mark) <+: [] ↔ _
      rw [List.prefix_nil, encode_eq_nil_iff]
    | cons c cs =>
      rw [encode_cons, encode_cons, List.cons_prefix_cons, ← ih]
      constructor
      · rintro ⟨bs, h⟩
        rw [List.append_assoc] at h
        obtain ⟨rfl, hrest⟩ := encodeChar_append_inj h
        exact ⟨rfl, bs, hrest⟩
      · rintro ⟨rfl, h⟩
        exact (List.prefix_append_right_inj _).2 h

/-! ### Rules -/

/-- Whether a rule for bytes says of all bytes of a character what a rule for characters says of
    the character. -/
def Agree (byByte : UInt8 → Bool) (byChar : Char → Bool) : Prop :=
  ∀ c, ∀ b ∈ encodeChar c, byByte b = byChar c

/-- Rules agree that ask for codes only and take all codes alike that are not ASCII. -/
theorem agree_of_code (rule : Nat → Bool) (h : ∀ n, 0x80 ≤ n → rule n = rule 0x80) :
    Agree (fun b => rule (Symbol.code b)) (fun c => rule (Symbol.code c)) := by
  intro c b hb
  show rule b.toNat = rule c.toNat
  by_cases hc : c.toNat < 0x80
  · rw [encodeChar_of_lt hc, List.mem_singleton] at hb
    rw [hb, toNat_toUInt8 hc]
  · have hc := Nat.le_of_not_lt hc
    rw [h _ hc, h _ (le_of_mem_encodeChar hc hb)]

theorem agree_isSpace : Agree isSpace isSpace := by
  refine agree_of_code (fun n => n == 0x20 || n == 0x9 || n == 0xA || n == 0xD) fun n hn => ?_
  have hne : ∀ k, k < 0x80 → (n == k) = false := fun k hk => beq_false_of_ne (by omega)
  simp only [hne _ (by decide : 0x20 < 0x80), hne _ (by decide : 0x9 < 0x80),
    hne _ (by decide : 0xA < 0x80), hne _ (by decide : 0xD < 0x80)]
  rfl

theorem agree_isNameStart : Agree isNameStart isNameStart := by
  refine agree_of_code (fun n => decide (0x41 ≤ n ∧ n ≤ 0x5A) || decide (0x61 ≤ n ∧ n ≤ 0x7A)
    || n == 0x5F || n == 0x3A || decide (0x80 ≤ n)) fun n hn => ?_
  simp only [decide_eq_true hn, Bool.or_true]
  rfl

theorem agree_isNameSymbol : Agree isNameSymbol isNameSymbol := by
  refine agree_of_code (fun n => (decide (0x41 ≤ n ∧ n ≤ 0x5A) || decide (0x61 ≤ n ∧ n ≤ 0x7A)
    || n == 0x5F || n == 0x3A || decide (0x80 ≤ n)) || decide (0x30 ≤ n ∧ n ≤ 0x39) || n == 0x2D
    || n == 0x2E) fun n hn => ?_
  simp only [decide_eq_true hn, Bool.or_true, Bool.true_or]
  rfl

section Agree

variable {byByte : UInt8 → Bool} {byChar : Char → Bool}

/-- What a rule allows at the front of a text, it allows at the front of the bytes, and no more. -/
theorem takeWhile_encode (h : Agree byByte byChar) (cs : List Char) :
    (encode cs).takeWhile byByte = encode (cs.takeWhile byChar) := by
  induction cs with
  | nil => rfl
  | cons c cs ih =>
    rw [encode_cons, List.takeWhile_cons]
    split
    · rename_i hc
      rw [List.takeWhile_append_of_pos fun b hb => (h c b hb).trans hc, ih, encode_cons]
    · rename_i hc
      obtain ⟨b, bs, hbytes⟩ := exists_encodeChar_eq_cons c
      have hb : ¬ byByte b = true := by
        rwa [h c b (hbytes ▸ List.mem_cons_self)]
      rw [hbytes, List.cons_append, List.takeWhile_cons_of_neg hb]
      rfl

theorem dropWhile_encode (h : Agree byByte byChar) (cs : List Char) :
    (encode cs).dropWhile byByte = encode (cs.dropWhile byChar) := by
  have hsplit : encode (cs.takeWhile byChar) ++ (encode cs).dropWhile byByte
      = encode (cs.takeWhile byChar) ++ encode (cs.dropWhile byChar) := by
    rw [← takeWhile_encode h, List.takeWhile_append_dropWhile, takeWhile_encode h, ← encode_append,
      List.takeWhile_append_dropWhile]
  exact List.append_cancel_left hsplit

end Agree

/-- What begins a name may go on with it. -/
theorem isNameSymbol_of_isNameStart {α : Type} [Symbol α] {a : α} (h : isNameStart a) :
    isNameSymbol a := by
  rw [isNameSymbol, h]
  rfl

/-- A name is what may go on with one, if it begins with what may begin one. -/
theorem readName?_cons {α : Type} [Symbol α] (a : α) (as : List α) :
    readName? (a :: as)
      = if isNameStart a then
          some ((a :: as).takeWhile isNameSymbol, (a :: as).dropWhile isNameSymbol)
        else none := by
  rw [readName?]
  split
  · rename_i h
    have ha : isNameSymbol a = true := isNameSymbol_of_isNameStart h
    rw [List.takeWhile_cons_of_pos ha, List.dropWhile_cons_of_pos ha]
  · rfl

/-- **A name is found in the bytes as it is found in the text**: all bytes of a character belong to
    it, or none does. -/
theorem readName?_encode (cs : List Char) :
    readName? (encode cs)
      = (readName? cs).map fun parts => (encode parts.1, encode parts.2) := by
  cases cs with
  | nil => rfl
  | cons c cs =>
    obtain ⟨b, bs, hbytes⟩ := exists_encodeChar_eq_cons c
    have hwhole : encode (c :: cs) = b :: (bs ++ encode cs) := by
      rw [encode_cons, hbytes, List.cons_append]
    have hstart : isNameStart b = isNameStart c :=
      agree_isNameStart c b (hbytes ▸ List.mem_cons_self)
    rw [hwhole, readName?_cons, readName?_cons, hstart, ← hwhole,
      takeWhile_encode agree_isNameSymbol, dropWhile_encode agree_isNameSymbol]
    split <;> rfl

/-! ### Marks -/

/-- **A single ASCII character is first found in the bytes where it is first found.** -/
theorem splitAt?_encode (h : c.toNat < 0x80) (cs : List Char) :
    Text.splitAt? c.toUInt8 (encode cs)
      = (Text.splitAt? c cs).map fun parts => (encode parts.1, encode parts.2) := by
  induction cs with
  | nil => rfl
  | cons d cs ih =>
    rw [encode_cons, Text.splitAt?]
    split
    · rename_i heq
      rw [heq, encodeChar_of_lt h]
      show Text.splitAt? c.toUInt8 (c.toUInt8 :: encode cs) = _
      rw [Text.splitAt?, if_pos rfl]
      rfl
    · rename_i hne
      rw [Text.splitAt?_append_of_notMem fun hmem => hne (eq_of_toUInt8_mem h hmem), ih]
      cases Text.splitAt? c cs with
      | none => rfl
      | some parts => simp only [Option.map_some, encode_cons]

/-- **So is a mark that begins with one.** -/
theorem splitAround?_encode (h : c.toNat < 0x80) (mark cs : List Char) :
    Text.splitAround? (encode (c :: mark)) (encode cs)
      = (Text.splitAround? (c :: mark) cs).map fun parts => (encode parts.1, encode parts.2) := by
  have hmark := encode_cons_of_lt h mark
  induction cs with
  | nil =>
    rw [hmark]
    rfl
  | cons d cs ih =>
    by_cases hfront : c :: mark <+: d :: cs
    · obtain ⟨rest, hrest⟩ := hfront
      rw [← hrest, Text.splitAround?_of_prefix, encode_append, hmark, Text.splitAround?_of_prefix]
      rfl
    · rw [Text.splitAround?, if_neg hfront]
      by_cases hd : d = c
      -- the character is a single byte, and the mark does not begin with it
      · subst hd
        rw [← encode_prefix_iff, encode_cons_of_lt h cs] at hfront
        rw [encode_cons_of_lt h cs, Text.splitAround?, if_neg hfront, ih]
        cases Text.splitAround? (d :: mark) cs with
        | none => rfl
        | some parts => simp only [Option.map_some, encode_cons_of_lt h]
      -- none of its bytes is the first one of the mark
      · rw [hmark, encode_cons d,
          Text.splitAround?_append_of_notMem fun hmem => hd (eq_of_toUInt8_mem h hmem), ← hmark, ih]
        cases Text.splitAround? (c :: mark) cs with
        | none => rfl
        | some parts => simp only [Option.map_some, encode_cons]

end XmlQuery.Utf8
