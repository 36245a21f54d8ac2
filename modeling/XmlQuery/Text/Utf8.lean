namespace XmlQuery.Utf8

/-!
# UTF-8

Characters as bytes and back.

* `encodeChar`, `encode` — the bytes of a character, and of a text.
* `Head`, `head` — what a byte string begins with: a character, or an ill-formed piece, which is
  the longest start of a character's bytes found there, and at least one byte.
* `decode` — the characters of a byte string, or the offset of its first ill-formed piece.
* `decodeLossy` — the characters of a byte string with U+FFFD in place of each ill-formed piece.
* `decode_encode` — every text is read back from its bytes.
* `encode_decode` — bytes that are read as a text are the bytes of that text.
* `decode_append` — bytes are read one part after the other.
-/

/-! ### Writing -/

/-- A byte that continues a character: it carries the six low bits of `n`. -/
def tail (n : Nat) : UInt8 :=
  UInt8.ofNat (0x80 + n % 0x40)

/-- The bytes of the character with the code `n`: one to four. -/
def encodeCode (n : Nat) : List UInt8 :=
  if n < 0x80 then [UInt8.ofNat n]
  else if n < 0x800 then [UInt8.ofNat (0xC0 + n / 0x40), tail n]
  else if n < 0x10000 then [UInt8.ofNat (0xE0 + n / 0x1000), tail (n / 0x40), tail n]
  else [UInt8.ofNat (0xF0 + n / 0x40000), tail (n / 0x1000), tail (n / 0x40), tail n]

/-- The bytes of a character. -/
def encodeChar (c : Char) : List UInt8 :=
  encodeCode c.toNat

/-- The bytes of a text. -/
def encode (cs : List Char) : List UInt8 :=
  cs.flatMap encodeChar

/-- The bytes of two texts, one after the other. -/
theorem encode_append (cs ds : List Char) : encode (cs ++ ds) = encode cs ++ encode ds := by
  simp [encode]

/-! ### Reading -/

/-- Whether a byte continues a character. -/
def isTail (b : UInt8) : Bool :=
  decide (0x80 ≤ b.toNat ∧ b.toNat < 0xC0)

/-- The six bits that a continuing byte carries. -/
def tailBits (b : UInt8) : Nat :=
  b.toNat - 0x80

/-- Whether `b` may follow the leading byte `lead` of a character of three or four bytes.  The
    bounds leave out codes that a shorter form has, surrogates, and codes above U+10FFFF. -/
def isSecond (lead b : Nat) : Bool :=
  let low := if lead = 0xE0 then 0xA0 else if lead = 0xF0 then 0x90 else 0x80
  let high := if lead = 0xED then 0xA0 else if lead = 0xF4 then 0x90 else 0xC0
  decide (low ≤ b ∧ b < high)

/-- What a nonempty byte string begins with, and the bytes after it. -/
inductive Head where
  | char (c : Char) (rest : List UInt8)
  | illFormed (rest : List UInt8)

/-- The bytes after the head. -/
def Head.rest : Head → List UInt8
  | .char _ rest => rest
  | .illFormed rest => rest

/-- What a byte string begins with whose first byte is `n` and whose other bytes are `bs`. -/
def headAt (n : Nat) (bs : List UInt8) : Head :=
  if n < 0x80 then .char (Char.ofNat n) bs
  else if n < 0xC2 then .illFormed bs
  else if n < 0xE0 then
    match bs with
    | t :: rest =>
      if isTail t then .char (Char.ofNat ((n - 0xC0) * 0x40 + tailBits t)) rest
      else .illFormed bs
    | [] => .illFormed bs
  else if n < 0xF0 then
    match bs with
    | s :: bs₁ =>
      if isSecond n s.toNat then
        match bs₁ with
        | t :: rest =>
          if isTail t then
            .char (Char.ofNat ((n - 0xE0) * 0x1000 + tailBits s * 0x40 + tailBits t)) rest
          else .illFormed bs₁
        | [] => .illFormed bs₁
      else .illFormed bs
    | [] => .illFormed bs
  else if n < 0xF5 then
    match bs with
    | s :: bs₁ =>
      if isSecond n s.toNat then
        match bs₁ with
        | t :: bs₂ =>
          if isTail t then
            match bs₂ with
            | u :: rest =>
              if isTail u then
                .char (Char.ofNat ((n - 0xF0) * 0x40000 + tailBits s * 0x1000
                  + tailBits t * 0x40 + tailBits u)) rest
              else .illFormed bs₂
            | [] => .illFormed bs₂
          else .illFormed bs₁
        | [] => .illFormed bs₁
      else .illFormed bs
    | [] => .illFormed bs
  else .illFormed bs

/-- What the byte string `b :: bs` begins with. -/
def head (b : UInt8) (bs : List UInt8) : Head :=
  headAt b.toNat bs

/-- The bytes after the head are fewer than the whole. -/
theorem length_head_rest_le (b : UInt8) (bs : List UInt8) :
    (head b bs).rest.length ≤ bs.length := by
  simp only [head, headAt]
  repeat' split
  all_goals simp only [Head.rest, List.length_cons]
  all_goals omega

/-- The characters of a byte string from the offset `offset` on, or the offset of the first
    ill-formed piece. -/
def decodeFrom (offset : Nat) : List UInt8 → Except Nat (List Char)
  | [] => .ok []
  | b :: bs =>
    match _h : head b bs with
    | .illFormed _ => .error offset
    | .char c rest =>
      match decodeFrom (offset + (encodeChar c).length) rest with
      | .ok cs => .ok (c :: cs)
      | .error o => .error o
  termination_by bytes => bytes.length
  decreasing_by
    have hle := length_head_rest_le b bs
    rw [_h] at hle
    exact Nat.lt_succ_of_le hle

/-- The characters of a byte string, or the offset of its first ill-formed piece. -/
def decode (bytes : List UInt8) : Except Nat (List Char) :=
  decodeFrom 0 bytes

/-- The characters of a byte string, with U+FFFD for each ill-formed piece. -/
def decodeLossy : List UInt8 → List Char
  | [] => []
  | b :: bs =>
    match _h : head b bs with
    | .illFormed rest => '\uFFFD' :: decodeLossy rest
    | .char c rest => c :: decodeLossy rest
  termination_by bytes => bytes.length
  decreasing_by
    all_goals
      have hle := length_head_rest_le b bs
      rw [_h] at hle
      exact Nat.lt_succ_of_le hle

/-! ### Reading what was written -/

theorem toNat_tail (n : Nat) : (tail n).toNat = 0x80 + n % 0x40 := by
  simp only [tail, UInt8.toNat_ofNat']
  omega

theorem isTail_tail (n : Nat) : isTail (tail n) = true := by
  simp only [isTail, toNat_tail, decide_eq_true_eq]
  omega

theorem tailBits_tail (n : Nat) : tailBits (tail n) = n % 0x40 := by
  have := toNat_tail n
  unfold tailBits
  omega

theorem toNat_ofNat_of_lt {n : Nat} (h : n < 0x100) : (UInt8.ofNat n).toNat = n := by
  rw [UInt8.toNat_ofNat']
  omega

/-- A byte below 0x80 is read as the character with that code. -/
theorem head_one {n : Nat} (h : n < 0x80) (bs : List UInt8) :
    head (UInt8.ofNat n) bs = .char (Char.ofNat n) bs := by
  rw [head, toNat_ofNat_of_lt (by omega)]
  unfold headAt
  rw [if_pos h]

/-- The two bytes of a code are read as the character with that code. -/
theorem head_two {n : Nat} (hlow : 0x80 ≤ n) (hhigh : n < 0x800) (bs : List UInt8) :
    head (UInt8.ofNat (0xC0 + n / 0x40)) (tail n :: bs) = .char (Char.ofNat n) bs := by
  have hcode : (0xC0 + n / 0x40 - 0xC0) * 0x40 + n % 0x40 = n := by omega
  rw [head, toNat_ofNat_of_lt (by omega)]
  unfold headAt
  rw [if_neg (by omega), if_neg (by omega), if_pos (by omega)]
  simp only [isTail_tail, tailBits_tail, if_true, hcode]

/-- The three bytes of a code that is no surrogate are read as the character with that code. -/
theorem head_three {n : Nat} (hlow : 0x800 ≤ n) (hhigh : n < 0x10000)
    (hvalid : n < 0xD800 ∨ 0xDFFF < n) (bs : List UInt8) :
    head (UInt8.ofNat (0xE0 + n / 0x1000)) (tail (n / 0x40) :: tail n :: bs)
      = .char (Char.ofNat n) bs := by
  have hsecond : isSecond (0xE0 + n / 0x1000) (0x80 + n / 0x40 % 0x40) = true := by
    simp only [isSecond, decide_eq_true_eq]
    repeat' split
    all_goals omega
  have hcode : (0xE0 + n / 0x1000 - 0xE0) * 0x1000 + n / 0x40 % 0x40 * 0x40 + n % 0x40 = n := by
    omega
  rw [head, toNat_ofNat_of_lt (by omega)]
  unfold headAt
  rw [if_neg (by omega), if_neg (by omega), if_neg (by omega), if_pos (by omega)]
  simp only [toNat_tail, hsecond, isTail_tail, tailBits_tail, if_true, hcode]

/-- The four bytes of a code are read as the character with that code. -/
theorem head_four {n : Nat} (hlow : 0x10000 ≤ n) (hhigh : n < 0x110000) (bs : List UInt8) :
    head (UInt8.ofNat (0xF0 + n / 0x40000)) (tail (n / 0x1000) :: tail (n / 0x40) :: tail n :: bs)
      = .char (Char.ofNat n) bs := by
  have hsecond : isSecond (0xF0 + n / 0x40000) (0x80 + n / 0x1000 % 0x40) = true := by
    simp only [isSecond, decide_eq_true_eq]
    repeat' split
    all_goals omega
  have hcode : (0xF0 + n / 0x40000 - 0xF0) * 0x40000 + n / 0x1000 % 0x40 * 0x1000
      + n / 0x40 % 0x40 * 0x40 + n % 0x40 = n := by omega
  rw [head, toNat_ofNat_of_lt (by omega)]
  unfold headAt
  rw [if_neg (by omega), if_neg (by omega), if_neg (by omega), if_neg (by omega),
    if_pos (by omega)]
  simp only [toNat_tail, hsecond, isTail_tail, tailBits_tail, if_true, hcode]

/-- The code of a character is below 0x110000, and no surrogate. -/
theorem toNat_valid (c : Char) : c.toNat < 0xD800 ∨ 0xDFFF < c.toNat ∧ c.toNat < 0x110000 := by
  have hvalid := c.valid
  simp only [UInt32.isValidChar, Nat.isValidChar] at hvalid
  exact hvalid

/-- The bytes of a character begin with that character, whatever follows. -/
theorem head_encodeChar (c : Char) (bs : List UInt8) :
    ∃ b rest, encodeChar c ++ bs = b :: rest ∧ head b rest = .char c bs := by
  have hvalid := toNat_valid c
  have hc : Char.ofNat c.toNat = c := Char.ofNat_toNat c
  unfold encodeChar encodeCode
  split
  · exact ⟨_, _, rfl, (head_one (by omega) bs).trans (by rw [hc])⟩
  split
  · exact ⟨_, _, rfl, (head_two (by omega) (by omega) bs).trans (by rw [hc])⟩
  split
  · exact ⟨_, _, rfl, (head_three (by omega) (by omega) (by omega) bs).trans (by rw [hc])⟩
  · exact ⟨_, _, rfl, (head_four (by omega) (by omega) bs).trans (by rw [hc])⟩

/-- Reading goes on after a character's bytes as it would have begun there. -/
theorem decodeFrom_encodeChar (offset : Nat) (c : Char) (bs : List UInt8) :
    decodeFrom offset (encodeChar c ++ bs)
      = match decodeFrom (offset + (encodeChar c).length) bs with
        | .ok cs => .ok (c :: cs)
        | .error o => .error o := by
  obtain ⟨b, rest, happ, hhead⟩ := head_encodeChar c bs
  rw [happ, decodeFrom]
  split
  · rename_i h; rw [hhead] at h; cases h
  · rename_i c' rest' h
    rw [hhead] at h; cases h
    rfl

/-- **Every text is read back from its bytes.** -/
theorem decode_encode (cs : List Char) : decode (encode cs) = .ok cs := by
  suffices h : ∀ offset, decodeFrom offset (encode cs) = .ok cs from h 0
  induction cs with
  | nil => intro offset; simp [encode, decodeFrom]
  | cons c cs ih =>
    intro offset
    rw [encode, List.flatMap_cons, decodeFrom_encodeChar, ← encode, ih]

/-! ### Writing what was read -/

theorem toNat_ofNat_of_valid {n : Nat} (h : n.isValidChar) : (Char.ofNat n).toNat = n := by
  rw [Char.ofNat, dif_pos h]
  rfl

theorem ofNat_of_eq_toNat {n : Nat} {b : UInt8} (h : n = b.toNat) : UInt8.ofNat n = b := by
  rw [h, UInt8.ofNat_toNat]

theorem isTail_bounds {b : UInt8} (h : isTail b = true) :
    0x80 ≤ b.toNat ∧ b.toNat < 0xC0 := by
  simpa only [isTail, decide_eq_true_eq] using h

theorem isSecond_bounds {lead b : Nat} (h : isSecond lead b = true) :
    0x80 ≤ b ∧ b < 0xC0 ∧ (lead = 0xE0 → 0xA0 ≤ b) ∧ (lead = 0xF0 → 0x90 ≤ b)
      ∧ (lead = 0xED → b < 0xA0) ∧ (lead = 0xF4 → b < 0x90) := by
  simp only [isSecond, decide_eq_true_eq] at h
  obtain ⟨hlow, hhigh⟩ := h
  split at hlow <;> split at hhigh <;> (repeat' split at hlow) <;> (repeat' split at hhigh) <;> omega

/-- A byte below 0x80 stands for the character with that code, and in no other one. -/
theorem toNat_eq_of_mem {b : UInt8} {c : Char} (h : b ∈ encodeChar c) (hb : b.toNat < 0x80) :
    c.toNat = b.toNat := by
  have hvalid := toNat_valid c
  -- longer characters are made of bytes from 0x80 on
  have hhigh : ∀ n, 0x80 ≤ n → n < 0x100 → b ≠ UInt8.ofNat n := by
    rintro n hlow hlt rfl
    rw [UInt8.toNat_ofNat'] at hb
    omega
  have htail : ∀ n, b ≠ tail n := fun n => hhigh _ (by omega) (by omega)
  unfold encodeChar encodeCode at h
  split at h
  · rw [List.mem_singleton] at h
    rw [h, UInt8.toNat_ofNat']
    omega
  split at h
  · rw [List.mem_cons, List.mem_singleton] at h
    rcases h with h | h
    · exact absurd h (hhigh _ (by omega) (by omega))
    · exact absurd h (htail _)
  split at h
  · rw [List.mem_cons, List.mem_cons, List.mem_singleton] at h
    rcases h with h | h | h
    · exact absurd h (hhigh _ (by omega) (by omega))
    · exact absurd h (htail _)
    · exact absurd h (htail _)
  · rw [List.mem_cons, List.mem_cons, List.mem_cons, List.mem_singleton] at h
    rcases h with h | h | h | h
    · exact absurd h (hhigh _ (by omega) (by omega))
    · exact absurd h (htail _)
    · exact absurd h (htail _)
    · exact absurd h (htail _)

/-- A byte below 0x80 is what the character with that code is written as. -/
theorem encodeChar_one {b : UInt8} (hb : b.toNat < 0x80) :
    encodeChar (Char.ofNat b.toNat) = [b] := by
  have hn : (Char.ofNat b.toNat).toNat = b.toNat := toNat_ofNat_of_valid (Or.inl (by omega))
  rw [encodeChar, hn, encodeCode, if_pos hb, ofNat_of_eq_toNat rfl]

/-- Two bytes that are read as a character are what it is written as. -/
theorem encodeChar_two {b t : UInt8} (hlow : 0xC2 ≤ b.toNat) (hhigh : b.toNat < 0xE0)
    (ht : isTail t = true) :
    encodeChar (Char.ofNat ((b.toNat - 0xC0) * 0x40 + tailBits t)) = [b, t] := by
  obtain ⟨ht₁, ht₂⟩ := isTail_bounds ht
  have hn : (Char.ofNat ((b.toNat - 0xC0) * 0x40 + tailBits t)).toNat
      = (b.toNat - 0xC0) * 0x40 + (t.toNat - 0x80) :=
    toNat_ofNat_of_valid (Or.inl (by unfold tailBits; omega))
  rw [encodeChar, hn]
  unfold encodeCode tail
  rw [if_neg (by omega), if_pos (by omega), ofNat_of_eq_toNat (b := b) (by omega),
    ofNat_of_eq_toNat (b := t) (by omega)]

/-- Three bytes that are read as a character are what it is written as. -/
theorem encodeChar_three {b s t : UInt8} (hlow : 0xE0 ≤ b.toNat) (hhigh : b.toNat < 0xF0)
    (hs : isSecond b.toNat s.toNat = true) (ht : isTail t = true) :
    encodeChar (Char.ofNat ((b.toNat - 0xE0) * 0x1000 + tailBits s * 0x40 + tailBits t))
      = [b, s, t] := by
  obtain ⟨hs₁, hs₂, hs₃, -, hs₄, -⟩ := isSecond_bounds hs
  obtain ⟨ht₁, ht₂⟩ := isTail_bounds ht
  have hn : (Char.ofNat ((b.toNat - 0xE0) * 0x1000 + tailBits s * 0x40 + tailBits t)).toNat
      = (b.toNat - 0xE0) * 0x1000 + (s.toNat - 0x80) * 0x40 + (t.toNat - 0x80) := by
    refine toNat_ofNat_of_valid ?_
    unfold tailBits
    simp only [Nat.isValidChar]
    omega
  rw [encodeChar, hn]
  unfold encodeCode tail
  rw [if_neg (by omega), if_neg (by omega), if_pos (by omega),
    ofNat_of_eq_toNat (b := b) (by omega), ofNat_of_eq_toNat (b := s) (by omega),
    ofNat_of_eq_toNat (b := t) (by omega)]

/-- Four bytes that are read as a character are what it is written as. -/
theorem encodeChar_four {b s t u : UInt8} (hlow : 0xF0 ≤ b.toNat) (hhigh : b.toNat < 0xF5)
    (hs : isSecond b.toNat s.toNat = true) (ht : isTail t = true) (hu : isTail u = true) :
    encodeChar (Char.ofNat ((b.toNat - 0xF0) * 0x40000 + tailBits s * 0x1000 + tailBits t * 0x40
      + tailBits u)) = [b, s, t, u] := by
  obtain ⟨hs₁, hs₂, -, hs₃, -, hs₄⟩ := isSecond_bounds hs
  obtain ⟨ht₁, ht₂⟩ := isTail_bounds ht
  obtain ⟨hu₁, hu₂⟩ := isTail_bounds hu
  have hn : (Char.ofNat ((b.toNat - 0xF0) * 0x40000 + tailBits s * 0x1000
      + tailBits t * 0x40 + tailBits u)).toNat
      = (b.toNat - 0xF0) * 0x40000 + (s.toNat - 0x80) * 0x1000
        + (t.toNat - 0x80) * 0x40 + (u.toNat - 0x80) := by
    refine toNat_ofNat_of_valid ?_
    unfold tailBits
    simp only [Nat.isValidChar]
    omega
  rw [encodeChar, hn]
  unfold encodeCode tail
  rw [if_neg (by omega), if_neg (by omega), if_neg (by omega),
    ofNat_of_eq_toNat (b := b) (by omega), ofNat_of_eq_toNat (b := s) (by omega),
    ofNat_of_eq_toNat (b := t) (by omega), ofNat_of_eq_toNat (b := u) (by omega)]

/-- What a byte string begins with is written as it stands there. -/
theorem encodeChar_of_head {b : UInt8} {bs rest : List UInt8} {c : Char}
    (h : head b bs = .char c rest) : b :: bs = encodeChar c ++ rest := by
  revert h
  rw [head]
  fun_cases headAt b.toNat bs with
  | case1 _ hb =>
    intro h
    obtain ⟨rfl, rfl⟩ := Head.char.inj h
    rw [encodeChar_one hb]
    rfl
  | case3 _ hlow hhigh t _ ht =>
    intro h
    obtain ⟨rfl, rfl⟩ := Head.char.inj h
    rw [encodeChar_two (by omega) hhigh ht]
    rfl
  | case6 _ _ hlow hhigh s hs t _ ht =>
    intro h
    obtain ⟨rfl, rfl⟩ := Head.char.inj h
    rw [encodeChar_three (by omega) hhigh hs ht]
    rfl
  | case11 _ _ _ hlow hhigh s hs t ht u _ hu =>
    intro h
    obtain ⟨rfl, rfl⟩ := Head.char.inj h
    rw [encodeChar_four (by omega) hhigh hs ht hu]
    rfl
  | _ =>
    -- what is ill-formed begins with no character
    intro h
    cases h

/-- **Bytes that are read as a text are the bytes of that text.** -/
theorem encode_decode {bytes : List UInt8} {cs : List Char} (h : decode bytes = .ok cs) :
    encode cs = bytes := by
  suffices hfrom : ∀ offset, decodeFrom offset bytes = .ok cs → encode cs = bytes from hfrom 0 h
  clear h
  intro offset h
  fun_induction decodeFrom offset bytes generalizing cs with
  | case1 => cases h; rfl
  | case2 => cases h
  | case3 _ b bs c rest hhead cs' hrest ih =>
    cases h
    rw [encode, List.flatMap_cons, ← encode, ih hrest, encodeChar_of_head hhead]
  | case4 => cases h

/-- Well-formed bytes behind well-formed bytes are read as the texts of both. -/
theorem decode_append {a b : List UInt8} {as bs : List Char} (ha : decode a = .ok as)
    (hb : decode b = .ok bs) : decode (a ++ b) = .ok (as ++ bs) := by
  rw [← encode_decode ha, ← encode_decode hb, ← encode_append, decode_encode]

end XmlQuery.Utf8
