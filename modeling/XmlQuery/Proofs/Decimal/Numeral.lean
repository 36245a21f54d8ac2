import Mathlib.Data.Bool.AllAny
import Mathlib.Data.List.Induction
import XmlQuery.Decimal.Digits

namespace XmlQuery.Decimal

/-!
# Numerals

Digits written behind one another stand for a number, and a sign in front of them makes an integer
of it.  Exactly these texts are read as numbers.

* `IsDigit`, `Numeral` — what a digit, and what nonempty digits of a base stand for.
* `natural?_eq_some_iff` — exactly the numerals are read as natural numbers.
* `numeral_ten_iff` — a decimal numeral is worth what core makes of its digits.
* `unsigned?_eq_some_iff` — a plus sign may stand in front of what is read within a bound.
* `Written`, `signed?_eq_some_iff` — the same for integers with a sign or none.
* `written_toString` — an integer as core prints it is one of the ways to write it.
-/

/-! ### Digits -/

/-- The character `c` is the digit of base `base` that is worth `d`.  Digits from ten on are
    letters in either case. -/
def IsDigit (base : Nat) (c : Char) (d : Nat) : Prop :=
  d < base ∧ c.toLower = d.digitChar

/-- What holds of the characters with codes below 128 holds of each of them. -/
private theorem of_ascii {motive : Char → Prop} {c : Char} (hc : c.toNat < 128)
    (h : ∀ n < 128, motive (Char.ofNat n)) : motive c := by
  have hcode := h c.toNat hc
  rwa [Char.ofNat_toNat] at hcode

/-- The digits of base sixteen are ASCII characters. -/
private theorem toNat_lt_of_isDigit {c : Char} {d : Nat} (h : IsDigit 16 c d) : c.toNat < 128 := by
  by_contra hc
  have hlower : c.toLower = c := by
    unfold Char.toLower
    rw [dif_neg]
    intro hupper
    have : c.toNat ≤ 'Z'.toNat := hupper.2
    exact hc (Nat.lt_of_le_of_lt this (by decide))
  have hdigit : ∀ d < 16, d.digitChar.toNat < 128 := by decide
  refine hc ?_
  rw [← hlower, h.2]
  exact hdigit d h.1

/-- Exactly the digits of base sixteen have a value. -/
theorem digitValue?_eq_some_iff {c : Char} {d : Nat} : digitValue? c = some d ↔ IsDigit 16 c d := by
  by_cases hc : c.toNat < 128
  · have hlt : ∀ d ∈ digitValue? c, d < 16 :=
      of_ascii (motive := fun c => ∀ d ∈ digitValue? c, d < 16) hc (by decide +kernel)
    have hiff : ∀ d < 16, digitValue? c = some d ↔ c.toLower = d.digitChar :=
      of_ascii (motive := fun c => ∀ d < 16, digitValue? c = some d ↔ c.toLower = d.digitChar) hc
        (by decide +kernel)
    exact ⟨fun h => ⟨hlt d h, (hiff d (hlt d h)).1 h⟩, fun h => (hiff d h.1).2 h.2⟩
  · refine ⟨fun h => absurd ?_ hc, fun h => absurd (toNat_lt_of_isDigit h) hc⟩
    -- a character with a value lies in one of three ranges of ASCII characters
    have hle : ∀ x : Char, x.toNat < 128 → c ≤ x → c.toNat < 128 := fun x hx hcx =>
      Nat.lt_of_le_of_lt hcx hx
    unfold digitValue? at h
    split at h
    · rename_i hrange
      exact hle '9' (by decide) hrange.2
    split at h
    · rename_i hrange
      exact hle 'f' (by decide) hrange.2
    split at h
    · rename_i hrange
      exact hle 'F' (by decide) hrange.2
    · cases h

/-- A digit of a base up to sixteen is a letter or a decimal digit. -/
theorem IsDigit.isAlphanum {base : Nat} (hbase : base ≤ 16) {c : Char} {d : Nat}
    (h : IsDigit base c d) : c.isAlphanum := by
  have h : IsDigit 16 c d := ⟨Nat.lt_of_lt_of_le h.1 hbase, h.2⟩
  have hall : (digitValue? c).isSome → c.isAlphanum :=
    of_ascii (motive := fun c => (digitValue? c).isSome → c.isAlphanum) (toNat_lt_of_isDigit h)
      (by decide +kernel)
  exact hall (digitValue?_eq_some_iff.2 h ▸ rfl)

/-- The decimal digits are those of core, which are worth their distance from the digit zero. -/
theorem isDigit_ten_iff {c : Char} {d : Nat} :
    IsDigit 10 c d ↔ c.isDigit ∧ c.toNat - '0'.toNat = d := by
  have hall : c.toNat < 128 → ∀ d < 10, c.toLower = d.digitChar ↔
      c.isDigit ∧ c.toNat - '0'.toNat = d :=
    fun hc => of_ascii (motive := fun c => ∀ d < 10, c.toLower = d.digitChar ↔
      c.isDigit ∧ c.toNat - '0'.toNat = d) hc (by decide +kernel)
  constructor
  · intro h
    have hc : c.toNat < 128 := toNat_lt_of_isDigit ⟨Nat.lt_trans h.1 (by decide), h.2⟩
    exact (hall hc d h.1).1 h.2
  · intro h
    have hc : c.toNat ≤ '9'.toNat := by
      have hdigit := h.1
      rw [Char.isDigit, Bool.and_eq_true, decide_eq_true_eq, decide_eq_true_eq] at hdigit
      exact hdigit.2
    have hnine : '9'.toNat = '0'.toNat + 9 := rfl
    have hd : d < 10 := by omega
    exact ⟨hd, (hall (Nat.lt_of_le_of_lt hc (by decide)) d hd).2 h⟩

/-! ### Natural numbers -/

/-- Nonempty digits of base `base`, and the number that they stand for. -/
inductive Numeral (base : Nat) : List Char → Nat → Prop
  | digit {c : Char} {d : Nat} (hc : IsDigit base c d) : Numeral base [c] d
  | append {digits : List Char} {n : Nat} {c : Char} {d : Nat} (h : Numeral base digits n)
      (hc : IsDigit base c d) : Numeral base (digits ++ [c]) (base * n + d)

/-- A numeral has a digit. -/
theorem Numeral.ne_nil {base n : Nat} {digits : List Char} (h : Numeral base digits n) :
    digits ≠ [] := by
  cases h with
  | digit hc => exact List.cons_ne_nil _ _
  | append h hc => exact List.concat_ne_nil _ _

/-- A numeral has nothing but digits. -/
theorem Numeral.exists_isDigit {base n : Nat} {digits : List Char} (h : Numeral base digits n) :
    ∀ c ∈ digits, ∃ d, IsDigit base c d := by
  induction h with
  | @digit c d hc =>
    intro c' hc'
    rw [List.mem_singleton] at hc'
    exact ⟨d, hc' ▸ hc⟩
  | @append digits n c d h hc ih =>
    intro c' hc'
    rcases List.mem_append.1 hc' with hc' | hc'
    · exact ih c' hc'
    · rw [List.mem_singleton] at hc'
      exact ⟨d, hc' ▸ hc⟩

/-- A numeral of a base up to sixteen has letters and decimal digits only. -/
theorem Numeral.isAlphanum {base n : Nat} (hbase : base ≤ 16) {digits : List Char}
    (h : Numeral base digits n) : ∀ c ∈ digits, c.isAlphanum := by
  intro c hc
  obtain ⟨d, hd⟩ := h.exists_isDigit c hc
  exact hd.isAlphanum hbase

/-- A sign is no digit. -/
theorem Numeral.ne_cons_of_sign {base n : Nat} (hbase : base ≤ 16) {digits rest : List Char}
    (h : Numeral base digits n) {sign : Char} (hsign : sign.isAlphanum = false) :
    digits ≠ sign :: rest := by
  rintro rfl
  have := h.isAlphanum hbase sign List.mem_cons_self
  rw [hsign] at this
  cases this

/-- Digits behind others are read with what those are worth. -/
theorem naturalFrom?_append (base n : Nat) (cs ds : List Char) :
    naturalFrom? base n (cs ++ ds)
      = (naturalFrom? base n cs).bind fun m => naturalFrom? base m ds := by
  induction cs generalizing n with
  | nil => rfl
  | cons c cs ih =>
    rw [List.cons_append, naturalFrom?, naturalFrom?]
    cases digitValue? c with
    | none => rfl
    | some d =>
      by_cases hd : d < base
      · simp only [if_pos hd, ih]
      · simp only [if_neg hd, Option.bind_none]

/-- One digit is read behind what others are worth. -/
theorem naturalFrom?_singleton {base : Nat} (hbase : base ≤ 16) {n m : Nat} {c : Char} :
    naturalFrom? base n [c] = some m ↔ ∃ d, IsDigit base c d ∧ m = base * n + d := by
  rw [naturalFrom?]
  cases hvalue : digitValue? c with
  | none =>
    refine ⟨fun h => (nomatch h), ?_⟩
    rintro ⟨d, ⟨hd, hc⟩, -⟩
    rw [digitValue?_eq_some_iff.2 ⟨Nat.lt_of_lt_of_le hd hbase, hc⟩] at hvalue
    cases hvalue
  | some d =>
    have hc := (digitValue?_eq_some_iff.1 hvalue).2
    have hunique : ∀ d', IsDigit base c d' → d' = d := by
      intro d' hd'
      have hvalue' := digitValue?_eq_some_iff.2 ⟨Nat.lt_of_lt_of_le hd'.1 hbase, hd'.2⟩
      rw [hvalue] at hvalue'
      exact (Option.some.inj hvalue').symm
    by_cases hd : d < base
    · simp only [if_pos hd, naturalFrom?, Option.some.injEq, Nat.mul_comm n]
      constructor
      · exact fun h => ⟨d, ⟨hd, hc⟩, h.symm⟩
      · rintro ⟨d', hd', rfl⟩
        rw [hunique d' hd']
    · simp only [if_neg hd]
      refine ⟨fun h => (nomatch h), ?_⟩
      rintro ⟨d', hd', -⟩
      exact absurd (hunique d' hd' ▸ hd'.1) hd

/-- **Exactly the numerals are read as natural numbers**, and as what they stand for. -/
theorem natural?_eq_some_iff {base : Nat} (hbase : base ≤ 16) {cs : List Char} {n : Nat} :
    natural? base cs = some n ↔ Numeral base cs n := by
  constructor
  · intro h
    -- what is read is worth what its last digit makes of what is read of the others
    induction cs using List.reverseRecOn generalizing n with
    | nil => cases h
    | append_singleton cs c ih =>
      rw [natural?, if_neg (List.concat_ne_nil c cs), naturalFrom?_append,
        Option.bind_eq_some_iff] at h
      obtain ⟨m, hm, hlast⟩ := h
      obtain ⟨d, hd, rfl⟩ := (naturalFrom?_singleton hbase).1 hlast
      by_cases hcs : cs = []
      · subst hcs
        cases hm
        rw [Nat.mul_zero, Nat.zero_add]
        exact .digit hd
      · refine .append (ih ?_) hd
        rw [natural?, if_neg hcs, hm]
  · intro h
    have hread : naturalFrom? base 0 cs = some n := by
      induction h with
      | digit hc => exact (naturalFrom?_singleton hbase).2 ⟨_, hc, by omega⟩
      | append h hc ih =>
        rw [naturalFrom?_append, ih]
        exact (naturalFrom?_singleton hbase).2 ⟨_, hc, rfl⟩
    rw [natural?, if_neg h.ne_nil, hread]

/-- A decimal numeral is a nonempty text of decimal digits, worth what core makes of them. -/
theorem numeral_ten_iff {cs : List Char} {n : Nat} :
    Numeral 10 cs n ↔ cs ≠ [] ∧ (∀ c ∈ cs, c.isDigit) ∧ Nat.ofDigitChars 10 cs 0 = n := by
  constructor
  · intro h
    refine ⟨h.ne_nil, fun c hc => ?_, ?_⟩
    · obtain ⟨d, hd⟩ := h.exists_isDigit c hc
      exact (isDigit_ten_iff.1 hd).1
    · induction h with
      | digit hc =>
        rw [Nat.ofDigitChars_cons, Nat.ofDigitChars_nil, (isDigit_ten_iff.1 hc).2]
        omega
      | append h hc ih =>
        rw [Nat.ofDigitChars_append, ih, Nat.ofDigitChars_cons, Nat.ofDigitChars_nil,
          (isDigit_ten_iff.1 hc).2]
  · rintro ⟨hne, hdigits, rfl⟩
    induction cs using List.reverseRecOn with
    | nil => exact absurd rfl hne
    | append_singleton cs c ih =>
      rw [List.forall_mem_append, List.forall_mem_singleton] at hdigits
      have hc : IsDigit 10 c (c.toNat - '0'.toNat) := isDigit_ten_iff.2 ⟨hdigits.2, rfl⟩
      rw [Nat.ofDigitChars_append, Nat.ofDigitChars_cons, Nat.ofDigitChars_nil]
      by_cases hcs : cs = []
      · subst hcs
        rw [Nat.ofDigitChars_nil, Nat.mul_zero, Nat.zero_add]
        exact .digit hc
      · exact .append (ih hcs hdigits.1) hc

/-- A natural number as core prints it is a numeral. -/
theorem numeral_toDigits (n : Nat) : Numeral 10 (Nat.toDigits 10 n) n :=
  numeral_ten_iff.2 ⟨Nat.toDigits_ne_nil,
    fun _ => Nat.isDigit_of_mem_toDigits (by decide) (by decide), Nat.ofDigitChars_ten_toDigits⟩

/-! ### Numbers with a sign -/

/-- Behind a plus sign a number below a bound is read. -/
theorem unsigned?_plus (base bound : Nat) (digits : List Char) :
    unsigned? base bound ('+' :: digits)
      = (natural? base digits).bind fun n => if n < bound then some n else none := by
  simp only [unsigned?]
  cases natural? base digits with
  | none => rfl
  | some n => rfl

/-- Without a plus sign a number below a bound is read at once. -/
theorem unsigned?_of_ne (base bound : Nat) {cs : List Char} (h : ∀ digits, cs ≠ '+' :: digits) :
    unsigned? base bound cs
      = (natural? base cs).bind fun n => if n < bound then some n else none := by
  unfold unsigned?
  split
  · exact absurd rfl (h _)
  · cases hread : natural? base cs with
    | none => simp only [hread, Option.bind_none]
    | some n => simp only [hread, Option.bind_some]

/-- A number below a bound is read off a numeral, or off one behind a plus sign. -/
theorem unsigned?_eq_some_iff {base bound : Nat} (hbase : base ≤ 16) {cs : List Char} {n : Nat} :
    unsigned? base bound cs = some n ↔
      n < bound ∧ (Numeral base cs n ∨ ∃ digits, cs = '+' :: digits ∧ Numeral base digits n) := by
  have hbound : ∀ digits, ((natural? base digits).bind fun n => if n < bound then some n else none)
      = some n ↔ n < bound ∧ Numeral base digits n := by
    intro digits
    simp only [← natural?_eq_some_iff hbase, Option.bind_eq_some_iff,
      Option.ite_none_right_eq_some, Option.some.injEq]
    constructor
    · rintro ⟨m, hm, hlt, rfl⟩
      exact ⟨hlt, hm⟩
    · rintro ⟨hlt, hn⟩
      exact ⟨n, hn, hlt, rfl⟩
  by_cases hplus : ∃ digits, cs = '+' :: digits
  · obtain ⟨digits, rfl⟩ := hplus
    have hsign : ¬ Numeral base ('+' :: digits) n := fun h =>
      h.ne_cons_of_sign hbase (by decide) rfl
    rw [unsigned?_plus, hbound]
    simp [hsign]
  · rw [unsigned?_of_ne base bound (not_exists.1 hplus), hbound]
    refine and_congr_right fun _ => (or_iff_left ?_).symm
    rintro ⟨digits, rfl, -⟩
    exact hplus ⟨digits, rfl⟩

/-- Decimal digits behind a sign or none, and the integer that they stand for. -/
inductive Written : List Char → Int → Prop
  | bare {digits : List Char} {n : Nat} (h : Numeral 10 digits n) : Written digits n
  | plus {digits : List Char} {n : Nat} (h : Numeral 10 digits n) : Written ('+' :: digits) n
  | minus {digits : List Char} {n : Nat} (h : Numeral 10 digits n) : Written ('-' :: digits) (-n)

/-- An integer is written in digits and signs. -/
theorem Written.isDigit_or_eq {cs : List Char} {x : Int} (h : Written cs x) :
    ∀ c ∈ cs, c.isDigit ∨ c = '+' ∨ c = '-' := by
  cases h with
  | bare h => exact fun c hc => .inl ((numeral_ten_iff.1 h).2.1 c hc)
  | plus h =>
    rw [List.forall_mem_cons]
    exact ⟨.inr (.inl rfl), fun c hc => .inl ((numeral_ten_iff.1 h).2.1 c hc)⟩
  | minus h =>
    rw [List.forall_mem_cons]
    exact ⟨.inr (.inr rfl), fun c hc => .inl ((numeral_ten_iff.1 h).2.1 c hc)⟩

/-- **Exactly what writes an integer is read as one**, if the integer lies within the bound. -/
theorem signed?_eq_some_iff {bound : Nat} (hbound : 0 < bound) {cs : List Char} {x : Int} :
    signed? bound cs = some x ↔ Written cs x ∧ -(bound : Int) ≤ x ∧ x < bound := by
  constructor
  · intro h
    unfold signed? at h
    split at h
    · split at h
      · rename_i digits n hn
        split at h
        · cases h
          exact ⟨.minus ((natural?_eq_some_iff (by decide)).1 hn), by omega, by omega⟩
        · cases h
      · cases h
    · split at h
      · rename_i n hn
        cases h
        obtain ⟨hlt, hnumeral | ⟨digits, rfl, hnumeral⟩⟩ :=
          (unsigned?_eq_some_iff (by decide)).1 hn
        · exact ⟨.bare hnumeral, by omega, by omega⟩
        · exact ⟨.plus hnumeral, by omega, by omega⟩
      · cases h
  · rintro ⟨hx, hlow, hhigh⟩
    cases hx with
    | @minus digits n hn =>
      have hle : n ≤ bound := by omega
      simp only [signed?, (natural?_eq_some_iff (by decide)).2 hn, if_pos hle]
    | @plus digits n hn =>
      have hread : unsigned? 10 bound ('+' :: digits) = some n :=
        (unsigned?_eq_some_iff (by decide)).2 ⟨by omega, .inr ⟨digits, rfl, hn⟩⟩
      unfold signed?
      split
      · rename_i heq
        exact absurd heq (by simp)
      · rw [hread]
    | @bare digits n hn =>
      have hread : unsigned? 10 bound cs = some n :=
        (unsigned?_eq_some_iff (by decide)).2 ⟨by omega, .inl hn⟩
      unfold signed?
      split
      · exact absurd rfl (hn.ne_cons_of_sign (by decide) (by decide))
      · rw [hread]

/-- An integer as core prints it is written. -/
theorem written_toString (x : Int) : Written (toString x).toList x := by
  cases x with
  | ofNat n =>
    have htext : (toString (Int.ofNat n)).toList = Nat.toDigits 10 n := Nat.toList_repr
    rw [htext]
    exact .bare (numeral_toDigits n)
  | negSucc n =>
    have htext : (toString (Int.negSucc n)).toList = '-' :: Nat.toDigits 10 (n + 1) := by
      show ("-" ++ Nat.repr (n + 1)).toList = _
      rw [String.toList_append, Nat.toList_repr]
      rfl
    rw [htext]
    exact .minus (numeral_toDigits (n + 1))

end XmlQuery.Decimal
