import XmlQuery.Proofs.Decimal.Numeral
import XmlQuery.Proofs.Markup.Escaping
import XmlQuery.Text.Utf8

namespace XmlQuery.Markup.Reference

/-!
# What counts as a reference

A text is decoded from left to right.  A reference in it is replaced by its character, and an
ampersand that begins none is kept, with all that stands behind it still to be read.  Which bodies
make up a reference is a grammar of its own: five names, and codes in decimal or hexadecimal digits.
A plus sign in front of the digits of a code is read over.

* `Refers`, `Signed` — the bodies of references, and those with a plus sign in front of the digits.
* `resolve?_eq_some_iff` — exactly these bodies stand for a character.
* `Replaces` — one text is another one with its references replaced, for any grammar of bodies.
* `replaces_accepted_iff` — decoding replaces what is accepted, and nothing else.
* `replaces_refers_decode_iff` — it replaces what has no sign, and nothing else, exactly if no body
  in the text has one.
-/

open Decimal (Numeral)

/-! ### Bodies -/

/-- The bodies of references, and the characters that they stand for. -/
inductive Refers : List Char → Char → Prop
  | lt : Refers ['l', 't'] '<'
  | gt : Refers ['g', 't'] '>'
  | amp : Refers ['a', 'm', 'p'] '&'
  | quot : Refers ['q', 'u', 'o', 't'] '"'
  | apos : Refers ['a', 'p', 'o', 's'] '\x27'
  | decimal {digits : List Char} {c : Char} (h : Numeral 10 digits c.toNat) :
      Refers ('#' :: digits) c
  | hexadecimal {x : Char} {digits : List Char} {c : Char} (hx : x = 'x' ∨ x = 'X')
      (h : Numeral 16 digits c.toNat) : Refers ('#' :: x :: digits) c

/-- Bodies with a plus sign in front of the digits of a code, and the characters with that code. -/
inductive Signed : List Char → Char → Prop
  | decimal {digits : List Char} {c : Char} (h : Numeral 10 digits c.toNat) :
      Signed ('#' :: '+' :: digits) c
  | hexadecimal {x : Char} {digits : List Char} {c : Char} (hx : x = 'x' ∨ x = 'X')
      (h : Numeral 16 digits c.toNat) : Signed ('#' :: x :: '+' :: digits) c

/-- Bodies with a sign or none. -/
def Accepted (body : List Char) (c : Char) : Prop :=
  Refers body c ∨ Signed body c

/-- The code of a character is that of no other one, and every other number is no code. -/
theorem scalar?_eq_some_iff {n : Nat} {c : Char} : scalar? n = some c ↔ n = c.toNat := by
  unfold scalar?
  split
  · rename_i hvalid
    rw [Option.some.injEq]
    constructor
    · rintro rfl
      exact (Utf8.toNat_ofNat_of_valid hvalid).symm
    · rintro rfl
      exact Char.ofNat_toNat c
  · rename_i hvalid
    refine ⟨fun h => (nomatch h), ?_⟩
    rintro rfl
    exact absurd c.valid hvalid

/-- The digits of a code are those of a numeral, perhaps behind a plus sign. -/
theorem code_eq_some_iff {base : Nat} (hbase : base ≤ 16) {digits : List Char} {c : Char} :
    (Decimal.unsigned? base 0x100000000 digits).bind scalar? = some c ↔
      Numeral base digits c.toNat ∨
        ∃ more, digits = '+' :: more ∧ Numeral base more c.toNat := by
  rw [Option.bind_eq_some_iff]
  constructor
  · rintro ⟨n, hn, hc⟩
    obtain rfl := scalar?_eq_some_iff.1 hc
    exact ((Decimal.unsigned?_eq_some_iff hbase).1 hn).2
  · intro h
    have hlt : c.toNat < 0x100000000 := c.val.toNat_lt
    exact ⟨c.toNat, (Decimal.unsigned?_eq_some_iff hbase).2 ⟨hlt, h⟩, scalar?_eq_some_iff.2 rfl⟩

/-- **Exactly the bodies with a sign or none stand for a character.** -/
theorem resolve?_eq_some_iff {body : List Char} {c : Char} :
    resolve? body = some c ↔ Accepted body c := by
  constructor
  · intro h
    unfold resolve? at h
    split at h
    · cases h
      exact .inl .lt
    · cases h
      exact .inl .gt
    · cases h
      exact .inl .amp
    · cases h
      exact .inl .quot
    · cases h
      exact .inl .apos
    · rcases (code_eq_some_iff (by decide)).1 h with hcode | ⟨digits, rfl, hcode⟩
      · exact .inl (.hexadecimal (.inl rfl) hcode)
      · exact .inr (.hexadecimal (.inl rfl) hcode)
    · rcases (code_eq_some_iff (by decide)).1 h with hcode | ⟨digits, rfl, hcode⟩
      · exact .inl (.hexadecimal (.inr rfl) hcode)
      · exact .inr (.hexadecimal (.inr rfl) hcode)
    · rcases (code_eq_some_iff (by decide)).1 h with hcode | ⟨digits, rfl, hcode⟩
      · exact .inl (.decimal hcode)
      · exact .inr (.decimal hcode)
    · cases h
  · rintro (h | h)
    · cases h with
      | lt | gt | amp | quot | apos => rfl
      | @decimal digits _ h =>
        -- the digits do not begin with the letter of hexadecimal ones
        have hdigits := (Decimal.numeral_ten_iff.1 h).2.1
        have hcode := (code_eq_some_iff (by decide)).2 (.inl h)
        unfold resolve?
        split <;> simp_all
      | hexadecimal hx h =>
        have hcode := (code_eq_some_iff (by decide)).2 (.inl h)
        rcases hx with rfl | rfl
        · exact hcode
        · exact hcode
    · cases h with
      | decimal h => exact (code_eq_some_iff (by decide)).2 (.inr ⟨_, rfl, h⟩)
      | hexadecimal hx h =>
        have hcode := (code_eq_some_iff (by decide)).2 (.inr ⟨_, rfl, h⟩)
        rcases hx with rfl | rfl
        · exact hcode
        · exact hcode

/-- A body without a sign is made of letters and digits, and the mark of a code. -/
theorem Refers.isAlphanum_or_eq {body : List Char} {c : Char} (h : Refers body c) :
    ∀ a ∈ body, a.isAlphanum ∨ a = '#' := by
  cases h with
  | lt | gt | amp | quot | apos => exact List.all_iff_forall_prop.1 (by decide)
  | decimal h =>
    rw [List.forall_mem_cons]
    exact ⟨.inr rfl, fun a ha => .inl (h.isAlphanum (by decide) a ha)⟩
  | hexadecimal hx h =>
    rw [List.forall_mem_cons, List.forall_mem_cons]
    refine ⟨.inr rfl, .inl ?_, fun a ha => .inl (h.isAlphanum (by decide) a ha)⟩
    rcases hx with rfl | rfl <;> decide

/-- A body with a sign is one without it, and the sign. -/
theorem Signed.exists_refers {body : List Char} {c : Char} (h : Signed body c) :
    ∃ front digits, body = front ++ '+' :: digits ∧ Refers (front ++ digits) c := by
  cases h with
  | @decimal digits c h => exact ⟨['#'], digits, rfl, .decimal h⟩
  | @hexadecimal x digits c hx h => exact ⟨['#', x], digits, rfl, .hexadecimal hx h⟩

/-- No body is one with and without a sign. -/
theorem Signed.not_refers {body : List Char} {c c' : Char} (h : Signed body c) :
    ¬ Refers body c' := by
  intro hrefers
  obtain ⟨front, digits, rfl, -⟩ := h.exists_refers
  have hplus := hrefers.isAlphanum_or_eq '+' (List.mem_append_right _ List.mem_cons_self)
  revert hplus
  decide

/-- A body holds neither of the marks around it. -/
theorem Accepted.marks_notMem {body : List Char} {c : Char} (h : Accepted body c) :
    '&' ∉ body ∧ ';' ∉ body := by
  have hmarks : ∀ {body}, Refers body c → '&' ∉ body ∧ ';' ∉ body := fun h =>
    ⟨fun hmem => absurd (h.isAlphanum_or_eq _ hmem) (by decide),
      fun hmem => absurd (h.isAlphanum_or_eq _ hmem) (by decide)⟩
  rcases h with h | h
  · exact hmarks h
  · obtain ⟨front, digits, rfl, hrefers⟩ := h.exists_refers
    have hnone := hmarks hrefers
    simp only [List.mem_append, not_or] at hnone
    simp [hnone]

/-! ### Texts -/

/-- One text is another one with its references replaced from left to right, where `grammar` says
    which bodies stand for which characters.  A body ends at the first semicolon behind its
    ampersand.  An ampersand that begins no reference is kept, and reading goes on right behind
    it. -/
inductive Replaces (grammar : List Char → Char → Prop) : List Char → List Char → Prop
  | nil : Replaces grammar [] []
  | plain {c : Char} {cs out : List Char} (hc : c ≠ '&') (h : Replaces grammar cs out) :
      Replaces grammar (c :: cs) (c :: out)
  | reference {body rest out : List Char} {c : Char} (hbody : ';' ∉ body) (hc : grammar body c)
      (h : Replaces grammar rest out) : Replaces grammar ('&' :: (body ++ ';' :: rest)) (c :: out)
  | ampersand {cs out : List Char}
      (hnone : ∀ body rest c, ';' ∉ body → cs = body ++ ';' :: rest → ¬ grammar body c)
      (h : Replaces grammar cs out) : Replaces grammar ('&' :: cs) ('&' :: out)

/-- A text holds one body up to its first semicolon. -/
theorem body_unique {body body' rest rest' : List Char} (hbody : ';' ∉ body) (hbody' : ';' ∉ body')
    (h : body ++ ';' :: rest = body' ++ ';' :: rest') : body = body' ∧ rest = rest' := by
  have hsplit := congrArg (Text.splitAt? ';') h
  rw [Text.splitAt?_append hbody, Text.splitAt?_append hbody'] at hsplit
  cases hsplit
  exact ⟨rfl, rfl⟩

/-- What is read behind an ampersand is an accepted body up to the first semicolon. -/
theorem read?_eq_some_iff {cs rest : List Char} {c : Char} :
    read? cs = some (c, rest) ↔
      ∃ body, ';' ∉ body ∧ cs = body ++ ';' :: rest ∧ Accepted body c := by
  unfold read?
  constructor
  · intro h
    split at h
    · rename_i body rest' hsplit
      obtain ⟨c', hc', heq⟩ := Option.map_eq_some_iff.1 h
      cases heq
      obtain ⟨hcs, hbody⟩ := Text.splitAt?_eq_append hsplit
      exact ⟨body, hbody, hcs, resolve?_eq_some_iff.1 hc'⟩
    · cases h
  · rintro ⟨body, hbody, rfl, hc⟩
    simp only [Text.splitAt?_append hbody, resolve?_eq_some_iff.2 hc, Option.map_some]

/-- Nothing is read behind an ampersand exactly if no accepted body stands there. -/
theorem read?_eq_none_iff {cs : List Char} :
    read? cs = none ↔
      ∀ body rest c, ';' ∉ body → cs = body ++ ';' :: rest → ¬ Accepted body c := by
  rw [Option.eq_none_iff_forall_ne_some]
  constructor
  · exact fun h body rest c hbody hcs hc =>
      h (c, rest) (read?_eq_some_iff.2 ⟨body, hbody, hcs, hc⟩)
  · rintro h ⟨c, rest⟩ hread
    obtain ⟨body, hbody, hcs, hc⟩ := read?_eq_some_iff.1 hread
    exact h body rest c hbody hcs hc

/-- Decoding replaces the references whose bodies are accepted. -/
theorem replaces_decode (cs : List Char) : Replaces Accepted cs (decode cs) := by
  fun_induction decode cs with
  | case1 => exact .nil
  | case2 cs c rest hread ih =>
    obtain ⟨body, hbody, rfl, hc⟩ := read?_eq_some_iff.1 hread
    exact .reference hbody hc ih
  | case3 cs hread ih => exact .ampersand (read?_eq_none_iff.1 hread) ih
  | case4 c cs hc ih => exact .plain hc ih

/-- **Decoding replaces the references whose bodies are accepted, and keeps all else.** -/
theorem replaces_accepted_iff {cs out : List Char} :
    Replaces Accepted cs out ↔ out = decode cs := by
  constructor
  · intro h
    induction h with
    | nil => rw [decode]
    | plain hc h ih => rw [decode_cons_of_ne hc, ih]
    | reference hbody hc h ih =>
      rw [decode_ampersand_cons, read?_eq_some_iff.2 ⟨_, hbody, rfl, hc⟩, ih]
    | ampersand hnone h ih => rw [decode_ampersand_cons, read?_eq_none_iff.2 hnone, ih]
  · rintro rfl
    exact replaces_decode cs

/-! ### Signs -/

/-- Whether a reference with a sign stands somewhere in a text. -/
def HoldsSigned (cs : List Char) : Prop :=
  ∃ before body after c, cs = before ++ '&' :: (body ++ ';' :: after) ∧ Signed body c

/-- A text without an ampersand is kept in front of what is decoded. -/
theorem decode_append_of_notMem {front : List Char} (h : '&' ∉ front) (cs : List Char) :
    decode (front ++ cs) = front ++ decode cs := by
  induction front with
  | nil => rfl
  | cons c front ih =>
    rw [List.mem_cons, not_or] at h
    rw [List.cons_append, decode_cons_of_ne (Ne.symm h.1), ih h.2, List.cons_append]

/-- A reference with a sign does not begin in a text without an ampersand. -/
theorem holdsSigned_append_iff {front : List Char} (h : '&' ∉ front) {cs : List Char} :
    HoldsSigned (front ++ cs) ↔ HoldsSigned cs := by
  constructor
  · rintro ⟨before, body, after, c, heq, hc⟩
    rcases List.append_eq_append_iff.1 heq with ⟨between, rfl, rfl⟩ | ⟨between, rfl, hcs⟩
    · exact ⟨between, body, after, c, rfl, hc⟩
    · cases between with
      | nil => exact ⟨[], body, after, c, hcs.symm, hc⟩
      | cons a between =>
        rw [List.cons_append, List.cons.injEq] at hcs
        exact absurd (List.mem_append_right before (hcs.1 ▸ List.mem_cons_self)) h
  · rintro ⟨before, body, after, c, rfl, hc⟩
    exact ⟨front ++ before, body, after, c, (List.append_assoc _ _ _).symm, hc⟩

/-- A reference with a sign begins at an ampersand or stands behind it. -/
theorem holdsSigned_ampersand_iff {cs : List Char} :
    HoldsSigned ('&' :: cs) ↔
      (∃ body after c, cs = body ++ ';' :: after ∧ Signed body c) ∨ HoldsSigned cs := by
  constructor
  · rintro ⟨before, body, after, c, heq, hc⟩
    cases before with
    | nil =>
      cases heq
      exact .inl ⟨body, after, c, rfl, hc⟩
    | cons a before =>
      cases heq
      exact .inr ⟨before, body, after, c, rfl, hc⟩
  · rintro (⟨body, after, c, rfl, hc⟩ | ⟨before, body, after, c, rfl, hc⟩)
    · exact ⟨[], body, after, c, rfl, hc⟩
    · exact ⟨'&' :: before, body, after, c, rfl, hc⟩

/-- Where references with a sign are kept the text is no shorter than the decoded one, and longer
    if there is such a reference. -/
theorem length_decode_le {cs out : List Char} (h : Replaces Refers cs out) :
    (decode cs).length ≤ out.length ∧ (HoldsSigned cs → (decode cs).length < out.length) := by
  induction h with
  | nil =>
    refine ⟨Nat.le_of_eq (by rw [decode]), ?_⟩
    rintro ⟨before, body, after, c, heq, -⟩
    cases before <;> cases heq
  | @plain c cs out hc h ih =>
    have hfront : '&' ∉ [c] := fun hmem => hc (List.mem_singleton.1 hmem).symm
    rw [decode_cons_of_ne hc, List.length_cons, List.length_cons]
    refine ⟨Nat.succ_le_succ ih.1, fun hholds => Nat.succ_lt_succ (ih.2 ?_)⟩
    exact (holdsSigned_append_iff hfront).1 hholds
  | @reference body rest out c hbody hc h ih =>
    have hread : read? (body ++ ';' :: rest) = some (c, rest) :=
      read?_eq_some_iff.2 ⟨body, hbody, rfl, .inl hc⟩
    rw [decode_ampersand_cons, hread]
    refine ⟨Nat.succ_le_succ ih.1, fun hholds => Nat.succ_lt_succ (ih.2 ?_)⟩
    -- the body that is replaced has no sign, and no ampersand either
    rcases holdsSigned_ampersand_iff.1 hholds with ⟨body', after, c', heq, hc'⟩ | hholds
    · obtain ⟨rfl, -⟩ := body_unique hbody (Accepted.marks_notMem (.inr hc')).2 heq
      exact absurd hc hc'.not_refers
    · have hfront : '&' ∉ body ++ [';'] := by
        simp [(Accepted.marks_notMem (.inl hc)).1]
      rw [List.append_cons] at hholds
      exact (holdsSigned_append_iff hfront).1 hholds
  | @ampersand cs out hnone h ih =>
    rw [decode_ampersand_cons]
    cases hread : read? cs with
    | none =>
      refine ⟨Nat.succ_le_succ ih.1, fun hholds => Nat.succ_lt_succ (ih.2 ?_)⟩
      rcases holdsSigned_ampersand_iff.1 hholds with ⟨body, after, c, rfl, hc⟩ | hholds
      · have hbody := (Accepted.marks_notMem (.inr hc)).2
        exact absurd (.inr hc) (read?_eq_none_iff.1 hread body after c hbody rfl)
      · exact hholds
    | some found =>
      -- what is read has a sign, and all of it would have been kept
      obtain ⟨c, rest⟩ := found
      obtain ⟨body, hbody, rfl, hc⟩ := read?_eq_some_iff.1 hread
      have hfront : '&' ∉ body ++ [';'] := by simp [hc.marks_notMem.1]
      have hlength := ih.1
      rw [List.append_cons, decode_append_of_notMem hfront] at hlength
      simp only [List.length_append, List.length_cons, List.length_nil] at hlength ⊢
      omega

/-- **Decoding replaces exactly the references without a sign** if and only if there are no others
    in the text. -/
theorem replaces_refers_decode_iff {cs : List Char} :
    Replaces Refers cs (decode cs) ↔ ¬ HoldsSigned cs := by
  constructor
  · exact fun h hholds => Nat.lt_irrefl _ ((length_decode_le h).2 hholds)
  · intro hholds
    have h := replaces_decode cs
    generalize decode cs = out at h
    induction h with
    | nil => exact .nil
    | @plain c cs out hc h ih =>
      have hfront : '&' ∉ [c] := fun hmem => hc (List.mem_singleton.1 hmem).symm
      exact .plain hc (ih fun hholds' => hholds ((holdsSigned_append_iff hfront).2 hholds'))
    | @reference body rest out c hbody hc h ih =>
      have hfront : '&' ∉ body ++ [';'] := by simp [hc.marks_notMem.1]
      refine .reference hbody (hc.resolve_right fun hc => ?_) (ih fun hholds' => ?_)
      · exact hholds (holdsSigned_ampersand_iff.2 (.inl ⟨body, rest, c, rfl, hc⟩))
      · have hbehind := (holdsSigned_append_iff hfront).2 hholds'
        rw [List.append_cons] at hholds
        exact hholds (holdsSigned_ampersand_iff.2 (.inr hbehind))
    | ampersand hnone h ih =>
      refine .ampersand (fun body rest c hbody hcs hc => hnone body rest c hbody hcs (.inl hc)) ?_
      exact ih fun hholds' => hholds (holdsSigned_ampersand_iff.2 (.inr hholds'))

/-- **Decoding is the replacement of references from left to right.**  It replaces exactly those
    whose body is a name, or a code in digits behind a plus sign or none, and keeps everything else.
    So it replaces exactly the references without a sign if and only if there are no others in the
    text. -/
theorem decode_replaces (cs : List Char) :
    (∀ out, Replaces Accepted cs out ↔ out = decode cs) ∧
      (Replaces Refers cs (decode cs) ↔ ¬ HoldsSigned cs) :=
  ⟨fun _ => replaces_accepted_iff, replaces_refers_decode_iff⟩

/-- A plus sign in front of the code of a character is read over, although the grammar without signs
    knows no reference there and keeps the text as it is. -/
theorem exists_decode_signed :
    let cs := ['&', '#', '+', '6', '5', ';']
    decode cs = ['A'] ∧ Replaces Refers cs cs ∧ ¬ Replaces Refers cs (decode cs) := by
  intro cs
  have hsigned : Signed ['#', '+', '6', '5'] 'A' :=
    .decimal (Decimal.numeral_ten_iff.2 ⟨by decide, List.all_eq_true.1 (by decide), by decide⟩)
  have hbody : ';' ∉ ['#', '+', '6', '5'] := by decide
  have hdecode : decode cs = ['A'] := by
    have h := decode_reference _ hbody (resolve?_eq_some_iff.2 (.inr hsigned)) []
    rwa [decode] at h
  have hkept : Replaces Refers cs cs := by
    refine .ampersand (fun body rest c hbody' heq => ?_) ?_
    · obtain ⟨rfl, -⟩ := body_unique hbody hbody' heq
      exact hsigned.not_refers
    · exact .plain (by decide) (.plain (by decide) (.plain (by decide) (.plain (by decide)
        (.plain (by decide) .nil))))
  have hholds : HoldsSigned cs := ⟨[], ['#', '+', '6', '5'], [], 'A', rfl, hsigned⟩
  exact ⟨hdecode, hkept, fun h => replaces_refers_decode_iff.1 h hholds⟩

end XmlQuery.Markup.Reference
