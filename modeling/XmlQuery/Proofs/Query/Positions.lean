import XmlQuery.Proofs.Decimal.Numeral
import XmlQuery.Proofs.Query.Brackets

namespace XmlQuery.Query

/-!
# Positions in brackets

Digits in a bracket ask for one node of a result set, and two numbers with a colon between them ask
for a slice of it.  What lies beyond the result set is an error, as long as the numbers fit in 64
bits.  A bracket with a larger number stands for nothing that is known, and selects everything.

* `Expression.position?_eq` — the digits that are a position.
* `Expression.classify_numeral`, `Expression.classify_range` — what digits in a bracket stand for.
* `queryFrom_numeral`, `queryFrom_range` — what such a bracket makes of the answer to a query.
-/

open Decimal (Numeral)

/-! ### Contents of digits -/

/-- The decimal digits are of the class of digits. -/
theorem classOf_of_isDigit {c : Char} (h : c.isDigit) : classOf c = .digit := by
  have hne : ∀ x : Char, x.isDigit = false → c ≠ x := by
    rintro x hx rfl
    rw [h] at hx
    cases hx
  simp [classOf, h, hne ':' (by decide), hne '_' (by decide), hne '=' (by decide),
    hne '<' (by decide), hne '>' (by decide), hne '!' (by decide), hne '@' (by decide)]

/-- A numeral begins with a digit, and has no colon. -/
theorem exists_cons_of_numeral {digits : List Char} {n : Nat} (h : Numeral 10 digits n) :
    (∃ c rest, digits = c :: rest ∧ c.isDigit) ∧ ':' ∉ digits := by
  obtain ⟨hne, hdigits, -⟩ := Decimal.numeral_ten_iff.1 h
  obtain ⟨c, rest, rfl⟩ := List.exists_cons_of_ne_nil hne
  exact ⟨⟨c, rest, rfl, hdigits c List.mem_cons_self⟩,
    fun hcolon => absurd (hdigits _ hcolon) (by decide)⟩

namespace Expression

variable {digits digits' : List Char} {v w : Nat}

/-- A numeral is a position if it fits in 64 bits. -/
theorem position?_eq (h : Numeral 10 digits v) :
    position? digits = if lastPosition < v then none else some v := by
  rw [position?, (Decimal.natural?_eq_some_iff (by decide)).2 h]
  by_cases hv : lastPosition < v
  · rw [if_pos hv]
    exact if_neg (Nat.not_lt.2 hv)
  · rw [if_neg hv]
    exact if_pos (Nat.lt_succ_of_le (Nat.not_lt.1 hv))

/-- What does not consist of digits is no position. -/
theorem position?_eq_none {contents : List Char} {c : Char} (hc : c ∈ contents)
    (hdigit : c.isDigit = false) : position? contents = none := by
  have hread : Decimal.natural? 10 contents = none := by
    rw [Option.eq_none_iff_forall_ne_some]
    intro n hn
    have hnumeral := (Decimal.natural?_eq_some_iff (by decide)).1 hn
    have hall := (Decimal.numeral_ten_iff.1 hnumeral).2.1 c hc
    rw [hdigit] at hall
    cases hall
  rw [position?, hread]

/-- Contents that begin with a digit are a position, or else a range, or else nothing that is
    known. -/
theorem classify_of_isDigit {c : Char} (hc : c.isDigit) (rest : List Char) :
    (∀ i, position? (c :: rest) = some i → classify (c :: rest) = index i) ∧
      (position? (c :: rest) = none →
        (∀ first last, range? (c :: rest) = some (first, last) →
          classify (c :: rest) = range first last) ∧
        (range? (c :: rest) = none → classify (c :: rest) = unknown)) := by
  have hat : c ≠ '@' := by
    rintro rfl
    cases hc
  rw [classify, if_neg hat, if_pos (classOf_of_isDigit hc)]
  refine ⟨fun i hi => ?_, fun hnone => ⟨fun first last hrange => ?_, fun hrange => ?_⟩⟩
  · simp only [hi]
  · simp only [hnone, hrange]
  · simp only [hnone, hrange]

/-- **Digits stand for a position** if their number fits in 64 bits, and else for nothing that is
    known. -/
theorem classify_numeral (h : Numeral 10 digits v) :
    classify digits = if lastPosition < v then unknown else index v := by
  have hposition := position?_eq h
  obtain ⟨⟨c, rest, rfl, hc⟩, hcolon⟩ := exists_cons_of_numeral h
  by_cases hv : lastPosition < v
  · have hrange : range? (c :: rest) = none := by
      rw [range?, Text.splitAt?_eq_none_iff.2 hcolon]
    rw [if_pos hv] at hposition
    rw [if_pos hv, ((classify_of_isDigit hc rest).2 hposition).2 hrange]
  · rw [if_neg hv] at hposition
    rw [if_neg hv, (classify_of_isDigit hc rest).1 v hposition]

/-- **Two numbers with a colon between them stand for a range** if both fit in 64 bits, and else for
    nothing that is known. -/
theorem classify_range (h : Numeral 10 digits v) (h' : Numeral 10 digits' w) :
    classify (digits ++ ':' :: digits')
      = if lastPosition < v ∨ lastPosition < w then unknown else range v w := by
  obtain ⟨⟨c, rest, hdigits, hc⟩, hcolon⟩ := exists_cons_of_numeral h
  have hposition : position? (digits ++ ':' :: digits') = none :=
    position?_eq_none (List.mem_append_right _ List.mem_cons_self) (by decide)
  have hrange : range? (digits ++ ':' :: digits')
      = if lastPosition < v ∨ lastPosition < w then none else some (v, w) := by
    rw [range?, Text.splitAt?_append hcolon]
    simp only [position?_eq h, position?_eq h']
    by_cases hv : lastPosition < v
    · simp [hv]
    · by_cases hw : lastPosition < w
      · simp [hv, hw]
      · simp [hv, hw]
  have hcontents : digits ++ ':' :: digits' = c :: (rest ++ ':' :: digits') := by
    rw [hdigits, List.cons_append]
  rw [hcontents] at hposition hrange ⊢
  have hclassify := (classify_of_isDigit hc _).2 hposition
  by_cases hlarge : lastPosition < v ∨ lastPosition < w
  · rw [if_pos hlarge] at hrange
    rw [if_pos hlarge, hclassify.2 hrange]
  · rw [if_neg hlarge] at hrange
    rw [if_neg hlarge, hclassify.1 v w hrange]

end Expression

/-! ### Brackets of digits -/

/-- Digits and colons are collected as they are. -/
theorem reads_positions {contents : List Char} (h : ∀ c ∈ contents, c.isDigit ∨ c = ':') :
    (Pending.bracket [] none false).Reads contents [] (.bracket contents none false) := by
  have hne : ∀ c ∈ contents, ∀ x : Char, x.isDigit = false → x ≠ ':' → c ≠ x := by
    rintro c hc x hx hcolon rfl
    rcases h c hc with hdigit | heq
    · rw [hdigit] at hx
      cases hx
    · exact hcolon heq
  have hplain : ∀ c ∈ contents, isPlain c := by
    intro c hc
    have hne := hne c hc
    simp [isPlain, hne '\\' (by decide) (by decide), hne '"' (by decide) (by decide),
      hne '\x27' (by decide) (by decide), hne ']' (by decide) (by decide)]
  refine Pending.reads_plain hplain fun _ c hc => ?_
  have hne := hne c (List.mem_of_mem_head? hc)
  exact ⟨hne ' ' (by decide) (by decide), hne '\t' (by decide) (by decide)⟩

variable {d : Document} {start : Nat} {p : String} {found : List Nat} {digits digits' : String}
  {v w : Nat}

/-- A position behind a query selects one of the nodes that the query finds.  It is an error if
    there are no more than so many, and a number that does not fit in 64 bits selects everything. -/
theorem queryFrom_numeral (hp : d.queryFrom start p = .ok found)
    (hv : Numeral 10 digits.toList v) :
    d.queryFrom start (p ++ "[" ++ digits ++ "]")
      = if lastPosition < v then .ok found
        else if h : v < found.length then .ok [found[v]]
        else .error (.evaluation
          (.indexOutOfRange v (min (v + 1) lastPosition) found.length)) := by
  have hreads := reads_positions fun c hc => .inl ((Decimal.numeral_ten_iff.1 hv).2.1 c hc)
  have hquery : p ++ "[" ++ digits ++ "]" = p ++ ("[" ++ digits ++ "]") := by
    simp only [String.append_assoc]
  rw [hquery, queryFrom_bracket hreads hp, Expression.classify_numeral hv]
  split
  · rfl
  · rw [Expression.apply]
    split
    · rename_i id hid
      obtain ⟨hlt, rfl⟩ := List.getElem?_eq_some_iff.1 hid
      rw [dif_pos hlt]
      rfl
    · rename_i hnone
      rw [dif_neg (Nat.not_lt.2 (List.getElem?_eq_none_iff.1 hnone))]
      rfl

/-- A range behind a query selects a slice of the nodes that the query finds.  It is an error if the
    slice does not exist, and a number that does not fit in 64 bits selects everything. -/
theorem queryFrom_range (hp : d.queryFrom start p = .ok found)
    (hv : Numeral 10 digits.toList v) (hw : Numeral 10 digits'.toList w) :
    d.queryFrom start (p ++ "[" ++ digits ++ ":" ++ digits' ++ "]")
      = if lastPosition < v ∨ lastPosition < w then .ok found
        else if v ≤ w ∧ w ≤ found.length then .ok (found.extract v w)
        else .error (.evaluation (.indexOutOfRange v w found.length)) := by
  have hcontents : (digits ++ ":" ++ digits').toList = digits.toList ++ ':' :: digits'.toList := by
    rw [String.toList_append, String.toList_append, List.append_assoc]
    rfl
  have hreads : (Pending.bracket [] none false).Reads (digits ++ ":" ++ digits').toList []
      (.bracket (digits ++ ":" ++ digits').toList none false) := by
    refine reads_positions fun c hc => ?_
    rw [hcontents, List.mem_append, List.mem_cons] at hc
    rcases hc with hc | hc | hc
    · exact .inl ((Decimal.numeral_ten_iff.1 hv).2.1 c hc)
    · exact .inr hc
    · exact .inl ((Decimal.numeral_ten_iff.1 hw).2.1 c hc)
  have hquery : p ++ "[" ++ digits ++ ":" ++ digits' ++ "]"
      = p ++ ("[" ++ (digits ++ ":" ++ digits') ++ "]") := by
    simp only [String.append_assoc]
  rw [hquery, queryFrom_bracket hreads hp, hcontents, Expression.classify_range hv hw]
  split
  · rfl
  · rw [Expression.apply]
    split
    · rw [List.extract_eq_take_drop, List.drop_take]
      rfl
    · rfl

/-- **What lies beyond the result set is an error, as long as it is asked for by numbers of 64
    bits.**  Behind a query, digits in a bracket select the one node at their position, and two
    numbers with a colon the slice from the first one up to the second one; both fail exactly if
    there is no such node, or no such slice.  A number that does not fit in 64 bits is no position,
    and its bracket selects everything that the query finds. -/
theorem queryFrom_positions (hp : d.queryFrom start p = .ok found)
    (hv : Numeral 10 digits.toList v) (hw : Numeral 10 digits'.toList w) :
    d.queryFrom start (p ++ "[" ++ digits ++ "]")
        = (if lastPosition < v then .ok found
          else if h : v < found.length then .ok [found[v]]
          else .error (.evaluation
            (.indexOutOfRange v (min (v + 1) lastPosition) found.length))) ∧
      d.queryFrom start (p ++ "[" ++ digits ++ ":" ++ digits' ++ "]")
        = (if lastPosition < v ∨ lastPosition < w then .ok found
          else if v ≤ w ∧ w ≤ found.length then .ok (found.extract v w)
          else .error (.evaluation (.indexOutOfRange v w found.length))) :=
  ⟨queryFrom_numeral hp hv, queryFrom_range hp hv hw⟩

/-- Zeros in front of a position do not matter, and the last number of 64 bits is still a position
    that there is not. -/
theorem queryFrom_positions_padded :
    let d := (((Document.ofEncoding "utf-8").edit (.addChild 0 "r" [])).edit
      (.addChild 1 "a" [])).edit (.addChild 1 "a" [])
    d.queryFrom 0 "//a" = .ok [2, 3] ∧
      Numeral 10 "001".toList 1 ∧ Numeral 10 "18446744073709551615".toList lastPosition ∧
      d.queryFrom 0 ("//a" ++ "[" ++ "001" ++ "]") = .ok [3] ∧
      d.queryFrom 0 ("//a" ++ "[" ++ "001" ++ ":" ++ "18446744073709551615" ++ "]")
        = .error (.evaluation (.indexOutOfRange 1 lastPosition 2)) := by
  intro d
  have hp : d.queryFrom 0 "//a" = .ok [2, 3] := by decide
  have hv : Numeral 10 "001".toList 1 :=
    Decimal.numeral_ten_iff.2 ⟨by decide, List.all_eq_true.1 (by decide), by decide⟩
  have hw : Numeral 10 "18446744073709551615".toList lastPosition :=
    Decimal.numeral_ten_iff.2 ⟨by decide, List.all_eq_true.1 (by decide), by decide⟩
  exact ⟨hp, hv, hw, queryFrom_positions hp hv hw⟩

/-- A number that does not fit in 64 bits asks for nothing, although there is no node at its
    position. -/
theorem exists_queryFrom_position_ignored :
    let d := (Document.ofEncoding "utf-8").edit (.addChild 0 "r" [])
    let digits := "18446744073709551616"
    d.Reachable ∧ d.queryFrom 0 "/*" = .ok [1] ∧ Numeral 10 digits.toList (lastPosition + 1) ∧
      d.queryFrom 0 ("/*" ++ "[" ++ digits ++ "]") = .ok [1] ∧
      d.queryFrom 0 ("/*" ++ "[" ++ digits ++ ":" ++ digits ++ "]") = .ok [1] := by
  intro d digits
  have hd : d.Reachable := (Document.Reachable.ofEncoding "utf-8").edited (.addChild 0 "r" [])
  have hp : d.queryFrom 0 "/*" = .ok [1] := by decide
  have hv : Numeral 10 digits.toList (lastPosition + 1) :=
    Decimal.numeral_ten_iff.2 ⟨by decide, List.all_eq_true.1 (by decide), by decide⟩
  exact ⟨hd, hp, hv, queryFrom_numeral hp hv, queryFrom_range hp hv hv⟩

end XmlQuery.Query
