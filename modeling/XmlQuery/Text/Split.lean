namespace XmlQuery.Text

/-!
# Splitting a sequence at a mark

A mark is a sequence of symbols looked for in another one: a closing delimiter in a document, an
operator in a predicate.

* `splitAround?` — the parts before and after the first occurrence of a mark.
* `splitAround?_eq_append` — the parts and the mark make up the whole again.
* `splitAround?_least` — no occurrence of the mark begins earlier than the one split at.
* `splitAround?_eq_none_iff` — a sequence is left whole exactly if the mark does not occur in it.
* `splitAround?_append_of_notMem` — what does not hold the first symbol of a mark is passed.
* `splitAt?` — the same for a mark of one symbol.
-/

variable {α : Type} [DecidableEq α]

/-- The parts of a sequence before and after the first occurrence of `mark`, or `none` where it
    does not occur. -/
def splitAround? (mark : List α) : List α → Option (List α × List α)
  | [] => if mark = [] then some ([], []) else none
  | c :: cs =>
    if mark <+: c :: cs then some ([], (c :: cs).drop mark.length)
    else
      match splitAround? mark cs with
      | some (before, after) => some (c :: before, after)
      | none => none

/-- The parts of a sequence before and after the first `mark`, or `none` where there is none. -/
def splitAt? (mark : α) : List α → Option (List α × List α)
  | [] => none
  | c :: cs =>
    if c = mark then some ([], cs)
    else
      match splitAt? mark cs with
      | some (before, after) => some (c :: before, after)
      | none => none

/-- Splitting loses nothing: the first part, the mark and the second part make up the whole. -/
theorem splitAround?_eq_append {mark cs before after : List α}
    (h : splitAround? mark cs = some (before, after)) : cs = before ++ mark ++ after := by
  induction cs generalizing before with
  | nil =>
    simp only [splitAround?] at h
    split at h
    · simp_all
    · exact absurd h (by simp)
  | cons c cs ih =>
    simp only [splitAround?] at h
    split at h
    · rename_i hmark
      obtain ⟨rest, hrest⟩ := hmark
      simp only [← hrest, List.drop_left, Option.some.injEq, Prod.mk.injEq] at h
      obtain ⟨rfl, rfl⟩ := h
      simpa using hrest.symm
    · split at h
      · rename_i b a hba
        simp only [Option.some.injEq, Prod.mk.injEq] at h
        obtain ⟨rfl, rfl⟩ := h
        simpa using ih hba
      · exact absurd h (by simp)

/-- No mark occurs before the first one: every other way to write the sequence around `mark` has a
    first part at least as long. -/
theorem splitAround?_least {mark cs before after : List α}
    (h : splitAround? mark cs = some (before, after)) {b a : List α} (hcs : cs = b ++ mark ++ a) :
    before.length ≤ b.length := by
  induction cs generalizing before b with
  | nil =>
    simp only [splitAround?] at h
    split at h
    · simp_all
    · exact absurd h (by simp)
  | cons c cs ih =>
    simp only [splitAround?] at h
    split at h
    · simp only [Option.some.injEq, Prod.mk.injEq] at h
      simp [← h.1]
    · rename_i hmark
      split at h
      · rename_i before' after' hsplit
        simp only [Option.some.injEq, Prod.mk.injEq] at h
        obtain ⟨rfl, rfl⟩ := h
        cases b with
        | nil => exact absurd ⟨a, by simpa using hcs.symm⟩ hmark
        | cons x b =>
          simp only [List.cons_append, List.cons.injEq] at hcs
          exact Nat.succ_le_succ (ih hsplit hcs.2)
      · exact absurd h (by simp)

/-- A sequence is split exactly if the mark occurs in it. -/
theorem splitAround?_eq_none_iff {mark cs : List α} :
    splitAround? mark cs = none ↔ ¬ mark <:+: cs := by
  induction cs with
  | nil => simp [splitAround?, List.infix_nil]
  | cons c cs ih =>
    simp only [splitAround?, List.infix_cons_iff]
    split
    · rename_i hmark
      simp [hmark]
    · rename_i hmark
      simp only [hmark, false_or, ← ih]
      split <;> simp_all

/-- A mark at the front leaves nothing before it. -/
theorem splitAround?_of_prefix (mark rest : List α) :
    splitAround? mark (mark ++ rest) = some ([], rest) := by
  cases hcs : mark ++ rest with
  | nil =>
    obtain ⟨rfl, rfl⟩ := List.append_eq_nil_iff.1 hcs
    exact if_pos rfl
  | cons c cs =>
    have hfront : mark <+: c :: cs := ⟨rest, hcs⟩
    rw [splitAround?, if_pos hfront, ← hcs, List.drop_left]

/-- What does not hold the first symbol of a mark stands before the first occurrence of the mark. -/
theorem splitAround?_append_of_notMem {first : α} {before mark : List α} (h : first ∉ before)
    (cs : List α) :
    splitAround? (first :: mark) (before ++ cs)
      = (splitAround? (first :: mark) cs).map fun parts => (before ++ parts.1, parts.2) := by
  induction before with
  | nil => simp
  | cons c before ih =>
    rw [List.mem_cons, not_or] at h
    have hhead : ¬ first :: mark <+: c :: (before ++ cs) := fun hmark =>
      h.1 (List.cons_prefix_cons.1 hmark).1
    rw [List.cons_append, splitAround?, if_neg hhead, ih h.2]
    cases splitAround? (first :: mark) cs <;> rfl

/-- Splitting at one symbol loses nothing, and the first part is free of it. -/
theorem splitAt?_eq_append {mark : α} {cs before after : List α}
    (h : splitAt? mark cs = some (before, after)) :
    cs = before ++ mark :: after ∧ mark ∉ before := by
  induction cs generalizing before with
  | nil => exact absurd h (by simp [splitAt?])
  | cons c cs ih =>
    simp only [splitAt?] at h
    split at h
    · rename_i hc
      simp only [Option.some.injEq, Prod.mk.injEq] at h
      obtain ⟨rfl, rfl⟩ := h
      simp [hc]
    · rename_i hc
      split at h
      · rename_i b a hba
        simp only [Option.some.injEq, Prod.mk.injEq] at h
        obtain ⟨rfl, rfl⟩ := h
        obtain ⟨hcs, hb⟩ := ih hba
        exact ⟨by simp [hcs], by simp [Ne.symm hc, hb]⟩
      · exact absurd h (by simp)

/-- A sequence is split at one symbol exactly if the symbol occurs in it. -/
theorem splitAt?_eq_none_iff {mark : α} {cs : List α} : splitAt? mark cs = none ↔ mark ∉ cs := by
  induction cs with
  | nil => simp [splitAt?]
  | cons c cs ih =>
    simp only [splitAt?, List.mem_cons, not_or]
    split
    · rename_i hc
      simp [hc]
    · rename_i hc
      simp only [Ne.symm hc, not_false_eq_true, true_and, ← ih]
      split <;> simp_all

/-- What does not hold a symbol stands before its first occurrence. -/
theorem splitAt?_append_of_notMem {mark : α} {before : List α} (h : mark ∉ before) (cs : List α) :
    splitAt? mark (before ++ cs)
      = (splitAt? mark cs).map fun parts => (before ++ parts.1, parts.2) := by
  induction before with
  | nil => simp
  | cons c before ih =>
    rw [List.mem_cons, not_or] at h
    rw [List.cons_append, splitAt?, if_neg (Ne.symm h.1), ih h.2]
    cases splitAt? mark cs <;> rfl

/-- The first part ends where the symbol first stands. -/
theorem splitAt?_append {mark : α} {before after : List α} (h : mark ∉ before) :
    splitAt? mark (before ++ mark :: after) = some (before, after) := by
  rw [splitAt?_append_of_notMem h, splitAt?, if_pos rfl, Option.map_some, List.append_nil]

end XmlQuery.Text
