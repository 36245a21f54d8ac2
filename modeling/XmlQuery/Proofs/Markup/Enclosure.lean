import XmlQuery.Markup.Token

namespace XmlQuery.Markup

/-!
# Where document type declarations end

A document type declaration ends at the first `>` that is free: outside of quotes and of square
brackets.

* `Enclosure`, `Enclosure.behind` — the brackets and the quote around a place.
* `EndsIn` — whether a declaration ends within a text.
* `skipDoctype_append`, `skipDoctype_eq_some_iff`, `skipDoctype_eq_none_iff` — a declaration is read
  up to the first free `>`, if there is one.
-/

/-- What encloses a place in a document type declaration: so many square brackets, and perhaps a
    quote of either kind. -/
structure Enclosure where
  depth : Nat
  quote : Option Char
  isQuote : ∀ q ∈ quote, q = '"' ∨ q = '\x27'
  deriving DecidableEq

namespace Enclosure

/-- So many brackets, and no quote. -/
def brackets (depth : Nat) : Enclosure := ⟨depth, none, nofun⟩

/-- Nothing encloses a place. -/
def free : Enclosure := brackets 0

/-- The characters that enclose others. -/
def marks : List Char := ['"', '\x27', '[', ']']

/-- What encloses the place behind a character.  Within quotes only the same quote counts, and
    outside of brackets a closing one does not. -/
def next (e : Enclosure) (c : Char) : Enclosure :=
  match e.quote with
  | some q => if c = q then brackets e.depth else e
  | none =>
    if h : c = '"' ∨ c = '\x27' then ⟨e.depth, some c, fun _ hq => Option.some.inj hq ▸ h⟩
    else if c = '[' then brackets (e.depth + 1)
    else if c = ']' then brackets (e.depth - 1)
    else e

/-- What encloses the place behind a text. -/
def behind (e : Enclosure) (cs : List Char) : Enclosure :=
  cs.foldl next e

theorem behind_append (e : Enclosure) (cs cs' : List Char) :
    e.behind (cs ++ cs') = (e.behind cs).behind cs' :=
  List.foldl_append

/-- A character that encloses nothing leaves everything open that is. -/
theorem next_of_notMem {e : Enclosure} {c : Char} (h : c ∉ marks) : e.next c = e := by
  simp only [marks, List.mem_cons, List.not_mem_nil, or_false, not_or] at h
  obtain ⟨hdouble, hsingle, hopen, hclose⟩ := h
  unfold next
  split
  · rename_i q hq
    rw [if_neg]
    rintro rfl
    exact (e.isQuote c hq).elim hdouble hsingle
  · rw [dif_neg (not_or.2 ⟨hdouble, hsingle⟩), if_neg hopen, if_neg hclose]

/-- A text without characters that enclose others leaves everything open that is. -/
theorem behind_of_notMem {e : Enclosure} {cs : List Char} (h : ∀ c ∈ cs, c ∉ marks) :
    e.behind cs = e := by
  induction cs with
  | nil => rfl
  | cons c cs ih =>
    rw [List.forall_mem_cons] at h
    show (e.next c).behind cs = e
    rw [next_of_notMem h.1, ih h.2]

end Enclosure

/-- Whether a declaration ends in a text that begins at an enclosed place: some `>` in it is
    free. -/
def EndsIn (e : Enclosure) (cs : List Char) : Prop :=
  ∃ front more, cs = front ++ '>' :: more ∧ e.behind front = .free

variable {e : Enclosure} {cs rest : List Char}

/-- In a text with a first character a declaration ends with that or behind it. -/
theorem endsIn_cons_iff {c : Char} :
    EndsIn e (c :: cs) ↔ (e = .free ∧ c = '>') ∨ EndsIn (e.next c) cs := by
  constructor
  · rintro ⟨front, more, heq, hfree⟩
    cases front with
    | nil =>
      cases heq
      exact .inl ⟨hfree, rfl⟩
    | cons d front =>
      cases heq
      exact .inr ⟨front, more, rfl, hfree⟩
  · rintro (⟨rfl, rfl⟩ | ⟨front, more, rfl, hfree⟩)
    · exact ⟨[], cs, rfl, rfl⟩
    · exact ⟨c :: front, more, rfl, hfree⟩

/-- A declaration does not end in a text without `>`. -/
theorem not_endsIn_of_notMem (h : '>' ∉ cs) : ¬ EndsIn e cs := by
  rintro ⟨front, more, rfl, -⟩
  exact h (List.mem_append_right front List.mem_cons_self)

/-- In two texts a declaration ends in the first or in the second, which begins where the first
    leads. -/
theorem endsIn_append_iff {cs' : List Char} :
    EndsIn e (cs ++ cs') ↔ EndsIn e cs ∨ EndsIn (e.behind cs) cs' := by
  induction cs generalizing e with
  | nil => exact ⟨.inr, fun h => h.resolve_left (not_endsIn_of_notMem List.not_mem_nil)⟩
  | cons c cs ih =>
    rw [List.cons_append, endsIn_cons_iff, ih, endsIn_cons_iff, or_assoc]
    rfl

/-- A free `>` ends a declaration, and any other character leads to the next place. -/
theorem skipDoctype_cons (e : Enclosure) (c : Char) (cs : List Char) :
    skipDoctype e.depth e.quote (c :: cs)
      = if e = .free ∧ c = '>' then some cs
        else skipDoctype (e.next c).depth (e.next c).quote cs := by
  obtain ⟨depth, quote, hquote⟩ := e
  cases quote with
  | some q =>
    have hfree : (⟨depth, some q, hquote⟩ : Enclosure) ≠ .free := fun h => by cases h
    rw [if_neg fun h => hfree h.1, skipDoctype]
    by_cases hq : c = q
    · simp only [Enclosure.next, if_pos hq, Enclosure.brackets]
    · simp only [Enclosure.next, if_neg hq]
  | none =>
    by_cases hend : c = '>'
    · -- the end of a declaration encloses nothing
      have hmarks : c ∉ Enclosure.marks := hend ▸ by decide
      have hfree : (⟨depth, none, hquote⟩ : Enclosure) = .free ↔ depth = 0 := by
        simp [Enclosure.free, Enclosure.brackets]
      rw [Enclosure.next_of_notMem hmarks]
      simp only [Enclosure.marks, List.mem_cons, List.not_mem_nil, or_false, not_or] at hmarks
      simp only [skipDoctype, hfree, hmarks, or_false, if_false, and_comm]
    · simp only [skipDoctype, Enclosure.next, hend, and_false, false_and, if_false]
      split
      · rfl
      split
      · rfl
      split <;> rfl

/-- **A text in which a declaration does not end is passed over.** -/
theorem skipDoctype_append (h : ¬ EndsIn e cs) (rest : List Char) :
    skipDoctype e.depth e.quote (cs ++ rest)
      = skipDoctype (e.behind cs).depth (e.behind cs).quote rest := by
  induction cs generalizing e with
  | nil => rfl
  | cons c cs ih =>
    rw [endsIn_cons_iff, not_or] at h
    rw [List.cons_append, skipDoctype_cons, if_neg h.1, ih h.2]
    rfl

/-- **A declaration ends nowhere exactly if no `>` is free.** -/
theorem skipDoctype_eq_none_iff : skipDoctype e.depth e.quote cs = none ↔ ¬ EndsIn e cs := by
  constructor
  · rintro h hends
    induction cs generalizing e with
    | nil =>
      obtain ⟨front, more, heq, -⟩ := hends
      cases front <;> cases heq
    | cons c cs ih =>
      rw [skipDoctype_cons] at h
      split at h
      · cases h
      · rename_i hend
        exact ih h ((endsIn_cons_iff.1 hends).resolve_left hend)
  · intro h
    have hskip := skipDoctype_append h []
    rwa [List.append_nil] at hskip

instance : Decidable (EndsIn e cs) :=
  decidable_of_iff (¬ skipDoctype e.depth e.quote cs = none)
    ((not_congr skipDoctype_eq_none_iff).trans Classical.not_not)

/-- **A declaration ends at the first free `>`.** -/
theorem skipDoctype_eq_some_iff :
    skipDoctype e.depth e.quote cs = some rest ↔
      ∃ front, cs = front ++ '>' :: rest ∧ e.behind front = .free ∧ ¬ EndsIn e front := by
  constructor
  · intro h
    induction cs generalizing e with
    | nil => cases h
    | cons c cs ih =>
      rw [skipDoctype_cons] at h
      split at h
      · rename_i hend
        obtain ⟨rfl, rfl⟩ := hend
        cases h
        exact ⟨[], rfl, rfl, not_endsIn_of_notMem List.not_mem_nil⟩
      · rename_i hend
        obtain ⟨front, rfl, hfree, hfirst⟩ := ih h
        exact ⟨c :: front, rfl, hfree, fun h => hfirst ((endsIn_cons_iff.1 h).resolve_left hend)⟩
  · rintro ⟨front, rfl, hfree, hfirst⟩
    rw [skipDoctype_append hfirst, skipDoctype_cons, if_pos ⟨hfree, rfl⟩]

end XmlQuery.Markup
