import XmlQuery.Proofs.Query.Diagnosis

namespace XmlQuery.Query

/-!
# Digits that mean nothing

Digits and full stops belong to tests of attributes and to brackets.  Wherever else they stand in a
query, the compiler passes over them: a query says the same without them, and so does an error, but
for its place.

* `Pending.passesOver` — the characters that mean nothing behind what has been begun.
* `Pending.marked` — characters with a mark at those that are passed over.
* `significant`, `passedBefore` — a query without what is passed over, and how much of that stands
  in front of a place.
* `Pending.Reads.kept`, `Pending.Stops.kept` — what is kept leads the same way.
* `compile_significant` — a query says the same as what is kept of it.
-/

namespace Pending

/-- Whether a character means nothing behind what has been begun: it is a digit, and belongs neither
    to a test of attributes nor to a bracket. -/
def passesOver (p : Pending) (c : Char) : Bool :=
  classOf c = .digit && p.instruction ≠ .attributeTest && p.instruction ≠ .bracket

/-- Characters, with a mark at those that are passed over when `p` has been begun.  From a character
    that does not fit on, nothing is read and nothing is marked. -/
def marked (p : Pending) : List Char → List (Char × Bool)
  | [] => []
  | c :: cs =>
    match p.next c with
    | .error _ => (c :: cs).map fun c => (c, false)
    | .ok (_, q) => (c, p.passesOver c) :: q.marked cs

end Pending

/-- The characters without a mark. -/
def keptChars (marks : List (Char × Bool)) : List Char :=
  (marks.filter fun m => !m.2).map Prod.fst

/-- How many characters have a mark. -/
def countMarks (marks : List (Char × Bool)) : Nat :=
  marks.countP fun m => m.2

/-- A query without the characters that are passed over. -/
def significant (query : String) : String :=
  String.ofList (keptChars (Pending.nothing.marked query.toList))

/-- How many of the first characters of a query are passed over. -/
def passedBefore (query : String) (index : Nat) : Nat :=
  countMarks ((Pending.nothing.marked query.toList).take index)

/-! ### Marks -/

/-- What is kept of two parts is kept of each of them. -/
theorem keptChars_append (marks more : List (Char × Bool)) :
    keptChars (marks ++ more) = keptChars marks ++ keptChars more := by
  simp [keptChars]

/-- Characters without marks are all kept. -/
theorem keptChars_unmarked (cs : List Char) : keptChars (cs.map fun c => (c, false)) = cs := by
  induction cs with
  | nil => rfl
  | cons c cs ih => exact congrArg (c :: ·) ih

/-- Every character is kept or has a mark. -/
theorem length_keptChars_add (marks : List (Char × Bool)) :
    (keptChars marks).length + countMarks marks = marks.length := by
  induction marks with
  | nil => rfl
  | cons m marks ih =>
    obtain ⟨c, mark⟩ := m
    cases mark <;> simp [keptChars, countMarks] at ih ⊢ <;> omega

namespace Pending

variable {p q : Pending} {cs front : List Char} {ops : List Operation}

/-- Marks are put at characters, and change nothing else. -/
theorem length_marked (p : Pending) (cs : List Char) : (p.marked cs).length = cs.length := by
  induction cs generalizing p with
  | nil => rfl
  | cons c cs ih =>
    rw [marked]
    split
    · exact List.length_map _
    · exact congrArg Nat.succ (ih _)

/-- The marks of a character and of those behind it, if it can be read. -/
theorem marked_cons {c : Char} (hnext : p.next c = .ok (ops, q)) (cs : List Char) :
    p.marked (c :: cs) = (c, p.passesOver c) :: q.marked cs := by
  simp only [marked, hnext]

/-- Before a character that does not fit there are no marks. -/
theorem marked_of_error {c : Char} {fault : CompileFault} (hnext : p.next c = .error fault)
    (cs : List Char) : p.marked (c :: cs) = (c :: cs).map fun c => (c, false) := by
  simp only [marked, hnext]

/-- Characters that can be read have the same marks whatever stands behind them. -/
theorem Reads.marked_append (h : p.Reads front ops q) (rest : List Char) :
    p.marked (front ++ rest) = p.marked front ++ q.marked rest := by
  induction h with
  | nil p => rfl
  | cons hnext _ ih => rw [List.cons_append, marked_cons hnext, marked_cons hnext, ih, List.cons_append]

/-! ### The way of what is kept -/

/-- A character that is passed over completes nothing, and leaves what has been begun as it is. -/
theorem next_of_passesOver {c : Char} (h : p.passesOver c) : p.next c = .ok ([], p) := by
  simp only [passesOver, Bool.and_eq_true, decide_eq_true_eq] at h
  obtain ⟨⟨hclass, htest⟩, hbracket⟩ := h
  cases p with
  | attributeTest text => exact absurd rfl htest
  | bracket contents quote escaped => exact absurd rfl hbracket
  | _ => simp only [next, inPath, hclass]

/-- **What is kept leads the same way**, and the same operations are emitted on it. -/
theorem Reads.kept (h : p.Reads cs ops q) : p.Reads (keptChars (p.marked cs)) ops q := by
  induction h with
  | nil p => exact .nil p
  | @cons p between q c cs completed ops hnext _ ih =>
    rw [marked_cons hnext]
    cases hpass : p.passesOver c with
    | true =>
      -- both ways stand still here
      rw [next_of_passesOver hpass] at hnext
      cases hnext
      exact ih
    | false => exact .cons hnext ih

/-- **What is kept leads to the same error**, nearer to the front by the number of characters that
    are passed over before it. -/
theorem Stops.kept {e : CompileError} (h : p.Stops 0 cs e) :
    ∃ e', p.Stops 0 (keptChars (p.marked cs)) e' ∧
      e = { e' with index := e'.index + countMarks ((p.marked cs).take e.index) } := by
  have hplace : ∀ front : List Char,
      0 + front.length = 0 + (keptChars (p.marked front)).length + countMarks (p.marked front) := by
    intro front
    rw [Nat.add_assoc, length_keptChars_add, length_marked]
  cases h with
  | @character q front rest c emitted fault hreads hnext =>
    have hmarks : p.marked (front ++ c :: rest)
        = p.marked front ++ (c :: rest).map fun c => (c, false) := by
      rw [hreads.marked_append, marked_of_error hnext]
    have hbefore : (p.marked (front ++ c :: rest)).take (0 + front.length) = p.marked front := by
      rw [hmarks, Nat.zero_add, ← length_marked p front, List.take_left]
    refine ⟨⟨fault, q, some c, 0 + (keptChars (p.marked front)).length⟩, ?_, ?_⟩
    · rw [hmarks, keptChars_append, keptChars_unmarked]
      exact .character hreads.kept hnext
    · rw [hbefore, ← hplace front]
  | @bracket q _ emitted hreads hbracket =>
    have hall : (p.marked cs).take (0 + cs.length) = p.marked cs := by
      rw [Nat.zero_add, ← length_marked p cs, List.take_length]
    refine ⟨⟨.openBracket, q, none, 0 + (keptChars (p.marked cs)).length⟩,
      .bracket hreads.kept hbracket, ?_⟩
    rw [hall, ← hplace cs]

end Pending

/-! ### Queries without idle digits -/

/-- What two texts that say the same are compiled to: programs with the same operations, or the same
    fault at the same character with the same begun before it.  The places of the faults may differ,
    by as much as `passed` tells for the place in the first text. -/
inductive SameOutcome (passed : Nat → Nat) :
    Except CompileError Program → Except CompileError Program → Prop
  | program {program program' : Program} (h : program.operations = program'.operations) :
      SameOutcome passed (.ok program) (.ok program')
  | error {e e' : CompileError} (h : e = { e' with index := e'.index + passed e.index }) :
      SameOutcome passed (.error e) (.error e')

/-- **A query says the same without the digits that are passed over.**  One text is a query exactly
    if the other one is, and then they have the same operations; otherwise they have the same error,
    and its places differ by the characters that are passed over in front of it. -/
theorem compile_significant (query : String) :
    SameOutcome (passedBefore query) (compile query) (compile (significant query)) := by
  have hkept : (significant query).toList = keptChars (Pending.nothing.marked query.toList) :=
    String.toList_ofList
  cases hcompile : compile query with
  | ok program =>
    obtain ⟨emitted, q, hreads, hbracket, rfl⟩ := compile_eq_ok_iff.1 hcompile
    have hsame : compile (significant query)
        = .ok ⟨significant query, emitted ++ [q.operation]⟩ := by
      rw [compile_eq_ok_iff, hkept]
      exact ⟨emitted, q, hreads.kept, hbracket, rfl⟩
    rw [hsame]
    exact .program rfl
  | error e =>
    obtain ⟨e', hstops, heq⟩ := (compile_eq_error_iff.1 hcompile).kept
    have hsame : compile (significant query) = .error e' := by
      rw [compile_eq_error_iff, hkept]
      exact hstops
    rw [hsame]
    exact .error heq

/-- A digit between two slashes does not keep them apart, and one in a bracket is a position. -/
example : significant "/1/h2[3]" = "//h[3]" := by decide

end XmlQuery.Query
