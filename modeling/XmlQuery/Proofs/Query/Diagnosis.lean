import XmlQuery.Proofs.Query.Reading

namespace XmlQuery.Query

/-!
# What compile errors say

A text that is no query fails at the first character after which nothing can be a query any more,
or because it ends inside of a bracket that could still be closed.

* `Pending.Stops` — the way that characters lead to an error.
* `compileFrom_eq_error_iff` — the error of characters is the one that their way leads to.
* `CompileError.PointsAt`, `CompileError.AsksForMore` — what the two kinds of errors say about a
  text.
* `compile_diagnosis` — every error says this, and no front part of a query has an error at a
  character.
-/

/-! ### The way to an error -/

namespace Pending

/-- The way that characters lead to an error, when `index` characters have been read before: to a
    character that does not fit what has been begun, or into a bracket that is not closed. -/
inductive Stops (index : Nat) (p : Pending) : List Char → CompileError → Prop
  | character {q : Pending} {front rest : List Char} {c : Char} {emitted : List Operation}
      {fault : CompileFault} (hreads : p.Reads front emitted q) (hnext : q.next c = .error fault) :
      Stops index p (front ++ c :: rest) ⟨fault, q, some c, index + front.length⟩
  | bracket {q : Pending} {cs : List Char} {emitted : List Operation}
      (hreads : p.Reads cs emitted q) (hbracket : q.isBracket) :
      Stops index p cs ⟨.openBracket, q, none, index + cs.length⟩

/-- A character that fits leads on to the error behind it. -/
theorem Stops.cons {index : Nat} {p between : Pending} {c : Char} {cs : List Char}
    {completed : List Operation} {e : CompileError} (hnext : p.next c = .ok (completed, between))
    (h : between.Stops (index + 1) cs e) : p.Stops index (c :: cs) e := by
  cases h with
  | @character q front rest c' emitted fault hreads hfault =>
    have hstops : p.Stops index (c :: front ++ c' :: rest)
        ⟨fault, q, some c', index + (c :: front).length⟩ := .character (.cons hnext hreads) hfault
    rwa [List.length_cons, Nat.add_comm front.length, ← Nat.add_assoc] at hstops
  | @bracket q cs emitted hreads hbracket =>
    have hstops : p.Stops index (c :: cs) ⟨.openBracket, q, none, index + (c :: cs).length⟩ :=
      .bracket (.cons hnext hreads) hbracket
    rwa [List.length_cons, Nat.add_comm cs.length, ← Nat.add_assoc] at hstops

/-- Inside of a bracket every character fits. -/
theorem isBracket_of_next_eq_error {p : Pending} {c : Char} {fault : CompileFault}
    (h : p.next c = .error fault) : p.isBracket = false := by
  cases p with
  | bracket contents quote escaped => cases h
  | _ => rfl

/-- A character that does not fit is no open bracket. -/
theorem ne_openBracket_of_next_eq_error {p : Pending} {c : Char} {fault : CompileFault}
    (h : p.next c = .error fault) : fault ≠ .openBracket := by
  rw [next_eq_inPath (isBracket_of_next_eq_error h)] at h
  rintro rfl
  unfold inPath at h
  -- each fault that a character can have is named in one place
  repeat' split at h
  all_goals cases h

/-- An error behind characters is one of the characters with those in front. -/
theorem Reads.compileFrom_error {p q : Pending} {front rest : List Char} {emitted : List Operation}
    (h : p.Reads front emitted q) {index : Nat} {e : CompileError}
    (herror : compileFrom (index + front.length) q rest = .error e) :
    compileFrom index p (front ++ rest) = .error e := by
  induction h generalizing index with
  | nil p => exact herror
  | @cons p between q c cs completed ops hnext _ ih =>
    rw [List.length_cons, Nat.add_comm cs.length, ← Nat.add_assoc] at herror
    rw [List.cons_append, compileFrom, hnext]
    simp only [ih herror]

end Pending

/-- **The error of characters is the one that their way leads to.** -/
theorem compileFrom_eq_error_iff {index : Nat} {p : Pending} {cs : List Char} {e : CompileError} :
    compileFrom index p cs = .error e ↔ p.Stops index cs e := by
  constructor
  · intro h
    induction cs generalizing index p with
    | nil =>
      rw [compileFrom] at h
      split at h
      · rename_i hbracket
        cases h
        exact .bracket (.nil p) hbracket
      · cases h
    | cons c cs ih =>
      rw [compileFrom] at h
      split at h
      · rename_i fault hnext
        cases h
        exact .character (.nil p) hnext
      · rename_i completed between hnext
        split at h
        · rename_i error hrest
          cases h
          exact (ih hrest).cons hnext
        · cases h
  · intro h
    cases h with
    | character hreads hnext =>
      refine hreads.compileFrom_error ?_
      rw [compileFrom, hnext]
    | @bracket q _ emitted hreads hbracket =>
      have hend : compileFrom (index + cs.length) q []
          = .error ⟨.openBracket, q, none, index + cs.length⟩ := by
        rw [compileFrom, if_pos hbracket]
      have hstops := hreads.compileFrom_error hend
      rwa [List.append_nil] at hstops

/-- The error of a text is the one that its characters lead to. -/
theorem compile_eq_error_iff {query : String} {e : CompileError} :
    compile query = .error e ↔ Pending.nothing.Stops 0 query.toList e := by
  rw [← compileFrom_eq_error_iff, compile]
  cases compileFrom 0 .nothing query.toList <;> simp

/-! ### Closing brackets -/

namespace Pending

/-- Whether the sign that opened a quote can also close it: a backslash would escape what follows
    instead. -/
def Closable : Pending → Prop
  | bracket _ quote _ => quote ≠ some '\\'
  | _ => True

/-- Inside of a bracket a character leaves nothing behind that could not be closed. -/
theorem closable_inBracket (contents : List Char) {quote : Option Char} (escaped : Bool)
    (hquote : quote ≠ some '\\') (c : Char) :
    (inBracket contents quote escaped c).2.Closable := by
  unfold inBracket
  split
  · split <;> exact hquote
  split
  · exact hquote
  · rename_i hbackslash
    have hc : some c ≠ some '\\' := fun heq => hbackslash (Option.some.inj heq)
    have hnone : (none : Option Char) ≠ some '\\' := Option.some_ne_none _ |>.symm
    -- only a character that is no backslash opens a quote
    repeat' split
    all_goals first
      | exact hquote
      | exact hnone
      | exact hc
      | exact trivial

/-- Outside of brackets a character leaves nothing behind that could not be closed. -/
theorem closable_inPath {p q : Pending} {c : Char} {completed : List Operation}
    (hbracket : p.isBracket = false) (h : p.inPath c = .ok (completed, q)) : q.Closable := by
  have hp : p.Closable := by
    cases p with
    | bracket contents quote escaped => cases hbracket
    | _ => exact trivial
  unfold inPath at h
  repeat' split at h
  all_goals cases h
  all_goals first
    | exact trivial
    | exact hp
    | exact (Option.some_ne_none _).symm

/-- What characters lead to can be closed. -/
theorem Reads.closable {p q : Pending} {cs : List Char} {ops : List Operation}
    (h : p.Reads cs ops q) (hp : p.Closable) : q.Closable := by
  induction h with
  | nil p => exact hp
  | @cons p between q c cs completed ops hnext _ ih =>
    refine ih ?_
    cases hbracket : p.isBracket with
    | false => exact closable_inPath hbracket (next_eq_inPath hbracket c ▸ hnext)
    | true =>
      cases p with
      | bracket contents quote escaped =>
        have hclosable := closable_inBracket contents escaped hp c
        rw [next, Except.ok.injEq] at hnext
        rw [hnext] at hclosable
        exact hclosable
      | _ => cases hbracket

/-- Every bracket that can be closed is closed by some characters. -/
theorem exists_reads_nothing {p : Pending} (h : p.isBracket) (hclosable : p.Closable) :
    ∃ cs emitted, p.Reads cs emitted nothing := by
  have hplain : ∀ contents, ∃ cs emitted, (bracket contents none false).Reads cs emitted nothing :=
    fun contents => ⟨[']'], _, .emit (next_closing contents) (.nil nothing)⟩
  have hunescaped : ∀ contents quote, quote ≠ some '\\' →
      ∃ cs emitted, (bracket contents quote false).Reads cs emitted nothing := by
    intro contents quote hquote
    cases quote with
    | none => exact hplain contents
    | some q =>
      have hq : q ≠ '\\' := fun heq => hquote (congrArg some heq)
      have hnext : (bracket contents (some q) false).next q
          = .ok ([], bracket contents none false) := by
        simp [next, inBracket, hq]
      obtain ⟨cs, emitted, hreads⟩ := hplain contents
      exact ⟨q :: cs, emitted, .silent hnext hreads⟩
  cases p with
  | bracket contents quote escaped =>
    cases escaped with
    | false => exact hunescaped contents quote hclosable
    | true =>
      -- a second backslash ends the escape
      obtain ⟨cs, emitted, hreads⟩ := hunescaped (contents ++ ['\\']) quote hclosable
      exact ⟨'\\' :: cs, emitted, .silent rfl hreads⟩
  | _ => cases h

end Pending

/-! ### Diagnosis -/

/-- The first `n` characters of a text. -/
def firstChars (text : String) (n : Nat) : String :=
  String.ofList (text.toList.take n)

/-- Whether a text is a query, or lacks no more than what closes a bracket. -/
def Viable (text : String) : Prop :=
  (∃ program, compile text = .ok program) ∨
    ∃ e, compile text = .error e ∧ e.kind = .incompleteExpression

/-- What an error at a character says about a text.  The character and its class are those at the
    place of the error; what stands before it is a query, whose last operation is the one that had
    been begun; and every text that begins in the same way, up to the character, has the same
    error. -/
structure CompileError.PointsAt (e : CompileError) (text : String) : Prop where
  inside : e.index < text.length
  character : ∃ c, text.toList[e.index]? = some c ∧ e.character = some c ∧ e.charClass = classOf c
  before : ∃ program op, compile (firstChars text e.index) = .ok program ∧
    program.operations.getLast? = some op ∧ op.instruction = e.pending.instruction ∧
      op.operand = .parameter (String.ofList e.pending.token)
  settled : ∀ other, firstChars other (e.index + 1) = firstChars text (e.index + 1) →
    compile other = .error e

/-- What an error at the end says about a text: all of it was read, a bracket is open, and something
    can be added to make a query of it. -/
structure CompileError.AsksForMore (e : CompileError) (text : String) : Prop where
  atEnd : e.index = text.length
  character : e.character = none
  instruction : e.pending.instruction = .bracket
  extension : ∃ rest program, compile (text ++ rest) = .ok program

/-- An error at a character says what it should. -/
theorem Pending.Stops.pointsAt {text : String} {e : CompileError}
    (h : nothing.Stops 0 text.toList e) (hkind : e.kind = .unexpectedToken) : e.PointsAt text := by
  generalize hcs : text.toList = cs at h
  cases h with
  | bracket hreads hbracket => cases hkind
  | @character q front rest c emitted fault hreads hnext =>
    rw [Nat.zero_add]
    have hbefore : text.toList.take front.length = front := by
      rw [hcs, List.take_left]
    have hupTo : text.toList.take (front.length + 1) = front ++ [c] := by
      rw [hcs, List.take_length_add_append]
      rfl
    refine ⟨?inside, ⟨c, ?_, rfl, rfl⟩, ?before, ?settled⟩
    case inside =>
      show front.length < text.length
      rw [← String.length_toList, hcs, List.length_append, List.length_cons]
      omega
    · rw [hcs]
      simp
    case before =>
      refine ⟨_, q.operation, compile_eq_ok_iff.2
        ⟨emitted, q, ?_, isBracket_of_next_eq_error hnext, rfl⟩, List.getLast?_concat, rfl, rfl⟩
      rw [firstChars, hbefore, String.toList_ofList]
      exact hreads
    case settled =>
      intro other hother
      rw [firstChars, firstChars, String.ofList_inj, hupTo] at hother
      have hsplit : other.toList = front ++ c :: other.toList.drop (front.length + 1) := by
        rw [List.append_cons, ← hother, List.take_append_drop]
      have hstops : nothing.Stops 0 (front ++ c :: other.toList.drop (front.length + 1))
          ⟨fault, q, some c, 0 + front.length⟩ := .character hreads hnext
      rw [Nat.zero_add] at hstops
      rw [compile_eq_error_iff, hsplit]
      exact hstops

/-- An error at the end says what it should. -/
theorem Pending.Stops.asksForMore {text : String} {e : CompileError}
    (h : nothing.Stops 0 text.toList e) (hkind : e.kind = .incompleteExpression) :
    e.AsksForMore text := by
  generalize hcs : text.toList = cs at h
  cases h with
  | @character q front rest c emitted fault hreads hnext =>
    have hfault := ne_openBracket_of_next_eq_error hnext
    cases fault with
    | openBracket => exact absurd rfl hfault
    | _ => cases hkind
  | @bracket q _ emitted hreads hbracket =>
    refine ⟨?atEnd, rfl, ?instruction, ?extension⟩
    case atEnd => rw [Nat.zero_add, ← hcs, String.length_toList]
    case instruction =>
      cases q with
      | bracket contents quote escaped => rfl
      | _ => cases hbracket
    case extension =>
      obtain ⟨more, emitted', hmore⟩ := exists_reads_nothing hbracket (hreads.closable trivial)
      refine ⟨String.ofList more, _, compile_eq_ok_iff.2 ⟨emitted ++ emitted', nothing, ?_, rfl, rfl⟩⟩
      rw [String.toList_append, String.toList_ofList, hcs]
      exact hreads.append hmore

/-- Every front part of a query is viable. -/
theorem viable_firstChars {query : String} {program : Program}
    (h : compile query = .ok program) (n : Nat) : Viable (firstChars query n) := by
  obtain ⟨emitted, q, hreads, -, -⟩ := compile_eq_ok_iff.1 h
  rw [← List.take_append_drop n query.toList] at hreads
  obtain ⟨before, between, after, hbefore, -, -⟩ := hreads.split
  rw [← String.toList_ofList (l := query.toList.take n)] at hbefore
  cases hbracket : between.isBracket with
  | false => exact .inl ⟨_, compile_eq_ok_iff.2 ⟨before, between, hbefore, hbracket, rfl⟩⟩
  | true => exact .inr ⟨_, compile_eq_error_iff.2 (.bracket hbefore hbracket), rfl⟩

/-- **Compile errors are diagnoses.**  An error at a character points at the first one after which
    nothing is a query, an error at the end asks for more, and no front part of a query has an error
    at a character. -/
theorem compile_diagnosis (text : String) :
    match compile text with
    | .ok _ => ∀ n, Viable (firstChars text n)
    | .error e =>
      match e.kind with
      | .unexpectedToken => e.PointsAt text
      | .incompleteExpression => e.AsksForMore text := by
  cases hcompile : compile text with
  | ok program => exact viable_firstChars hcompile
  | error e =>
    have hstops := compile_eq_error_iff.1 hcompile
    dsimp only
    split
    · rename_i hkind
      exact hstops.pointsAt hkind
    · rename_i hkind
      exact hstops.asksForMore hkind

end XmlQuery.Query
