import XmlQuery.Query.Compile

namespace XmlQuery.Query

/-!
# How queries are read

The compiler goes from one thing that it has begun to the next, and emits operations on its way.
What it emits at the end is what it has begun by then.

* `Pending.Reads` — the way that characters lead, and the operations that are emitted on it.
* `Pending.Reads.unique` — there is one such way only.
* `compile_eq_ok_iff` — a text is a query exactly if its characters lead out of all brackets.
* `exists_compile_iff` — operations are those of a query exactly if some way emits them.
* `IsName`, `Pending.reads_name` — the names that queries ask for, and the way that collects one.
* `Pending.reads_attributeTest`, `Pending.reads_contents` — the ways that collect a test, and the
  contents of a bracket, whatever these are.
-/

namespace Pending

/-- The way that characters lead from one thing that has been begun to another, and the operations
    that are emitted on it. -/
inductive Reads : Pending → List Char → List Operation → Pending → Prop
  | nil (p : Pending) : Reads p [] [] p
  | cons {p between q : Pending} {c : Char} {cs : List Char} {completed ops : List Operation}
      (h : p.next c = .ok (completed, between)) (hrest : Reads between cs ops q) :
      Reads p (c :: cs) (completed ++ ops) q

/-- A character that completes nothing leads on. -/
theorem Reads.silent {p between q : Pending} {c : Char} {cs : List Char} {ops : List Operation}
    (h : p.next c = .ok ([], between)) (hrest : between.Reads cs ops q) : p.Reads (c :: cs) ops q :=
  .cons h hrest

/-- A character that completes an operation leads on. -/
theorem Reads.emit {p between q : Pending} {c : Char} {cs : List Char} {op : Operation}
    {ops : List Operation} (h : p.next c = .ok ([op], between)) (hrest : between.Reads cs ops q) :
    p.Reads (c :: cs) (op :: ops) q :=
  .cons h hrest

/-- A way along characters goes first along some of them, and then along the others. -/
theorem Reads.split {p q : Pending} {cs ds : List Char} {ops : List Operation}
    (h : p.Reads (cs ++ ds) ops q) :
    ∃ before between after, p.Reads cs before between ∧ between.Reads ds after q ∧
      ops = before ++ after := by
  induction cs generalizing p ops with
  | nil => exact ⟨[], p, ops, .nil p, h, rfl⟩
  | cons c cs ih =>
    cases h with
    | cons hnext hrest =>
      obtain ⟨before, between, after, hbefore, hafter, rfl⟩ := ih hrest
      exact ⟨_, between, after, .cons hnext hbefore, hafter, (List.append_assoc _ _ _).symm⟩

/-- Ways can follow one another. -/
theorem Reads.append {p q r : Pending} {cs ds : List Char} {ops more : List Operation}
    (h : p.Reads cs ops q) (hmore : q.Reads ds more r) : p.Reads (cs ++ ds) (ops ++ more) r := by
  induction h with
  | nil p => exact hmore
  | cons h _ ih =>
    rw [List.cons_append, List.append_assoc]
    exact .cons h (ih hmore)

/-- Characters lead one way only. -/
theorem Reads.unique {p q q' : Pending} {cs : List Char} {ops ops' : List Operation}
    (h : p.Reads cs ops q) (h' : p.Reads cs ops' q') : ops = ops' ∧ q = q' := by
  induction h generalizing ops' with
  | nil p =>
    cases h'
    exact ⟨rfl, rfl⟩
  | cons hnext _ ih =>
    cases h' with
    | cons hnext' hrest' =>
      rw [hnext] at hnext'
      cases hnext'
      obtain ⟨rfl, rfl⟩ := ih hrest'
      exact ⟨rfl, rfl⟩

end Pending

/-- A query is read to its end exactly if its characters lead out of all brackets; what has been
    begun there is emitted last. -/
theorem compileFrom_eq_ok_iff {index : Nat} {p : Pending} {cs : List Char}
    {ops : List Operation} :
    compileFrom index p cs = .ok ops ↔
      ∃ emitted q, p.Reads cs emitted q ∧ q.isBracket = false ∧ ops = emitted ++ [q.operation] := by
  constructor
  · intro h
    -- the index is only for the place of an error
    induction cs generalizing index p ops with
    | nil =>
      rw [compileFrom] at h
      split at h
      · cases h
      · rename_i hbracket
        rw [Bool.not_eq_true] at hbracket
        exact ⟨[], p, .nil p, hbracket, (Except.ok.inj h).symm⟩
    | cons c cs ih =>
      rw [compileFrom] at h
      split at h
      · cases h
      · rename_i completed between hnext
        split at h
        · cases h
        · rename_i rest hrest
          obtain ⟨emitted, q, hreads, hbracket, rfl⟩ := ih hrest
          refine ⟨completed ++ emitted, q, .cons hnext hreads, hbracket, ?_⟩
          rw [List.append_assoc]
          exact (Except.ok.inj h).symm
  · rintro ⟨emitted, q, h, hbracket, rfl⟩
    induction h generalizing index with
    | nil p => simp [compileFrom, hbracket]
    | cons h _ ih => simp [compileFrom, h, ih hbracket]

/-- A text is a query exactly if its characters lead out of all brackets. -/
theorem compile_eq_ok_iff {query : String} {program : Program} :
    compile query = .ok program ↔
      ∃ emitted q, Pending.nothing.Reads query.toList emitted q ∧ q.isBracket = false ∧
        program = ⟨query, emitted ++ [q.operation]⟩ := by
  constructor
  · intro h
    rw [compile] at h
    split at h
    · cases h
    · rename_i operations hoperations
      obtain ⟨emitted, q, hreads, hbracket, rfl⟩ := compileFrom_eq_ok_iff.1 hoperations
      exact ⟨emitted, q, hreads, hbracket, (Except.ok.inj h).symm⟩
  · rintro ⟨emitted, q, hreads, hbracket, rfl⟩
    have hoperations : compileFrom 0 .nothing query.toList = .ok (emitted ++ [q.operation]) :=
      compileFrom_eq_ok_iff.2 ⟨emitted, q, hreads, hbracket, rfl⟩
    rw [compile, hoperations]

/-- **Operations are those of a query exactly if some way emits them.** -/
theorem exists_compile_iff {ops : List Operation} :
    (∃ query program, compile query = .ok program ∧ program.operations = ops) ↔
      ∃ cs emitted q, Pending.nothing.Reads cs emitted q ∧ q.isBracket = false ∧
        ops = emitted ++ [q.operation] := by
  constructor
  · rintro ⟨query, program, hcompile, rfl⟩
    obtain ⟨emitted, q, hreads, hbracket, rfl⟩ := compile_eq_ok_iff.1 hcompile
    exact ⟨query.toList, emitted, q, hreads, hbracket, rfl⟩
  · rintro ⟨cs, emitted, q, hreads, hbracket, rfl⟩
    refine ⟨String.ofList cs, _, compile_eq_ok_iff.2 ⟨emitted, q, ?_, hbracket, rfl⟩, rfl⟩
    rw [String.toList_ofList]
    exact hreads

/-! ### Names -/

/-- The names that a query can ask for: they are not empty, and consist of characters of names. -/
structure IsName (name : String) : Prop where
  ne : name ≠ ""
  chars : ∀ c ∈ name.toList, classOf c = .entityName

/-- A name has a first character, and others behind it. -/
theorem IsName.exists_cons {name : String} (h : IsName name) :
    ∃ c cs, name.toList = c :: cs ∧ classOf c = .entityName ∧
      ∀ c' ∈ cs, classOf c' = .entityName := by
  cases hname : name.toList with
  | nil => exact absurd (String.toList_eq_nil_iff.1 hname) h.ne
  | cons c cs =>
    have hchars := h.chars
    rw [hname, List.forall_mem_cons] at hchars
    exact ⟨c, cs, rfl, hchars⟩

namespace Pending

/-- A name that has been collected is a test of names. -/
theorem operation_element (name : String) :
    (element name.toList).operation = .ofText .element name := by
  rw [operation, token, String.ofList_toList]
  rfl

/-- A test that has been collected is one of attributes. -/
theorem operation_attributeTest (text : String) :
    (attributeTest text.toList).operation = .ofText .attributeTest text := by
  rw [operation, token, String.ofList_toList]
  rfl

/-! ### Outside of brackets -/

attribute [local simp] inPath

/-- Outside of brackets a character does what its class says. -/
theorem next_eq_inPath {p : Pending} (h : p.isBracket = false) (c : Char) :
    p.next c = p.inPath c := by
  cases p with
  | bracket contents quote escaped => cases h
  | _ => rfl

/-- An opening bracket begins an expression behind what has been begun. -/
theorem next_opening {p : Pending} (h : p.isBracket = false) :
    p.next '[' = .ok ([p.operation], bracket [] none false) := by
  have hclass : classOf '[' = .squareBracket := by decide
  rw [next_eq_inPath h]
  simp [hclass]

/-- A slash begins a step to children, unless it makes one to descendants of it. -/
theorem next_slash {p : Pending} (h : p.isBracket = false) (hchild : p ≠ child) :
    p.next '/' = .ok ([p.operation], child) := by
  have hclass : classOf '/' = .path := by decide
  rw [next_eq_inPath h]
  cases p with
  | child => exact absurd rfl hchild
  | _ => simp [hclass]

/-- A second slash makes a step to descendants of one to children. -/
theorem next_secondSlash : child.next '/' = .ok ([], descendant) := by
  have hclass : classOf '/' = .path := by decide
  simp [next, hclass]

/-- An asterisk begins a wildcard behind what has been begun. -/
theorem next_asterisk {p : Pending} (h : p.isBracket = false) :
    p.next '*' = .ok ([p.operation], wildcard) := by
  have hclass : classOf '*' = .wildcard := by decide
  rw [next_eq_inPath h]
  simp [hclass]

/-- An at sign begins a test of attributes behind what has been begun. -/
theorem next_at {p : Pending} (h : p.isBracket = false) :
    p.next '@' = .ok ([p.operation], attributeTest []) := by
  have hclass : classOf '@' = .attributeIndicator := by decide
  rw [next_eq_inPath h]
  simp [hclass]

/-- A name begins behind a step to children or to descendants. -/
theorem next_name {p : Pending} (h : p = child ∨ p = descendant) {c : Char}
    (hc : classOf c = .entityName) : p.next c = .ok ([p.operation], element [c]) := by
  rcases h with rfl | rfl <;> simp [next, hc]

/-- What is collected character by character, each one spelled in some way, is collected from the
    spelling of a whole text. -/
theorem reads_flatMap {collected : List Char → Pending} {spell : Char → List Char}
    {fits : Char → Prop} (hspell : ∀ text c, fits c →
      (collected text).Reads (spell c) [] (collected (text ++ [c])))
    (text : List Char) {more : List Char} (h : ∀ c ∈ more, fits c) :
    (collected text).Reads (more.flatMap spell) [] (collected (text ++ more)) := by
  induction more generalizing text with
  | nil =>
    rw [List.append_nil]
    exact .nil _
  | cons c more ih =>
    rw [List.forall_mem_cons] at h
    rw [List.flatMap_cons, List.append_cons]
    exact (hspell text c h.1).append (ih _ h.2)

/-- Characters of names go on with a name. -/
theorem reads_element (name : List Char) {more : List Char}
    (h : ∀ c ∈ more, classOf c = .entityName) :
    (element name).Reads more [] (element (name ++ more)) := by
  have hspell : ∀ text c, classOf c = .entityName →
      (element text).Reads [c] [] (element (text ++ [c])) := by
    intro text c hc
    have hnext : (element text).next c = .ok ([], element (text ++ [c])) := by
      simp only [next, inPath, hc]
    exact .silent hnext (.nil _)
  have hreads := reads_flatMap hspell name h
  rwa [List.flatMap_singleton'] at hreads

/-- A name is collected behind one slash or two. -/
theorem reads_name {p : Pending} (h : p = child ∨ p = descendant) {name : String}
    (hname : IsName name) : p.Reads name.toList [p.operation] (element name.toList) := by
  obtain ⟨c, cs, hcs, hc, hmore⟩ := hname.exists_cons
  rw [hcs]
  exact .emit (next_name h hc) (reads_element [c] hmore)

/-- Whether a character may stand in a test of attributes. -/
def isTestChar (c : Char) : Bool :=
  classOf c == .entityName || classOf c == .comparison || classOf c == .digit

/-- Characters of names, comparisons and digits go on with a test of attributes. -/
theorem next_attributeTest (text : List Char) {c : Char} (h : isTestChar c) :
    (attributeTest text).next c = .ok ([], attributeTest (text ++ [c])) := by
  simp only [isTestChar, Bool.or_eq_true, beq_iff_eq] at h
  -- the three classes have arms of their own, which do the same here
  rcases h with (h | h) | h <;> simp only [next, inPath, h]

/-- A test of attributes is collected from its characters. -/
theorem reads_attributeTest (text : List Char) {more : List Char} (h : ∀ c ∈ more, isTestChar c) :
    (attributeTest text).Reads more [] (attributeTest (text ++ more)) := by
  have hspell : ∀ text c, isTestChar c →
      (attributeTest text).Reads [c] [] (attributeTest (text ++ [c])) := fun text c hc =>
    .silent (next_attributeTest text hc) (.nil _)
  have hreads := reads_flatMap hspell text h
  rwa [List.flatMap_singleton'] at hreads

/-! ### Inside of brackets -/

/-- A character as it can stand in a bracket without a meaning of its own: a backslash is escaped,
    and anything else is quoted. -/
def protect (c : Char) : List Char :=
  if c = '\\' then ['\\', '\\']
  else if c = '"' then ['\x27', '"', '\x27']
  else ['"', c, '"']

/-- A character without a meaning of its own is collected. -/
theorem reads_protect (contents : List Char) (c : Char) :
    (bracket contents none false).Reads (protect c) [] (bracket (contents ++ [c]) none false) := by
  unfold protect
  split
  · rename_i hc
    subst hc
    exact .silent rfl (.silent rfl (.nil _))
  split
  · rename_i hc
    subst hc
    have hopen : (bracket contents none false).next '\x27'
        = .ok ([], bracket contents (some '\x27') false) := by
      simp [next, inBracket]
    exact .silent hopen (.silent rfl (.silent rfl (.nil _)))
  · rename_i hbackslash hquote
    have hopen : (bracket contents none false).next '"'
        = .ok ([], bracket contents (some '"') false) := by
      simp [next, inBracket]
    have hnext : (bracket contents (some '"') false).next c
        = .ok ([], bracket (contents ++ [c]) (some '"') false) := by
      simp [next, inBracket, hbackslash, hquote]
    exact .silent hopen (.silent hnext (.silent rfl (.nil _)))

/-- **Any contents of a bracket can be collected.** -/
theorem reads_contents (contents more : List Char) :
    (bracket contents none false).Reads (more.flatMap protect) []
      (bracket (contents ++ more) none false) := by
  have hspell : ∀ text c, True → (bracket text none false).Reads (protect c) []
      (bracket (text ++ [c]) none false) := fun text c _ => reads_protect text c
  exact reads_flatMap hspell contents fun _ _ => trivial

/-- A closing bracket emits what stands in the bracket. -/
theorem next_closing (contents : List Char) :
    (bracket contents none false).next ']'
      = .ok ([.ofExpression (.classify contents)], nothing) := by
  simp [next, inBracket]

end Pending

end XmlQuery.Query
