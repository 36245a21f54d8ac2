import Mathlib.Data.List.Chain
import XmlQuery.Proofs.Query.Reading

namespace XmlQuery.Query

/-!
# The programs of queries

Not every list of operations comes out of a query.  Those that do are described without the
compiler: by what each operation works with, which operations may stand at the ends, and which
behind which.

* `Operation.Proper` — operations with an operand that suits their instruction.
* `Instruction.followers` — the instructions that may stand behind one.
* `Canonical` — lists of proper operations that follow one another as they may.
* `Pending.Reads.canonical` — what a query emits is canonical.
* `Pending.Awaits.exists_reads` — some query emits what is canonical.
* `exists_compile_iff_canonical` — hence the canonical lists are the programs of queries.
-/

/-! ### Canonical lists -/

/-- The instructions that may stand behind an instruction in the program of a query. -/
def Instruction.followers : Instruction → List Instruction
  | null => [child, descendant, attributeTest, wildcard, bracket]
  | element => [child, descendant, attributeTest, wildcard, bracket]
  | child => [element, attributeTest, wildcard, bracket]
  | descendant => [element, child, descendant, attributeTest, wildcard, bracket]
  | wildcard => [child, descendant, attributeTest, wildcard, bracket]
  | attributeTest => [child, descendant, attributeTest, wildcard, bracket]
  | bracket => [null, element]

/-- Operations with an operand that suits their instruction: a bracket has an expression that some
    contents stand for, and all others have a text. -/
inductive Operation.Proper : Operation → Prop
  | null : Proper (.ofText .null "")
  | element {name : String} (hne : name ≠ "") (h : ∀ c ∈ name.toList, classOf c = .entityName) :
      Proper (.ofText .element name)
  | child : Proper (.ofText .child "/")
  | descendant : Proper (.ofText .descendant "//")
  | wildcard : Proper (.ofText .wildcard "")
  | attributeTest {text : String}
      (h : ∀ c ∈ text.toList, classOf c ∈ [.entityName, .comparison, .digit]) :
      Proper (.ofText .attributeTest text)
  | bracket (contents : List Char) : Proper (.ofExpression (.classify contents))

/-- Lists of proper operations of which each may stand behind the one before it, that begin with
    one of the instructions `firsts` and do not end with a bracket. -/
structure CanonicalFrom (firsts : List Instruction) (ops : List Operation) : Prop where
  first : ∃ op rest, ops = op :: rest ∧ op.instruction ∈ firsts
  last : ∀ op ∈ ops.getLast?, op.instruction ≠ .bracket
  proper : ∀ op ∈ ops, op.Proper
  adjacent : ops.IsChain fun op next => next.instruction ∈ op.instruction.followers

/-- Lists of operations that a query may have: they begin with an idle step or with the name of an
    element. -/
def Canonical (ops : List Operation) : Prop :=
  CanonicalFrom [.null, .element] ops

namespace CanonicalFrom

variable {firsts firsts' : List Instruction} {op : Operation} {ops : List Operation}

/-- A list may begin with more instructions than it does. -/
theorem mono (h : CanonicalFrom firsts ops) (hsub : firsts ⊆ firsts') :
    CanonicalFrom firsts' ops := by
  obtain ⟨op, rest, hops, hfirst⟩ := h.first
  exact ⟨⟨op, rest, hops, hsub hfirst⟩, h.last, h.proper, h.adjacent⟩

/-- One operation that is no bracket makes up a list. -/
theorem singleton (hproper : op.Proper) (hfirst : op.instruction ∈ firsts)
    (hlast : op.instruction ≠ .bracket) : CanonicalFrom firsts [op] := by
  refine ⟨⟨op, [], rfl, hfirst⟩, ?_, ?_, .singleton op⟩
  · intro o ho
    cases ho
    exact hlast
  · intro o ho
    rw [List.mem_singleton] at ho
    exact ho ▸ hproper

/-- An operation goes in front of what may stand behind it. -/
theorem cons (h : CanonicalFrom op.instruction.followers ops) (hproper : op.Proper)
    (hfirst : op.instruction ∈ firsts) : CanonicalFrom firsts (op :: ops) := by
  obtain ⟨next, rest, rfl, hnext⟩ := h.first
  refine ⟨⟨op, next :: rest, rfl, hfirst⟩, ?_, ?_, ?_⟩
  · intro o ho
    rw [List.getLast?_cons_cons] at ho
    exact h.last o ho
  · exact List.forall_mem_cons.2 ⟨hproper, h.proper⟩
  · exact List.isChain_cons_cons.2 ⟨hnext, h.adjacent⟩

end CanonicalFrom

/-! ### What queries emit -/

namespace Pending

/-- The instructions that the next operation can have: an idle step can still become a name, and
    one slash can still become two. -/
def firsts : Pending → List Instruction
  | nothing => [.null, .element]
  | child => [.child, .descendant]
  | p => [p.instruction]

/-- Whether what has been collected suits the instruction that has been begun. -/
def Sound : Pending → Prop
  | element name => name ≠ [] ∧ ∀ c ∈ name, classOf c = .entityName
  | attributeTest text => ∀ c ∈ text, isTestChar c
  | _ => True

/-- What has been begun can be the next operation. -/
theorem instruction_mem_firsts (p : Pending) : p.instruction ∈ p.firsts := by
  cases p <;> simp [firsts, instruction]

/-- A character may stand in a test of attributes exactly if its class is one of three. -/
theorem isTestChar_iff {c : Char} :
    isTestChar c ↔ classOf c ∈ [.entityName, .comparison, .digit] := by
  simp [isTestChar, or_assoc]

/-- What has been begun outside of brackets becomes a proper operation. -/
theorem Sound.proper {p : Pending} (h : p.Sound) (hbracket : p.isBracket = false) :
    p.operation.Proper := by
  cases p with
  | nothing => exact .null
  | element name =>
    have hname : (String.ofList name).toList = name := String.toList_ofList
    refine .element (fun hnil => ?_) (fun c hc => h.2 c (hname ▸ hc))
    rw [token] at hnil
    rw [hnil] at hname
    exact h.1 hname.symm
  | child => exact .child
  | descendant => exact .descendant
  | wildcard => exact .wildcard
  | attributeTest text =>
    refine .attributeTest ?_
    rw [token, String.toList_ofList]
    exact fun c hc => isTestChar_iff.1 (h c hc)
  | bracket contents quote escaped => cases hbracket

/-- What a character does to what has been begun: it completes nothing and leaves no new ways for
    the next operation, or it completes a proper operation, behind which what it begins may
    stand. -/
inductive Advances (p : Pending) : List Operation → Pending → Prop
  | silent {q : Pending} (hfirsts : q.firsts ⊆ p.firsts) : Advances p [] q
  | emit {op : Operation} {q : Pending} (hproper : op.Proper) (hfirst : op.instruction ∈ p.firsts)
      (hnext : q.firsts ⊆ op.instruction.followers) : Advances p [op] q

/-- What has been begun outside of brackets can be completed before all that may stand behind
    it. -/
theorem Sound.advances {p q : Pending} (h : p.Sound) (hbracket : p.isBracket = false)
    (hnext : q.firsts ⊆ p.instruction.followers) : p.Advances [p.operation] q :=
  .emit (h.proper hbracket) p.instruction_mem_firsts hnext

/-- Inside of a bracket nothing is completed but the bracket. -/
theorem advances_inBracket (contents : List Char) (quote : Option Char) (escaped : Bool)
    (c : Char) :
    (inBracket contents quote escaped c).2.Sound ∧
      (bracket contents quote escaped).Advances (inBracket contents quote escaped c).1
        (inBracket contents quote escaped c).2 := by
  have hstays : ∀ contents' quote' escaped',
      (bracket contents quote escaped).Advances [] (bracket contents' quote' escaped') :=
    fun _ _ _ => .silent fun i hi => hi
  -- every character but a closing bracket outside of quotes stays in the bracket
  unfold inBracket
  repeat' split
  all_goals first
    | exact ⟨trivial, hstays _ _ _⟩
    | exact ⟨trivial, .emit (.bracket contents) (List.mem_singleton_self _) fun i hi => hi⟩

/-- A bracket, a test of attributes and a wildcard may stand behind anything but a bracket. -/
theorem singleton_subset_followers {p : Pending} (hbracket : p.isBracket = false) {i : Instruction}
    (hi : i = .bracket ∨ i = .attributeTest ∨ i = .wildcard) : [i] ⊆ p.instruction.followers := by
  intro j hj
  rw [List.mem_singleton.1 hj]
  cases p with
  | bracket contents quote escaped => cases hbracket
  | _ => rcases hi with rfl | rfl | rfl <;> simp [instruction, Instruction.followers]

/-- A character that goes on with a test of attributes keeps it sound. -/
theorem Sound.attributeTest_append {text : List Char} (h : (attributeTest text).Sound) {c : Char}
    (hc : isTestChar c) : (attributeTest (text ++ [c])).Sound := by
  intro b hb
  rcases List.mem_append.1 hb with hb | hb
  · exact h b hb
  · exact List.mem_singleton.1 hb ▸ hc

/-- Outside of brackets a character completes what has been begun if it begins something else. -/
theorem advances_inPath {p q : Pending} {c : Char} {completed : List Operation} (h : p.Sound)
    (hbracket : p.isBracket = false) (hnext : p.inPath c = .ok (completed, q)) :
    q.Sound ∧ p.Advances completed q := by
  have hsame : ∀ {r : Pending}, r.firsts = p.firsts → p.Advances [] r :=
    fun hr => .silent (hr ▸ List.Subset.refl _)
  -- one case for each class of characters
  unfold inPath at hnext
  split at hnext
  · -- a bracket opens
    split at hnext
    · cases hnext
    · cases hnext
      exact ⟨trivial, h.advances hbracket (singleton_subset_followers hbracket (.inl rfl))⟩
  · -- comparisons belong to tests of attributes
    rename_i hclass
    split at hnext
    · cases hnext
      exact ⟨h.attributeTest_append (isTestChar_iff.2 (by simp [hclass])), hsame rfl⟩
    · cases hnext
  · -- digits belong to tests of attributes, and are passed over elsewhere
    rename_i hclass
    split at hnext
    · cases hnext
      exact ⟨h.attributeTest_append (isTestChar_iff.2 (by simp [hclass])), hsame rfl⟩
    · cases hnext
      exact ⟨h, hsame rfl⟩
  · -- a name begins or goes on, or belongs to a test of attributes
    rename_i hclass
    have hone : (element [c]).Sound := by
      refine ⟨List.cons_ne_nil c [], fun b hb => ?_⟩
      exact List.mem_singleton.1 hb ▸ hclass
    split at hnext
    · cases hnext
      exact ⟨hone, .silent (by simp [firsts, instruction])⟩
    · cases hnext
      refine ⟨⟨by simp, fun b hb => ?_⟩, hsame rfl⟩
      rcases List.mem_append.1 hb with hb | hb
      · exact h.2 b hb
      · exact List.mem_singleton.1 hb ▸ hclass
    · cases hnext
      exact ⟨h.attributeTest_append (isTestChar_iff.2 (by simp [hclass])), hsame rfl⟩
    · cases hnext
      exact ⟨hone, h.advances hbracket (by simp [firsts, instruction, Instruction.followers])⟩
    · cases hnext
      exact ⟨hone, h.advances hbracket (by simp [firsts, instruction, Instruction.followers])⟩
    · cases hnext
    · cases hnext
  · -- a second slash belongs to the first one
    split at hnext
    · cases hnext
      exact ⟨trivial, .silent (by simp [firsts, instruction])⟩
    · rename_i hchild
      cases hnext
      refine ⟨trivial, h.advances hbracket ?_⟩
      cases p with
      | child => exact absurd rfl hchild
      | bracket contents quote escaped => cases hbracket
      | _ => simp [firsts, instruction, Instruction.followers]
  · cases hnext
    have hempty : (attributeTest []).Sound := by
      intro b hb
      cases hb
    exact ⟨hempty, h.advances hbracket (singleton_subset_followers hbracket (.inr (.inl rfl)))⟩
  · cases hnext
    exact ⟨trivial, h.advances hbracket (singleton_subset_followers hbracket (.inr (.inr rfl)))⟩
  · cases hnext
  · cases hnext

/-- **A character leads from what is sound to what is sound.** -/
theorem advances_next {p q : Pending} {c : Char} {completed : List Operation} (h : p.Sound)
    (hnext : p.next c = .ok (completed, q)) : q.Sound ∧ p.Advances completed q := by
  cases hbracket : p.isBracket with
  | false =>
    rw [next_eq_inPath hbracket] at hnext
    exact advances_inPath h hbracket hnext
  | true =>
    cases p with
    | bracket contents quote escaped =>
      have hadvances := advances_inBracket contents quote escaped c
      rw [next, Except.ok.injEq] at hnext
      rw [hnext] at hadvances
      exact hadvances
    | _ => cases hbracket

/-- **What a query emits is canonical**, with what has been begun at its end. -/
theorem Reads.canonicalFrom {p q : Pending} {cs : List Char} {ops : List Operation}
    (h : p.Reads cs ops q) (hsound : p.Sound) (hbracket : q.isBracket = false) :
    CanonicalFrom p.firsts (ops ++ [q.operation]) := by
  induction h with
  | nil p =>
    refine .singleton (hsound.proper hbracket) p.instruction_mem_firsts ?_
    cases p with
    | bracket contents quote escaped => cases hbracket
    | _ => exact fun heq => by cases heq
  | cons hnext _ ih =>
    obtain ⟨hbetween, hadvances⟩ := advances_next hsound hnext
    have hrest := ih hbetween hbracket
    cases hadvances with
    | silent hfirsts => exact hrest.mono hfirsts
    | emit hproper hfirst hfollow => exact (hrest.mono hfollow).cons hproper hfirst

/-! ### Queries for canonical lists -/

/-- What has been begun when an operation is next: the operation itself, or an open bracket with
    nothing in it. -/
inductive Awaits : Pending → Operation → Prop
  | ended {p : Pending} (h : p.isBracket = false) : Awaits p p.operation
  | bracket (e : Expression) : Awaits (bracket [] none false) (.ofExpression e)

/-- What is spelled with the characters of a name awaits the element. -/
theorem awaits_element (name : String) : (element name.toList).Awaits (.ofText .element name) :=
  operation_element name ▸ .ended rfl

/-- What is spelled with the characters of a test awaits the test. -/
theorem awaits_attributeTest (text : String) :
    (attributeTest text.toList).Awaits (.ofText .attributeTest text) :=
  operation_attributeTest text ▸ .ended rfl

/-- The first operation of a canonical list can be spelled. -/
theorem exists_reads_first {op : Operation} (hproper : op.Proper)
    (hfirst : op.instruction ∈ [Instruction.null, .element]) :
    ∃ cs q, nothing.Reads cs [] q ∧ q.Awaits op := by
  cases hproper with
  | null => exact ⟨[], nothing, .nil _, .ended rfl⟩
  | @element name hne h =>
    obtain ⟨c, cs, hname, hc, hmore⟩ := IsName.exists_cons ⟨hne, h⟩
    have hnext : nothing.next c = .ok ([], element [c]) := by simp only [next, inPath, hc]
    refine ⟨c :: cs, _, .silent hnext (reads_element [c] hmore), ?_⟩
    have hawaits := awaits_element name
    rw [hname] at hawaits
    exact hawaits
  | child | descendant | wildcard | attributeTest _ | bracket _ =>
    simp [Operation.ofText, Operation.ofExpression] at hfirst

/-- An operation that may stand behind one that is no bracket can be spelled there. -/
theorem exists_reads_next {p : Pending} {op : Operation} (hbracket : p.isBracket = false)
    (hproper : op.Proper) (hfollows : op.instruction ∈ p.instruction.followers) :
    ∃ cs q, p.Reads cs [p.operation] q ∧ q.Awaits op := by
  cases hproper with
  | null =>
    cases p with
    | bracket contents quote escaped => cases hbracket
    | _ => simp [Operation.ofText, instruction, Instruction.followers] at hfollows
  | @element name hne h =>
    have hstep : p = child ∨ p = descendant := by
      cases p with
      | bracket contents quote escaped => cases hbracket
      | _ => simp [Operation.ofText, instruction, Instruction.followers] at hfollows ⊢
    exact ⟨name.toList, _, reads_name hstep ⟨hne, h⟩, awaits_element name⟩
  | child =>
    have hchild : p ≠ child := by
      rintro rfl
      simp [Operation.ofText, instruction, Instruction.followers] at hfollows
    exact ⟨['/'], child, .emit (next_slash hbracket hchild) (.nil _), .ended rfl⟩
  | descendant =>
    have hchild : p ≠ child := by
      rintro rfl
      simp [Operation.ofText, instruction, Instruction.followers] at hfollows
    exact ⟨['/', '/'], descendant,
      .emit (next_slash hbracket hchild) (.silent next_secondSlash (.nil _)), .ended rfl⟩
  | wildcard => exact ⟨['*'], wildcard, .emit (next_asterisk hbracket) (.nil _), .ended rfl⟩
  | @attributeTest text h =>
    have hreads := reads_attributeTest [] fun c hc => isTestChar_iff.2 (h c hc)
    exact ⟨'@' :: text.toList, _, .emit (next_at hbracket) hreads, awaits_attributeTest text⟩
  | bracket contents =>
    exact ⟨['['], _, .emit (next_opening hbracket) (.nil _), .bracket (.classify contents)⟩

/-- An operation that may stand behind a bracket can be spelled there, whatever contents the bracket
    is to have. -/
theorem exists_reads_closing (contents : List Char) {op : Operation} (hproper : op.Proper)
    (hfollows : op.instruction ∈ Instruction.bracket.followers) :
    ∃ cs q, (bracket [] none false).Reads cs [.ofExpression (.classify contents)] q ∧
      q.Awaits op := by
  obtain ⟨cs, q, hreads, hawaits⟩ := exists_reads_first hproper hfollows
  exact ⟨_, q, (reads_contents [] contents).append (.emit (next_closing contents) hreads), hawaits⟩

/-- **Some query emits what is canonical**, from the operation that is awaited on. -/
theorem Awaits.exists_reads {p : Pending} {op : Operation} {ops : List Operation}
    (h : p.Awaits op) (hlast : ∀ o ∈ (op :: ops).getLast?, o.instruction ≠ .bracket)
    (hproper : ∀ o ∈ op :: ops, o.Proper)
    (hadjacent : (op :: ops).IsChain fun o next => next.instruction ∈ o.instruction.followers) :
    ∃ cs emitted q, p.Reads cs emitted q ∧ q.isBracket = false ∧
      op :: ops = emitted ++ [q.operation] := by
  induction ops generalizing p op with
  | nil =>
    cases h with
    | ended hbracket => exact ⟨[], [], p, .nil p, hbracket, rfl⟩
    | bracket e => exact absurd rfl (hlast _ rfl)
  | cons op' ops ih =>
    rw [List.isChain_cons_cons] at hadjacent
    rw [List.forall_mem_cons] at hproper
    have hproper' := hproper.2 op' List.mem_cons_self
    -- an operation is emitted only when the next one is begun
    have hnext : ∃ cs q, p.Reads cs [op] q ∧ q.Awaits op' := by
      cases h with
      | ended hbracket => exact exists_reads_next hbracket hproper' hadjacent.1
      | bracket e =>
        cases hproper.1 with
        | bracket contents => exact exists_reads_closing contents hproper' hadjacent.1
    obtain ⟨cs, q, hreads, hawaits⟩ := hnext
    have hlast' : ∀ o ∈ (op' :: ops).getLast?, o.instruction ≠ .bracket := by
      intro o ho
      exact hlast o (by rw [List.getLast?_cons_cons]; exact ho)
    obtain ⟨cs', emitted, r, hreads', hbracket, hops⟩ := ih hawaits hlast' hproper.2 hadjacent.2
    refine ⟨cs ++ cs', _, r, hreads.append hreads', hbracket, ?_⟩
    rw [hops]
    rfl

end Pending

/-- **The canonical lists are the programs of queries.** -/
theorem exists_compile_iff_canonical (ops : List Operation) :
    (∃ query program, compile query = .ok program ∧ program.operations = ops) ↔
      Canonical ops := by
  rw [exists_compile_iff]
  constructor
  · rintro ⟨cs, emitted, q, hreads, hbracket, rfl⟩
    exact hreads.canonicalFrom trivial hbracket
  · intro h
    obtain ⟨op, rest, rfl, hfirst⟩ := h.first
    obtain ⟨cs, q, hreads, hawaits⟩ :=
      Pending.exists_reads_first (h.proper op List.mem_cons_self) hfirst
    obtain ⟨cs', emitted, r, hreads', hbracket, hops⟩ :=
      hawaits.exists_reads h.last h.proper h.adjacent
    exact ⟨cs ++ cs', emitted, r, hreads.append hreads', hbracket, hops⟩

end XmlQuery.Query
