import Mathlib.Data.Bool.AllAny
import XmlQuery.Proofs.Query.Brackets

namespace XmlQuery.Query

/-!
# Tests of attributes with and without brackets

A test of attributes can be written behind an at sign as it is, or in a bracket.  Both spellings are
queries behind the same texts and before the same texts, and find the same.

* `compile_append_eq_ok_iff` — what begins an operation is a query behind another one exactly if it
  is one by itself.
* `compile_attributeTest`, `compile_attributeCondition` — the operations of the two spellings.
* `run_attributeCondition` — what a test does in either of them.
* `queryFrom_attributeTest` — queries with either spelling have the same answer.
-/

/-! ### Queries behind one another -/

/-- What begins an operation behind a query, and makes a query together with it, is a query by
    itself. -/
theorem exists_compile_of_append {p q : String} {first program : Program}
    (hfirst : compile p = .ok first) (hjoins : JoinsOnto q first)
    (h : compile (p ++ q) = .ok program) : ∃ second, compile q = .ok second := by
  obtain ⟨emitted, between, hreads, hbracket, rfl⟩ := compile_eq_ok_iff.1 hfirst
  obtain ⟨_, last, hboth, hlast, -⟩ := compile_eq_ok_iff.1 h
  rw [String.toList_append] at hboth
  obtain ⟨_, between', after, hbefore, hafter, -⟩ := hboth.split
  obtain ⟨rfl, rfl⟩ := hreads.unique hbefore
  obtain ⟨c, cs, begun, hq, hbetween, hstart⟩ := hjoins.exists_next hbracket rfl
  rw [hq] at hafter
  cases hafter with
  | cons hbegun hrest =>
    rw [hbetween] at hbegun
    cases hbegun
    have hsecond := Pending.Reads.emit hstart hrest
    rw [← hq] at hsecond
    exact ⟨_, compile_eq_ok_iff.2 ⟨_, last, hsecond, hlast, rfl⟩⟩

/-- **What begins an operation is a query behind another one exactly if it is one by itself**, and
    so is nothing at all.  Its operations follow those of the other one, without the idle one in
    front. -/
theorem compile_append_eq_ok_iff {p q : String} {first : Program} (hfirst : compile p = .ok first)
    (hq : q = "" ∨ JoinsOnto q first) (program : Program) :
    compile (p ++ q) = .ok program ↔
      ∃ rest, compile q = .ok ⟨q, .ofText .null "" :: rest⟩ ∧
        program = ⟨p ++ q, first.operations ++ rest⟩ := by
  rcases hq with rfl | hjoins
  · have hempty : compile "" = .ok ⟨"", [.ofText .null ""]⟩ := rfl
    have hsource : first = ⟨p, first.operations⟩ := by
      obtain ⟨_, _, -, -, rfl⟩ := compile_eq_ok_iff.1 hfirst
      rfl
    rw [String.append_empty, hfirst]
    constructor
    · rintro ⟨⟩
      refine ⟨[], hempty, ?_⟩
      rw [List.append_nil]
      exact hsource
    · rintro ⟨rest, hrest, rfl⟩
      rw [hempty] at hrest
      cases hrest
      rw [List.append_nil, ← hsource]
  · constructor
    · intro h
      obtain ⟨second, hsecond⟩ := exists_compile_of_append hfirst hjoins h
      obtain ⟨rest, hrest, hboth⟩ := compile_append hfirst hsecond hjoins
      obtain ⟨_, _, -, -, rfl⟩ := compile_eq_ok_iff.1 hsecond
      refine ⟨rest, ?_, Except.ok.inj (h.symm.trans hboth)⟩
      rw [hsecond, ← hrest]
    · rintro ⟨rest, hsecond, rfl⟩
      obtain ⟨rest', hrest, hboth⟩ := compile_append hfirst hsecond hjoins
      cases hrest
      exact hboth

/-- Whatever begins an operation can be written behind a program that does not end with a step to
    children. -/
theorem joinsOnto_of_head {q : String} {first : Program} (hq : ∀ c ∈ q.toList.head?, c ∈ joints)
    (hlast : ∀ op ∈ first.operations.getLast?, op.instruction ≠ .child) :
    q = "" ∨ JoinsOnto q first := by
  cases hhead : q.toList.head? with
  | none => exact .inl (String.toList_eq_nil_iff.1 (List.head?_eq_none_iff.1 hhead))
  | some c => exact .inr ⟨c, hq c hhead, hhead, fun _ => hlast⟩

/-! ### The two spellings -/

/-- The characters of tests mean themselves in a bracket. -/
theorem isPlain_of_isTestChar {c : Char} (h : Pending.isTestChar c) : isPlain c := by
  have hall : ∀ x ∈ ['\\', '"', '\x27', ']'], Pending.isTestChar x = false :=
    List.all_iff_forall_prop.1 (by decide)
  have hnone : c ∉ ['\\', '"', '\x27', ']'] := by
    intro hc
    rw [hall c hc] at h
    cases h
  simp only [List.mem_cons, List.not_mem_nil, or_false, not_or] at hnone
  simp [isPlain, hnone]

variable {p s : String} {first : Program}

/-- Behind an at sign a test is an operation of its own. -/
theorem compile_attributeTest (hfirst : compile p = .ok first)
    (hs : ∀ c ∈ s.toList, Pending.isTestChar c) :
    compile (p ++ "@" ++ s)
      = .ok ⟨p ++ "@" ++ s, first.operations ++ [.ofText .attributeTest s]⟩ := by
  have hreads : Pending.nothing.Reads ("@" ++ s).toList [.ofText .null ""]
      (.attributeTest s.toList) := by
    rw [String.toList_append]
    exact .emit (Pending.next_at rfl) (Pending.reads_attributeTest [] hs)
  have hsecond : compile ("@" ++ s)
      = .ok ⟨"@" ++ s, [.ofText .null "", .ofText .attributeTest s]⟩ := by
    refine compile_eq_ok_iff.2 ⟨_, _, hreads, rfl, ?_⟩
    rw [Pending.operation_attributeTest]
    rfl
  have hjoins : JoinsOnto ("@" ++ s) first := by
    refine ⟨'@', by decide, ?_, fun heq => absurd heq (by decide)⟩
    rw [String.toList_append]
    rfl
  rw [String.append_assoc]
  exact (compile_append_eq_ok_iff hfirst (.inr hjoins) _).2 ⟨_, hsecond, rfl⟩

/-- In a bracket it is an expression, with an idle operation behind it. -/
theorem compile_attributeCondition (hfirst : compile p = .ok first)
    (hs : ∀ c ∈ s.toList, Pending.isTestChar c) :
    compile (p ++ "[@" ++ s ++ "]") = .ok ⟨p ++ "[@" ++ s ++ "]",
      first.operations ++ [.ofExpression (.attributeCondition s), .ofText .null ""]⟩ := by
  have hreads : (Pending.bracket [] none false).Reads ("@" ++ s).toList []
      (.bracket ('@' :: s.toList) none false) := by
    rw [String.toList_append]
    have hplain : ∀ c ∈ '@' :: s.toList, isPlain c :=
      List.forall_mem_cons.2 ⟨rfl, fun c hc => isPlain_of_isTestChar (hs c hc)⟩
    refine Pending.reads_plain hplain fun _ c hc => ?_
    cases hc
    decide
  have hclassify : Expression.classify ('@' :: s.toList) = .attributeCondition s := by
    rw [Expression.classify, if_pos rfl, String.ofList_toList]
  have hsecond := compile_bracket hreads
  rw [hclassify] at hsecond
  have hwritten : p ++ "[@" ++ s ++ "]" = p ++ ("[" ++ ("@" ++ s) ++ "]") := by
    rw [← String.toList_inj]
    simp
  have hjoins : JoinsOnto ("[" ++ ("@" ++ s) ++ "]") first := by
    refine ⟨'[', by decide, ?_, fun heq => absurd heq (by decide)⟩
    rw [String.toList_append, String.toList_append]
    rfl
  rw [hwritten]
  exact (compile_append_eq_ok_iff hfirst (.inr hjoins) _).2 ⟨_, hsecond, rfl⟩

/-- A test does the same in either spelling: the idle operation behind the bracket does nothing. -/
theorem run_attributeCondition (d : Document) (before after : List Operation) (s : String)
    (ids : List Nat) :
    run d (before ++ [.ofExpression (.attributeCondition s), .ofText .null ""] ++ after) ids
      = run d (before ++ [.ofText .attributeTest s] ++ after) ids := by
  rw [List.append_assoc, List.append_assoc, run_append, run_append]
  rfl

/-- **A test of attributes finds the same with a bracket around it and without.**  Behind any query,
    and before anything that begins an operation, one spelling is a query exactly if the other one
    is; they then have the same answer in every document and from every node. -/
theorem queryFrom_attributeTest {q : String} (hfirst : compile p = .ok first)
    (hs : ∀ c ∈ s.toList, Pending.isTestChar c) (hq : ∀ c ∈ q.toList.head?, c ∈ joints) :
    ((∃ program, compile (p ++ "@" ++ s ++ q) = .ok program)
        ↔ ∃ program, compile (p ++ "[@" ++ s ++ "]" ++ q) = .ok program) ∧
      ((∃ program, compile (p ++ "@" ++ s ++ q) = .ok program) → ∀ (d : Document) start,
        d.queryFrom start (p ++ "@" ++ s ++ q)
          = d.queryFrom start (p ++ "[@" ++ s ++ "]" ++ q)) := by
  have hbare := compile_append_eq_ok_iff (compile_attributeTest hfirst hs)
    (joinsOnto_of_head hq (by simp [Operation.ofText]))
  have henclosed := compile_append_eq_ok_iff (compile_attributeCondition hfirst hs)
    (joinsOnto_of_head hq (by simp [Operation.ofText]))
  constructor
  · -- each of them is a query exactly if `q` is one
    constructor
    · rintro ⟨program, h⟩
      obtain ⟨rest, hsecond, -⟩ := (hbare _).1 h
      exact ⟨_, (henclosed _).2 ⟨rest, hsecond, rfl⟩⟩
    · rintro ⟨program, h⟩
      obtain ⟨rest, hsecond, -⟩ := (henclosed _).1 h
      exact ⟨_, (hbare _).2 ⟨rest, hsecond, rfl⟩⟩
  · rintro ⟨program, h⟩ d start
    obtain ⟨rest, hsecond, rfl⟩ := (hbare _).1 h
    rw [queryFrom_of_compile h, queryFrom_of_compile ((henclosed _).2 ⟨rest, hsecond, rfl⟩),
      evaluate, evaluate, run_attributeCondition]

/-- A test behind a step to children, with another step behind it. -/
theorem queryFrom_attributeTest_steps :
    let d := (((((Document.ofEncoding "utf-8").edit (.addChild 0 "r" [])).edit
      (.addChild 1 "a" [("k", "1")])).edit (.addChild 1 "a" [("k", "2")])).edit
      (.addChild 3 "b" [])).edit (.addChild 2 "b" [])
    let first : Program := ⟨"/r/", [.ofText .null "", .ofText .child "/", .ofText .element "r",
      .ofText .child "/"]⟩
    compile "/r/" = .ok first ∧ (∀ c ∈ "k>1".toList, Pending.isTestChar c) ∧
      (∀ c ∈ "/b".toList.head?, c ∈ joints) ∧
      (∃ program, compile ("/r/" ++ "@" ++ "k>1" ++ "/b") = .ok program) ∧
      (∃ program, compile ("/r/" ++ "[@" ++ "k>1" ++ "]" ++ "/b") = .ok program) ∧
      d.queryFrom 0 ("/r/" ++ "@" ++ "k>1" ++ "/b") = .ok [4] ∧
      d.queryFrom 0 ("/r/" ++ "[@" ++ "k>1" ++ "]" ++ "/b") = .ok [4] := by
  intro d first
  have hfirst : compile "/r/" = .ok first := by decide
  have hs : ∀ c ∈ "k>1".toList, Pending.isTestChar c := List.all_iff_forall_prop.1 (by decide)
  have hq : ∀ c ∈ "/b".toList.head?, c ∈ joints := by
    rintro c ⟨⟩
    decide
  have hbare : ∃ program, compile ("/r/" ++ "@" ++ "k>1" ++ "/b") = .ok program := ⟨_, rfl⟩
  obtain ⟨hiff, hanswer⟩ := queryFrom_attributeTest hfirst hs hq
  have hfound : d.queryFrom 0 ("/r/" ++ "@" ++ "k>1" ++ "/b") = .ok [4] := by decide
  exact ⟨hfirst, hs, hq, hbare, hiff.1 hbare, hfound, hanswer hbare d 0 ▸ hfound⟩

end XmlQuery.Query
