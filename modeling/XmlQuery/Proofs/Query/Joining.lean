import XmlQuery.Proofs.Query.Pointwise
import XmlQuery.Proofs.Query.Reading
import XmlQuery.Query.Batch

namespace XmlQuery.Query

/-!
# Queries behind one another

A query that begins with a step, a test or a bracket can be written behind another one.  Together
they are a query that goes on from what the first one finds.

* `Pending.next_joint` — a character that begins an operation does so behind anything that can be
  completed.
* `JoinsOnto` — the queries that can be written behind a program.
* `compile_append` — their operations follow those of the program.
* `queryFrom_append` — hence they go on from each node that it finds.
-/

/-! ### Compiling -/

/-- The characters that begin an operation whatever stands before them. -/
def joints : List Char := ['/', '@', '*', '[']

namespace Pending

/-- A character that begins an operation completes what has been begun, and leaves nothing of it.
    Only a slash behind a slash does not begin anew. -/
theorem next_joint {c : Char} (hc : c ∈ joints) :
    ∃ q, ∀ {p : Pending}, p.isBracket = false → (c = '/' → p ≠ child) →
      p.next c = .ok ([p.operation], q) := by
  simp only [joints, List.mem_cons, List.not_mem_nil, or_false] at hc
  rcases hc with rfl | rfl | rfl | rfl
  · exact ⟨child, fun hbracket hchild => next_slash hbracket (hchild rfl)⟩
  · exact ⟨attributeTest [], fun hbracket _ => next_at hbracket⟩
  · exact ⟨wildcard, fun hbracket _ => next_asterisk hbracket⟩
  · exact ⟨bracket [] none false, fun hbracket _ => next_opening hbracket⟩

end Pending

/-- Whether a query can be written behind a program: it begins an operation, and does not make a
    step to descendants of a step to children that the program ends with. -/
def JoinsOnto (q : String) (first : Program) : Prop :=
  ∃ c ∈ joints, q.toList.head? = some c ∧
    (c = '/' → ∀ op ∈ first.operations.getLast?, op.instruction ≠ .child)

/-- What can be written behind a program has a first character, which leads from the end of the
    program to where it leads from the start of a query. -/
theorem JoinsOnto.exists_next {q : String} {first : Program} {emitted : List Operation}
    {last : Pending} (h : JoinsOnto q first) (hbracket : last.isBracket = false)
    (hfirst : first.operations = emitted ++ [last.operation]) :
    ∃ c cs begun, q.toList = c :: cs ∧ last.next c = .ok ([last.operation], begun) ∧
      Pending.nothing.next c = .ok ([.ofText .null ""], begun) := by
  obtain ⟨c, hc, hhead, hslash⟩ := h
  obtain ⟨cs, hq⟩ : ∃ cs, q.toList = c :: cs := List.head?_eq_some_iff.1 hhead
  obtain ⟨begun, hnext⟩ := Pending.next_joint hc
  refine ⟨c, cs, begun, hq, hnext hbracket fun hc' hchild => ?_,
    hnext rfl fun _ => Pending.noConfusion⟩
  -- a program that ends with a step to children cannot be followed by a slash
  refine hslash hc' last.operation (hfirst ▸ List.getLast?_concat) ?_
  rw [hchild]
  rfl

/-- **The operations of two queries follow one another** if the second one begins an operation: its
    idle operation in front is left out. -/
theorem compile_append {p q : String} {first second : Program} (hfirst : compile p = .ok first)
    (hsecond : compile q = .ok second) (hjoins : JoinsOnto q first) :
    ∃ rest, second.operations = .ofText .null "" :: rest ∧
      compile (p ++ q) = .ok ⟨p ++ q, first.operations ++ rest⟩ := by
  obtain ⟨emitted, last, hreads, hbracket, rfl⟩ := compile_eq_ok_iff.1 hfirst
  obtain ⟨emitted', last', hreads', hbracket', rfl⟩ := compile_eq_ok_iff.1 hsecond
  obtain ⟨c, cs, begun, hq, hlast, hstart⟩ := hjoins.exists_next hbracket rfl
  rw [hq] at hreads'
  cases hreads' with
  | @cons _ _ _ _ _ completed ops hnothing hrest =>
    rw [hstart] at hnothing
    cases hnothing
    have hjoined := hreads.append (.emit hlast hrest)
    rw [← hq, ← String.toList_append] at hjoined
    refine ⟨ops ++ [last'.operation], rfl, compile_eq_ok_iff.2 ⟨_, last', hjoined, hbracket', ?_⟩⟩
    simp

/-! ### Evaluating -/

/-- The answer to a query is that of its program. -/
theorem queryFrom_of_compile {query : String} {program : Program}
    (h : compile query = .ok program) (d : Document) (start : Nat) :
    d.queryFrom start query = (evaluate d start program).mapError .evaluation := by
  rw [Document.queryFrom, h]

/-- A query finds nodes exactly if it compiles, starts at a node, and its operations lead to
    them. -/
theorem queryFrom_eq_ok_iff {d : Document} {query : String} {start : Nat} {ids : List Nat} :
    d.queryFrom start query = .ok ids ↔
      ∃ program, compile query = .ok program ∧ d.contains start ∧
        run d program.operations [start] = .ok ids := by
  rw [Document.queryFrom]
  cases compile query with
  | error e => simp
  | ok program =>
    simp only [Except.ok.injEq, exists_eq_left', evaluate]
    by_cases hstart : d.contains start
    · rw [if_pos hstart]
      cases run d program.operations [start] <;> simp [hstart, Except.mapError]
    · simp [hstart, Except.mapError]

/-- What a query finds are nodes of the document. -/
theorem contains_of_queryFrom {d : Document} (hwf : d.WellFormed) {query : String} {start : Nat}
    {ids : List Nat} (h : d.queryFrom start query = .ok ids) : ∀ id ∈ ids, d.contains id := by
  obtain ⟨program, -, hstart, hrun⟩ := queryFrom_eq_ok_iff.1 h
  refine contains_of_run hwf (fun id hid => ?_) hrun
  exact List.mem_singleton.1 hid ▸ hstart

/-- Operations without positions behind others go on from each node that those have made. -/
theorem run_append_eq_map {d : Document} (ops : List Operation) {rest : List Operation}
    (h : ∀ op ∈ rest, op.IndexFree) (ids : List Nat) :
    run d (ops ++ rest) ids = (run d ops ids).map (List.flatMap (reach d rest)) := by
  rw [run_append]
  cases run d ops ids with
  | error e => rfl
  | ok found => exact run_eq_flatMap h d found

/-- **A query behind another one goes on from each node that the first one finds.**  If the second
    one begins an operation, the two are a query with the operations of both.  It fails as the first
    one does; otherwise, if the second one does not ask for positions, it finds what that one finds
    from each of the nodes, one after the other. -/
theorem queryFrom_append {p q : String} {first second : Program} (hfirst : compile p = .ok first)
    (hsecond : compile q = .ok second) (hjoins : JoinsOnto q first) :
    ∃ rest, second.operations = .ofText .null "" :: rest ∧
      compile (p ++ q) = .ok ⟨p ++ q, first.operations ++ rest⟩ ∧
      ((∀ op ∈ second.operations, op.IndexFree) → ∀ d : Document, d.Reachable → ∀ start,
        match d.queryFrom start p with
        | .error e => d.queryFrom start (p ++ q) = .error e
        | .ok ids => ∃ found : Nat → List Nat, (∀ id ∈ ids, d.queryFrom id q = .ok (found id)) ∧
            d.queryFrom start (p ++ q) = .ok (ids.flatMap found)) := by
  obtain ⟨rest, hrest, hboth⟩ := compile_append hfirst hsecond hjoins
  refine ⟨rest, hrest, hboth, fun hfree d hd start => ?_⟩
  have hfree' : ∀ op ∈ rest, op.IndexFree := fun op hop =>
    hfree op (hrest ▸ List.mem_cons_of_mem _ hop)
  have hfrom : ∀ id, d.contains id → d.queryFrom id q = .ok (reach d rest id) := by
    intro id hid
    have hidle : reach d (.ofText .null "" :: rest) id = reach d rest id := by
      show [id].flatMap (reach d rest) = _
      rw [List.flatMap_singleton]
    rw [queryFrom_of_compile hsecond, evaluate_eq_reach hfree hid, hrest, hidle]
    rfl
  have hjoined : d.queryFrom start (p ++ q)
      = (d.queryFrom start p).map (List.flatMap (reach d rest)) := by
    rw [queryFrom_of_compile hboth, queryFrom_of_compile hfirst, evaluate, evaluate]
    split
    · rw [run_append_eq_map _ hfree']
      cases run d first.operations [start] <;> rfl
    · rfl
  cases hp : d.queryFrom start p with
  | error e =>
    rw [hjoined, hp]
    rfl
  | ok ids =>
    refine ⟨reach d rest, fun id hid => hfrom id ?_, ?_⟩
    · exact contains_of_queryFrom hd.wellFormed hp id hid
    · rw [hjoined, hp]
      rfl

/-- Steps to descendants behind each other find a node once for each node above it that the first
    step finds. -/
theorem queryFrom_append_descendants :
    let d := (((Document.ofEncoding "utf-8").edit (.addChild 0 "r" [])).edit
      (.addChild 1 "a" [])).edit (.addChild 2 "a" [])
    let every : Program :=
      ⟨"//*", [.ofText .null "", .ofText .descendant "//", .ofText .wildcard ""]⟩
    let named : Program :=
      ⟨"//a", [.ofText .null "", .ofText .descendant "//", .ofText .element "a"]⟩
    compile "//*" = .ok every ∧ compile "//a" = .ok named ∧ JoinsOnto "//a" every ∧
      (∀ op ∈ named.operations, op.IndexFree) ∧ d.Reachable ∧
      d.queryFrom 0 "//*" = .ok [1, 2, 3] ∧
      (∃ found : Nat → List Nat, (∀ id ∈ [1, 2, 3], d.queryFrom id "//a" = .ok (found id)) ∧
        d.queryFrom 0 ("//*" ++ "//a") = .ok ([1, 2, 3].flatMap found)) ∧
      d.queryFrom 0 ("//*" ++ "//a") = .ok [2, 3, 3] := by
  intro d every named
  have hevery : compile "//*" = .ok every := by decide
  have hnamed : compile "//a" = .ok named := by decide
  have hjoins : JoinsOnto "//a" every := ⟨'/', by decide, by decide, fun _ => by decide⟩
  have hfree : ∀ op ∈ named.operations, op.IndexFree := by decide
  have hd : d.Reachable := (((Document.Reachable.ofEncoding "utf-8").edited
    (.addChild 0 "r" [])).edited (.addChild 1 "a" [])).edited (.addChild 2 "a" [])
  have hfirst : d.queryFrom 0 "//*" = .ok [1, 2, 3] := by decide
  obtain ⟨rest, -, -, hfound⟩ := queryFrom_append hevery hnamed hjoins
  have hfound := hfound hfree d hd 0
  rw [hfirst] at hfound
  exact ⟨hevery, hnamed, hjoins, hfree, hd, hfirst, hfound, by decide⟩

end XmlQuery.Query
