import XmlQuery.Proofs.Query.Joining

namespace XmlQuery.Query

/-!
# Brackets behind a query

A bracket can be written behind any query.  Its contents are collected first, and what they stand
for is then applied to all that the query finds.

* `isPlain` — the characters that mean themselves in a bracket.
* `Pending.reads_plain`, `Pending.reads_quoted` — contents that are written as they are, or between
  quotes.
* `queryFrom_bracket` — a bracket applies its expression to what the query finds.
-/

/-! ### Contents -/

/-- Whether a character means itself in a bracket, but for blanks in front of everything else. -/
def isPlain (c : Char) : Bool :=
  c != '\\' && c != '"' && c != '\x27' && c != ']'

namespace Pending

/-- A plain character is collected, if it is no blank in front of everything else. -/
theorem next_plain {contents : List Char} {c : Char} (hc : isPlain c)
    (hfirst : contents = [] → c ≠ ' ' ∧ c ≠ '\t') :
    (bracket contents none false).next c = .ok ([], bracket (contents ++ [c]) none false) := by
  simp only [isPlain, Bool.and_eq_true, bne_iff_ne] at hc
  obtain ⟨⟨⟨hbackslash, hdouble⟩, hsingle⟩, hclosing⟩ := hc
  have hblank : ¬ ((c = ' ' ∨ c = '\t') ∧ contents = []) := by
    rintro ⟨hc, hnil⟩
    exact hc.elim (hfirst hnil).1 (hfirst hnil).2
  simp [next, inBracket, hbackslash, hdouble, hsingle, hclosing, hblank]

/-- **Plain contents are collected as they are**, if they do not begin with a blank in front of
    everything else. -/
theorem reads_plain {contents more : List Char} (h : ∀ c ∈ more, isPlain c)
    (hfirst : contents = [] → ∀ c ∈ more.head?, c ≠ ' ' ∧ c ≠ '\t') :
    (bracket contents none false).Reads more [] (bracket (contents ++ more) none false) := by
  induction more generalizing contents with
  | nil =>
    rw [List.append_nil]
    exact .nil _
  | cons c more ih =>
    rw [List.forall_mem_cons] at h
    have hnext := next_plain h.1 fun hnil => hfirst hnil c rfl
    rw [List.append_cons]
    exact .silent hnext (ih h.2 fun hnil => absurd hnil (List.concat_ne_nil c contents))

/-- **What stands between quotes is collected as it is**, blanks and closing brackets too, if it
    holds neither the quote nor a backslash. -/
theorem reads_quoted (contents : List Char) {quote : Char} (hquote : quote = '"' ∨ quote = '\x27')
    {text : List Char} (htext : ∀ c ∈ text, c ≠ quote ∧ c ≠ '\\') :
    (bracket contents none false).Reads (quote :: (text ++ [quote])) []
      (bracket (contents ++ text) none false) := by
  have hopen : (bracket contents none false).next quote
      = .ok ([], bracket contents (some quote) false) := by
    rcases hquote with rfl | rfl <;> simp [next, inBracket]
  have hclose : ∀ collected, (bracket collected (some quote) false).next quote
      = .ok ([], bracket collected none false) := by
    intro collected
    rcases hquote with rfl | rfl <;> simp [next, inBracket]
  have hspell : ∀ collected c, c ≠ quote ∧ c ≠ '\\' →
      (bracket collected (some quote) false).Reads [c] []
        (bracket (collected ++ [c]) (some quote) false) := by
    intro collected c hc
    have hnext : (bracket collected (some quote) false).next c
        = .ok ([], bracket (collected ++ [c]) (some quote) false) := by
      simp [next, inBracket, hc]
    exact .silent hnext (.nil _)
  have hreads := reads_flatMap hspell contents htext
  rw [List.flatMap_singleton'] at hreads
  exact .silent hopen (hreads.append (.silent (hclose _) (.nil _)))

end Pending

/-! ### Queries -/

/-- A bracket alone is a query, with an idle operation on either side of its expression. -/
theorem compile_bracket {written : String} {contents : List Char}
    (h : (Pending.bracket [] none false).Reads written.toList []
      (.bracket contents none false)) :
    compile ("[" ++ written ++ "]") = .ok ⟨"[" ++ written ++ "]",
      [.ofText .null "", .ofExpression (.classify contents), .ofText .null ""]⟩ := by
  have hreads : Pending.nothing.Reads ("[" ++ written ++ "]").toList
      [.ofText .null "", .ofExpression (.classify contents)] .nothing := by
    rw [String.toList_append, String.toList_append]
    exact .emit (Pending.next_opening rfl)
      (h.append (.emit (Pending.next_closing contents) (.nil _)))
  exact compile_eq_ok_iff.2 ⟨_, _, hreads, rfl, rfl⟩

/-- **A bracket behind a query applies its expression to what the query finds.** -/
theorem queryFrom_bracket {written : String} {contents : List Char}
    (h : (Pending.bracket [] none false).Reads written.toList []
      (.bracket contents none false))
    {d : Document} {start : Nat} {p : String} {ids : List Nat}
    (hp : d.queryFrom start p = .ok ids) :
    d.queryFrom start (p ++ ("[" ++ written ++ "]"))
      = ((Expression.classify contents).apply d ids).mapError .evaluation := by
  obtain ⟨first, hfirst, hstart, hrun⟩ := queryFrom_eq_ok_iff.1 hp
  have hjoins : JoinsOnto ("[" ++ written ++ "]") first := by
    refine ⟨'[', by decide, ?_, fun heq => absurd heq (by decide)⟩
    rw [String.toList_append, String.toList_append]
    rfl
  obtain ⟨rest, hrest, hboth⟩ := compile_append hfirst (compile_bracket h) hjoins
  cases hrest
  rw [queryFrom_of_compile hboth, evaluate, if_pos hstart, run_append, hrun]
  have happly : (Operation.ofExpression (.classify contents)).apply d ids
      = (Expression.classify contents).apply d ids := rfl
  simp only [run, happly]
  cases (Expression.classify contents).apply d ids <;> rfl

end XmlQuery.Query
