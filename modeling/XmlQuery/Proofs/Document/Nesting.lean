import XmlQuery.Document.Error
import XmlQuery.Markup.Token
import XmlQuery.Proofs.Document.Layout

namespace XmlQuery.Nesting

open Markup (Event)

/-!
# How events nest

Events denote trees if every element that they start is ended under its own name.  What is begun
with such events and has not gone wrong yet leaves some elements open, and the next event either
fits or offends.

* `Denotes` — events that nest, and the trees that they denote.
* `LeavesOpen` — events that could go on to nest, and the elements that they leave open.
* `Offends` — an event that does not fit what came before it, and the error that it is.
* `leavesOpen_or_offends` — every list of events leaves elements open or has an offending event.
-/

/-! ### Events by themselves -/

/-- Whether character data is left out: formatting is not wanted, and the text is made of spaces,
    tabs and line breaks alone. -/
def leavesOut (drop : Bool) (text : String) : Bool :=
  drop && text.toList.all Markup.isSpace

/-- Whether an event asks for a node. -/
def asksNode (drop : Bool) : Event → Bool
  | .startElement _ _ => true
  | .characters text => !leavesOut drop text
  | .cdata _ => true
  | .endElement _ => false
  | .declaration _ => false
  | .endDocument => false

/-- The number of nodes that events ask for. -/
def demand (drop : Bool) (events : List Event) : Nat :=
  events.countP (asksNode drop)

/-- Events that follow one another ask for the nodes of both. -/
theorem demand_append (drop : Bool) (es more : List Event) :
    demand drop (es ++ more) = demand drop es + demand drop more := by
  rw [demand, demand, demand, List.countP_append]

/-- The start of an element asks for one node more. -/
theorem demand_startElement (drop : Bool) (name : String) (attributes : List (String × String))
    (es : List Event) :
    demand drop (.startElement name attributes :: es) = demand drop es + 1 := by
  rw [demand, List.countP_cons_of_pos rfl, demand]

/-- The encoding that is declared after an event, if `label` was before it. -/
def relabel (label : String) : Event → String
  | .declaration (some encoding) => encoding
  | _ => label

/-- The encoding that events declare last, or else `label`. -/
def declared (label : String) (events : List Event) : String :=
  events.foldl relabel label

/-! ### Events that nest -/

/-- Events that nest, and the trees that they denote.  Between the start of an element and its end
    stand events that nest in turn; an attribute that is given again replaces the first one. -/
inductive Denotes (drop : Bool) : List Event → List Tree → Prop
  | nil : Denotes drop [] []
  | text {s : String} {es : List Event} {ts : List Tree} (hkept : leavesOut drop s = false)
      (h : Denotes drop es ts) : Denotes drop (.characters s :: es) (.text s :: ts)
  | formatting {s : String} {es : List Event} {ts : List Tree} (hout : leavesOut drop s = true)
      (h : Denotes drop es ts) : Denotes drop (.characters s :: es) ts
  | cdata {bytes : List UInt8} {es : List Event} {ts : List Tree} (h : Denotes drop es ts) :
      Denotes drop (.cdata bytes :: es) (.cdata bytes :: ts)
  | declaration {encoding : Option String} {es : List Event} {ts : List Tree}
      (h : Denotes drop es ts) : Denotes drop (.declaration encoding :: es) ts
  | endDocument {es : List Event} {ts : List Tree} (h : Denotes drop es ts) :
      Denotes drop (.endDocument :: es) ts
  | element {name : String} {attributes : List (String × String)} {inner es : List Event}
      {children ts : List Tree} (hinner : Denotes drop inner children) (h : Denotes drop es ts) :
      Denotes drop (.startElement name attributes :: (inner ++ .endElement name :: es))
        (.element name (Element.ofAttributes name attributes).attributes.entries children :: ts)

variable {drop : Bool} {es more : List Event} {ts us : List Tree}

/-- Events that nest can follow one another. -/
theorem Denotes.append (h : Denotes drop es ts) (hmore : Denotes drop more us) :
    Denotes drop (es ++ more) (ts ++ us) := by
  induction h with
  | nil => exact hmore
  | text hkept _ ih => exact .text hkept ih
  | formatting hout _ ih => exact .formatting hout ih
  | cdata _ ih => exact .cdata ih
  | declaration _ ih => exact .declaration ih
  | endDocument _ ih => exact .endDocument ih
  | element hinner _ _ ih =>
    rw [List.cons_append, List.append_assoc, List.cons_append]
    exact .element hinner ih

/-- Events that nest ask for as many nodes as the trees take. -/
theorem Denotes.demand_eq (h : Denotes drop es ts) : demand drop es = Tree.sizeAll ts := by
  induction h with
  | nil => rfl
  | text hkept _ ih =>
    rw [demand, List.countP_cons_of_pos (by simp [asksNode, hkept]), ← demand, ih,
      Tree.sizeAll_cons, Tree.size_text, Nat.add_comm]
  | formatting hout _ ih =>
    rw [demand, List.countP_cons_of_neg (by simp [asksNode, hout]), ← demand, ih]
  | cdata _ ih =>
    rw [demand, List.countP_cons_of_pos rfl, ← demand, ih, Tree.sizeAll_cons, Tree.size_cdata,
      Nat.add_comm]
  | declaration _ ih => exact ih
  | endDocument _ ih => exact ih
  | element _ _ ihinner ih =>
    have hend : ∀ name more, demand drop (.endElement name :: more) = demand drop more :=
      fun _ _ => rfl
    rw [demand_startElement, demand_append, hend, ihinner, ih, Tree.sizeAll_cons,
      Tree.size_element]
    omega

/-- The start of an element and the events that nest behind it ask for nodes of their own. -/
theorem Denotes.demand_behind_start {inner : List Event} {children : List Tree}
    (h : Denotes drop inner children) (name : String) (attributes : List (String × String)) :
    demand drop (es ++ .startElement name attributes :: inner)
      = demand drop es + 1 + Tree.sizeAll children := by
  rw [← h.demand_eq, demand_append, demand_startElement]
  omega

/-- No element that events denote has two attributes with one key. -/
theorem Denotes.settled (h : Denotes drop es ts) : Tree.SettledAll ts := by
  induction h with
  | nil => exact Tree.settledAll_nil
  | text _ _ ih => exact (Tree.settledAll_cons _ _).2 ⟨Tree.settled_text _, ih⟩
  | formatting _ _ ih => exact ih
  | cdata _ ih => exact (Tree.settledAll_cons _ _).2 ⟨Tree.settled_cdata _, ih⟩
  | declaration _ ih => exact ih
  | endDocument _ ih => exact ih
  | element _ _ ihinner ih =>
    rw [Tree.settledAll_cons, Tree.settled_element]
    exact ⟨⟨Element.nodup_keys _, ihinner⟩, ih⟩

/-! ### Events that leave elements open -/

/-- Events that have not gone wrong, and the elements that they leave open, the innermost one
    first, each with its number and its name.  Before the first open element no other one stands at
    top level. -/
inductive LeavesOpen (drop : Bool) : List Event → List (Nat × String) → Prop
  | nothing {es : List Event} {ts : List Tree} (h : Denotes drop es ts)
      (hsingle : ts.countP Tree.isElement ≤ 1) : LeavesOpen drop es []
  | outermost {es inner : List Event} {ts children : List Tree} {name : String}
      {attributes : List (String × String)} (h : Denotes drop es ts)
      (hfirst : ts.countP Tree.isElement = 0) (hinner : Denotes drop inner children) :
      LeavesOpen drop (es ++ .startElement name attributes :: inner)
        [(demand drop es + 1, name)]
  | nested {es inner : List Event} {children : List Tree} {name : String}
      {attributes : List (String × String)} {outer : Nat × String} {opens : List (Nat × String)}
      (h : LeavesOpen drop es (outer :: opens)) (hinner : Denotes drop inner children) :
      LeavesOpen drop (es ++ .startElement name attributes :: inner)
        ((demand drop es + 1, name) :: outer :: opens)

/-- An event that does not fit the events before it: the end of an element where none is open, or
    of another one than the innermost that is, or the start of a second element at top level. -/
inductive Offends (drop : Bool) : List Event → Event → ParseError → Prop
  | unexpectedEnd {es : List Event} {name : String} (h : LeavesOpen drop es []) :
      Offends drop es (.endElement name) (.unexpectedEndTag name)
  | mismatchedEnd {es : List Event} {id : Nat} {expected found : String}
      {opens : List (Nat × String)} (h : LeavesOpen drop es ((id, expected) :: opens))
      (hne : expected ≠ found) :
      Offends drop es (.endElement found) (.mismatchedEndTag expected found)
  | secondRoot {es : List Event} {ts : List Tree} {name : String}
      {attributes : List (String × String)} (h : Denotes drop es ts)
      (hsingle : ts.countP Tree.isElement = 1) :
      Offends drop es (.startElement name attributes) (.multipleRootElements name)

variable {opens : List (Nat × String)}

/-- Events that nest leave the same elements open as before them; at top level they may bring no
    further element. -/
theorem LeavesOpen.append (h : LeavesOpen drop es opens) (hmore : Denotes drop more us)
    (htop : opens = [] → us.countP Tree.isElement = 0) : LeavesOpen drop (es ++ more) opens := by
  cases h with
  | nothing h hsingle =>
    refine .nothing (h.append hmore) ?_
    rw [List.countP_append, htop rfl]
    exact hsingle
  | outermost h hfirst hinner =>
    rw [List.append_assoc, List.cons_append]
    exact .outermost h hfirst (hinner.append hmore)
  | nested h hinner =>
    rw [List.append_assoc, List.cons_append]
    exact .nested h (hinner.append hmore)

/-- The end of the innermost open element leaves the others open. -/
theorem LeavesOpen.close {id : Nat} {name : String}
    (h : LeavesOpen drop es ((id, name) :: opens)) :
    LeavesOpen drop (es ++ [.endElement name]) opens := by
  cases h with
  | outermost h hfirst hinner =>
    rw [List.append_assoc, List.cons_append]
    refine .nothing (h.append (.element hinner .nil)) ?_
    rw [List.countP_append, hfirst]
    exact Nat.le_refl 1
  | nested h hinner =>
    rw [List.append_assoc, List.cons_append]
    exact h.append (.element hinner .nil) (fun hnil => by cases hnil)

/-- The next event leaves some elements open again, or offends. -/
theorem LeavesOpen.step (h : LeavesOpen drop es opens) (e : Event) :
    (∃ opens', LeavesOpen drop (es ++ [e]) opens') ∨ ∃ error, Offends drop es e error := by
  cases e with
  | characters s =>
    left
    cases hout : leavesOut drop s with
    | true => exact ⟨opens, h.append (.formatting hout .nil) fun _ => rfl⟩
    | false => exact ⟨opens, h.append (.text hout .nil) fun _ => rfl⟩
  | cdata bytes => exact .inl ⟨opens, h.append (.cdata .nil) fun _ => rfl⟩
  | declaration encoding => exact .inl ⟨opens, h.append (.declaration .nil) fun _ => rfl⟩
  | endDocument => exact .inl ⟨opens, h.append (.endDocument .nil) fun _ => rfl⟩
  | startElement name attributes =>
    cases h with
    | nothing h hsingle =>
      rcases Nat.le_one_iff_eq_zero_or_eq_one.1 hsingle with hfirst | hsecond
      · exact .inl ⟨_, .outermost h hfirst .nil⟩
      · exact .inr ⟨_, .secondRoot h hsecond⟩
    | outermost h hfirst hinner => exact .inl ⟨_, .nested (.outermost h hfirst hinner) .nil⟩
    | nested h hinner => exact .inl ⟨_, .nested (.nested h hinner) .nil⟩
  | endElement name =>
    -- the end fits the innermost open element alone
    cases opens with
    | nil => exact .inr ⟨_, .unexpectedEnd h⟩
    | cons innermost opens =>
      obtain ⟨id, expected⟩ := innermost
      by_cases hname : expected = name
      · subst hname
        exact .inl ⟨opens, h.close⟩
      · exact .inr ⟨_, .mismatchedEnd h hname⟩

/-- **Every list of events leaves elements open or has an offending event.** -/
theorem leavesOpen_or_offends (drop : Bool) (events : List Event) :
    (∃ opens, LeavesOpen drop events opens) ∨
      ∃ es e rest error, events = es ++ e :: rest ∧ Offends drop es e error := by
  -- the last event comes to events that leave some elements open, or after one that offends
  induction events using List.reverseRecOn with
  | nil => exact .inl ⟨[], .nothing .nil (Nat.zero_le 1)⟩
  | append_singleton events e ih =>
    rcases ih with ⟨opens, h⟩ | ⟨es, e', rest, error, rfl, h⟩
    · rcases h.step e with hopen | ⟨error, hoffends⟩
      · exact .inl hopen
      · exact .inr ⟨events, e, [], error, rfl, hoffends⟩
    · exact .inr ⟨es, e', rest ++ [e], error, by simp, h⟩

end XmlQuery.Nesting
