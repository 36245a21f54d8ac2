import XmlQuery.Proofs.Document.Growth
import XmlQuery.Query.Predicate

namespace XmlQuery

/-!
# Attributes that were given

Whatever attributes are set, and however often, an element has each key once, in the place where it
was first set, with the value that was set last.  Its typed attributes have the same keys with the
same values, read as what they stand for: what compares an attribute finds it only where one that
looks for it does.

* `Element.Given` — the elements that some attributes have been set on, one after the other.
* `Element.Agrees`, `Element.Given.agrees` — what such an element has.
* `Builder.given_of_startElement` — the element of a start tag is given the attributes of the tag.
* `Query.Predicate.accepts_key` — a comparison accepts no node without the attribute.
* `attributes_agree` — all of these at once.
-/

/-! ### Histories of elements -/

namespace Element

/-- The elements that attributes have been set on, one after the other and none besides.  Their name
    and their children may change in between. -/
inductive Given : Element → List (String × String) → Prop
  | ofName (name : String) : Given (ofName name) []
  | setAttribute {e : Element} {given : List (String × String)} (h : Given e given)
      (key value : String) : Given (e.setAttribute key value) (given ++ [(key, value)])
  | others {e : Element} {given : List (String × String)} (h : Given e given) (name : String)
      (children : List Nat) : Given { e with name, children } given

/-- What an element has of the attributes that were set on it: the keys without repetition, in the
    order in which they were first set, in both maps; under each key the value that was set last;
    and the same value as a typed one. -/
structure Agrees (e : Element) (given : List (String × String)) : Prop where
  keys : e.attributes.keys = (given.map Prod.fst).eraseDups
  typedKeys : e.typedAttributes.keys = e.attributes.keys
  last : ∀ key, e.attributes.get? key = given.reverse.lookup key
  typed : ∀ key, e.typedAttributes.get? key = (e.attributes.get? key).map Value.ofAttribute

variable {e : Element} {given : List (String × String)}

/-- The keys of an element are those that were set, each in the place where it was set first. -/
theorem Given.keys_eq (h : e.Given given) :
    e.attributes.keys = (given.map Prod.fst).eraseDups := by
  induction h with
  | ofName name => rfl
  | @setAttribute e given _ key value ih =>
    rw [keys_setAttribute, List.map_append, List.map_singleton, List.eraseDups_append, ih]
    -- a key that has been set before is not set first here
    by_cases hkey : key ∈ given.map Prod.fst
    · rw [if_pos (List.mem_eraseDups.2 hkey)]
      simp [List.removeAll, hkey]
    · rw [if_neg (mt List.mem_eraseDups.1 hkey)]
      simp only [List.removeAll, List.filter_cons, List.filter_nil, List.elem_eq_mem, hkey,
        decide_false, Bool.not_false, if_true]
      rfl
  | others _ name children ih => exact ih

/-- The value of a key is the one that was set last. -/
theorem Given.get?_eq (h : e.Given given) (key : String) :
    e.attributes.get? key = given.reverse.lookup key := by
  induction h with
  | ofName name => rfl
  | @setAttribute e given _ key' value ih =>
    rw [get?_setAttribute, List.reverse_append, List.reverse_singleton, List.singleton_append,
      List.lookup_cons, ih]
    by_cases hkey : key' = key
    · simp [hkey]
    · have hne : (key == key') = false := beq_eq_false_iff_ne.2 (Ne.symm hkey)
      simp [hkey, hne]
  | others _ name children ih => exact ih

/-- The two maps of an element that was given attributes are in step. -/
theorem Given.inStep (h : e.Given given) : e.InStep := by
  induction h with
  | ofName name => rfl
  | setAttribute _ key value ih => exact ih.setAttribute key value
  | others _ name children ih => exact ih

/-- **An element has the attributes that were set last**, in both of its maps. -/
theorem Given.agrees (h : e.Given given) : e.Agrees given :=
  ⟨h.keys_eq, h.inStep.keys_typedAttributes, h.get?_eq, h.inStep.get?_typedAttributes⟩

/-- A list of attributes is given from its first one on. -/
theorem given_ofAttributes (name : String) (attributes : List (String × String)) :
    (ofAttributes name attributes).Given attributes := by
  -- some attributes may have been given before those of the list
  suffices hfold : ∀ (e : Element) given, e.Given given →
      (attributes.foldl (fun e a => e.setAttribute a.1 a.2) e).Given (given ++ attributes) from
    hfold _ [] (.ofName name)
  induction attributes with
  | nil =>
    intro e given h
    rw [List.append_nil]
    exact h
  | cons a rest ih =>
    intro e given h
    rw [List.append_cons]
    exact ih _ _ (h.setAttribute a.1 a.2)

end Element

/-! ### Start tags -/

namespace Builder

/-- An element that is inserted without an error stands at the cursor. -/
theorem node?_insert {b : Builder} {e : Element} (h : (b.insert (.element e)).error = none) :
    (b.insert (.element e)).document.node? (b.insert (.element e)).cursor
      = some ⟨some b.cursor, .element e⟩ := by
  unfold insert at h ⊢
  split at h
  · rename_i hfailed
    rw [h] at hfailed
    cases hfailed
  · rename_i hactive
    rw [if_neg hactive]
    split at h
    · rename_i hadded
      obtain ⟨-, -, -, rfl, rfl⟩ := Document.append_eq_ok_iff.1 hadded
      have helement : (Content.element e).isElement = true := rfl
      simp only [helement, if_true, Document.node?_insertNode]
    · cases h
    · cases h

/-- **The element of a start tag is given the attributes of the tag**, by whichever builder takes
    it. -/
theorem given_of_startElement {b : Builder} {name : String} {attributes : List (String × String)}
    (h : (b.step (.startElement name attributes)).error = none) :
    ∃ owner e, (b.step (.startElement name attributes)).document.node?
        (b.step (.startElement name attributes)).cursor = some ⟨owner, .element e⟩ ∧
      e.Given attributes := by
  simp only [step] at h ⊢
  split at h
  · cases h
  · rename_i hfits
    rw [if_neg hfits]
    exact ⟨_, _, node?_insert h, Element.given_ofAttributes name attributes⟩

end Builder

/-! ### Predicates -/

namespace Query.Predicate

variable {n : Node}

/-- **A comparison accepts no node without the attribute.** -/
theorem accepts_key (hn : ∀ e, n.content = .element e → ∃ given, e.Given given) {p : Predicate}
    (h : p.accepts n) : (⟨p.key, none⟩ : Predicate).accepts n := by
  obtain ⟨owner, content⟩ := n
  obtain ⟨key, test⟩ := p
  cases test with
  | none => exact h
  | some test =>
    cases content with
    | element e =>
      obtain ⟨given, hgiven⟩ := hn e rfl
      have htyped := hgiven.inStep.get?_typedAttributes key
      simp only [accepts, Node.typedAttribute?, Node.attribute?, Content.element?,
        Option.bind_some] at h ⊢
      rw [htyped] at h
      cases hkey : e.attributes.get? key with
      | some value => rfl
      | none =>
        rw [hkey] at h
        cases h
    | text s => cases h
    | cdata bytes => cases h

end Query.Predicate

/-! ### All at once -/

/-- **The two maps of an element never drift apart.**  Whatever attributes are set on an element, or
    come with its start tag, it has their keys without repetition and in the order in which they
    were first set, the values that were set last, and these values as typed ones.  So a node that a
    comparison accepts is also accepted by the test whether it has the attribute. -/
theorem attributes_agree (given : List (String × String)) :
    (∀ e : Element, e.Given given → e.Agrees given) ∧
      (∀ (b : Builder) (name : String), (b.step (.startElement name given)).error = none →
        ∃ owner e, (b.step (.startElement name given)).document.node?
          (b.step (.startElement name given)).cursor = some ⟨owner, .element e⟩ ∧
            e.Agrees given) ∧
      ∀ n : Node, (∀ e, n.content = .element e → e.Given given) →
        ∀ key op comparand, Query.Predicate.accepts ⟨key, some (op, comparand)⟩ n →
          Query.Predicate.accepts ⟨key, none⟩ n := by
  refine ⟨fun e h => h.agrees, fun b name h => ?_, fun n hn key op comparand h => ?_⟩
  · obtain ⟨owner, e, hnode, hgiven⟩ := b.given_of_startElement h
    exact ⟨owner, e, hnode, hgiven.agrees⟩
  · exact Query.Predicate.accepts_key (fun e he => ⟨given, hn e he⟩) h

/-- A key that is set again keeps its place, and its value becomes one of another type. -/
theorem attributes_agree_reset :
    let given := [("a", "1"), ("b", "yes"), ("a", "true")]
    let e := Element.ofAttributes "r" given
    let b := Builder.ofOptions ⟨"utf-8", true⟩
    e.Given given ∧ e.Agrees given ∧ e.attributes.keys = ["a", "b"] ∧
      e.attributes.get? "a" = some "true" ∧ e.typedAttributes.get? "a" = some (.boolean true) ∧
      (b.step (.startElement "r" given)).error = none ∧
      (∃ owner e, (b.step (.startElement "r" given)).document.node?
        (b.step (.startElement "r" given)).cursor = some ⟨owner, .element e⟩ ∧ e.Agrees given) ∧
      Query.Predicate.accepts ⟨"b", some (.equal, "yes")⟩ ⟨none, .element e⟩ ∧
      Query.Predicate.accepts ⟨"b", none⟩ ⟨none, .element e⟩ := by
  intro given e b
  have hgiven : e.Given given := Element.given_ofAttributes "r" given
  have herror : (b.step (.startElement "r" given)).error = none := rfl
  have haccepts : Query.Predicate.accepts ⟨"b", some (.equal, "yes")⟩ ⟨none, .element e⟩ := by
    decide
  obtain ⟨helement, hstart, htest⟩ := attributes_agree given
  have hagrees := helement e hgiven
  have hkeys : e.attributes.keys = ["a", "b"] := hagrees.keys.trans (by decide)
  have hlast : e.attributes.get? "a" = some "true" := (hagrees.last "a").trans (by decide)
  have htyped : e.typedAttributes.get? "a" = some (.boolean true) := by
    rw [hagrees.typed "a", hlast]
    rfl
  have hnode : ∀ e', (⟨none, .element e⟩ : Node).content = .element e' → e'.Given given := by
    rintro _ ⟨⟩
    exact hgiven
  exact ⟨hgiven, hagrees, hkeys, hlast, htyped, herror, hstart b "r" herror, haccepts,
    htest _ hnode _ _ _ haccepts⟩

end XmlQuery
