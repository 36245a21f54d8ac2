import XmlQuery.Document.Composition

namespace XmlQuery.Document

/-!
# Calls that are refused

A call that adds a node looks at the document first, and may be refused for what it finds.  It
writes in two places, and a call that was refused between them would leave a child without a node.
This cannot happen: all that may refuse a call comes before all that writes.

* `Composing.Looks`, `Composing.Succeeds` — steps that only look at a document, and steps that are
  never refused.
* `Composing.Atomic` — steps that leave a document as it was when they are refused.
* `Composing.Looks.bind` — what looks in front of what is atomic is atomic.
* `atomic_append`, `atomic_addSibling` — hence the calls are.
* `append_eq_ok_iff`, `append_eq_error_iff` — what comes of a call.
* `addSibling_of_parent?` — a sibling is a child of the same parent.
-/

/-! ### Looking before writing -/

namespace Composing

variable {α β : Type} {x : Composing α} {f : α → Composing β}

/-- Steps that only look at a document: whether they are refused or not, it is as it was. -/
def Looks (x : Composing α) : Prop :=
  ∀ d, (∃ a, x.run d = .ok a d) ∨ ∃ error, x.run d = .error error d

/-- Steps that are never refused. -/
def Succeeds (x : Composing α) : Prop :=
  ∀ d, ∃ a next, x.run d = .ok a next

/-- Steps that leave a document as it was when they are refused. -/
def Atomic (x : Composing α) : Prop :=
  ∀ d error left, x.run d = .error error left → left = d

/-- Steps that only look are atomic. -/
theorem Looks.atomic (hx : x.Looks) : x.Atomic := by
  intro d error left h
  rcases hx d with ⟨a, ha⟩ | ⟨refusal, hrefusal⟩
  · rw [ha] at h
    cases h
  · rw [hrefusal] at h
    cases h
    rfl

/-- Steps that are never refused are atomic. -/
theorem Succeeds.atomic (hx : x.Succeeds) : x.Atomic := by
  intro d error left h
  obtain ⟨a, next, ha⟩ := hx d
  rw [ha] at h
  cases h

/-- **Atomic steps are still so behind steps that only look.** -/
theorem Looks.bind (hx : x.Looks) (hf : ∀ a, (f a).Atomic) : (x >>= f).Atomic := by
  intro d error left h
  rw [EStateM.run_bind] at h
  rcases hx d with ⟨a, ha⟩ | ⟨refusal, hrefusal⟩
  · rw [ha] at h
    exact hf a d error left h
  · rw [hrefusal] at h
    cases h
    rfl

/-- Steps that are never refused can be taken one after the other. -/
theorem Succeeds.bind (hx : x.Succeeds) (hf : ∀ a, (f a).Succeeds) : (x >>= f).Succeeds := by
  intro d
  obtain ⟨a, next, ha⟩ := hx d
  rw [EStateM.run_bind, ha]
  exact hf a next

/-- A write is never refused. -/
theorem succeeds_modify (write : Document → Document) : Succeeds (modify write) :=
  fun d => ⟨(), write d, rfl⟩

/-- A result is given without a refusal. -/
theorem succeeds_pure (a : α) : Succeeds (pure a) :=
  fun d => ⟨a, d, rfl⟩

/-- Atomic steps leave the document as it was, or they have a result. -/
theorem Atomic.after_cases (hx : x.Atomic) (d : Document) :
    d.after x = d ∨ ∃ a, x.run d = .ok a (d.after x) := by
  unfold after
  cases h : x.run d with
  | ok a next => exact .inr ⟨a, rfl⟩
  | error error left => exact .inl (hx d error left h)

end Composing

/-! ### The steps of the calls -/

section Steps

variable {d : Document} {id parent : Nat} {content : Content} {n : Node}

theorem run_known_of_some (h : d.node? id = some n) : (known id).run d = .ok n d := by
  simp only [known, EStateM.run_bind, EStateM.run_get, h]
  rfl

theorem run_known_of_none (h : d.node? id = none) :
    (known id).run d = .error (.unknownNode id) d := by
  simp only [known, EStateM.run_bind, EStateM.run_get, h]
  rfl

theorem run_require_true (error : TreeError) (d : Document) :
    (require true error).run d = .ok () d := rfl

theorem run_require_false (error : TreeError) (d : Document) :
    (require false error).run d = .error error d := rfl

theorem run_requireNoRival_of_none (h : d.rival? parent content = none) :
    (requireNoRival parent content).run d = .ok () d := by
  simp only [requireNoRival, EStateM.run_bind, EStateM.run_get, h]
  rfl

theorem run_requireNoRival_of_some {existing : Nat} (h : d.rival? parent content = some existing) :
    (requireNoRival parent content).run d = .error (.multipleRootElements existing) d := by
  simp only [requireNoRival, EStateM.run_bind, EStateM.run_get, h]
  rfl

theorem run_nextNumber_of_lt (h : d.nodeCount < maxNodes) :
    nextNumber.run d = .ok d.nodeCount d := by
  simp only [nextNumber, EStateM.run_bind, EStateM.run_get, if_pos h]
  rfl

theorem run_nextNumber_of_not_lt (h : ¬ d.nodeCount < maxNodes) :
    nextNumber.run d = .error .tooManyNodes d := by
  simp only [nextNumber, EStateM.run_bind, EStateM.run_get, if_neg h]
  rfl

/-- Whether a node is there is looked up. -/
theorem looks_known (id : Nat) : (known id).Looks := by
  intro d
  cases h : d.node? id with
  | none => exact .inr ⟨_, run_known_of_none h⟩
  | some n => exact .inl ⟨_, run_known_of_some h⟩

/-- A condition that is required is not written anywhere. -/
theorem looks_require (condition : Bool) (error : TreeError) :
    (require condition error).Looks := by
  intro d
  cases condition with
  | false => exact .inr ⟨_, run_require_false error d⟩
  | true => exact .inl ⟨_, run_require_true error d⟩

/-- Whether an element stands in the way is looked up. -/
theorem looks_requireNoRival (parent : Nat) (content : Content) :
    (requireNoRival parent content).Looks := by
  intro d
  cases h : d.rival? parent content with
  | none => exact .inl ⟨_, run_requireNoRival_of_none h⟩
  | some existing => exact .inr ⟨_, run_requireNoRival_of_some h⟩

/-- Whether there is room is looked up. -/
theorem looks_nextNumber : nextNumber.Looks := by
  intro d
  by_cases h : d.nodeCount < maxNodes
  · exact .inl ⟨_, run_nextNumber_of_lt h⟩
  · exact .inr ⟨_, run_nextNumber_of_not_lt h⟩

end Steps

/-! ### Calls are atomic -/

open Composing

/-- **A content that is refused leaves the document as it was.** -/
theorem atomic_append (parent : Nat) (content : Content) : (append parent content).Atomic := by
  refine (looks_known parent).bind fun target => ?_
  refine (looks_require target.isElement _).bind fun _ => ?_
  refine (looks_requireNoRival parent content).bind fun _ => ?_
  refine looks_nextNumber.bind fun id => ?_
  -- from here on the document is written, and nothing can be refused
  refine Succeeds.atomic ?_
  exact (succeeds_modify _).bind fun _ => (succeeds_modify _).bind fun _ => succeeds_pure id

/-- **A sibling that is refused leaves the document as it was.** -/
theorem atomic_addSibling (id : Nat) (name : String) (attributes : List (String × String)) :
    (addSibling id name attributes).Atomic := by
  refine (looks_known id).bind fun n => ?_
  cases n.parent with
  | none => exact Looks.atomic fun d => .inr ⟨.noParent id, rfl⟩
  | some parent => exact atomic_append parent _

/-! ### What comes of a call -/

section Calls

variable {d : Document} {id parent : Nat} {content : Content} {n : Node}

/-- Nothing is added below an unknown node. -/
theorem append_of_node?_eq_none (h : d.node? parent = none) :
    (append parent content).run d = .error (.unknownNode parent) d := by
  simp only [append, EStateM.run_bind, run_known_of_none h]

/-- Nothing is added below what is no element. -/
theorem append_of_not_isElement (hn : d.node? parent = some n) (h : n.isElement = false) :
    (append parent content).run d = .error (.notAnElement parent) d := by
  simp only [append, EStateM.run_bind, run_known_of_some hn, h, run_require_false]

/-- No element is added beside one at top level. -/
theorem append_of_rival {existing : Nat} (hn : d.node? parent = some n) (h : n.isElement = true)
    (hrival : d.rival? parent content = some existing) :
    (append parent content).run d = .error (.multipleRootElements existing) d := by
  simp only [append, EStateM.run_bind, run_known_of_some hn, h, run_require_true,
    run_requireNoRival_of_some hrival]

/-- Nothing is added where there is no room. -/
theorem append_of_full (hn : d.node? parent = some n) (h : n.isElement = true)
    (hrival : d.rival? parent content = none) (hroom : ¬ d.nodeCount < maxNodes) :
    (append parent content).run d = .error .tooManyNodes d := by
  simp only [append, EStateM.run_bind, run_known_of_some hn, h, run_require_true,
    run_requireNoRival_of_none hrival, run_nextNumber_of_not_lt hroom]

/-- What can be added is written in both places. -/
theorem append_of_room (hn : d.node? parent = some n) (h : n.isElement = true)
    (hrival : d.rival? parent content = none) (hroom : d.nodeCount < maxNodes) :
    (append parent content).run d = .ok d.nodeCount (d.insertNode parent content) := by
  simp only [append, EStateM.run_bind, run_known_of_some hn, h, run_require_true,
    run_requireNoRival_of_none hrival, run_nextNumber_of_lt hroom, EStateM.run_modify, insertNode]
  rfl

/-- A content is added exactly if its parent is an element, no element stands in its way and the
    document has room; then it is recorded under the next number. -/
theorem append_eq_ok_iff {next : Document} :
    (append parent content).run d = .ok id next ↔
      d.isElement parent ∧ d.rival? parent content = none ∧ d.nodeCount < maxNodes ∧
        id = d.nodeCount ∧ next = d.insertNode parent content := by
  -- the cases are the checks of the call, in the order in which it makes them
  cases hn : d.node? parent with
  | none => simp [append_of_node?_eq_none hn, isElement, hn]
  | some target =>
    cases htarget : target.isElement with
    | false => simp [append_of_not_isElement hn htarget, isElement, hn, htarget]
    | true =>
      cases hrival : d.rival? parent content with
      | some existing => simp [append_of_rival hn htarget hrival]
      | none =>
        by_cases hroom : d.nodeCount < maxNodes
        · simp [append_of_room hn htarget hrival hroom, isElement, hn, htarget, hroom, eq_comm]
        · simp [append_of_full hn htarget hrival hroom, hroom]

/-- **With room left, a content is refused** if its parent is unknown, or is no element, or has an
    element that stands in its way, in this order. -/
theorem append_eq_error_iff (hroom : d.nodeCount < maxNodes) {error : TreeError} :
    (append parent content).run d = .error error d ↔
      ¬ d.contains parent ∧ error = .unknownNode parent ∨
      d.contains parent ∧ ¬ d.isElement parent ∧ error = .notAnElement parent ∨
      ∃ existing, d.isElement parent ∧ d.rival? parent content = some existing ∧
        error = .multipleRootElements existing := by
  cases hn : d.node? parent with
  | none => simp [append_of_node?_eq_none hn, contains, isElement, hn, eq_comm]
  | some target =>
    cases htarget : target.isElement with
    | false =>
      simp [append_of_not_isElement hn htarget, contains, isElement, hn, htarget, eq_comm]
    | true =>
      cases hrival : d.rival? parent content with
      | some existing =>
        simp [append_of_rival hn htarget hrival, contains, isElement, hn, htarget, eq_comm]
      | none =>
        simp [append_of_room hn htarget hrival hroom, contains, isElement, hn, htarget]

variable (name : String) (attributes : List (String × String))

/-- Nothing is added beside an unknown node. -/
theorem addSibling_of_node?_eq_none (h : d.node? id = none) :
    (addSibling id name attributes).run d = .error (.unknownNode id) d := by
  simp only [addSibling, EStateM.run_bind, run_known_of_none h]

/-- Nothing is added beside a node without a parent. -/
theorem addSibling_of_parent_eq_none (hn : d.node? id = some n) (h : n.parent = none) :
    (addSibling id name attributes).run d = .error (.noParent id) d := by
  simp only [addSibling, EStateM.run_bind, run_known_of_some hn, h]
  rfl

/-- A sibling is a child of the same parent. -/
theorem addSibling_of_parent? (h : d.parent? id = some parent) :
    (addSibling id name attributes).run d = (addChild parent name attributes).run d := by
  obtain ⟨n, hn, hparent⟩ := Option.bind_eq_some_iff.1 h
  simp only [addSibling, EStateM.run_bind, run_known_of_some hn, hparent]

/-- A sibling that is added is a child that is added to a parent. -/
theorem exists_parent_of_addSibling {new : Nat} {next : Document}
    (h : (addSibling id name attributes).run d = .ok new next) :
    ∃ parent, d.parent? id = some parent ∧
      (addChild parent name attributes).run d = .ok new next := by
  cases hn : d.node? id with
  | none =>
    rw [addSibling_of_node?_eq_none name attributes hn] at h
    cases h
  | some n =>
    cases hparent : n.parent with
    | none =>
      rw [addSibling_of_parent_eq_none name attributes hn hparent] at h
      cases h
    | some parent =>
      have hp : d.parent? id = some parent := by rw [parent?, hn, Option.bind_some, hparent]
      exact ⟨parent, hp, by rw [← addSibling_of_parent? name attributes hp, h]⟩

end Calls

end XmlQuery.Document
