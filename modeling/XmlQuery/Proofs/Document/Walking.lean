import XmlQuery.Proofs.Document.Preorder

namespace XmlQuery.Document

/-!
# Walks down a document

A walk is asked for one node after the other, and is over when it has none left.  In a well-formed
document every walk comes to an end, from whatever numbers it sets out: it visits the subtrees of
all that is pending, one after the other.

* `Walk.Visits` — what a walk visits from where it stands to its end.
* `WellFormed.visits_pending` — a walk visits the subtrees of the nodes that are pending.
* `Reachable.visits_descendants` — the walk below a node visits its descendants, which are few
  enough, distinct, and follow each other as those of the children do.
-/

/-- What a walk visits from where it stands to its end. -/
inductive Walk.Visits (d : Document) : Walk → List Nat → Prop
  | done {w : Walk} (h : w.next? d = none) : Visits d w []
  | next {w between : Walk} {id : Nat} {ids : List Nat} (h : w.next? d = some (id, between))
      (hrest : Visits d between ids) : Visits d w (id :: ids)

namespace WellFormed

variable {d : Document}

/-- **A walk visits the subtrees of the nodes that are pending**, one after the other, and comes to
    an end. -/
theorem visits_pending (h : d.WellFormed) (pending : List Nat) :
    (⟨pending⟩ : Walk).Visits d (pending.flatMap d.subtree) := by
  -- with each step one node less is left to visit
  induction hleft : (pending.flatMap d.subtree).length generalizing pending with
  | zero =>
    cases pending with
    | nil => exact .done rfl
    | cons id rest =>
      rw [List.flatMap_cons, h.subtree_eq, List.cons_append, List.length_cons] at hleft
      omega
  | succ left ih =>
    cases pending with
    | nil =>
      rw [List.flatMap_nil, List.length_nil] at hleft
      omega
    | cons id rest =>
      rw [List.flatMap_cons, h.subtree_eq, List.cons_append, ← List.flatMap_append] at hleft ⊢
      exact .next rfl (ih _ (Nat.succ.inj hleft))

/-- Fewer nodes lie below a node than there are in the document. -/
theorem length_descendants_le (h : d.WellFormed) (id : Nat) :
    (d.descendants id).length ≤ d.nodeCount - 1 := by
  by_cases hid : id < d.nodeCount
  · have hle := h.length_subtree_le hid
    rw [h.subtree_eq_cons_descendants, List.length_cons] at hle
    omega
  · rw [h.descendants_eq, children_of_nodeCount_le (Nat.not_lt.1 hid)]
    exact Nat.zero_le _

end WellFormed

/-- **The walk below a node visits its descendants and ends.**  These are fewer than the nodes of
    the document; each child is followed by its own descendants before the next child; no node is
    visited twice, and the node that the walk set out from is not visited.  Below a number without a
    node there is nothing to visit. -/
theorem Reachable.visits_descendants {d : Document} (h : d.Reachable) (id : Nat) :
    (⟨d.children id⟩ : Walk).Visits d (d.descendants id) ∧
      (d.descendants id).length ≤ d.nodeCount - 1 ∧
      d.descendants id = (d.children id).flatMap (fun child => child :: d.descendants child) ∧
      (d.descendants id).Nodup ∧ id ∉ d.descendants id := by
  have hwf := h.wellFormed
  have hnodup := hwf.nodup_subtree id
  rw [hwf.subtree_eq_cons_descendants, List.nodup_cons] at hnodup
  refine ⟨?visits, hwf.length_descendants_le id, ?children, hnodup.2, hnodup.1⟩
  case visits =>
    rw [hwf.descendants_eq]
    exact hwf.visits_pending _
  case children =>
    rw [hwf.descendants_eq]
    exact List.flatMap_congr fun child _ => hwf.subtree_eq_cons_descendants child

/-- A walk through nodes that were entered in another order, and one from a number without a
    node. -/
theorem visits_descendants_unordered :
    let d := (((((ofEncoding "utf-8").edit (.addChild 0 "r" [])).edit (.addChild 1 "a" [])).edit
      (.addChild 1 "b" [])).edit (.appendText 2 "t")).edit (.addChild 2 "c" [])
    d.Reachable ∧ (⟨[1]⟩ : Walk).Visits d [1, 2, 4, 5, 3] ∧ (⟨[]⟩ : Walk).Visits d [] ∧
      d.descendants 0 = [1, 2, 4, 5, 3] ∧ d.descendants 7 = [] := by
  intro d
  have hd : d.Reachable := (((((Reachable.ofEncoding "utf-8").edited (.addChild 0 "r" [])).edited
    (.addChild 1 "a" [])).edited (.addChild 1 "b" [])).edited (.appendText 2 "t")).edited
    (.addChild 2 "c" [])
  have hroot : d.descendants 0 = [1, 2, 4, 5, 3] := by decide
  have hunknown : d.descendants 7 = [] := by decide
  have hvisits := (Reachable.visits_descendants hd 0).1
  have hnothing := (Reachable.visits_descendants hd 7).1
  rw [hroot] at hvisits
  rw [hunknown] at hnothing
  exact ⟨hd, hvisits, hnothing, hroot, hunknown⟩

end XmlQuery.Document
