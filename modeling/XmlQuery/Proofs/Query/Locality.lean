import XmlQuery.Proofs.Document.Extension
import XmlQuery.Proofs.Query.Renumbering

namespace XmlQuery

/-!
# Queries look below their start only

A program sees the node that it begins with and what is below it.  Whatever is done to the rest of
the document does not show.

* `Edit.target?` — the node that an edit adds a child to.
* `Document.node?_edit_of_ne` — an edit changes no node but its target.
* `Document.EditsOutside`, `Document.node?_edits_of_mem_subtree` — edits outside of a subtree leave
  it as it is.
* `Query.evaluate_local` — a program finds nodes below its start, whatever is done elsewhere.
-/

/-- The node that an edit adds a child to, unless it is refused. -/
def Edit.target? (d : Document) : Edit → Option Nat
  | addChild parent _ _ | appendText parent _ | appendCdata parent _ => some parent
  | addSibling id _ _ => d.parent? id
  | setEncoding _ => none

namespace Document

variable {d d' : Document} {top : Nat}

/-! ### Edits elsewhere -/

/-- A content that is added below a node changes no other node. -/
theorem node?_of_append {parent id new : Nat} {next : Document} (hid : d.contains id)
    (hne : parent ≠ id) {content : Content}
    (h : (append parent content).run d = .ok new next) : next.node? id = d.node? id := by
  obtain ⟨-, -, -, -, rfl⟩ := append_eq_ok_iff.1 h
  have hlt : id < d.nodeCount := node?_isSome_iff.1 hid
  rw [node?_insertNode, if_neg (Nat.ne_of_lt hlt), if_neg (Ne.symm hne)]

/-- A content that is added below a node, or refused, changes no other node. -/
theorem node?_after_append {parent id : Nat} (hid : d.contains id) (hne : parent ≠ id)
    (content : Content) : (d.after (append parent content)).node? id = d.node? id := by
  rcases (atomic_append parent content).after_cases d with hsame | ⟨new, hadded⟩
  · rw [hsame]
  · exact node?_of_append hid hne hadded

/-- **An edit changes no node but its target**, whether it is refused or not. -/
theorem node?_edit_of_ne {id : Nat} (hid : d.contains id) (e : Edit)
    (htarget : ∀ target ∈ e.target? d, target ≠ id) : (d.edit e).node? id = d.node? id := by
  cases e with
  | addChild parent name attributes => exact node?_after_append hid (htarget parent rfl) _
  | appendText parent text => exact node?_after_append hid (htarget parent rfl) _
  | appendCdata parent bytes => exact node?_after_append hid (htarget parent rfl) _
  | setEncoding encoding => rfl
  | addSibling sibling name attributes =>
    show (d.after (addSibling sibling name attributes)).node? id = _
    rcases (atomic_addSibling sibling name attributes).after_cases d with hsame | ⟨new, hadded⟩
    · rw [hsame]
    · -- a sibling is a child of the same parent
      obtain ⟨parent, hparent, hchild⟩ := exists_parent_of_addSibling name attributes hadded
      exact node?_of_append hid (htarget parent hparent) hchild

/-- Edits none of which adds a child to `top` or to a node below it, as these are when its turn
    comes.  Edits that are refused are among them. -/
def EditsOutside (top : Nat) : Document → List Edit → Prop
  | _, [] => True
  | d, e :: edits =>
    (∀ target ∈ e.target? d, target ≠ top ∧ target ∉ d.descendants top)
      ∧ EditsOutside top (d.edit e) edits

/-- Nodes that are kept as they are mirror themselves. -/
theorem mirroredBy_id (hwf : d.WellFormed) (htop : d.contains top)
    (h : ∀ id ∈ d.subtree top, d'.node? id = d.node? id) : d.MirroredBy d' id top := by
  constructor
  · intro i hi
    have hlt := hwf.lt_nodeCount_of_mem_subtree (node?_isSome_iff.1 htop) hi
    obtain ⟨n, hn⟩ := Option.isSome_iff_exists.1 (node?_isSome_iff.2 hlt)
    exact ⟨n, n, hn, (h i hi).trans hn, .refl n⟩
  · intro i hi
    rw [List.map_id, children, children, id_eq, h i hi]

/-- **Edits outside of a subtree leave its nodes as they are.** -/
theorem node?_edits_of_mem_subtree (hd : d.Reachable) (htop : d.contains top) {edits : List Edit}
    (h : EditsOutside top d edits) :
    ∀ id ∈ d.subtree top, (edits.foldl Document.edit d).node? id = d.node? id := by
  induction edits generalizing d with
  | nil => exact fun id _ => rfl
  | cons e edits ih =>
    obtain ⟨htarget, h⟩ := h
    have hwf := hd.wellFormed
    have hkept : ∀ id ∈ d.subtree top, (d.edit e).node? id = d.node? id := by
      intro id hid
      have hlt := hwf.lt_nodeCount_of_mem_subtree (node?_isSome_iff.1 htop) hid
      refine node?_edit_of_ne (node?_isSome_iff.2 hlt) e fun target hmem => ?_
      rintro rfl
      rw [hwf.subtree_eq_cons_descendants, List.mem_cons] at hid
      exact hid.elim (htarget target hmem).1 (htarget target hmem).2
    -- the subtree still has the same nodes, so the other edits are outside of it too
    have hmirrored := mirroredBy_id hwf htop hkept
    have hsame : (d.edit e).subtree top = d.subtree top := by
      have heq := hmirrored.subtree_eq hwf (hd.edited e).wellFormed (mem_subtree_self d top)
      rwa [List.map_id] at heq
    intro id hid
    rw [List.foldl_cons, ih (hd.edited e) hmirrored.contains.2 h id (hsame ▸ hid), hkept id hid]

end Document

namespace Query

variable {d : Document}

/-! ### Queries -/

/-- **A program finds its start and nodes below it only**, and edits elsewhere do not change what it
    finds, or how it fails.  A start that is no node may not have become one. -/
theorem evaluate_local (hd : d.Reachable) (start : Nat) (program : Program) :
    (∀ found, evaluate d start program = .ok found →
      ∀ id ∈ found, id = start ∨ id ∈ d.descendants start) ∧
    ∀ edits, Document.EditsOutside start d edits →
      ((edits.foldl Document.edit d).contains start → d.contains start) →
      evaluate (edits.foldl Document.edit d) start program = evaluate d start program := by
  have hwf := hd.wellFormed
  constructor
  · intro found h id hid
    rw [evaluate] at h
    split at h
    · have hstart : ∀ id ∈ [start], id ∈ d.subtree start := fun id hid =>
        List.mem_singleton.1 hid ▸ Document.mem_subtree_self d start
      have hmem := mem_subtree_of_run hwf hstart h id hid
      rwa [hwf.subtree_eq_cons_descendants, List.mem_cons] at hmem
    · cases h
  · intro edits houtside hknown
    by_cases hstart : d.contains start
    · have hkept := Document.node?_edits_of_mem_subtree hd hstart houtside
      have hmirror := evaluate_mirror (Document.mirroredBy_id hwf hstart hkept) hwf
        (hd.edits edits).wellFormed program
      rw [id_eq, List.map_id_fun] at hmirror
      rw [hmirror]
      cases evaluate d start program <;> rfl
    · rw [evaluate, evaluate, if_neg hstart, if_neg fun hafter => hstart (hknown hafter)]

/-- A search below an element, before and after a child and a sibling have been added beside it, two
    edits have been refused and the label has been changed. -/
theorem evaluate_local_beside :
    let d := ((((Document.ofEncoding "utf-8").edit (.addChild 0 "r" [])).edit
      (.addChild 1 "a" [])).edit (.addChild 1 "b" [])).edit (.appendText 2 "t")
    let edits : List Edit := [.addChild 3 "c" [], .addSibling 2 "s" [], .addChild 0 "x" [],
      .appendText 9 "u", .setEncoding "latin-1"]
    let program : Program := ⟨"", [.ofText .descendant "//", .ofExpression (.index 0)]⟩
    d.Reachable ∧ Document.EditsOutside 2 d edits ∧ d.contains 2 ∧ d.nodeCount = 5 ∧
      (edits.foldl Document.edit d).nodeCount = 7 ∧ evaluate d 2 program = .ok [4] ∧
      (∀ id ∈ [4], id = 2 ∨ id ∈ d.descendants 2) ∧
      evaluate (edits.foldl Document.edit d) 2 program = evaluate d 2 program := by
  intro d edits program
  have hd : d.Reachable := ((((Document.Reachable.ofEncoding "utf-8").edited
    (.addChild 0 "r" [])).edited (.addChild 1 "a" [])).edited (.addChild 1 "b" [])).edited
    (.appendText 2 "t")
  have houtside : Document.EditsOutside 2 d edits :=
    ⟨by decide, by decide, by decide, by decide, by decide, trivial⟩
  have hstart : d.contains 2 := by decide
  have hfound : evaluate d 2 program = .ok [4] := by decide
  obtain ⟨hbelow, hsame⟩ := evaluate_local hd 2 program
  exact ⟨hd, houtside, hstart, by decide, by decide, hfound, hbelow [4] hfound,
    hsame edits houtside fun _ => hstart⟩

end Query

end XmlQuery
