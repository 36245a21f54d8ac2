import XmlQuery.Proofs.Document.Nesting

namespace XmlQuery

/-!
# What builders build

A builder moves a cursor through a document and knows nothing of trees.  Yet it accepts the events
that nest and no others, lays out the trees that they denote, and stops at the first event that
offends.

* `Builder.run_of_denotes` — events that nest add their trees at the cursor, which stays.
* `Builder.StandsAt` — the cursor stands at the innermost open element, and the ancestors of that
  are the others.
* `Builder.standsAt_of_leavesOpen` — it does as long as no event has offended.
* `Builder.error_step_of_offends` — the first event that offends is the error.
* `Builder.finish_run` — hence which documents and which errors a builder ends with.
-/

namespace Builder

open Document Nesting
open Markup (Event)

variable {b : Builder}

/-! ### Single events -/

theorem run_append (b : Builder) (es more : List Event) :
    b.run (es ++ more) = (b.run es).run more :=
  List.foldl_append

theorem run_cons (b : Builder) (e : Event) (es : List Event) :
    b.run (e :: es) = (b.step e).run es := rfl

/-- Inserting a content changes no option. -/
theorem options_insert (b : Builder) (content : Content) :
    (b.insert content).options = b.options := by
  unfold insert
  split
  · rfl
  · split <;> rfl

/-- An event changes no option. -/
theorem options_step (b : Builder) (e : Event) : (b.step e).options = b.options := by
  cases e with
  | startElement name attributes =>
    unfold step
    dsimp only
    split
    · rfl
    · exact options_insert b _
  | characters text =>
    unfold step
    dsimp only
    split
    · rfl
    · exact options_insert b _
  | cdata bytes => exact options_insert b _
  | endElement name =>
    unfold step close
    dsimp only
    split
    · rfl
    · split
      · rfl
      · split <;> rfl
  | declaration encoding => cases encoding <;> rfl
  | endDocument => rfl

/-- Events change no option. -/
theorem options_run (b : Builder) (es : List Event) : (b.run es).options = b.options := by
  induction es generalizing b with
  | nil => rfl
  | cons e es ih => rw [run_cons, ih, options_step]

/-- The first error stays, whatever event follows it. -/
theorem error_step {error : ParseError} (h : b.error = some error) (e : Event) :
    (b.step e).error = some error := by
  have hinsert : ∀ content, b.insert content = b := fun content => by simp [insert, h]
  cases e with
  | startElement name attributes => simp [step, h, hinsert]
  | characters text =>
    unfold step
    dsimp only
    split
    · exact h
    · rw [hinsert, h]
  | cdata bytes =>
    show (b.insert _).error = _
    rw [hinsert, h]
  | endElement name => simp [step, h]
  | declaration encoding => cases encoding <;> exact h
  | endDocument => exact h

/-- The first error stays, whatever events follow it. -/
theorem error_run {error : ParseError} (h : b.error = some error) (es : List Event) :
    (b.run es).error = some error := by
  induction es generalizing b with
  | nil => exact h
  | cons e es ih => exact ih (error_step h e)

/-! ### Builders at work -/

/-- A builder that has met no error and stands at an element of its document. -/
structure Active (b : Builder) : Prop where
  grown : b.document.Grown
  error : b.error = none
  cursor : b.document.isElement b.cursor

namespace Active

/-- The cursor is the number of a node. -/
theorem cursor_lt (h : b.Active) : b.cursor < b.document.nodeCount :=
  lt_nodeCount_of_isElement h.cursor

/-- A builder at work has its document well-formed. -/
theorem wellFormed (h : b.Active) : b.document.WellFormed :=
  h.grown.wellFormed

/-- A content is inserted if there is room for it, and it is no second element at top level. -/
theorem insert_eq (h : b.Active) (content : Content) (hroom : b.document.nodeCount < maxNodes)
    (htop : b.cursor = root → content.isElement → b.document.topElements = 0) :
    b.insert content = { b with
      document := b.document.insertNode b.cursor content
      cursor := if content.isElement then b.document.nodeCount else b.cursor } := by
  have hrival : b.document.rival? b.cursor content = none := by
    unfold rival?
    split
    · rename_i hroot
      exact rootElement?_eq_none_iff.2 (htop hroot.1 hroot.2)
    · rfl
  have happend := append_eq_ok_iff.2 ⟨h.cursor, hrival, hroom, rfl, rfl⟩
  simp [insert, h.error, happend]

/-- Character data and CDATA sections are entered at the cursor. -/
theorem insert_leaf (h : b.Active) {content : Content} {t : Tree}
    (hroom : b.document.nodeCount < maxNodes) (hleaf : content.isElement = false)
    (ht : t.nodes b.cursor b.document.nodeCount = [⟨some b.cursor, content⟩]) :
    b.insert content = { b with document := b.document.graft b.cursor [t] } := by
  have hnone : b.cursor = root → content.isElement → b.document.topElements = 0 := by
    intro _ helement
    rw [hleaf] at helement
    cases helement
  rw [h.insert_eq content hroom hnone, hleaf, insertNode_eq_graft ht]
  rfl

/-- The start of an element enters it at the cursor, which moves there. -/
theorem step_startElement (h : b.Active) (name : String) (attributes : List (String × String))
    (hroom : b.document.nodeCount < maxNodes)
    (htop : b.cursor = root → b.document.topElements = 0) :
    b.step (.startElement name attributes) = { b with
      document := b.document.insertNode b.cursor (.element (.ofAttributes name attributes))
      cursor := b.document.nodeCount } := by
  have hsecond : b.isSecondRoot = false := by
    by_cases hroot : b.cursor = root
    · simp [isSecondRoot, rootElement?_eq_none_iff.2 (htop hroot)]
    · simp [isSecondRoot, hroot]
  have hinsert := h.insert_eq (.element (.ofAttributes name attributes)) hroom
    fun hroot _ => htop hroot
  simp only [step, hsecond, Bool.and_false, Bool.false_eq_true, if_false, hinsert]
  rfl

end Active

/-- The end of the element at the cursor moves the cursor to its parent. -/
theorem step_endElement (h : b.error = none) {parent : Nat} {name : String}
    (hparent : b.document.parent? b.cursor = some parent)
    (hname : b.document.name? b.cursor = some name) :
    b.step (.endElement name) = { b with cursor := parent } := by
  have hopen : b.openName = name := by rw [openName, hname, Option.getD_some]
  simp [step, h, close, hparent, hopen]

/-! ### Events that nest -/

/-- A builder at work for which trees are not too many, neither for its document nor at top
    level. -/
structure Fits (b : Builder) (ts : List Tree) : Prop where
  active : b.Active
  room : b.document.nodeCount + Tree.sizeAll ts ≤ maxNodes
  top : b.cursor = root → b.document.topElements + ts.countP Tree.isElement ≤ 1

/-- Whether events make a builder add trees at its cursor, note the encoding that is declared, and
    do nothing else. -/
def Adds (b : Builder) (es : List Event) (ts : List Tree) : Prop :=
  b.run es = { b with
    document := (b.document.graft b.cursor ts).setEncoding (declared b.document.encoding es) }

variable {es more : List Event} {ts us : List Tree}

/-- A builder that has added trees can take the trees that are still to come. -/
theorem Adds.fits (h : b.Adds es ts) (hfits : b.Fits (ts ++ us)) : (b.run es).Fits us := by
  obtain ⟨hactive, hroom, htop⟩ := hfits
  have hgrown := grown_run hactive.grown es
  rw [Adds] at h
  rw [h] at hgrown ⊢
  refine ⟨⟨hgrown, hactive.error, ?_⟩, ?_, fun hroot => ?_⟩
  · rw [isElement_setEncoding, isElement_graft hactive.cursor_lt]
    exact hactive.cursor
  · rw [Tree.sizeAll_append] at hroom
    rw [nodeCount_setEncoding, nodeCount_graft]
    omega
  · have htop' := htop hroot
    have hcount : ((b.document.graft b.cursor ts).setEncoding
        (declared b.document.encoding es)).topElements
        = b.document.topElements + ts.countP Tree.isElement := by
      rw [show b.cursor = root from hroot]
      exact topElements_graft hactive.wellFormed ts
    rw [List.countP_append] at htop'
    rw [hcount]
    omega

/-- Trees can be added one part after the other. -/
theorem Adds.append (hactive : b.Active) (h : b.Adds es ts) (hmore : (b.run es).Adds more us) :
    b.Adds (es ++ more) (ts ++ us) := by
  rw [Adds] at h hmore ⊢
  rw [run_append, hmore, h, declared, declared, declared, List.foldl_append,
    graft_append hactive.cursor_lt]
  rfl

/-- An event that adds nothing but a label adds no trees. -/
theorem adds_nil {e : Event}
    (h : b.step e = { b with
      document := b.document.setEncoding (relabel b.document.encoding e) }) : b.Adds [e] [] := by
  rw [Adds, graft_nil]
  exact h

/-- Character data and CDATA sections add themselves. -/
theorem Fits.adds_leaf {content : Content} {t : Tree} {e : Event} (h : b.Fits (t :: us))
    (hstep : b.step e = b.insert content) (hlabel : ∀ label, relabel label e = label)
    (hleaf : content.isElement = false)
    (ht : t.nodes b.cursor b.document.nodeCount = [⟨some b.cursor, content⟩]) :
    b.Adds [e] [t] := by
  have hpos := t.size_pos
  have hroom := h.room
  rw [Tree.sizeAll_cons] at hroom
  rw [Adds, run_cons, hstep, h.active.insert_leaf (by omega) hleaf ht]
  simp only [declared, List.foldl_cons, List.foldl_nil, hlabel]
  rfl

/-- An element adds itself if the events between its start and its end add what is below it. -/
theorem Fits.adds_element (name : String) (attributes : List (String × String))
    (inner : List Event) {children : List Tree}
    (h : b.Fits (.element name (Element.ofAttributes name attributes).attributes.entries children
      :: us))
    (hinner : (b.step (.startElement name attributes)).Fits children →
      (b.step (.startElement name attributes)).Adds inner children) :
    b.Adds (.startElement name attributes :: (inner ++ [.endElement name]))
      [.element name (Element.ofAttributes name attributes).attributes.entries children] := by
  obtain ⟨hactive, hroom, htop⟩ := h
  rw [Tree.sizeAll_cons, Tree.size_element] at hroom
  have hstart := hactive.step_startElement name attributes (by omega) fun hroot => by
    have := htop hroot
    rw [List.countP_cons_of_pos rfl] at this
    omega
  have hgrown := grown_step hactive.grown (.startElement name attributes)
  have hlt := hactive.cursor_lt
  rw [hstart] at hinner hgrown
  -- the builder can go on at the new element, which is not at top level
  have hadds := hinner ⟨⟨hgrown, hactive.error, ?_⟩, ?_, fun hroot => ?_⟩
  · rw [← hstart, Adds, hstart, graft_element] at hadds
    have hnode := node?_graft_element b.document b.cursor name attributes
      children []
    have hend : ((b.step (.startElement name attributes)).run inner).step (.endElement name)
        = { (b.step (.startElement name attributes)).run inner with cursor := b.cursor } := by
      rw [hstart, hadds]
      refine step_endElement ?_ ?_ ?_
      · exact hactive.error
      · rw [parent?_setEncoding, parent?, hnode]
        rfl
      · show (b.document.graft _ _).name? _ = _
        rw [name?, hnode]
        exact congrArg some (Element.name_ofAttributes name attributes)
    rw [Adds, run_cons, run_append, run_cons, hend, hstart, hadds, graft_settled]
    simp only [declared, List.foldl_cons, List.foldl_append, List.foldl_nil, relabel]
    rfl
  · rw [isElement_insertNode, if_pos rfl]
    rfl
  · rw [nodeCount_insertNode]
    omega
  · have hzero : b.document.nodeCount = 0 := hroot
    omega

/-- Trees can be added before others if the builder can go on from there. -/
theorem Adds.before (h : b.Adds es ts) (hfits : b.Fits (ts ++ us))
    (hmore : (b.run es).Fits us → (b.run es).options = b.options → (b.run es).Adds more us) :
    b.Adds (es ++ more) (ts ++ us) :=
  h.append hfits.active (hmore (h.fits hfits) (options_run b es))

/-- **Events that nest add the trees that they denote.** -/
theorem adds_of_denotes {drop : Bool} (h : Denotes drop es ts) {b : Builder} (hfits : b.Fits ts)
    (hdrop : b.options.dropFormatting = drop) : b.Adds es ts := by
  -- every event is followed by events that nest again, which begin where it leaves the builder
  induction h generalizing b with
  | nil =>
    rw [Adds, graft_nil]
    rfl
  | @text s es ts hkept _ ih =>
    have hstep : b.step (.characters s) = b.insert (.text s) := by
      simp only [step, drops, hdrop, leavesOut] at hkept ⊢
      simp [hkept]
    have hone := hfits.adds_leaf hstep (fun _ => rfl) rfl (Tree.nodes_text _ _ s)
    exact hone.before hfits fun hnext hoptions => ih hnext (by rw [hoptions, hdrop])
  | @formatting s es ts hout _ ih =>
    have hstep : b.step (.characters s) = b := by
      simp only [step, drops, hdrop, leavesOut] at hout ⊢
      simp [hout]
    have hnone := adds_nil hstep
    exact hnone.before hfits fun hnext hoptions => ih hnext (by rw [hoptions, hdrop])
  | @cdata bytes es ts _ ih =>
    have hstep : b.step (.cdata bytes) = b.insert (.cdata bytes) := rfl
    have hone := hfits.adds_leaf hstep (fun _ => rfl) rfl (Tree.nodes_cdata _ _ bytes)
    exact hone.before hfits fun hnext hoptions => ih hnext (by rw [hoptions, hdrop])
  | @declaration encoding es ts _ ih =>
    have hnone : b.Adds [.declaration encoding] [] := adds_nil (by cases encoding <;> rfl)
    exact hnone.before hfits fun hnext hoptions => ih hnext (by rw [hoptions, hdrop])
  | @endDocument es ts _ ih =>
    have hnone : b.Adds [.endDocument] [] := adds_nil rfl
    exact hnone.before hfits fun hnext hoptions => ih hnext (by rw [hoptions, hdrop])
  | @element name attributes inner es children ts _ _ ihinner ih =>
    -- the events below the element nest too, and are taken at the element
    have hone := hfits.adds_element name attributes inner fun hinner =>
      ihinner hinner (by rw [options_step, hdrop])
    have hall := hone.before hfits fun hnext hoptions => ih hnext (by rw [hoptions, hdrop])
    simpa using hall

/-- Trees that were added are nodes of the document. -/
theorem Adds.nodeCount_eq (h : b.Adds es ts) :
    (b.run es).document.nodeCount = b.document.nodeCount + Tree.sizeAll ts := by
  rw [Adds] at h
  rw [h]
  exact nodeCount_graft ts

/-! ### Where the cursor stands -/

/-- A builder that stands at the innermost of some open elements, each given by its number and its
    name: the cursor and its ancestors are these elements, and node 0 above them. -/
structure StandsAt (b : Builder) (opens : List (Nat × String)) : Prop where
  active : b.Active
  chain : b.cursor :: b.document.ancestors b.cursor = opens.map Prod.fst ++ [root]
  names : ∀ o ∈ opens, b.document.name? o.1 = some o.2

namespace StandsAt

variable {opens : List (Nat × String)}

/-- A builder that has just begun stands at node 0. -/
theorem ofOptions (options : Options) : (Builder.ofOptions options).StandsAt [] := by
  have hwf := wellFormed_ofEncoding options.encoding
  refine ⟨⟨.ofEncoding _, rfl, hwf.isElement_root⟩, ?_, fun o ho => by cases ho⟩
  exact congrArg (root :: ·) (WellFormed.ancestors_of_parent?_eq_none hwf.parent?_root)

/-- If no element is open, the cursor is at node 0. -/
theorem cursor_eq_root (h : b.StandsAt []) : b.cursor = root :=
  (List.cons.inj h.chain).1

/-- The cursor is at the innermost open element, which is not node 0. -/
theorem cursor_eq {id : Nat} {name : String} (h : b.StandsAt ((id, name) :: opens)) :
    b.cursor = id ∧ b.cursor ≠ root ∧ b.openName = name := by
  obtain ⟨hcursor, habove⟩ := List.cons.inj h.chain
  refine ⟨hcursor, fun hroot => ?_, ?_⟩
  · have hwf := h.active.wellFormed
    -- node 0 has nothing above it, but an open element has node 0
    rw [hroot, WellFormed.ancestors_of_parent?_eq_none hwf.parent?_root] at habove
    exact absurd habove.symm (List.append_ne_nil_of_right_ne_nil _ (List.cons_ne_nil _ _))
  · rw [openName, hcursor, h.names (id, name) List.mem_cons_self, Option.getD_some]

/-- Grafting trees leaves the names and the ancestors of the open elements alone. -/
theorem names_graft (h : b.StandsAt opens) (ts : List Tree) :
    ∀ o ∈ opens, (b.document.graft b.cursor ts).name? o.1 = some o.2 := by
  intro o ho
  have hname := h.names o ho
  have hlt : o.1 < b.document.nodeCount := by
    rw [← node?_isSome_iff]
    cases hn : b.document.node? o.1 with
    | none => simp [name?, hn] at hname
    | some n => rfl
  rw [name?_graft hlt, hname]

/-- Adding trees leaves the builder where it stands. -/
theorem adds (h : b.StandsAt opens) (hfits : b.Fits ts) (hadds : b.Adds es ts) :
    (b.run es).StandsAt opens := by
  have hfits' : b.Fits (ts ++ []) := by rwa [List.append_nil]
  have hactive := (hadds.fits hfits').active
  rw [Adds] at hadds
  refine ⟨hactive, ?_, ?_⟩
  · have hancestors : ((b.document.graft b.cursor ts).setEncoding
        (declared b.document.encoding es)).ancestors b.cursor = b.document.ancestors b.cursor :=
      h.active.wellFormed.ancestors_congr fun j hj =>
        parent?_graft (Nat.lt_of_le_of_lt hj h.active.cursor_lt) ts
    rw [hadds]
    exact (congrArg _ hancestors).trans h.chain
  · rw [hadds]
    exact h.names_graft ts

/-- The start of an element opens it. -/
theorem start (h : b.StandsAt opens) (name : String) (attributes : List (String × String))
    (hroom : b.document.nodeCount < maxNodes)
    (htop : b.cursor = root → b.document.topElements = 0) :
    (b.step (.startElement name attributes)).StandsAt
      ((b.document.nodeCount, name) :: opens) := by
  have hlt := h.active.cursor_lt
  have hgrown := grown_step h.active.grown (.startElement name attributes)
  have hnode := node?_graft_element b.document b.cursor name attributes [] []
  -- with nothing below it yet, the element is a tree of its own
  rw [h.active.step_startElement name attributes hroom htop, insertNode_element] at *
  have hparent : (b.document.graft b.cursor [.element name attributes []]).parent?
      b.document.nodeCount = some b.cursor := by
    rw [parent?, hnode]
    rfl
  refine ⟨⟨hgrown, h.active.error, ?_⟩, ?_, ?_⟩
  · exact isElement_iff.2 ⟨_, _, hnode⟩
  · show b.document.nodeCount :: (b.document.graft b.cursor _).ancestors b.document.nodeCount = _
    rw [hgrown.wellFormed.ancestors_of_parent? hparent,
      ancestors_graft h.active.wellFormed hlt, h.chain]
    rfl
  · intro o ho
    rcases List.mem_cons.1 ho with rfl | ho
    · show (b.document.graft b.cursor _).name? b.document.nodeCount = some name
      rw [name?, hnode]
      exact congrArg some (Element.name_ofAttributes name attributes)
    · exact h.names_graft _ o ho

/-- The start of an element opens it, and the events that nest behind it leave it open. -/
theorem enter {drop : Bool} {inner : List Event} {children : List Tree} (h : b.StandsAt opens)
    (name : String) (attributes : List (String × String)) (hdrop : b.options.dropFormatting = drop)
    (hinner : Denotes drop inner children)
    (hroom : b.document.nodeCount + 1 + Tree.sizeAll children ≤ maxNodes)
    (htop : b.cursor = root → b.document.topElements = 0) :
    ((b.step (.startElement name attributes)).run inner).StandsAt
        ((b.document.nodeCount, name) :: opens) ∧
      ((b.step (.startElement name attributes)).run inner).document.nodeCount
        = b.document.nodeCount + 1 + Tree.sizeAll children := by
  have hstart := h.start name attributes (by omega) htop
  have hcount : (b.step (.startElement name attributes)).document.nodeCount
      = b.document.nodeCount + 1 := by
    rw [h.active.step_startElement name attributes (by omega) htop]
    exact nodeCount_insertNode _ _ _
  have hfits : (b.step (.startElement name attributes)).Fits children :=
    ⟨hstart.active, by rw [hcount]; exact hroom, fun hroot => absurd hroot hstart.cursor_eq.2.1⟩
  have hadds := adds_of_denotes hinner hfits (by rw [options_step, hdrop])
  exact ⟨hstart.adds hfits hadds, by rw [hadds.nodeCount_eq, hcount]⟩

end StandsAt

variable {options : Options}

/-- A builder that has just begun can take the trees of events that nest and bring at most one
    element. -/
theorem fits_ofOptions (hroom : Tree.sizeAll ts < maxNodes)
    (hsingle : ts.countP Tree.isElement ≤ 1) : (ofOptions options).Fits ts := by
  refine ⟨(StandsAt.ofOptions options).active, ?_, fun _ => ?_⟩
  · show 1 + Tree.sizeAll ts ≤ maxNodes
    omega
  · show 0 + ts.countP Tree.isElement ≤ 1
    omega

/-- Events that nest, with at most one element among them, make a document of their trees. -/
theorem document_run_of_denotes (h : Denotes options.dropFormatting es ts)
    (hsingle : ts.countP Tree.isElement ≤ 1) (hroom : demand options.dropFormatting es < maxNodes) :
    ((ofOptions options).run es).StandsAt [] ∧
      ((ofOptions options).run es).document
        = ofForest (declared options.encoding es) ts := by
  rw [h.demand_eq] at hroom
  have hfits : (ofOptions options).Fits ts := fits_ofOptions hroom hsingle
  have hadds := adds_of_denotes h hfits rfl
  refine ⟨(StandsAt.ofOptions options).adds hfits hadds, ?_⟩
  rw [Adds] at hadds
  rw [hadds]
  rfl

/-- A document of trees has as many elements at top level as there are among the trees. -/
theorem topElements_ofForest (encoding : String) (ts : List Tree) :
    (ofForest encoding ts).topElements = ts.countP Tree.isElement := by
  rw [ofForest, topElements_graft (wellFormed_ofEncoding encoding)]
  exact Nat.zero_add _

/-- **As long as no event has offended, the cursor stands at the innermost open element**, and the
    ancestors of that are the other ones. -/
theorem standsAt_of_leavesOpen {opens : List (Nat × String)}
    (h : LeavesOpen options.dropFormatting es opens)
    (hroom : demand options.dropFormatting es < maxNodes) :
    ((ofOptions options).run es).StandsAt opens ∧
      ((ofOptions options).run es).document.nodeCount
        = demand options.dropFormatting es + 1 := by
  induction h with
  | nothing h hsingle =>
    obtain ⟨hstands, hdocument⟩ := document_run_of_denotes h hsingle hroom
    refine ⟨hstands, ?_⟩
    rw [hdocument, h.demand_eq, Nat.add_comm]
    exact nodeCount_graft _
  | @outermost es inner ts children name attributes h hfirst hinner =>
    -- the events before the element make a document in which no element stands at top level yet
    rw [hinner.demand_behind_start] at hroom ⊢
    obtain ⟨hstands, hdocument⟩ := document_run_of_denotes h (by omega) (by omega)
    have hcount : ((ofOptions options).run es).document.nodeCount
        = demand options.dropFormatting es + 1 := by
      rw [hdocument, h.demand_eq, Nat.add_comm]
      exact nodeCount_graft _
    have henter := hstands.enter name attributes (by rw [options_run]; rfl) hinner
      (by omega) fun _ => by rw [hdocument, topElements_ofForest, hfirst]
    rw [hcount] at henter
    rw [run_append, run_cons]
    exact ⟨henter.1, by rw [henter.2]; omega⟩
  | @nested es inner children name attributes outer opens h hinner ih =>
    -- the events before the element leave another one open, so that it does not stand at top level
    rw [hinner.demand_behind_start] at hroom ⊢
    obtain ⟨hstands, hcount⟩ := ih (by omega)
    have henter := hstands.enter name attributes (by rw [options_run]; rfl) hinner
      (by omega) fun hroot => absurd hroot hstands.cursor_eq.2.1
    rw [hcount] at henter
    rw [run_append, run_cons]
    exact ⟨henter.1, by rw [henter.2]; omega⟩

/-! ### How building ends -/

/-- **The first event that offends is the error.** -/
theorem error_step_of_offends {e : Event} {error : ParseError}
    (h : Offends options.dropFormatting es e error)
    (hroom : demand options.dropFormatting es < maxNodes) :
    (((ofOptions options).run es).step e).error = some error := by
  cases h with
  | unexpectedEnd h =>
    obtain ⟨hstands, -⟩ := standsAt_of_leavesOpen h hroom
    -- the cursor is at node 0, from which there is no way up
    have hnone := hstands.active.wellFormed.parent?_root
    simp [step, hstands.active.error, close, hstands.cursor_eq_root, hnone, fail]
  | @mismatchedEnd id expected found opens h hne =>
    obtain ⟨hstands, -⟩ := standsAt_of_leavesOpen h hroom
    obtain ⟨-, hroot, hopen⟩ := hstands.cursor_eq
    obtain ⟨p, hparent, -⟩ :=
      hstands.active.wellFormed.parent hroot hstands.active.cursor_lt
    simp [step, hstands.active.error, close, hparent, hopen, hne, fail]
  | secondRoot h hsingle =>
    obtain ⟨hstands, hdocument⟩ := document_run_of_denotes h (Nat.le_of_eq hsingle) hroom
    have hsome : ((ofOptions options).run es).document.rootElement?.isSome := by
      rw [← Option.ne_none_iff_isSome, ne_eq, rootElement?_eq_none_iff, hdocument,
        topElements_ofForest, hsingle]
      exact Nat.one_ne_zero
    simp [step, hstands.active.error, isSecondRoot, hstands.cursor_eq_root, hsome, fail]

/-- A builder at node 0 hands out its document. -/
theorem StandsAt.finish_eq_ok (h : b.StandsAt []) : b.finish = .ok b.document := by
  simp [finish, h.active.error, h.cursor_eq_root]

/-- A builder at an open element says that the element is not closed. -/
theorem StandsAt.finish_eq_error {id : Nat} {name : String} {opens : List (Nat × String)}
    (h : b.StandsAt ((id, name) :: opens)) : b.finish = .error (.unclosedElement name) := by
  obtain ⟨-, hroot, hopen⟩ := h.cursor_eq
  simp [finish, h.active.error, hroot, hopen]

/-- A builder that has met an error ends with it. -/
theorem finish_eq_error_of_offends {e : Event} {error : ParseError}
    (h : Offends options.dropFormatting es e error)
    (hroom : demand options.dropFormatting es < maxNodes) (rest : List Event) :
    ((ofOptions options).run (es ++ e :: rest)).finish = .error error := by
  have herror := error_run (error_step_of_offends h hroom) rest
  rw [run_append, run_cons]
  simp [finish, herror]

/-- Events that nest make a builder hand out the document of their trees. -/
theorem finish_eq_ok_of_denotes (h : Denotes options.dropFormatting es ts)
    (hsingle : ts.countP Tree.isElement ≤ 1) (hroom : demand options.dropFormatting es < maxNodes) :
    ((ofOptions options).run es).finish = .ok (ofForest (declared options.encoding es) ts) := by
  obtain ⟨hstands, hdocument⟩ := document_run_of_denotes h hsingle hroom
  rw [hstands.finish_eq_ok, hdocument]

/-- A builder ends in one of three ways: with a document if the events nest, with the innermost open
    element if it has one, and with the error of the first event that offends. -/
theorem finish_cases (hroom : demand options.dropFormatting es < maxNodes) :
    (∃ ts, Denotes options.dropFormatting es ts ∧ ts.countP Tree.isElement ≤ 1 ∧
      ((ofOptions options).run es).finish = .ok (ofForest (declared options.encoding es) ts)) ∨
    (∃ id name opens, LeavesOpen options.dropFormatting es ((id, name) :: opens) ∧
      ((ofOptions options).run es).finish = .error (.unclosedElement name)) ∨
    ∃ before e rest error, es = before ++ e :: rest ∧
      Offends options.dropFormatting before e error ∧
      ((ofOptions options).run es).finish = .error error := by
  rcases leavesOpen_or_offends options.dropFormatting es with ⟨opens, h⟩ | hoffends
  · cases opens with
    | nil =>
      cases h with
      | @nothing _ ts h hsingle =>
        exact .inl ⟨ts, h, hsingle, finish_eq_ok_of_denotes h hsingle hroom⟩
    | cons o opens =>
      have hfinish := (standsAt_of_leavesOpen h hroom).1.finish_eq_error
      exact .inr (.inl ⟨o.1, o.2, opens, h, hfinish⟩)
  · obtain ⟨before, e, rest, error, rfl, h⟩ := hoffends
    -- the events before the first one that offends ask for no more nodes than all of them
    have hbefore : demand options.dropFormatting before < maxNodes := by
      rw [demand_append] at hroom
      omega
    have hfinish := finish_eq_error_of_offends h hbefore rest
    exact .inr (.inr ⟨before, e, rest, error, rfl, h, hfinish⟩)

/-- **Builders accept the events that nest and no others, and build the trees that they denote.**
    With room for all nodes that `events` ask for:

    * a document comes out exactly if the events nest with at most one element at top level; it is
      then the document of the trees that they denote, labelled as was declared last, has these
      trees, and counts its nodes in pre-order;
    * an error comes out exactly if it is that of the first event that offends, or no event offends
      and it names the innermost element that is still open; an error of the store never does;
    * after any first part of the events in which none has offended, the cursor and its ancestors
      are the open elements, the innermost one first, and node 0 above them. -/
theorem finish_run (options : Options) (events : List Event)
    (hroom : demand options.dropFormatting events < maxNodes) :
    (∀ d, ((ofOptions options).run events).finish = .ok d ↔
      ∃ ts, Denotes options.dropFormatting events ts ∧ ts.countP Tree.isElement ≤ 1 ∧
        d = ofForest (declared options.encoding events) ts) ∧
    (∀ ts, Denotes options.dropFormatting events ts → ts.countP Tree.isElement ≤ 1 →
      let d := ofForest (declared options.encoding events) ts
      d.forest = ts ∧ d.descendants root = List.range' 1 (d.nodeCount - 1)) ∧
    (∀ error, ((ofOptions options).run events).finish = .error error ↔
      (∃ es e rest, events = es ++ e :: rest ∧ Offends options.dropFormatting es e error) ∨
      ∃ id name opens, LeavesOpen options.dropFormatting events ((id, name) :: opens) ∧
        error = .unclosedElement name) ∧
    (∀ error, ((ofOptions options).run events).finish ≠ .error (.tree error)) ∧
    ∀ es rest opens, events = es ++ rest → LeavesOpen options.dropFormatting es opens →
      let b := (ofOptions options).run es
      b.cursor :: b.document.ancestors b.cursor = opens.map Prod.fst ++ [root] ∧
        ∀ o ∈ opens, b.document.name? o.1 = some o.2 := by
  have hpart : ∀ es rest, events = es ++ rest →
      demand options.dropFormatting es < maxNodes := by
    rintro es rest rfl
    rw [demand_append] at hroom
    omega
  refine ⟨fun d => ⟨fun h => ?accepts, ?builds⟩, ?trees, fun error => ⟨fun h => ?refuses, ?errors⟩,
    ?store, ?cursor⟩
  case accepts =>
    rcases finish_cases hroom with ⟨ts, hts, hsingle, hfinish⟩ | ⟨_, _, _, _, hfinish⟩ |
      ⟨_, _, _, _, _, _, hfinish⟩
    · rw [hfinish] at h
      exact ⟨ts, hts, hsingle, (Except.ok.inj h).symm⟩
    · rw [hfinish] at h
      cases h
    · rw [hfinish] at h
      cases h
  case builds =>
    rintro ⟨ts, hts, hsingle, rfl⟩
    exact finish_eq_ok_of_denotes hts hsingle hroom
  case trees =>
    intro ts hts hsingle
    have hwf := (Reachable.built (finish_eq_ok_of_denotes hts hsingle hroom)).wellFormed
    exact ⟨forest_ofForest _ hts.settled, descendants_ofForest hwf⟩
  case refuses =>
    rcases finish_cases hroom with ⟨_, _, _, hfinish⟩ | ⟨id, name, opens, hopen, hfinish⟩ |
      ⟨es, e, rest, _, hevents, hoffends, hfinish⟩
    · rw [hfinish] at h
      cases h
    · rw [hfinish, Except.error.injEq] at h
      exact .inr ⟨id, name, opens, hopen, h.symm⟩
    · rw [hfinish, Except.error.injEq] at h
      exact .inl ⟨es, e, rest, hevents, h ▸ hoffends⟩
  case errors =>
    rintro (⟨es, e, rest, rfl, hoffends⟩ | ⟨id, name, opens, hopen, rfl⟩)
    · exact finish_eq_error_of_offends hoffends (hpart es (e :: rest) rfl) rest
    · exact (standsAt_of_leavesOpen hopen hroom).1.finish_eq_error
  case store =>
    intro error h
    rcases finish_cases hroom with ⟨_, _, _, hfinish⟩ | ⟨_, _, _, _, hfinish⟩ |
      ⟨_, _, _, _, _, hoffends, hfinish⟩
    · rw [hfinish] at h
      cases h
    · rw [hfinish] at h
      cases h
    · rw [hfinish, Except.error.injEq] at h
      -- no event offends with an error of the store
      subst h
      cases hoffends
  case cursor =>
    intro es rest opens hevents h
    have hstands := (standsAt_of_leavesOpen h (hpart es rest hevents)).1
    exact ⟨hstands.chain, hstands.names⟩

/-- Formatting is left out, an attribute that is given again replaces the first one, and the
    declared encoding is kept. -/
theorem finish_run_nested :
    let options : Options := ⟨"utf-8", true⟩
    let events : List Event :=
      [.declaration (some "latin-1"), .startElement "a" [("k", "1"), ("k", "2")],
        .characters " \n", .characters "t", .startElement "b" [], .endElement "b",
        .endElement "a", .endDocument]
    demand options.dropFormatting events < maxNodes ∧
      ((ofOptions options).run events).finish
        = .ok (ofForest "latin-1"
            [.element "a" [("k", "2")] [.text "t", .element "b" [] []]]) := by
  intro options events
  have hroom : demand options.dropFormatting events < maxNodes := by
    have hdemand : demand options.dropFormatting events = 3 := by decide
    rw [hdemand]
    decide
  have hinner : Denotes true
      [.characters " \n", .characters "t", .startElement "b" [], .endElement "b"]
      [.text "t", .element "b" [] []] :=
    .formatting (by decide) (.text (by decide) (.element .nil .nil))
  exact ⟨hroom, ((finish_run options events hroom).1 _).2
    ⟨_, .declaration (.element hinner (.endDocument .nil)), by decide, rfl⟩⟩

end Builder

end XmlQuery
