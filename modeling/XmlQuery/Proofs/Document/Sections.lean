import XmlQuery.Proofs.Document.Correspondence
import XmlQuery.Proofs.Document.Reloading

namespace XmlQuery

/-!
# Sections that end early

A CDATA section is written as it is, and a reader ends it at the first mark that it meets.
Documents come back with all their elements if no section holds that mark; if one does, what stands
behind the mark is read as markup, and the trees do not come back.

* `Tree.elementsAll`, `Tree.elementsAll_normal` — the elements of trees, and of their normal form.
* `Tree.source_cdata_injected` — a section can be written as any trees are.
* `Document.Composed`, `Document.MarkFree` — documents made of names and texts, and those of which
  no section holds the mark.
* `Document.Grown.spelled_of_writableAll` — a document can be spelled if its trees can be written.
* `Document.Reachable.parse_source_sections` — a document comes back exactly if no section holds the
  mark.
-/

open Markup Nesting

namespace Tree

/-! ### Elements -/

mutual

/-- A tree without the texts and sections in it; nothing if it is one of these itself. -/
def elements : Tree → List Tree
  | element name attributes children => [element name attributes (elementsAll children)]
  | text _ => []
  | cdata _ => []

/-- The elements of trees, with their names, attributes and nesting, in order. -/
def elementsAll : List Tree → List Tree
  | [] => []
  | t :: ts => t.elements ++ elementsAll ts

end

theorem elementsAll_element (name : String) (attributes : List (String × String))
    (children ts : List Tree) :
    elementsAll (.element name attributes children :: ts)
      = .element name attributes (elementsAll children) :: elementsAll ts := rfl

theorem elementsAll_text (s : String) (ts : List Tree) :
    elementsAll (.text s :: ts) = elementsAll ts := rfl

theorem elementsAll_cdata (bytes : List UInt8) (ts : List Tree) :
    elementsAll (.cdata bytes :: ts) = elementsAll ts := rfl

/-- A run of texts has no elements. -/
theorem elementsAll_runTree_append (drop : Bool) (run : String) (ts : List Tree) :
    elementsAll (runTree drop run ++ ts) = elementsAll ts := by
  unfold runTree
  split <;> rfl

/-- The normal form with a run in front of it has the elements of the trees. -/
theorem elementsAll_normalFrom (drop : Bool) (run : String) (ts : List Tree) :
    elementsAll (normalFrom drop run ts) = elementsAll ts := by
  induction ts using forest_induction generalizing run with
  | nil =>
    have h := elementsAll_runTree_append drop run []
    rwa [List.append_nil] at h
  | element name attributes children rest ihc ihr =>
    rw [normalFrom_element, elementsAll_runTree_append, elementsAll_element, elementsAll_element,
      ihc, ihr]
  | text s rest ih => rw [normalFrom_text, ih, elementsAll_text]
  | cdata bytes rest ih =>
    rw [normalFrom_cdata, elementsAll_runTree_append, elementsAll_cdata, elementsAll_cdata, ih]

/-- **The normal form has the elements of the trees.** -/
theorem elementsAll_normal (drop : Bool) (ts : List Tree) :
    elementsAll (normal drop ts) = elementsAll ts :=
  elementsAll_normalFrom drop "" ts

/-! ### Sections -/

/-- Trees that follow one another are written one after the other. -/
theorem sourceAll_append (ts us : List Tree) :
    sourceAll (ts ++ us) = sourceAll ts ++ sourceAll us := by
  induction ts with
  | nil => rfl
  | cons t ts ih =>
    rw [List.cons_append, sourceAll_cons, sourceAll_cons, ih, List.append_assoc]

/-- **A section can be written as any trees are:** one that ends itself, goes on with the markup of
    the trees, and begins another section. -/
theorem source_cdata_injected (us : List Tree) :
    (cdata (Utf8.encode ("]]>".toList ++ sourceAll us ++ "<![CDATA[".toList))).source
      = sourceAll (cdata [] :: (us ++ [cdata []])) := by
  have hnothing : Utf8.decodeLossy [] = [] := by rw [Utf8.decodeLossy]
  rw [source_cdata, Utf8.decodeLossy_of_decode (Utf8.decode_encode _), sourceAll_cons,
    sourceAll_append, sourceAll_cons, sourceAll_nil, source_cdata, hnothing]
  simp only [List.append_assoc, List.append_nil]

/-- Elements are written alike if what is below them is. -/
theorem source_congr {name : String} {attributes : List (String × String)} {ts us : List Tree}
    (h : sourceAll ts = sourceAll us) :
    (element name attributes ts).source = (element name attributes us).source := by
  rw [source_element, source_element, h]

/-- Among trees that can be written each can be. -/
theorem WritableAll.of_mem {t : Tree} {ts : List Tree} (h : WritableAll ts) (ht : t ∈ ts) :
    WritableAll [t] := by
  induction h with
  | nil => cases ht
  | element hname hkeys hnodup hchildren _ _ ih =>
    rcases List.mem_cons.1 ht with rfl | ht
    · exact .element hname hkeys hnodup hchildren .nil
    · exact ih ht
  | text _ ih =>
    rcases List.mem_cons.1 ht with rfl | ht
    · exact .text .nil
    · exact ih ht
  | cdata hdecode hmark _ ih =>
    rcases List.mem_cons.1 ht with rfl | ht
    · exact .cdata hdecode hmark .nil
    · exact ih ht

/-- Trees behind a run of texts can be written if both can be. -/
theorem WritableAll.of_runTree_append {drop : Bool} {run : String} {ts : List Tree}
    (h : WritableAll (runTree drop run ++ ts)) : WritableAll ts :=
  writableAll_of_forall fun _ ht => h.of_mem (List.mem_append_right _ ht)

/-- Trees can be written if their normal form can be, since that leaves out no names and no
    sections. -/
theorem writableAll_of_normalFrom {drop : Bool} {run : String} {ts : List Tree}
    (h : WritableAll (normalFrom drop run ts)) : WritableAll ts := by
  induction ts using forest_induction generalizing run with
  | nil => exact .nil
  | element name attributes children rest ihc ihr =>
    rw [normalFrom_element] at h
    cases h.of_runTree_append with
    | element hname hkeys hnodup hchildren hrest =>
      exact .element hname hkeys hnodup (ihc hchildren) (ihr hrest)
  | text s rest ih => exact .text (ih h)
  | cdata bytes rest ih =>
    rw [normalFrom_cdata] at h
    cases h.of_runTree_append with
    | cdata hdecode hmark hrest => exact .cdata hdecode hmark (ih hrest)

end Tree

/-! ### Documents -/

namespace Document

variable {d : Document}

/-- Documents that are composed of names and texts.  The names of elements, node 0 apart, and the
    keys of attributes are names, CDATA sections are texts, and the label of the encoding holds
    neither the quote behind it nor the mark at the end of the declaration.  Nothing is asked of
    what the sections say. -/
structure Composed (d : Document) : Prop where
  name : ∀ {id : Nat} {owner : Option Nat} {e : Element}, id ≠ root →
    d.node? id = some ⟨owner, .element e⟩ → IsName e.name.toList
  key : ∀ {id : Nat} {owner : Option Nat} {e : Element}, id ≠ root →
    d.node? id = some ⟨owner, .element e⟩ → ∀ key ∈ e.attributes.keys, IsName key.toList
  contents : ∀ {id : Nat} {owner : Option Nat} {bytes : List UInt8},
    d.node? id = some ⟨owner, .cdata bytes⟩ → ∃ cs, Utf8.decode bytes = .ok cs
  quote : '"' ∉ d.encoding.toList
  label : ¬ ['?', '>'] <:+: d.encoding.toList

/-- Whether no CDATA section of a document holds the mark that ends one. -/
def MarkFree (d : Document) : Prop :=
  ∀ id owner bytes cs, d.node? id = some ⟨owner, .cdata bytes⟩ → Utf8.decode bytes = .ok cs →
    ¬ [']', ']', '>'] <:+: cs

/-- What is composed of names and texts can be spelled exactly if no section holds the mark. -/
theorem Composed.spelled_iff (h : d.Composed) (hgrown : d.Grown) : d.Spelled ↔ d.MarkFree := by
  constructor
  · intro hspelled id owner bytes cs hn hdecode
    have hid : id ≠ root := by
      rintro rfl
      obtain ⟨e, he⟩ := hgrown.wellFormed.root
      rw [hn] at he
      cases he
    obtain ⟨cs', hdecode', hmark⟩ := hspelled id owner _ hid hn
    rw [hdecode] at hdecode'
    cases hdecode'
    exact hmark
  · intro hfree id owner content hid hn
    cases content with
    | element e => exact ⟨h.name hid hn, h.key hid hn⟩
    | text s => exact trivial
    | cdata bytes =>
      obtain ⟨cs, hdecode⟩ := h.contents hn
      exact ⟨cs, hdecode, hfree id owner bytes cs hn hdecode⟩

/-- If the trees of a document can be written, so can the tree of each node. -/
theorem Grown.writableAll_tree (hgrown : d.Grown) (h : Tree.WritableAll d.forest) {id : Nat} :
    id ≠ root → ∀ t, d.tree? id = some t → Tree.WritableAll [t] := by
  have hwf := hgrown.wellFormed
  induction id using hwf.induction_up with
  | top id hp =>
    -- a number that has no parent, and is not 0, is that of no node
    intro hid t ht
    have hlt : id < d.nodeCount := hwf.tree?_isSome_iff.1 (Option.isSome_of_eq_some ht)
    obtain ⟨p, hp', -⟩ := hwf.parent hid hlt
    rw [hp] at hp'
    cases hp'
  | below id p hp ih =>
    intro _ t ht
    have hmem : t ∈ (d.children p).filterMap d.tree? :=
      List.mem_filterMap.2 ⟨id, (hwf.parent_lt hp).2, ht⟩
    by_cases hroot : p = root
    · subst hroot
      exact h.of_mem hmem
    · obtain ⟨owner, e, he⟩ := isElement_iff.1 (isElement_of_mem_children (hwf.parent_lt hp).2)
      cases ih hroot _ (hwf.tree?_element he) with
      | element _ _ _ hchildren _ => exact hchildren.of_mem hmem

/-- **A document can be spelled if its trees can be written.** -/
theorem Grown.spelled_of_writableAll (hgrown : d.Grown) (h : Tree.WritableAll d.forest) :
    d.Spelled := by
  intro id owner content hid hn
  cases content with
  | element e =>
    cases hgrown.writableAll_tree h hid _ (hgrown.wellFormed.tree?_element hn) with
    | element hname hkeys _ _ _ =>
      refine ⟨hname, fun key hkey => ?_⟩
      obtain ⟨a, ha, rfl⟩ := List.mem_map.1 hkey
      exact hkeys a ha
  | text s => exact trivial
  | cdata bytes =>
    cases hgrown.writableAll_tree h hid _ (tree?_of_cdata hn) with
    | cdata hdecode hmark _ => exact ⟨_, hdecode, hmark⟩

/-- **A document comes back exactly if no section holds the mark that ends it.**  Whatever else the
    sections, texts and values of a document say, then what it is written as can be read, and what
    comes out has its elements: the same names, attributes and nesting, in the same order.  If a
    section holds the mark, either nothing is read or the trees are not those of the document in
    their normal form. -/
theorem Reachable.parse_source_sections (h : d.Reachable) (hcomposed : d.Composed)
    (options : Options) :
    (d.MarkFree → ∃ d', parse options (Utf8.encode d.source.toList) = .ok d' ∧
      Tree.elementsAll d'.forest = Tree.elementsAll d.forest) ∧
    ((∃ d', parse options (Utf8.encode d.source.toList) = .ok d' ∧
      d'.forest = Tree.normal options.dropFormatting d.forest) ↔ d.MarkFree) := by
  have hback : d.MarkFree → ∃ d', parse options (Utf8.encode d.source.toList) = .ok d' ∧
      d'.forest = Tree.normal options.dropFormatting d.forest := by
    intro hfree
    have hspelled := (hcomposed.spelled_iff h.grown).2 hfree
    obtain ⟨d', hparse, -, hforest⟩ := hspelled.exists_parse_source h hcomposed.label options
    exact ⟨d', hparse, hforest⟩
  refine ⟨fun hfree => ?elements, ?free, hback⟩
  case elements =>
    obtain ⟨d', hparse, hforest⟩ := hback hfree
    exact ⟨d', hparse, by rw [hforest, Tree.elementsAll_normal]⟩
  case free =>
    rintro ⟨d', hparse, hforest⟩
    -- no section that was read holds the mark, and the normal form keeps all sections
    have hread := (spelled_of_parse hparse).writableAll_forest (Reachable.parsed hparse).grown
    rw [hforest] at hread
    have hwritable := Tree.writableAll_of_normalFrom hread
    exact (hcomposed.spelled_iff h.grown).1 (h.grown.spelled_of_writableAll hwritable)

/-! ### One section in one element -/

/-- One element, and a section in it. -/
def ofSection (bytes : List UInt8) : Document :=
  ((ofEncoding "utf-8").edit (.addChild root "a" [])).edit (.appendCdata 1 bytes)

theorem reachable_ofSection (bytes : List UInt8) : (ofSection bytes).Reachable :=
  ((Reachable.ofEncoding "utf-8").edited _).edited _

/-- It is composed of names and texts if the section is a text. -/
theorem composed_ofSection (cs : List Char) : (ofSection (Utf8.encode cs)).Composed := by
  have hnone : ∀ id, (ofSection (Utf8.encode cs)).node? (id + 3) = none := fun _ => rfl
  have helement : ∀ {id owner e}, id ≠ root →
      (ofSection (Utf8.encode cs)).node? id = some ⟨owner, .element e⟩ →
      e.name = "a" ∧ e.attributes.keys = [] := by
    intro id owner e hid hn
    match id, hn with
    | 0, _ => exact absurd rfl hid
    | 1, hn => cases hn; exact ⟨rfl, rfl⟩
    | id + 3, hn => rw [hnone] at hn; cases hn
  have hquote : '"' ∉ "utf-8".toList := by decide
  have hlabel : ¬ ['?', '>'] <:+: "utf-8".toList := Text.splitAround?_eq_none_iff.1 (by decide)
  refine ⟨?name, ?key, ?contents, hquote, hlabel⟩
  case name =>
    intro id owner e hid hn
    rw [(helement hid hn).1]
    rfl
  case key =>
    intro id owner e hid hn key hkey
    rw [(helement hid hn).2] at hkey
    cases hkey
  case contents =>
    intro id owner bytes hn
    match id, hn with
    | 2, hn => cases hn; exact ⟨cs, Utf8.decode_encode cs⟩
    | id + 3, hn => rw [hnone] at hn; cases hn

theorem forest_ofSection (bytes : List UInt8) :
    (ofSection bytes).forest = [.element "a" [] [.cdata bytes]] := by
  have hwf := (reachable_ofSection bytes).wellFormed
  have htree := hwf.tree?_element (show (ofSection bytes).node? 1 = some ⟨some 0, _⟩ from rfl)
  have hsection : (ofSection bytes).node? 2 = some ⟨some 1, .cdata bytes⟩ := rfl
  have hchildren : ((ofSection bytes).children 1).filterMap (ofSection bytes).tree?
      = [.cdata bytes] := by
    show [2].filterMap (ofSection bytes).tree? = _
    rw [List.filterMap_cons_some (tree?_of_cdata hsection)]
    rfl
  rw [hchildren] at htree
  show [1].filterMap (ofSection bytes).tree? = _
  rw [List.filterMap_cons_some htree]
  rfl

/-- Brackets at the end of a section do not end it early. -/
theorem parse_source_sections_brackets :
    let d := ofSection (Utf8.encode "<b></b>]]".toList)
    d.Reachable ∧ d.Composed ∧ d.MarkFree ∧
      (∃ d', parse {} (Utf8.encode d.source.toList) = .ok d' ∧
        Tree.elementsAll d'.forest = [.element "a" [] []]) ∧
      ∃ d', parse {} (Utf8.encode d.source.toList) = .ok d' ∧
        d'.forest = [.element "a" [] [.cdata (Utf8.encode "<b></b>]]".toList)]] := by
  intro d
  have hreachable := reachable_ofSection (Utf8.encode "<b></b>]]".toList)
  have hcomposed := composed_ofSection "<b></b>]]".toList
  have hfree : d.MarkFree := by
    intro id owner bytes cs hn hdecode
    match id, hn with
    | 2, hn =>
      cases hn
      rw [Utf8.decode_encode] at hdecode
      cases hdecode
      exact Text.splitAround?_eq_none_iff.1 (by decide)
    | id + 3, hn =>
      have hnone : d.node? (id + 3) = none := rfl
      rw [hnone] at hn
      cases hn
  obtain ⟨helements, hforest⟩ := Reachable.parse_source_sections hreachable hcomposed {}
  have hsame := helements hfree
  have hback := hforest.2 hfree
  rw [forest_ofSection] at hsame hback
  exact ⟨hreachable, hcomposed, hfree, hsame, hback⟩

/-- What stands behind the mark in a section is read as an element that the document does not
    have. -/
theorem exists_parse_source_elements_ne :
    let d := ofSection (Utf8.encode "]]><b></b><![CDATA[".toList)
    d.Reachable ∧ d.Composed ∧
      ∃ d', parse {} (Utf8.encode d.source.toList) = .ok d' ∧
        Tree.elementsAll d.forest = [.element "a" [] []] ∧
        Tree.elementsAll d'.forest = [.element "a" [] [.element "b" [] []]] := by
  intro d
  have hcontents : "]]><b></b><![CDATA[".toList
      = "]]>".toList ++ Tree.sourceAll [.element "b" [] []] ++ "<![CDATA[".toList := by decide
  have hforest : d.forest
      = [.element "a" [] [.cdata (Utf8.encode "]]><b></b><![CDATA[".toList)]] := forest_ofSection _
  have hsection : Tree.sourceAll [.cdata (Utf8.encode "]]><b></b><![CDATA[".toList)]
      = Tree.sourceAll [.cdata [], .element "b" [] [], .cdata []] := by
    rw [hcontents, Tree.sourceAll_cons, Tree.source_cdata_injected, Tree.sourceAll_nil,
      List.append_nil]
    rfl
  -- so the document is written as the trees that its section pretends to be
  have hsource : d.source.toList = declarationSource "utf-8"
      ++ Tree.sourceAll [.element "a" [] [.cdata [], .element "b" [] [], .cdata []]] := by
    rw [source, String.toList_ofList, hforest, Tree.sourceAll_cons, Tree.source_congr hsection,
      ← Tree.sourceAll_cons]
    rfl
  have hempty : Utf8.decode [] = .ok [] := Utf8.decode_encode []
  have hnothing : ¬ [']', ']', '>'] <:+: ([] : List Char) := by decide
  have hwritable : Tree.WritableAll
      [.element "a" [] [.cdata [], .element "b" [] [], .cdata []]] := by
    have hbelow : Tree.WritableAll [.cdata [], .element "b" [] [], .cdata []] :=
      .cdata hempty hnothing
        (.element rfl (by simp) List.nodup_nil .nil (.cdata hempty hnothing .nil))
    exact .element rfl (by simp) List.nodup_nil hbelow .nil
  have hlabel : ¬ ['?', '>'] <:+: "utf-8".toList := Text.splitAround?_eq_none_iff.1 (by decide)
  obtain ⟨d', hparse, -, hread⟩ :=
    hwritable.exists_parse_source hlabel (by decide) (by decide) {}
  rw [← hsource] at hparse
  refine ⟨reachable_ofSection _, composed_ofSection _, d', hparse, ?_, ?_⟩
  · rw [hforest]
    rfl
  · rw [hread, Tree.elementsAll_normal]
    rfl

end Document

end XmlQuery
