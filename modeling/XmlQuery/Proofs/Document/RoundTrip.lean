import XmlQuery.Proofs.Document.Building
import XmlQuery.Proofs.Document.Forest
import XmlQuery.Proofs.Document.Normal
import XmlQuery.Proofs.Markup.Scanning

namespace XmlQuery

/-!
# Documents that are read back

A document that is written out and read again has the trees that it had, in their normal form.

* `Tree.WritableAll`, `Document.Writable` — names that a tag can hold, and CDATA sections and a
  label that do not end what they stand in.
* `Tree.Reads` — markup that is scanned as events that denote given trees.
* `Tree.WritableAll.reads` — trees that can be written are read back in their normal form.
* `Tree.WritableAll.scan_source` — what is scanned of them behind a label, which may hold quotes.
* `Document.Reachable.parse_source` — hence a document is.
-/

open Nesting Markup

/-- Bytes that are well-formed are read as the same text where no ill-formed piece is refused. -/
theorem Utf8.decodeLossy_of_decode {bytes : List UInt8} {cs : List Char}
    (h : decode bytes = .ok cs) : decodeLossy bytes = cs := by
  -- the offset is only for the place of an error
  suffices hfrom : ∀ offset, decodeFrom offset bytes = .ok cs → decodeLossy bytes = cs from
    hfrom 0 h
  clear h
  intro offset h
  fun_induction decodeFrom offset bytes generalizing cs with
  | case1 => cases h; rw [decodeLossy]
  | case2 => cases h
  | case3 _ b bs c rest hhead cs' hrest ih =>
    cases h
    rw [decodeLossy]
    split
    · rename_i hill
      rw [hhead] at hill
      cases hill
    · rename_i hchar
      rw [hhead] at hchar
      cases hchar
      rw [ih hrest]
  | case4 => cases h

namespace Tree

/-- Trees that can be written.  The names of elements and the keys of attributes are names, no key
    is repeated, and CDATA sections are texts that do not hold the mark at their end. -/
inductive WritableAll : List Tree → Prop
  | nil : WritableAll []
  | element {name : String} {attributes : List (String × String)} {children ts : List Tree}
      (hname : IsName name.toList) (hkeys : ∀ a ∈ attributes, IsName a.1.toList)
      (hnodup : (attributes.map Prod.fst).Nodup) (hchildren : WritableAll children)
      (h : WritableAll ts) : WritableAll (.element name attributes children :: ts)
  | text {s : String} {ts : List Tree} (h : WritableAll ts) : WritableAll (.text s :: ts)
  | cdata {bytes : List UInt8} {contents : List Char} {ts : List Tree}
      (hdecode : Utf8.decode bytes = .ok contents) (hmark : ¬ [']', ']', '>'] <:+: contents)
      (h : WritableAll ts) : WritableAll (.cdata bytes :: ts)

/-- Trees can be written if each of them can. -/
theorem writableAll_of_forall {ts : List Tree} (h : ∀ t ∈ ts, WritableAll [t]) :
    WritableAll ts := by
  induction ts with
  | nil => exact .nil
  | cons t ts ih =>
    have hrest := ih fun u hu => h u (List.mem_cons_of_mem _ hu)
    cases h t List.mem_cons_self with
    | element hname hkeys hnodup hchildren _ => exact .element hname hkeys hnodup hchildren hrest
    | text _ => exact .text hrest
    | cdata hdecode hmark _ => exact .cdata hdecode hmark hrest

/-! ### Markup that is read -/

/-- Whether markup, with `rest` behind it, is scanned as events that denote trees and declare no
    encoding. -/
def Reads (drop : Bool) (cs rest : List Char) (ts : List Tree) : Prop :=
  ∃ es, Denotes drop es ts ∧ (∀ label, declared label es = label) ∧
    scanText (cs ++ rest) = (es ++ (scanText rest).1, (scanText rest).2)

namespace Reads

variable {drop : Bool} {cs more rest : List Char} {ts us : List Tree}

/-- Markup can be read one part after the other. -/
theorem append (h : Reads drop cs (more ++ rest) ts) (hmore : Reads drop more rest us) :
    Reads drop (cs ++ more) rest (ts ++ us) := by
  obtain ⟨es, hes, hlabel, hscan⟩ := h
  obtain ⟨es', hes', hlabel', hscan'⟩ := hmore
  refine ⟨es ++ es', hes.append hes', fun label => ?_, ?_⟩
  · rw [declared, List.foldl_append, ← declared, ← declared, hlabel, hlabel']
  · rw [List.append_assoc, hscan, hscan', List.append_assoc]

/-- A run of texts is read as the text that it becomes. -/
theorem run (run : String) (hrest : EndsText rest) :
    Reads drop (Reference.escapeText run.toList) rest (runTree drop run) := by
  have hscan := scanText_written run hrest
  -- a run that says nothing is no event, and formatting is an event that brings no tree
  by_cases hrun : run = ""
  · refine ⟨[], ?_, fun _ => rfl, ?_⟩
    · rw [runTree, if_pos (.inl hrun)]
      exact .nil
    · rw [hscan, if_pos hrun]
  · refine ⟨[.characters run], ?_, fun _ => rfl, ?_⟩
    · cases hout : leavesOut drop run with
      | true =>
        rw [runTree, if_pos (.inr hout)]
        exact .formatting hout .nil
      | false =>
        rw [runTree, if_neg (by simp [hrun, hout])]
        exact .text hout .nil
    · rw [hscan, if_neg hrun]

/-- A CDATA section is read as its bytes. -/
theorem cdata {bytes : List UInt8} {contents : List Char}
    (hdecode : Utf8.decode bytes = .ok contents) (hmark : ¬ [']', ']', '>'] <:+: contents) :
    Reads drop (Tree.cdata bytes).source rest [.cdata bytes] := by
  refine ⟨[.cdata bytes], .cdata .nil, fun _ => rfl, ?_⟩
  have hscan := scanText_cdata hmark rest
  rw [Utf8.encode_decode hdecode] at hscan
  rw [source_cdata, Utf8.decodeLossy_of_decode hdecode, List.append_assoc, List.append_assoc, hscan]
  rfl

/-- An element is read as its tags if what is below it is read before the end tag. -/
theorem element {name : String} {attributes : List (String × String)} {children : List Tree}
    (hname : IsName name.toList) (hkeys : ∀ a ∈ attributes, IsName a.1.toList)
    (hnodup : (attributes.map Prod.fst).Nodup)
    (h : Reads drop (sourceAll children) ('<' :: '/' :: (name.toList ++ '>' :: rest)) ts) :
    Reads drop (Tree.element name attributes children).source rest
      [.element name attributes ts] := by
  obtain ⟨es, hes, hlabel, hscan⟩ := h
  have hdenotes : Denotes drop (.startElement name attributes :: (es ++ [.endElement name])) _ :=
    .element hes .nil
  rw [Element.entries_ofAttributes name hnodup] at hdenotes
  refine ⟨_, hdenotes, fun label => ?_, ?_⟩
  · rw [declared, List.foldl_cons, List.foldl_append]
    exact hlabel label
  -- the end tag stands before `rest`, behind all that is below the element
  · have hsource : (Tree.element name attributes children).source ++ rest
        = '<' :: (name.toList ++ (attributes.flatMap attributeSource
          ++ '>' :: (sourceAll children ++ ('<' :: '/' :: (name.toList ++ '>' :: rest))))) := by
      rw [source_element]
      simp only [List.cons_append, List.append_assoc, List.nil_append]
    rw [hsource, scanText_startTag hname hkeys, hscan, scanText_endTag hname]
    simp only [List.cons_append, List.append_assoc, List.nil_append]

/-- A tree that is no text is read behind a run of texts, and before what follows it. -/
theorem cons {t t' : Tree} (ht : t.text? = none) (run : String)
    (h : Reads drop t.source (sourceAll ts ++ rest) [t'])
    (hbehind : Reads drop (Reference.escapeText "".toList ++ sourceAll ts) rest us) :
    Reads drop (Reference.escapeText run.toList ++ sourceAll (t :: ts)) rest
      (runTree drop run ++ t' :: us) := by
  -- the run ends where the markup of the tree begins
  have hends : EndsText (t.source ++ sourceAll ts ++ rest) := by
    intro c hc
    cases t with
    | element name attributes children => exact (Option.some.inj hc).symm
    | text s => cases ht
    | cdata bytes => exact (Option.some.inj hc).symm
  exact (Reads.run run hends).append (h.append hbehind)

end Reads

/-- **Trees that can be written are read back in their normal form**, together with a run of texts
    in front of them. -/
theorem WritableAll.reads {drop : Bool} {ts : List Tree} (h : WritableAll ts) (run : String)
    {rest : List Char} (hrest : EndsText rest) :
    Reads drop (Reference.escapeText run.toList ++ sourceAll ts) rest (normalFrom drop run ts) := by
  -- the run grows until a tree comes that is no text, or the trees end
  induction h generalizing run rest with
  | nil =>
    rw [sourceAll_nil, List.append_nil]
    exact .run run hrest
  | @element name attributes children ts hname hkeys hnodup _ _ ihchildren ih =>
    have hend : EndsText ('<' :: '/' :: (name.toList ++ '>' :: (sourceAll ts ++ rest))) :=
      fun c hc => (Option.some.inj hc).symm
    exact .cons rfl run (.element hname hkeys hnodup (ihchildren "" hend)) (ih "" hrest)
  | @text s ts _ ih =>
    -- a text is written right behind the run, and becomes a part of it
    have hescape : Reference.escapeText run.toList ++ sourceAll (.text s :: ts)
        = Reference.escapeText (run ++ s).toList ++ sourceAll ts := by
      rw [sourceAll_cons, source_text, ← List.append_assoc, Reference.escapeText,
        Reference.escapeText, ← List.flatMap_append, ← String.toList_append,
        ← Reference.escapeText]
    rw [normalFrom_text, hescape]
    exact ih (run ++ s) hrest
  | @cdata bytes contents ts hdecode hmark _ ih =>
    exact .cons rfl run (.cdata hdecode hmark) (ih "" hrest)

/-- The bytes of a document do not begin with the mark of an encoding. -/
theorem withoutMark_declarationSource (label : String) (rest : List Char) :
    withoutMark (Utf8.encode (Document.declarationSource label ++ rest))
      = Utf8.encode (Document.declarationSource label ++ rest) := by
  have hfirst : ∀ cs, withoutMark (Utf8.encode ('<' :: cs)) = Utf8.encode ('<' :: cs) :=
    fun _ => rfl
  rw [declarationSource_append]
  exact hfirst _

/-- Trees that can be written are scanned behind the declaration of a label as that label, up to the
    first quote in it, and as events that denote the trees in their normal form, if the label does
    not end the declaration. -/
theorem WritableAll.scan_source {ts : List Tree} (h : WritableAll ts) {label : String}
    (hend : ¬ ['?', '>'] <:+: label.toList) (drop : Bool) :
    ∃ es, Denotes drop es (normal drop ts) ∧ (∀ label, declared label es = label) ∧
      scan (Utf8.encode (Document.declarationSource label ++ sourceAll ts))
        = ⟨.declaration (some (beforeQuote label)) :: (es ++ [.endDocument]), none⟩ := by
  have hnothing : EndsText [] := by
    intro c hc
    cases hc
  obtain ⟨es, hes, hlabel, hscan⟩ := h.reads "" hnothing
  refine ⟨es, hes, hlabel, ?_⟩
  have htext : scanText (Document.declarationSource label ++ sourceAll ts)
      = (.declaration (some (beforeQuote label)) :: (es ++ [.endDocument]), none) := by
    have htrees : scanText (sourceAll ts) = (es ++ [.endDocument], none) := by
      rw [List.append_nil, scanText_nil] at hscan
      exact hscan
    rw [scanText_declaration hend, htrees]
  rw [scan, withoutMark_declarationSource]
  simp only [Utf8.decode_encode, htext, Option.map_none]

end Tree

/-! ### Documents -/

/-- Contents as markup can spell them: the name of an element and the keys of its attributes are
    names, and a CDATA section is a text that does not hold the mark at its end. -/
def Content.Spelled : Content → Prop
  | .element e => IsName e.name.toList ∧ ∀ key ∈ e.attributes.keys, IsName key.toList
  | .text _ => True
  | .cdata bytes => ∃ cs, Utf8.decode bytes = .ok cs ∧ ¬ [']', ']', '>'] <:+: cs

namespace Document

variable {d : Document}

/-- Documents that can be written.  The names of elements, node 0 apart, and the keys of attributes
    are names, CDATA sections are texts that do not hold the mark at their end, and the label of
    the encoding holds neither the quote behind it nor the mark at the end of the declaration. -/
structure Writable (d : Document) : Prop where
  name : ∀ {id : Nat} {owner : Option Nat} {e : Element}, id ≠ root →
    d.node? id = some ⟨owner, .element e⟩ → IsName e.name.toList
  key : ∀ {id : Nat} {owner : Option Nat} {e : Element}, id ≠ root →
    d.node? id = some ⟨owner, .element e⟩ → ∀ key ∈ e.attributes.keys, IsName key.toList
  contents : ∀ {id : Nat} {owner : Option Nat} {bytes : List UInt8},
    d.node? id = some ⟨owner, .cdata bytes⟩ →
    ∃ cs, Utf8.decode bytes = .ok cs ∧ ¬ [']', ']', '>'] <:+: cs
  quote : '"' ∉ d.encoding.toList
  label : ¬ ['?', '>'] <:+: d.encoding.toList

/-- Documents as markup can spell them: all that they hold can be spelled, node 0 apart. -/
def Spelled (d : Document) : Prop :=
  ∀ id owner content, id ≠ root → d.node? id = some ⟨owner, content⟩ → content.Spelled

/-- What can be written can be spelled. -/
theorem Writable.spelled (h : d.Writable) : d.Spelled := by
  intro id owner content hid hn
  cases content with
  | element e => exact ⟨h.name hid hn, h.key hid hn⟩
  | text s => exact trivial
  | cdata bytes => exact h.contents hn

/-- The trees of nodes can be written if each of them can. -/
theorem writableAll_filterMap {ids : List Nat}
    (h : ∀ id ∈ ids, ∃ t, d.tree? id = some t ∧ Tree.WritableAll [t]) :
    Tree.WritableAll (ids.filterMap d.tree?) := by
  refine Tree.writableAll_of_forall fun t ht => ?_
  obtain ⟨id, hid, ht⟩ := List.mem_filterMap.1 ht
  obtain ⟨t', ht', hwritable⟩ := h id hid
  rw [ht, Option.some.injEq] at ht'
  exact ht' ▸ hwritable

/-- The trees of a document that can be spelled can be written. -/
theorem Spelled.writableAll_forest (h : d.Spelled) (hgrown : d.Grown) :
    Tree.WritableAll d.forest := by
  have hwf := hgrown.wellFormed
  have hroot : ∀ {p id}, id ∈ d.children p → id ≠ root := fun hid =>
    Nat.ne_of_gt (Nat.zero_lt_of_lt (hwf.lt_of_mem_children hid).1)
  have htree : ∀ {id}, id < d.nodeCount →
      ∃ t, d.tree? id = some t ∧ (id ≠ root → Tree.WritableAll [t]) := by
    intro id hid
    refine hwf.exists_tree (motive := fun id t => id ≠ root → Tree.WritableAll [t]) ?_ ?_ ?_ hid
    · intro id owner e he hchildren hid
      obtain ⟨hname, hkeys⟩ := h id owner _ hid he
      refine .element hname ?_ e.nodup_keys ?_ .nil
      · exact fun a ha => hkeys a.1 (List.mem_map_of_mem ha)
      · refine writableAll_filterMap fun child hchild => ?_
        obtain ⟨t, ht, hwritable⟩ := hchildren child hchild
        exact ⟨t, ht, hwritable (hroot hchild)⟩
    · exact fun id owner s _ _ => .text .nil
    · intro id owner bytes hn hid
      obtain ⟨cs, hdecode, hmark⟩ := h id owner _ hid hn
      exact .cdata hdecode hmark .nil
  refine writableAll_filterMap fun id hid => ?_
  obtain ⟨t, ht, hwritable⟩ := htree (hwf.lt_of_mem_children hid).2
  exact ⟨t, ht, hwritable (hroot hid)⟩

/-- A document that can be written is scanned as its label, and as events that denote its trees in
    their normal form. -/
theorem Writable.scan_source (hwritable : d.Writable) (hgrown : d.Grown) (drop : Bool) :
    ∃ es, Denotes drop es (Tree.normal drop d.forest) ∧ (∀ label, declared label es = label) ∧
      scan (Utf8.encode d.source.toList)
        = ⟨.declaration (some d.encoding) :: (es ++ [.endDocument]), none⟩ := by
  have hforest := hwritable.spelled.writableAll_forest hgrown
  obtain ⟨es, hes, hlabel, hscan⟩ := hforest.scan_source hwritable.label drop
  rw [beforeQuote_eq_self_iff.2 hwritable.quote] at hscan
  exact ⟨es, hes, hlabel, by rw [source, String.toList_ofList, hscan]⟩

/-- **A document that can be written is read back.**  Whatever the options are, what it is written
    as can be read, and what comes out has its label, and its trees in their normal form: each run
    of texts in one, which is left out if it says nothing or is formatting that is not wanted.  The
    nodes of the new document are counted in pre-order. -/
theorem Reachable.parse_source (h : d.Reachable) (hwritable : d.Writable) (options : Options) :
    ∃ d', parse options (Utf8.encode d.source.toList) = .ok d' ∧
      d'.encoding = d.encoding ∧
      d'.forest = Tree.normal options.dropFormatting d.forest ∧
      d'.descendants root = List.range' 1 (d'.nodeCount - 1) := by
  obtain ⟨es, hes, hlabel, hscan⟩ := hwritable.scan_source h.grown options.dropFormatting
  have hdenotes : Denotes options.dropFormatting
      (.declaration (some d.encoding) :: (es ++ [.endDocument]))
      (Tree.normal options.dropFormatting d.forest) := by
    have hall := hes.append (.endDocument .nil)
    rw [List.append_nil] at hall
    exact .declaration hall
  have hsingle : (Tree.normal options.dropFormatting d.forest).countP Tree.isElement ≤ 1 := by
    rw [Tree.normal, Tree.countP_normalFrom, h.wellFormed.countP_forest]
    exact h.wellFormed.single
  have hroom : demand options.dropFormatting
      (.declaration (some d.encoding) :: (es ++ [.endDocument])) < maxNodes := by
    -- the normal form asks for no more nodes than the document has
    have hsize := Tree.sizeAll_normalFrom_le options.dropFormatting "" d.forest
    have hforest := h.wellFormed.sizeAll_forest
    have hcount := h.nodeCount_le
    rw [hdenotes.demand_eq, Tree.normal]
    rw [if_pos rfl] at hsize
    omega
  have hfinish := Builder.finish_eq_ok_of_denotes hdenotes hsingle hroom
  have hdeclared : declared options.encoding
      (.declaration (some d.encoding) :: (es ++ [.endDocument])) = d.encoding := by
    rw [declared, List.foldl_cons, List.foldl_append]
    exact hlabel d.encoding
  rw [hdeclared] at hfinish
  have hparse : parse options (Utf8.encode d.source.toList)
      = .ok (ofForest d.encoding (Tree.normal options.dropFormatting d.forest)) := by
    rw [parse, hscan]
    exact hfinish
  exact ⟨_, hparse, rfl, forest_ofForest _ hdenotes.settled,
    descendants_ofForest (Reachable.parsed hparse).wellFormed⟩

/-- Two texts side by side are read back as one, and a section keeps brackets that stand in front of
    its mark. -/
theorem parse_source_of_edits :
    let d := ((((ofEncoding "utf-8").edit (.addChild 0 "a" [("k", "<")])).edit
      (.appendText 1 "x")).edit (.appendText 1 "\n")).edit (.appendCdata 1 [93, 93])
    d.Reachable ∧ d.Writable ∧
      ∃ d', parse ⟨"latin-1", true⟩ (Utf8.encode d.source.toList) = .ok d' ∧
        d'.encoding = "utf-8" ∧
        d'.forest = [.element "a" [("k", "<")] [.text "x\n", .cdata [93, 93]]] := by
  intro d
  have hreachable : d.Reachable :=
    ((((Reachable.ofEncoding "utf-8").edited (.addChild 0 "a" [("k", "<")])).edited
      (.appendText 1 "x")).edited (.appendText 1 "\n")).edited (.appendCdata 1 [93, 93])
  have hnone : ∀ id, d.node? (id + 5) = none := fun id => rfl
  have helement : ∀ {id owner e}, id ≠ root → d.node? id = some ⟨owner, .element e⟩ →
      e.name = "a" ∧ e.attributes.keys = ["k"] := by
    intro id owner e hid hn
    match id, hn with
    | 0, _ => exact absurd rfl hid
    | 1, hn =>
      cases hn
      exact ⟨rfl, rfl⟩
    | id + 5, hn =>
      rw [hnone] at hn
      cases hn
  have hsection : ∀ {id owner bytes}, d.node? id = some ⟨owner, .cdata bytes⟩ →
      bytes = Utf8.encode [']', ']'] := by
    intro id owner bytes hn
    match id, hn with
    | 4, hn =>
      cases hn
      rfl
    | id + 5, hn =>
      rw [hnone] at hn
      cases hn
  have hwritable : d.Writable := by
    refine ⟨?name, ?key, ?contents, by decide, Text.splitAround?_eq_none_iff.1 (by decide)⟩
    case name =>
      intro id owner e hid hn
      rw [(helement hid hn).1]
      rfl
    case key =>
      intro id owner e hid hn key hkey
      rw [(helement hid hn).2, List.mem_singleton] at hkey
      rw [hkey]
      rfl
    case contents =>
      intro id owner bytes hn
      rw [hsection hn]
      exact ⟨_, Utf8.decode_encode _, Text.splitAround?_eq_none_iff.1 (by decide)⟩
  have hforest : d.forest
      = [.element "a" [("k", "<")] [.text "x", .text "\n", .cdata [93, 93]]] := by
    have htree := hreachable.wellFormed.tree?_element (show d.node? 1 = some ⟨some 0, _⟩ from rfl)
    have hchildren : (d.children 1).filterMap d.tree?
        = [.text "x", .text "\n", .cdata [93, 93]] := by
      show [2, 3, 4].filterMap d.tree? = _
      have hfirst : d.node? 2 = some ⟨some 1, .text "x"⟩ := rfl
      have hsecond : d.node? 3 = some ⟨some 1, .text "\n"⟩ := rfl
      have hthird : d.node? 4 = some ⟨some 1, .cdata [93, 93]⟩ := rfl
      rw [List.filterMap_cons_some (tree?_of_text hfirst),
        List.filterMap_cons_some (tree?_of_text hsecond),
        List.filterMap_cons_some (tree?_of_cdata hthird)]
      rfl
    rw [hchildren] at htree
    show [1].filterMap d.tree? = _
    rw [List.filterMap_cons_some htree]
    rfl
  obtain ⟨d', hparse, hencoding, hforest', -⟩ :=
    Reachable.parse_source hreachable hwritable ⟨"latin-1", true⟩
  rw [hforest] at hforest'
  exact ⟨hreachable, hwritable, d', hparse, hencoding, hforest'⟩

end Document

end XmlQuery
