import XmlQuery.Proofs.Document.Spelling

namespace XmlQuery

/-!
# Saving and reading again

What was read is written so that it can be read again.  Its trees come back in their normal form,
but its label is written as it is, between double quotes, and comes back up to the first such quote
in it.

* `Document.parse_of_denotes` — what is scanned as events that nest is read as their trees.
* `Tree.WritableAll.exists_parse_source` — trees that can be written are read back, with what is
  left of the label.
* `Document.Spelled.exists_parse_source` — hence a document that can be spelled is.
* `Document.Spelled.exists_settled` — what comes of it is in normal form, and is saved in the same
  way ever after.
* `Document.parse_source_encoding` — the label of a document that was read comes back exactly if it
  holds no double quote.
-/

open Markup Nesting

/-- Bytes that are scanned as events that nest are read as the trees that these denote. -/
theorem Document.parse_of_denotes {options : Options} {bytes : List UInt8} {es : List Event}
    {ts : List Tree} (hscan : scan bytes = ⟨es, none⟩) (hes : Denotes options.dropFormatting es ts)
    (hsingle : ts.countP Tree.isElement ≤ 1) (hroom : Tree.sizeAll ts < maxNodes) :
    parse options bytes = .ok (ofForest (declared options.encoding es) ts) := by
  rw [← hes.demand_eq] at hroom
  rw [parse, hscan]
  exact Builder.finish_eq_ok_of_denotes hes hsingle hroom

/-- **Trees that can be written are read back** in their normal form, whatever the options are.
    What is left of the label is what stands before the first quote in it. -/
theorem Tree.WritableAll.exists_parse_source {ts : List Tree} (h : WritableAll ts) {label : String}
    (hend : ¬ ['?', '>'] <:+: label.toList) (hsingle : ts.countP isElement ≤ 1)
    (hroom : sizeAll ts < Document.maxNodes) (options : Options) :
    ∃ d, Document.parse options (Utf8.encode (Document.declarationSource label ++ sourceAll ts))
        = .ok d ∧
      d.encoding = beforeQuote label ∧ d.forest = normal options.dropFormatting ts := by
  obtain ⟨es, hes, hlabel, hscan⟩ := h.scan_source hend options.dropFormatting
  have hdenotes : Denotes options.dropFormatting
      (.declaration (some (beforeQuote label)) :: (es ++ [.endDocument]))
      (normal options.dropFormatting ts) := by
    have hall := hes.append (.endDocument .nil)
    rw [List.append_nil] at hall
    exact .declaration hall
  have hdeclared : declared options.encoding
      (.declaration (some (beforeQuote label)) :: (es ++ [.endDocument])) = beforeQuote label := by
    rw [declared, List.foldl_cons, List.foldl_append]
    exact hlabel (beforeQuote label)
  have hsize := sizeAll_normalFrom_le options.dropFormatting "" ts
  rw [if_pos rfl, Nat.zero_add] at hsize
  have hparse := Document.parse_of_denotes hscan hdenotes
    (by rwa [normal, countP_normalFrom]) (Nat.lt_of_le_of_lt hsize hroom)
  exact ⟨_, hparse, hdeclared, Document.forest_ofForest _ hes.settled⟩

namespace Document

/-- **A document that can be spelled is read back**, with its trees in their normal form, and with
    its label up to the first quote. -/
theorem Spelled.exists_parse_source {d : Document} (h : d.Spelled) (hreachable : d.Reachable)
    (hend : ¬ ['?', '>'] <:+: d.encoding.toList) (options : Options) :
    ∃ d', parse options (Utf8.encode d.source.toList) = .ok d' ∧
      d'.encoding = beforeQuote d.encoding ∧
      d'.forest = Tree.normal options.dropFormatting d.forest := by
  have hwf := hreachable.wellFormed
  have hsingle : d.forest.countP Tree.isElement ≤ 1 := by
    rw [hwf.countP_forest]
    exact hwf.single
  have hroom : Tree.sizeAll d.forest < maxNodes := by
    have hsize := hwf.sizeAll_forest
    have hcount := hreachable.nodeCount_le
    omega
  rw [source, String.toList_ofList]
  exact (h.writableAll_forest hreachable.grown).exists_parse_source hend hsingle hroom options

/-- What stands before the first quote of a label holds no quote, and does not end a declaration
    if the label does not. -/
theorem beforeQuote_settled {label : String} (hend : ¬ ['?', '>'] <:+: label.toList) :
    beforeQuote (beforeQuote label) = beforeQuote label ∧
      ¬ ['?', '>'] <:+: (beforeQuote label).toList := by
  have hlabel : (beforeQuote label).toList = label.toList.takeWhile (· != '"') :=
    String.toList_ofList
  constructor
  · rw [beforeQuote_eq_self_iff, hlabel]
    intro hquote
    have hne := List.mem_takeWhile_imp hquote
    simp at hne
  · rw [hlabel]
    exact fun hmark => hend (hmark.trans (List.takeWhile_prefix _).isInfix)

/-- **Saving and reading settles a document.**  What comes of a document that can be spelled is in
    normal form, and when it is saved and read again, it is saved as before. -/
theorem Spelled.exists_settled {d : Document} (h : d.Spelled) (hreachable : d.Reachable)
    (hend : ¬ ['?', '>'] <:+: d.encoding.toList) (options : Options) :
    ∃ d', parse options (Utf8.encode d.source.toList) = .ok d' ∧
      Tree.IsNormal options.dropFormatting d'.forest ∧
      ∃ d'', parse options (Utf8.encode d'.source.toList) = .ok d'' ∧ d''.source = d'.source := by
  obtain ⟨d', hparse, hencoding, hforest⟩ := h.exists_parse_source hreachable hend options
  have hnormal : Tree.IsNormal options.dropFormatting d'.forest :=
    hforest ▸ Tree.isNormal_normal _ _
  obtain ⟨hlabel, hend'⟩ := beforeQuote_settled hend
  rw [← hencoding] at hlabel hend'
  obtain ⟨d'', hagain, hencoding', hforest'⟩ :=
    (spelled_of_parse hparse).exists_parse_source (.parsed hparse) hend' options
  refine ⟨d', hparse, hnormal, d'', hagain, ?_⟩
  rw [source, source, hencoding', hlabel, hforest', hnormal.normal_eq]

/-- The declaration of a label tells the label. -/
theorem declarationSource_inj {label label' : String} :
    declarationSource label = declarationSource label' ↔ label = label' := by
  refine ⟨fun h => ?_, congrArg declarationSource⟩
  unfold declarationSource at h
  exact String.toList_inj.1 (List.append_cancel_left (List.append_cancel_right h))

/-- **What was read can be saved and read again, and of its label the part before the first double
    quote comes back.**  So the label is the same again, and so is the declaration in front of the
    document, exactly if there is no such quote in it. -/
theorem parse_source_encoding {bytes : List UInt8} {d : Document} (h : parse {} bytes = .ok d) :
    ∃ d', parse {} (Utf8.encode d.source.toList) = .ok d' ∧
      d'.encoding = beforeQuote d.encoding ∧
      (d'.encoding = d.encoding ↔ '"' ∉ d.encoding.toList) ∧
      (declarationSource d'.encoding = declarationSource d.encoding ↔ '"' ∉ d.encoding.toList) := by
  have hend : ¬ ['?', '>'] <:+: d.encoding.toList :=
    label_of_parse (Text.splitAround?_eq_none_iff.1 (by decide)) h
  obtain ⟨d', hparse, hencoding, -⟩ :=
    (spelled_of_parse h).exists_parse_source (.parsed h) hend {}
  have hsame : d'.encoding = d.encoding ↔ '"' ∉ d.encoding.toList := by
    rw [hencoding, beforeQuote_eq_self_iff]
  exact ⟨d', hparse, hencoding, hsame, declarationSource_inj.trans hsame⟩

/-- Of two declarations the second one counts, and its label comes back. -/
theorem parse_source_encoding_declared_twice :
    let bytes := Utf8.encode
      "<?xml version='1.0' encoding='a\"b'?><?xml version='1.0' encoding='latin-1'?><r/>".toList
    ∃ d, parse {} bytes = .ok d ∧ d.encoding = "latin-1" ∧
      ∃ d', parse {} (Utf8.encode d.source.toList) = .ok d' ∧ d'.encoding = "latin-1" := by
  intro bytes
  have hscan : scan bytes = ⟨[.declaration (some "a\"b"), .declaration (some "latin-1"),
      .startElement "r" [], .endElement "r", .endDocument], none⟩ := by decide +kernel
  have hdenotes : Denotes true [.declaration (some "a\"b"), .declaration (some "latin-1"),
      .startElement "r" [], .endElement "r", .endDocument] [.element "r" [] []] :=
    .declaration (.declaration (.element .nil (.endDocument .nil)))
  have hparse : parse {} bytes = .ok (ofForest "latin-1" [.element "r" [] []]) :=
    parse_of_denotes hscan hdenotes (by decide) (by decide)
  obtain ⟨d', hagain, -, hsame, -⟩ := parse_source_encoding hparse
  exact ⟨_, hparse, rfl, d', hagain, hsame.2 (by decide)⟩

/-- A label in single quotes may hold a double quote.  It is written between double quotes, and only
    the part before the one that it holds is read back. -/
theorem exists_parse_source_encoding_ne :
    let bytes := Utf8.encode "<?xml version='1.0' encoding='a\"b'?><r/>".toList
    ∃ d d', parse {} bytes = .ok d ∧ parse {} (Utf8.encode d.source.toList) = .ok d' ∧
      d.encoding = "a\"b" ∧ d'.encoding = "a" := by
  intro bytes
  have hscan : scan bytes = ⟨[.declaration (some "a\"b"), .startElement "r" [], .endElement "r",
      .endDocument], none⟩ := by decide +kernel
  have hdenotes : Denotes true [.declaration (some "a\"b"), .startElement "r" [],
      .endElement "r", .endDocument] [.element "r" [] []] :=
    .declaration (.element .nil (.endDocument .nil))
  have hparse : parse {} bytes = .ok (ofForest "a\"b" [.element "r" [] []]) :=
    parse_of_denotes hscan hdenotes (by decide) (by decide)
  obtain ⟨d', hagain, hencoding, -⟩ := (spelled_of_parse hparse).exists_parse_source
    (.parsed hparse) (Text.splitAround?_eq_none_iff.1 (by decide)) {}
  have hlabel : beforeQuote "a\"b" = "a" := by decide
  exact ⟨_, d', hparse, hagain, rfl, hencoding.trans hlabel⟩

end Document

end XmlQuery
