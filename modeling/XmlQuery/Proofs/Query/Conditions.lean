import XmlQuery.Proofs.Decimal.Numeral
import XmlQuery.Proofs.Document.Correspondence
import XmlQuery.Proofs.Query.Brackets
import XmlQuery.Proofs.Query.Operators

namespace XmlQuery

/-!
# Conditions on attributes

A condition in a bracket compares an attribute with what is written behind an operator.  Asked of
all elements of a document it finds, in their order, those of which the comparison holds.  Texts are
compared as they are written but for outer blanks, even between quotes, and integers as numbers.

* `Query.Harmless` — the texts that mean themselves in a bracket and in a condition.
* `Query.Predicate.parse_text`, `Query.Predicate.parse_integer` — the conditions that are read back.
* `Document.attribute?` — the attribute of a node as it was given.
* `Document.query_condition` — a condition is asked of all elements.
* `Document.query_comparison` — a comparison is one of typed attributes.
* `Document.query_quoted` — a text between quotes finds the attributes that equal it without its
  outer blanks.
* `Document.query_integer` — integers are compared as integers, and nodes without the attribute are
  left out.
-/

open Decimal (Written)

/-! ### Characters of conditions -/

namespace Text

/-- The visible characters of ASCII are not blank. -/
theorem isBlank_of_visible {c : Char} (h : 0x20 < c.toNat) (h' : c.toNat < 0x7F) :
    isBlank c = false := by
  have hall : ∀ n < 0x7F, 0x20 < n → inRanges n blankRanges = false := by decide +kernel
  exact hall c.toNat h' h

/-- Every blank has one of some codes. -/
theorem exists_code_of_isBlank {c : Char} (h : isBlank c) :
    ∃ r ∈ blankRanges, ∃ k ≤ r.2 - r.1, c = Char.ofNat (r.1 + k) := by
  obtain ⟨r, hr, hlow, hhigh⟩ := inRanges_sound h
  refine ⟨r, hr, c.toNat - r.1, by omega, ?_⟩
  rw [Nat.add_sub_cancel' hlow, Char.ofNat_toNat]

/-- A text of no blanks has no outer ones. -/
theorem noOuterBlanks_of_forall {cs : List Char} (h : ∀ c ∈ cs, isBlank c = false) :
    NoOuterBlanks cs :=
  ⟨fun c hc => h c (List.mem_of_mem_head? hc), fun c hc => h c (List.mem_of_mem_getLast? hc)⟩

end Text

namespace Query

/-- A character of names is not blank. -/
theorem isBlank_of_classOf {c : Char} (hc : classOf c = .entityName) : Text.isBlank c = false := by
  have hall : ∀ r ∈ Text.blankRanges, ∀ k ≤ r.2 - r.1,
      classOf (Char.ofNat (r.1 + k)) ≠ .entityName := by
    decide +kernel
  rw [Bool.eq_false_iff]
  intro hblank
  obtain ⟨r, hr, k, hk, rfl⟩ := Text.exists_code_of_isBlank hblank
  exact hall r hr k hk hc

/-- The characters with a meaning of their own in a bracket or in a condition. -/
def specials : List Char :=
  Predicate.marks ++ ['!', '\\', '"', '\x27', ']']

/-- Whether a text holds no characters with a meaning of their own. -/
def Harmless (cs : List Char) : Prop :=
  ∀ c ∈ cs, c ∉ specials

namespace Harmless

variable {cs : List Char}

/-- Harmless texts mean themselves in a bracket. -/
theorem plain (h : Harmless cs) : ∀ c ∈ cs, isPlain c := by
  intro c hc
  have hspecial := h c hc
  simp only [specials, Predicate.marks, List.cons_append, List.nil_append, List.mem_cons,
    List.not_mem_nil, or_false, not_or] at hspecial
  simp [isPlain, hspecial]

/-- Harmless texts hold no marks of operators. -/
theorem unmarked (h : Harmless cs) : Predicate.Unmarked cs :=
  fun a ha hmem => h a hmem (List.mem_append_left _ ha)

/-- Harmless texts do not end with an exclamation mark. -/
theorem getLast?_ne (h : Harmless cs) : ∀ c ∈ cs.getLast?, c ≠ '!' := by
  rintro c hc rfl
  exact h _ (List.mem_of_mem_getLast? hc) (by decide)

/-- Harmless texts can be joined. -/
theorem append {ds : List Char} (h : Harmless cs) (hds : Harmless ds) : Harmless (cs ++ ds) :=
  List.forall_mem_append.2 ⟨h, hds⟩

/-- Names are harmless. -/
theorem of_name (h : ∀ c ∈ cs, classOf c = .entityName) : Harmless cs := by
  have hall : ∀ x ∈ specials, classOf x ≠ .entityName :=
    List.all_iff_forall_prop.1 (by decide)
  exact fun c hc hspecial => hall c hspecial (h c hc)

/-- Blanks are harmless. -/
theorem of_blanks (h : ∀ c ∈ cs, Text.isBlank c) : Harmless cs := by
  have hall : ∀ x ∈ specials, ¬ Text.isBlank x = true :=
    List.all_iff_forall_prop.1 (by decide)
  exact fun c hc hspecial => hall c hspecial (h c hc)

/-- Integers are harmless. -/
theorem of_written {x : Int} (h : Written cs x) : Harmless cs := by
  have hall : ∀ x ∈ specials, ¬ (x.isDigit = true ∨ x = '+' ∨ x = '-') :=
    List.all_iff_forall_prop.1 (by decide)
  exact fun c hc hspecial => hall c hspecial (h.isDigit_or_eq c hc)

end Harmless

/-- A written integer has no blanks. -/
theorem isBlank_of_written {cs : List Char} {x : Int} (h : Written cs x) :
    ∀ c ∈ cs, Text.isBlank c = false := by
  intro c hc
  rcases h.isDigit_or_eq c hc with hdigit | rfl | rfl
  · rw [Char.isDigit, Bool.and_eq_true, decide_eq_true_eq, decide_eq_true_eq] at hdigit
    have hlow : '0'.toNat ≤ c.toNat := hdigit.1
    have hhigh : c.toNat ≤ '9'.toNat := hdigit.2
    have hzero : '0'.toNat = 0x30 := rfl
    have hnine : '9'.toNat = 0x39 := rfl
    exact Text.isBlank_of_visible (by omega) (by omega)
  · decide
  · decide

/-- A text is left as it is exactly if it has no outer blanks. -/
theorem Predicate.trimmed_eq_self_iff {s : String} :
    trimmed s.toList = s ↔ Text.NoOuterBlanks s.toList := by
  rw [← Text.trim_eq_self_iff, trimmed, String.ext_iff, String.toList_ofList]

/-- A name is left as it is. -/
theorem trimmed_of_name {key : String} (h : ∀ c ∈ key.toList, classOf c = .entityName) :
    Predicate.trimmed key.toList = key :=
  Predicate.trimmed_eq_self_iff.2
    (Text.noOuterBlanks_of_forall fun c hc => isBlank_of_classOf (h c hc))

/-! ### Reading conditions -/

/-- Behind the mark of a condition plain characters are collected as they are. -/
theorem Pending.reads_condition {cs : List Char} (h : ∀ c ∈ cs, isPlain c) :
    (bracket ['@'] none false).Reads cs [] (bracket ('@' :: cs) none false) :=
  reads_plain h fun hnil => absurd hnil (List.cons_ne_nil '@' [])

namespace Predicate

variable {key : String}

/-- A name and a text without marks are read back, the text without its outer blanks. -/
theorem parse_text {text : String} (hkey : ∀ c ∈ key.toList, classOf c = .entityName)
    (htext : Unmarked text.toList) :
    parse (String.ofList (key.toList ++ ['='] ++ text.toList))
      = ⟨key, some (.equal, trimmed text.toList)⟩ := by
  have hname := Harmless.of_name hkey
  have hsplit := parse_written .equal hname.unmarked hname.getLast?_ne htext
  rwa [trimmed_of_name hkey] at hsplit

/-- A name and an integer are read back, whatever the operator is and whatever blanks stand around
    it. -/
theorem parse_integer (op : Comparison) {before after number : String} {m : Int}
    (hkey : ∀ c ∈ key.toList, classOf c = .entityName)
    (hbefore : ∀ c ∈ before.toList, Text.isBlank c) (hafter : ∀ c ∈ after.toList, Text.isBlank c)
    (hnumber : Written number.toList m) :
    parse (String.ofList ((key.toList ++ before.toList) ++ op.symbol.toList
        ++ (after.toList ++ number.toList)))
      = ⟨key, some (op, number)⟩ := by
  have hfront := (Harmless.of_name hkey).append (.of_blanks hbefore)
  have hbehind := Harmless.append (.of_blanks hafter) (.of_written hnumber)
  have hnone : ∀ c ∈ ([] : List Char), Text.isBlank c := fun c hc => absurd hc List.not_mem_nil
  have hkeyTrimmed := trimmed_append hnone hbefore
    (Text.noOuterBlanks_of_forall fun c hc => isBlank_of_classOf (hkey c hc))
  have hnumberTrimmed := trimmed_append hafter hnone
    (Text.noOuterBlanks_of_forall (isBlank_of_written hnumber))
  rw [List.nil_append] at hkeyTrimmed
  rw [List.append_nil] at hnumberTrimmed
  rw [parse_written op hfront.unmarked hfront.getLast?_ne hbehind.unmarked, hkeyTrimmed,
    hnumberTrimmed]

end Predicate

end Query

/-! ### Values -/

namespace Value

/-- An attribute that is a text is the text that was given. -/
theorem eq_of_ofAttribute_eq_text {s t : String} (h : ofAttribute s = text t) : t = s := by
  unfold ofAttribute at h
  split at h
  · cases h
  split at h
  · cases h
  split at h
  · cases h
  split at h
  · cases h
  · cases h
    rfl

/-- Texts are equal as values exactly if they are equal. -/
theorem satisfies_text (s comparand : String) :
    (text s).satisfies .equal comparand = decide (s = comparand) := by
  rw [Bool.eq_iff_iff, decide_eq_true_eq]
  show (compare s comparand == .eq) = true ↔ s = comparand
  rw [beq_iff_eq, Std.LawfulEqOrd.compare_eq_iff_eq]

/-- Whether an integer fits in 64 bits with a sign. -/
def Fits (x : Int) : Prop :=
  -2 ^ 63 ≤ x ∧ x < 2 ^ 63

instance (x : Int) : Decidable (Fits x) :=
  inferInstanceAs (Decidable (_ ∧ _))

/-- Exactly what writes an integer that fits is read as one. -/
theorem parseInteger?_eq_some_iff {s : String} {x : Int} :
    parseInteger? s = some x ↔ Written s.toList x ∧ Fits x :=
  Decimal.signed?_eq_some_iff (by decide)

/-- What writes an integer that fits is a value of its kind. -/
theorem ofAttribute_of_written {s : String} {x : Int} (h : Written s.toList x) (hx : Fits x) :
    ofAttribute s = integer x := by
  rw [ofAttribute, parseInteger?_eq_some_iff.2 ⟨h, hx⟩]

/-- An integer that is displayed is read back. -/
theorem ofAttribute_display_integer {x : Int} (hx : Fits x) :
    ofAttribute (display (integer x)) = integer x :=
  ofAttribute_of_written (Decimal.written_toString x) hx

/-- An integer is compared with the one that is written. -/
theorem satisfies_integer (op : Comparison) (x : Int) {comparand : String} {m : Int}
    (h : Written comparand.toList m) (hm : Fits m) :
    (integer x).satisfies op comparand = decide (op.Relates x m) := by
  rw [← Comparison.accepts_compare, satisfies, parseInteger?_eq_some_iff.2 ⟨h, hm⟩]
  rfl

end Value

/-! ### Conditions of all elements -/

namespace Document

/-- The attribute of a node as it was given. -/
def attribute? (d : Document) (id : Nat) (key : String) : Option String :=
  (d.node? id).bind fun n => n.attribute? key

variable {d : Document}

/-- Only nodes of a document have attributes. -/
theorem lt_nodeCount_of_attribute? {id : Nat} {key s : String} (h : d.attribute? id key = some s) :
    id < d.nodeCount := by
  obtain ⟨n, hn, -⟩ := Option.bind_eq_some_iff.1 h
  exact (Array.getElem?_eq_some_iff.1 hn).1

/-- A typed attribute of a node is the one that was given, read as a value. -/
theorem Grown.typedAttribute?_eq (h : d.Grown) {id : Nat} {n : Node} (hn : d.node? id = some n)
    (key : String) : n.typedAttribute? key = (n.attribute? key).map Value.ofAttribute := by
  obtain ⟨owner, content⟩ := n
  cases content with
  | element e => exact (h.inStep hn).get?_typedAttributes key
  | text s => rfl
  | cdata bytes => rfl

/-- A step to descendants and a wildcard find all elements below the document itself. -/
theorem query_elements (hd : d.Reachable) :
    d.query "//*" = .ok ((d.descendants root).filter d.isElement) := by
  have hcompile : Query.compile "//*" = .ok ⟨"//*",
      [.ofText .null "", .ofText .descendant "//", .ofText .wildcard ""]⟩ := by
    decide
  have hroot : d.contains root := by
    obtain ⟨e, he, -⟩ := hd.grown.node?_root
    rw [contains, he]
    rfl
  rw [query, Query.queryFrom_of_compile hcompile, Query.evaluate, if_pos hroot]
  show Except.ok (([root].flatMap d.descendants).filter d.isElement) = _
  rw [List.flatMap_singleton]

/-- **A condition is asked of all elements**, whatever is written for it in the bracket. -/
theorem query_condition (hd : d.Reachable) {written : String} {condition : List Char}
    (h : (Query.Pending.bracket ['@'] none false).Reads written.toList []
      (.bracket ('@' :: condition) none false)) :
    d.query ("//*[@" ++ written ++ "]")
      = .ok (((d.descendants root).filter d.isElement).filter fun id =>
          (d.node? id).any (Query.Predicate.parse (String.ofList condition)).accepts) := by
  have hreads : (Query.Pending.bracket [] none false).Reads ("@" ++ written).toList []
      (.bracket ('@' :: condition) none false) := by
    rw [String.toList_append]
    exact .silent rfl h
  have hquery : "//*[@" ++ written ++ "]" = "//*" ++ ("[" ++ ("@" ++ written) ++ "]") := by
    simp only [← String.append_assoc]
    rfl
  rw [hquery]
  exact Query.queryFrom_bracket hreads (query_elements hd)

/-- **A comparison is one of typed attributes**, and leaves out nodes without the attribute. -/
theorem query_comparison (hd : d.Reachable) {written key comparand : String} {op : Comparison}
    {condition : List Char}
    (h : (Query.Pending.bracket ['@'] none false).Reads written.toList []
      (.bracket ('@' :: condition) none false))
    (hparse : Query.Predicate.parse (String.ofList condition) = ⟨key, some (op, comparand)⟩) :
    d.query ("//*[@" ++ written ++ "]")
      = .ok ((d.descendants root).filter fun id =>
          d.isElement id &&
            (d.attribute? id key).any fun s => (Value.ofAttribute s).satisfies op comparand) := by
  have haccepts : ∀ id, (d.node? id).any (Query.Predicate.parse (String.ofList condition)).accepts
      = (d.attribute? id key).any fun s => (Value.ofAttribute s).satisfies op comparand := by
    intro id
    rw [hparse, attribute?]
    cases hn : d.node? id with
    | none => rfl
    | some n =>
      simp only [Option.any_some, Option.bind_some, Query.Predicate.accepts,
        hd.grown.typedAttribute?_eq hn]
      cases n.attribute? key <;> rfl
  rw [query_condition hd h, List.filter_filter]
  simp only [haccepts, Bool.and_comm]

/-- **A text between quotes finds the attributes that equal it without its outer blanks**, whatever
    else it holds.  That is the text as it is written if and only if it has no such blanks. -/
theorem query_quoted (hd : d.Reachable) {key text : String}
    (hkey : ∀ c ∈ key.toList, Query.classOf c = .entityName)
    (htext : ∀ c ∈ ['\x27', '\\', '=', '<', '>'], c ∉ text.toList)
    (hvalues : ∀ id s, d.attribute? id key = some s → ∃ t, Value.ofAttribute s = .text t) :
    d.query ("//*[@" ++ key ++ "=\x27" ++ text ++ "\x27]")
        = .ok ((d.descendants root).filter fun id =>
            d.isElement id ∧ d.attribute? id key = some (Query.Predicate.trimmed text.toList)) ∧
      (Query.Predicate.trimmed text.toList = text ↔ Text.NoOuterBlanks text.toList) := by
  have hquoted : ∀ c ∈ text.toList, c ≠ '\x27' ∧ c ≠ '\\' := by
    intro c hc
    constructor
    · rintro rfl
      exact htext _ (by decide) hc
    · rintro rfl
      exact htext _ (by decide) hc
  have hmarks : ∀ a ∈ Query.Predicate.marks, a ∈ ['\x27', '\\', '=', '<', '>'] :=
    List.all_iff_forall_prop.1 (by decide)
  have hparse := Query.Predicate.parse_text hkey fun a ha => htext a (hmarks a ha)
  -- the key and the operator are plain, and the quotes keep the text as it is
  have hplain : ∀ c ∈ key.toList ++ ['='], Query.isPlain c :=
    List.forall_mem_append.2 ⟨(Query.Harmless.of_name hkey).plain, List.all_eq_true.1 (by decide)⟩
  have hreads : (Query.Pending.bracket ['@'] none false).Reads
      (key ++ "=\x27" ++ text ++ "\x27").toList []
      (.bracket ('@' :: (key.toList ++ ['='] ++ text.toList)) none false) := by
    have hboth := (Query.Pending.reads_condition hplain).append
      (Query.Pending.reads_quoted _ (.inr rfl) hquoted)
    simpa using hboth
  have hwritten : "//*[@" ++ key ++ "=\x27" ++ text ++ "\x27]"
      = "//*[@" ++ (key ++ "=\x27" ++ text ++ "\x27") ++ "]" := by
    rw [← String.toList_inj]
    simp
  refine ⟨?_, Query.Predicate.trimmed_eq_self_iff⟩
  rw [hwritten, query_comparison hd hreads hparse]
  refine congrArg Except.ok (List.filter_congr fun id _ => ?_)
  rw [Bool.decide_and, Bool.decide_eq_true]
  cases hgiven : d.attribute? id key with
  | none => simp
  | some s =>
    obtain ⟨t, ht⟩ := hvalues id s hgiven
    obtain rfl := Value.eq_of_ofAttribute_eq_text ht
    simp [ht, Value.satisfies_text]

/-- Blanks inside a text and closing brackets are read as they are written. -/
theorem query_quoted_inside :
    let d := ((Document.ofEncoding "utf-8").edit (.addChild 0 "r" [("k", "x  y]")])).edit
      (.addChild 1 "a" [("k", "x")])
    d.Reachable ∧ (∀ c ∈ "k".toList, Query.classOf c = .entityName) ∧
      (∀ c ∈ ['\x27', '\\', '=', '<', '>'], c ∉ "x  y]".toList) ∧
      (∀ id s, d.attribute? id "k" = some s → ∃ t, Value.ofAttribute s = .text t) ∧
      Text.NoOuterBlanks "x  y]".toList ∧ d.query "//*[@k=\x27x  y]\x27]" = .ok [1] := by
  intro d
  have hd : d.Reachable :=
    ((Reachable.ofEncoding "utf-8").edited (.addChild 0 "r" [("k", "x  y]")])).edited
      (.addChild 1 "a" [("k", "x")])
  have hkey : ∀ c ∈ "k".toList, Query.classOf c = .entityName :=
    List.all_iff_forall_prop.1 (by decide)
  have htext : ∀ c ∈ ['\x27', '\\', '=', '<', '>'], c ∉ "x  y]".toList :=
    List.all_iff_forall_prop.1 (by decide)
  have hvalues : ∀ id s, d.attribute? id "k" = some s → ∃ t, Value.ofAttribute s = .text t := by
    intro id s hs
    have hid : id < 3 := lt_nodeCount_of_attribute? hs
    match id, hid, hs with
    | 1, _, hs =>
      cases hs
      exact ⟨_, rfl⟩
    | 2, _, hs =>
      cases hs
      exact ⟨_, rfl⟩
  obtain ⟨hquery, htrimmed⟩ := query_quoted hd hkey htext hvalues
  have hfree : Text.NoOuterBlanks "x  y]".toList := Text.trim_eq_self_iff.1 (by decide)
  refine ⟨hd, hkey, htext, hvalues, hfree, ?_⟩
  rw [htrimmed.2 hfree] at hquery
  have hfound : ((d.descendants root).filter fun id =>
      d.isElement id ∧ d.attribute? id "k" = some "x  y]") = [1] := by decide
  rw [hfound] at hquery
  exact hquery

/-- A blank in front of a text between quotes is lost, and the attribute that equals the text as it
    is written is not found. -/
theorem exists_query_quoted_missed :
    let d := (Document.ofEncoding "utf-8").edit (.addChild 0 "r" [("a", " x")])
    d.Reachable ∧ (∀ id s, d.attribute? id "a" = some s → ∃ t, Value.ofAttribute s = .text t) ∧
      Value.ofAttribute " x" = .text " x" ∧ 1 ∈ d.descendants root ∧ d.isElement 1 ∧
      d.attribute? 1 "a" = some " x" ∧ d.query "//*[@a=\x27 x\x27]" = .ok [] := by
  intro d
  have hd : d.Reachable := (Reachable.ofEncoding "utf-8").edited (.addChild 0 "r" [("a", " x")])
  have hvalues : ∀ id s, d.attribute? id "a" = some s → ∃ t, Value.ofAttribute s = .text t := by
    intro id s hs
    have hid : id < 2 := lt_nodeCount_of_attribute? hs
    match id, hid, hs with
    | 1, _, hs =>
      cases hs
      exact ⟨_, rfl⟩
  exact ⟨hd, hvalues, rfl, by decide, by decide, rfl, by decide⟩

/-- **Integers are compared as integers**, whatever blanks stand around the operator.  A node
    without the attribute is left out whatever the operator is. -/
theorem query_integer (hd : d.Reachable) {key : String}
    (hkey : ∀ c ∈ key.toList, Query.classOf c = .entityName) (op : Comparison)
    {before after number : String} {m : Int} (hbefore : ∀ c ∈ before.toList, Text.isBlank c)
    (hafter : ∀ c ∈ after.toList, Text.isBlank c) (hnumber : Written number.toList m)
    (hm : Value.Fits m) {value : Nat → Int}
    (hvalues : ∀ id s, d.attribute? id key = some s →
      Written s.toList (value id) ∧ Value.Fits (value id)) :
    d.query ("//*[@" ++ key ++ before ++ op.symbol ++ after ++ number ++ "]")
      = .ok ((d.descendants root).filter fun id =>
          d.isElement id ∧ (d.attribute? id key).isSome ∧ op.Relates (value id) m) := by
  have hfront := (Query.Harmless.of_name hkey).append (.of_blanks hbefore)
  have hbehind := Query.Harmless.append (.of_blanks hafter) (.of_written hnumber)
  have hsymbol : ∀ c ∈ op.symbol.toList, Query.isPlain c :=
    List.all_eq_true.1 (by cases op <;> decide)
  have hplain := List.forall_mem_append.2
    ⟨List.forall_mem_append.2 ⟨hfront.plain, hsymbol⟩, hbehind.plain⟩
  have hreads : (Query.Pending.bracket ['@'] none false).Reads
      (key ++ before ++ op.symbol ++ after ++ number).toList []
      (.bracket ('@' :: ((key.toList ++ before.toList) ++ op.symbol.toList
        ++ (after.toList ++ number.toList))) none false) := by
    have hcontents := Query.Pending.reads_condition hplain
    simpa using hcontents
  have hparse := Query.Predicate.parse_integer op hkey hbefore hafter hnumber
  have hwritten : "//*[@" ++ key ++ before ++ op.symbol ++ after ++ number ++ "]"
      = "//*[@" ++ (key ++ before ++ op.symbol ++ after ++ number) ++ "]" := by
    simp only [String.append_assoc]
  rw [hwritten, query_comparison hd hreads hparse]
  refine congrArg Except.ok (List.filter_congr fun id _ => ?_)
  rw [Bool.decide_and, Bool.decide_eq_true]
  cases hgiven : d.attribute? id key with
  | none => simp
  | some s =>
    obtain ⟨hs, hfits⟩ := hvalues id s hgiven
    simp [Value.ofAttribute_of_written hs hfits, Value.satisfies_integer op _ hnumber hm]

/-- Both limits of 64 bits are compared as they are, and a node without the attribute is left out
    although its value is not the one that is written. -/
theorem query_integer_limits :
    let d := (((Document.ofEncoding "utf-8").edit
      (.addChild 0 "r" [("n", "-9223372036854775808")])).edit
      (.addChild 1 "a" [("n", "9223372036854775807")])).edit (.addChild 1 "b" [])
    let value : Nat → Int := fun id => if id = 1 then -2 ^ 63 else 2 ^ 63 - 1
    d.Reachable ∧ (∀ c ∈ "n".toList, Query.classOf c = .entityName) ∧
      (∀ c ∈ " ".toList, Text.isBlank c) ∧ Written "9223372036854775807".toList (2 ^ 63 - 1) ∧
      Value.Fits (2 ^ 63 - 1) ∧
      (∀ id s, d.attribute? id "n" = some s → Written s.toList (value id) ∧ Value.Fits (value id)) ∧
      d.query "//*[@n != 9223372036854775807]" = .ok [1] := by
  intro d value
  have hd : d.Reachable := (((Reachable.ofEncoding "utf-8").edited
    (.addChild 0 "r" [("n", "-9223372036854775808")])).edited
    (.addChild 1 "a" [("n", "9223372036854775807")])).edited (.addChild 1 "b" [])
  have hkey : ∀ c ∈ "n".toList, Query.classOf c = .entityName :=
    List.all_iff_forall_prop.1 (by decide)
  have hblank : ∀ c ∈ " ".toList, Text.isBlank c := List.all_eq_true.1 (by decide)
  obtain ⟨hlowest, hlowestFits⟩ := Value.parseInteger?_eq_some_iff.1
    (show Value.parseInteger? "-9223372036854775808" = some (-2 ^ 63) by decide)
  obtain ⟨hhighest, hfits⟩ := Value.parseInteger?_eq_some_iff.1
    (show Value.parseInteger? "9223372036854775807" = some (2 ^ 63 - 1) by decide)
  have hvalues : ∀ id s, d.attribute? id "n" = some s →
      Written s.toList (value id) ∧ Value.Fits (value id) := by
    intro id s hs
    have hid : id < 4 := lt_nodeCount_of_attribute? hs
    match id, hid, hs with
    | 1, _, hs =>
      cases hs
      exact ⟨hlowest, hlowestFits⟩
    | 2, _, hs =>
      cases hs
      exact ⟨hhighest, hfits⟩
    | 3, _, hs => cases hs
  have hquery := query_integer hd hkey .notEqual hblank hblank hhighest hfits hvalues
  have hfound : ((d.descendants root).filter fun id => d.isElement id ∧
      (d.attribute? id "n").isSome ∧ Comparison.notEqual.Relates (value id) (2 ^ 63 - 1))
        = [1] := by
    decide
  rw [hfound] at hquery
  exact ⟨hd, hkey, hblank, hhighest, hfits, hvalues, hquery⟩

end Document

end XmlQuery
