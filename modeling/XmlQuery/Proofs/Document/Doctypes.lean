import Mathlib.Data.Bool.AllAny
import XmlQuery.Proofs.Document.Reloading
import XmlQuery.Proofs.Markup.Faults

namespace XmlQuery

/-!
# Comments in document type declarations

Nothing between the brackets of a document type declaration is looked at as a comment, and the
quotes and brackets in a comment count like any others.  So it hangs on these whether a declaration
with comments in it is passed over as a whole.

* `Markup.KeepsEnd`, `Markup.HidesEnd`, `Markup.EndsEarly` — what a text between the brackets does
  to the end of its declaration.
* `Markup.keepsEnd_or`, `Markup.keepsEnd_of_notMem` — it does one of these, and a text without
  quotes and brackets leaves the end where it is.
* `Markup.readToken_doctypeText_iff` — which declarations are taken off as a whole.
* `Document.parse_doctype` — what is read of a document behind a declaration with comments in it.
-/

namespace Markup

/-- A comment as it is written. -/
def commentText (contents : List Char) : List Char :=
  "<!--".toList ++ (contents ++ "-->".toList)

/-- A document type declaration as it is written behind its `<`, with a text between its
    brackets. -/
def doctypeText (inside : List Char) : List Char :=
  "!DOCTYPE r [".toList ++ (inside ++ "]>".toList)

/-- What encloses the places behind the bracket that a declaration opens. -/
def bracketed : Enclosure := .brackets 1

/-- Whether a declaration with a text between its brackets ends where it is meant to. -/
structure KeepsEnd (inside : List Char) : Prop where
  notEarly : ¬ EndsIn bracketed inside
  free : bracketed.behind (inside ++ [']']) = .free

instance (inside : List Char) : Decidable (KeepsEnd inside) :=
  decidable_of_iff (¬ EndsIn bracketed inside ∧ bracketed.behind (inside ++ [']']) = .free)
    ⟨fun h => ⟨h.1, h.2⟩, fun h => ⟨h.notEarly, h.free⟩⟩

/-- Whether a text between the brackets of a declaration leaves a quote or a bracket open, so that
    the end behind it is none. -/
structure HidesEnd (inside : List Char) : Prop where
  notEarly : ¬ EndsIn bracketed inside
  notFree : bracketed.behind (inside ++ [']']) ≠ .free

/-- Whether a declaration with a text between its brackets ends in that text, and `more` of it is
    left behind. -/
def EndsEarly (inside more : List Char) : Prop :=
  ∃ front, inside = front ++ '>' :: more ∧ bracketed.behind front = .free ∧
    ¬ EndsIn bracketed front

/-- **A text without quotes and brackets leaves the end where it is.** -/
theorem keepsEnd_of_notMem {inside : List Char} (h : ∀ c ∈ inside, c ∉ Enclosure.marks) :
    KeepsEnd inside where
  notEarly := by
    rintro ⟨front, more, rfl, hfree⟩
    rw [Enclosure.behind_of_notMem fun c hc => h c (List.mem_append_left _ hc)] at hfree
    cases hfree
  free := by
    rw [Enclosure.behind_append, Enclosure.behind_of_notMem h]
    rfl

/-- Comments without quotes and brackets are written without them. -/
theorem notMem_marks_of_comments {comments : List (List Char)}
    (h : ∀ comment ∈ comments, ∀ c ∈ comment, c ∉ Enclosure.marks) :
    ∀ c ∈ comments.flatMap commentText, c ∉ Enclosure.marks := by
  intro c hc
  obtain ⟨comment, hcomment, hc⟩ := List.mem_flatMap.1 hc
  have hopen : ∀ c ∈ "<!--".toList, c ∉ Enclosure.marks := List.all_iff_forall_prop.1 (by decide)
  have hclose : ∀ c ∈ "-->".toList, c ∉ Enclosure.marks := List.all_iff_forall_prop.1 (by decide)
  rw [commentText, List.mem_append, List.mem_append] at hc
  rcases hc with hc | hc | hc
  · exact hopen c hc
  · exact h comment hcomment c hc
  · exact hclose c hc

/-! ### Reading a declaration -/

variable {inside rest : List Char}

/-- A declaration is read up to the first free `>` behind the bracket that it opens. -/
theorem readToken_doctypeText (inside rest : List Char) :
    readToken '<' (doctypeText inside ++ rest)
      = (skipDoctype 1 none (inside ++ ']' :: '>' :: rest)).elim
        (.error (.unterminated .doctype ('<' :: (doctypeText inside ++ rest))))
        (fun after => .ok (.doctype, after)) := by
  have hfront : "!DOCTYPE r [".toList = '!' :: ("DOCTYPE r ".toList ++ ['[']) := by decide
  have hback : "]>".toList = [']', '>'] := by decide
  have htext : doctypeText inside ++ rest
      = '!' :: ("DOCTYPE r ".toList ++ '[' :: (inside ++ ']' :: '>' :: rest)) := by
    unfold doctypeText
    rw [hfront, hback]
    -- the name is not looked into
    generalize "DOCTYPE r ".toList = name
    simp only [List.cons_append, List.append_assoc, List.nil_append]
  have hplain : ∀ c ∈ "DOCTYPE r ".toList, c ∉ Enclosure.marks :=
    List.all_iff_forall_prop.1 (by decide)
  have hnone : ¬ EndsIn .free "DOCTYPE r ".toList := not_endsIn_of_notMem (by decide)
  have hskip := skipDoctype_append hnone ('[' :: (inside ++ ']' :: '>' :: rest))
  rw [Enclosure.behind_of_notMem hplain] at hskip
  have hopen : skipDoctype 0 none ("DOCTYPE r ".toList ++ '[' :: (inside ++ ']' :: '>' :: rest))
      = skipDoctype 1 none (inside ++ ']' :: '>' :: rest) := hskip
  rw [readToken, if_pos rfl, htext, readMarkup_doctype (by simp) (by simp), hopen]
  cases skipDoctype 1 none (inside ++ ']' :: '>' :: rest) with
  | none => rfl
  | some after => rfl

/-- Where nothing is opened or closed, no `>` becomes free. -/
theorem not_endsIn_of_marks {e : Enclosure} {cs : List Char} (he : e ≠ .free)
    (h : ∀ c ∈ cs, c ∉ Enclosure.marks) : ¬ EndsIn e cs := by
  rintro ⟨front, more, rfl, hfree⟩
  rw [Enclosure.behind_of_notMem fun c hc => h c (List.mem_append_left _ hc)] at hfree
  exact he hfree

/-- A bracket does not end a declaration. -/
theorem endsIn_bracket_iff : EndsIn bracketed (inside ++ [']']) ↔ EndsIn bracketed inside := by
  rw [endsIn_append_iff, or_iff_left (not_endsIn_of_notMem (by decide))]

/-- A text does one of three things to the end of its declaration. -/
theorem keepsEnd_or (inside : List Char) :
    KeepsEnd inside ∨ HidesEnd inside ∨ ∃ more, EndsEarly inside more := by
  by_cases hends : EndsIn bracketed inside
  · right; right
    cases hskip : skipDoctype bracketed.depth bracketed.quote inside with
    | none => exact absurd hends (skipDoctype_eq_none_iff.1 hskip)
    | some more => exact ⟨more, skipDoctype_eq_some_iff.1 hskip⟩
  · by_cases hfree : bracketed.behind (inside ++ [']']) = .free
    · exact .inl ⟨hends, hfree⟩
    · exact .inr (.inl ⟨hends, hfree⟩)

/-- **A declaration is taken off as a whole exactly if the text between its brackets keeps its
    end.** -/
theorem readToken_doctypeText_iff :
    readToken '<' (doctypeText inside ++ rest) = .ok (.doctype, rest) ↔ KeepsEnd inside := by
  have hskip : readToken '<' (doctypeText inside ++ rest) = .ok (.doctype, rest) ↔
      skipDoctype bracketed.depth bracketed.quote (inside ++ ']' :: '>' :: rest) = some rest := by
    rw [readToken_doctypeText]
    show (skipDoctype 1 none (inside ++ ']' :: '>' :: rest)).elim _ _ = _ ↔ skipDoctype 1 none _ = _
    cases skipDoctype 1 none (inside ++ ']' :: '>' :: rest) <;> simp
  rw [hskip, skipDoctype_eq_some_iff, List.append_cons]
  constructor
  · rintro ⟨front, heq, hfree, hfirst⟩
    cases List.append_cancel_right heq
    exact ⟨mt endsIn_bracket_iff.2 hfirst, hfree⟩
  · intro h
    exact ⟨inside ++ [']'], rfl, h.free, mt endsIn_bracket_iff.1 h.notEarly⟩

/-- Where the end of a declaration is hidden, it does not end behind it, if no quote or bracket
    follows. -/
theorem HidesEnd.readToken_doctypeText (h : HidesEnd inside)
    (hrest : ∀ c ∈ rest, c ∉ Enclosure.marks) :
    readToken '<' (doctypeText inside ++ rest)
      = .error (.unterminated .doctype ('<' :: (doctypeText inside ++ rest))) := by
  have hends : ¬ EndsIn bracketed (inside ++ ']' :: '>' :: rest) := by
    rw [List.append_cons, endsIn_append_iff, endsIn_bracket_iff, not_or]
    exact ⟨h.notEarly, not_endsIn_of_marks h.notFree (List.forall_mem_cons.2 ⟨by decide, hrest⟩)⟩
  have hskip : skipDoctype 1 none (inside ++ ']' :: '>' :: rest) = none :=
    skipDoctype_eq_none_iff.2 hends
  rw [Markup.readToken_doctypeText, hskip]
  rfl

/-- Where a declaration ends early, it is the rest of the text that is read next. -/
theorem EndsEarly.readToken_doctypeText {more : List Char} (h : EndsEarly inside more)
    (rest : List Char) :
    readToken '<' (doctypeText inside ++ rest) = .ok (.doctype, more ++ ']' :: '>' :: rest) := by
  obtain ⟨front, rfl, hfree, hfirst⟩ := h
  have hskip : skipDoctype 1 none ((front ++ '>' :: more) ++ ']' :: '>' :: rest)
      = some (more ++ ']' :: '>' :: rest) :=
    skipDoctype_eq_some_iff.2 ⟨front, by rw [List.append_assoc, List.cons_append], hfree, hfirst⟩
  rw [Markup.readToken_doctypeText, hskip]
  rfl

/-- A declaration that is taken off is no event. -/
theorem scanText_doctype {cs : List Char} (h : readToken '<' cs = .ok (.doctype, rest)) :
    scanText ('<' :: cs) = scanText rest := by
  rw [scanText_token h]
  rfl

/-- A declaration that does not end is met at its place. -/
theorem scan_doctype_unterminated {cs : List Char}
    (h : readToken '<' cs = .error (.unterminated .doctype ('<' :: cs))) :
    scan (Utf8.encode ('<' :: cs)) = ⟨[], some (.unterminated .doctype 0)⟩ := by
  have htext : scanText ('<' :: cs) = ([], some (.unterminated .doctype ('<' :: cs))) := by
    rw [scanText_cons, h]
  rw [scan_encode_markup, htext]
  simp only [Option.map_some, Fault.toError, Nat.sub_self]

end Markup

namespace Document

open Markup Nesting

/-- What is read of a document that begins with markup hangs on the events of its text, if there is
    nothing wrong with it. -/
theorem parse_congr {cs cs' : List Char} (options : Options)
    (h : scanText ('<' :: cs) = scanText ('<' :: cs')) (hfine : (scanText ('<' :: cs')).2 = none) :
    parse options (Utf8.encode ('<' :: cs)) = parse options (Utf8.encode ('<' :: cs')) := by
  simp only [parse, scan_encode_markup, h, hfine, Option.map_none]

/-- **Comments between the brackets of a document type declaration count as any text does.**  Either
    they keep the end of the declaration, and nothing is read of it; or they hide its end, which is
    an error; or they end it early, and what follows is read as the document.  Without quotes and
    brackets in them they keep it. -/
theorem parse_doctype (options : Options) (comments : List (List Char)) :
    let inside := comments.flatMap commentText
    let text := '<' :: (doctypeText inside ++ "<r/>".toList)
    (readToken '<' (doctypeText inside ++ "<r/>".toList) = .ok (.doctype, "<r/>".toList) ↔
      KeepsEnd inside) ∧
    ((KeepsEnd inside ∧
        parse options (Utf8.encode text) = parse options (Utf8.encode "<r/>".toList)) ∨
      (HidesEnd inside ∧
        parse options (Utf8.encode text) = .error (.scan (.unterminated .doctype 0))) ∨
      ∃ more, EndsEarly inside more ∧
        scanText text = scanText (more ++ ']' :: '>' :: "<r/>".toList)) ∧
    ((∀ comment ∈ comments, ∀ c ∈ comment, c ∉ Enclosure.marks) → KeepsEnd inside) := by
  intro inside text
  refine ⟨readToken_doctypeText_iff, ?_,
    fun h => keepsEnd_of_notMem (notMem_marks_of_comments h)⟩
  rcases keepsEnd_or inside with hkeeps | hhides | ⟨more, hearly⟩
  · have hscan : scanText text = scanText "<r/>".toList :=
      scanText_doctype (readToken_doctypeText_iff.2 hkeeps)
    have hfine : (scanText "<r/>".toList).2 = none := by decide +kernel
    exact .inl ⟨hkeeps, parse_congr options hscan hfine⟩
  · have hplain : ∀ c ∈ "<r/>".toList, c ∉ Enclosure.marks :=
      List.all_iff_forall_prop.1 (by decide)
    have hread := hhides.readToken_doctypeText hplain
    refine .inr (.inl ⟨hhides, ?_⟩)
    simp only [parse, text, scan_doctype_unterminated hread]
  · exact .inr (.inr ⟨more, hearly, scanText_doctype (hearly.readToken_doctypeText _)⟩)

/-- Brackets and quotes in a comment keep the end of a declaration where they are balanced, with a
    `>` between them too. -/
theorem parse_doctype_balanced :
    let inside := ["[a > b]".toList, "\"]>\"".toList].flatMap commentText
    KeepsEnd inside ∧
      parse {} (Utf8.encode ('<' :: (doctypeText inside ++ "<r/>".toList)))
        = parse {} (Utf8.encode "<r/>".toList) := by
  intro inside
  have hkeeps : KeepsEnd inside := by decide +kernel
  obtain ⟨-, ⟨-, hsame⟩ | ⟨hhides, -⟩ | ⟨more, ⟨front, heq, hfree, -⟩, -⟩, -⟩ :=
    parse_doctype {} ["[a > b]".toList, "\"]>\"".toList]
  · exact ⟨hkeeps, hsame⟩
  · exact absurd hkeeps.free hhides.notFree
  · exact absurd ⟨front, more, heq, hfree⟩ hkeeps.notEarly

/-- An apostrophe in a comment opens a quote that hides the end of the declaration. -/
theorem parse_doctype_apostrophe :
    let comment := ['\x27']
    let text := '<' :: (doctypeText (commentText comment) ++ "<r/>".toList)
    (¬ ['-', '-'] <:+: comment ∧ ¬ ['-'] <:+ comment) ∧
      parse {} (Utf8.encode text) = .error (.scan (.unterminated .doctype 0)) ∧
      parse {} (Utf8.encode "<r/>".toList) = .ok (ofForest "utf-8" [.element "r" [] []]) := by
  intro comment text
  have hhidden : scan (Utf8.encode text) = ⟨[], some (.unterminated .doctype 0)⟩ := by
    decide +kernel
  have hscan : scan (Utf8.encode "<r/>".toList)
      = ⟨[.startElement "r" [], .endElement "r", .endDocument], none⟩ := by decide +kernel
  have hdenotes : Denotes true [.startElement "r" [], .endElement "r", .endDocument]
      [.element "r" [] []] := .element .nil (.endDocument .nil)
  refine ⟨by decide, ?_, parse_of_denotes hscan hdenotes (by decide) (by decide)⟩
  simp only [parse, hhidden]

end Document

end XmlQuery
