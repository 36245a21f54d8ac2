import XmlQuery.Proofs.Markup.Enclosure
import XmlQuery.Proofs.Markup.Scanning

namespace XmlQuery.Markup

/-!
# Where tokens end

A token is read off the front of a document without a look at what stands behind it.  If something
else stood there, the token would be the same.

* `ReadsOff` — what is taken off the front of a text, whatever follows.
* `ReadsOff.map`, `ReadsOff.behind` — what is made of it, or stands in front of it, is so too.
* `readName?_replace`, `skipDoctype_replace`, `delimited_readsOff`, `readEndTag_readsOff`,
  `readStartTag_readsOff` — the parts of markup.
* `readMarkup_readsOff` — markup ends where it ends, whatever follows.
* `readToken_replace` — so does character data, if markup or nothing follows.
-/

/-- `read` takes `a` off the front of `cs` and leaves `rest`.  It would do so whatever stood in the
    place of `rest`, and wherever the token had begun. -/
def ReadsOff {α : Type} (read : List Char → List Char → Except Fault (α × List Char))
    (cs : List Char) (a : α) (rest : List Char) : Prop :=
  ∃ used, cs = used ++ rest ∧ ∀ start more, read start (used ++ more) = .ok (a, more)

namespace ReadsOff

variable {α β : Type} {read read' : List Char → List Char → Except Fault (α × List Char)}
  {cs rest : List Char} {a : α}

/-- What is made of what is read ends where that ends. -/
theorem map (h : ReadsOff read cs a rest) (f : α → β) :
    ReadsOff (fun start cs => (read start cs).map fun parts => (f parts.1, parts.2)) cs (f a)
      rest := by
  obtain ⟨used, hused, hreads⟩ := h
  refine ⟨used, hused, fun start more => ?_⟩
  simp only [hreads, Except.map]

/-- What is told by its front, and read behind it, ends where that ends. -/
theorem behind (h : ReadsOff read cs a rest) (front : List Char)
    (hfront : ∀ start cs, read' start (front ++ cs) = read start cs) :
    ReadsOff read' (front ++ cs) a rest := by
  obtain ⟨used, rfl, hreads⟩ := h
  refine ⟨front ++ used, by rw [List.append_assoc], fun start more => ?_⟩
  rw [List.append_assoc, hfront, hreads]

end ReadsOff

/-! ### Names and spaces -/

/-- **A name ends where it ends**, whatever follows the symbol behind it. -/
theorem readName?_replace {α : Type} [Symbol α] {as name rest more : List α}
    (h : readName? as = some (name, rest)) (hmore : more.head? = rest.head?) :
    readName? (name ++ more) = some (name, more) := by
  obtain ⟨hname, hend⟩ := isName_of_readName? h
  exact readName?_eq_some_iff.2 ⟨rfl, hname, hmore ▸ hend⟩

/-! ### Sections between marks -/

/-- A section ends at its mark, whatever follows. -/
theorem delimited_readsOff {construct : Construct} {start mark cs contents rest : List Char}
    (h : delimited construct start mark cs = .ok (contents, rest)) :
    ReadsOff (fun start cs => delimited construct start mark cs) cs contents rest := by
  rw [delimited] at h
  split at h
  · rename_i parts hsplit
    cases h
    refine ⟨contents ++ mark, Text.splitAround?_eq_append hsplit, fun start more => ?_⟩
    show delimited construct start mark (contents ++ mark ++ more) = _
    rw [delimited, Text.splitAround?_replace hsplit more]
  · cases h

/-- What is made of a section between marks ends where the section ends. -/
theorem delimited_map_readsOff {α : Type} {construct : Construct} {start mark cs rest : List Char}
    {f : List Char → α} {a : α}
    (h : (delimited construct start mark cs).map (fun parts => (f parts.1, parts.2))
      = .ok (a, rest)) :
    ReadsOff (fun start cs =>
      (delimited construct start mark cs).map fun parts => (f parts.1, parts.2)) cs a rest := by
  cases hread : delimited construct start mark cs with
  | error => rw [hread] at h; cases h
  | ok parts =>
    rw [hread] at h
    cases h
    exact (delimited_readsOff hread).map f

/-- **A document type declaration ends with its `>`**, whatever follows. -/
theorem skipDoctype_replace {cs rest : List Char} (h : skipDoctype 0 none cs = some rest) :
    ∃ used, cs = used ++ rest ∧ '>' ∈ used ∧
      ∀ more, skipDoctype 0 none (used ++ more) = some more := by
  obtain ⟨front, rfl, hfree, hfirst⟩ := (skipDoctype_eq_some_iff (e := .free)).1 h
  refine ⟨front ++ ['>'], by simp, List.mem_concat_self, fun more => ?_⟩
  rw [List.append_assoc]
  exact (skipDoctype_eq_some_iff (e := .free)).2 ⟨front, rfl, hfree, hfirst⟩

/-! ### Tags -/

/-- An end tag ends with its `>`, whatever follows. -/
theorem readEndTag_readsOff {start cs rest : List Char} {token : Token}
    (h : readEndTag start cs = .ok (token, rest)) : ReadsOff readEndTag cs token rest := by
  simp only [readEndTag] at h
  split at h
  · cases h
  rename_i name afterName hname
  split at h
  · cases h
  rename_i c rest' hspaces
  split at h
  · rename_i hc
    cases h
    subst hc
    obtain ⟨hend, spaces, hspaces, hafter⟩ := skipSpaces_eq_cons_iff.1 hspaces
    refine ⟨name ++ (spaces ++ ['>']), ?_, fun start more => ?_⟩
    · rw [(readName?_eq_append hname).1, hafter]
      simp
    · have hmore : (spaces ++ '>' :: more).head? = afterName.head? := by simp [hafter]
      have heq : name ++ (spaces ++ ['>']) ++ more = name ++ (spaces ++ '>' :: more) := by simp
      simp only [heq, readEndTag, readName?_replace hname hmore, skipSpaces_append hspaces hend,
        if_true]
  · cases h

/-- A start tag begins with a name. -/
theorem isNameStart_of_readStartTag {start cs rest : List Char} {c : Char} {token : Token}
    (h : readStartTag start (c :: cs) = .ok (token, rest)) : isNameStart c := by
  by_contra hc
  simp [readStartTag, readName?, hc] at h

/-- A start tag ends with its `>`, whatever follows. -/
theorem readStartTag_readsOff {start cs rest : List Char} {token : Token}
    (h : readStartTag start cs = .ok (token, rest)) : ReadsOff readStartTag cs token rest := by
  obtain ⟨tag, htext, rfl⟩ := readStartTag_eq_ok_iff.1 h
  rw [StartTag.text, List.cons_append, List.cons.injEq] at htext
  exact ⟨_, htext.2, fun start more => readStartTag_eq_ok_iff.2 ⟨tag, rfl, rfl⟩⟩

/-! ### Tokens -/

/-- A front without a symbol stands before the first occurrence of that symbol. -/
theorem prefix_of_mem {α : Type} {front used more : List α} {a : α} (h : front <+: used ++ more)
    (ha : a ∈ used) (hfront : a ∉ front) : front <+: used := by
  rcases List.prefix_or_prefix_of_prefix h (List.prefix_append used more) with hle | hge
  · exact hle
  · exact absurd (hge.subset ha) hfront

/-- What begins with `!` is a document type declaration, if it is neither a comment nor a CDATA
    section. -/
theorem readMarkup_doctype {cs : List Char} (hcomment : ¬ ['-', '-'] <+: cs)
    (hsection : ¬ ['[', 'C', 'D', 'A', 'T', 'A', '['] <+: cs) (start : List Char) :
    readMarkup start ('!' :: cs)
      = match skipDoctype 0 none cs with
        | some rest => .ok (.doctype, rest)
        | none => .error (.unterminated .doctype start) := by
  unfold readMarkup
  split
  · rename_i heq
    cases heq
  · rename_i heq
    cases heq
    exact absurd (List.prefix_append ['-', '-'] _) hcomment
  · rename_i heq
    cases heq
    exact absurd (List.prefix_append ['[', 'C', 'D', 'A', 'T', 'A', '['] _) hsection
  · rename_i heq
    cases heq
    rfl
  · rename_i heq
    cases heq
  · rename_i hsection _
    exact (hsection cs rfl).elim

/-- **Markup ends where it ends**, whatever follows. -/
theorem readMarkup_readsOff {start cs rest : List Char} {token : Token}
    (h : readMarkup start cs = .ok (token, rest)) : ReadsOff readMarkup cs token rest := by
  unfold readMarkup at h
  split at h
  · exact (delimited_map_readsOff h).behind ['?'] fun _ _ => rfl
  · exact (delimited_map_readsOff h).behind ['!', '-', '-'] fun _ _ => rfl
  · exact (delimited_map_readsOff h).behind ['!', '[', 'C', 'D', 'A', 'T', 'A', '['] fun _ _ => rfl
  · rename_i cs hcomment hsection
    split at h
    · rename_i rest' hskip
      cases h
      obtain ⟨used, rfl, hmem, hskips⟩ := skipDoctype_replace hskip
      refine ⟨'!' :: used, rfl, fun start more => ?_⟩
      -- what tells the declaration from other markup stands before its end
      have hcomment' : ¬ ['-', '-'] <+: used ++ more := fun hfront => by
        obtain ⟨cs, rfl⟩ := prefix_of_mem hfront hmem (by decide)
        exact hcomment _ rfl
      have hsection' : ¬ ['[', 'C', 'D', 'A', 'T', 'A', '['] <+: used ++ more := fun hfront => by
        obtain ⟨cs, rfl⟩ := prefix_of_mem hfront hmem (by decide)
        exact hsection _ rfl
      rw [List.cons_append, readMarkup_doctype hcomment' hsection', hskips]
    · cases h
  · exact (readEndTag_readsOff h).behind ['/'] fun _ _ => rfl
  · obtain ⟨used, rfl, hreads⟩ := readStartTag_readsOff h
    refine ⟨used, rfl, fun start more => ?_⟩
    cases used with
    | nil => cases hreads start []
    | cons c used =>
      have hc : isNameStart c := isNameStart_of_readStartTag (hreads start [])
      rw [List.cons_append, readMarkup_of_isNameStart hc, ← List.cons_append, hreads]

/-- **A token ends where it ends**, whatever follows markup, and whatever markup follows character
    data. -/
theorem readToken_replace {c : Char} {cs rest : List Char} {token : Token}
    (h : readToken c cs = .ok (token, rest)) :
    ∃ used, cs = used ++ rest ∧ (c ≠ '<' → EndsText rest) ∧
      ∀ more, (c ≠ '<' → EndsText more) → readToken c (used ++ more) = .ok (token, more) := by
  by_cases hc : c = '<'
  · rw [readToken, if_pos hc] at h
    obtain ⟨used, hused, hreads⟩ := readMarkup_readsOff h
    refine ⟨used, hused, absurd hc, fun more _ => ?_⟩
    rw [readToken, if_pos hc, hreads]
  · rw [readToken, if_neg hc] at h
    cases h
    refine ⟨cs.takeWhile (· != '<'), List.takeWhile_append_dropWhile.symm, fun _ d hd => ?_,
      fun more hmore => ?_⟩
    · obtain ⟨tail, htail⟩ := List.head?_eq_some_iff.1 hd
      simpa using eq_false_of_dropWhile htail
    · have hall : ∀ d ∈ cs.takeWhile (· != '<'), (d != '<') = true :=
        List.all_eq_true.1 List.all_takeWhile
      obtain ⟨htake, hdrop⟩ := (hmore hc).takeWhile_dropWhile
      rw [readToken, if_neg hc, List.takeWhile_append_of_pos hall,
        List.dropWhile_append_of_pos hall, htake, hdrop, List.append_nil]

end XmlQuery.Markup
