import Mathlib.Algebra.Ring.Nat
import XmlQuery.Proofs.Query.Canonical
import XmlQuery.Query.Listing

namespace XmlQuery

/-!
# The lines of a listing

A listing shows a header, an operation a line, and an end, as long as nothing that it shows of an
operation has line feeds of its own.  Names of elements and tests of attributes have none, but what
stands in a bracket is free, and is shown as it is.

* `Text.breaks`, `Text.lines` — the line feeds of a text, and its lines.
* `Text.breaks_quoted` — a quoted text is one line.
* `Query.Operation.shown` — the texts from a bracket that a listing shows.
* `Query.Operation.Proper.breaks_line` — the line feeds of an operation are those of these texts.
* `Query.Pending.Reads.contents` — what stands in a bracket comes from the query.
* `Query.listing_lines` — the lines of the listing of a query, and when each operation is one.
-/

namespace Text

/-! ### Lines -/

/-- How many line feeds a text has. -/
def breaks (s : String) : Nat :=
  s.toList.count '\n'

/-- The lines of a text, which line feeds part. -/
def lines (s : String) : List String :=
  (s.toList.splitOn '\n').map String.ofList

/-- A text is free of line feeds exactly if it has none of them. -/
theorem breaks_eq_zero_iff {s : String} : breaks s = 0 ↔ '\n' ∉ s.toList :=
  List.count_eq_zero

/-- Texts one after the other have the line feeds of both. -/
@[simp] theorem breaks_append (s t : String) : breaks (s ++ t) = breaks s + breaks t := by
  rw [breaks, String.toList_append, List.count_append]
  rfl

/-- A number is written without line feeds. -/
theorem breaks_toString (n : Nat) : breaks (toString n) = 0 := by
  rw [breaks_eq_zero_iff]
  intro h
  have hdigit : '\n'.isDigit := by
    refine Nat.isDigit_of_mem_toDigits (b := 10) (n := n) (by decide) (by decide) ?_
    rwa [Nat.toString_eq_repr, Nat.toList_repr] at h
  cases hdigit

/-- A text has one line more than line feeds. -/
theorem length_lines (s : String) : (lines s).length = breaks s + 1 := by
  rw [lines, List.length_map, breaks]
  induction s.toList with
  | nil => rfl
  | cons c cs ih =>
    rw [List.splitOn_cons_eq_if_modifyHead]
    by_cases hc : c = '\n' <;> simp [hc, ih]

/-- A text without line feeds is one line. -/
theorem lines_of_breaks {s : String} (h : breaks s = 0) : lines s = [s] := by
  rw [lines, List.splitOn_eq_singleton (breaks_eq_zero_iff.1 h), List.map_singleton,
    String.ofList_toList]

/-- Texts with a line feed between each two have the lines of all. -/
theorem lines_intercalate {texts : List String} (h : texts ≠ []) :
    lines (String.intercalate "\n" texts) = texts.flatMap lines := by
  have hlist : ∀ {parts : List (List Char)}, parts ≠ [] →
      (['\n'].intercalate parts).splitOn '\n' = parts.flatMap (List.splitOn '\n') := by
    intro parts hparts
    induction parts with
    | nil => exact absurd rfl hparts
    | cons part parts ih =>
      cases parts with
      | nil => simp [List.intercalate]
      | cons part' parts =>
        have hcons : ['\n'].intercalate (part :: part' :: parts)
            = part ++ '\n' :: ['\n'].intercalate (part' :: parts) := by
          simp [List.intercalate]
        rw [hcons, List.splitOn_append_cons_self, ih (List.cons_ne_nil _ _)]
        rfl
  have hparts : texts.map String.toList ≠ [] := by simpa using h
  have hnewline : "\n".toList = ['\n'] := rfl
  rw [lines, String.toList_intercalate, hnewline, hlist hparts, List.flatMap_map, List.map_flatMap]
  rfl

/-! ### Quoted texts -/

/-- The digits of a code are no line feeds. -/
theorem newline_notMem_toDigits (n : Nat) : '\n' ∉ Nat.toDigits 16 n := by
  have hdigit : ∀ d < 16, Nat.digitChar d ≠ '\n' := by decide
  induction n using Nat.strongRecOn with
  | ind n ih =>
    rw [Nat.toDigits_eq_if (by decide)]
    split
    · rename_i hlt
      exact fun h => hdigit n hlt (List.mem_singleton.1 h).symm
    · intro h
      rcases List.mem_append.1 h with h | h
      · exact ih (n / 16) (by omega) h
      · exact hdigit (n % 16) (by omega) (List.mem_singleton.1 h).symm

/-- Between quotes no character is spelled with a line feed. -/
theorem newline_notMem_quotedChar (c : Char) : '\n' ∉ quotedChar c := by
  unfold quotedChar
  repeat' split
  · decide
  · decide
  · decide
  · decide
  · decide
  · decide
  · simp [newline_notMem_toDigits c.toNat]
  · rename_i hnewline _ _ _ _
    exact fun h => hnewline (List.mem_singleton.1 h).symm

/-- **A quoted text is one line.** -/
theorem breaks_quoted (s : String) : breaks (quoted s) = 0 := by
  have hchars : '\n' ∉ s.toList.flatMap quotedChar := by
    rw [List.mem_flatMap]
    rintro ⟨c, -, hc⟩
    exact newline_notMem_quotedChar c hc
  rw [breaks_eq_zero_iff]
  simp [quoted, hchars]

/-- What is left of a text without its outer blanks was in it. -/
theorem mem_of_mem_trim {c : Char} {cs : List Char} (h : c ∈ trim cs) : c ∈ cs := by
  rw [trim, trimEnd, List.mem_reverse] at h
  have hstart := (List.dropWhile_suffix isBlank).subset h
  rw [List.mem_reverse] at hstart
  exact (List.dropWhile_suffix isBlank).subset hstart

end Text

namespace Query

open Text (breaks lines)

/-! ### What a listing shows of an operation -/

/-- The texts of a predicate that a listing shows: its key, and what it compares with. -/
def Predicate.texts (p : Predicate) : List String :=
  p.key :: (p.test.map Prod.snd).toList

/-- The texts of an expression that a listing shows. -/
def Expression.shown : Expression → List String
  | hasChild name => [name]
  | attributeCondition condition => (Predicate.parse condition).texts
  | _ => []

/-- The texts from a bracket that a listing shows of an operation. -/
def Operation.shown (op : Operation) : List String :=
  (op.expression?.map Expression.shown).getD []

/-- A condition has the line feeds of the texts of its predicate. -/
theorem Predicate.breaks_condition (p : Predicate) :
    breaks p.condition = (p.texts.map breaks).sum := by
  obtain ⟨key, test⟩ := p
  cases test with
  | none =>
    have hfront : breaks "HAS? *" = 0 := rfl
    simp [condition, texts, hfront]
  | some test =>
    obtain ⟨op, comparand⟩ := test
    have hop : breaks op.mnemonic = 0 := by cases op <;> rfl
    have hfront : breaks " *" = 0 := rfl
    have hbetween : breaks ", .\"" = 0 := rfl
    have hend : breaks "\"" = 0 := rfl
    simp [condition, texts, hop, hfront, hbetween, hend]

/-- An expression has the line feeds of its texts. -/
theorem Expression.breaks_line (e : Expression) : breaks e.line = (e.shown.map breaks).sum := by
  cases e with
  | index i =>
    have hfront : breaks "PEXP.IDX #" = 0 := rfl
    show breaks ("PEXP.IDX #" ++ toString i) = 0
    rw [Text.breaks_append, hfront, Text.breaks_toString]
  | range first last =>
    have hfront : breaks "PEXP.IDXRANGE #" = 0 := rfl
    have hbetween : breaks ", #" = 0 := rfl
    show breaks ("PEXP.IDXRANGE #" ++ toString first ++ ", #" ++ toString last) = 0
    simp only [Text.breaks_append, hfront, hbetween, Text.breaks_toString]
  | hasChild name =>
    have hfront : breaks "PEXP.HASCHILD '" = 0 := rfl
    have hend : breaks "'" = 0 := rfl
    show breaks ("PEXP.HASCHILD '" ++ name ++ "'") = breaks name + 0
    rw [Text.breaks_append, Text.breaks_append, hfront, hend, Nat.zero_add]
  | attributeCondition condition =>
    have hfront : breaks "WHERE " = 0 := rfl
    show breaks ("WHERE " ++ (Predicate.parse condition).condition)
      = ((Predicate.parse condition).texts.map breaks).sum
    rw [Text.breaks_append, hfront, Nat.zero_add, Predicate.breaks_condition]
  | unknown => rfl

/-- What a predicate shows of a text was in the text. -/
theorem Predicate.mem_of_mem_texts {source text : String} (h : text ∈ (parse source).texts)
    {c : Char} (hc : c ∈ text.toList) : c ∈ source.toList := by
  have htrimmed : ∀ {part : List Char}, (∀ a ∈ part, a ∈ source.toList) →
      ∀ a ∈ (trimmed part).toList, a ∈ source.toList := by
    intro part hpart a ha
    rw [trimmed, String.toList_ofList] at ha
    exact hpart a (Text.mem_of_mem_trim ha)
  have hwith : ∀ ops p, parseWith? source.toList ops = some p →
      ∀ text ∈ p.texts, ∀ a ∈ text.toList, a ∈ source.toList := by
    intro ops p hp
    induction ops with
    | nil => cases hp
    | cons op ops ih =>
      rw [parseWith?] at hp
      split at hp
      · rename_i key comparand hsplit
        cases hp
        have hsource := Text.splitAround?_eq_append hsplit
        intro text htext a ha
        rcases List.mem_cons.1 htext with rfl | htext
        · exact htrimmed (fun b hb => by simp [hsource, hb]) a ha
        · rw [List.mem_singleton.1 htext] at ha
          exact htrimmed (fun b hb => by simp [hsource, hb]) a ha
      · exact ih hp
  rw [parse] at h
  split at h
  · rename_i p hp
    exact hwith _ p hp text h c hc
  · rw [List.mem_singleton.1 h] at hc
    exact htrimmed (fun b hb => hb) c hc

/-- **The line feeds of an operation are those of the texts from its bracket.** -/
theorem Operation.Proper.breaks_line {op : Operation} (h : op.Proper) :
    breaks op.line = (op.shown.map breaks).sum := by
  cases h with
  | null | child | descendant | wildcard => rfl
  | @element name hne hchars =>
    have hfront : breaks "      NAMED #" = 0 := rfl
    have hname : breaks name = 0 := by
      rw [Text.breaks_eq_zero_iff]
      intro hmem
      cases hchars _ hmem
    show breaks ("      NAMED #" ++ name) = 0
    rw [Text.breaks_append, hfront, hname]
  | @attributeTest text hchars =>
    have hfront : breaks "      WHERE " = 0 := rfl
    have hnewline : '\n' ∉ text.toList := by
      intro hmem
      exact absurd (hchars _ hmem) (by decide)
    have htexts : ∀ part ∈ (Predicate.parse text).texts, breaks part = 0 := fun part hpart =>
      Text.breaks_eq_zero_iff.2 fun hmem => hnewline (Predicate.mem_of_mem_texts hpart hmem)
    show breaks ("      WHERE " ++ (Predicate.parse text).condition) = 0
    rw [Text.breaks_append, hfront, Predicate.breaks_condition, Nat.zero_add,
      List.sum_eq_zero_iff_forall_eq_nat]
    simpa using htexts
  | bracket contents =>
    have hfront : breaks "  " = 0 := rfl
    show breaks ("  " ++ (Expression.classify contents).line) = _
    rw [Text.breaks_append, hfront, Nat.zero_add, Expression.breaks_line]
    rfl

/-! ### Where the contents of brackets come from -/

/-- Whether the expression of an operation, if it has one, is written in characters with a
    property. -/
def Operation.Within (fits : Char → Prop) (op : Operation) : Prop :=
  ∀ e ∈ op.expression?, ∃ contents, e = .classify contents ∧ ∀ c ∈ contents, fits c

namespace Pending

/-- Whether what stands in the bracket that has been begun, if one has, has a property. -/
def Within (fits : Char → Prop) : Pending → Prop
  | bracket contents _ _ => ∀ c ∈ contents, fits c
  | _ => True

variable {fits : Char → Prop}

/-- What has been begun becomes an operation without an expression. -/
theorem within_operation (p : Pending) : p.operation.Within fits := by
  intro e he
  cases he

/-- In a bracket a character adds itself to what stands there, or a backslash, or nothing. -/
theorem within_inBracket (hbackslash : fits '\\') {contents : List Char}
    (h : ∀ b ∈ contents, fits b) (quote : Option Char) (escaped : Bool) {c : Char} (hc : fits c) :
    (inBracket contents quote escaped c).2.Within fits ∧
      ∀ op ∈ (inBracket contents quote escaped c).1, op.Within fits := by
  have hsilent : ∀ op ∈ ([] : List Operation), op.Within fits := List.forall_mem_nil _
  have hconcat : ∀ b ∈ contents ++ [c], fits b := by
    intro b hb
    rcases List.mem_append.1 hb with hb | hb
    · exact h b hb
    · exact List.mem_singleton.1 hb ▸ hc
  have hescaped : ∀ b ∈ contents ++ ['\\', c], fits b := by
    intro b hb
    rw [List.append_cons] at hb
    rcases List.mem_append.1 hb with hb | hb
    · rcases List.mem_append.1 hb with hb | hb
      · exact h b hb
      · exact List.mem_singleton.1 hb ▸ hbackslash
    · exact List.mem_singleton.1 hb ▸ hc
  have hclosed : ∀ op ∈ [Operation.ofExpression (.classify contents)], op.Within fits := by
    intro op hop e he
    rw [List.mem_singleton.1 hop] at he
    cases he
    exact ⟨contents, rfl, h⟩
  unfold inBracket
  repeat' split
  all_goals first
    | exact ⟨h, hsilent⟩
    | exact ⟨hconcat, hsilent⟩
    | exact ⟨hescaped, hsilent⟩
    | exact ⟨trivial, hclosed⟩

/-- Outside of brackets nothing is put into one. -/
theorem within_inPath {p q : Pending} (hbracket : p.isBracket = false) {c : Char}
    {completed : List Operation} (hnext : p.inPath c = .ok (completed, q)) :
    q.Within fits ∧ ∀ op ∈ completed, op.Within fits := by
  have hsame : p.Within fits := by
    cases p with
    | bracket contents quote escaped => cases hbracket
    | _ => trivial
  have hsilent : ∀ op ∈ ([] : List Operation), op.Within fits := List.forall_mem_nil _
  have hbegun : ∀ {q : Pending}, ∀ op ∈ [q.operation], op.Within fits := by
    intro q op hop
    exact List.mem_singleton.1 hop ▸ q.within_operation
  have hempty : (bracket [] none false).Within fits := List.forall_mem_nil _
  unfold inPath at hnext
  repeat' split at hnext
  all_goals cases hnext
  all_goals first
    | exact ⟨trivial, hsilent⟩
    | exact ⟨trivial, hbegun⟩
    | exact ⟨hsame, hsilent⟩
    | exact ⟨hempty, hbegun⟩

/-- **What stands in brackets comes from the query**, or is a backslash. -/
theorem Reads.within {p q : Pending} {cs : List Char} {ops : List Operation}
    (h : p.Reads cs ops q) (hbackslash : fits '\\') (hcs : ∀ c ∈ cs, fits c) (hp : p.Within fits) :
    ∀ op ∈ ops, op.Within fits := by
  induction h with
  | nil p => exact List.forall_mem_nil _
  | @cons p between q c cs completed ops hnext _ ih =>
    rw [List.forall_mem_cons] at hcs
    have hstep : between.Within fits ∧ ∀ op ∈ completed, op.Within fits := by
      cases hbracket : p.isBracket with
      | false =>
        rw [next_eq_inPath hbracket] at hnext
        exact within_inPath hbracket hnext
      | true =>
        cases p with
        | bracket contents quote escaped =>
          have hwithin := within_inBracket hbackslash hp quote escaped hcs.1
          rw [next, Except.ok.injEq] at hnext
          rw [hnext] at hwithin
          exact hwithin
        | _ => cases hbracket
    intro op hop
    rcases List.mem_append.1 hop with hop | hop
    · exact hstep.2 op hop
    · exact ih hcs.2 hstep.1 op hop

end Pending

/-- What a bracket shows is written in the characters of its contents. -/
theorem Expression.mem_of_mem_shown {contents : List Char} {text : String}
    (h : text ∈ (classify contents).shown) {c : Char} (hc : c ∈ text.toList) : c ∈ contents := by
  unfold classify at h
  split at h
  · cases h
  rename_i first rest
  split at h
  · have hrest := Predicate.mem_of_mem_texts h hc
    rw [String.toList_ofList] at hrest
    exact List.mem_cons_of_mem _ hrest
  split at h
  · split at h
    · cases h
    · split at h <;> cases h
  split at h
  · rw [List.mem_singleton.1 h, String.toList_ofList] at hc
    exact hc
  · cases h

/-! ### The lines of a query -/

variable {query : String} {program : Program}

/-- A query with no line feed in it shows none of its operations with one. -/
theorem newline_notMem_shown (h : compile query = .ok program) (hquery : '\n' ∉ query.toList) :
    ∀ op ∈ program.operations, ∀ text ∈ op.shown, '\n' ∉ text.toList := by
  obtain ⟨emitted, q, hreads, -, rfl⟩ := compile_eq_ok_iff.1 h
  have hchars : ∀ c ∈ query.toList, c ≠ '\n' := fun c hc heq => hquery (heq ▸ hc)
  have hwithin : ∀ op ∈ emitted ++ [q.operation], op.Within (· ≠ '\n') := by
    intro op hop
    rcases List.mem_append.1 hop with hop | hop
    · exact hreads.within (by decide) hchars trivial op hop
    · exact List.mem_singleton.1 hop ▸ q.within_operation
  intro op hop text htext hmem
  cases he : op.expression? with
  | none =>
    rw [Operation.shown, he] at htext
    cases htext
  | some e =>
    rw [Operation.shown, he] at htext
    obtain ⟨contents, rfl, hfits⟩ := hwithin op hop e he
    exact hfits '\n' (Expression.mem_of_mem_shown htext hmem) rfl

/-- Operations of a query have a line each, and one for each line feed in the texts that they show of
    brackets. -/
theorem length_flatMap_lines {ops : List Operation} (h : ∀ op ∈ ops, op.Proper) :
    (ops.flatMap fun op => lines op.line).length
      = ops.length + ((ops.flatMap Operation.shown).map breaks).sum := by
  induction ops with
  | nil => rfl
  | cons op ops ih =>
    rw [List.forall_mem_cons] at h
    rw [List.flatMap_cons, List.length_append, ih h.2, Text.length_lines, h.1.breaks_line,
      List.flatMap_cons, List.map_append, List.sum_append_nat, List.length_cons]
    omega

/-- How many lines a listing has if each operation that it shows is one. -/
def Program.plainHeight (p : Program) : Nat :=
  (if p.operations.head?.any (·.instruction = .null) then 1 else 2) + p.operations.length

/-- Besides the operations that it shows, a listing has a header and an end. -/
theorem Program.plainHeight_eq {p : Program} (h : p.operations ≠ []) :
    p.plainHeight = p.listed.length + 2 := by
  obtain ⟨source, operations⟩ := p
  cases operations with
  | nil => exact absurd rfl h
  | cons op ops =>
    by_cases hnull : op.instruction = .null
    · simp [plainHeight, listed, hnull, Nat.add_comm 1]
    · simp [plainHeight, listed, hnull, Nat.add_comm 2]

/-- An idle operation in front, which a listing does not show, has no texts to show. -/
theorem Program.flatMap_shown_listed {p : Program} (h : ∀ op ∈ p.operations, op.Proper) :
    p.listed.flatMap Operation.shown = p.operations.flatMap Operation.shown := by
  obtain ⟨source, operations⟩ := p
  cases operations with
  | nil => rfl
  | cons op ops =>
    by_cases hnull : op.instruction = .null
    · have hshown : op.shown = [] := by
        cases h op List.mem_cons_self with
        | bracket contents => cases hnull
        | _ => rfl
      simp [listed, hnull, hshown]
    · simp [listed, hnull]

/-- What a listing shows are operations of the program. -/
theorem Program.mem_of_mem_listed {p : Program} {op : Operation} (h : op ∈ p.listed) :
    op ∈ p.operations := by
  obtain ⟨source, operations⟩ := p
  cases operations with
  | nil => cases h
  | cons first ops =>
    by_cases hnull : first.instruction = .null
    · simp only [listed, hnull, if_true] at h
      exact List.mem_cons_of_mem _ h
    · simpa only [listed, hnull, if_false] using h

/-- **The lines of a listing** are a header, the lines of each operation but an idle one in front,
    and an end.  There is one line for each operation, and one for each line feed in the texts that
    the listing shows of brackets; so each operation is one line exactly if these texts have none,
    as they do if the query has none. -/
theorem listing_lines (h : compile query = .ok program) :
    lines program.listing
        = ("QUERY " ++ Text.quoted query)
          :: program.listed.flatMap (fun op => lines op.line) ++ ["END"] ∧
      (lines program.listing).length
        = program.plainHeight + ((program.operations.flatMap Operation.shown).map breaks).sum ∧
      ((lines program.listing).length = program.plainHeight ↔
        ∀ op ∈ program.operations, ∀ text ∈ op.shown, '\n' ∉ text.toList) ∧
      ('\n' ∉ query.toList → (lines program.listing).length = program.plainHeight) := by
  obtain ⟨emitted, q, hreads, hbracket, hprogram⟩ := compile_eq_ok_iff.1 h
  have hsource : program.source = query := by rw [hprogram]
  have hne : program.operations ≠ [] := by
    rw [hprogram]
    exact List.concat_ne_nil _ _
  have hproper : ∀ op ∈ program.operations, op.Proper := by
    rw [hprogram]
    exact (hreads.canonicalFrom trivial hbracket).proper
  have hlines : lines program.listing
      = ("QUERY " ++ Text.quoted query)
        :: program.listed.flatMap (fun op => lines op.line) ++ ["END"] := by
    have hheader : lines ("QUERY " ++ Text.quoted query) = ["QUERY " ++ Text.quoted query] := by
      refine Text.lines_of_breaks ?_
      rw [Text.breaks_append, Text.breaks_quoted]
      rfl
    have hend : lines "END" = ["END"] := Text.lines_of_breaks rfl
    have hparts : ("QUERY " ++ Text.quoted program.source) :: program.listed.map Operation.line
        ++ ["END"] ≠ [] := List.cons_ne_nil _ _
    rw [Program.listing, Text.lines_intercalate hparts, hsource, List.cons_append,
      List.flatMap_cons, List.flatMap_append, hheader, List.flatMap_map, List.flatMap_singleton,
      hend]
    rfl
  have hlength : (lines program.listing).length
      = program.plainHeight + ((program.operations.flatMap Operation.shown).map breaks).sum := by
    have hlisted := length_flatMap_lines fun op hop => hproper op (Program.mem_of_mem_listed hop)
    rw [program.flatMap_shown_listed hproper] at hlisted
    rw [hlines, List.length_append, List.length_cons, hlisted, Program.plainHeight_eq hne,
      List.length_singleton]
    omega
  have hiff : (lines program.listing).length = program.plainHeight ↔
      ∀ op ∈ program.operations, ∀ text ∈ op.shown, '\n' ∉ text.toList := by
    rw [hlength, Nat.add_eq_left, List.sum_eq_zero_iff_forall_eq_nat, List.forall_mem_map,
      List.forall_mem_flatMap]
    simp only [Text.breaks_eq_zero_iff]
  exact ⟨hlines, hlength, hiff, fun hquery => hiff.2 (newline_notMem_shown h hquery)⟩

/-- Outer blanks of a comparand are not shown, so a line feed there takes no line. -/
theorem listing_lines_condition :
    let query := "//a[@k=\n1]"
    ∃ program, compile query = .ok program ∧
      lines program.listing
        = ["QUERY \"//a[@k=\\n1]\"", "   DESCENDANTS", "      NAMED #a", "  WHERE EQL? *k, .\"1\"",
          "   NOOP", "END"] ∧
      (lines program.listing).length = program.plainHeight := by
  intro query
  let program : Program := ⟨query, [.ofText .null "", .ofText .descendant "//", .ofText .element "a",
    .ofExpression (.attributeCondition "k=\n1"), .ofText .null ""]⟩
  have hcompile : compile query = .ok program := by decide +kernel
  have hlisting := listing_lines hcompile
  refine ⟨program, hcompile, ?_, ?_⟩
  · rw [hlisting.1]
    decide +kernel
  · refine hlisting.2.2.1.2 ?_
    decide +kernel

/-- A name with a line feed in it takes two lines. -/
theorem exists_listing_lines_ne :
    ∃ query program, compile query = .ok program ∧
      program.operations.head?.any (·.instruction = .null) ∧
      (lines program.listing).length = 2 + program.operations.length := by
  refine ⟨"/*[a\nb]", ⟨"/*[a\nb]", [.ofText .null "", .ofText .child "/", .ofText .wildcard "",
    .ofExpression (.hasChild "a\nb"), .ofText .null ""]⟩, ?_, ?_, ?_⟩
  · decide +kernel
  · decide +kernel
  · decide +kernel

end Query

end XmlQuery
