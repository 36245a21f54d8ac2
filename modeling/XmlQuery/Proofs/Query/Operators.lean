import Mathlib.Algebra.Order.Ring.Int
import Mathlib.Data.Bool.AllAny
import Mathlib.Data.List.Basic
import Mathlib.Data.List.TakeWhile
import Mathlib.Order.Compare
import XmlQuery.Proofs.Markup.Escaping
import XmlQuery.Query.Predicate

namespace XmlQuery

/-!
# Keys, operators and comparands

A predicate is split where its operator stands, and blanks around its parts are taken off.  Of
several operators the first one in a fixed order counts, wherever it stands.  Written with parts that
hold no characters of operators a predicate is read back as it was meant, whichever operator it has.

* `Text.NoOuterBlanks`, `Text.trim_append` — outer blanks are taken off, and nothing else.
* `Query.Predicate.parse_written` — a key, an operator and a comparand are read back.
* `Query.Predicate.SplitsAt`, `Query.Predicate.exists_splitsAt` — how an operator splits any text.
* `Query.Predicate.parse_splits` — both of these, with the blanks around a key and a comparand.
* `Comparison.Relates`, `Comparison.accepts_compare` — operators on integers have their usual
  meaning.
-/

/-! ### Blanks -/

namespace Text

/-- Whether neither the first nor the last character of a text is blank. -/
def NoOuterBlanks (cs : List Char) : Prop :=
  (∀ c ∈ cs.head?, isBlank c = false) ∧ ∀ c ∈ cs.getLast?, isBlank c = false

/-- Blanks in front are dropped up to the first character that is none. -/
theorem dropWhile_blanks {before cs : List Char} (hbefore : ∀ c ∈ before, isBlank c)
    (hcs : ∀ c ∈ cs.head?, isBlank c = false) : (before ++ cs).dropWhile isBlank = cs := by
  rw [List.dropWhile_append_of_pos hbefore]
  cases cs with
  | nil => rfl
  | cons c cs => simp [hcs c rfl]

/-- **Outer blanks are taken off, and nothing else.** -/
theorem trim_append {before cs after : List Char} (hbefore : ∀ c ∈ before, isBlank c)
    (hafter : ∀ c ∈ after, isBlank c) (hcs : NoOuterBlanks cs) :
    trim (before ++ cs ++ after) = cs := by
  rw [trim, trimStart, trimEnd]
  cases cs with
  | nil =>
    have hall : ∀ c ∈ before ++ [] ++ after, isBlank c := by
      rw [List.append_nil]
      exact fun c hc => (List.mem_append.1 hc).elim (hbefore c) (hafter c)
    rw [List.dropWhile_eq_nil_iff.2 hall]
    rfl
  | cons c cs =>
    have hafter' : ∀ c ∈ after.reverse, isBlank c := fun c hc => hafter c (List.mem_reverse.1 hc)
    have hfirst : ∀ a ∈ (c :: cs ++ after).head?, isBlank a = false := hcs.1
    have hlast : ∀ a ∈ (c :: cs).reverse.head?, isBlank a = false := by
      rw [List.head?_reverse]
      exact hcs.2
    rw [List.append_assoc, dropWhile_blanks hbefore hfirst, List.reverse_append,
      dropWhile_blanks hafter' hlast, List.reverse_reverse]

/-- What is left of a text without its outer blanks has none. -/
theorem noOuterBlanks_trim (cs : List Char) : NoOuterBlanks (trim cs) := by
  have hdropped : ∀ ds : List Char, ∀ c ∈ (ds.dropWhile isBlank).head?, isBlank c = false := by
    intro ds c hc
    have hhead := List.head?_dropWhile_not isBlank ds
    rw [Option.mem_def] at hc
    rw [hc] at hhead
    simpa using hhead
  constructor
  · -- what is taken off behind leaves the first character in its place
    intro c hc
    obtain ⟨rest, hrest⟩ := List.head?_eq_some_iff.1 hc
    obtain ⟨more, hmore⟩ : trim cs <+: trimStart cs := by
      rw [trim, trimEnd, ← List.reverse_suffix, List.reverse_reverse]
      exact List.dropWhile_suffix isBlank
    refine hdropped cs c ?_
    rw [hrest] at hmore
    rw [← trimStart, ← hmore]
    rfl
  · intro c hc
    rw [trim, trimEnd, List.getLast?_reverse] at hc
    exact hdropped _ c hc

/-- A text is left as it is exactly if it has no outer blanks. -/
theorem trim_eq_self_iff {cs : List Char} : trim cs = cs ↔ NoOuterBlanks cs := by
  constructor
  · intro h
    rw [← h]
    exact noOuterBlanks_trim cs
  · intro h
    have hnone : ∀ c ∈ ([] : List Char), isBlank c := fun c hc => absurd hc List.not_mem_nil
    have htrim := trim_append hnone hnone h
    rwa [List.nil_append, List.append_nil] at htrim

variable {α : Type} [DecidableEq α]

/-- A mark with a symbol that a sequence does not have splits nothing. -/
theorem splitAround?_of_notMem {mark cs : List α} {a : α} (ha : a ∈ mark) (hcs : a ∉ cs) :
    splitAround? mark cs = none :=
  splitAround?_eq_none_iff.2 fun h => hcs (h.subset ha)

end Text

/-! ### Splitting -/

namespace Query.Predicate

/-- The characters that operators end with. -/
def marks : List Char := ['<', '>', '=']

/-- Whether a text holds none of the characters that operators end with. -/
def Unmarked (cs : List Char) : Prop :=
  ∀ a ∈ marks, a ∉ cs

/-- An operator ends with a mark, which it has only once. -/
theorem exists_symbol_eq (op : Comparison) :
    ∃ front last, op.symbol.toList = front ++ [last] ∧ last ∉ front ∧ last ∈ marks := by
  cases op with
  | greaterOrEqual => exact ⟨['>'], '=', rfl, by decide, by decide⟩
  | lessOrEqual => exact ⟨['<'], '=', rfl, by decide, by decide⟩
  | notEqual => exact ⟨['!'], '=', rfl, by decide, by decide⟩
  | less => exact ⟨[], '<', rfl, by decide, by decide⟩
  | greater => exact ⟨[], '>', rfl, by decide, by decide⟩
  | equal => exact ⟨[], '=', rfl, by decide, by decide⟩

/-- An operator that is looked for before another one has a mark that this one does not have, but
    for `!=` before `=`. -/
theorem exists_missing {op earlier : Comparison}
    (h : earlier ∈ Comparison.all.takeWhile (· != op)) :
    (earlier = .notEqual ∧ op = .equal) ∨
      ∃ a ∈ marks, a ∈ earlier.symbol.toList ∧ a ∉ op.symbol.toList := by
  rw [← List.any_iff_exists_prop]
  revert h
  cases op <;> cases earlier <;> decide

variable {key comparand : List Char}

/-- An operator splits where it stands behind a key. -/
theorem splitAround?_symbol (op : Comparison) (hkey : Unmarked key) (comparand : List Char) :
    Text.splitAround? op.symbol.toList (key ++ op.symbol.toList ++ comparand)
      = some (key, comparand) := by
  obtain ⟨front, last, hsymbol, honce, hlast⟩ := exists_symbol_eq op
  rw [hsymbol, List.append_assoc]
  refine Text.splitAround?_append front key last honce (fun h => hkey last hlast ?_) comparand
  exact h.subset (List.mem_append_right _ (List.mem_singleton_self last))

/-- An equals sign behind a key that does not end with an exclamation mark is no part of `!=`. -/
theorem not_infix_equal (hkey : '=' ∉ key) (hcomparand : '=' ∉ comparand)
    (hlast : ∀ c ∈ key.getLast?, c ≠ '!') :
    ¬ ['!', '='] <:+: key ++ ['='] ++ comparand := by
  rintro ⟨front, behind, heq⟩
  -- there is only one such sign, so an exclamation mark would stand before it
  have heq : key ++ '=' :: comparand = (front ++ ['!']) ++ '=' :: behind := by
    simpa using heq.symm
  obtain ⟨rfl, -, -⟩ := (List.append_cons_inj_of_notMem hkey hcomparand).1 heq
  exact hlast '!' List.getLast?_concat rfl

/-- No operator that is looked for before the one between a key and a comparand occurs in them. -/
theorem splitAround?_earlier {op earlier : Comparison} (hkey : Unmarked key)
    (hlast : ∀ c ∈ key.getLast?, c ≠ '!') (hcomparand : Unmarked comparand)
    (h : earlier ∈ Comparison.all.takeWhile (· != op)) :
    Text.splitAround? earlier.symbol.toList (key ++ op.symbol.toList ++ comparand) = none := by
  rcases exists_missing h with ⟨rfl, rfl⟩ | ⟨a, ha, hearlier, hop⟩
  · exact Text.splitAround?_eq_none_iff.2
      (not_infix_equal (hkey '=' (by decide)) (hcomparand '=' (by decide)) hlast)
  · refine Text.splitAround?_of_notMem hearlier ?_
    rw [List.mem_append, List.mem_append]
    exact fun hmem => hmem.elim (fun hmem => hmem.elim (hkey a ha) hop) (hcomparand a ha)

/-- Operators that do not occur are passed over. -/
theorem parseWith?_append {source : List Char} {ops : List Comparison}
    (h : ∀ op ∈ ops, Text.splitAround? op.symbol.toList source = none) (more : List Comparison) :
    parseWith? source (ops ++ more) = parseWith? source more := by
  induction ops with
  | nil => rfl
  | cons op ops ih =>
    rw [List.forall_mem_cons] at h
    simp only [List.cons_append, parseWith?, h.1, ih h.2]

/-- **A predicate is read back from its parts**, if these hold no marks of operators, and the key
    does not end with an exclamation mark. -/
theorem parse_written (op : Comparison) (hkey : Unmarked key)
    (hlast : ∀ c ∈ key.getLast?, c ≠ '!') (hcomparand : Unmarked comparand) :
    parse (String.ofList (key ++ op.symbol.toList ++ comparand))
      = ⟨trimmed key, some (op, trimmed comparand)⟩ := by
  have hall : ∃ later, Comparison.all = Comparison.all.takeWhile (· != op) ++ op :: later := by
    cases op <;> exact ⟨_, rfl⟩
  obtain ⟨later, hlater⟩ := hall
  have hsplit := splitAround?_symbol op hkey comparand
  have hearlier : ∀ earlier ∈ Comparison.all.takeWhile (· != op),
      Text.splitAround? earlier.symbol.toList (key ++ op.symbol.toList ++ comparand) = none :=
    fun _ => splitAround?_earlier hkey hlast hcomparand
  have hskip := parseWith?_append hearlier (op :: later)
  rw [← hlater] at hskip
  simp only [parse, String.toList_ofList, hskip, parseWith?, hsplit]

/-! ### How any text is split -/

/-- How an operator splits a text: no operator that is looked for before it occurs in the text, and
    it does not occur itself before the place where it splits. -/
structure SplitsAt (op : Comparison) (source before after : List Char) : Prop where
  priority : ∃ earlier later, Comparison.all = earlier ++ op :: later ∧
    ∀ other ∈ earlier, ¬ other.symbol.toList <:+: source
  whole : source = before ++ op.symbol.toList ++ after
  earliest : ∀ {front behind : List Char}, source = front ++ op.symbol.toList ++ behind →
    before.length ≤ front.length

/-- A text in which some operator occurs is split by one. -/
theorem exists_splitsAt {source : String} {op : Comparison}
    (h : op.symbol.toList <:+: source.toList) :
    ∃ first before after, SplitsAt first source.toList before after ∧
      parse source = ⟨trimmed before, some (first, trimmed after)⟩ := by
  have hall : op ∈ Comparison.all := by
    cases op <;> decide
  have hop : (Text.splitAround? op.symbol.toList source.toList).isSome :=
    Option.isSome_iff_ne_none.2 fun hnone => Text.splitAround?_eq_none_iff.1 hnone h
  have hsome : (Comparison.all.find? fun op =>
      (Text.splitAround? op.symbol.toList source.toList).isSome).isSome :=
    List.find?_isSome.2 ⟨op, hall, hop⟩
  obtain ⟨first, hfirst⟩ := Option.isSome_iff_exists.1 hsome
  obtain ⟨hsplits, earlier, later, heq, hearlier⟩ := List.find?_eq_some_iff_append.1 hfirst
  obtain ⟨⟨before, after⟩, hsplit⟩ := Option.isSome_iff_exists.1 hsplits
  have hnone : ∀ other ∈ earlier,
      Text.splitAround? other.symbol.toList source.toList = none := by
    intro other hother
    simpa using hearlier other hother
  refine ⟨first, before, after, ⟨⟨earlier, later, heq, fun other hother => ?priority⟩,
    Text.splitAround?_eq_append hsplit, Text.splitAround?_least hsplit⟩, ?parse⟩
  case priority => exact Text.splitAround?_eq_none_iff.1 (hnone other hother)
  case parse =>
    have hskip := parseWith?_append hnone (first :: later)
    rw [← heq] at hskip
    simp only [parse, hskip, parseWith?, hsplit]

/-- A text in which no operator occurs asks for an attribute. -/
theorem parse_of_no_operator {source : String}
    (h : ∀ op : Comparison, ¬ op.symbol.toList <:+: source.toList) :
    parse source = ⟨trimmed source.toList, none⟩ := by
  have hnone : ∀ op ∈ Comparison.all,
      Text.splitAround? op.symbol.toList source.toList = none :=
    fun op _ => Text.splitAround?_eq_none_iff.2 (h op)
  have hskip := parseWith?_append hnone []
  rw [List.append_nil] at hskip
  simp only [parse, hskip, parseWith?]

/-- Neither a mark nor an exclamation mark is blank. -/
theorem isBlank_of_mem_marks {c : Char} (h : c ∈ '!' :: marks) : Text.isBlank c = false := by
  have hall : ∀ a ∈ '!' :: marks, Text.isBlank a = false := List.all_iff_forall_prop.1 (by decide)
  exact hall c h

/-- A text with blanks around it holds no marks if it holds none by itself. -/
theorem Unmarked.blanks {before cs after : List Char} (h : Unmarked cs)
    (hbefore : ∀ c ∈ before, Text.isBlank c) (hafter : ∀ c ∈ after, Text.isBlank c) :
    Unmarked (before ++ cs ++ after) := by
  intro a ha hmem
  have hblank := isBlank_of_mem_marks (List.mem_cons_of_mem _ ha)
  rw [List.mem_append, List.mem_append] at hmem
  rcases hmem with (hmem | hmem) | hmem
  · exact Bool.false_ne_true (hblank.symm.trans (hbefore a hmem))
  · exact h a ha hmem
  · exact Bool.false_ne_true (hblank.symm.trans (hafter a hmem))

/-- A text with blanks around it does not end with an exclamation mark if it does not by itself. -/
theorem getLast?_blanks_ne {before cs after : List Char} (h : ∀ c ∈ cs.getLast?, c ≠ '!')
    (hbefore : ∀ c ∈ before, Text.isBlank c) (hafter : ∀ c ∈ after, Text.isBlank c) :
    ∀ c ∈ (before ++ cs ++ after).getLast?, c ≠ '!' := by
  rintro c hc rfl
  have hblank := isBlank_of_mem_marks (List.mem_cons_self (a := '!') (l := marks))
  rw [Option.mem_def, List.getLast?_append, List.getLast?_append, Option.or_eq_some_iff,
    Option.or_eq_some_iff] at hc
  rcases hc with hc | ⟨-, hc | ⟨-, hc⟩⟩
  · exact Bool.false_ne_true (hblank.symm.trans (hafter _ (List.mem_of_getLast? hc)))
  · exact h _ hc rfl
  · exact Bool.false_ne_true (hblank.symm.trans (hbefore _ (List.mem_of_getLast? hc)))

/-- A text without outer blanks is left when those around it are taken off. -/
theorem trimmed_append {before after : List Char} {s : String}
    (hbefore : ∀ c ∈ before, Text.isBlank c) (hafter : ∀ c ∈ after, Text.isBlank c)
    (hs : Text.NoOuterBlanks s.toList) : trimmed (before ++ s.toList ++ after) = s := by
  rw [trimmed, Text.trim_append hbefore hafter hs, String.ofList_toList]

/-- **A predicate is split as it is written.**  A text has an operator exactly if one occurs in it;
    it is then the first one in the order of all operators, and the key and the comparand are what
    stands in front of its first occurrence and behind it, without outer blanks.  A key, an operator
    and a comparand are read back whatever blanks stand around them, if the first and the last hold
    no marks of operators and no outer blanks, and the key does not end with an exclamation mark. -/
theorem parse_splits :
    (∀ source : String,
      ((parse source).test.isSome ↔ ∃ op : Comparison, op.symbol.toList <:+: source.toList) ∧
      ∀ op comparand, (parse source).test = some (op, comparand) →
        ∃ before after, SplitsAt op source.toList before after ∧
          (parse source).key = trimmed before ∧ comparand = trimmed after) ∧
    ∀ (op : Comparison) {key comparand front before after behind : String},
      Text.NoOuterBlanks key.toList → Unmarked key.toList → (∀ c ∈ key.toList.getLast?, c ≠ '!') →
      Text.NoOuterBlanks comparand.toList → Unmarked comparand.toList →
      (∀ c ∈ front.toList, Text.isBlank c) → (∀ c ∈ before.toList, Text.isBlank c) →
      (∀ c ∈ after.toList, Text.isBlank c) → (∀ c ∈ behind.toList, Text.isBlank c) →
      parse (front ++ key ++ before ++ op.symbol ++ after ++ comparand ++ behind)
        = ⟨key, some (op, comparand)⟩ := by
  constructor
  · intro source
    by_cases hoccurs : ∃ op : Comparison, op.symbol.toList <:+: source.toList
    · obtain ⟨op, hop⟩ := hoccurs
      obtain ⟨first, before, after, hsplits, hparse⟩ := exists_splitsAt hop
      rw [hparse]
      refine ⟨⟨fun _ => ⟨op, hop⟩, fun _ => rfl⟩, ?_⟩
      rintro _ _ ⟨⟩
      exact ⟨before, after, hsplits, rfl, rfl⟩
    · rw [parse_of_no_operator (not_exists.1 hoccurs)]
      exact ⟨⟨fun h => absurd h Bool.false_ne_true, fun h => absurd h hoccurs⟩,
        fun _ _ h => nomatch h⟩
  · intro op key comparand front before after behind hkey hkeyMarks hlast hcomparand hmarks
      hfront hbefore hafter hbehind
    have hwritten : front ++ key ++ before ++ op.symbol ++ after ++ comparand ++ behind
        = String.ofList ((front.toList ++ key.toList ++ before.toList) ++ op.symbol.toList
          ++ (after.toList ++ comparand.toList ++ behind.toList)) := by
      rw [← String.toList_inj]
      simp
    rw [hwritten, parse_written op (hkeyMarks.blanks hfront hbefore)
      (getLast?_blanks_ne hlast hfront hbefore) (hmarks.blanks hafter hbehind),
      trimmed_append hfront hbefore hkey, trimmed_append hafter hbehind hcomparand]

/-- The operator `!=` is looked for before `=`.  An exclamation mark that stands behind an equals
    sign, or before it but for a blank, does not belong to it. -/
theorem parse_splits_exclamation :
    (parse "x=a!=b").test = some (.notEqual, "b") ∧
      (∃ before after, SplitsAt .notEqual "x=a!=b".toList before after ∧
        (parse "x=a!=b").key = trimmed before ∧ "b" = trimmed after) ∧
      parse ("\u00A0" ++ "a !b" ++ " " ++ "=" ++ "" ++ "!c" ++ " ")
        = ⟨"a !b", some (.equal, "!c")⟩ := by
  have htest : (parse "x=a!=b").test = some (.notEqual, "b") := by decide
  have hkey : Text.NoOuterBlanks "a !b".toList := Text.trim_eq_self_iff.1 (by decide)
  have hkeyMarks : Unmarked "a !b".toList := List.all_iff_forall_prop.1 (by decide)
  have hlast : ∀ c ∈ "a !b".toList.getLast?, c ≠ '!' := by
    rintro c ⟨⟩
    decide
  have hcomparand : Text.NoOuterBlanks "!c".toList := Text.trim_eq_self_iff.1 (by decide)
  have hmarks : Unmarked "!c".toList := List.all_iff_forall_prop.1 (by decide)
  have hfront : ∀ c ∈ "\u00A0".toList, Text.isBlank c := List.all_eq_true.1 (by decide)
  have hblank : ∀ c ∈ " ".toList, Text.isBlank c := List.all_eq_true.1 (by decide)
  have hnone : ∀ c ∈ "".toList, Text.isBlank c := List.all_eq_true.1 (by decide)
  obtain ⟨hsplits, hwritten⟩ := parse_splits
  exact ⟨htest, (hsplits "x=a!=b").2 _ _ htest,
    hwritten .equal hkey hkeyMarks hlast hcomparand hmarks hfront hblank hnone hblank⟩

end Query.Predicate

/-! ### Integers -/

namespace Comparison

/-- What an operator says of two integers. -/
def Relates (op : Comparison) (a b : Int) : Prop :=
  match op with
  | greaterOrEqual => a ≥ b
  | lessOrEqual => a ≤ b
  | notEqual => a ≠ b
  | less => a < b
  | greater => a > b
  | equal => a = b

instance (op : Comparison) (a b : Int) : Decidable (op.Relates a b) :=
  match op with
  | greaterOrEqual => inferInstanceAs (Decidable (a ≥ b))
  | lessOrEqual => inferInstanceAs (Decidable (a ≤ b))
  | notEqual => inferInstanceAs (Decidable (a ≠ b))
  | less => inferInstanceAs (Decidable (a < b))
  | greater => inferInstanceAs (Decidable (a > b))
  | equal => inferInstanceAs (Decidable (a = b))

/-- **An operator accepts the order of two integers exactly if it relates them.** -/
theorem accepts_compare (op : Comparison) (a b : Int) :
    op.accepts (compare a b) = decide (op.Relates a b) := by
  rw [Bool.eq_iff_iff, decide_eq_true_eq]
  rcases lt_trichotomy a b with h | h | h
  · rw [compare_lt_iff_lt.2 h]
    cases op <;> simp [accepts, Relates] <;> omega
  · rw [compare_eq_iff_eq.2 h]
    cases op <;> simp [accepts, Relates] <;> omega
  · rw [compare_gt_iff_gt.2 h]
    cases op <;> simp [accepts, Relates] <;> omega

end Comparison

end XmlQuery
