import Mathlib.Data.Bool.AllAny
import XmlQuery.Proofs.Document.Kinship
import XmlQuery.Proofs.Query.DocumentOrder
import XmlQuery.Proofs.Query.Names
import XmlQuery.Proofs.Query.Shorthand

namespace XmlQuery

/-!
# What paths find

A path of names goes down from a node set by set.  What it finds can be told from below: looking up
from a node one counts the steps to the start, and reads the names on the way down.  A step to
descendants finds what the paths of all lengths find.

* `Document.above?`, `Document.wayDown` — the node some steps above a node, and the nodes from there
  down.
* `Query.childPath`, `Query.compile_childPath` — the path of some steps, and its operations.
* `Query.mem_reach_names`, `Query.mem_reach_pathAtDepth` — where the operations of a path lead.
* `Query.queryFrom_childPath`, `Query.queryFrom_named` — the answers to paths, and to a step to
  descendants.
* `Query.queryFrom_paths` — what they mean, and that one is made up of the others.
-/

/-! ### Ways down -/

namespace Document

/-- The node that is some steps above a node. -/
def above? (d : Document) (steps id : Nat) : Option Nat :=
  (id :: d.ancestors id)[steps]?

/-- The way of some steps down to a node, without the node that it begins at. -/
def wayDown (d : Document) (steps id : Nat) : List Nat :=
  ((id :: d.ancestors id).take steps).reverse

/-- The name of a node in lower case. -/
def lowerName? (d : Document) (id : Nat) : Option String :=
  (d.name? id).map Text.lower

variable {d : Document}

/-- No step above a node is the node itself. -/
theorem above?_zero (d : Document) (id : Nat) : d.above? 0 id = some id :=
  rfl

/-- One step more leads to the parent. -/
theorem WellFormed.above?_succ (h : d.WellFormed) (steps id : Nat) :
    d.above? (steps + 1) id = (d.above? steps id).bind d.parent? := by
  induction steps generalizing id with
  | zero =>
    rw [above?_zero, Option.bind_some, above?, List.getElem?_cons_succ]
    cases hp : d.parent? id with
    | none => rw [WellFormed.ancestors_of_parent?_eq_none hp, List.getElem?_nil]
    | some p => rw [h.ancestors_of_parent? hp, List.getElem?_cons_zero]
  | succ steps ih =>
    rw [above?, above?, List.getElem?_cons_succ, List.getElem?_cons_succ]
    cases hp : d.parent? id with
    | none =>
      rw [WellFormed.ancestors_of_parent?_eq_none hp, List.getElem?_nil, List.getElem?_nil,
        Option.bind_none]
    | some p =>
      rw [h.ancestors_of_parent? hp]
      exact ih p

/-- A way that is one step longer has the node in front that it used to begin at. -/
theorem wayDown_succ {steps id first : Nat} (h : d.above? steps id = some first) :
    d.wayDown (steps + 1) id = first :: d.wayDown steps id := by
  rw [above?] at h
  rw [wayDown, wayDown, List.take_add_one, h, List.reverse_append]
  rfl

/-- A way of some steps leads down to its node. -/
theorem mem_wayDown (d : Document) {steps : Nat} (h : steps ≠ 0) (id : Nat) :
    id ∈ d.wayDown steps id := by
  obtain ⟨steps, rfl⟩ := Nat.exists_eq_succ_of_ne_zero h
  rw [wayDown, List.mem_reverse, List.take_succ_cons]
  exact List.mem_cons_self

/-- What is above an element is an element. -/
theorem WellFormed.isElement_of_above? (h : d.WellFormed) {steps id i : Nat}
    (hid : d.isElement id) (hi : d.above? steps id = some i) : d.isElement i := by
  rcases List.mem_cons.1 (List.mem_of_getElem? hi) with rfl | hmem
  · exact hid
  · exact h.isElement_of_mem_ancestors hmem

/-- A node is above another one at one distance only. -/
theorem WellFormed.above?_inj (h : d.WellFormed) {steps steps' id i : Nat}
    (hi : d.above? steps id = some i) (hi' : d.above? steps' id = some i) : steps = steps' := by
  have hnodup : (id :: d.ancestors id).Nodup :=
    (h.pairwise_ancestors id).imp fun hgt => Nat.ne_of_gt hgt
  exact (List.getElem?_inj (List.getElem?_eq_some_iff.1 hi).1 hnodup).1 (hi.trans hi'.symm)

/-- A node is below those that are some steps above it. -/
theorem WellFormed.mem_descendants_iff_above? (h : d.WellFormed) {i id : Nat} :
    id ∈ d.descendants i ↔ ∃ steps, d.above? (steps + 1) id = some i := by
  rw [h.mem_descendants_iff, List.mem_iff_getElem?]
  rfl

end Document

namespace Query

/-- A name is that of a node but for case exactly if the two are equal in lower case. -/
theorem hasNameIgnoringCase_iff {d : Document} {name : String} {id : Nat} :
    hasNameIgnoringCase d name id ↔ d.lowerName? id = some (Text.lower name) := by
  rw [hasNameIgnoringCase, Document.lowerName?, Document.name?]
  cases d.node? id with
  | none => simp
  | some n => simp

/-! ### Paths -/

/-- What can stand behind a slash of a path: a name, or an asterisk for all names. -/
def IsStep (text : String) : Prop :=
  text = "*" ∨ IsName text

/-- The test that stands behind a slash of a path. -/
def stepTest (text : String) : Operation :=
  if text = "*" then .ofText .wildcard "" else .ofText .element text

/-- The path of some steps, each with a slash in front. -/
def childPath (steps : List String) : String :=
  String.join (steps.map ("/" ++ ·))

/-- The operations of a path: for each step one to children, and one that tests them. -/
def childOperations (steps : List String) : List Operation :=
  steps.flatMap fun text => [.ofText .child "/", stepTest text]

/-- A name is no asterisk. -/
theorem IsName.stepTest_eq {name : String} (h : IsName name) :
    stepTest name = .ofText .element name := by
  have hne : name ≠ "*" := by
    rintro rfl
    exact absurd (h.chars '*' (by decide)) (by decide)
  exact if_neg hne

/-- A step of a path tests nodes: it neither moves on nor asks for positions. -/
theorem stepTest_instruction (text : String) :
    (stepTest text).instruction = .wildcard ∨ (stepTest text).instruction = .element := by
  unfold stepTest
  split
  · exact .inl rfl
  · exact .inr rfl

/-- A step behind a slash has two operations of its own. -/
theorem compile_step {text : String} (h : IsStep text) :
    compile ("/" ++ text)
      = .ok ⟨"/" ++ text, [.ofText .null "", .ofText .child "/", stepTest text]⟩ := by
  have hslash : Pending.nothing.next '/' = .ok ([.ofText .null ""], .child) :=
    Pending.next_slash rfl Pending.noConfusion
  rw [compile_eq_ok_iff, String.toList_append]
  rcases h with rfl | hname
  · exact ⟨_, .wildcard, .emit hslash (.emit (Pending.next_asterisk rfl) (.nil _)), rfl, rfl⟩
  · refine ⟨_, _, .emit hslash (Pending.reads_name (.inl rfl) hname), rfl, ?_⟩
    rw [hname.stepTest_eq, Pending.operation_element]
    rfl

/-- **The operations of a path are those of its steps.** -/
theorem compile_childPath {steps : List String} (h : ∀ text ∈ steps, IsStep text) :
    compile (childPath steps)
      = .ok ⟨childPath steps, .ofText .null "" :: childOperations steps⟩ := by
  induction steps with
  | nil => rfl
  | cons text steps ih =>
    rw [List.forall_mem_cons] at h
    have hpath : childPath (text :: steps) = ("/" ++ text) ++ childPath steps := by
      rw [childPath, List.map_cons, String.join_cons]
      rfl
    have hhead : ∀ c ∈ (childPath steps).toList.head?, c ∈ joints := by
      cases steps with
      | nil =>
        have hempty : (childPath []).toList.head? = none := by decide
        rw [hempty]
        exact fun c hc => nomatch hc
      | cons text' steps =>
        rw [childPath, List.map_cons, String.join_cons, String.toList_append, String.toList_append]
        rintro c ⟨⟩
        decide
    have hlast : ∀ op ∈ [.ofText .null "", .ofText .child "/", stepTest text].getLast?,
        op.instruction ≠ .child := by
      rintro op ⟨⟩
      rcases stepTest_instruction text with htest | htest <;> simp [htest]
    rw [hpath]
    exact (compile_append_eq_ok_iff (compile_step h.1) (joinsOnto_of_head hhead hlast) _).2
      ⟨_, ih h.2, rfl⟩

/-! ### Where paths lead -/

variable {d : Document}

/-- The operations of a path are steps to children and tests of elements. -/
theorem childOperations_instruction {steps : List String} {op : Operation}
    (hop : op ∈ childOperations steps) :
    op.instruction = .child ∨ op.instruction = .wildcard ∨ op.instruction = .element := by
  obtain ⟨text, -, hop⟩ := List.mem_flatMap.1 hop
  rw [List.mem_cons, List.mem_singleton] at hop
  rcases hop with rfl | rfl
  · exact .inl rfl
  · exact .inr (stepTest_instruction text)

/-- A name behind a slash keeps the nodes of that name. -/
theorem IsName.keeps_stepTest {name : String} (h : IsName name) (d : Document) (id : Nat) :
    (stepTest name).keeps d id = hasNameIgnoringCase d name id := by
  rw [h.stepTest_eq]
  rfl

/-- A step of a path leads to the children that are elements and pass its test. -/
theorem mem_reach_step (h : d.WellFormed) {text : String} {steps : List String} {top id : Nat} :
    id ∈ reach d (childOperations (text :: steps)) top ↔
      ∃ child, d.parent? child = some top ∧ d.isElement child ∧ (stepTest text).keeps d child ∧
        id ∈ reach d (childOperations steps) child := by
  have htest : ∀ child, (stepTest text).each d child
      = [child].filter ((stepTest text).keeps d) := by
    intro child
    rcases stepTest_instruction text with htest | htest <;>
      exact Operation.each_test (by simp [htest]) (by simp [htest]) d child
  have hreach : reach d (childOperations (text :: steps)) top
      = ((d.children top).filter d.isElement).flatMap fun child =>
          ((stepTest text).each d child).flatMap (reach d (childOperations steps)) := rfl
  simp only [hreach, htest, List.mem_flatMap, List.mem_filter, List.mem_singleton,
    h.mem_children_iff]
  constructor
  · rintro ⟨child, ⟨hparent, helement⟩, _, ⟨rfl, htext⟩, hid⟩
    exact ⟨_, hparent, helement, htext, hid⟩
  · rintro ⟨child, hparent, helement, htext, hid⟩
    exact ⟨child, ⟨hparent, helement⟩, child, ⟨rfl, htext⟩, hid⟩

/-- **A path of names leads to the nodes with these names on the way down**, as many steps below the
    start as there are names. -/
theorem mem_reach_names (h : d.WellFormed) {names : List String}
    (hnames : ∀ name ∈ names, IsName name) {top id : Nat} :
    id ∈ reach d (childOperations names) top ↔
      d.above? names.length id = some top ∧
        (d.wayDown names.length id).map d.lowerName?
          = names.map fun name => some (Text.lower name) := by
  induction names generalizing top with
  | nil =>
    show id ∈ [top] ↔ some id = some top ∧ [] = []
    rw [List.mem_singleton, Option.some.injEq, and_iff_left rfl]
  | cons name names ih =>
    rw [List.forall_mem_cons] at hnames
    rw [mem_reach_step h, List.length_cons, h.above?_succ, Option.bind_eq_some_iff, List.map_cons]
    constructor
    · rintro ⟨child, hparent, -, hname, hid⟩
      rw [hnames.1.keeps_stepTest, hasNameIgnoringCase_iff] at hname
      obtain ⟨habove, hway⟩ := (ih hnames.2).1 hid
      refine ⟨⟨child, habove, hparent⟩, ?_⟩
      rw [Document.wayDown_succ habove, List.map_cons, hname, hway]
    · rintro ⟨⟨child, habove, hparent⟩, hway⟩
      rw [Document.wayDown_succ habove, List.map_cons, List.cons.injEq] at hway
      have hname := hasNameIgnoringCase_iff.2 hway.1
      refine ⟨child, hparent, isElement_of_hasNameIgnoringCase hnames.1 hname, ?_, ?_⟩
      · rw [hnames.1.keeps_stepTest, hname]
      · exact (ih hnames.2).2 ⟨habove, hway.2⟩

/-- The names on the way down to a node tell that it is an element. -/
theorem isElement_of_wayDown {names : List String} (hnames : ∀ name ∈ names, IsName name)
    (hne : names ≠ []) {id : Nat}
    (hway : (d.wayDown names.length id).map d.lowerName?
      = names.map fun name => some (Text.lower name)) : d.isElement id := by
  have hlast := Document.mem_wayDown d (mt List.length_eq_zero_iff.1 hne) id
  have hmem := List.mem_map_of_mem (f := d.lowerName?) hlast
  rw [hway] at hmem
  obtain ⟨name, hname, heq⟩ := List.mem_map.1 hmem
  exact isElement_of_hasNameIgnoringCase (hnames name hname) (hasNameIgnoringCase_iff.2 heq.symm)

/-- The path to a name at some depth: any elements down to there, and elements of the name. -/
def pathAtDepth (depth : Nat) (name : String) : List String :=
  List.replicate depth "*" ++ [name]

/-- **A name behind asterisks leads to the nodes of the name**, as many steps below the start. -/
theorem mem_reach_pathAtDepth (h : d.WellFormed) {name : String} (hname : IsName name)
    (depth : Nat) {top id : Nat} :
    id ∈ reach d (childOperations (pathAtDepth depth name)) top ↔
      d.above? (depth + 1) id = some top ∧ hasNameIgnoringCase d name id := by
  induction depth generalizing top with
  | zero =>
    have hway : (d.wayDown 1 id).map d.lowerName? = [d.lowerName? id] := rfl
    rw [pathAtDepth, List.replicate_zero, List.nil_append,
      mem_reach_names h (List.forall_mem_singleton.2 hname), List.length_singleton, hway,
      List.map_singleton, List.singleton_inj, hasNameIgnoringCase_iff]
  | succ depth ih =>
    have hpath : pathAtDepth (depth + 1) name = "*" :: pathAtDepth depth name := rfl
    rw [hpath, mem_reach_step h, h.above?_succ, Option.bind_eq_some_iff]
    constructor
    · rintro ⟨child, hparent, -, -, hid⟩
      obtain ⟨habove, hid⟩ := ih.1 hid
      exact ⟨⟨child, habove, hparent⟩, hid⟩
    · rintro ⟨⟨child, habove, hparent⟩, hid⟩
      have helement := h.isElement_of_above? (isElement_of_hasNameIgnoringCase hname hid) habove
      exact ⟨child, hparent, helement, helement, ih.2 ⟨habove, hid⟩⟩

/-! ### Answers -/

/-- **A path has an answer from every node**: where its operations lead, in document order. -/
theorem queryFrom_childPath (h : d.WellFormed) {start : Nat} (hstart : d.contains start)
    {steps : List String} (hsteps : ∀ text ∈ steps, IsStep text) :
    d.queryFrom start (childPath steps) = .ok (reach d (childOperations steps) start) ∧
      (reach d (childOperations steps) start).Sublist (start :: d.descendants start) := by
  have hfree : ∀ op ∈ childOperations steps, op.IndexFree := by
    intro op hop hbracket
    rcases childOperations_instruction hop with hop | hop | hop <;> simp [hop] at hbracket
  have hdescendant : ∀ op ∈ childOperations steps, op.instruction ≠ .descendant := by
    intro op hop
    rcases childOperations_instruction hop with hop | hop | hop <;> simp [hop]
  have hrun : run d (childOperations steps) [start]
      = .ok (reach d (childOperations steps) start) := by
    rw [run_eq_flatMap hfree, List.flatMap_singleton]
  constructor
  · rw [queryFrom_of_compile (compile_childPath hsteps), evaluate, if_pos hstart]
    -- the idle operation in front does nothing
    exact congrArg (Except.mapError QueryError.evaluation) hrun
  · rw [← h.subtree_eq_cons_descendants]
    exact (run_apart h hdescendant (.singleton d start) hrun).sublist

/-- **A step to descendants finds all nodes of a name below the start.** -/
theorem queryFrom_named {start : Nat} (hstart : d.contains start) {name : String}
    (hname : IsName name) :
    d.queryFrom start ("//" ++ name)
      = .ok ((d.descendants start).filter (hasNameIgnoringCase d name)) := by
  have hcompile : compile ("//" ++ name) = .ok ⟨"//" ++ name,
      [.ofText .null "", .ofText .descendant "//", .ofText .element name]⟩ := by
    have hslash : Pending.nothing.next '/' = .ok ([.ofText .null ""], .child) :=
      Pending.next_slash rfl Pending.noConfusion
    rw [compile_eq_ok_iff, String.toList_append]
    refine ⟨_, _, .emit hslash (.silent Pending.next_secondSlash
      (Pending.reads_name (.inr rfl) hname)), rfl, ?_⟩
    rw [Pending.operation_element]
    rfl
  rw [queryFrom_of_compile hcompile, evaluate, if_pos hstart]
  show Except.ok (([start].flatMap d.descendants).filter (hasNameIgnoringCase d name)) = _
  rw [List.flatMap_singleton]

/-- **What paths find, told from below.**  A path of names finds the elements that have the start as
    many steps above them as there are names, and these names on the way down, but for case; each
    one once and in document order.  A step to descendants with a name finds what the paths to that
    name at all depths find, of which no two have a node in common. -/
theorem queryFrom_paths (hd : d.Reachable) {start : Nat} (hstart : d.contains start) :
    (∀ names : List String, names ≠ [] → (∀ name ∈ names, IsName name) →
      ∃ found, d.queryFrom start (childPath names) = .ok found ∧
        (∀ id, id ∈ found ↔ d.isElement id ∧ d.above? names.length id = some start ∧
          (d.wayDown names.length id).map d.lowerName?
            = names.map fun name => some (Text.lower name)) ∧
        found.Nodup ∧ found.Sublist (start :: d.descendants start)) ∧
      ∀ name, IsName name → ∃ found, ∃ level : Nat → List Nat,
        d.queryFrom start ("//" ++ name) = .ok found ∧ found.Nodup ∧
          (∀ depth, d.queryFrom start (childPath (pathAtDepth depth name)) = .ok (level depth) ∧
            (level depth).Nodup) ∧
          (∀ id, id ∈ found ↔ ∃ depth, id ∈ level depth) ∧
          ∀ depth depth', depth ≠ depth' → List.Disjoint (level depth) (level depth') := by
  have hwf := hd.wellFormed
  have hnodup := hwf.nodup_subtree start
  rw [hwf.subtree_eq_cons_descendants] at hnodup
  constructor
  · intro names hne hnames
    obtain ⟨hfound, hsublist⟩ := queryFrom_childPath hwf hstart fun name hname =>
      .inr (hnames name hname)
    refine ⟨_, hfound, fun id => ?_, hnodup.sublist hsublist, hsublist⟩
    rw [mem_reach_names hwf hnames]
    exact ⟨fun h => ⟨isElement_of_wayDown hnames hne h.2, h⟩, fun h => h.2⟩
  · intro name hname
    have hsteps : ∀ depth, ∀ text ∈ pathAtDepth depth name, IsStep text := by
      intro depth text htext
      rcases List.mem_append.1 htext with htext | htext
      · exact .inl (List.eq_of_mem_replicate htext)
      · exact .inr (List.mem_singleton.1 htext ▸ hname)
    refine ⟨_, fun depth => reach d (childOperations (pathAtDepth depth name)) start,
      queryFrom_named hstart hname, ?once, fun depth => ?level, fun id => ?union,
      fun depth depth' hne id hid hid' => ?disjoint⟩
    case once => exact (List.nodup_cons.1 hnodup).2.filter _
    case level =>
      obtain ⟨hfound, hsublist⟩ := queryFrom_childPath hwf hstart (hsteps depth)
      exact ⟨hfound, hnodup.sublist hsublist⟩
    case union =>
      simp only [mem_reach_pathAtDepth hwf hname, List.mem_filter, hwf.mem_descendants_iff_above?,
        exists_and_right]
    case disjoint =>
      have habove := ((mem_reach_pathAtDepth hwf hname depth).1 hid).1
      have habove' := ((mem_reach_pathAtDepth hwf hname depth').1 hid').1
      exact hne (Nat.succ.inj (hwf.above?_inj habove habove'))

/-- Elements whose names differ in case, at two depths and not entered in document order. -/
theorem queryFrom_paths_nested :
    let d := ((((Document.ofEncoding "utf-8").edit (.addChild 0 "R" [])).edit
      (.addChild 1 "É" [])).edit (.addChild 1 "é" [])).edit (.addChild 2 "é" [])
    d.Reachable ∧ d.contains 0 ∧ (∀ name ∈ ["r", "é"], IsName name) ∧
      d.queryFrom 0 (childPath ["r", "é"]) = .ok [2, 3] ∧ d.above? 2 3 = some 0 ∧
      (d.wayDown 2 3).map d.lowerName? = [some "r", some "é"] ∧
      d.queryFrom 0 ("//" ++ "é") = .ok [2, 4, 3] ∧
      ∃ depth, ∃ level, d.queryFrom 0 (childPath (pathAtDepth depth "é")) = .ok level ∧
        4 ∈ level := by
  intro d
  have hd : d.Reachable := ((((Document.Reachable.ofEncoding "utf-8").edited
    (.addChild 0 "R" [])).edited (.addChild 1 "É" [])).edited (.addChild 1 "é" [])).edited
    (.addChild 2 "é" [])
  have hstart : d.contains 0 := by decide
  have hname : IsName "é" := ⟨by decide, List.all_iff_forall_prop.1 (by decide)⟩
  have hname' : IsName "r" := ⟨by decide, List.all_iff_forall_prop.1 (by decide)⟩
  have hnames : ∀ name ∈ ["r", "é"], IsName name :=
    List.forall_mem_cons.2 ⟨hname', List.forall_mem_singleton.2 hname⟩
  have hpath : d.queryFrom 0 (childPath ["r", "é"]) = .ok [2, 3] := by decide
  have hdeep : d.queryFrom 0 ("//" ++ "é") = .ok [2, 4, 3] := by decide
  obtain ⟨hpaths, hlevels⟩ := queryFrom_paths hd hstart
  obtain ⟨found, hfound, hmem, -, -⟩ := hpaths ["r", "é"] (by decide) hnames
  obtain ⟨found', level, hfound', -, hlevel, hunion, -⟩ := hlevels "é" hname
  rw [hpath, Except.ok.injEq] at hfound
  rw [hdeep, Except.ok.injEq] at hfound'
  subst hfound hfound'
  obtain ⟨-, habove, hway⟩ := (hmem 3).1 (by decide)
  obtain ⟨depth, hdepth⟩ := (hunion 4).1 (by decide)
  have hlower : ["r", "é"].map (fun name => some (Text.lower name)) = [some "r", some "é"] := by
    decide
  rw [hlower] at hway
  exact ⟨hd, hstart, hnames, hpath, habove, hway, hdeep, depth, level depth, (hlevel depth).1,
    hdepth⟩

end Query

end XmlQuery
