import XmlQuery.Proofs.Document.Nesting

namespace XmlQuery.Tree

/-!
# The normal form of trees

Markup does not tell where one text ends and the next one begins.  Trees that it can tell apart have
no two texts side by side, and no text that says nothing.

* `normalFrom`, `normal` — trees with each run of texts in one.
* `IsNormal` — trees that no run is left in.
* `isNormal_normal`, `IsNormal.normal_eq` — the normal form is one, and trees that have it keep it.
* `countP_normalFrom`, `sizeAll_normalFrom_le` — it has the same elements at its top, and no more
  nodes.
-/

open Nesting (leavesOut)

/-- The text that a run of texts becomes: none if it says nothing, or is formatting that is not
    wanted. -/
def runTree (drop : Bool) (run : String) : List Tree :=
  if run = "" ∨ leavesOut drop run then [] else [.text run]

/-- The text, if the tree is one. -/
def text? : Tree → Option String
  | element _ _ _ => none
  | text s => some s
  | cdata _ => none

mutual

/-- A tree with what is below it in normal form. -/
def normalBelow (drop : Bool) : Tree → Tree
  | element name attributes children => element name attributes (normalFrom drop "" children)
  | text s => text s
  | cdata bytes => cdata bytes

/-- The normal form of trees, with the run `run` of texts in front of them. -/
def normalFrom (drop : Bool) (run : String) : List Tree → List Tree
  | [] => runTree drop run
  | t :: ts =>
    match t.text? with
    | some s => normalFrom drop (run ++ s) ts
    | none => runTree drop run ++ t.normalBelow drop :: normalFrom drop "" ts

end

theorem normalFrom_nil (drop : Bool) (run : String) : normalFrom drop run [] = runTree drop run :=
  rfl

theorem normalFrom_element (drop : Bool) (run name : String)
    (attributes : List (String × String)) (children ts : List Tree) :
    normalFrom drop run (.element name attributes children :: ts)
      = runTree drop run
        ++ .element name attributes (normalFrom drop "" children) :: normalFrom drop "" ts := rfl

theorem normalFrom_text (drop : Bool) (run s : String) (ts : List Tree) :
    normalFrom drop run (.text s :: ts) = normalFrom drop (run ++ s) ts := rfl

theorem normalFrom_cdata (drop : Bool) (run : String) (bytes : List UInt8) (ts : List Tree) :
    normalFrom drop run (.cdata bytes :: ts)
      = runTree drop run ++ .cdata bytes :: normalFrom drop "" ts := rfl

/-- The normal form of trees: each run of texts in one, and no text that says nothing or is
    formatting that is not wanted. -/
def normal (drop : Bool) (ts : List Tree) : List Tree :=
  normalFrom drop "" ts

/-! ### Sizes -/

/-- A run becomes no element. -/
theorem countP_runTree (drop : Bool) (run : String) : (runTree drop run).countP isElement = 0 := by
  unfold runTree
  split <;> rfl

/-- A run takes one node at most, and none if it says nothing. -/
theorem sizeAll_runTree_le (drop : Bool) (run : String) :
    sizeAll (runTree drop run) ≤ if run = "" then 0 else 1 := by
  unfold runTree
  by_cases hrun : run = ""
  · rw [if_pos (.inl hrun), if_pos hrun, sizeAll_nil]
  · rw [if_neg hrun]
    split
    · rw [sizeAll_nil]
      exact Nat.zero_le 1
    · rw [sizeAll_cons, sizeAll_nil, size_text]

/-- The normal form has as many elements at its top as the trees have. -/
theorem countP_normalFrom (drop : Bool) (run : String) (ts : List Tree) :
    (normalFrom drop run ts).countP isElement = ts.countP isElement := by
  induction ts using forest_induction generalizing run with
  | nil => exact countP_runTree drop run
  | element name attributes children rest _ ihr =>
    rw [normalFrom_element, List.countP_append, countP_runTree, List.countP_cons_of_pos rfl,
      List.countP_cons_of_pos rfl, ihr, Nat.zero_add]
  | text s rest ih =>
    rw [normalFrom_text, ih, List.countP_cons_of_neg (by simp [isElement])]
  | cdata bytes rest ih =>
    rw [normalFrom_cdata, List.countP_append, countP_runTree,
      List.countP_cons_of_neg (by simp [isElement]), List.countP_cons_of_neg (by simp [isElement]),
      ih, Nat.zero_add]

/-- The normal form takes no more nodes than the trees, and the run in front of them, do. -/
theorem sizeAll_normalFrom_le (drop : Bool) (run : String) (ts : List Tree) :
    sizeAll (normalFrom drop run ts) ≤ (if run = "" then 0 else 1) + sizeAll ts := by
  have hempty : (if ("" : String) = "" then 0 else 1) = 0 := if_pos rfl
  have hle : ∀ s : String, (if s = "" then 0 else 1) ≤ 1 := by
    intro s
    split <;> omega
  induction ts using forest_induction generalizing run with
  | nil =>
    exact sizeAll_runTree_le drop run
  | element name attributes children rest ihc ihr =>
    have hrun := sizeAll_runTree_le drop run
    have hchildren := ihc ""
    have hrest := ihr ""
    rw [normalFrom_element, sizeAll_append, sizeAll_cons, sizeAll_cons, size_element, size_element]
    omega
  | text s rest ih =>
    rw [normalFrom_text, sizeAll_cons, size_text]
    -- the run takes over the node of the text
    have hs := ih (run ++ s)
    have hone := hle (run ++ s)
    omega
  | cdata bytes rest ih =>
    have hrun := sizeAll_runTree_le drop run
    have hrest := ih ""
    rw [normalFrom_cdata, sizeAll_append, sizeAll_cons, sizeAll_cons, size_cdata]
    omega

/-! ### Trees in normal form -/

/-- Trees in normal form: no text stands beside another one, says nothing, or is formatting that is
    not wanted. -/
inductive IsNormal (drop : Bool) : List Tree → Prop
  | nil : IsNormal drop []
  | element {name : String} {attributes : List (String × String)} {children ts : List Tree}
      (hchildren : IsNormal drop children) (h : IsNormal drop ts) :
      IsNormal drop (.element name attributes children :: ts)
  | text {s : String} {ts : List Tree} (hs : s ≠ "") (hkept : leavesOut drop s = false)
      (hnext : ∀ t ∈ ts.head?, t.text? = none) (h : IsNormal drop ts) :
      IsNormal drop (.text s :: ts)
  | cdata {bytes : List UInt8} {ts : List Tree} (h : IsNormal drop ts) :
      IsNormal drop (.cdata bytes :: ts)

/-- A run in front of trees in normal form leaves them so, if no text comes right behind it. -/
theorem IsNormal.runTree_append {drop : Bool} {ts : List Tree} (h : IsNormal drop ts)
    (hnext : ∀ t ∈ ts.head?, t.text? = none) (run : String) :
    IsNormal drop (runTree drop run ++ ts) := by
  unfold runTree
  split
  · exact h
  · rename_i hrun
    rw [not_or, Bool.not_eq_true] at hrun
    exact .text hrun.1 hrun.2 hnext h

/-- The normal form with a run in front of it is one. -/
theorem isNormal_normalFrom (drop : Bool) (run : String) (ts : List Tree) :
    IsNormal drop (normalFrom drop run ts) := by
  induction ts using forest_induction generalizing run with
  | nil =>
    have h : IsNormal drop (runTree drop run ++ []) := IsNormal.nil.runTree_append (by simp) run
    rwa [List.append_nil] at h
  | element name attributes children rest ihc ihr =>
    exact (IsNormal.element (ihc "") (ihr "")).runTree_append (by simp [text?]) run
  | text s rest ih => exact ih (run ++ s)
  | cdata bytes rest ih => exact (IsNormal.cdata (ih "")).runTree_append (by simp [text?]) run

/-- **The normal form is one.** -/
theorem isNormal_normal (drop : Bool) (ts : List Tree) : IsNormal drop (normal drop ts) :=
  isNormal_normalFrom drop "" ts

/-- **Trees in normal form keep it.** -/
theorem IsNormal.normal_eq {drop : Bool} {ts : List Tree} (h : IsNormal drop ts) :
    normal drop ts = ts := by
  have hnothing : runTree drop "" = [] := if_pos (.inl rfl)
  induction h with
  | nil => exact hnothing
  | element _ _ ihchildren ih =>
    rw [normal, normalFrom_element, hnothing, ← normal, ← normal, ihchildren, ih, List.nil_append]
  | @text s ts hs hkept hnext _ ih =>
    have hkept' : runTree drop s = [.text s] := if_neg (by simp [hs, hkept])
    -- no text comes behind this one, so the run ends with it
    have hrun : normalFrom drop s ts = runTree drop s ++ normal drop ts := by
      cases ts with
      | nil => rw [normal, normalFrom_nil, normalFrom_nil, hnothing, List.append_nil]
      | cons t ts =>
        cases t with
        | element name attributes children =>
          rw [normal, normalFrom_element, normalFrom_element, hnothing, List.nil_append]
        | text s' => cases hnext _ rfl
        | cdata bytes => rw [normal, normalFrom_cdata, normalFrom_cdata, hnothing, List.nil_append]
    rw [normal, normalFrom_text, String.empty_append, hrun, ih, hkept', List.singleton_append]
  | cdata _ ih => rw [normal, normalFrom_cdata, hnothing, ← normal, ih, List.nil_append]

example : normal true [.text " ", .text "a", .cdata [], .text "\n", .element "e" [] [.text ""]]
    = [.text " a", .cdata [], .element "e" [] []] :=
  rfl

end XmlQuery.Tree
