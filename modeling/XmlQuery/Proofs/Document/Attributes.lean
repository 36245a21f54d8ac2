import XmlQuery.Document.Node

namespace XmlQuery

/-!
# Attributes of elements

An element keeps its attributes twice, as they were given and as typed values.  Setting attributes
one after the other keeps the two maps in step, and an attribute list without repeated keys is
kept as it is.  Of the maps nothing but their laws is used.

* `Element.keys_setAttribute`, `Element.get?_setAttribute`, `Element.entries_setAttribute` — what
  an attribute that is set does.
* `Element.InStep` — the two maps agree.
* `Element.InStep.get?_typedAttributes` — one of them tells what the other one has under a key.
* `Element.ofAttributes_induction` — what setting attributes one after the other keeps up.
* `Element.inStep_ofAttributes` — the two maps agree whatever attributes are set.
* `Element.entries_ofAttributes` — a list without repeated keys is kept.
* `Element.ofAttributes_entries` — what was kept of a list can be set again in its place.
-/

namespace Element

/-! ### Setting an attribute -/

/-- An attribute that is set leaves the keys in their order, with a new one at the end. -/
theorem keys_setAttribute (e : Element) (key value : String) :
    (e.setAttribute key value).attributes.keys
      = if key ∈ e.attributes.keys then e.attributes.keys else e.attributes.keys ++ [key] :=
  OrderedMap.lawful.keys_insert e.attributes key value

/-- An attribute that is set has its value, and every other one the value it had. -/
theorem get?_setAttribute (e : Element) (key value k : String) :
    (e.setAttribute key value).attributes.get? k
      = if key = k then some value else e.attributes.get? k :=
  OrderedMap.lawful.get?_insert e.attributes key k value

/-- A new attribute goes to the end. -/
theorem entries_setAttribute {e : Element} {key : String} (h : key ∉ e.attributes.keys)
    (value : String) :
    (e.setAttribute key value).attributes.entries = e.attributes.entries ++ [(key, value)] :=
  OrderedMap.lawful.entries_insert_of_notMem value h

/-- No key is repeated. -/
theorem nodup_keys (e : Element) : e.attributes.keys.Nodup :=
  OrderedMap.lawful.nodup_keys e.attributes

/-! ### The two maps -/

/-- The typed attributes are those that were given, read as values. -/
def InStep (e : Element) : Prop :=
  e.typedAttributes.entries = e.attributes.entries.map fun a => (a.1, Value.ofAttribute a.2)

/-- Elements whose maps are in step are equal if they agree on all but the typed attributes. -/
theorem InStep.ext {e f : Element} (he : e.InStep) (hf : f.InStep) (hname : e.name = f.name)
    (hchildren : e.children = f.children)
    (hentries : e.attributes.entries = f.attributes.entries) : e = f := by
  have hattributes : e.attributes = f.attributes := OrderedMap.lawful.ext hentries
  have htyped : e.typedAttributes = f.typedAttributes :=
    OrderedMap.lawful.ext ((he.trans (by rw [hentries])).trans hf.symm)
  obtain ⟨_, _, _, _⟩ := e
  obtain ⟨_, _, _, _⟩ := f
  cases hname
  cases hchildren
  cases hattributes
  cases htyped
  rfl

/-- The typed attributes have the keys of those that were given. -/
theorem InStep.keys_typedAttributes {e : Element} (h : e.InStep) :
    e.typedAttributes.keys = e.attributes.keys := by
  rw [OrderedMap.keys, h, List.map_map]
  rfl

/-- A typed attribute is the one that was given, read as a value. -/
theorem InStep.get?_typedAttributes {e : Element} (h : e.InStep) (key : String) :
    e.typedAttributes.get? key = (e.attributes.get? key).map Value.ofAttribute :=
  OrderedMap.lawful.get?_map h key

/-- Setting an attribute keeps the two maps in step. -/
theorem InStep.setAttribute {e : Element} (h : e.InStep) (key value : String) :
    (e.setAttribute key value).InStep :=
  OrderedMap.lawful.entries_insert_map h key value

/-! ### Lists of attributes -/

/-- **What holds of an element without attributes, and is kept by each attribute of a list**, holds
    of the element with these attributes. -/
theorem ofAttributes_induction {motive : Element → Prop} (name : String)
    (attributes : List (String × String)) (hname : motive (ofName name))
    (hset : ∀ e key value, (key, value) ∈ attributes → motive e →
      motive (e.setAttribute key value)) :
    motive (ofAttributes name attributes) :=
  List.foldlRecOn attributes _ hname fun e he a ha => hset e a.1 a.2 ha he

/-- **The two maps are in step** whatever attributes are set. -/
theorem inStep_ofAttributes (name : String) (attributes : List (String × String)) :
    (ofAttributes name attributes).InStep :=
  ofAttributes_induction name attributes rfl fun _ key value _ h => h.setAttribute key value

/-- The name of an element is not touched by its attributes. -/
theorem name_ofAttributes (name : String) (attributes : List (String × String)) :
    (ofAttributes name attributes).name = name :=
  ofAttributes_induction (motive := fun e => e.name = name) name attributes rfl
    fun _ _ _ _ h => h

/-- An element has no children while only its attributes are set. -/
theorem children_ofAttributes (name : String) (attributes : List (String × String)) :
    (ofAttributes name attributes).children = [] :=
  ofAttributes_induction (motive := fun e => e.children = []) name attributes rfl
    fun _ _ _ _ h => h

/-- An element has no keys but those that are set. -/
theorem mem_of_mem_keys_ofAttributes {name key : String} {attributes : List (String × String)}
    (h : key ∈ (ofAttributes name attributes).attributes.keys) :
    key ∈ attributes.map Prod.fst := by
  refine ofAttributes_induction (motive := fun e => ∀ k ∈ e.attributes.keys,
    k ∈ attributes.map Prod.fst) name attributes ?_ ?_ key h
  · exact fun k hk => absurd hk List.not_mem_nil
  · intro e new value hnew he k hk
    rw [keys_setAttribute] at hk
    split at hk
    · exact he k hk
    · -- a new key goes to the end
      rcases List.mem_append.1 hk with hold | hlast
      · exact he k hold
      · rw [List.mem_singleton.1 hlast]
        exact List.mem_map_of_mem hnew

/-- The attributes of a list without repeated keys are kept as they are. -/
theorem entries_ofAttributes (name : String) {attributes : List (String × String)}
    (h : (attributes.map Prod.fst).Nodup) :
    (ofAttributes name attributes).attributes.entries = attributes := by
  suffices hfold : ∀ e : Element, (e.attributes.keys ++ attributes.map Prod.fst).Nodup →
      (attributes.foldl (fun e a => e.setAttribute a.1 a.2) e).attributes.entries
        = e.attributes.entries ++ attributes from hfold _ h
  clear h
  induction attributes with
  | nil => exact fun e _ => (List.append_nil _).symm
  | cons a rest ih =>
    intro e he
    obtain ⟨key, value⟩ := a
    rw [List.map_cons, List.append_cons] at he
    -- the key has not been set yet, so it goes to the end
    have hkey : key ∉ e.attributes.keys := by
      have := (List.nodup_append.1 (List.nodup_append.1 he).1).2.2
      exact fun hmem => this key hmem key (List.mem_singleton_self key) rfl
    have hkeys : (e.setAttribute key value).attributes.keys = e.attributes.keys ++ [key] := by
      rw [keys_setAttribute, if_neg hkey]
    rw [List.foldl_cons, ih _ (by rw [hkeys]; exact he), entries_setAttribute hkey,
      List.append_assoc]
    rfl

/-- **What was kept of a list of attributes can be set in its place.** -/
theorem ofAttributes_entries (name : String) (attributes : List (String × String)) :
    ofAttributes name (ofAttributes name attributes).attributes.entries
      = ofAttributes name attributes := by
  refine (inStep_ofAttributes _ _).ext (inStep_ofAttributes _ _) ?_ ?_ ?_
  · rw [name_ofAttributes, name_ofAttributes]
  · rw [children_ofAttributes, children_ofAttributes]
  · exact entries_ofAttributes name (nodup_keys _)

end Element

end XmlQuery
