namespace XmlQuery

/-!
# Maps that keep the order of insertion

A map from texts to values whose entries stand in the order in which their keys were first
inserted.

* `InsertionMap` — what is used of such maps, whatever they are made of.
* `InsertionMap.Lawful` — what is relied on.
* `InsertionMap.Lawful.keys_insert`, `InsertionMap.Lawful.get?_insert` — hence what an insertion
  does to the order of keys and to look-ups.
* `InsertionMap.Lawful.entries_insert_map`, `InsertionMap.Lawful.get?_map` — what becomes of two
  maps with the same keys, one of which has a function of the other one's values.
* `OrderedMap` — a map of this kind, as the list of its entries.
-/

/-! ### What is relied on -/

/-- What is used of maps `M α` from texts to values of a type `α`. -/
class InsertionMap (M : Type → Type) where
  /-- The map without entries. -/
  empty {α : Type} : M α
  /-- The entries in order. -/
  entries {α : Type} : M α → List (String × α)
  /-- The value of a key. -/
  get? {α : Type} : M α → String → Option α
  /-- The map with a value for a key. -/
  insert {α : Type} : M α → String → α → M α

namespace InsertionMap

variable {M : Type → Type} [InsertionMap M] {α β : Type}

/-- The keys of a map in order. -/
def keys (m : M α) : List String :=
  (entries m).map Prod.fst

variable (M) in
/-- What is relied on.  A map is known by its entries, among which no key is repeated, and a key is
    looked up in them.  A key that is inserted again keeps its place, and its value is replaced; a
    new one goes to the end. -/
structure Lawful : Prop where
  ext : ∀ {α : Type} {m m' : M α}, entries m = entries m' → m = m'
  nodup_keys : ∀ {α : Type} (m : M α), (keys m).Nodup
  get?_eq : ∀ {α : Type} (m : M α) key, get? m key = (entries m).lookup key
  entries_empty : ∀ {α : Type}, entries (empty : M α) = []
  entries_insert_of_mem : ∀ {α : Type} {m : M α} {key : String} (value : α), key ∈ keys m →
    entries (insert m key value)
      = (entries m).map fun entry => (entry.1, if entry.1 = key then value else entry.2)
  entries_insert_of_notMem : ∀ {α : Type} {m : M α} {key : String} (value : α), key ∉ keys m →
    entries (insert m key value) = entries m ++ [(key, value)]

/-! ### Looking up in entries -/

/-- Something is found under a key exactly if it is one of the keys. -/
theorem isSome_lookup_iff {key : String} {entries : List (String × α)} :
    (entries.lookup key).isSome ↔ key ∈ entries.map Prod.fst := by
  simp [List.lookup_isSome_iff]

/-- Looking up commutes with a change of the values, which may depend on the keys. -/
theorem lookup_map (f : String → α → β) (key : String) (entries : List (String × α)) :
    (entries.map fun entry => (entry.1, f entry.1 entry.2)).lookup key
      = (entries.lookup key).map (f key) := by
  induction entries with
  | nil => rfl
  | cons entry rest ih =>
    rw [List.map_cons, List.lookup_cons, List.lookup_cons, ih]
    cases hkey : key == entry.1 with
    | true => rw [eq_of_beq hkey]; rfl
    | false => rfl

/-! ### What follows -/

namespace Lawful

/-- After an insertion the keys are those from before, with a new one at the end. -/
theorem keys_insert (h : Lawful M) (m : M α) (key : String) (value : α) :
    keys (insert m key value) = if key ∈ keys m then keys m else keys m ++ [key] := by
  split
  · rename_i hkey
    rw [keys, h.entries_insert_of_mem value hkey, List.map_map]
    rfl
  · rename_i hkey
    rw [keys, h.entries_insert_of_notMem value hkey, List.map_append]
    rfl

/-- After an insertion the key has the new value, and every other key the value it had. -/
theorem get?_insert (h : Lawful M) (m : M α) (key k : String) (value : α) :
    get? (insert m key value) k = if key = k then some value else get? m k := by
  rw [h.get?_eq, h.get?_eq]
  by_cases hkey : key ∈ keys m
  · rw [h.entries_insert_of_mem value hkey,
      lookup_map (fun k' v => if k' = key then value else v)]
    by_cases hk : key = k
    · obtain ⟨old, hold⟩ := Option.isSome_iff_exists.1 (isSome_lookup_iff.2 hkey)
      rw [if_pos hk, ← hk, hold, Option.map_some, if_pos rfl]
    · have hsame : (fun v : α => if k = key then value else v) = id :=
        funext fun v => if_neg (Ne.symm hk)
      rw [if_neg hk, hsame, Option.map_id, id]
  · rw [h.entries_insert_of_notMem value hkey, List.lookup_append]
    by_cases hk : key = k
    · subst hk
      have hnone : (entries m).lookup key = none :=
        Option.not_isSome_iff_eq_none.1 (mt isSome_lookup_iff.1 hkey)
      rw [if_pos rfl, hnone, Option.none_or, List.lookup_cons_self]
    · have hne : (k == key) = false := beq_eq_false_iff_ne.2 (Ne.symm hk)
      rw [if_neg hk, List.lookup_cons, hne, List.lookup_nil, Option.or_none]

/-- A map that has a function of the values of another one finds that function of what the other one
    finds. -/
theorem get?_map (h : Lawful M) {m : M α} {m' : M β} {f : α → β}
    (hm : entries m' = (entries m).map fun entry => (entry.1, f entry.2)) (key : String) :
    get? m' key = (get? m key).map f := by
  rw [h.get?_eq, h.get?_eq, hm, lookup_map fun _ => f]

/-- A map that has a function of the values of another one still does when a value is inserted into
    one of them, and its function into the other. -/
theorem entries_insert_map (h : Lawful M) {m : M α} {m' : M β} {f : α → β}
    (hm : entries m' = (entries m).map fun entry => (entry.1, f entry.2)) (key : String)
    (value : α) :
    entries (insert m' key (f value))
      = (entries (insert m key value)).map fun entry => (entry.1, f entry.2) := by
  have hkeys : keys m' = keys m := by
    rw [keys, hm, List.map_map]
    rfl
  by_cases hkey : key ∈ keys m
  · rw [h.entries_insert_of_mem _ hkey, h.entries_insert_of_mem _ (hkeys ▸ hkey), hm,
      List.map_map, List.map_map]
    refine List.map_congr_left fun entry _ => ?_
    simp only [Function.comp_apply, apply_ite f]
  · rw [h.entries_insert_of_notMem _ hkey, h.entries_insert_of_notMem _ (hkeys ▸ hkey), hm,
      List.map_append]
    rfl

end Lawful

end InsertionMap

/-! ### The list of the entries -/

/-- A map from texts to values, as the list of its entries. -/
structure OrderedMap (α : Type) where
  entries : List (String × α)
  nodup : (entries.map Prod.fst).Nodup

namespace OrderedMap

variable {α : Type}

/-- The map without entries. -/
def empty : OrderedMap α := ⟨[], List.nodup_nil⟩

/-- The keys in order. -/
def keys (m : OrderedMap α) : List String :=
  m.entries.map Prod.fst

/-- Whether the map has no entry. -/
def isEmpty (m : OrderedMap α) : Bool :=
  m.entries.isEmpty

/-- The value of a key. -/
def get? (m : OrderedMap α) (key : String) : Option α :=
  m.entries.lookup key

/-- The map in which `key` has the value `value`.  A key that is there keeps its place, a new one
    goes to the end. -/
def insert (m : OrderedMap α) (key : String) (value : α) : OrderedMap α :=
  if h : key ∈ m.keys then
    { entries := m.entries.map fun entry => (entry.1, if entry.1 = key then value else entry.2)
      nodup := by
        rw [List.map_map]
        exact m.nodup }
  else
    { entries := m.entries ++ [(key, value)]
      nodup := by
        rw [List.map_append, List.nodup_append]
        refine ⟨m.nodup, List.nodup_cons.2 ⟨List.not_mem_nil, List.nodup_nil⟩, ?_⟩
        rintro _ hkey _ hnew rfl
        rw [List.mem_singleton.1 hnew] at hkey
        exact h hkey }

instance : InsertionMap OrderedMap where
  empty := OrderedMap.empty
  entries := OrderedMap.entries
  get? := OrderedMap.get?
  insert := OrderedMap.insert

/-- The list of its entries is a map of this kind. -/
theorem lawful : InsertionMap.Lawful OrderedMap where
  ext {_ m m'} h := by
    obtain ⟨_, _⟩ := m
    obtain ⟨_, _⟩ := m'
    cases h
    rfl
  nodup_keys m := m.nodup
  get?_eq _ _ := rfl
  entries_empty := rfl
  entries_insert_of_mem {_ m key} value h :=
    congrArg entries (dif_pos (show key ∈ m.keys from h))
  entries_insert_of_notMem {_ m key} value h :=
    congrArg entries (dif_neg (show key ∉ m.keys from h))

end OrderedMap

end XmlQuery
