namespace XmlQuery

/-!
# Maps that forget

A map from texts to values with room for a number of entries.  When there are too many, the one goes
that was not used for the longest.

* `LruMap` — what is used of such a map, whatever it is made of.
* `LruMap.Lawful` — what is relied on.
* `RecentList` — a map of this kind, as the list of its entries.
-/

/-- What is used of a map `σ` that has room for a number of entries. -/
class LruMap (α : outParam Type) (σ : Type) where
  /-- The map without entries that has room for a number of them. -/
  ofCapacity : Nat → σ
  /-- How many entries there is room for. -/
  capacity : σ → Nat
  /-- How many entries there are. -/
  size : σ → Nat
  /-- The entries in order, the one that was used last in front. -/
  entries : σ → List (String × α)
  /-- The value of a key, and the map after its use. -/
  get : σ → String → Option α × σ
  /-- The map with a value for a key. -/
  put : σ → String → α → σ
  /-- Whether a key has a value. -/
  contains : σ → String → Bool
  /-- The map without its entries. -/
  clear : σ → σ

/-- What is relied on.  The value that is looked for comes to the front, a new one is put in front
    and the last one falls out if there is no room, and nothing else changes the order. -/
structure LruMap.Lawful {α : Type} (σ : Type) [LruMap α σ] : Prop where
  capacity_ofCapacity : ∀ n, 0 < n → capacity (ofCapacity n : σ) = n
  capacity_get : ∀ (m : σ) key, capacity (get m key).2 = capacity m
  capacity_put : ∀ (m : σ) key value, capacity (put m key value) = capacity m
  capacity_clear : ∀ m : σ, capacity (clear m) = capacity m
  size_eq : ∀ m : σ, size m = (entries m).length
  contains_eq : ∀ (m : σ) key, contains m key = ((entries m).lookup key).isSome
  get_eq : ∀ (m : σ) key, (get m key).1 = (entries m).lookup key
  entries_ofCapacity : ∀ n, 0 < n → entries (ofCapacity n : σ) = []
  entries_clear : ∀ m : σ, entries (clear m) = []
  entries_get_of_some : ∀ (m : σ) key value, (entries m).lookup key = some value →
    entries (get m key).2 = (key, value) :: (entries m).filter (·.1 != key)
  entries_get_of_none : ∀ (m : σ) key, (entries m).lookup key = none →
    entries (get m key).2 = entries m
  entries_put_of_none : ∀ (m : σ) key value, (entries m).lookup key = none →
    entries (put m key value) = ((key, value) :: entries m).take (capacity m)

/-- A map with room for a number of entries, as the list of these. -/
structure RecentList (α : Type) where
  capacity : Nat
  entries : List (String × α)
  deriving DecidableEq, Repr

namespace RecentList

variable {α : Type}

/-- The value of a key.  Its entry comes to the front. -/
def get (m : RecentList α) (key : String) : Option α × RecentList α :=
  match m.entries.lookup key with
  | some value => (some value, { m with entries := (key, value) :: m.entries.filter (·.1 != key) })
  | none => (none, m)

/-- The map with a value for a key in front.  If there are too many entries, the last one goes. -/
def put (m : RecentList α) (key : String) (value : α) : RecentList α :=
  { m with entries := ((key, value) :: m.entries.filter (·.1 != key)).take m.capacity }

instance : LruMap α (RecentList α) where
  ofCapacity capacity := ⟨capacity, []⟩
  capacity := RecentList.capacity
  size m := m.entries.length
  entries := RecentList.entries
  get := RecentList.get
  put := RecentList.put
  contains m key := (m.entries.lookup key).isSome
  clear m := { m with entries := [] }

/-- The value of a key that has one is found, and its entry comes to the front. -/
theorem get_of_some {m : RecentList α} {key : String} {value : α}
    (h : m.entries.lookup key = some value) :
    m.get key = (some value,
      { m with entries := (key, value) :: m.entries.filter (·.1 != key) }) := by
  rw [get, h]

/-- Looking for a key without a value changes nothing. -/
theorem get_of_none {m : RecentList α} {key : String} (h : m.entries.lookup key = none) :
    m.get key = (none, m) := by
  rw [get, h]

/-- The list of its entries is a map of this kind. -/
theorem lawful : LruMap.Lawful (RecentList α) where
  capacity_ofCapacity _ _ := rfl
  capacity_get m key := by
    show (m.get key).2.capacity = m.capacity
    cases h : m.entries.lookup key with
    | some value => rw [get_of_some h]
    | none => rw [get_of_none h]
  capacity_put _ _ _ := rfl
  capacity_clear _ := rfl
  size_eq _ := rfl
  contains_eq _ _ := rfl
  get_eq m key := by
    show (m.get key).1 = m.entries.lookup key
    cases h : m.entries.lookup key with
    | some value => rw [get_of_some h]
    | none => rw [get_of_none h]
  entries_ofCapacity _ _ := rfl
  entries_clear _ := rfl
  entries_get_of_some _ _ _ h := congrArg (fun result => result.2.entries) (get_of_some h)
  entries_get_of_none _ _ h := congrArg (fun result => result.2.entries) (get_of_none h)
  entries_put_of_none m key value h := by
    have hothers : m.entries.filter (·.1 != key) = m.entries := by
      refine List.filter_eq_self.2 fun entry hentry => ?_
      have hne : (key != entry.1) = true := by simpa using List.lookup_eq_none_iff.1 h entry hentry
      rwa [bne_comm] at hne
    show ((key, value) :: m.entries.filter (·.1 != key)).take m.capacity = _
    rw [hothers]
    rfl

end RecentList

end XmlQuery
