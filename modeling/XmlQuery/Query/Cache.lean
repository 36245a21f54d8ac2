import XmlQuery.LruMap
import XmlQuery.Query.Notice

namespace XmlQuery.Query

/-!
# Keeping compiled queries

A cache keeps the programs of the queries that were asked for most recently, in any map that forgets
what was not used for the longest.

* `Cache` — the programs that are kept.
* `Cache.fetch` — the program of a query, compiled or kept.
* `Cache.query` — the answer to a query by way of the cache.
* `Cache.notices`, `Cache.queryNotices` — what is reported on the way.
-/

/-- A program that is handed out.  The serial number tells it from any other program that the cache
    has held, even for the same query. -/
structure Cache.Entry where
  program : Program
  serial : Nat
  deriving DecidableEq, Repr

/-- The programs that are kept under the texts of their queries, and how many there have been.  They
    are kept in a list unless told otherwise. -/
structure Cache (σ : Type := RecentList Cache.Entry) where
  kept : σ
  issued : Nat
  deriving DecidableEq, Repr

namespace Cache

variable {σ : Type} [LruMap Entry σ]

/-- How many programs a cache keeps unless told otherwise. -/
def defaultCapacity : Nat := 256

/-- An empty cache.  It keeps one program at least. -/
def ofCapacity (capacity : Nat) : Cache σ :=
  ⟨LruMap.ofCapacity (max capacity 1), 0⟩

/-- How many programs there is room for. -/
def capacity (c : Cache σ) : Nat :=
  LruMap.capacity c.kept

/-- How many programs are kept. -/
def size (c : Cache σ) : Nat :=
  LruMap.size c.kept

/-- Whether the program of a query is kept. -/
def contains (c : Cache σ) (query : String) : Bool :=
  LruMap.contains c.kept query

/-- The cache without its programs. -/
def clear (c : Cache σ) : Cache σ :=
  { c with kept := LruMap.clear c.kept }

/-- The program of a query, kept or compiled anew, and the cache afterwards.  The program of a query
    that does not compile is not kept. -/
def fetch (c : Cache σ) (query : String) : Except CompileError Entry × Cache σ :=
  match LruMap.get c.kept query with
  | (some e, kept) => (.ok e, { c with kept })
  | (none, kept) =>
    match compile query with
    | .error error => (.error error, { c with kept })
    | .ok program =>
      let e := ⟨program, c.issued⟩
      (.ok e, ⟨LruMap.put kept query e, c.issued + 1⟩)

/-- The nodes that a query finds from a node on, and the cache afterwards. -/
def query (c : Cache σ) (d : Document) (start : Nat) (query : String) :
    Except QueryError (List Nat) × Cache σ :=
  match c.fetch query with
  | (.error error, c) => (.error (.compile error), c)
  | (.ok e, c) => ((evaluate d start e.program).mapError .evaluation, c)

/-- What is reported while the program of a query is fetched. -/
def notices (c : Cache σ) (query : String) : List Notice :=
  if c.contains query then [.cacheHit query] else .cacheMiss query :: compileNotices query

/-- What is reported while a query is answered. -/
def queryNotices (c : Cache σ) (d : Document) (start : Nat) (query : String) : List Notice :=
  c.notices query ++
    match (c.fetch query).1 with
    | .ok e => evaluateNotices d start e.program
    | .error _ => []

end Cache

end XmlQuery.Query
