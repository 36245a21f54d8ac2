import Mathlib.Data.List.Nodup
import XmlQuery.Query.Batch
import XmlQuery.Query.Cache

namespace XmlQuery.Query

/-!
# What a cache keeps

Whatever is asked of a cache, it answers as if there were none.  What it keeps can be read off the
calls alone: the queries that were asked for last, each once, as many as fit.  It does not matter
what it keeps them in, as long as that forgets first what was not used for the longest.

* `Cache.Call`, `Cache.after` — calls of a cache, and the cache that they leave behind.
* `Cache.requests` — the queries that have been asked for since the cache was cleared.
* `Cache.served?` — the program that was handed out last for a query.
* `Cache.entries` — what a cache keeps, in order.
* `Cache.Fetches` — the three things that asking for a program can do.
* `Cache.Tracks` — what holds of a cache after any calls.
* `Cache.KeepsRecent` — a cache that is transparent and has kept what was used last, as every cache
  is after any calls.
-/

/-! ### Each element once -/

/-- An element that comes first behind others is among the first `n` exactly if there are fewer of
    these. -/
theorem mem_take_append_cons_iff {α : Type} {a : α} {before behind : List α} (ha : a ∉ before)
    (n : Nat) : a ∈ (before ++ a :: behind).take n ↔ before.length < n := by
  have hbefore : a ∉ before.take n := fun hmem => ha (List.mem_of_mem_take hmem)
  rw [List.take_append, List.mem_append, or_iff_right hbefore]
  constructor
  · intro hmem
    by_contra hle
    rw [Nat.sub_eq_zero_of_le (by omega), List.take_zero] at hmem
    cases hmem
  · intro hlt
    obtain ⟨m, hm⟩ : ∃ m, n - before.length = m + 1 := ⟨n - before.length - 1, by omega⟩
    rw [hm, List.take_succ_cons]
    exact List.mem_cons_self

section Distinct

variable {α : Type} [BEq α] [LawfulBEq α]

/-- Leaving an element out of a list without it changes nothing. -/
theorem filter_ne_eq_self {a : α} {l : List α} (ha : a ∉ l) : l.filter (· != a) = l := by
  refine List.filter_eq_self.2 fun b hb => ?_
  have hne : b ≠ a := fun heq => ha (heq ▸ hb)
  simpa using hne

/-- An element can be left out before or after repetitions are. -/
theorem eraseDups_filter_ne (a : α) (l : List α) :
    (l.filter (· != a)).eraseDups = l.eraseDups.filter (· != a) := by
  -- without the repetitions of its head a list is shorter
  induction hn : l.length using Nat.strongRecOn generalizing l with
  | _ n ih =>
    cases l with
    | nil => rfl
    | cons b l =>
      have hcons : (b :: l).eraseDups = b :: (l.filter (· != b)).eraseDups := List.eraseDups_cons
      by_cases hb : b = a
      · subst hb
        have hnotMem : b ∉ (l.filter (· != b)).eraseDups := by simp
        rw [hcons, List.filter_cons_of_neg (by simp), List.filter_cons_of_neg (by simp),
          filter_ne_eq_self hnotMem]
      · have hshorter : (l.filter (· != b)).length < n := by
          have hle := List.length_filter_le (· != b) l
          rw [List.length_cons] at hn
          omega
        have hcons' : (b :: l.filter (· != a)).eraseDups
            = b :: ((l.filter (· != a)).filter (· != b)).eraseDups := List.eraseDups_cons
        have hcomm : (l.filter (· != a)).filter (· != b) = (l.filter (· != b)).filter (· != a) := by
          rw [List.filter_filter, List.filter_filter]
          simp only [Bool.and_comm]
        rw [hcons, List.filter_cons_of_pos (by simpa using hb),
          List.filter_cons_of_pos (by simpa using hb), hcons', hcomm, ih _ hshorter _ rfl]

/-- Without repetitions the head of a list comes first, and nowhere else. -/
theorem eraseDups_cons_eq (a : α) (l : List α) :
    (a :: l).eraseDups = a :: l.eraseDups.filter (· != a) := by
  rw [← eraseDups_filter_ne]
  exact List.eraseDups_cons

/-- A list without repetitions has none. -/
theorem nodup_eraseDups (l : List α) : l.eraseDups.Nodup := by
  induction l with
  | nil => exact List.nodup_nil
  | cons a l ih =>
    rw [eraseDups_cons_eq, List.nodup_cons]
    exact ⟨by simp, ih.filter _⟩

/-- An element is among the first `n` different ones exactly if fewer than `n` different ones come
    before its first place. -/
theorem mem_take_eraseDups_iff {a : α} {l : List α} {n : Nat} :
    a ∈ l.eraseDups.take n ↔ a ∈ l ∧ (l.takeWhile (· != a)).eraseDups.length < n := by
  by_cases hmem : a ∈ l
  · obtain ⟨before, behind, rfl, hbefore⟩ := List.eq_append_cons_of_mem hmem
    have hfirst : (before ++ a :: behind).takeWhile (· != a) = before := by
      rw [List.takeWhile_append_of_pos fun b hb => by
        have hne : b ≠ a := fun heq => hbefore (heq ▸ hb)
        simpa using hne]
      simp
    have herase : (before ++ a :: behind).eraseDups
        = before.eraseDups ++ a :: ((behind.removeAll before).filter (· != a)).eraseDups := by
      have hcontains : before.contains a = false := by simpa using hbefore
      rw [List.eraseDups_append, List.cons_removeAll, if_pos hcontains, List.eraseDups_cons]
      rfl
    have hbefore' : a ∉ before.eraseDups := fun h => hbefore (List.mem_eraseDups.1 h)
    rw [herase, hfirst, mem_take_append_cons_iff hbefore']
    simp
  · have hnot : a ∉ l.eraseDups.take n := fun h =>
      hmem (List.mem_eraseDups.1 (List.mem_of_mem_take h))
    simp [hmem, hnot]

/-- If an element is among the first `n + 1` of a list without repetitions, it can be left out of
    these or of the whole list. -/
theorem take_filter_ne_of_mem {a : α} {l : List α} (hl : l.Nodup) {n : Nat}
    (ha : a ∈ l.take (n + 1)) :
    (l.filter (· != a)).take n = (l.take (n + 1)).filter (· != a) := by
  induction l generalizing n with
  | nil => simp
  | cons b l ih =>
    rw [List.nodup_cons] at hl
    rw [List.take_succ_cons] at ha ⊢
    by_cases hb : b = a
    · subst hb
      have hnotMem : b ∉ l.take n := fun hmem => hl.1 (List.mem_of_mem_take hmem)
      rw [List.filter_cons_of_neg (by simp), List.filter_cons_of_neg (by simp),
        filter_ne_eq_self hl.1, filter_ne_eq_self hnotMem]
    · have hmem : a ∈ l.take n := by
        rcases List.mem_cons.1 ha with heq | hmem
        · exact absurd heq.symm hb
        · exact hmem
      rw [List.filter_cons_of_pos (by simpa using hb), List.filter_cons_of_pos (by simpa using hb)]
      cases n with
      | zero => simp at hmem
      | succ n => rw [List.take_succ_cons, ih hl.2 hmem]

/-- What comes behind the first elements of a list can be left out of it before they are taken. -/
theorem take_filter_ne_of_notMem {a : α} {l : List α} {n : Nat} (ha : a ∉ l.take n) :
    (l.filter (· != a)).take n = l.take n := by
  induction l generalizing n with
  | nil => rfl
  | cons b l ih =>
    cases n with
    | zero => rfl
    | succ n =>
      rw [List.take_succ_cons, List.mem_cons, not_or] at ha
      rw [List.filter_cons_of_pos (by simpa using Ne.symm ha.1), List.take_succ_cons,
        List.take_succ_cons, ih ha.2]

/-- An element that is among the first different ones moves to their front if it comes again. -/
theorem take_eraseDups_cons_of_mem {a : α} {l : List α} {n : Nat}
    (ha : a ∈ l.eraseDups.take (n + 1)) :
    (a :: l).eraseDups.take (n + 1) = a :: (l.eraseDups.take (n + 1)).filter (· != a) := by
  rw [eraseDups_cons_eq, List.take_succ_cons, take_filter_ne_of_mem (nodup_eraseDups l) ha]

/-- An element that is not among the first different ones is put in front of them if it comes
    again, and the last one falls out. -/
theorem take_eraseDups_cons_of_notMem {a : α} {l : List α} {n : Nat}
    (ha : a ∉ l.eraseDups.take (n + 1)) :
    (a :: l).eraseDups.take (n + 1) = (a :: l.eraseDups.take (n + 1)).take (n + 1) := by
  have hfewer : a ∉ l.eraseDups.take n := fun hmem =>
    ha ((List.take_subset_take_left _ (Nat.le_succ n)) hmem)
  rw [eraseDups_cons_eq, List.take_succ_cons, List.take_succ_cons, take_filter_ne_of_notMem hfewer,
    List.take_take, Nat.min_eq_left (Nat.le_succ n)]

end Distinct

namespace Cache

variable {σ : Type} [LruMap Entry σ]

/-! ### Calls -/

/-- A call of a cache. -/
inductive Call where
  | get (query : String)
  | query (d : Document) (start : Nat) (query : String)
  | contains (query : String)
  | clear

/-- The query whose program a call asks for. -/
def Call.request? : Call → Option String
  | get text | query _ _ text => some text
  | contains _ | clear => none

/-- The cache after a call. -/
def call (c : Cache σ) : Call → Cache σ
  | .get text => (c.fetch text).2
  | .query d start text => (c.query d start text).2
  | .contains _ => c
  | .clear => c.clear

/-- The cache after calls, the latest one in front. -/
def after (σ : Type) [LruMap Entry σ] (capacity : Nat) : List Call → Cache σ
  | [] => ofCapacity capacity
  | k :: earlier => (after σ capacity earlier).call k

/-- Whether a text is a query. -/
def compiles (query : String) : Bool :=
  (compile query).toBool

/-- The queries that have been asked for since the cache was cleared, the latest one in front.  A
    text that is no query does not count. -/
def requests : List Call → List String
  | [] => []
  | .get text :: earlier | .query _ _ text :: earlier =>
    if compiles text then text :: requests earlier else requests earlier
  | .contains _ :: earlier => requests earlier
  | .clear :: _ => []

/-- What was handed out when a query was asked for the last time. -/
def served? (σ : Type) [LruMap Entry σ] (capacity : Nat) : List Call → String → Option Entry
  | [], _ => none
  | k :: earlier, query =>
    if k.request? = some query ∧ compiles query then
      ((after σ capacity earlier).fetch query).1.toOption
    else served? σ capacity earlier query

/-- A call asks for the program of a query, or asks whether a query is kept, or clears the cache. -/
theorem Call.request?_cases (k : Call) :
    (∃ query, k.request? = some query) ∨ (∃ query, k = .contains query) ∨ k = .clear := by
  cases k with
  | get query => exact .inl ⟨query, rfl⟩
  | query d start query => exact .inl ⟨query, rfl⟩
  | contains query => exact .inr (.inl ⟨query, rfl⟩)
  | clear => exact .inr (.inr rfl)

/-- Answering a query leaves the cache as asking for its program does. -/
theorem snd_query (c : Cache σ) (d : Document) (start : Nat) (query : String) :
    (c.query d start query).2 = (c.fetch query).2 := by
  unfold Cache.query
  split <;> simp_all

/-- All calls that ask for the program of a query leave the same cache behind. -/
theorem call_of_request {k : Call} {query : String} (hk : k.request? = some query) (c : Cache σ) :
    c.call k = (c.fetch query).2 := by
  cases k with
  | get query => cases hk; rfl
  | query d start query => cases hk; exact snd_query c d start query
  | contains query => cases hk
  | clear => cases hk

/-- A call that asks for a query puts it in front of the requests. -/
theorem requests_of_request {k : Call} {query : String} (hk : k.request? = some query)
    (earlier : List Call) :
    requests (k :: earlier)
      = if compiles query then query :: requests earlier else requests earlier := by
  cases k with
  | get query => cases hk; rfl
  | query d start query => cases hk; rfl
  | contains query => cases hk
  | clear => cases hk

/-- Only queries are requests. -/
theorem compiles_of_mem_requests {history : List Call} {query : String}
    (h : query ∈ requests history) : compiles query := by
  induction history with
  | nil => cases h
  | cons k earlier ih =>
    rcases k.request?_cases with ⟨asked, hk⟩ | ⟨text, rfl⟩ | rfl
    · rw [requests_of_request hk] at h
      split at h
      · rename_i hasked
        rcases List.mem_cons.1 h with rfl | h
        · exact hasked
        · exact ih h
      · exact ih h
    · exact ih h
    · cases h

/-! ### Asking for a program -/

/-- The programs that are kept under the texts of their queries, the one that was asked for last in
    front. -/
def entries (c : Cache σ) : List (String × Entry) :=
  LruMap.entries c.kept

/-- The three things that asking for a program can do: it is kept and comes to the front, it is
    compiled anew, or there is none. -/
inductive Fetches (c : Cache σ) (query : String) : Except CompileError Entry × Cache σ → Prop
  | hit {e : Entry} {c' : Cache σ} (he : c.entries.lookup query = some e)
      (hentries : c'.entries = (query, e) :: c.entries.filter (·.1 != query))
      (hcapacity : c'.capacity = c.capacity) (hissued : c'.issued = c.issued) :
      Fetches c query (.ok e, c')
  | miss {program : Program} {c' : Cache σ} (hnone : c.entries.lookup query = none)
      (h : compile query = .ok program)
      (hentries : c'.entries = ((query, ⟨program, c.issued⟩) :: c.entries).take c.capacity)
      (hcapacity : c'.capacity = c.capacity) (hissued : c'.issued = c.issued + 1) :
      Fetches c query (.ok ⟨program, c.issued⟩, c')
  | refused {error : CompileError} {c' : Cache σ} (hnone : c.entries.lookup query = none)
      (h : compile query = .error error) (hentries : c'.entries = c.entries)
      (hcapacity : c'.capacity = c.capacity) (hissued : c'.issued = c.issued) :
      Fetches c query (.error error, c')

/-- **Asking for a program does one of the three things.** -/
theorem fetches_fetch (hσ : LruMap.Lawful σ) (c : Cache σ) (query : String) :
    c.Fetches query (c.fetch query) := by
  have hvalue := hσ.get_eq c.kept query
  have hcapacity := hσ.capacity_get c.kept query
  unfold fetch
  split
  · rename_i e kept hget
    rw [hget] at hvalue hcapacity
    have hentries := hσ.entries_get_of_some c.kept query e hvalue.symm
    rw [hget] at hentries
    exact .hit hvalue.symm hentries hcapacity rfl
  · rename_i kept hget
    rw [hget] at hvalue hcapacity
    have hentries := hσ.entries_get_of_none c.kept query hvalue.symm
    rw [hget] at hentries
    split
    · rename_i error h
      exact .refused hvalue.symm h hentries hcapacity rfl
    · rename_i program h
      have hput := hσ.entries_put_of_none kept query ⟨program, c.issued⟩ (hentries ▸ hvalue.symm)
      rw [hentries, hcapacity] at hput
      exact .miss hvalue.symm h hput ((hσ.capacity_put ..).trans hcapacity) rfl

/-- What is found under a key is one of the entries. -/
theorem mem_of_lookup {l : List (String × Entry)} {query : String} {e : Entry}
    (h : l.lookup query = some e) : (query, e) ∈ l := by
  obtain ⟨before, behind, rfl, -⟩ := List.lookup_eq_some_iff.1 h
  simp

/-! ### What holds after any calls -/

/-- What holds of a cache after calls: it keeps the queries that were asked for last, each with its
    program, which is the one that was handed out for it; and a program that is compiled anew is
    none of those. -/
structure Tracks (capacity : Nat) (history : List Call) (c : Cache σ) : Prop where
  capacity_eq : c.capacity = max capacity 1
  queries : c.entries.map Prod.fst = (requests history).eraseDups.take (max capacity 1)
  compiled : ∀ query e, (query, e) ∈ c.entries → compile query = .ok e.program
  handedOut : ∀ query e, (query, e) ∈ c.entries → served? σ capacity history query = some e
  issued : ∀ query e, served? σ capacity history query = some e → e.serial < c.issued

/-- The capacity of a cache leaves room for one query and some more. -/
theorem exists_capacity_eq (capacity : Nat) : ∃ more, max capacity 1 = more + 1 :=
  ⟨max capacity 1 - 1, by omega⟩

/-- A cache that has not been called keeps nothing. -/
theorem tracks_ofCapacity (hσ : LruMap.Lawful σ) (capacity : Nat) :
    Tracks capacity [] (ofCapacity capacity : Cache σ) := by
  have hroom : 0 < max capacity 1 := by omega
  have hentries : (ofCapacity capacity : Cache σ).entries = [] := hσ.entries_ofCapacity _ hroom
  refine ⟨hσ.capacity_ofCapacity _ hroom, ?_, ?_, ?_, ?_⟩ <;> simp [hentries, requests, served?]

namespace Tracks

variable {capacity : Nat} {history : List Call} {c c' : Cache σ} {k : Call} {query : String}

/-- A query that is kept is one. -/
theorem compiles_of_lookup (h : Tracks capacity history c) {e : Entry}
    (he : c.entries.lookup query = some e) : compiles query := by
  rw [compiles, h.compiled query e (mem_of_lookup he)]
  rfl

/-- A query that is kept comes to the front if it is asked for. -/
theorem promote (h : Tracks capacity history c) {e : Entry} (he : c.entries.lookup query = some e)
    (hentries : c'.entries = (query, e) :: c.entries.filter (·.1 != query))
    (hcapacity : c'.capacity = c.capacity) (hissued : c'.issued = c.issued)
    (hrequests : requests (k :: history) = query :: requests history)
    (hserved : ∀ text, served? σ capacity (k :: history) text
      = if text = query then some e else served? σ capacity history text) :
    Tracks capacity (k :: history) c' := by
  have hmem : (query, e) ∈ c.entries := mem_of_lookup he
  refine ⟨hcapacity.trans h.capacity_eq, ?queries, ?compiled, ?handedOut, ?issued⟩
  case queries =>
    obtain ⟨more, hmore⟩ := exists_capacity_eq capacity
    have hrecent : query ∈ (requests history).eraseDups.take (more + 1) := by
      rw [← hmore, ← h.queries]
      exact List.mem_map_of_mem hmem
    rw [hrequests, hmore, take_eraseDups_cons_of_mem hrecent, ← hmore, ← h.queries, List.filter_map,
      hentries]
    rfl
  case compiled =>
    intro text e' he'
    rw [hentries] at he'
    rcases List.mem_cons.1 he' with heq | he'
    · cases heq
      exact h.compiled query e hmem
    · exact h.compiled text e' (List.mem_filter.1 he').1
  case handedOut =>
    intro text e' he'
    rw [hentries] at he'
    rw [hserved]
    rcases List.mem_cons.1 he' with heq | he'
    · cases heq
      rw [if_pos rfl]
    · obtain ⟨hold, hne⟩ := List.mem_filter.1 he'
      have hother : text ≠ query := by simpa using hne
      rw [if_neg hother]
      exact h.handedOut text e' hold
  case issued =>
    intro text e' he'
    rw [hserved] at he'
    rw [hissued]
    split at he'
    · cases he'
      exact h.issued query e (h.handedOut query e hmem)
    · exact h.issued text e' he'

/-- A query that is not kept is put in front, with a program that has not been handed out before. -/
theorem add (h : Tracks capacity history c) {program : Program}
    (hnone : c.entries.lookup query = none) (hcompile : compile query = .ok program)
    (hentries : c'.entries = ((query, ⟨program, c.issued⟩) :: c.entries).take c.capacity)
    (hcapacity : c'.capacity = c.capacity) (hissued : c'.issued = c.issued + 1)
    (hrequests : requests (k :: history) = query :: requests history)
    (hserved : ∀ text, served? σ capacity (k :: history) text
      = if text = query then some ⟨program, c.issued⟩ else served? σ capacity history text) :
    Tracks capacity (k :: history) c' := by
  have hnew : query ∉ c.entries.map Prod.fst := by
    rw [← InsertionMap.isSome_lookup_iff, hnone]
    exact Bool.false_ne_true
  have hmem : ∀ text e, (text, e) ∈ c'.entries →
      (text, e) = (query, ⟨program, c.issued⟩) ∨ (text, e) ∈ c.entries := by
    intro text e he
    rw [hentries] at he
    exact List.mem_cons.1 (List.mem_of_mem_take he)
  refine ⟨hcapacity.trans h.capacity_eq, ?queries, ?compiled, ?handedOut, ?issued⟩
  case queries =>
    obtain ⟨more, hmore⟩ := exists_capacity_eq capacity
    have hrecent : query ∉ (requests history).eraseDups.take (more + 1) := by
      rw [← hmore, ← h.queries]
      exact hnew
    rw [hrequests, hmore, take_eraseDups_cons_of_notMem hrecent, ← hmore, ← h.queries, hentries,
      List.map_take, List.map_cons, h.capacity_eq]
  case compiled =>
    intro text e he
    rcases hmem text e he with heq | he
    · cases heq
      exact hcompile
    · exact h.compiled text e he
  case handedOut =>
    intro text e he
    rw [hserved]
    rcases hmem text e he with heq | he
    · cases heq
      rw [if_pos rfl]
    · have hother : text ≠ query := fun heq => hnew (heq ▸ List.mem_map_of_mem he)
      rw [if_neg hother]
      exact h.handedOut text e he
  case issued =>
    intro text e he
    rw [hserved] at he
    rw [hissued]
    split at he
    · cases he
      exact Nat.lt_succ_self c.issued
    · exact Nat.lt_succ_of_lt (h.issued text e he)

/-- A call that leaves the entries and is no request leaves everything as it is. -/
theorem refuse (h : Tracks capacity history c) (hentries : c'.entries = c.entries)
    (hcapacity : c'.capacity = c.capacity) (hissued : c'.issued = c.issued)
    (hrequests : requests (k :: history) = requests history)
    (hserved : ∀ text, served? σ capacity (k :: history) text = served? σ capacity history text) :
    Tracks capacity (k :: history) c' := by
  refine ⟨hcapacity.trans h.capacity_eq, ?queries, ?compiled, ?handedOut, ?issued⟩
  case queries =>
    rw [hentries, hrequests]
    exact h.queries
  case compiled =>
    rw [hentries]
    exact h.compiled
  case handedOut =>
    intro text e he
    rw [hentries] at he
    rw [hserved]
    exact h.handedOut text e he
  case issued =>
    intro text e he
    rw [hserved] at he
    rw [hissued]
    exact h.issued text e he

/-- A cache that is cleared keeps nothing, and counts on. -/
theorem clear (hσ : LruMap.Lawful σ) (h : Tracks capacity history c) :
    Tracks capacity (.clear :: history) c.clear := by
  have hentries : c.clear.entries = [] := hσ.entries_clear c.kept
  refine ⟨(hσ.capacity_clear c.kept).trans h.capacity_eq, ?_, ?_, ?_, ?_⟩
  · simp [hentries, requests]
  · simp [hentries]
  · simp [hentries]
  · intro text e he
    exact h.issued text e he

end Tracks

/-- What is handed out last for a query that a call asks for is what the call hands out. -/
theorem served?_of_request (σ : Type) [LruMap Entry σ] {k : Call} {query : String}
    (hk : k.request? = some query) (capacity : Nat) (history : List Call) (text : String) :
    served? σ capacity (k :: history) text
      = if text = query ∧ compiles query then ((after σ capacity history).fetch query).1.toOption
        else served? σ capacity history text := by
  simp only [served?, hk, Option.some.injEq]
  by_cases htext : query = text
  · subst htext
    simp
  · simp [htext, Ne.symm htext]

/-- Asking for a program keeps what holds of a cache. -/
theorem Tracks.fetch (hσ : LruMap.Lawful σ) {capacity : Nat} {history : List Call} {k : Call}
    {query : String} (h : Tracks capacity history (after σ capacity history))
    (hk : k.request? = some query) :
    Tracks capacity (k :: history) ((after σ capacity history).fetch query).2 := by
  have hrequests := requests_of_request hk history
  have hserved := served?_of_request σ hk capacity history
  have hfetches := (after σ capacity history).fetches_fetch hσ query
  generalize (after σ capacity history).fetch query = result at hserved hfetches
  cases hfetches with
  | hit he hentries hcapacity hissued =>
    have hcompiles := h.compiles_of_lookup he
    simp only [hcompiles, if_true, and_true] at hrequests hserved
    exact h.promote he hentries hcapacity hissued hrequests hserved
  | miss hnone hcompile hentries hcapacity hissued =>
    have hcompiles : compiles query := by
      rw [compiles, hcompile]
      rfl
    simp only [hcompiles, if_true, and_true] at hrequests hserved
    exact h.add hnone hcompile hentries hcapacity hissued hrequests hserved
  | refused hnone hcompile hentries hcapacity hissued =>
    have hrefused : compiles query = false := by
      rw [compiles, hcompile]
      rfl
    simp only [hrefused, Bool.false_eq_true, if_false, and_false] at hrequests hserved
    exact h.refuse hentries hcapacity hissued hrequests hserved

/-- **The cache after any calls** keeps what was used last. -/
theorem tracks_after (hσ : LruMap.Lawful σ) (capacity : Nat) (history : List Call) :
    Tracks capacity history (after σ capacity history) := by
  induction history with
  | nil => exact tracks_ofCapacity hσ capacity
  | cons k history ih =>
    rw [after]
    rcases k.request?_cases with ⟨query, hk⟩ | ⟨text, rfl⟩ | rfl
    · rw [call_of_request hk]
      exact ih.fetch hσ hk
    · exact ih.refuse rfl rfl rfl rfl fun _ => rfl
    · exact ih.clear hσ

/-! ### What a cache keeps -/

/-- A query that was asked for since the cache was cleared, and since then fewer different other
    ones than there is room for. -/
def Recent (capacity : Nat) (history : List Call) (query : String) : Prop :=
  compiles query ∧ query ∈ requests history ∧
    ((requests history).takeWhile (· != query)).eraseDups.length < max capacity 1

/-- A cache that answers as if there were none, and that has kept the queries that were asked for
    last. -/
structure KeepsRecent (capacity : Nat) (history : List Call) (c : Cache σ) : Prop where
  /-- A program that is handed out is the one that the query compiles to. -/
  fetch_eq : ∀ query, (c.fetch query).1.map Entry.program = compile query
  /-- An answer is the one that the document gives. -/
  query_eq : ∀ d start query, (c.query d start query).1 = d.queryFrom start query
  /-- The queries that are kept, and their order. -/
  queries : c.entries.map Prod.fst = (requests history).eraseDups.take (max capacity 1)
  /-- How many are kept. -/
  size_eq : c.size = min (max capacity 1) (requests history).eraseDups.length
  /-- Which queries are kept. -/
  contains_iff : ∀ query, c.contains query ↔ Recent capacity history query
  /-- For which queries the same program is handed out as the last time. -/
  same_iff : ∀ query,
    (∃ e, (c.fetch query).1 = .ok e ∧ served? σ capacity history query = some e) ↔
      Recent capacity history query
  /-- Asking for what is no query, and asking whether a query is kept, changes nothing. -/
  unchanged : ∀ k : Call, (∀ query, k.request? = some query → ¬ compiles query) → k ≠ .clear →
    (c.call k).entries = c.entries
  /-- A query is kept also if its evaluation fails. -/
  failed : ∀ d start query error, d.queryFrom start query = .error (.evaluation error) →
    ∃ e, (c.query d start query).2.entries.head? = some (query, e) ∧
      compile query = .ok e.program

namespace Tracks

variable {capacity : Nat} {history : List Call} {c : Cache σ}

/-- A cache keeps as many queries as there are, or as there is room for. -/
theorem size_eq (hσ : LruMap.Lawful σ) (h : Tracks capacity history c) :
    c.size = min (max capacity 1) (requests history).eraseDups.length := by
  have hlength := congrArg List.length h.queries
  rw [List.length_map, List.length_take] at hlength
  rw [← hlength]
  exact hσ.size_eq c.kept

/-- A cache keeps the queries that are recent. -/
theorem contains_iff (hσ : LruMap.Lawful σ) (h : Tracks capacity history c) (query : String) :
    c.contains query ↔ Recent capacity history query := by
  have hcontains : c.contains query = (c.entries.lookup query).isSome := hσ.contains_eq c.kept query
  rw [hcontains, InsertionMap.isSome_lookup_iff, h.queries, mem_take_eraseDups_iff, Recent]
  exact ⟨fun hrecent => ⟨compiles_of_mem_requests hrecent.1, hrecent⟩, fun hrecent => hrecent.2⟩

/-- A cache hands out the programs of queries. -/
theorem fetch_eq (hσ : LruMap.Lawful σ) (h : Tracks capacity history c) (query : String) :
    (c.fetch query).1.map Entry.program = compile query := by
  have hfetches := c.fetches_fetch hσ query
  generalize c.fetch query = result at hfetches ⊢
  cases hfetches with
  | hit he => exact (h.compiled query _ (mem_of_lookup he)).symm
  | miss hnone hcompile => exact hcompile.symm
  | refused hnone hcompile => exact hcompile.symm

/-- A cache answers as the document does. -/
theorem query_eq (hσ : LruMap.Lawful σ) (h : Tracks capacity history c) (d : Document)
    (start : Nat) (query : String) : (c.query d start query).1 = d.queryFrom start query := by
  rw [Document.queryFrom, ← h.fetch_eq hσ query, Cache.query]
  split <;> rename_i hfetch <;> rw [hfetch] <;> rfl

/-- A cache hands out the same program again for the queries that it keeps, and only for these. -/
theorem same_iff (hσ : LruMap.Lawful σ) (h : Tracks capacity history c) (query : String) :
    (∃ e, (c.fetch query).1 = .ok e ∧ served? σ capacity history query = some e) ↔
      c.contains query := by
  have hcontains : c.contains query = (c.entries.lookup query).isSome := hσ.contains_eq c.kept query
  have hfetches := c.fetches_fetch hσ query
  rw [hcontains]
  generalize c.fetch query = result at hfetches ⊢
  cases hfetches with
  | hit he =>
    have hserved := h.handedOut query _ (mem_of_lookup he)
    simp [he, hserved]
  | @miss program _ hnone hcompile =>
    -- the serial number has not been used before
    have hnew : served? σ capacity history query ≠ some ⟨program, c.issued⟩ := fun hserved =>
      Nat.lt_irrefl _ (h.issued query _ hserved)
    simp [hnone, hnew]
  | refused hnone hcompile => simp [hnone]

/-- Asking for what is no query leaves the entries of a cache as they are. -/
theorem entries_fetch_of_not_compiles (hσ : LruMap.Lawful σ) (h : Tracks capacity history c)
    {query : String} (hquery : ¬ compiles query) : (c.fetch query).2.entries = c.entries := by
  have hfetches := c.fetches_fetch hσ query
  generalize c.fetch query = result at hfetches ⊢
  cases hfetches with
  | hit he => exact absurd (h.compiles_of_lookup he) hquery
  | miss hnone hcompile =>
    rw [compiles, hcompile] at hquery
    exact absurd rfl hquery
  | refused hnone hcompile hentries => exact hentries

/-- A query that is asked for comes to the front. -/
theorem head?_entries_fetch (hσ : LruMap.Lawful σ) (h : Tracks capacity history c)
    {query : String} {e : Entry} (he : (c.fetch query).1 = .ok e) :
    (c.fetch query).2.entries.head? = some (query, e) := by
  have hfetches := c.fetches_fetch hσ query
  generalize c.fetch query = result at hfetches he ⊢
  cases hfetches with
  | hit _ hentries =>
    cases he
    exact congrArg List.head? hentries
  | miss hnone hcompile hentries =>
    cases he
    obtain ⟨more, hmore⟩ := exists_capacity_eq capacity
    rw [hentries, h.capacity_eq, hmore]
    rfl
  | refused hnone hcompile => cases he

end Tracks

/-- **A cache is transparent, and keeps what was used last**: whatever calls came before, programs
    and answers are those that are got without it, and the queries that it keeps are those that
    were asked for last. -/
theorem keepsRecent_after (hσ : LruMap.Lawful σ) (capacity : Nat) (history : List Call) :
    KeepsRecent capacity history (after σ capacity history) := by
  have h := tracks_after hσ capacity history
  refine ⟨h.fetch_eq hσ, h.query_eq hσ, h.queries, h.size_eq hσ, h.contains_iff hσ, ?same,
    ?unchanged, ?failed⟩
  case same =>
    intro query
    rw [h.same_iff hσ, h.contains_iff hσ]
  case unchanged =>
    intro k hrefused hclear
    rcases k.request?_cases with ⟨query, hk⟩ | ⟨text, rfl⟩ | rfl
    · rw [call_of_request hk]
      exact h.entries_fetch_of_not_compiles hσ (hrefused query hk)
    · rfl
    · exact absurd rfl hclear
  case failed =>
    intro d start query error hfailed
    have hfetch := h.fetch_eq hσ query
    rw [snd_query]
    cases hprogram : ((after σ capacity history).fetch query).1 with
    | error refusal =>
      rw [hprogram] at hfetch
      rw [Document.queryFrom, ← hfetch] at hfailed
      cases hfailed
    | ok e =>
      rw [hprogram] at hfetch
      exact ⟨e, h.head?_entries_fetch hσ hprogram, hfetch.symm⟩

/-- A list with room for two programs: the query that was asked for again is still there, and has
    its first program. -/
theorem keepsRecent_after_eviction :
    let history : List Call :=
      [.get "c", .get "[", .get "a", .contains "b", .get "b", .get "a"]
    let c := after (RecentList Entry) 2 history
    LruMap.Lawful (RecentList Entry) ∧
      c.entries = [("c", ⟨⟨"c", [.ofText .element "c"]⟩, 2⟩),
        ("a", ⟨⟨"a", [.ofText .element "a"]⟩, 0⟩)] ∧
      KeepsRecent 2 history c := by
  intro history c
  exact ⟨RecentList.lawful, by decide, keepsRecent_after RecentList.lawful 2 history⟩

end Cache

end XmlQuery.Query
