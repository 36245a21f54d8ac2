import XmlQuery.Markup.Cursor
import XmlQuery.Markup.Token
import XmlQuery.Text.Slice

namespace XmlQuery.Markup

/-!
# Reading by bytes

A cursor runs over the bytes of a text, and what it passes is cut from the text by offsets.

* `Reader` — where the cursor is, where the text has been cut, and what has been delivered.
* `Reading`, `Reading.Meets` — a step of a reader, and what comes of it.
* `Reading.Turn`, `Reading.loop` — loops, each turn of which moves the cursor on.
* `Reading.loop_eq` — a loop is a turn and what follows it.
* `Reading.meets_loop` — what each turn of a loop keeps up, the loop does.
* `Reading.Reaches` — how far a step moves the cursor.
-/

/-- A token and the bytes that it takes up. -/
structure Piece where
  span : Utf8.Span
  token : Token
  deriving DecidableEq, Repr

/-- A reader of a text: a cursor in its bytes, the stretches that have been cut from it, and the
    tokens that have been delivered, in order. -/
structure Reader (text : List Char) where
  cursor : Cursor
  input_eq : cursor.input = Utf8.encode text
  cuts : List Utf8.Span
  pieces : List Piece

namespace Reader

variable {text : List Char}

/-- The reader that has read nothing of a text. -/
def start (text : List Char) : Reader text :=
  ⟨.ofBytes (Utf8.encode text), rfl, [], []⟩

/-- Where the cursor is. -/
def position (r : Reader text) : Nat :=
  r.cursor.position

/-- The reader with its cursor at another position, or at the end if that lies beyond it. -/
def moveTo (r : Reader text) (position : Nat) : Reader text :=
  ⟨r.cursor.moveTo position, r.input_eq, r.cuts, r.pieces⟩

/-- The reader after a cut. -/
def cut (r : Reader text) (span : Utf8.Span) : Reader text :=
  { r with cuts := r.cuts ++ [span] }

/-- The reader after the delivery of a token. -/
def deliver (r : Reader text) (piece : Piece) : Reader text :=
  { r with pieces := r.pieces ++ [piece] }

/-- **No reader goes beyond the end of its text.** -/
theorem position_le (r : Reader text) : r.position ≤ (Utf8.encode text).length :=
  r.input_eq ▸ r.cursor.position_le

theorem position_moveTo (r : Reader text) (n : Nat) :
    (r.moveTo n).position = min n (Utf8.encode text).length :=
  r.input_eq ▸ rfl

/-- There is a byte at the cursor only before the end. -/
theorem position_lt {r : Reader text} {byte : UInt8} (h : r.cursor.peek? = some byte) :
    r.position < (Utf8.encode text).length :=
  r.input_eq ▸ Cursor.position_lt_of_peek? h

/-- What is found is between the cursor and the end. -/
theorem le_of_findByte? (r : Reader text) {byte : UInt8} {n : Nat}
    (h : r.cursor.findByte? byte = some n) :
    r.position ≤ n ∧ n < (Utf8.encode text).length :=
  r.input_eq ▸ Cursor.le_of_findByte? h

theorem lt_of_atEnd (r : Reader text) (h : ¬ r.cursor.atEnd = true) :
    r.position < (Utf8.encode text).length :=
  r.input_eq ▸ Cursor.position_lt_of_atEnd h

theorem le_of_find? (r : Reader text) {mark : List UInt8} {n : Nat}
    (h : r.cursor.find? mark = some n) :
    r.position ≤ n ∧ n + mark.length ≤ (Utf8.encode text).length :=
  r.input_eq ▸ Cursor.le_of_find? h

end Reader

/-! ### Steps of a reader -/

/-- A step of a reader of `text`: it succeeds with a result, or it fails; both leave a reader. -/
abbrev Reading (text : List Char) : Type → Type :=
  EStateM ScanError (Reader text)

namespace Reading

variable {text : List Char} {α β σ : Type}

/-- What the cursor tells. -/
def look (tell : Cursor → α) : Reading text α := fun r =>
  .ok (tell r.cursor) r

def moveTo (position : Nat) : Reading text Unit := fun r =>
  .ok () (r.moveTo position)

def advance (count : Nat) : Reading text Unit := fun r =>
  .ok () (r.moveTo (r.position + count))

/-- The text between two offsets.  It is empty where there is no such text. -/
def cut (first last : Nat) : Reading text (List Char) := fun r =>
  .ok ((Utf8.slice? text ⟨first, last⟩).getD []) (r.cut ⟨first, last⟩)

def deliver (piece : Piece) : Reading text Unit := fun r =>
  .ok () (r.deliver piece)

/-- Whether a step from `r` succeeds with what `post` allows, or fails with what `fail` allows. -/
def Meets (x : Reading text α) (r : Reader text) (post : α → Reader text → Prop)
    (fail : ScanError → Reader text → Prop) : Prop :=
  match x.run r with
  | .ok a r' => post a r'
  | .error e r' => fail e r'

section Meets

variable {r : Reader text} {post : β → Reader text → Prop} {fail : ScanError → Reader text → Prop}

/-- Two steps come to what the second one comes to from where the first one ends. -/
theorem meets_bind {x : Reading text α} {f : α → Reading text β} :
    Meets (x >>= f) r post fail ↔ Meets x r (fun a r' => Meets (f a) r' post fail) fail := by
  rw [Meets, EStateM.run_bind, Meets]
  cases x.run r <;> rfl

theorem meets_look {tell : Cursor → β} : Meets (look tell) r post fail ↔ post (tell r.cursor) r :=
  Iff.rfl

theorem Meets.mono {x : Reading text β} {post' : β → Reader text → Prop}
    {fail' : ScanError → Reader text → Prop} (h : Meets x r post fail)
    (hpost : ∀ b r', post b r' → post' b r') (hfail : ∀ e r', fail e r' → fail' e r') :
    Meets x r post' fail' := by
  unfold Meets at *
  split at h
  · exact hpost _ _ h
  · exact hfail _ _ h

/-- What two look-outs upon a step say of it, they say together. -/
theorem Meets.and {x : Reading text β} {post' : β → Reader text → Prop}
    {fail' : ScanError → Reader text → Prop} (h : Meets x r post fail)
    (h' : Meets x r post' fail') :
    Meets x r (fun b r' => post b r' ∧ post' b r') fun e r' => fail e r' ∧ fail' e r' := by
  unfold Meets at *
  split <;> rename_i heq <;> rw [heq] at h h' <;> exact ⟨h, h'⟩

end Meets

/-! ### Loops -/

/-- How a turn of a loop ends: another turn follows, or the loop is left. -/
inductive Turn (σ α : Type) where
  | again (state : σ)
  | leave (result : α)

/-- Whether each turn behind which another one follows moves the cursor on. -/
def Progresses (text : List Char) (turn : σ → Reading text (Turn σ α)) : Prop :=
  ∀ ⦃s r s' r'⦄, (turn s).run r = .ok (.again s') r' → r.position < r'.position

/-- Turn after turn, as long as another one follows. -/
def loop (turn : σ → Reading text (Turn σ α)) (h : Progresses text turn) (s : σ) :
    Reading text α := fun r =>
  match _h : (turn s).run r with
  | .ok (.again s') r' => loop turn h s' r'
  | .ok (.leave a) r' => .ok a r'
  | .error e r' => .error e r'
  termination_by r => (Utf8.encode text).length - r.position
  decreasing_by
    have := h _h
    have := Reader.position_le ‹Reader text›
    omega

section Loop

variable {turn : σ → Reading text (Turn σ α)} {h : Progresses text turn} {s : σ} {r : Reader text}

/-- What follows a turn: the rest of the loop, or nothing. -/
def Turn.next (rest : σ → Reading text α) : Turn σ α → Reading text α
  | .again s' => rest s'
  | .leave a => pure a

/-- **A loop is a turn and what follows it.** -/
theorem loop_eq (turn : σ → Reading text (Turn σ α)) (h : Progresses text turn) (s : σ) :
    loop turn h s = turn s >>= Turn.next (loop turn h) := by
  funext r
  show loop turn h s r = ((turn s >>= Turn.next (loop turn h)).run r)
  rw [loop, EStateM.run_bind]
  split <;> rename_i hturn <;> rw [hturn] <;> rfl

theorem loop_again {s' : σ} {r' : Reader text} (hturn : (turn s).run r = .ok (.again s') r') :
    (loop turn h s).run r = (loop turn h s').run r' := by
  rw [loop_eq, EStateM.run_bind, hturn]
  rfl

theorem loop_leave {a : α} {r' : Reader text} (hturn : (turn s).run r = .ok (.leave a) r') :
    (loop turn h s).run r = .ok a r' := by
  rw [loop_eq, EStateM.run_bind, hturn]
  rfl

theorem loop_error {e : ScanError} {r' : Reader text} (hturn : (turn s).run r = .error e r') :
    (loop turn h s).run r = .error e r' := by
  rw [loop_eq, EStateM.run_bind, hturn]

/-- What each turn keeps up holds for the loop: `stands` before each turn, and what is required of
    the result where it is left. -/
theorem meets_loop (stands : σ → Reader text → Prop) {post : α → Reader text → Prop}
    {fail : ScanError → Reader text → Prop}
    (hstep : ∀ s r, stands s r → Meets (turn s) r (fun t r' =>
      match t with
      | .again s' => stands s' r'
      | .leave a => post a r') fail)
    (hstands : stands s r) : Meets (loop turn h s) r post fail := by
  induction hleft : (Utf8.encode text).length - r.position using Nat.strongRecOn
    generalizing s r with
  | ind left ih =>
    have hmeets := hstep s r hstands
    rw [Meets] at hmeets ⊢
    cases hturn : (turn s).run r with
    | ok t r' =>
      rw [hturn] at hmeets
      cases t with
      | again s' =>
        have := h hturn
        have := r'.position_le
        rw [loop_again hturn]
        exact ih _ (by omega) hmeets rfl
      | leave a =>
        rw [loop_leave hturn]
        exact hmeets
    | error e r' =>
      rw [hturn] at hmeets
      rw [loop_error hturn]
      exact hmeets

end Loop

/-! ### Moving on -/

/-- Whether a step from `r`, if it succeeds, ends at the position `n` or behind it. -/
def Reaches (n : Nat) (x : Reading text α) (r : Reader text) : Prop :=
  Meets x r (fun _ r' => n ≤ r'.position) fun _ _ => True

section Reaches

variable {r : Reader text} {n m : Nat} {x : Reading text α} {f : α → Reading text β}

theorem reaches_pure {a : α} (h : n ≤ r.position) : Reaches n (pure a) r := h

theorem reaches_throw {e : ScanError} : Reaches n (throw e : Reading text α) r := trivial

/-- What follows a step begins where the step has come to. -/
theorem reaches_bind (hx : Reaches m x r)
    (hf : ∀ a r', m ≤ r'.position → Reaches n (f a) r') : Reaches n (x >>= f) r :=
  meets_bind.2 (hx.mono hf fun _ _ h => h)

/-- What is looked at tells what follows. -/
theorem reaches_bind_look {tell : Cursor → α} (hf : Reaches n (f (tell r.cursor)) r) :
    Reaches n (look tell >>= f) r :=
  meets_bind.2 hf

theorem reaches_cut {first last : Nat} : Reaches r.position (cut first last) r :=
  Nat.le_refl r.position

theorem reaches_moveTo (h : n ≤ m) (hm : m ≤ (Utf8.encode text).length) :
    Reaches n (moveTo m) r := by
  show n ≤ (r.moveTo m).position
  rw [Reader.position_moveTo]
  omega

theorem reaches_advance {count : Nat} (h : r.position + count ≤ (Utf8.encode text).length) :
    Reaches (r.position + count) (advance count) r :=
  reaches_moveTo (Nat.le_refl _) h

/-- No move onwards goes back, not even one that is stopped by the end. -/
theorem reaches_position_advance {count : Nat} : Reaches r.position (advance count) r := by
  show r.position ≤ (r.moveTo (r.position + count)).position
  rw [Reader.position_moveTo]
  have := r.position_le
  omega

/-- A move onwards of any length moves the cursor on where there are bytes left. -/
theorem reaches_advance_of_lt {count : Nat} (hcount : 0 < count)
    (h : r.position < (Utf8.encode text).length) :
    Reaches (r.position + 1) (advance count) r := by
  show r.position + 1 ≤ (r.moveTo (r.position + count)).position
  rw [Reader.position_moveTo]
  omega

/-- Where a step has come to, it has come past all that is before. -/
theorem Reaches.of_le (h : Reaches m x r) (hn : n ≤ m) : Reaches n x r :=
  h.mono (fun _ _ hm => Nat.le_trans hn hm) fun _ _ h => h

/-- Whether a turn that went from the position `n` to the position `m` moved on, or at least not
    back if it left its loop. -/
def Turn.Moves (n m : Nat) : Turn σ α → Prop
  | .again _ => n < m
  | .leave _ => n ≤ m

/-- Whether all turns of a loop do so, those aside that fail. -/
def MovesOn (text : List Char) (turn : σ → Reading text (Turn σ α)) : Prop :=
  ∀ s r, Meets (turn s) r (fun t r' => t.Moves r.position r'.position) fun _ _ => True

theorem MovesOn.progresses {turn : σ → Reading text (Turn σ α)} (h : MovesOn text turn) :
    Progresses text turn := by
  intro s r s' r' hturn
  have hmeets := h s r
  rw [Meets, hturn] at hmeets
  exact hmeets

/-- No loop moves the cursor back. -/
theorem MovesOn.reaches_loop {turn : σ → Reading text (Turn σ α)} (h : MovesOn text turn) (s : σ) :
    Reaches r.position (loop turn h.progresses s) r := by
  refine meets_loop (fun _ r' => r.position ≤ r'.position) (fun s r' hle => ?_)
    (Nat.le_refl r.position)
  refine (h s r').mono (fun t r'' hmoves => ?_) fun _ _ h => h
  cases t with
  | again => exact Nat.le_trans hle (Nat.le_of_lt hmoves)
  | leave => exact Nat.le_trans hle hmoves

end Reaches

end Reading

end XmlQuery.Markup
