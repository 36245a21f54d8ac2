import XmlQuery.Proofs.Markup.Faults
import XmlQuery.Proofs.Markup.TokenReading

namespace XmlQuery.Markup

/-!
# The reader goes on to the end

Read by bytes, a document is read to its end or to its first error.  Every turn of every loop moves
the cursor on, and nothing is cut from the text but between two of its characters.

* `Reading.Runs`, `Reading.Ends` — a loop, told turn by turn, and loops that end from everywhere.
* `Tiles` — stretches that follow each other without gap or overlap.
* `meets_readTokens` — tokens read by bytes are those read by characters.
* `readTokens_tiles` — they tile the document.
-/

namespace Reading

variable {text : List Char} {α σ : Type}

/-- Whether a loop whose turns begin with `readers`, the first one with `s` and `r`, comes to
    `result`. -/
inductive Runs (turn : σ → Reading text (Turn σ α)) :
    σ → Reader text → List (Reader text) → EStateM.Result ScanError (Reader text) α → Prop
  | again {s s' : σ} {r r' : Reader text} {readers : List (Reader text)}
      {result : EStateM.Result ScanError (Reader text) α} :
      (turn s).run r = .ok (.again s') r' → Runs turn s' r' readers result →
      Runs turn s r (r :: readers) result
  | leave {s : σ} {r r' : Reader text} {a : α} :
      (turn s).run r = .ok (.leave a) r' → Runs turn s r [r] (.ok a r')
  | fail {s : σ} {r r' : Reader text} {e : ScanError} :
      (turn s).run r = .error e r' → Runs turn s r [r] (.error e r')

/-- Whether a loop ends wherever it begins: it comes to what it gives by a row of turns, each behind
    the one before it, so that there are no more of them than bytes that are left, and one. -/
def Ends (text : List Char) (turn : σ → Reading text (Turn σ α)) : Prop :=
  ∃ h : Progresses text turn, ∀ s r, ∃ readers, Runs turn s r readers ((loop turn h s).run r) ∧
    readers.Pairwise (·.position < ·.position) ∧
    readers.length ≤ (Utf8.encode text).length - r.position + 1

/-- **A loop ends if its turns move on.** -/
theorem Progresses.ends {turn : σ → Reading text (Turn σ α)} (h : Progresses text turn) :
    Ends text turn := by
  refine ⟨h, fun s r => ?_⟩
  -- no turn begins before the first one
  suffices hends : ∃ readers, Runs turn s r readers ((loop turn h s).run r) ∧
      readers.Pairwise (·.position < ·.position) ∧ (∀ r' ∈ readers, r.position ≤ r'.position) ∧
      readers.length ≤ (Utf8.encode text).length - r.position + 1 by
    obtain ⟨readers, hruns, hordered, -, hlength⟩ := hends
    exact ⟨readers, hruns, hordered, hlength⟩
  induction hleft : (Utf8.encode text).length - r.position using Nat.strongRecOn
    generalizing s r with
  | ind left ih =>
    have hself : ∀ r' ∈ [r], r.position ≤ r'.position := fun r' hr' =>
      Nat.le_of_eq (congrArg Reader.position (List.mem_singleton.1 hr').symm)
    cases hturn : (turn s).run r with
    | ok t r' =>
      cases t with
      | again s' =>
        have hlt := h hturn
        have := r'.position_le
        obtain ⟨readers, hruns, hordered, hle, hlength⟩ := ih _ (by omega) s' r' rfl
        have hbehind : ∀ r'' ∈ readers, r.position < r''.position := fun r'' hr'' =>
          Nat.lt_of_lt_of_le hlt (hle r'' hr'')
        rw [loop_again hturn]
        refine ⟨r :: readers, .again hturn hruns, List.pairwise_cons.2 ⟨hbehind, hordered⟩,
          List.forall_mem_cons.2 ⟨Nat.le_refl _, fun r'' hr'' => Nat.le_of_lt (hbehind r'' hr'')⟩,
          ?_⟩
        rw [List.length_cons]
        omega
      | leave a =>
        rw [loop_leave hturn]
        exact ⟨[r], .leave hturn, List.pairwise_singleton _ _, hself, Nat.le_add_left _ _⟩
    | error e r' =>
      rw [loop_error hturn]
      exact ⟨[r], .fail hturn, List.pairwise_singleton _ _, hself, Nat.le_add_left _ _⟩

end Reading

/-! ### Stretches in a row -/

/-- Whether nonempty stretches follow each other without gap or overlap from the offset `n` to the
    offset `m`. -/
inductive Tiles : Nat → List Utf8.Span → Nat → Prop
  | nil (n : Nat) : Tiles n [] n
  | cons (span : Utf8.Span) {spans : List Utf8.Span} {m : Nat} :
      span.first < span.last → Tiles span.last spans m → Tiles span.first (span :: spans) m

theorem Tiles.concat {n m k : Nat} {spans : List Utf8.Span} (h : Tiles n spans m) (hlt : m < k) :
    Tiles n (spans ++ [⟨m, k⟩]) k := by
  induction h with
  | nil n => exact .cons ⟨n, k⟩ hlt (.nil k)
  | cons span hspan _ ih => exact .cons span hspan (ih hlt)

namespace Reading

open Reader

variable {text : List Char} {r : Reader text}

/-- What some tokens make happen, in order. -/
def eventsOf (pieces : List Piece) : List Event :=
  pieces.flatMap (·.token.events)

theorem eventsOf_concat (pieces : List Piece) (piece : Piece) :
    eventsOf (pieces ++ [piece]) = eventsOf pieces ++ piece.token.events := by
  rw [eventsOf, List.flatMap_append, List.flatMap_singleton]
  rfl

/-- Whether a reader has delivered the tokens in front of `cs`, which tile the text up to the
    cursor. -/
structure Delivered (cs : List Char) (r : Reader text) : Prop where
  stands : r.At r.pieces cs
  tiles : Tiles 0 (r.pieces.map Piece.span) r.position
  scanText_eq : scanText text = (eventsOf r.pieces ++ (scanText cs).1, (scanText cs).2)

/-- Whether a reader has delivered the tokens in front of one at fault, and given it up with `e`. -/
def GaveUp (e : ScanError) (r : Reader text) : Prop :=
  ∃ place fault, r.Intact r.pieces ∧ place < (Utf8.encode text).length ∧
    Tiles 0 (r.pieces.map Piece.span) place ∧ e = fault.toError (Utf8.encode text).length ∧
    scanText text = (eventsOf r.pieces, some fault)

/-- **A turn delivers one token more**, or it gives up, or the text is at its end. -/
theorem meets_runTurn {cs : List Char} (h : Delivered cs r) :
    Meets (runTurn ()) r
      (fun t r' =>
        match t with
        | .again _ => ∃ rest, Delivered rest r'
        | .leave _ => Delivered [] r')
      GaveUp := by
  rw [runTurn, meets_bind, meets_look]
  split
  · rename_i hend
    obtain rfl := h.stands.atEnd_iff.1 hend
    exact h
  · rename_i hend
    cases cs with
    | nil => exact absurd (h.stands.atEnd_iff.2 rfl) hend
    | cons c cs =>
      have hscan := h.scanText_eq
      rw [scanText_cons] at hscan
      have hlt := r.lt_of_atEnd hend
      refine meets_bind.2 (meets_bind.2 (((mirrors_readToken h.stands).and
        (reaches_readToken hlt)).mono ?_ ?_))
      · rintro token r₁ ⟨⟨rest, hread, h₁⟩, hmoved⟩
        rw [hread] at hscan
        refine ⟨rest, ⟨⟨rfl, h₁.isSome_slice?⟩, h₁.suffix, h₁.rest_eq⟩, ?_, ?_⟩
        · show Tiles 0 ((r₁.pieces ++ [_]).map Piece.span) r₁.position
          rw [List.map_append, h₁.pieces_eq]
          exact h.tiles.concat hmoved
        · show scanText text = (eventsOf (r₁.pieces ++ [_]) ++ _, _)
          rw [hscan, h₁.pieces_eq, eventsOf_concat, List.append_assoc]
      · rintro e r₁ ⟨⟨fault, hread, he, h₁⟩, -⟩
        rw [hread, List.append_nil] at hscan
        have hpieces := h₁.pieces_eq
        refine ⟨r.position, fault, ?_, hlt, hpieces ▸ h.tiles, he, hpieces ▸ hscan⟩
        exact ⟨rfl, h₁.isSome_slice?⟩

/-- **The tokens read by bytes are those read by characters**, and they tile the text up to its end
    or to the token at fault. -/
theorem meets_readTokens (text : List Char) :
    Meets readTokens (.start text) (fun _ => Delivered []) GaveUp := by
  refine meets_loop (fun _ r => ∃ cs, Delivered cs r) ?_ ⟨text, ?_⟩
  · rintro _ r ⟨cs, h⟩
    refine (meets_runTurn h).mono (fun t r' ht => ?_) fun _ _ h => h
    cases t <;> exact ht
  · exact ⟨at_start text, .nil 0, by rw [eventsOf]; rfl⟩

/-- All that has been cut was there to be cut. -/
theorem bounds_of_intact {pieces : List Piece} (h : r.Intact pieces) :
    ∀ span ∈ r.cuts, span.first ≤ span.last ∧ span.last ≤ (Utf8.encode text).length ∧
      Utf8.IsBoundary text span.first ∧ Utf8.IsBoundary text span.last ∧
      (Utf8.slice? text span).isSome := by
  intro span hspan
  have hsome := h.isSome_slice? span hspan
  obtain ⟨hle, hfirst, hlast⟩ := Utf8.isSome_slice?_iff.1 hsome
  exact ⟨hle, hlast.le, hfirst, hlast, hsome⟩

/-- A document has the events of its text, and its errors are at offsets into its bytes. -/
theorem scan_of_scanText {bytes : List UInt8} {events : List Event} {fault : Option Fault}
    (h : Utf8.decode (withoutMark bytes) = .ok text) (hscan : scanText text = (events, fault)) :
    scan bytes = ⟨events, fault.map (Fault.toError (Utf8.encode text).length)⟩ := by
  rw [scan_of_decode h, hscan, Utf8.encode_decode h]

/-- **No reader fails to move on, and none loses a part of its text.**  Read by bytes, a text is cut
    between characters only, and every loop ends, wherever it begins, the cursor further on at each
    of its turns.  The tokens delivered make happen what a scan of the text does, and they tile its
    bytes: all of them, or those in front of the token at fault. -/
theorem readTokens_tiles (text : List Char) :
    (∀ r : Reader text, r.position ≤ (Utf8.encode text).length) ∧
    Progresses text runTurn ∧ Ends text runTurn ∧
    Ends text (skipTurn isSpace) ∧ Ends text (skipTurn isNameSymbol) ∧ Ends text doctypeTurn ∧
    (∀ start, Ends text (attributesTurn start)) ∧
    ∃ r : Reader text,
      (∀ span ∈ r.cuts, span.first ≤ span.last ∧ span.last ≤ (Utf8.encode text).length ∧
        Utf8.IsBoundary text span.first ∧ Utf8.IsBoundary text span.last ∧
        (Utf8.slice? text span).isSome) ∧
      ((readTokens.run (.start text) = .ok () r ∧ r.position = (Utf8.encode text).length ∧
          Tiles 0 (r.pieces.map Piece.span) (Utf8.encode text).length ∧
          ∀ bytes, Utf8.decode (withoutMark bytes) = .ok text →
            scan bytes = ⟨eventsOf r.pieces ++ [.endDocument], none⟩) ∨
        ∃ e place, readTokens.run (.start text) = .error e r ∧
          place < (Utf8.encode text).length ∧ Tiles 0 (r.pieces.map Piece.span) place ∧
          ∀ bytes, Utf8.decode (withoutMark bytes) = .ok text →
            scan bytes = ⟨eventsOf r.pieces, some e⟩) := by
  refine ⟨Reader.position_le, movesOn_runTurn.progresses, movesOn_runTurn.progresses.ends,
    (movesOn_skipTurn _).progresses.ends, (movesOn_skipTurn _).progresses.ends,
    movesOn_doctypeTurn.progresses.ends, fun _ => (movesOn_attributesTurn _).progresses.ends, ?_⟩
  have hread := meets_readTokens text
  rw [Meets] at hread
  cases hrun : readTokens.run (.start text) with
  | ok _ r =>
    rw [hrun] at hread
    have hscan := hread.scanText_eq
    have hend : r.position = (Utf8.encode text).length := hread.stands.position_eq
    rw [scanText_nil] at hscan
    exact ⟨r, bounds_of_intact hread.stands.toIntact, .inl ⟨rfl, hend, hend ▸ hread.tiles,
      fun bytes h => scan_of_scanText h hscan⟩⟩
  | error e r =>
    rw [hrun] at hread
    obtain ⟨place, fault, hintact, hlt, htiles, rfl, hscan⟩ := hread
    exact ⟨r, bounds_of_intact hintact, .inr ⟨_, place, rfl, hlt, htiles,
      fun bytes h => scan_of_scanText h hscan⟩⟩

end Reading

end XmlQuery.Markup
