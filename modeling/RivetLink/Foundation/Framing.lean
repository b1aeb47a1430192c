import RivetLink.Foundation.Bytes

/-!
# Frames on a byte stream

A reader gets the bytes of a stream in pieces, cut anywhere; `readExact` takes a number of bytes
from the pieces. A frame is a payload behind its length in four bytes; `readFrame` refuses a frame
that is longer than a limit before it reads the payload.

`writeAll` writes a sequence of messages with a writer that keeps a state, `readAll` reads a number
of messages with such a reader. `readAll_writeAll` is the induction over a sequence: if one message
is read back as it was written, whatever follows it and however the stream is cut, then so is a
sequence; `readAll_refused` is its converse. `Related` is what has to hold between the states of
writer and reader.
-/

namespace RivetLink.Foundation

open List Option

/-! ## Pieces -/

/-- The next `n` bytes and the pieces after them, or `none` when the stream ends before. -/
def readExact (n : Nat) : List Bytes → Option (Bytes × List Bytes)
  | [] => if n = 0 then some ([], []) else none
  | piece :: pieces =>
    if n ≤ piece.length then some (piece.take n, piece.drop n :: pieces)
    else (readExact (n - piece.length) pieces).map fun p => (piece ++ p.1, p.2)

/-- Where the stream is cut does not matter. -/
theorem readExact_eq_some {n : Nat} {pieces : List Bytes} {b rest : Bytes}
    (hflat : pieces.flatten = b ++ rest) (hlen : b.length = n) :
    ∃ pieces', readExact n pieces = some (b, pieces') ∧ pieces'.flatten = rest := by
  induction pieces generalizing n b with
  | nil =>
    obtain ⟨rfl, rfl⟩ := append_eq_nil_iff.1 hflat.symm
    subst hlen
    exact ⟨[], rfl, rfl⟩
  | cons piece pieces ih =>
    rw [flatten_cons] at hflat
    unfold readExact
    split_ifs with hle
    · -- the piece holds all of it
      have hb : b = piece.take n := by
        have htake := congrArg (List.take n) hflat
        rwa [take_append_of_le_length hle, take_left' hlen, eq_comm] at htake
      have hrest : piece.drop n ++ pieces.flatten = rest := by
        have hdrop := congrArg (List.drop n) hflat
        rwa [drop_append_of_le_length hle, drop_left' hlen] at hdrop
      exact ⟨piece.drop n :: pieces, by rw [← hb], by rw [flatten_cons, hrest]⟩
    · -- the piece is the start of it
      have hlt : piece.length < n := Nat.lt_of_not_le hle
      have hb : b = piece ++ b.drop piece.length := by
        have htake := congrArg (List.take piece.length) hflat
        rw [take_left, take_append_of_le_length (by omega)] at htake
        conv_lhs => rw [← take_append_drop piece.length b, ← htake]
      have hmore : pieces.flatten = b.drop piece.length ++ rest := by
        rw [hb, append_assoc] at hflat
        exact append_cancel_left hflat
      obtain ⟨pieces', hread, hflat'⟩ := ih hmore (n := n - piece.length)
        (by rw [length_drop, hlen])
      exact ⟨pieces', by rw [hread, map_some, ← hb], hflat'⟩

/-! ## One frame -/

def frameBytes (payload : Bytes) : Bytes := beBytes 4 payload.length ++ payload

inductive FrameFault where
  | eof
  | tooLarge
  deriving DecidableEq, Repr

def readFrame (limit : Nat) (pieces : List Bytes) : Except FrameFault (Bytes × List Bytes) :=
  match readExact 4 pieces with
  | none => .error .eof
  | some (head, pieces) =>
    if limit < readBe head then .error .tooLarge
    else
      match readExact (readBe head) pieces with
      | none => .error .eof
      | some p => .ok p

section Frame

variable {limit : Nat} {pieces : List Bytes} {payload rest : Bytes}

theorem readExact_head (hflat : pieces.flatten = frameBytes payload ++ rest)
    (hlen : payload.length < 2 ^ 32) : ∃ head pieces', readExact 4 pieces = some (head, pieces') ∧
      readBe head = payload.length ∧ pieces'.flatten = payload ++ rest := by
  unfold frameBytes at hflat
  rw [append_assoc] at hflat
  obtain ⟨pieces', hread, hflat'⟩ := readExact_eq_some hflat (length_beBytes 4 _)
  refine ⟨_, pieces', hread, ?_, hflat'⟩
  rw [readBe_beBytes]
  exact Nat.mod_eq_of_lt (lt_of_lt_of_eq hlen (by decide))

/-- A frame within the limit is read back. -/
theorem readFrame_frameBytes (hflat : pieces.flatten = frameBytes payload ++ rest)
    (hlen : payload.length < 2 ^ 32) (hfit : payload.length ≤ limit) :
    ∃ pieces', readFrame limit pieces = .ok (payload, pieces') ∧ pieces'.flatten = rest := by
  obtain ⟨head, pieces', hhead, hvalue, hflat'⟩ := readExact_head hflat hlen
  obtain ⟨pieces'', hread, hrest⟩ := readExact_eq_some hflat' rfl
  refine ⟨pieces'', ?_, hrest⟩
  simp only [readFrame, hhead, hvalue, if_neg (Nat.not_lt.2 hfit), hread]

/-- A frame over the limit is refused. -/
theorem readFrame_tooLarge (hflat : pieces.flatten = frameBytes payload ++ rest)
    (hlen : payload.length < 2 ^ 32) (hover : limit < payload.length) :
    readFrame limit pieces = .error .tooLarge := by
  obtain ⟨head, pieces', hhead, hvalue, -⟩ := readExact_head hflat hlen
  simp only [readFrame, hhead, hvalue, if_pos hover]

end Frame

/-! ## Sequences -/

section Sequences

variable {σ τ α ε : Type}

def writeAll (write : α → σ → Except ε Bytes × σ) : List α → σ → Except ε Bytes × σ
  | [], s => (.ok [], s)
  | a :: as, s =>
    match write a s with
    | (.error e, s) => (.error e, s)
    | (.ok b, s) =>
      match writeAll write as s with
      | (.error e, s) => (.error e, s)
      | (.ok more, s) => (.ok (b ++ more), s)

def readAll (read : τ → List Bytes → Except ε (α × τ × List Bytes)) :
    Nat → τ → List Bytes → Except ε (List α × τ × List Bytes)
  | 0, t, pieces => .ok ([], t, pieces)
  | n + 1, t, pieces =>
    match read t pieces with
    | .error e => .error e
    | .ok (a, t, pieces) =>
      match readAll read n t pieces with
      | .error e => .error e
      | .ok (as, t, pieces) => .ok (a :: as, t, pieces)

variable {write : α → σ → Except ε Bytes × σ}
  {read : τ → List Bytes → Except ε (α × τ × List Bytes)} {as : List α}

theorem writeAll_cons_eq_ok {a : α} {s s' : σ} {b : Bytes}
    (h : writeAll write (a :: as) s = (.ok b, s')) :
    ∃ first more s'', write a s = (.ok first, s'') ∧ writeAll write as s'' = (.ok more, s') ∧
      b = first ++ more := by
  unfold writeAll at h
  split at h
  · cases h
  · next first s'' hfirst =>
      split at h
      · cases h
      · next more s''' hmore =>
          cases h
          exact ⟨first, more, s'', hfirst, hmore, rfl⟩

variable (Related : σ → τ → Prop) (Fits : α → Prop)
  (hstep : ∀ {a : α} {s s' : σ} {t : τ} {b rest : Bytes} {pieces : List Bytes}, Fits a →
    Related s t → write a s = (.ok b, s') → pieces.flatten = b ++ rest →
    ∃ t' pieces', read t pieces = .ok (a, t', pieces') ∧ Related s' t' ∧ pieces'.flatten = rest)
  {s s' : σ} {t : τ} {b rest : Bytes} {pieces : List Bytes}

include hstep

/-- If every message is read back, so is a sequence of them. -/
theorem readAll_writeAll (hfits : ∀ a ∈ as, Fits a) (hrel : Related s t)
    (hwrite : writeAll write as s = (.ok b, s')) (hflat : pieces.flatten = b ++ rest) :
    ∃ t' pieces', readAll read as.length t pieces = .ok (as, t', pieces') ∧ Related s' t' ∧
      pieces'.flatten = rest := by
  induction as generalizing s t b pieces with
  | nil =>
    cases hwrite
    exact ⟨t, pieces, rfl, hrel, hflat⟩
  | cons a as ih =>
    obtain ⟨first, more, s'', hfirst, hmore, rfl⟩ := writeAll_cons_eq_ok hwrite
    rw [append_assoc] at hflat
    obtain ⟨t'', pieces'', hread, hrel'', hflat''⟩ :=
      hstep (hfits a mem_cons_self) hrel hfirst hflat
    obtain ⟨t', pieces', hreads, hrel', hflat'⟩ :=
      ih (fun x hx => hfits x (mem_cons_of_mem a hx)) hrel'' hmore hflat''
    refine ⟨t', pieces', ?_, hrel', hflat'⟩
    simp only [length_cons, readAll, hread, hreads]

/-- If moreover every other message is refused, so is a sequence with such a message. -/
theorem readAll_refused {e : ε}
    (hrefuse : ∀ {a : α} {s s' : σ} {t : τ} {b rest : Bytes} {pieces : List Bytes}, ¬ Fits a →
      write a s = (.ok b, s') → pieces.flatten = b ++ rest → read t pieces = .error e)
    (hover : ∃ a ∈ as, ¬ Fits a) (hrel : Related s t)
    (hwrite : writeAll write as s = (.ok b, s')) (hflat : pieces.flatten = b ++ rest) :
    readAll read as.length t pieces = .error e := by
  induction as generalizing s t b pieces with
  | nil => simp at hover
  | cons a as ih =>
    obtain ⟨first, more, s'', hfirst, hmore, rfl⟩ := writeAll_cons_eq_ok hwrite
    rw [append_assoc] at hflat
    by_cases ha : Fits a
    · -- the reader comes to the rest
      obtain ⟨t'', pieces'', hread, hrel'', hflat''⟩ := hstep ha hrel hfirst hflat
      have hrest : ∃ x ∈ as, ¬ Fits x := by simpa [ha] using hover
      simp only [length_cons, readAll, hread, ih hrest hrel'' hmore hflat'']
    · simp only [length_cons, readAll, hrefuse ha hfirst hflat]

end Sequences

end RivetLink.Foundation
