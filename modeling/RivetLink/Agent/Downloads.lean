import RivetLink.Agent.QuietFolder
import RivetLink.Sdk.LanMessages

/-!
# Downloads

The task that answers a `FileDownload`: it reads the file in chunks and sends each one on. Other
programs may change the file between two reads and during one, so what a read sees is arbitrary:
the size that the file system reports first, and the content at the time of the read. `readSeen` is
`read_chunk` as far as it depends on these two; `Store.readChunk_seen` says that `read_chunk` on the
disk is of this form.

The offset of the next read is computed from the base64 text, not from the data. `decodedLen_encode`
shows that nothing goes wrong there. `downloadFrom_ends` counts the reads: each one that is not
the last has moved the offset on, and has left it below the largest size.
-/

namespace RivetLink.Agent

open List RivetLink.Foundation RivetLink.Sdk

/-! ## The length of a base64 text -/

/-- The trailing padding signs of a text in bytes. -/
def padding (bytes : Bytes) : Nat := (bytes.reverse.takeWhile (· = 61)).length

/-- The number of bytes that a padded base64 text stands for, computed without decoding it. -/
def decodedLen (bytes : Bytes) : Nat := bytes.length / 4 * 3 - padding bytes

def base64DecodedLen (dataB64 : Str) : Nat := decodedLen dataB64.asBytes.bytes

/-- Only what follows the last other byte counts. -/
theorem padding_append {front back : Bytes} (h : padding front = 0) :
    padding (front ++ back) = padding back := by
  unfold padding at *
  have hnil : front.reverse.takeWhile (· = 61) = [] := length_eq_zero_iff.1 h
  rw [reverse_append, takeWhile_append]
  split
  · rename_i hall
    rw [hnil, append_nil, hall]
  · rfl

theorem padding_concat {front : Bytes} {b : UInt8} (h : b ≠ 61) : padding (front ++ [b]) = 0 := by
  simp [padding, h]

/-- A character of the alphabet is one byte, and not the padding sign. -/
theorem utf8_digit {n : Nat} (h : n < 64) : ∃ b, utf8 [Base64.digit n] = [b] ∧ b ≠ 61 := by
  have hall : ∀ m : Fin 64, ∃ b, utf8 [Base64.digit m.val] = [b] ∧ b ≠ 61 := by
    have hbytes : ∀ m : Fin 64, (utf8 [Base64.digit m.val]).length = 1 ∧
        (utf8 [Base64.digit m.val]).headD 61 ≠ 61 := by
      decide +kernel
    intro m
    obtain ⟨hone, hhead⟩ := hbytes m
    obtain ⟨b, hb⟩ := length_eq_one_iff.1 hone
    rw [hb] at hhead
    exact ⟨b, hb, hhead⟩
  exact hall ⟨n, h⟩

theorem utf8_cons (c : Char) (cs : List Char) : utf8 (c :: cs) = utf8 [c] ++ utf8 cs := by
  simp [utf8]

/-- As many padding signs as bytes are missing to groups of three. -/
theorem padding_encode (d : Bytes) :
    padding (utf8 (Base64.encodeChars d)) + d.length = 3 * ((d.length + 2) / 3) := by
  fun_induction Base64.encodeChars d with
  | case1 => rfl
  | case2 a =>
    have ha := a.toNat_lt
    obtain ⟨b₁, hb₁, -⟩ := utf8_digit (n := a.toNat / 4) (by omega)
    obtain ⟨b₂, hb₂, hne⟩ := utf8_digit (n := a.toNat % 4 * 16) (by omega)
    rw [utf8_cons, hb₁, utf8_cons, hb₂]
    have hfront : padding ([b₁] ++ [b₂]) = 0 := padding_concat hne
    have hpad : padding ([b₁] ++ ([b₂] ++ utf8 ['=', '='])) = 2 := padding_append hfront
    rw [hpad]
    simp
  | case3 a b =>
    have ha := a.toNat_lt
    have hb := b.toNat_lt
    obtain ⟨b₁, hb₁, -⟩ := utf8_digit (n := a.toNat / 4) (by omega)
    obtain ⟨b₂, hb₂, -⟩ := utf8_digit (n := a.toNat % 4 * 16 + b.toNat / 16) (by omega)
    obtain ⟨b₃, hb₃, hne⟩ := utf8_digit (n := b.toNat % 16 * 4) (by omega)
    rw [utf8_cons, hb₁, utf8_cons, hb₂, utf8_cons, hb₃]
    have hfront : padding ([b₁, b₂] ++ [b₃]) = 0 := padding_concat hne
    have hpad : padding ([b₁] ++ ([b₂] ++ ([b₃] ++ utf8 ['=']))) = 1 := padding_append hfront
    rw [hpad]
    simp
  | case4 a b c rest ih =>
    have ha := a.toNat_lt
    have hb := b.toNat_lt
    have hc := c.toNat_lt
    obtain ⟨b₁, hb₁, -⟩ := utf8_digit (n := a.toNat / 4) (by omega)
    obtain ⟨b₂, hb₂, -⟩ := utf8_digit (n := a.toNat % 4 * 16 + b.toNat / 16) (by omega)
    obtain ⟨b₃, hb₃, -⟩ := utf8_digit (n := b.toNat % 16 * 4 + c.toNat / 64) (by omega)
    obtain ⟨b₄, hb₄, hne⟩ := utf8_digit (n := c.toNat % 64) (by omega)
    rw [utf8_cons, hb₁, utf8_cons, hb₂, utf8_cons, hb₃, utf8_cons, hb₄]
    -- the padding is that of the rest
    have hfront : padding ([b₁, b₂, b₃] ++ [b₄]) = 0 := padding_concat hne
    have hpad : padding ([b₁] ++ ([b₂] ++ ([b₃] ++ ([b₄] ++ utf8 (Base64.encodeChars rest))))) =
        padding (utf8 (Base64.encodeChars rest)) := padding_append hfront
    rw [hpad]
    simp only [length_cons]
    omega

/-- The length computed from the text is the length of the data. -/
theorem decodedLen_encode (d : Bytes) : decodedLen (utf8 (Base64.encodeChars d)) = d.length := by
  have hpad := padding_encode d
  rw [decodedLen, Base64.length_utf8_encodeChars, Base64.length_encodeChars]
  omega

/-! ## One read -/

/-- Why a read fails, as far as the client is told. -/
inductive ReadFailure where
  /-- An error whose message the client may see. -/
  | share (message : String)
  | other

def ShareError.message : ShareError → String
  | .rejected => "the host rejected this file path or size"
  | .io => "the host could not read or write the shared folder"

def shareMessage : ReadFailure → String
  | .share message => message
  | .other => "the host could not complete the clipboard or file request"

/-- What a read meets: a failure, also when the file has vanished or the worker is gone, or a file
with a size and a content. -/
inductive FileView where
  | failed (e : ReadFailure)
  | present (size : Nat) (content : Bytes)

/-- `read_chunk` of a file that has this size when it is looked at and this content when it is
read. -/
def readSeen (size : Nat) (content : Bytes) (offset : Nat) :
    Except ShareError (Bytes × Nat × Bool) :=
  if maxFileBytes < size || size < offset then .error .rejected
  else
    let data := (content.drop offset).take fileChunkBytes
    .ok (data, size, size ≤ offset + data.length)

/-- `read_shared`: the worker encodes what it has read. -/
def readShared (view : FileView) (offset : Nat) : Except ReadFailure (Str × Nat × Bool) :=
  match view with
  | .failed e => .error e
  | .present size content =>
    match readSeen size content offset with
    | .error e => .error (.share e.message)
    | .ok (data, size, eof) => .ok (Base64.standard.encode data, size, eof)

/-- What is known of a read that succeeds. -/
theorem readSeen_eq_ok {size offset : Nat} {content data : Bytes} {size' : Nat} {eof : Bool}
    (h : readSeen size content offset = .ok (data, size', eof)) :
    size' = size ∧ size ≤ maxFileBytes ∧ offset ≤ size ∧
      data = (content.drop offset).take fileChunkBytes ∧
        eof = decide (size ≤ offset + data.length) := by
  unfold readSeen at h
  split at h <;> cases h
  rename_i hbounds
  simp only [Bool.or_eq_true, decide_eq_true_eq, not_or, Nat.not_lt] at hbounds
  exact ⟨rfl, hbounds.1, hbounds.2, rfl, rfl⟩

/-- The length of a chunk is recovered from its text. -/
theorem base64DecodedLen_encode {data : Bytes} (h : data.length ≤ fileChunkBytes) :
    base64DecodedLen (Base64.standard.encode data) = data.length := by
  have hfits : data.length < 2 ^ 32 := by
    unfold fileChunkBytes at h
    omega
  have hchars : (Base64.standard.encode data).chars = Base64.encodeChars data := by
    unfold Base64.standard
    simp only [hfits, dite_true]
  change decodedLen (utf8 (Base64.standard.encode data).chars) = data.length
  rw [hchars]
  exact decodedLen_encode data

/-- Whatever fails on the disk, a read that succeeds is of this form. -/
theorem Store.readChunk_seen {path : Str} {offset : Nat} {r : Bytes × Nat × Bool} {s s' : Store}
    (h : Store.readChunk path offset s = .ok r s') :
    ∃ size content, readSeen size content offset = .ok r := by
  obtain ⟨_, _, _, _, inode, s₁, -, -, -, -, hread⟩ := readChunk_eq_ok h
  unfold readFrom at hread
  split at hread
  · cases hread
  · rename_i hbounds
    obtain ⟨file, s₂, -, hseek⟩ := ok_of_bind hread
    obtain ⟨-, s₃, -, hrest⟩ := ok_of_bind hseek
    obtain ⟨data, s₄, hdata, hdone⟩ := ok_of_bind hrest
    cases hdone
    -- the content is that at the time of the read
    have hends := ensures_eq_iff.1 (ensures_onDisk (s := s₃) (R := fun _ => True)
      (Q := fun data _ => data = ((s₃.disk.tree.content file).drop offset).take fileChunkBytes)
      (fun _ => Disk.readAt_spec) (fun _ _ h => h.2) fun _ _ => trivial)
    rw [hdata] at hends
    refine ⟨(s₁.disk.tree.content inode).length, s₃.disk.tree.content file, ?_⟩
    rw [readSeen, if_neg hbounds, show data = _ from hends]

/-! ## The loop -/

section Loop

variable (id : UInt32) (view : Nat → FileView) (sendOk : Nat → Bool)

/-- The task of a download from its `k`-th read on: the responses it sends, or `none` if it has not
returned after `fuel` reads. `view k` is what the `k`-th read meets, `sendOk k` whether its response
can be sent. -/
def downloadFrom : Nat → Nat → Nat → Option (List LanResponse)
  | 0, _, _ => none
  | fuel + 1, k, offset =>
    match readShared (view k) offset with
    | .error e => some [.fileError id (shareMessage e)]
    | .ok (dataB64, size, eof) =>
      let read := base64DecodedLen dataB64
      let done := eof || read = 0
      let chunk := .fileChunk id (UInt64.ofNat size) dataB64 done
      if sendOk k = false || done then some [chunk]
      else (downloadFrom fuel (k + 1) (offset + read)).map (chunk :: ·)

def download (fuel : Nat) : Option (List LanResponse) := downloadFrom id view sendOk fuel 0 0

end Loop

section Ends

variable {id : UInt32} {view : Nat → FileView} {sendOk : Nat → Bool} {eof : Bool} {content : Bytes}

def isChunk (id : UInt32) (eof : Bool) : LanResponse → Bool
  | .fileChunk id' _ _ eof' => id' = id && eof' = eof
  | _ => false

def isFileError (id : UInt32) : LanResponse → Bool
  | .fileError id' _ => id' = id
  | _ => false

/-- The last response, and only it, ends the download. -/
def EndsOnce (id : UInt32) (responses : List LanResponse) : Prop :=
  ∃ chunks last, responses = chunks ++ [last] ∧ (∀ r ∈ chunks, isChunk id false r = true) ∧
    (isChunk id true last = true ∨ isFileError id last = true)

theorem EndsOnce.cons {responses : List LanResponse} (h : EndsOnce id responses) {r : LanResponse}
    (hr : isChunk id false r = true) : EndsOnce id (r :: responses) := by
  obtain ⟨chunks, last, rfl, hchunks, hlast⟩ := h
  refine ⟨r :: chunks, last, rfl, ?_, hlast⟩
  intro r' hr'
  rcases mem_cons.1 hr' with rfl | hr'
  · exact hr
  · exact hchunks r' hr'

/-- What a read that is not the last one has done: the offset has moved on and is still below the
largest size. -/
theorem offset_of_continued {k offset : Nat} {dataB64 : Str} {size : Nat}
    (h : readShared (view k) offset = .ok (dataB64, size, eof))
    (hdone : (eof || decide (base64DecodedLen dataB64 = 0)) = false) :
    0 < base64DecodedLen dataB64 ∧ offset + base64DecodedLen dataB64 < maxFileBytes := by
  rw [Bool.or_eq_false_iff, decide_eq_false_iff_not] at hdone
  unfold readShared at h
  split at h
  · cases h
  · split at h
    · cases h
    · rename_i size₀ content data size₁ eof' hread
      cases h
      obtain ⟨rfl, hmax, -, hdata, heof⟩ := readSeen_eq_ok hread
      have hlength : data.length ≤ fileChunkBytes := by
        rw [hdata]
        exact length_take_le _ _
      rw [base64DecodedLen_encode hlength] at hdone ⊢
      rw [heof, decide_eq_false_iff_not, Nat.not_le] at hdone
      exact ⟨Nat.pos_of_ne_zero hdone.2, lt_of_lt_of_le hdone.1 hmax⟩

/-- The loop returns: each read moves the offset towards the largest size. -/
theorem downloadFrom_ends {fuel k offset : Nat} (hpos : 0 < fuel)
    (hfuel : maxFileBytes < offset + fuel) :
    ∃ responses, downloadFrom id view sendOk fuel k offset = some responses ∧
      responses.length ≤ fuel ∧ ((∀ k, sendOk k = true) → EndsOnce id responses) := by
  induction fuel generalizing k offset with
  | zero => exact absurd hpos (Nat.lt_irrefl 0)
  | succ fuel ih =>
    unfold downloadFrom
    split
    · refine ⟨_, rfl, Nat.succ_le_succ (Nat.zero_le _), fun _ => ?_⟩
      exact ⟨[], _, rfl, nofun, .inr (by simp [isFileError])⟩
    · rename_i dataB64 size eof hread
      dsimp only
      split
      · -- the last chunk, or nobody is there to take it
        rename_i hlast
        refine ⟨_, rfl, Nat.succ_le_succ (Nat.zero_le _), fun hsends => ?_⟩
        rw [hsends k] at hlast
        have hdone : (eof || decide (base64DecodedLen dataB64 = 0)) = true := by
          simpa using hlast
        exact ⟨[], _, rfl, nofun, .inl (by rw [isChunk, hdone]; simp)⟩
      · rename_i hmore
        have hdone : (eof || decide (base64DecodedLen dataB64 = 0)) = false := by
          rw [Bool.not_eq_true, Bool.or_eq_false_iff] at hmore
          exact hmore.2
        obtain ⟨hmoved, hbelow⟩ := offset_of_continued hread hdone
        obtain ⟨responses, hrest, hlength, hends⟩ :=
          @ih (k + 1) (offset + base64DecodedLen dataB64) (by omega) (by omega)
        rw [hrest]
        refine ⟨_, rfl, Nat.succ_le_succ hlength, fun hsends => ?_⟩
        exact (hends hsends).cons (by rw [isChunk, hdone]; simp)

def chunkData : LanResponse → Bytes
  | .fileChunk _ _ dataB64 _ =>
    match Base64.standard.decode dataB64 with
    | .ok raw => raw.bytes
    | .error _ => []
  | _ => []

theorem chunkData_encode {size : UInt64} {data : Bytes} (h : data.length ≤ fileChunkBytes) :
    chunkData (.fileChunk id size (Base64.standard.encode data) eof) = data := by
  have hfits : data.length < 2 ^ 32 := by
    unfold fileChunkBytes at h
    omega
  obtain ⟨raw, hraw, rfl⟩ := Base64.standard.decode_encode data hfits
  rw [chunkData, hraw]

/-- A read of a file that does not change. -/
theorem readShared_unchanged {offset : Nat} (hmax : content.length ≤ maxFileBytes)
    (hoffset : offset ≤ content.length) :
    readShared (.present content.length content) offset =
      .ok (Base64.standard.encode ((content.drop offset).take fileChunkBytes), content.length,
        decide (content.length ≤ offset + ((content.drop offset).take fileChunkBytes).length)) := by
  have hbounds : (maxFileBytes < content.length || content.length < offset) = false := by
    rw [Bool.or_eq_false_iff, decide_eq_false_iff_not, decide_eq_false_iff_not]
    exact ⟨Nat.not_lt.2 hmax, Nat.not_lt.2 hoffset⟩
  simp only [readShared, readSeen, hbounds, Bool.false_eq_true, if_false]

/-- A file that does not change arrives in chunks. -/
theorem downloadFrom_unchanged (hmax : content.length ≤ maxFileBytes) {fuel k offset : Nat}
    (hoffset : offset ≤ content.length) (hfuel : content.length < offset + fuel) :
    ∃ chunks last, downloadFrom id (fun _ => .present content.length content) (fun _ => true)
        fuel k offset = some (chunks ++ [last]) ∧ (∀ r ∈ chunks, isChunk id false r = true) ∧
      isChunk id true last = true ∧
        (chunks ++ [last]).flatMap chunkData = content.drop offset := by
  induction fuel generalizing k offset with
  | zero => omega
  | succ fuel ih =>
    have hlength : ((content.drop offset).take fileChunkBytes).length ≤ fileChunkBytes :=
      length_take_le _ _
    have hdata : ∀ size eof, chunkData (.fileChunk id size (Base64.standard.encode
        ((content.drop offset).take fileChunkBytes)) eof) =
          (content.drop offset).take fileChunkBytes :=
      fun size eof => chunkData_encode hlength
    have htaken : ((content.drop offset).take fileChunkBytes).length =
        min fileChunkBytes (content.length - offset) := by
      rw [length_take, length_drop]
    unfold downloadFrom
    rw [readShared_unchanged hmax hoffset]
    dsimp only
    rw [base64DecodedLen_encode hlength]
    by_cases hend : content.length ≤ offset + ((content.drop offset).take fileChunkBytes).length
    · -- the rest of the file fits into this chunk
      rw [decide_eq_true hend, Bool.true_or, Bool.or_true, if_pos rfl]
      refine ⟨[], _, rfl, nofun, by simp [isChunk], ?_⟩
      rw [nil_append, flatMap_singleton, hdata]
      apply take_of_length_le
      rw [length_drop]
      omega
    · have hread : ((content.drop offset).take fileChunkBytes).length ≠ 0 := by
        unfold fileChunkBytes at htaken ⊢
        omega
      rw [decide_eq_false hend, decide_eq_false hread]
      obtain ⟨chunks, last, hrest, hchunks, hlast, hflat⟩ :=
        @ih (k + 1) (offset + ((content.drop offset).take fileChunkBytes).length) (by omega)
          (by omega)
      rw [if_neg (by simp), hrest]
      refine ⟨_ :: chunks, last, rfl, ?_, hlast, ?_⟩
      · intro r hr
        rcases mem_cons.1 hr with rfl | hr
        · simp [isChunk]
        · exact hchunks r hr
      · have hfull : ((content.drop offset).take fileChunkBytes).length = fileChunkBytes := by
          omega
        rw [cons_append, flatMap_cons, hflat, hdata, ← drop_drop, hfull,
          take_append_drop]

end Ends

/-- A download of a file that does not change sends exactly the file, with the end marked in the
last chunk only. Whatever the reads meet, it returns after at most `maxFileBytes + 1` of them, and
unless its responses cannot be sent it ends with one last chunk or one error. The length that the
offset is computed from is that of the data. -/
theorem download_loop (id : UInt32) :
    (∀ content : Bytes, content.length ≤ maxFileBytes →
      ∃ chunks last,
        download id (fun _ => .present content.length content) (fun _ => true)
            (maxFileBytes + 1) = some (chunks ++ [last]) ∧
          (∀ r ∈ chunks, isChunk id false r = true) ∧ isChunk id true last = true ∧
            (chunks ++ [last]).flatMap chunkData = content) ∧
    (∀ view sendOk, ∃ responses,
      download id view sendOk (maxFileBytes + 1) = some responses ∧
        responses.length ≤ maxFileBytes + 1 ∧
          ((∀ k, sendOk k = true) → EndsOnce id responses)) ∧
    ∀ d : Bytes, decodedLen (utf8 (Base64.encodeChars d)) = d.length := by
  refine ⟨?_, ?_, decodedLen_encode⟩
  · intro content hmax
    exact downloadFrom_unchanged hmax (Nat.zero_le _) (by omega)
  · intro view sendOk
    exact downloadFrom_ends (Nat.succ_pos _) (by omega)

theorem download_loop_sample :
    ([1, 2, 3] : Bytes).length ≤ maxFileBytes ∧ ∃ chunks last,
      download 7 (fun _ => .present 3 [1, 2, 3]) (fun _ => true) (maxFileBytes + 1) =
          some (chunks ++ [last]) ∧
        (∀ r ∈ chunks, isChunk 7 false r = true) ∧ isChunk 7 true last = true ∧
          (chunks ++ [last]).flatMap chunkData = [1, 2, 3] :=
  ⟨by decide, (download_loop 7).1 [1, 2, 3] (by decide)⟩

/-- A file that shrinks between two looks at it: a chunk without data ends the download. -/
example : (download 7 (fun k => if k = 0 then .present 9 [1, 2, 3] else .present 9 [1, 2])
    (fun _ => true) 5).map (List.map (isChunk 7 true)) = some [false, true] := by
  decide +kernel

end RivetLink.Agent
