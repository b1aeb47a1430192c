import RivetLink.Foundation.Framing
import RivetLink.Sdk.MessageJson

/-!
# Frames of a direct connection

Before the channel stands, the two sides exchange handshake messages: `writeMsg` and `readMsg` put
their JSON form into frames. Afterwards `writeSealed` seals a plaintext and writes it as a frame,
`readSealed` reads a frame and opens it.

A writer takes every frame whose length fits four bytes, a reader only frames up to a limit. What
was written is read back, for every sequence of messages and however the stream is cut, as long as
every frame is within the limit of the reader; frames between the two bounds are written and then
refused (`frames_read_back`, `frames_over_limit_refused`).
-/

namespace RivetLink.Sdk

open List RivetLink.Foundation RivetLink.Crypto

def maxFrame : Nat := 16 * 1024

def maxSealedFrame : Nat := 32 * 1024 * 1024

/-- A read that meets the end of the stream. -/
def earlyEof : SdkError := .io "early eof"

/-! ## Handshake messages -/

def writeMsg (msg : Wire) : SdkResult Bytes :=
  if (Wire.json.toVec msg).length < 2 ^ 32 then .ok (frameBytes (Wire.json.toVec msg))
  else .error (.crypto "handshake frame too large")

/-- Reads a handshake message. The text of the JSON reader's error is left open. -/
def readMsg (jsonError : Bytes → String) (pieces : List Bytes) : SdkResult (Wire × List Bytes) :=
  match readFrame maxFrame pieces with
  | .error .eof => .error earlyEof
  | .error .tooLarge => .error (.crypto "handshake frame too large")
  | .ok (buf, pieces) =>
    match Wire.json.fromSlice buf with
    | none => .error (.serde (jsonError buf))
    | some msg => .ok (msg, pieces)

/-- The same functions with a state that stays the same. -/
def writeMsgStep (msg : Wire) (s : Unit) : SdkResult Bytes × Unit := (writeMsg msg, s)

def readMsgStep (jsonError : Bytes → String) (s : Unit) (pieces : List Bytes) :
    SdkResult (Wire × Unit × List Bytes) :=
  (readMsg jsonError pieces).map fun p => (p.1, s, p.2)

/-! ## Sealed messages -/

section Sealed

variable (A : Aead)

def writeSealed (plain : Bytes) (ch : SealedChannel) : SdkResult Bytes × SealedChannel :=
  match ch.seal A plain with
  | (.error e, ch) => (.error (.crypto e.text), ch)
  | (.ok sealed, ch) =>
    if sealed.length < 2 ^ 32 then (.ok (frameBytes sealed), ch)
    else (.error (.crypto "sealed frame too large"), ch)

def readSealed (ch : SealedChannel) (pieces : List Bytes) :
    SdkResult (Bytes × SealedChannel × List Bytes) :=
  match readFrame maxSealedFrame pieces with
  | .error .eof => .error earlyEof
  | .error .tooLarge => .error (.crypto "sealed frame too large")
  | .ok (buf, pieces) =>
    match ch.open A buf with
    | (.error _, _) => .error (.crypto "decrypt failed")
    | (.ok plain, ch) => .ok (plain, ch, pieces)

variable {A}

/-- The receiving end of a channel expects what the sending end seals next. -/
structure Expects (sender receiver : SealedChannel) : Prop where
  key : receiver.recvKey = sender.sendKey
  hash : receiver.bindingHash = sender.bindingHash
  sequence : receiver.nextRecv = sender.nextSend

variable {plain bytes rest : Bytes} {sender sender' receiver : SealedChannel} {pieces : List Bytes}

/-- A write that succeeds has sealed the plaintext under the next sequence number. -/
theorem writeSealed_eq_ok (h : writeSealed A plain sender = (.ok bytes, sender')) :
    ∃ sealed, sender.sealClaimed A sender.nextSend plain = .ok sealed ∧ sealed.length < 2 ^ 32 ∧
      sender.nextSend ≠ u64Max ∧ bytes = frameBytes sealed ∧
      sender' = { sender with nextSend := sender.nextSend + 1 } := by
  unfold writeSealed SealedChannel.seal at h
  split_ifs at h with hmax
  · cases h
  · cases hseal : sender.sealClaimed A sender.nextSend plain with
    | error e =>
      rw [hseal] at h
      cases h
    | ok sealed =>
      rw [hseal] at h
      dsimp only at h
      split_ifs at h with hlen
      · cases h
        exact ⟨sealed, rfl, hlen, hmax, rfl, rfl⟩
      · cases h

/-- A sealed message is its plaintext, a header and a tag. -/
theorem length_sealed {sealed : Bytes} {sequence : UInt64}
    (h : sender.sealClaimed A sequence plain = .ok sealed) :
    sealed.length = headerLen + (plain.length + tagLen) := by
  obtain ⟨ciphertext, henc, rfl⟩ := SealedChannel.sealClaimed_eq_ok.1 h
  rw [length_append, length_header, A.length_encrypt henc]
  rfl

/-- A sealed message within the limit is read back, and the receiver expects the next one. -/
theorem readSealed_writeSealed (hfit : headerLen + (plain.length + tagLen) ≤ maxSealedFrame)
    (hrel : Expects sender receiver) (hwrite : writeSealed A plain sender = (.ok bytes, sender'))
    (hflat : pieces.flatten = bytes ++ rest) :
    ∃ receiver' pieces', readSealed A receiver pieces = .ok (plain, receiver', pieces') ∧
      Expects sender' receiver' ∧ pieces'.flatten = rest := by
  obtain ⟨sealed, hseal, hlen, hmax, rfl, rfl⟩ := writeSealed_eq_ok hwrite
  rw [← length_sealed hseal] at hfit
  obtain ⟨pieces', hread, hrest⟩ := readFrame_frameBytes hflat hlen hfit
  have hopen := SealedChannel.open_sealClaimed hrel.key hrel.hash hrel.sequence hmax hseal
  refine ⟨{ receiver with nextRecv := sender.nextSend + 1 }, pieces', ?_,
    ⟨hrel.key, hrel.hash, rfl⟩, hrest⟩
  simp only [readSealed, hread, hopen]

/-- A sealed message over the limit is refused, although it was written. -/
theorem readSealed_tooLarge (hover : maxSealedFrame < headerLen + (plain.length + tagLen))
    (hwrite : writeSealed A plain sender = (.ok bytes, sender'))
    (hflat : pieces.flatten = bytes ++ rest) :
    readSealed A receiver pieces = .error (.crypto "sealed frame too large") := by
  obtain ⟨sealed, hseal, hlen, -, rfl, -⟩ := writeSealed_eq_ok hwrite
  rw [← length_sealed hseal] at hover
  simp only [readSealed, readFrame_tooLarge hflat hlen hover]

end Sealed

section Handshake

variable (jsonError : Bytes → String) {msg : Wire} {bytes rest : Bytes} {pieces : List Bytes}

theorem writeMsg_eq_ok (h : writeMsg msg = .ok bytes) :
    (Wire.json.toVec msg).length < 2 ^ 32 ∧ bytes = frameBytes (Wire.json.toVec msg) := by
  unfold writeMsg at h
  split_ifs at h with hlen
  cases h
  exact ⟨hlen, rfl⟩

theorem readMsg_writeMsg (hfit : (Wire.json.toVec msg).length ≤ maxFrame)
    (hwrite : writeMsg msg = .ok bytes) (hflat : pieces.flatten = bytes ++ rest) :
    ∃ pieces', readMsg jsonError pieces = .ok (msg, pieces') ∧ pieces'.flatten = rest := by
  obtain ⟨hlen, rfl⟩ := writeMsg_eq_ok hwrite
  obtain ⟨pieces', hread, hrest⟩ := readFrame_frameBytes hflat hlen hfit
  have hmsg := Wire.json.fromSlice_toVec (by decide) msg
  refine ⟨pieces', ?_, hrest⟩
  simp only [readMsg, hread, hmsg]

theorem readMsgStep_writeMsgStep {s s' t : Unit}
    (hfit : (Wire.json.toVec msg).length ≤ maxFrame) (_ : True)
    (hwrite : writeMsgStep msg s = (.ok bytes, s')) (hflat : pieces.flatten = bytes ++ rest) :
    ∃ t' pieces', readMsgStep jsonError t pieces = .ok (msg, t', pieces') ∧ True ∧
      pieces'.flatten = rest := by
  obtain ⟨pieces', hread, hrest⟩ :=
    readMsg_writeMsg jsonError hfit (congrArg Prod.fst hwrite) hflat
  refine ⟨t, pieces', ?_, trivial, hrest⟩
  simp only [readMsgStep, hread]
  rfl

theorem readMsg_tooLarge (hover : maxFrame < (Wire.json.toVec msg).length)
    (hwrite : writeMsg msg = .ok bytes) (hflat : pieces.flatten = bytes ++ rest) :
    readMsg jsonError pieces = .error (.crypto "handshake frame too large") := by
  obtain ⟨hlen, rfl⟩ := writeMsg_eq_ok hwrite
  simp only [readMsg, readFrame_tooLarge hflat hlen hover]

end Handshake

/-! ## Sequences of frames -/

/-- Plaintexts that were all written, to a receiver that expects the first of them: if none is over
the reader's limit, they are read back in order, however the stream is cut; otherwise the reader
fails. The same holds of handshake messages. -/
theorem frames_read_back (A : Aead) (jsonError : Bytes → String) :
    (∀ {plains : List Bytes} {sender sender' receiver : SealedChannel} {bytes : Bytes},
      writeAll (writeSealed A) plains sender = (.ok bytes, sender') → Expects sender receiver →
      ∀ pieces : List Bytes, pieces.flatten = bytes →
        ((∀ plain ∈ plains, headerLen + (plain.length + tagLen) ≤ maxSealedFrame) →
          ∃ receiver' pieces', readAll (readSealed A) plains.length receiver pieces =
            .ok (plains, receiver', pieces') ∧ pieces'.flatten = []) ∧
        ((∃ plain ∈ plains, ¬ headerLen + (plain.length + tagLen) ≤ maxSealedFrame) →
          readAll (readSealed A) plains.length receiver pieces =
            .error (.crypto "sealed frame too large"))) ∧
    (∀ {msgs : List Wire} {bytes : Bytes},
      writeAll writeMsgStep msgs () = (.ok bytes, ()) →
      ∀ pieces : List Bytes, pieces.flatten = bytes →
        ((∀ msg ∈ msgs, (Wire.json.toVec msg).length ≤ maxFrame) →
          ∃ pieces', readAll (readMsgStep jsonError) msgs.length () pieces =
            .ok (msgs, (), pieces') ∧ pieces'.flatten = []) ∧
        ((∃ msg ∈ msgs, ¬ (Wire.json.toVec msg).length ≤ maxFrame) →
          readAll (readMsgStep jsonError) msgs.length () pieces =
            .error (.crypto "handshake frame too large"))) := by
  constructor
  · intro plains sender sender' receiver bytes hwrite hrel pieces hflat
    rw [← append_nil bytes] at hflat
    constructor
    · intro hfits
      obtain ⟨receiver', pieces', hread, -, hrest⟩ :=
        readAll_writeAll Expects _ readSealed_writeSealed hfits hrel hwrite hflat
      exact ⟨receiver', pieces', hread, hrest⟩
    · intro hover
      exact readAll_refused Expects _ readSealed_writeSealed
        (fun h => readSealed_tooLarge (Nat.lt_of_not_le h)) hover hrel hwrite hflat
  · intro msgs bytes hwrite pieces hflat
    rw [← append_nil bytes] at hflat
    constructor
    · intro hfits
      obtain ⟨⟨⟩, pieces', hread, -, hrest⟩ := readAll_writeAll (fun _ _ => True) _
        (readMsgStep_writeMsgStep jsonError) hfits trivial hwrite hflat
      exact ⟨pieces', hread, hrest⟩
    · intro hover
      refine readAll_refused (fun _ _ => True) _ (readMsgStep_writeMsgStep jsonError) ?_ hover
        trivial hwrite hflat
      intro msg _ _ _ b rest pieces h hmsg hcut
      have hlt := Nat.lt_of_not_le h
      rw [readMsgStep, readMsg_tooLarge jsonError hlt (congrArg Prod.fst hmsg) hcut]
      rfl

/-- A channel that expects what it seals itself. -/
def sampleChannel : SealedChannel := ⟨padTo 32 [1], padTo 32 [1], padTo 32 [2], 0, 0⟩

theorem sampleChannel_expects : Expects sampleChannel sampleChannel := ⟨rfl, rfl, rfl⟩

/-- Any plaintext whose frame fits four bytes of length is written. -/
theorem writeSealed_sampleChannel (plain : Bytes)
    (h : headerLen + (plain.length + tagLen) < 2 ^ 32) :
    ∃ bytes, writeSealed Aead.transparent plain sampleChannel =
      (.ok bytes, { sampleChannel with nextSend := 1 }) := by
  obtain ⟨sealed, hseal⟩ : ∃ sealed,
      sampleChannel.sealClaimed Aead.transparent 0 plain = .ok sealed := ⟨_, rfl⟩
  have hnext : sampleChannel.nextSend = 0 := rfl
  have hmax : (0 : UInt64) ≠ u64Max := by decide
  rw [← length_sealed hseal] at h
  refine ⟨frameBytes sealed, ?_⟩
  simp only [writeSealed, SealedChannel.seal, hnext, if_neg hmax, hseal, if_pos h]
  rfl

def samplePlains : List Bytes := [[1], [], [2, 3]]

def sampleMsgs : List Wire :=
  [.pake 3 ⟨['m'], by decide⟩ none, .confirm ⟨['t', '\n'], by decide⟩, .reject "no"]

theorem frames_read_back_sample :
    (∃ bytes ch, writeAll (writeSealed Aead.transparent) samplePlains sampleChannel =
        (.ok bytes, ch) ∧
      ∀ pieces : List Bytes, pieces.flatten = bytes → ∃ receiver' pieces',
        readAll (readSealed Aead.transparent) samplePlains.length sampleChannel pieces =
          .ok (samplePlains, receiver', pieces') ∧ pieces'.flatten = []) ∧
    (∃ bytes, writeAll writeMsgStep sampleMsgs () = (.ok bytes, ()) ∧
      ∀ pieces : List Bytes, pieces.flatten = bytes → ∃ pieces',
        readAll (readMsgStep fun _ => "") sampleMsgs.length () pieces =
          .ok (sampleMsgs, (), pieces') ∧ pieces'.flatten = []) := by
  constructor
  · refine ⟨_, _, rfl, ?_⟩
    intro pieces hflat
    exact ((frames_read_back Aead.transparent fun _ => "").1 rfl sampleChannel_expects pieces
      hflat).1 (by decide)
  · refine ⟨_, rfl, ?_⟩
    intro pieces hflat
    exact ((frames_read_back Aead.transparent fun _ => "").2 rfl pieces hflat).1 (by decide +kernel)

def longReject : Wire := .reject (String.ofList (List.replicate (16 * 1024) 'x'))

/-- Its JSON form is the reason between a fixed start and a fixed end. -/
theorem toVec_reject (cs : List Char) : Wire.json.toVec (.reject (String.ofList cs)) =
    literal "\x7b\"t\":\"Reject\",\"reason\":\"" ++ utf8 (cs.flatMap Json.escapeChar) ++
      literal "\"\x7d" := by
  have hreason : JsonCodec.string.toJson (String.ofList cs) = .str cs :=
    congrArg Json.str String.toList_ofList
  have htext : Json.render .compact 0 (Wire.json.toJson (.reject (String.ofList cs))) =
      "\x7b\"t\":\"Reject\",\"reason\":\"".toList ++ cs.flatMap Json.escapeChar ++
        "\"\x7d".toList := by
    have hstart : "\x7b\"t\":\"Reject\",\"reason\":\"".toList =
        '\x7b' :: Json.quote "t".toList ++ ':' :: Json.quote "Reject".toList ++
          ',' :: Json.quote "reason".toList ++ [':', '"'] := by decide
    rw [hstart]
    simp [TaggedUnion.toJson, Wire.json, Wire.tag, Wire.members, hreason, Json.render,
      Json.renderMembers, Json.Layout.compact, Json.quote]
  unfold TaggedUnion.toVec Json.toVec literal
  rw [htext]
  simp only [utf8, List.flatMap_append]

theorem length_longReject : (Wire.json.toVec longReject).length = 24 + 16 * 1024 + 2 := by
  have hplain : ∀ n, (List.replicate n 'x').flatMap Json.escapeChar = List.replicate n 'x' := by
    intro n
    induction n with
    | zero => rfl
    | succ n ih =>
      rw [List.replicate_succ, List.flatMap_cons, ih]
      rfl
  have hbytes : ∀ n, (utf8 (List.replicate n 'x')).length = n := by
    intro n
    induction n with
    | zero => rfl
    | succ n ih =>
      have hone : (String.utf8EncodeChar 'x').length = 1 := by decide
      rw [utf8] at ih ⊢
      rw [List.replicate_succ, List.flatMap_cons, List.length_append, ih, hone, Nat.add_comm]
  have hstart : (literal "\x7b\"t\":\"Reject\",\"reason\":\"").length = 24 := by decide
  have hend : (literal "\"\x7d").length = 2 := by decide
  unfold longReject
  rw [toVec_reject, hplain, length_append, length_append, hstart, hend, hbytes]

/-- A plaintext of 32 MiB is sealed and written, and the reader refuses the frame; a handshake
message of more than 16 KiB is written, and the reader refuses it. -/
theorem frames_over_limit_refused :
    (∃ bytes ch, writeSealed Aead.transparent (List.replicate (32 * 1024 * 1024) 0) sampleChannel =
        (.ok bytes, ch) ∧
      ∀ pieces : List Bytes, pieces.flatten = bytes →
        readSealed Aead.transparent sampleChannel pieces =
          .error (.crypto "sealed frame too large")) ∧
    (∃ bytes, writeMsg longReject = .ok bytes ∧
      ∀ (jsonError : Bytes → String) (pieces : List Bytes), pieces.flatten = bytes →
        readMsg jsonError pieces = .error (.crypto "handshake frame too large")) := by
  constructor
  · have hlen : (List.replicate (32 * 1024 * 1024) (0 : UInt8)).length = 32 * 1024 * 1024 :=
      length_replicate
    obtain ⟨bytes, hwrite⟩ := writeSealed_sampleChannel
      (List.replicate (32 * 1024 * 1024) 0) (by rw [hlen]; decide)
    refine ⟨bytes, _, hwrite, fun pieces hflat => ?_⟩
    rw [← append_nil bytes] at hflat
    exact readSealed_tooLarge (by rw [hlen]; decide) hwrite hflat
  · have hwrite : writeMsg longReject = .ok (frameBytes (Wire.json.toVec longReject)) := by
      unfold writeMsg
      rw [if_pos (by rw [length_longReject]; decide)]
    refine ⟨_, hwrite, fun jsonError pieces hflat => ?_⟩
    rw [← append_nil (frameBytes _)] at hflat
    exact readMsg_tooLarge jsonError (by rw [length_longReject]; decide) hwrite hflat

end RivetLink.Sdk
