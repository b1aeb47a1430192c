import RivetLink.Sdk.LanMessages

/-!
# Packets between clients, hosts and the relay

`SignalPacket` is what clients and hosts say to each other through the relay, and what the relay
says to them. Its text form is JSON; a `PacketCodec` is a way to write packets as texts and to read
texts as packets such that a packet that was written is read back. Texts that no packet was written
as may be read or refused.

A tunnel frame is binary: the session id and a payload.
-/

namespace RivetLink.Protocol

open RivetLink.Foundation RivetLink.Sdk

/-- The version of a session request that asks for a tunnel. -/
def relayTunnelVersion : UInt16 := 3

/-- The largest payload of a tunnel frame. -/
def maxTunnelPayload : Nat := 64 * 1024

def sessionIdLen : Nat := 16

inductive SessionCapability where
  | screenshot
  | consoleControl
  deriving DecidableEq, Repr

inductive SessionRole where
  | viewer
  | controller
  | admin
  deriving DecidableEq, Repr

inductive SignalPacket where
  | sessionRequest (deviceId : Uuid) (clientPublicKey : Str) (protocolVersion : UInt16)
      (requestedCapability : SessionCapability) (sessionId : Option Uuid)
  | authChallenge (sessionId : Uuid) (nonce : Str)
  | authResponse (sessionId : Uuid) (signature : Str)
  | sessionAccepted (sessionId : Uuid) (role : SessionRole)
  | sessionRejected (sessionId : Uuid) (reason : String)
  | iceCandidate (sessionId : Uuid) (candidate : Str)
  | sessionKeyExchange (sessionId : Uuid) (ephemeralPublicKey identityPublicKey signature : Str)
  | screenshotRequest (sessionId : Uuid)
  | screenshotData (sessionId : Uuid) (sequence total : UInt32) (last : Bool) (payload : Str)
  | hostConsoleState (sessionId : Uuid) (state : HostConsoleState) (generation : UInt64)
  | consoleInput (sessionId : Uuid) (payload : Str)
  | heartbeat
  | sessionClosed (sessionId : Uuid)
  deriving DecidableEq

def SignalPacket.endsSession (p : SignalPacket) (id : Uuid) : Bool :=
  match p with
  | .sessionRejected id' _ => id' = id
  | .sessionClosed id' => id' = id
  | _ => false

/-- The session in which the relay passes a packet on. -/
def SignalPacket.member : SignalPacket → Option Uuid
  | .sessionRequest _ _ _ _ _ | .heartbeat => none
  | .authChallenge id _ | .authResponse id _ | .sessionAccepted id _ | .sessionRejected id _
  | .iceCandidate id _ | .sessionKeyExchange id _ _ _ | .screenshotRequest id
  | .screenshotData id _ _ _ _ | .hostConsoleState id _ _ | .consoleInput id _
  | .sessionClosed id => some id

structure PacketCodec (τ : Type) where
  parse : τ → Option SignalPacket
  render : SignalPacket → τ
  parse_render : ∀ p, parse (render p) = some p

/-- Every text is a packet. -/
def PacketCodec.plain : PacketCodec SignalPacket := ⟨some, id, fun _ => rfl⟩

inductive WsMessage (τ : Type) where
  | text (t : τ)
  | binary (frame : Bytes)
  deriving DecidableEq

def WsMessage.isText {τ : Type} : WsMessage τ → Bool
  | .text _ => true
  | .binary _ => false

/-- The id of the session that a message asks for, and whether it asks for a tunnel. -/
def WsMessage.request {τ : Type} (C : PacketCodec τ) : WsMessage τ → Option (Uuid × Bool)
  | .text t =>
    match C.parse t with
    | some (.sessionRequest _ _ version _ (some id)) => some (id, version = relayTunnelVersion)
    | _ => none
  | .binary _ => none

/-- A byte string of the length of a UUID as a UUID. -/
def Uuid.fromSlice (b : Bytes) : Option Uuid :=
  if h : b.length = 16 then some ⟨b, h⟩ else none

end RivetLink.Protocol
