import RivetLink.Protocol.Packets
import RivetLink.Sdk.MessageJson

/-!
# JSON form of signalling packets

`SignalPacket.json` writes a packet as a JSON object with its name under `"type"`; ids are written
in the hyphenated form of UUIDs and read in any of the forms that UUIDs have. It is a `PacketCodec`,
so what is proved for every way to write packets as texts holds for the texts that are sent.

The main result covers all four message types: a message is read back as it was written, and a
message of an older peer, which leaves out optional fields, is read as the message with the defaults
of those fields.
-/

namespace RivetLink.Protocol

open List RivetLink.Foundation RivetLink.Sdk
open Option hiding sequence

/-! ## UUIDs -/

def hexPairs : List Char → Option Bytes
  | [] => some []
  | [_] => none
  | a :: b :: rest => do
      let high ← Json.hexValue a
      let low ← Json.hexValue b
      let bytes ← hexPairs rest
      some (UInt8.ofNat (high * 16 + low) :: bytes)

/-- 32 digits. -/
def Uuid.parseSimple (cs : List Char) : Option Uuid := (hexPairs cs).bind Uuid.fromSlice

/-- Groups of digits with hyphens between them. -/
def Uuid.parseHyphenated (cs : List Char) : Option Uuid :=
  if cs[8]? = some '-' ∧ cs[13]? = some '-' ∧ cs[18]? = some '-' ∧ cs[23]? = some '-' then
    Uuid.parseSimple (cs.take 8 ++ (cs.drop 9).take 4 ++ (cs.drop 14).take 4 ++
      (cs.drop 19).take 4 ++ cs.drop 24)
  else none

/-- A UUID: 32 digits, or the hyphenated form, which may stand in braces or behind `urn:uuid:`. -/
def Uuid.parse (cs : List Char) : Option Uuid :=
  if cs.length = 32 then Uuid.parseSimple cs
  else if cs.length = 36 then Uuid.parseHyphenated cs
  else if cs.length = 38 ∧ cs.head? = some '\x7b' ∧ cs.getLast? = some '\x7d' then
    Uuid.parseHyphenated (cs.tail.take 36)
  else if cs.length = 45 ∧ cs.take 9 = "urn:uuid:".toList then Uuid.parseHyphenated (cs.drop 9)
  else none

theorem hexPairs_flatMap (bs : Bytes) : hexPairs (bs.flatMap hexByte) = some bs := by
  induction bs with
  | nil => rfl
  | cons b bs ih =>
    have hlt := b.toNat_lt
    have hhigh := Json.hexValue_hexDigit (n := b.toNat / 16) (by omega)
    have hlow := Json.hexValue_hexDigit (n := b.toNat % 16) (by omega)
    have hbyte : UInt8.ofNat (b.toNat / 16 * 16 + b.toNat % 16) = b := by
      rw [Nat.div_add_mod', UInt8.ofNat_toNat]
    have hdigits : hexByte b = [Json.hexDigit (b.toNat / 16), Json.hexDigit (b.toNat % 16)] := rfl
    simp only [flatMap_cons, hdigits, cons_append, nil_append, hexPairs, hhigh,
      hlow, ih, bind_eq_bind, bind_some, hbyte]

theorem length_flatMap_hexByte (bs : Bytes) : (bs.flatMap hexByte).length = 2 * bs.length := by
  induction bs with
  | nil => rfl
  | cons b bs ih =>
    simp only [flatMap_cons, length_append, length_cons, ih, hexByte,
      length_nil]
    omega

/-- The groups of a hyphenated text. -/
theorem Uuid.parseHyphenated_groups {a b c d e : List Char} (ha : a.length = 8)
    (hb : b.length = 4) (hc : c.length = 4) (hd : d.length = 4) :
    Uuid.parseHyphenated (a ++ '-' :: b ++ '-' :: c ++ '-' :: d ++ '-' :: e) =
      Uuid.parseSimple (a ++ b ++ c ++ d ++ e) := by
  have hall : ∀ {cs : List Char} {n : Nat}, cs.length ≤ n → cs.take n = cs :=
    take_of_length_le
  have hrest : ∀ {cs : List Char} {n : Nat}, cs.length ≤ n → cs.drop n = [] :=
    drop_eq_nil_of_le
  unfold Uuid.parseHyphenated
  rw [if_pos (by simp [getElem?_append, ha, hb, hc, hd])]
  refine congrArg Uuid.parseSimple ?_
  simp only [take_append, drop_append, length_append, length_cons, ha, hb, hc,
    hd]
  simp (disch := omega) [hall, hrest]

theorem Uuid.parse_hyphenated (u : Uuid) : Uuid.parse (Uuid.hyphenated u) = some u := by
  have hsize := u.size_eq
  have hbytes : u.bytes.take 4 ++ (u.bytes.drop 4).take 2 ++ (u.bytes.drop 6).take 2 ++
      (u.bytes.drop 8).take 2 ++ u.bytes.drop 10 = u.bytes := by
    have h10 := take_append_drop 2 (u.bytes.drop 8)
    have h8 := take_append_drop 2 (u.bytes.drop 6)
    have h6 := take_append_drop 2 (u.bytes.drop 4)
    rw [drop_drop] at h10 h8 h6
    simp only [append_assoc]
    rw [h10, h8, h6, take_append_drop]
  have hgroup : ∀ i n, i + n ≤ 16 →
      (((u.bytes.drop i).take n).flatMap hexByte).length = 2 * n := by
    intro i n hn
    rw [length_flatMap_hexByte, length_take, length_drop, hsize]
    omega
  have hlen : (Uuid.hyphenated u).length = 36 := by
    simp only [Uuid.hyphenated, length_append, length_cons, length_flatMap_hexByte,
      length_take, length_drop, hsize]
    decide
  have hfirst := hgroup 0 4 (by decide)
  rw [drop_zero] at hfirst
  unfold Uuid.parse
  rw [if_neg (by omega), if_pos hlen, Uuid.hyphenated,
    Uuid.parseHyphenated_groups hfirst (hgroup 4 2 (by decide))
      (hgroup 6 2 (by decide)) (hgroup 8 2 (by decide))]
  simp only [← flatMap_append, hbytes, Uuid.parseSimple, hexPairs_flatMap, bind_some]
  exact dif_pos hsize

def uuid : JsonCodec Uuid 0 := .text Uuid.hyphenated Uuid.parse Uuid.parse_hyphenated

def optionalUuid : JsonCodec (Option Uuid) 0 := uuid.nullable nofun

/-! ## Packets -/

def SessionCapability.name : SessionCapability → String
  | .screenshot => "screenshot"
  | .consoleControl => "console_control"

def SessionCapability.codec : JsonCodec SessionCapability 0 :=
  .names [.screenshot, .consoleControl] SessionCapability.name fun a => by cases a <;> decide

def SessionRole.name : SessionRole → String
  | .viewer => "viewer"
  | .controller => "controller"
  | .admin => "admin"

def SessionRole.codec : JsonCodec SessionRole 0 :=
  .names [.viewer, .controller, .admin] SessionRole.name fun a => by cases a <;> decide

namespace SignalPacket

def tag : SignalPacket → String
  | .sessionRequest _ _ _ _ _ => "SESSION_REQUEST"
  | .authChallenge _ _ => "AUTH_CHALLENGE"
  | .authResponse _ _ => "AUTH_RESPONSE"
  | .sessionAccepted _ _ => "SESSION_ACCEPTED"
  | .sessionRejected _ _ => "SESSION_REJECTED"
  | .iceCandidate _ _ => "ICE_CANDIDATE"
  | .sessionKeyExchange _ _ _ _ => "SESSION_KEY_EXCHANGE"
  | .screenshotRequest _ => "SCREENSHOT_REQUEST"
  | .screenshotData _ _ _ _ _ => "SCREENSHOT_DATA"
  | .hostConsoleState _ _ _ => "HOST_CONSOLE_STATE"
  | .consoleInput _ _ => "CONSOLE_INPUT"
  | .heartbeat => "HEARTBEAT"
  | .sessionClosed _ => "SESSION_CLOSED"

def members : SignalPacket → Members
  | .sessionRequest deviceId clientPublicKey protocolVersion requestedCapability sessionId =>
    [("device_id", uuid.toJson deviceId),
      ("client_public_key", JsonCodec.str.toJson clientPublicKey),
      ("protocol_version", JsonCodec.u16.toJson protocolVersion),
      ("requested_capability", SessionCapability.codec.toJson requestedCapability),
      ("session_id", optionalUuid.toJson sessionId)]
  | .authChallenge sessionId nonce =>
    [("session_id", uuid.toJson sessionId), ("nonce", JsonCodec.str.toJson nonce)]
  | .authResponse sessionId signature =>
    [("session_id", uuid.toJson sessionId), ("signature", JsonCodec.str.toJson signature)]
  | .sessionAccepted sessionId role =>
    [("session_id", uuid.toJson sessionId), ("role", SessionRole.codec.toJson role)]
  | .sessionRejected sessionId reason =>
    [("session_id", uuid.toJson sessionId), ("reason", JsonCodec.string.toJson reason)]
  | .iceCandidate sessionId candidate =>
    [("session_id", uuid.toJson sessionId), ("candidate", JsonCodec.str.toJson candidate)]
  | .sessionKeyExchange sessionId ephemeralPublicKey identityPublicKey signature =>
    [("session_id", uuid.toJson sessionId),
      ("ephemeral_public_key", JsonCodec.str.toJson ephemeralPublicKey),
      ("identity_public_key", JsonCodec.str.toJson identityPublicKey),
      ("signature", JsonCodec.str.toJson signature)]
  | .screenshotRequest sessionId => [("session_id", uuid.toJson sessionId)]
  | .screenshotData sessionId sequence total last payload =>
    [("session_id", uuid.toJson sessionId), ("sequence", JsonCodec.u32.toJson sequence),
      ("total", JsonCodec.u32.toJson total), ("last", JsonCodec.bool.toJson last),
      ("payload", JsonCodec.str.toJson payload)]
  | .hostConsoleState sessionId state generation =>
    [("session_id", uuid.toJson sessionId), ("state", HostConsoleState.codec.toJson state),
      ("generation", JsonCodec.u64.toJson generation)]
  | .consoleInput sessionId payload =>
    [("session_id", uuid.toJson sessionId), ("payload", JsonCodec.str.toJson payload)]
  | .heartbeat => []
  | .sessionClosed sessionId => [("session_id", uuid.toJson sessionId)]

def ofMembers (tag : String) (ms : Members) : Option SignalPacket :=
  match tag with
  | "SESSION_REQUEST" => do
      let deviceId ← required uuid ms "device_id"
      let clientPublicKey ← required .str ms "client_public_key"
      let protocolVersion ← required .u16 ms "protocol_version"
      let requestedCapability ←
        defaulted SessionCapability.codec .screenshot ms "requested_capability"
      let sessionId ← defaulted optionalUuid none ms "session_id"
      some (.sessionRequest deviceId clientPublicKey protocolVersion requestedCapability sessionId)
  | "AUTH_CHALLENGE" => do
      let sessionId ← required uuid ms "session_id"
      let nonce ← required .str ms "nonce"
      some (.authChallenge sessionId nonce)
  | "AUTH_RESPONSE" => do
      let sessionId ← required uuid ms "session_id"
      let signature ← required .str ms "signature"
      some (.authResponse sessionId signature)
  | "SESSION_ACCEPTED" => do
      let sessionId ← required uuid ms "session_id"
      let role ← required SessionRole.codec ms "role"
      some (.sessionAccepted sessionId role)
  | "SESSION_REJECTED" => do
      let sessionId ← required uuid ms "session_id"
      let reason ← required .string ms "reason"
      some (.sessionRejected sessionId reason)
  | "ICE_CANDIDATE" => do
      let sessionId ← required uuid ms "session_id"
      let candidate ← required .str ms "candidate"
      some (.iceCandidate sessionId candidate)
  | "SESSION_KEY_EXCHANGE" => do
      let sessionId ← required uuid ms "session_id"
      let ephemeralPublicKey ← required .str ms "ephemeral_public_key"
      let identityPublicKey ← required .str ms "identity_public_key"
      let signature ← required .str ms "signature"
      some (.sessionKeyExchange sessionId ephemeralPublicKey identityPublicKey signature)
  | "SCREENSHOT_REQUEST" => do
      let sessionId ← required uuid ms "session_id"
      some (.screenshotRequest sessionId)
  | "SCREENSHOT_DATA" => do
      let sessionId ← required uuid ms "session_id"
      let sequence ← required .u32 ms "sequence"
      let total ← required .u32 ms "total"
      let last ← required .bool ms "last"
      let payload ← required .str ms "payload"
      some (.screenshotData sessionId sequence total last payload)
  | "HOST_CONSOLE_STATE" => do
      let sessionId ← required uuid ms "session_id"
      let state ← required HostConsoleState.codec ms "state"
      let generation ← required .u64 ms "generation"
      some (.hostConsoleState sessionId state generation)
  | "CONSOLE_INPUT" => do
      let sessionId ← required uuid ms "session_id"
      let payload ← required .str ms "payload"
      some (.consoleInput sessionId payload)
  | "HEARTBEAT" => some .heartbeat
  | "SESSION_CLOSED" => do
      let sessionId ← required uuid ms "session_id"
      some (.sessionClosed sessionId)
  | _ => none

def optionalKeys : SignalPacket → List String
  | .sessionRequest _ _ _ _ _ => ["requested_capability", "session_id"]
  | _ => []

def reset (drop : String → Bool) : SignalPacket → SignalPacket
  | .sessionRequest deviceId clientPublicKey protocolVersion requestedCapability sessionId =>
    .sessionRequest deviceId clientPublicKey protocolVersion
      (if drop "requested_capability" then .screenshot else requestedCapability)
      (if drop "session_id" then none else sessionId)
  | p => p

def json : TaggedUnion SignalPacket 0 where
  tagKey := "type"
  tag := tag
  members := members
  ofMembers := ofMembers
  optionalKeys := optionalKeys
  reset := reset
  tagKey_notMem := by
    intro p
    cases p <;> simp [members]
  tagKey_required := by
    intro p
    cases p <;> simp [optionalKeys]
  fits := by
    intro p
    cases p <;> simp [members, JsonCodec.fits]
  reset_none := by
    intro p
    cases p <;> simp [reset]
  ofMembers_without := by
    intro drop p
    cases p with
    | sessionRequest deviceId clientPublicKey protocolVersion requestedCapability sessionId =>
      simp only [tag, ofMembers, optionalKeys, reset]
      rw [required_without (a := deviceId) rfl (by simp [members]),
        required_without (a := clientPublicKey) rfl (by simp [members]),
        required_without (a := protocolVersion) rfl (by simp [members]),
        defaulted_without (a := requestedCapability) rfl
          (defaulted_of_occurrences (by simp [members])),
        defaulted_without (a := sessionId) rfl (defaulted_of_occurrences (by simp [members]))]
      rfl
    | _ => simp [tag, ofMembers, optionalKeys, members, required, reset]

end SignalPacket

/-- Packets as the JSON texts that are sent. -/
def PacketCodec.json : PacketCodec (List Char) where
  parse := SignalPacket.json.fromStr
  render := SignalPacket.json.toString
  parse_render := SignalPacket.json.fromStr_toString (by decide)

example : SignalPacket.json.toString .heartbeat = "\x7b\"type\":\"HEARTBEAT\"\x7d".toList := by
  decide +kernel

/-- Every message is read back as it was written, and a message without some of its optional fields
is read as the message with the defaults of exactly those fields. -/
theorem messages_round_trip :
    ((∀ w : Wire, Wire.json.fromSlice (Wire.json.toVec w) = some w) ∧
      (∀ r : LanRequest, LanRequest.json.fromSlice (LanRequest.json.toVec r) = some r) ∧
      (∀ r : LanResponse, LanResponse.json.fromSlice (LanResponse.json.toVec r) = some r) ∧
      (∀ p : SignalPacket, SignalPacket.json.fromStr (SignalPacket.json.toString p) = some p)) ∧
    ∀ drop : String → Bool,
      (∀ w, Wire.json.fromSlice (Wire.json.toJsonWithout drop w).toVec = some (w.reset drop)) ∧
      (∀ r, LanRequest.json.fromSlice (LanRequest.json.toJsonWithout drop r).toVec =
        some (r.reset drop)) ∧
      (∀ r, LanResponse.json.fromSlice (LanResponse.json.toJsonWithout drop r).toVec =
        some (r.reset drop)) ∧
      (∀ p, SignalPacket.json.fromStr
        (Json.render .compact 0 (SignalPacket.json.toJsonWithout drop p)) =
          some (p.reset drop)) := by
  refine ⟨⟨?_, ?_, ?_, ?_⟩, fun drop => ⟨?_, ?_, ?_, ?_⟩⟩
  · exact Wire.json.fromSlice_toVec (by decide)
  · exact LanRequest.json.fromSlice_toVec (by decide)
  · exact LanResponse.json.fromSlice_toVec (by decide)
  · exact SignalPacket.json.fromStr_toString (by decide)
  · exact Wire.json.fromSlice_toJsonWithout (by decide) drop
  · exact LanRequest.json.fromSlice_toJsonWithout (by decide) drop
  · exact LanResponse.json.fromSlice_toJsonWithout (by decide) drop
  · exact SignalPacket.json.fromStr_toJsonWithout (by decide) drop

end RivetLink.Protocol
