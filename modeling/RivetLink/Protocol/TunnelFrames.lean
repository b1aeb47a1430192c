import RivetLink.Protocol.Packets
import Mathlib.Data.List.Infix

/-!
# Tunnel frames

A tunnel frame is the id of the session and a payload. The ends of a tunnel build frames with
`tunnelFrame`, the relay checks their size and reads the id, and the host takes them apart with
`splitTunnelFrame`. `payloads id l` are the payloads of the frames of one session among messages.
-/

namespace RivetLink.Protocol

open List Option RivetLink.Foundation

variable {τ : Type}

def tunnelFrame (id : Uuid) (payload : Bytes) : Bytes := id.bytes ++ payload

def splitTunnelFrame (frame : Bytes) : Option (Uuid × Bytes) :=
  if frame.length ≤ 16 then none
  else (Uuid.fromSlice (frame.take 16)).map fun id => (id, frame.drop 16)

/-- The relay forwards a frame of this size. -/
def tunnelSized (frame : Bytes) : Bool :=
  sessionIdLen < frame.length && frame.length ≤ sessionIdLen + maxTunnelPayload

/-- The frame is of a size that the relay forwards, and carries the id of the session. -/
def Tags (id : Uuid) (frame : Bytes) : Prop := tunnelSized frame = true ∧ frame.take 16 = id.bytes

instance (id : Uuid) (frame : Bytes) : Decidable (Tags id frame) := by
  unfold Tags
  infer_instance

/-- The payload of a message that is a frame of the session. -/
def WsMessage.payload (id : Uuid) : WsMessage τ → Option Bytes
  | .text _ => none
  | .binary frame => if Tags id frame then some (frame.drop 16) else none

def payloads (id : Uuid) (l : List (WsMessage τ)) : List Bytes := l.filterMap (·.payload id)

variable {id id' : Uuid} {payload frame : Bytes} {l : List (WsMessage τ)}

theorem tunnelSized_iff :
    tunnelSized frame = true ↔ 16 < frame.length ∧ frame.length ≤ 16 + maxTunnelPayload := by
  rw [tunnelSized, Bool.and_eq_true, decide_eq_true_eq, decide_eq_true_eq, sessionIdLen]

theorem tags_tunnelFrame (h : payload ≠ []) (hmax : payload.length ≤ maxTunnelPayload) :
    Tags id (tunnelFrame id payload) := by
  have hpos : 0 < payload.length := length_pos_iff.2 h
  refine ⟨?_, ?_⟩
  · rw [tunnelSized_iff, tunnelFrame, length_append, id.size_eq]
    omega
  · rw [tunnelFrame, take_append_of_le_length id.size_eq.ge, take_of_length_le id.size_eq.le]

theorem drop_tunnelFrame : (tunnelFrame id payload).drop 16 = payload := by
  rw [tunnelFrame, drop_append_of_le_length id.size_eq.ge, drop_of_length_le id.size_eq.le,
    nil_append]

theorem Tags.eq (h : Tags id frame) (h' : Tags id' frame) : id = id' :=
  FixedBytes.ext (h.2.symm.trans h'.2)

theorem fromSlice_bytes (id : Uuid) : Uuid.fromSlice id.bytes = some id := by
  simp [Uuid.fromSlice, id.size_eq]

theorem fromSlice_eq_some {b : Bytes} (h : Uuid.fromSlice b = some id) : b = id.bytes := by
  unfold Uuid.fromSlice at h
  split at h <;> cases h
  rfl

/-- What the relay forwards, the host takes apart. -/
theorem Tags.split (h : Tags id frame) : splitTunnelFrame frame = some (id, frame.drop 16) := by
  have hlen : ¬ frame.length ≤ 16 := Nat.not_le.2 (tunnelSized_iff.1 h.1).1
  rw [splitTunnelFrame, if_neg hlen, h.2, fromSlice_bytes, map_some]

theorem tags_of_split (hsized : tunnelSized frame = true)
    (h : splitTunnelFrame frame = some (id, payload)) :
    Tags id frame ∧ payload = frame.drop 16 := by
  obtain ⟨-, h⟩ := ite_none_left_eq_some.1 h
  obtain ⟨id', hid, heq⟩ := map_eq_some_iff.1 h
  cases heq
  exact ⟨⟨hsized, fromSlice_eq_some hid⟩, rfl⟩

theorem Tags.payload_eq (h : Tags id frame) (id' : Uuid) :
    (WsMessage.binary frame : WsMessage τ).payload id' =
      if id' = id then some (frame.drop 16) else none := by
  by_cases hid : id' = id
  · subst hid
    rw [if_pos rfl]
    exact if_pos h
  · rw [if_neg hid]
    exact if_neg fun h' => hid (h'.eq h)

@[simp] theorem payloads_append (l m : List (WsMessage τ)) :
    payloads id (l ++ m) = payloads id l ++ payloads id m :=
  filterMap_append

@[simp] theorem payloads_text (t : τ) : payloads id [WsMessage.text t] = [] := rfl

theorem Tags.payloads_eq (h : Tags id frame) (id' : Uuid) :
    payloads id' [(WsMessage.binary frame : WsMessage τ)] =
      if id' = id then [frame.drop 16] else [] := by
  rw [payloads, filterMap_cons, h.payload_eq id']
  by_cases hid : id' = id
  · simp [hid]
  · simp [hid]

theorem payloads_eq_nil (h : ∀ frame, WsMessage.binary frame ∈ l → ¬ Tags id frame) :
    payloads id l = [] := by
  refine filterMap_eq_nil_iff.2 fun m hm => ?_
  cases m with
  | text t => rfl
  | binary frame => exact if_neg (h frame hm)

theorem payloads_isPrefix (id : Uuid) {m : List (WsMessage τ)} (h : l <+: m) :
    payloads id l <+: payloads id m := by
  obtain ⟨r, rfl⟩ := h
  rw [payloads_append]
  exact prefix_append _ _

/-- A frame with this payload is among the messages. -/
theorem mem_payloads (h : payload ∈ payloads id l) :
    ∃ frame, WsMessage.binary frame ∈ l ∧ Tags id frame ∧ payload = frame.drop 16 := by
  obtain ⟨m, hm, hpayload⟩ := mem_filterMap.1 h
  cases m with
  | text t => cases hpayload
  | binary frame =>
    obtain ⟨htags, ⟨⟩⟩ := ite_none_right_eq_some.1 hpayload
    exact ⟨frame, hm, htags, rfl⟩

end RivetLink.Protocol
