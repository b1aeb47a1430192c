import RivetLink.Sdk.TunnelPump

/-!
# The client's end of a relay tunnel

`start_session` asks the relay for a tunnel session and reads text frames until the host has
accepted or rejected it; binary frames that arrive meanwhile are skipped. Then `pump` moves bytes
between the caller's stream and the WebSocket. Authentication, pings and the timeouts that only
delay are left out; a timeout that ends the attempt is `giveUp`.

`heard` records the messages that were read from the socket, `since` how many of them were read
before the tunnel was open.
-/

namespace RivetLink.Sdk

open List Option RivetLink.Foundation RivetLink.Protocol

variable {τ : Type}

/-- The capacity of the queue between the pump and the WebSocket. -/
def clientQueue : Nat := 64

structure TunnelClient (τ : Type) where
  /-- `start_session` waits for the answer of the host. -/
  opening : Bool := true
  tunnel : Option Uuid := none
  pump : Pump := {}
  box : Outbox τ := {}
  heard : List (WsMessage τ) := []
  since : Nat := 0

/-- The steps of a client, but for those that read from the socket. -/
inductive ClientAction where
  | pump (a : PumpAction)
  -- `upstream`
  | send
  | eof
  -- the direct path
  | offer (candidate : Str)
  -- the task that writes to the socket
  | flush
  | fail
  | giveUp

namespace TunnelClient

variable (C : PacketCodec τ)

def new (deviceId : Uuid) (clientPublicKey : Str) (capability : SessionCapability) :
    TunnelClient τ where
  box :=
    let request := WsMessage.text (C.render
      (.sessionRequest deviceId clientPublicKey relayTunnelVersion capability none))
    { queued := [request], sent := [request] }

def queue (c : TunnelClient τ) (m : WsMessage τ) : TunnelClient τ := { c with box := c.box.push m }

/-- One turn of the loop of `start_session`. -/
def startSession (c : TunnelClient τ) : WsMessage τ → TunnelClient τ
  | .binary _ => c
  | .text t =>
    match C.parse t with
    | some (.sessionAccepted id _) =>
      { c with opening := false, tunnel := some id, since := c.heard.length }
    | some (.sessionRejected _ _) => { c with opening := false }
    | _ => c

def downstream (c : TunnelClient τ) (id : Uuid) : WsMessage τ → TunnelClient τ
  | .binary frame =>
    if frame.take 16 = id.bytes then { c with pump := c.pump.accept (frame.drop 16) } else c
  | .text t =>
    if (C.parse t).any (·.endsSession id) then { c with pump := c.pump.stop } else c

def next (c : TunnelClient τ) (m : WsMessage τ) : Option (TunnelClient τ) :=
  let heard := { c with heard := c.heard ++ [m] }
  match c.tunnel with
  | none => if c.opening then some (startSession C heard m) else none
  | some id => if c.pump.ready then some (downstream C heard id m) else none

def step (c : TunnelClient τ) : ClientAction → Option (TunnelClient τ)
  | .pump a =>
    match c.tunnel with
    | some _ => (c.pump.step a).map fun p => { c with pump := p }
    | none => none
  | .send =>
    match c.tunnel, c.pump.hand with
    | some id, some chunk =>
      if c.box.hasRoom clientQueue then
        some ({ c with pump := c.pump.release }.queue (.binary (tunnelFrame id chunk)))
      else none
    | _, _ => none
  | .eof =>
    match c.tunnel with
    | some id =>
      if c.pump.atEnd && c.box.hasRoom clientQueue then
        some ({ c with pump := c.pump.stop }.queue (.text (C.render (.sessionClosed id))))
      else none
    | none => none
  | .offer candidate =>
    match c.tunnel with
    | some id =>
      if c.box.hasRoom clientQueue then
        some (c.queue (.text (C.render (.iceCandidate id candidate))))
      else none
    | none => none
  | .flush => c.box.flush.map fun box => { c with box := box }
  | .fail => some { c with box := c.box.close }
  | .giveUp => some { c with opening := false, box := c.box.close, pump := c.pump.stop }

/-! ## What a client keeps -/

structure Ok (c : TunnelClient τ) : Prop where
  pump : c.pump.Ok
  box : c.box.Ok
  feeds : ∀ id, c.tunnel = some id → c.pump.Feeds (payloads id c.box.queued)
  drains : ∀ id, c.tunnel = some id → c.pump.Drains (payloads id (c.heard.drop c.since)) []
  frames : ∀ frame, .binary frame ∈ c.box.queued →
    ∃ id, c.tunnel = some id ∧ (∃ b ∈ c.pump.built, frame = tunnelFrame id b) ∧ Tags id frame
  since : c.since ≤ c.heard.length
  idle : c.tunnel = none → c.pump.built = [] ∧ c.pump.got = []
  asks : ∀ t, .text t ∈ c.box.queued → ∀ deviceId key version capability id,
    C.parse t = some (.sessionRequest deviceId key version capability id) →
      version = relayTunnelVersion
  opened : ∀ id, c.tunnel = some id →
    ∃ t role, .text t ∈ c.heard ∧ C.parse t = some (.sessionAccepted id role)

variable {C} {c c' : TunnelClient τ} {m : WsMessage τ} {a : ClientAction} {id : Uuid}

theorem Ok.new (deviceId : Uuid) (clientPublicKey : Str) (capability : SessionCapability) :
    Ok C (TunnelClient.new C deviceId clientPublicKey capability) where
  pump := Pump.Ok.new
  box := ⟨prefix_refl _, fun _ => append_nil _⟩
  feeds _ h := by cases h
  drains _ h := by cases h
  frames _ h := by
    cases mem_singleton.1 h
  since := Nat.le_refl _
  idle _ := ⟨rfl, rfl⟩
  asks t ht deviceId key version capability id hp := by
    cases mem_singleton.1 ht
    rw [C.parse_render] at hp
    cases hp
    rfl
  opened _ h := by cases h

/-- A text is queued that asks for no session. -/
theorem Ok.queue_text (h : Ok C c) {t : τ} {p : SignalPacket} (hp : C.parse t = some p)
    (hmember : p.member ≠ none) : Ok C (c.queue (.text t)) :=
  { h with
    box := h.box.push _
    feeds := fun id hid => by
      change c.pump.Feeds (payloads id (c.box.queued ++ [.text t]))
      rw [payloads_append, payloads_text, append_nil]
      exact h.feeds id hid
    frames := fun frame hframe => by
      obtain hframe | hframe := mem_append.1 hframe
      · exact h.frames frame hframe
      · cases mem_singleton.1 hframe
    asks := fun t' ht' deviceId key version capability id hp' => by
      obtain ht' | ht' := mem_append.1 ht'
      · exact h.asks t' ht' deviceId key version capability id hp'
      · cases mem_singleton.1 ht'
        cases hp.symm.trans hp'
        exact absurd rfl hmember }

/-- The pump moves without taking from the socket or giving to it. -/
theorem Ok.of_pump (h : Ok C c) {p : Pump} (hok : p.Ok)
    (hfeeds : ∀ id, c.tunnel = some id → p.Feeds (payloads id c.box.queued))
    (hdrains : ∀ id, c.tunnel = some id → p.Drains (payloads id (c.heard.drop c.since)) [])
    (hbuilt : ∀ b ∈ c.pump.built, b ∈ p.built)
    (hidle : c.tunnel = none → p.built = [] ∧ p.got = []) : Ok C { c with pump := p } :=
  { h with
    pump := hok
    feeds := hfeeds
    drains := hdrains
    frames := fun frame hframe => by
      obtain ⟨id, hid, ⟨b, hb, hframe⟩, htags⟩ := h.frames frame hframe
      exact ⟨id, hid, ⟨b, hbuilt b hb, hframe⟩, htags⟩
    idle := hidle }

theorem Ok.stop (h : Ok C c) : Ok C { c with pump := c.pump.stop } :=
  h.of_pump h.pump.stop (fun id hid => (h.feeds id hid).stop Bool.noConfusion [])
    (fun id hid => (h.drains id hid).stop []) (fun _ hb => hb) h.idle

/-- The chunk in hand is queued as a frame. -/
theorem Ok.send (h : Ok C c) {chunk : Bytes} (hid : c.tunnel = some id)
    (hhand : c.pump.hand = some chunk) :
    Ok C ({ c with pump := c.pump.release }.queue (.binary (tunnelFrame id chunk))) := by
  obtain ⟨-, hbuilt⟩ := h.pump.hand chunk hhand
  obtain ⟨hne, hmax⟩ := h.pump.sized chunk hbuilt
  have htags : Tags id (tunnelFrame id chunk) := tags_tunnelFrame hne hmax
  refine { h with
    pump := h.pump.release, box := h.box.push _, feeds := ?_, frames := ?_, asks := ?_ }
  · intro id' hid'
    cases hid.symm.trans hid'
    change c.pump.release.Feeds (payloads id (c.box.queued ++ _))
    rw [payloads_append, htags.payloads_eq, if_pos rfl, drop_tunnelFrame]
    exact (h.feeds id hid).release h.pump hhand
  · intro frame hframe
    obtain hframe | hframe := mem_append.1 hframe
    · exact h.frames frame hframe
    · cases mem_singleton.1 hframe
      exact ⟨id, hid, ⟨chunk, hbuilt, rfl⟩, htags⟩
  · intro t ht
    obtain ht | ht := mem_append.1 ht
    · exact h.asks t ht
    · cases mem_singleton.1 ht

/-- Only `next` reads from the socket, and what was sent stays sent. -/
structure Keeps (c c' : TunnelClient τ) : Prop where
  tunnel : c'.tunnel = c.tunnel
  heard : c'.heard = c.heard
  since : c'.since = c.since
  sent : c.box.sent <+: c'.box.sent

theorem Ok.step (h : Ok C c) (hstep : c.step C a = some c') : Ok C c' ∧ Keeps c c' := by
  have hrefl : c.box.sent <+: c.box.sent := prefix_refl _
  cases a with
  | pump a =>
    simp only [TunnelClient.step] at hstep
    split at hstep
    · rename_i id hid
      obtain ⟨p, hp, rfl⟩ := map_eq_some_iff.1 hstep
      refine ⟨h.of_pump (h.pump.step hp) (fun id hid => (h.feeds id hid).step hp)
        (fun id hid => (h.drains id hid).step hp) (Pump.frame_step hp).built fun hnone => ?_, rfl,
        rfl,
        rfl, hrefl⟩
      cases hid.symm.trans hnone
    · cases hstep
  | send =>
    simp only [TunnelClient.step] at hstep
    split at hstep
    · rename_i id chunk hid hhand
      obtain ⟨-, ⟨⟩⟩ := ite_none_right_eq_some.1 hstep
      exact ⟨h.send hid hhand, rfl, rfl, rfl, hrefl⟩
    · cases hstep
  | eof =>
    simp only [TunnelClient.step] at hstep
    split at hstep
    · obtain ⟨-, ⟨⟩⟩ := ite_none_right_eq_some.1 hstep
      exact ⟨h.stop.queue_text (C.parse_render _) (by simp [SignalPacket.member]), rfl, rfl, rfl,
        hrefl⟩
    · cases hstep
  | offer candidate =>
    simp only [TunnelClient.step] at hstep
    split at hstep
    · obtain ⟨-, ⟨⟩⟩ := ite_none_right_eq_some.1 hstep
      exact ⟨h.queue_text (C.parse_render _) (by simp [SignalPacket.member]), rfl, rfl, rfl, hrefl⟩
    · cases hstep
  | flush =>
    obtain ⟨box, hbox, rfl⟩ := map_eq_some_iff.1 hstep
    obtain ⟨m, rest, -, -, rfl⟩ := Outbox.flush_eq_some hbox
    exact ⟨{ h with box := h.box.flush hbox }, rfl, rfl, rfl, prefix_append _ _⟩
  | fail =>
    cases hstep
    exact ⟨{ h with box := h.box.close }, rfl, rfl, rfl, hrefl⟩
  | giveUp =>
    cases hstep
    exact ⟨{ h.stop with box := h.box.close }, rfl, rfl, rfl, hrefl⟩

/-- The client has read a message that holds nothing for its tunnel. -/
theorem Ok.skip (h : Ok C c) (hnone : ∀ id, c.tunnel = some id → payloads id [m] = []) :
    Ok C { c with heard := c.heard ++ [m] } :=
  { h with
    drains := fun id hid => by
      change c.pump.Drains (payloads id ((c.heard ++ [m]).drop c.since)) []
      rw [drop_append_of_le_length h.since, payloads_append, hnone id hid, append_nil]
      exact h.drains id hid
    since := h.since.trans (by simp)
    opened := fun id hid => by
      obtain ⟨t, role, ht, hp⟩ := h.opened id hid
      exact ⟨t, role, mem_append_left _ ht, hp⟩ }

/-- The tunnel opens. -/
theorem Ok.start (h : Ok C c) (hnone : c.tunnel = none) {t : τ} {role : SessionRole}
    (ht : .text t ∈ c.heard) (hp : C.parse t = some (.sessionAccepted id role)) :
    Ok C { c with opening := false, tunnel := some id, since := c.heard.length } := by
  have hidle := h.idle hnone
  have hframes : ∀ frame, .binary frame ∉ c.box.queued := by
    intro frame hframe
    obtain ⟨id', hid', -, -⟩ := h.frames frame hframe
    cases hnone.symm.trans hid'
  have hhand : c.pump.hand = none := eq_none_iff_forall_not_mem.2 fun b hb => by
    have hbuilt := (h.pump.hand b hb).2
    rw [hidle.1] at hbuilt
    cases hbuilt
  refine { h with
    feeds := ?_, drains := ?_, frames := fun frame hframe => absurd hframe (hframes frame)
    since := Nat.le_refl _, idle := nofun, opened := ?_ }
  · intro id' _
    change Passes _ (payloads id' c.box.queued) _ _
    rw [payloads_eq_nil fun frame hframe => absurd hframe (hframes frame), hidle.1, hhand]
    exact .nil _
  · intro id' _
    change Passes (payloads id' (c.heard.drop c.heard.length)) _ _ _
    rw [drop_length, hidle.2]
    exact .nil _
  · intro id' hid'
    cases hid'
    exact ⟨t, role, ht, hp⟩

/-- The client takes a payload from a frame. -/
theorem Ok.accept (h : Ok C c) (hid : c.tunnel = some id) (hready : c.pump.ready = true)
    {frame : Bytes} (htags : Tags id frame) :
    Ok C { c with heard := c.heard ++ [.binary frame], pump := c.pump.accept (frame.drop 16) } := by
  refine { h with
    pump := h.pump.accept hready, feeds := fun id' hid' => h.feeds id' hid', drains := ?_
    since := h.since.trans (by simp), idle := ?_, opened := ?_ }
  · intro id' hid'
    cases hid.symm.trans hid'
    change (c.pump.accept _).Drains (payloads id ((c.heard ++ _).drop c.since)) []
    rw [drop_append_of_le_length h.since, payloads_append, htags.payloads_eq, if_pos rfl]
    exact Pump.Drains.accept (Passes.take (h.drains id hid) [frame.drop 16]) hready
  · intro hnone
    cases hid.symm.trans hnone
  · intro id' hid'
    obtain ⟨t, role, ht, hp⟩ := h.opened id' hid'
    exact ⟨t, role, mem_append_left _ ht, hp⟩

/-- Reading a message sends none, and opens a tunnel only if the message accepts the session. -/
structure Reads (C : PacketCodec τ) (c : TunnelClient τ) (m : WsMessage τ) (c' : TunnelClient τ) :
    Prop where
  heard : c'.heard = c.heard ++ [m]
  box : c'.box = c.box
  tunnel : c'.tunnel = c.tunnel ∧ c'.since = c.since ∨
    c.tunnel = none ∧ c'.since = c.heard.length + 1 ∧
      ∃ t id role, m = .text t ∧ C.parse t = some (.sessionAccepted id role) ∧ c'.tunnel = some id

/-- The client reads a message of the size that the relay delivers. -/
theorem Ok.next (h : Ok C c) (hsized : ∀ frame, m = .binary frame → tunnelSized frame = true)
    (hnext : c.next C m = some c') : Ok C c' ∧ Reads C c m c' := by
  unfold TunnelClient.next at hnext
  split at hnext
  · rename_i hnone
    have hsame : Ok C { c with heard := c.heard ++ [m] } :=
      h.skip fun id hid => by cases hnone.symm.trans hid
    obtain ⟨-, ⟨⟩⟩ := ite_none_right_eq_some.1 hnext
    cases m with
    | binary frame => exact ⟨hsame, rfl, rfl, .inl ⟨rfl, rfl⟩⟩
    | text t =>
      simp only [startSession]
      split
      · rename_i id role hp
        exact ⟨hsame.start hnone (mem_append_right _ mem_cons_self) hp, rfl, rfl,
          .inr ⟨hnone, by simp, t, id, role, rfl, hp, rfl⟩⟩
      · exact ⟨{ hsame with }, rfl, rfl, .inl ⟨rfl, rfl⟩⟩
      · exact ⟨hsame, rfl, rfl, .inl ⟨rfl, rfl⟩⟩
  · rename_i id hid
    obtain ⟨hready, ⟨⟩⟩ := ite_none_right_eq_some.1 hnext
    cases m with
    | binary frame =>
      simp only [TunnelClient.downstream]
      split
      · exact ⟨h.accept hid hready ⟨hsized frame rfl, ‹_›⟩, rfl, rfl, .inl ⟨rfl, rfl⟩⟩
      · rename_i htake
        refine ⟨h.skip fun id' hid' => ?_, rfl, rfl, .inl ⟨rfl, rfl⟩⟩
        cases hid.symm.trans hid'
        simp [payloads, WsMessage.payload, Tags, htake]
    | text t =>
      have hsame := h.skip (m := .text t) fun _ _ => rfl
      simp only [TunnelClient.downstream]
      split
      · exact ⟨hsame.stop, rfl, rfl, .inl ⟨rfl, rfl⟩⟩
      · exact ⟨hsame, rfl, rfl, .inl ⟨rfl, rfl⟩⟩

/-- Frames of other tunnels were never queued. -/
theorem Ok.payloads_eq_nil (h : Ok C c) (hid : c.tunnel ≠ some id) :
    payloads id c.box.queued = [] := by
  refine eq_nil_iff_forall_not_mem.2 fun b hb => ?_
  obtain ⟨frame, hframe, htags, -⟩ := mem_payloads hb
  obtain ⟨id', hid', -, htags'⟩ := h.frames frame hframe
  rw [htags.eq htags'] at hid
  exact hid hid'

end TunnelClient

end RivetLink.Sdk
