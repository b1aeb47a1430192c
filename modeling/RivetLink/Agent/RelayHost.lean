import RivetLink.Sdk.TunnelPump
import Mathlib.Logic.Function.Basic

/-!
# The host's end of relay tunnels

`run_host_tunnels` serves the tunnels of one device over one WebSocket. Its loop reads a message at
a time. A request for a tunnel starts a task that runs the session and `tunnel_pump`; a tunnel frame
goes to the queue of its tunnel, and a tunnel whose queue stays full is dropped from `inbound`.
Other packets go to a `HostHandler`. All tasks share one queue to the task that writes to the
socket.

`heard` records the messages that were read from the socket, `since` how many of them a tunnel has
missed, and `entered` what was put into the queue of a tunnel.
-/

namespace RivetLink.Agent

open RivetLink.Foundation RivetLink.Protocol RivetLink.Sdk

variable {τ η : Type}

/-- The capacity of the queue between the tasks of a host and its WebSocket. -/
def hostQueue : Nat := 256

/-- The capacity of the queue between the loop and one tunnel. -/
def tunnelQueue : Nat := 64

/-- What handles the packets that are not for tunnels. It accepts only sessions it was asked for. -/
structure HostHandler (η : Type) where
  init : η
  handle : η → SignalPacket → Option (η × List SignalPacket)
  accepts : ∀ h p h' out, handle h p = some (h', out) →
    ∀ id role, .sessionAccepted id role ∈ out →
      ∃ deviceId key version capability,
        p = .sessionRequest deviceId key version capability (some id)

/-- A host that serves tunnels only. -/
def HostHandler.silent : HostHandler Unit where
  init := ()
  handle _ _ := some ((), [])
  accepts _ _ _ _ h _ _ hout := by
    cases h
    cases hout

structure HostTunnel where
  id : Uuid
  pump : Pump := {}
  /-- The queue to the downstream half. -/
  inbox : List Bytes := []
  entered : List Bytes := []
  since : Nat
  /-- `tunnel_pump` has told the relay of the end and returned. -/
  closed : Bool := false
  /-- The loop has seen the end of the task. -/
  joined : Bool := false

inductive HostPhase (τ : Type) where
  | reading
  | delivering (id : Uuid) (i : Nat) (payload : Bytes)
  | replying (texts : List τ)

structure TunnelHost (η τ : Type) where
  running : Bool := true
  phase : HostPhase τ := .reading
  inbound : Uuid → Option Nat := fun _ => none
  tunnels : List HostTunnel := []
  /-- The tasks that serve a direct path. -/
  directs : List Uuid := []
  offered : List Uuid := []
  handler : η
  box : Outbox τ := {}
  heard : List (WsMessage τ) := []

inductive HostAction where
  -- the loop
  | deliver (ok : Bool)
  | reply
  | heartbeat
  | join (i : Nat)
  | joinDirect (j : Nat)
  | fail
  -- the task of tunnel `i`
  | pump (i : Nat) (a : PumpAction)
  | send (i : Nat)
  | recv (i : Nat)
  | close (i : Nat)
  -- a direct path
  | answer (j : Nat) (candidate : Str)
  -- the task that writes to the socket
  | flush

/-- The payload that the loop has in hand for tunnel `i`. -/
def HostPhase.inHand (i : Nat) : HostPhase τ → List Bytes
  | .delivering _ j payload => if j = i then [payload] else []
  | _ => []

namespace TunnelHost

variable (C : PacketCodec τ) (H : HostHandler η) (maxTunnels : Nat)

def new : TunnelHost η τ where
  handler := H.init

def queue (h : TunnelHost η τ) (m : WsMessage τ) : TunnelHost η τ := { h with box := h.box.push m }

def setTunnel (h : TunnelHost η τ) (i : Nat) (t : HostTunnel) : TunnelHost η τ :=
  { h with tunnels := h.tunnels.set i t }

def tasks (h : TunnelHost η τ) : Nat :=
  (h.tunnels.filter fun t => !t.joined).length + h.directs.length

def openTunnel (h : TunnelHost η τ) (id : Uuid) : TunnelHost η τ :=
  if maxTunnels ≤ h.tasks then
    { h with phase := .replying [C.render (.sessionRejected id "host busy")] }
  else
    { h with
      tunnels := h.tunnels ++ [{ id := id, since := h.heard.length }]
      inbound := Function.update h.inbound id (some h.tunnels.length)
      phase := .replying [C.render (.sessionAccepted id .controller)] }

/-- A packet for the handler. An error ends the loop. -/
def handle (h : TunnelHost η τ) (p : SignalPacket) : TunnelHost η τ :=
  match H.handle h.handler p with
  | some (handler, out) => { h with handler := handler, phase := .replying (out.map C.render) }
  | none => { h with running := false }

def onPacket (h : TunnelHost η τ) (p : SignalPacket) : TunnelHost η τ :=
  match p with
  | .sessionRequest _ _ version _ (some id) =>
    if version = relayTunnelVersion then openTunnel C maxTunnels h id else handle C H h p
  | .iceCandidate id _ =>
    if (h.inbound id).isSome then
      if h.tasks < maxTunnels ∧ id ∉ h.offered then
        { h with directs := h.directs ++ [id], offered := h.offered ++ [id] }
      else h
    else handle C H h p
  | .sessionClosed id =>
    if (h.inbound id).isSome then { h with inbound := Function.update h.inbound id none }
    else handle C H h p
  | p => handle C H h p

def onMessage (h : TunnelHost η τ) : WsMessage τ → TunnelHost η τ
  | .binary frame =>
    match splitTunnelFrame frame with
    | some (id, payload) =>
      match h.inbound id with
      | some i => { h with phase := .delivering id i payload }
      | none => h
    | none => h
  | .text t =>
    match C.parse t with
    | some p => onPacket C H maxTunnels h p
    | none => h

/-- The loop reads the next message from the socket. -/
def next (h : TunnelHost η τ) (m : WsMessage τ) : Option (TunnelHost η τ) :=
  match h.running, h.phase with
  | true, .reading => some (onMessage C H maxTunnels { h with heard := h.heard ++ [m] } m)
  | _, _ => none

def stepLoop (h : TunnelHost η τ) : HostAction → Option (TunnelHost η τ)
  | .deliver ok =>
    match h.phase with
    | .delivering id i payload =>
      match ok, h.tunnels[i]? with
      | true, some t =>
        if !t.closed && t.inbox.length < tunnelQueue then
          some ({ h with phase := .reading }.setTunnel i
            { t with inbox := t.inbox ++ [payload], entered := t.entered ++ [payload] })
        else none
      | true, none => none
      | false, _ =>
        some { h with phase := .reading, inbound := Function.update h.inbound id none }
    | _ => none
  | .reply =>
    match h.phase with
    | .replying (t :: rest) =>
      if h.box.hasRoom hostQueue then some ({ h with phase := .replying rest }.queue (.text t))
      else none
    | .replying [] => some { h with phase := .reading }
    | _ => none
  | .heartbeat =>
    match h.phase with
    | .reading => some { h with phase := .replying [C.render .heartbeat] }
    | _ => none
  | .join i =>
    match h.phase, h.tunnels[i]? with
    | .reading, some t =>
      if t.closed && !t.pump.attached && !t.joined then
        some ({ h with
          inbound := Function.update h.inbound t.id none
          offered := h.offered.erase t.id }.setTunnel i { t with joined := true })
      else none
    | _, _ => none
  | .joinDirect j =>
    match h.phase with
    | .reading => some { h with directs := h.directs.eraseIdx j }
    | _ => none
  | .fail => some { h with running := false, box := h.box.close }
  | _ => none

def stepTunnel (h : TunnelHost η τ) (i : Nat) (t : HostTunnel) :
    HostAction → Option (TunnelHost η τ)
  | .pump _ a => (t.pump.step a).map fun p => h.setTunnel i { t with pump := p }
  | .send _ =>
    match t.pump.hand with
    | some chunk =>
      if h.box.hasRoom hostQueue then
        some ((h.setTunnel i { t with pump := t.pump.release }).queue
          (.binary (tunnelFrame t.id chunk)))
      else none
    | none => none
  | .recv _ =>
    match t.inbox with
    | payload :: rest =>
      if t.pump.ready then
        some (h.setTunnel i { t with pump := t.pump.accept payload, inbox := rest })
      else none
    | [] => none
  | .close _ =>
    if !t.pump.running && !t.closed && h.box.hasRoom hostQueue then
      some ((h.setTunnel i { t with closed := true }).queue
        (.text (C.render (.sessionClosed t.id))))
    else none
  | _ => none

/-- When the loop has returned, all tasks are dropped. -/
def step (h : TunnelHost η τ) (a : HostAction) : Option (TunnelHost η τ) :=
  if h.running then
    match a with
    | .pump i _ | .send i | .recv i | .close i =>
      h.tunnels[i]?.bind fun t => stepTunnel C h i t a
    | .answer j candidate =>
      h.directs[j]?.bind fun id =>
        if h.box.hasRoom hostQueue then
          some (h.queue (.text (C.render (.iceCandidate id candidate))))
        else none
    | .flush => h.box.flush.map fun box => { h with box := box }
    | _ => stepLoop C h a
  else none

end TunnelHost

end RivetLink.Agent
