import RivetLink.Server.TunnelForwarding
import RivetLink.Sdk.RelayTunnel
import RivetLink.Agent.HostTunnels

/-!
# Clients, hosts and the relay

At the far end of each WebSocket of the relay runs a client that opens one tunnel, a host that
serves tunnels, or some other program, which may send what it likes. A client signs in as a user and
a host as a device. A WebSocket delivers in order what its sender has sent, until it is closed: the
relay reads the next message that the program has sent, and the program the next that the relay has
written.
-/

namespace RivetLink.System

open RivetLink.Foundation RivetLink.Protocol RivetLink.Server RivetLink.Sdk RivetLink.Agent

variable {τ η : Type}

inductive Program (η τ : Type) where
  | client (c : TunnelClient τ)
  | host (h : TunnelHost η τ)
  | other

inductive Start where
  | client (deviceId : Uuid) (clientPublicKey : Str) (capability : SessionCapability)
  | host
  | other

namespace Program

def heard : Program η τ → List (WsMessage τ)
  | .client c => c.heard
  | .host h => h.heard
  | .other => []

def box : Program η τ → Option (Outbox τ)
  | .client c => some c.box
  | .host h => some h.box
  | .other => none

/-- After what it has said, the next message of the program is `m`. -/
def utters [DecidableEq τ] (p : Program η τ) (said : List (WsMessage τ)) (m : WsMessage τ) : Bool :=
  match p.box with
  | some box => box.sent[said.length]? = some m
  | none => true

def next (C : PacketCodec τ) (H : HostHandler η) (maxTunnels : Nat) (p : Program η τ)
    (m : WsMessage τ) : Option (Program η τ) :=
  match p with
  | .client c => (c.next C m).map .client
  | .host h => (h.next C H maxTunnels m).map .host
  | .other => none

/-- The program runs with an account of this kind. -/
def fits : Program η τ → PrincipalKind → Bool
  | .client _, kind => kind = .user
  | .host _, kind => kind = .device
  | .other, _ => true

end Program

def Start.program (C : PacketCodec τ) (H : HostHandler η) : Start → Program η τ
  | .client deviceId clientPublicKey capability =>
    .client (TunnelClient.new C deviceId clientPublicKey capability)
  | .host => .host (TunnelHost.new H)
  | .other => .other

structure TunnelNet (η τ : Type) where
  relay : Relay τ := {}
  programs : List (Program η τ) := []

inductive NetAction (τ : Type) where
  | join (principal : Uuid) (start : Start)
  | relay (a : RelayAction τ)
  | client (c : Nat) (a : ClientAction)
  | host (c : Nat) (a : HostAction)
  | read (c : Nat)

namespace TunnelNet

variable [DecidableEq τ] (C : PacketCodec τ) (H : HostHandler η) (maxTunnels : Nat)
  (accounts : Uuid → Option (Uuid × PrincipalKind))

def set (s : TunnelNet η τ) (c : Nat) (p : Program η τ) : TunnelNet η τ :=
  { s with programs := s.programs.set c p }

/-- The relay may take this step: it reads only what was sent. -/
def permits (s : TunnelNet η τ) : RelayAction τ → Bool
  | .connect _ => false
  | .receive c m =>
    match s.programs[c]?, s.relay.conns[c]? with
    | some p, some k => p.utters k.said m
    | _, _ => false
  | _ => true

/-- The next message that the relay has written to connection `c`. -/
def nextMessage (s : TunnelNet η τ) (c : Nat) (p : Program η τ) : Option (WsMessage τ) :=
  s.relay.conns[c]?.bind fun k => k.received[p.heard.length]?.map (·.message)

def step (s : TunnelNet η τ) : NetAction τ → Option (TunnelNet η τ)
  | .join principal start =>
    (accounts principal).bind fun account =>
      if (start.program C H).fits account.2 then
        (s.relay.step C accounts (.connect principal)).map fun relay =>
          ⟨relay, s.programs ++ [start.program C H]⟩
      else none
  | .relay a =>
    if s.permits a then (s.relay.step C accounts a).map fun relay => { s with relay := relay }
    else none
  | .client c a =>
    match s.programs[c]? with
    | some (.client p) => (p.step C a).map fun p => s.set c (.client p)
    | _ => none
  | .host c a =>
    match s.programs[c]? with
    | some (.host h) => (h.step C a).map fun h => s.set c (.host h)
    | _ => none
  | .read c =>
    s.programs[c]?.bind fun p =>
      (s.nextMessage c p).bind fun m => (p.next C H maxTunnels m).map (s.set c)

end TunnelNet

end RivetLink.System
