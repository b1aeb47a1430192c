import RivetLink.Foundation.Transition
import RivetLink.Protocol.Packets
import Mathlib.Logic.Function.Basic

/-!
# The relay

Every WebSocket of the relay has a socket task that registers the connection, waits until the
reader or the writer task of the socket ends, and then runs `forget_connection`. The reader task
passes text frames to the queue of the signaling router and forwards binary frames itself. One
router task takes the text frames of all connections in order. Between them are the map of
connections, the map from devices to connections, and the table of sessions. A step of the model is
one access to one of these maps or to a queue; `TaskPhase`, `ReaderPhase` and `RouterPhase` name the
places in between. A scan of the session table is not one access: it sees every session that stays
in the table throughout, and may or may not see those that come or go meanwhile.

Timeouts may strike at any moment. A task that is aborted goes on to its next `await` at least.
Connections are numbered in the order in which they were authenticated, which stands for their
fresh ids; `accounts` tells the organisation and the kind of a principal, which a row of the
database does once and for all. Ids of sessions are fresh.

Some of what is recorded is not in the code: the session through which a message was sent
(`through`), what a socket has said, was handed and has received, the sessions whose request was
delivered, those that a device has ended, and all that were ever created. The `AUTHENTICATED` frame,
which goes to the socket before its queue is read, and pings are left out.
-/

namespace RivetLink.Server

open RivetLink.Foundation RivetLink.Protocol

def maxSessionsPerUser : Nat := 4
def maxSessionsPerDevice : Nat := 16
def outgoingQueue : Nat := 128
def signalingQueue : Nat := 1024

inductive PrincipalKind where
  | user
  | device
  deriving DecidableEq, Repr

structure AuthOutcome where
  principalId : Uuid
  orgId : Uuid
  kind : PrincipalKind
  deriving DecidableEq

structure ActiveSession where
  id : Uuid
  orgId : Uuid
  deviceId : Uuid
  deviceConn : Nat
  initiatorId : Uuid
  initiatorConn : Nat
  tunnel : Bool
  deriving DecidableEq

def ActiveSession.peerConn (x : ActiveSession) (sender : Nat) : Option Nat :=
  if x.initiatorConn = sender then some x.deviceConn
  else if x.deviceConn = sender then some x.initiatorConn
  else none

/-- The connection takes part in the session. -/
def ActiveSession.joins (x : ActiveSession) (c : Nat) : Bool :=
  x.initiatorConn = c || x.deviceConn = c

/-- Both ends of a session are to be told that it is over. -/
def ActiveSession.notices (x : ActiveSession) : List (Uuid × Nat) :=
  [(x.id, x.initiatorConn), (x.id, x.deviceConn)]

structure SignalingMessage (τ : Type) where
  connId : Nat
  client : AuthOutcome
  text : τ
  deriving DecidableEq

/-- A message that was queued for a socket. If it came through a session, `through` is the session
and the connection that sent it. -/
structure Delivery (τ : Type) where
  message : WsMessage τ
  through : Option (ActiveSession × Nat)
  deriving DecidableEq

inductive TaskPhase where
  -- `insert`: the devices map first, then the connections
  | opening
  | listed
  | serving
  -- `forget_connection`
  | closing
  | delisting
  | collecting
  | scanning (todo : List ActiveSession) (found : List Uuid)
  | deleting (ids : List Uuid) (removed : List ActiveSession)
  | notifying (todo : List (Uuid × Nat))
  | done
  deriving DecidableEq

/-- The reader task. From `findingTunnel` on it is in `forward_tunnel_frame`. -/
inductive ReaderPhase (τ : Type) where
  | reading
  | sending (t : τ)
  | findingTunnel (frame : Bytes) (id : Uuid)
  | findingPeer (frame : Bytes) (seen : ActiveSession)
  | findingClient (frame : Bytes) (x : ActiveSession) (peer : Nat)
  | waiting (frame : Bytes) (x : ActiveSession) (peer : Nat) (kind : PrincipalKind)
  | removing (id : Uuid) (peer : Nat) (kind : PrincipalKind)
  | notifying (todo : List (Uuid × Nat)) (peer : Nat) (kind : PrincipalKind)
  | dropping (peer : Nat)
  | ended
  deriving DecidableEq

def ReaderPhase.hasEnded {τ : Type} : ReaderPhase τ → Bool
  | .ended => true
  | _ => false

def ReaderPhase.onMessage {τ : Type} : WsMessage τ → ReaderPhase τ
  | .text t => .sending t
  | .binary frame =>
    if frame.length ≤ sessionIdLen ∨ sessionIdLen + maxTunnelPayload < frame.length then .reading
    else
      match Uuid.fromSlice (frame.take sessionIdLen) with
      | some id => .findingTunnel frame id
      | none => .reading

/-- After a tunnel frame could not be delivered: a stuck viewer loses its connection. -/
def ReaderPhase.afterNotices {τ : Type} (peer : Nat) : PrincipalKind → ReaderPhase τ
  | .user => .dropping peer
  | .device => .reading

structure SessionQuery where
  deviceId : Uuid
  clientPublicKey : Str
  protocolVersion : UInt16
  requestedCapability : SessionCapability
  deriving DecidableEq

/-- The request as the device gets it, with the id of the session. -/
def SessionQuery.enriched (q : SessionQuery) (id : Uuid) : SignalPacket :=
  .sessionRequest q.deviceId q.clientPublicKey q.protocolVersion q.requestedCapability (some id)

/-- The router. A message that ends a session carries `ends`. -/
inductive RouterPhase (τ : Type) where
  | idle
  | findingDevice (m : SignalingMessage τ) (q : SessionQuery) (id : Uuid)
  | checkingOrg (m : SignalingMessage τ) (q : SessionQuery) (id : Uuid) (d : Nat)
  | counting (m : SignalingMessage τ) (q : SessionQuery) (id : Uuid) (d : Nat)
      (todo : List ActiveSession) (byUser byDevice : Nat)
  | inserting (m : SignalingMessage τ) (q : SessionQuery) (x : ActiveSession)
  | delivering (m : SignalingMessage τ) (q : SessionQuery) (x : ActiveSession)
  | rechecking (m : SignalingMessage τ) (x : ActiveSession) (delivered : Bool)
  | undoing (m : SignalingMessage τ) (x : ActiveSession)
  | rejecting (m : SignalingMessage τ) (id : Uuid) (reason : String)
  | findingMember (m : SignalingMessage τ) (id : Uuid) (ends : Bool)
  | passingOn (m : SignalingMessage τ) (x : ActiveSession) (peer : Nat) (ends : Bool)
  | ending (m : SignalingMessage τ) (x : ActiveSession)
  deriving DecidableEq

structure Connection (τ : Type) where
  client : AuthOutcome
  /-- The connection is in the map. -/
  registered : Bool := false
  /-- The writer task runs. -/
  writing : Bool := true
  queue : List (Delivery τ) := []
  /-- Everything that was ever queued. -/
  handed : List (Delivery τ) := []
  received : List (Delivery τ) := []
  /-- The sessions of whose end a task waits to tell. -/
  notices : List Uuid := []
  reader : ReaderPhase τ := .reading
  task : TaskPhase := .opening
  said : List (WsMessage τ) := []
  deriving DecidableEq

structure Relay (τ : Type) where
  conns : List (Connection τ) := []
  devices : Uuid → Option Nat := fun _ => none
  sessions : List ActiveSession := []
  signaling : List (SignalingMessage τ) := []
  router : RouterPhase τ := .idle
  /-- The session ids that were handed out, with the organisation of the sender. -/
  used : List (Uuid × Uuid) := []
  delivered : List ActiveSession := []
  endedByDevice : List ActiveSession := []
  created : List ActiveSession := []

inductive RelayAction (τ : Type) where
  | connect (principal : Uuid)
  -- the socket task of connection `c`
  | hangUp (c : Nat)
  | task (c : Nat)
  | scan (c : Nat) (x : ActiveSession)
  -- its writer task, and the tasks of `notify_closed`
  | write (c : Nat) (ok : Bool)
  | writerEnds (c : Nat)
  | notice (c i : Nat) (ok : Bool)
  -- its reader task
  | receive (c : Nat) (message : WsMessage τ)
  | reader (c : Nat) (ok : Bool)
  | readerEnds (c : Nat)
  -- the router
  | route (id : Uuid)
  | count (x : ActiveSession)
  | router
  deriving DecidableEq

variable {τ : Type}

/-- A message is put into the queue. -/
def Connection.hand (k : Connection τ) (d : Delivery τ) : Connection τ :=
  { k with queue := k.queue ++ [d], handed := k.handed ++ [d] }

/-- A task starts that will tell of the end of a session. -/
def Connection.note (k : Connection τ) (id : Uuid) : Connection τ :=
  { k with notices := k.notices ++ [id] }

def Connection.unnote (k : Connection τ) (i : Nat) : Connection τ :=
  { k with notices := k.notices.eraseIdx i }

/-- The writer task ends and drops the queue. -/
def Connection.cut (k : Connection τ) : Connection τ := { k with writing := false, queue := [] }

/-- There is room in the queue, and the writer takes from it. -/
def Connection.hasRoom (k : Connection τ) : Bool := k.writing && k.queue.length < outgoingQueue

namespace Relay

variable (C : PacketCodec τ) (accounts : Uuid → Option (Uuid × PrincipalKind)) (s : Relay τ)

def modifyConn (c : Nat) (f : Connection τ → Connection τ) : Relay τ :=
  { s with conns := s.conns.modify c f }

def getClient (c : Nat) : Option (Connection τ) := s.conns[c]?.filter (·.registered)

def push (c : Nat) (d : Delivery τ) : Relay τ := s.modifyConn c (·.hand d)

/-- `ConnectionMap::send_to`: queue a message without waiting. -/
def sendTo (c : Nat) (d : Delivery τ) : Relay τ × Bool :=
  if (s.getClient c).any Connection.hasRoom then (s.push c d, true) else (s, false)

/-- `SessionManager::sessions.get`. -/
def findSession (id : Uuid) : Option ActiveSession := s.sessions.find? (·.id = id)

def removeSession (id : Uuid) : Relay τ := { s with sessions := s.sessions.filter (·.id ≠ id) }

/-- One turn of the loop of `notify_closed`. -/
def notifyClosed (id : Uuid) (c : Nat) : Relay τ :=
  if (s.getClient c).isSome then s.modifyConn c (·.note id) else s

def setTask (c : Nat) (p : TaskPhase) : Relay τ := s.modifyConn c fun k => { k with task := p }

def setReader (c : Nat) (p : ReaderPhase τ) : Relay τ :=
  s.modifyConn c fun k => { k with reader := p }

/-- The connection enters the map. -/
def register (s : Relay τ) (c : Nat) : Relay τ :=
  s.modifyConn c fun k => { k with registered := true, task := .serving }

/-- The connection leaves the map. One that was dropped as stuck is no longer there. -/
def unregister (s : Relay τ) (c : Nat) : Relay τ :=
  s.modifyConn c fun k =>
    { k with
      registered := false
      task := if k.registered && k.client.kind = .device then .delisting else .collecting }

/-- A stuck viewer is dropped from the map. -/
def drop (s : Relay τ) (c : Nat) : Relay τ := s.modifyConn c fun k => { k with registered := false }

def stepTask (c : Nat) (k : Connection τ) : Option (Relay τ) :=
  match k.task with
  | .opening =>
    match k.client.kind with
    | .device =>
      some { s.setTask c .listed with
        devices := Function.update s.devices k.client.principalId (some c) }
    | .user => some (s.register c)
  | .listed => some (s.register c)
  | .serving => none
  | .closing => some (s.unregister c)
  | .delisting =>
    -- the device may have reconnected meanwhile
    some { s.setTask c .collecting with
      devices :=
        if s.devices k.client.principalId = some c then
          Function.update s.devices k.client.principalId none
        else s.devices }
  | .collecting => some (s.setTask c (.scanning s.sessions []))
  | .scanning [] found => some (s.setTask c (.deleting found []))
  | .scanning (_ :: _) _ => none
  | .deleting [] removed =>
    some (s.setTask c (.notifying (removed.flatMap ActiveSession.notices)))
  | .deleting (id :: ids) removed =>
    match s.findSession id with
    | none => some (s.setTask c (.deleting ids removed))
    | some x => some ((s.removeSession id).setTask c (.deleting ids (removed ++ [x])))
  | .notifying [] => some (s.setTask c .done)
  | .notifying ((id, d) :: rest) => some ((s.notifyClosed id d).setTask c (.notifying rest))
  | .done => none

/-- The scan of `remove_for_conn` comes to a session, or passes the place where it was. -/
def scan (c : Nat) (k : Connection τ) (x : ActiveSession) : Option (Relay τ) :=
  match k.task with
  | .scanning todo found =>
    if x ∈ s.sessions then
      some (s.setTask c (.scanning (todo.filter (· ≠ x))
        (if x.joins c then found ++ [x.id] else found)))
    else if x ∈ todo then some (s.setTask c (.scanning (todo.filter (· ≠ x)) found))
    else none
  | _ => none

def stepReader (c : Nat) (k : Connection τ) (ok : Bool) : Option (Relay τ) :=
  match k.reader with
  | .reading => none
  | .sending t =>
    if s.signaling.length < signalingQueue then
      some { s.setReader c .reading with signaling := s.signaling ++ [⟨c, k.client, t⟩] }
    else none
  -- `tunnel_peer_conn` looks twice
  | .findingTunnel frame id =>
    match s.findSession id with
    | some x => some (s.setReader c (if x.tunnel then .findingPeer frame x else .reading))
    | none => some (s.setReader c .reading)
  | .findingPeer frame seen =>
    match s.findSession seen.id with
    | some x =>
      match x.peerConn c with
      | some peer => some (s.setReader c (.findingClient frame x peer))
      | none => some (s.setReader c .reading)
    | none => some (s.setReader c .reading)
  | .findingClient frame x peer =>
    match s.getClient peer with
    | some k' => some (s.setReader c (.waiting frame x peer k'.client.kind))
    | none => some (s.setReader c .reading)
  | .waiting frame x peer kind =>
    match ok with
    -- the sender is kept, so the peer need not be registered any more
    | true =>
      if s.conns[peer]?.any Connection.hasRoom then
        some ((s.push peer ⟨.binary frame, some (x, c)⟩).setReader c .reading)
      else none
    | false => some (s.setReader c (.removing x.id peer kind))
  | .removing id peer kind =>
    match s.findSession id with
    | some x => some ((s.removeSession id).setReader c (.notifying x.notices peer kind))
    | none => some (s.setReader c (.afterNotices peer kind))
  | .notifying [] peer kind => some (s.setReader c (.afterNotices peer kind))
  | .notifying ((id, d) :: rest) peer kind =>
    some ((s.notifyClosed id d).setReader c (.notifying rest peer kind))
  | .dropping peer => some ((s.drop peer).setReader c .reading)
  | .ended => none

def receive (c : Nat) (k : Connection τ) (message : WsMessage τ) : Option (Relay τ) :=
  match k.reader, k.task with
  | .reading, .opening => none
  | .reading, .listed => none
  | .reading, _ =>
    some (s.modifyConn c fun k =>
      { k with said := k.said ++ [message], reader := .onMessage message })
  | _, _ => none

/-- The reader task ends by itself, or is aborted at an `await`. -/
def readerEnds (c : Nat) (k : Connection τ) : Option (Relay τ) :=
  match k.reader with
  | .reading => some (s.setReader c .ended)
  | .sending _ | .waiting _ _ _ _ =>
    if k.task = .serving then none else some (s.setReader c .ended)
  | _ => none

/-- Where the router goes with a message, and whether it takes an id for a new session. -/
def dispatch (m : SignalingMessage τ) (id : Uuid) : RouterPhase τ × Bool :=
  match C.parse m.text with
  | none => (.idle, false)
  | some (.sessionRequest deviceId key version capability _) =>
    (if m.client.kind = .user then .findingDevice m ⟨deviceId, key, version, capability⟩ id
      else .rejecting m id "only users can open sessions", true)
  | some (.sessionRejected x _) | some (.sessionClosed x) => (.findingMember m x true, false)
  | some (.authChallenge x _) | some (.authResponse x _) | some (.sessionAccepted x _)
  | some (.iceCandidate x _) | some (.sessionKeyExchange x _ _ _) | some (.screenshotRequest x)
  | some (.screenshotData x _ _ _ _) | some (.hostConsoleState x _ _)
  | some (.consoleInput x _) => (.findingMember m x false, false)
  | some .heartbeat => (.idle, false)

/-- The router takes the next message; a session request gets a fresh id. -/
def route (id : Uuid) : Option (Relay τ) :=
  match s.router, s.signaling with
  | .idle, m :: rest =>
    match dispatch C m id with
    | (p, false) => some { s with signaling := rest, router := p }
    | (p, true) =>
      if id ∈ s.used.map (·.1) then none
      else
        some { s with
          signaling := rest
          used := s.used ++ [(id, m.client.orgId)]
          router := p }
  | _, _ => none

/-- The scan of `create_session` comes to a session, or passes the place where it was. Only the
router creates sessions, so there are no others to come to. -/
def count (x : ActiveSession) : Option (Relay τ) :=
  match s.router with
  | .counting m q id d todo byUser byDevice =>
    if x ∈ todo then
      if x ∈ s.sessions then
        some { s with
          router := .counting m q id d (todo.filter (· ≠ x))
            (byUser + if x.initiatorId = m.client.principalId then 1 else 0)
            (byDevice + if x.deviceId = q.deviceId then 1 else 0) }
      else some { s with router := .counting m q id d (todo.filter (· ≠ x)) byUser byDevice }
    else none
  | _ => none

def newSession (m : SignalingMessage τ) (q : SessionQuery) (id : Uuid) (d : Nat) :
    ActiveSession where
  id := id
  orgId := m.client.orgId
  deviceId := q.deviceId
  deviceConn := d
  initiatorId := m.client.principalId
  initiatorConn := m.connId
  tunnel := q.protocolVersion = relayTunnelVersion

/-- The reason for a device that is offline, and for one of another organisation. -/
def unknownDevice : String := "device is offline or unknown"

def stepRouter : Option (Relay τ) :=
  match s.router with
  | .idle => none
  | .findingDevice m q id =>
    match s.devices q.deviceId with
    | some d => some { s with router := .checkingOrg m q id d }
    | none => some { s with router := .rejecting m id unknownDevice }
  | .checkingOrg m q id d =>
    -- a device of another organisation gets the answer of one that is offline
    if (s.getClient d).any (·.client.orgId = m.client.orgId) then
      some { s with router := .counting m q id d s.sessions 0 0 }
    else some { s with router := .rejecting m id unknownDevice }
  | .counting m q id d [] byUser byDevice =>
    if maxSessionsPerUser ≤ byUser then
      some { s with router := .rejecting m id "too many open sessions for this account" }
    else if maxSessionsPerDevice ≤ byDevice then
      some { s with router := .rejecting m id "device is busy" }
    else some { s with router := .inserting m q (newSession m q id d) }
  | .counting _ _ _ _ (_ :: _) _ _ => none
  | .inserting m q x =>
    some { s with
      sessions := s.sessions ++ [x]
      created := s.created ++ [x]
      router := .delivering m q x }
  | .delivering m q x =>
    match s.sendTo x.deviceConn ⟨.text (C.render (q.enriched x.id)), none⟩ with
    | (t, true) =>
      some { t with
        delivered := s.delivered ++ [x]
        router := .rechecking m x true }
    | (t, false) => some { t with router := .rechecking m x false }
  | .rechecking m x delivered =>
    if delivered && (s.getClient m.connId).isSome then some { s with router := .idle }
    else some { s with router := .undoing m x }
  | .undoing m x =>
    some { s.removeSession x.id with router := .rejecting m x.id unknownDevice }
  | .rejecting m id reason =>
    let t := (s.sendTo m.connId ⟨.text (C.render (.sessionRejected id reason)), none⟩).1
    some { t with router := .idle }
  | .findingMember m id ends =>
    match s.findSession id with
    | some x =>
      match x.peerConn m.connId with
      | some peer => some { s with router := .passingOn m x peer ends }
      | none => some { s with router := .idle }
    | none => some { s with router := .idle }
  | .passingOn m x peer ends =>
    -- whether the peer could be reached makes no difference
    let t := (s.sendTo peer ⟨.text m.text, some (x, m.connId)⟩).1
    some { t with router := if ends then .ending m x else .idle }
  | .ending m x =>
    some { s.removeSession x.id with
      router := .idle
      endedByDevice :=
        if m.connId = x.deviceConn ∧ (s.findSession x.id).isSome then s.endedByDevice ++ [x]
        else s.endedByDevice }

/-- The writer task takes the next message; the peer gets it, or the task ends. -/
def write (c : Nat) (k : Connection τ) (ok : Bool) : Option (Relay τ) :=
  match k.writing, k.queue, ok with
  | true, d :: rest, true =>
    some (s.modifyConn c fun k => { k with queue := rest, received := k.received ++ [d] })
  | true, _ :: _, false => some (s.modifyConn c Connection.cut)
  | _, _, _ => none

/-- A task of `notify_closed` gets room in the queue, or gives up. -/
def notice (c : Nat) (k : Connection τ) (i : Nat) (ok : Bool) : Option (Relay τ) :=
  k.notices[i]?.bind fun id =>
    match ok with
    | true =>
      if k.hasRoom then
        some (s.modifyConn c fun k =>
          (k.unnote i).hand ⟨.text (C.render (.sessionClosed id)), none⟩)
      else none
    | false => some (s.modifyConn c (·.unnote i))

def step : RelayAction τ → Option (Relay τ)
  | .connect principal =>
    (accounts principal).map fun (org, kind) =>
      { s with conns := s.conns ++ [{ client := ⟨principal, org, kind⟩ }] }
  | .hangUp c =>
    s.conns[c]?.bind fun k =>
      if k.task = .serving ∧ (k.writing = false ∨ k.reader.hasEnded) then
        some (s.setTask c .closing)
      else none
  | .task c => s.conns[c]?.bind fun k => s.stepTask c k
  | .scan c x => s.conns[c]?.bind fun k => s.scan c k x
  | .write c ok => s.conns[c]?.bind fun k => s.write c k ok
  | .writerEnds c => s.conns[c]?.map fun _ => s.modifyConn c Connection.cut
  | .notice c i ok => s.conns[c]?.bind fun k => s.notice C c k i ok
  | .receive c message => s.conns[c]?.bind fun k => s.receive c k message
  | .reader c ok => s.conns[c]?.bind fun k => s.stepReader c k ok
  | .readerEnds c => s.conns[c]?.bind fun k => s.readerEnds c k
  | .route id => s.route C id
  | .count x => s.count x
  | .router => s.stepRouter C

def new : Relay τ := {}

end Relay

end RivetLink.Server
