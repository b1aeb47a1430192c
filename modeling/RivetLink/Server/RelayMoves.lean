import RivetLink.Server.Relay

/-!
# The moves of the tasks

The steps of the socket task, the reader task and the router, one constructor for each way in which
they can go, and with them the steps of the relay (`StepMove`). `stepTask_iff`, `stepReader_iff`,
`stepRouter_iff` and `step_iff` say that these are the steps of the model; proofs about steps go by
cases on the moves.
-/

namespace RivetLink.Server

open List Option RivetLink.Foundation RivetLink.Protocol

def SignalingMessage.Ends {τ : Type} (C : PacketCodec τ) (m : SignalingMessage τ) (id : Uuid) :
    Prop :=
  ∃ p, C.parse m.text = some p ∧ p.endsSession id = true

/-- The reader task waits for its socket or for room in a queue. -/
def ReaderPhase.awaits {τ : Type} : ReaderPhase τ → Bool
  | .reading | .sending _ | .waiting _ _ _ _ => true
  | _ => false

/-- The socket task has put its connection into the map. -/
def TaskPhase.begun : TaskPhase → Bool
  | .opening | .listed => false
  | _ => true

/-- The connection was in the map and is no longer. -/
def Connection.Left {τ : Type} (k : Connection τ) : Prop :=
  k.registered = false ∧ k.task.begun = true

/-- The connection of the device for which the router is about to create a session. -/
def RouterPhase.target {τ : Type} : RouterPhase τ → Option Nat
  | .counting _ _ _ d _ _ _ => some d
  | .inserting _ _ x => some x.deviceConn
  | _ => none

/-- The socket task of connection `c` has put it into the map. -/
def Relay.Begun {τ : Type} (s : Relay τ) (c : Nat) : Prop :=
  ∃ k, s.conns[c]? = some k ∧ k.task.begun = true

namespace Relay

variable {τ : Type} {C : PacketCodec τ} {s t : Relay τ} {c : Nat} {k : Connection τ} {ok : Bool}

section Lemmas

variable {d : Nat} {f : Connection τ → Connection τ} {x : ActiveSession}

theorem conns_modifyConn :
    (s.modifyConn c f).conns[d]? = if c = d then s.conns[d]?.map f else s.conns[d]? := by
  simp only [modifyConn, getElem?_modify]
  split <;> simp

theorem getElem_modifyConn_self (hk : s.conns[c]? = some k) :
    (s.modifyConn c f).conns[c]? = some (f k) := by
  simp [conns_modifyConn, hk]

theorem getElem_modifyConn_of_ne (hne : c ≠ d) : (s.modifyConn c f).conns[d]? = s.conns[d]? := by
  simp [conns_modifyConn, hne]

/-- A field that `f` keeps is read as before. -/
theorem map_modifyConn {β : Type} (g : Connection τ → β) (hg : ∀ k, g (f k) = g k) :
    (s.modifyConn c f).conns[d]?.map g = s.conns[d]?.map g := by
  rw [conns_modifyConn]
  split <;> simp [Function.comp_def, hg]

theorem modifyConn_congr {g : Connection τ → Connection τ}
    (h : ∀ k, s.conns[c]? = some k → f k = g k) : s.modifyConn c f = s.modifyConn c g := by
  have hconns : s.conns.modify c f = s.conns.modify c g := by
    refine ext_getElem? fun d => ?_
    rw [getElem?_modify, getElem?_modify]
    cases hd : s.conns[d]? with
    | none => simp
    | some k =>
      by_cases hcd : c = d
      · subst hcd
        simp [h k hd]
      · simp [hcd]
  simp only [modifyConn, hconns]

theorem modifyConn_eq_self (h : ∀ k, s.conns[c]? = some k → f k = k) : s.modifyConn c f = s := by
  rw [modifyConn_congr (g := id) h, modifyConn, modify_id]

theorem mem_of_findSession {id : Uuid} (h : s.findSession id = some x) :
    x ∈ s.sessions ∧ x.id = id := by
  refine ⟨mem_of_find?_eq_some h, ?_⟩
  simpa using find?_some h

theorem findSession_ne_none (hx : x ∈ s.sessions) : s.findSession x.id ≠ none := by
  intro hnone
  have hne := find?_eq_none.1 hnone x hx
  simp at hne

theorem getClient_eq_some : s.getClient c = some k ↔ s.conns[c]? = some k ∧ k.registered = true :=
  filter_eq_some_iff

/-- Whether a message can be queued is up to the connection it is for. -/
theorem any_hasRoom_getClient (hk : s.conns[c]? = some k) :
    (s.getClient c).any Connection.hasRoom = (k.registered && k.hasRoom) := by
  cases hr : k.registered <;> simp [getClient, hk, hr]

theorem isSome_getClient (hk : s.conns[c]? = some k) : (s.getClient c).isSome = k.registered := by
  cases hr : k.registered <;> simp [getClient, hk, hr]

theorem sendTo_fst (e : Delivery τ) :
    (s.sendTo c e).1 =
      s.modifyConn c fun k => if k.registered && k.hasRoom then k.hand e else k := by
  unfold sendTo
  split
  · rename_i h
    refine modifyConn_congr fun k hk => ?_
    rw [any_hasRoom_getClient hk] at h
    rw [if_pos h]
  · rename_i h
    refine (modifyConn_eq_self fun k hk => ?_).symm
    rw [any_hasRoom_getClient hk] at h
    rw [if_neg h]

theorem notifyClosed_eq (id : Uuid) :
    s.notifyClosed id c = s.modifyConn c fun k => if k.registered then k.note id else k := by
  unfold notifyClosed
  split
  · rename_i h
    refine modifyConn_congr fun k hk => ?_
    rw [isSome_getClient hk] at h
    rw [if_pos h]
  · rename_i h
    refine (modifyConn_eq_self fun k hk => ?_).symm
    rw [isSome_getClient hk] at h
    rw [if_neg h]

/-- The phase of the socket task of a connection. -/
def taskOf (s : Relay τ) (c : Nat) : Option TaskPhase := s.conns[c]?.map (·.task)

theorem taskOf_of_getElem (hk : s.conns[c]? = some k) : s.taskOf c = some k.task := by
  simp [taskOf, hk]

theorem taskOf_setTask {p : TaskPhase} :
    (s.setTask c p).taskOf d = if c = d then (s.taskOf d).map (fun _ => p) else s.taskOf d := by
  simp only [taskOf, setTask, conns_modifyConn]
  split
  · simp [Function.comp_def]
  · rfl

@[simp] theorem taskOf_setReader (p : ReaderPhase τ) : (s.setReader c p).taskOf d = s.taskOf d :=
  map_modifyConn (·.task) fun _ => rfl

@[simp] theorem taskOf_push (e : Delivery τ) : (s.push c e).taskOf d = s.taskOf d :=
  map_modifyConn (·.task) fun _ => rfl

@[simp] theorem taskOf_sendTo (e : Delivery τ) : (s.sendTo c e).1.taskOf d = s.taskOf d := by
  rw [sendTo_fst]
  exact map_modifyConn (·.task) fun k => by split <;> rfl

@[simp] theorem taskOf_notifyClosed (id : Uuid) : (s.notifyClosed id c).taskOf d = s.taskOf d := by
  rw [notifyClosed_eq]
  exact map_modifyConn (·.task) fun k => by split <;> rfl

end Lemmas

inductive TaskMove (s : Relay τ) (c : Nat) (k : Connection τ) : Relay τ → Prop
  | list (hp : k.task = .opening) (hkind : k.client.kind = .device) :
      TaskMove s c k { s.setTask c .listed with
        devices := Function.update s.devices k.client.principalId (some c) }
  | register (hp : k.task = .opening ∧ k.client.kind = .user ∨ k.task = .listed) :
      TaskMove s c k (s.register c)
  | unregister (hp : k.task = .closing) : TaskMove s c k (s.unregister c)
  | delist (hp : k.task = .delisting) :
      TaskMove s c k { s.setTask c .collecting with
        devices :=
          if s.devices k.client.principalId = some c then
            Function.update s.devices k.client.principalId none
          else s.devices }
  | collect (hp : k.task = .collecting) : TaskMove s c k (s.setTask c (.scanning s.sessions []))
  | scanned {found : List Uuid} (hp : k.task = .scanning [] found) :
      TaskMove s c k (s.setTask c (.deleting found []))
  | skip {id : Uuid} {ids : List Uuid} {removed : List ActiveSession}
      (hp : k.task = .deleting (id :: ids) removed) (hx : s.findSession id = none) :
      TaskMove s c k (s.setTask c (.deleting ids removed))
  | delete {id : Uuid} {ids : List Uuid} {removed : List ActiveSession} {x : ActiveSession}
      (hp : k.task = .deleting (id :: ids) removed) (hx : s.findSession id = some x) :
      TaskMove s c k ((s.removeSession id).setTask c (.deleting ids (removed ++ [x])))
  | deleted {removed : List ActiveSession} (hp : k.task = .deleting [] removed) :
      TaskMove s c k (s.setTask c (.notifying (removed.flatMap ActiveSession.notices)))
  | notify {id : Uuid} {d : Nat} {rest : List (Uuid × Nat)}
      (hp : k.task = .notifying ((id, d) :: rest)) :
      TaskMove s c k ((s.notifyClosed id d).setTask c (.notifying rest))
  | finish (hp : k.task = .notifying []) : TaskMove s c k (s.setTask c .done)

theorem stepTask_iff : s.stepTask c k = some t ↔ TaskMove s c k t := by
  constructor
  · intro h
    unfold stepTask at h
    cases hp : k.task with
    | opening =>
      cases hkind : k.client.kind with
      | device =>
        simp only [hp, hkind, some.injEq] at h
        exact h ▸ .list hp hkind
      | user =>
        simp only [hp, hkind, some.injEq] at h
        exact h ▸ .register (.inl ⟨hp, hkind⟩)
    | listed =>
      simp only [hp, some.injEq] at h
      exact h ▸ .register (.inr hp)
    | serving => simp [hp] at h
    | closing =>
      simp only [hp, some.injEq] at h
      exact h ▸ .unregister hp
    | delisting =>
      simp only [hp, some.injEq] at h
      exact h ▸ .delist hp
    | collecting =>
      simp only [hp, some.injEq] at h
      exact h ▸ .collect hp
    | scanning todo found =>
      cases todo with
      | nil =>
        simp only [hp, some.injEq] at h
        exact h ▸ .scanned hp
      | cons x todo => simp [hp] at h
    | deleting ids removed =>
      cases ids with
      | nil =>
        simp only [hp, some.injEq] at h
        exact h ▸ .deleted hp
      | cons id ids =>
        cases hx : s.findSession id with
        | none =>
          simp only [hp, hx, some.injEq] at h
          exact h ▸ .skip hp hx
        | some x =>
          simp only [hp, hx, some.injEq] at h
          exact h ▸ .delete hp hx
    | notifying todo =>
      cases todo with
      | nil =>
        simp only [hp, some.injEq] at h
        exact h ▸ .finish hp
      | cons p rest =>
        simp only [hp, some.injEq] at h
        exact h ▸ .notify hp
    | done => simp [hp] at h
  · intro h
    cases h with
    | list hp hkind => simp [stepTask, hp, hkind]
    | register hp =>
      obtain ⟨hp, hkind⟩ | hp := hp
      · simp [stepTask, hp, hkind]
      · simp [stepTask, hp]
    | unregister hp => simp [stepTask, hp]
    | skip hp hx | delete hp hx => simp [stepTask, hp, hx]
    | _ hp => simp [stepTask, hp]

inductive ReaderMove (s : Relay τ) (c : Nat) (k : Connection τ) (ok : Bool) : Relay τ → Prop
  | send {m : τ} (hp : k.reader = .sending m) (hroom : s.signaling.length < signalingQueue) :
      ReaderMove s c k ok { s.setReader c .reading with
        signaling := s.signaling ++ [⟨c, k.client, m⟩] }
  | noTunnel {frame : Bytes} {id : Uuid} (hp : k.reader = .findingTunnel frame id)
      (hx : ∀ x, s.findSession id = some x → x.tunnel = false) :
      ReaderMove s c k ok (s.setReader c .reading)
  | tunnel {frame : Bytes} {id : Uuid} {x : ActiveSession}
      (hp : k.reader = .findingTunnel frame id) (hx : s.findSession id = some x)
      (htunnel : x.tunnel = true) :
      ReaderMove s c k ok (s.setReader c (.findingPeer frame x))
  | noPeer {frame : Bytes} {seen : ActiveSession} (hp : k.reader = .findingPeer frame seen)
      (hx : ∀ x, s.findSession seen.id = some x → x.peerConn c = none) :
      ReaderMove s c k ok (s.setReader c .reading)
  | peer {frame : Bytes} {seen x : ActiveSession} {peer : Nat}
      (hp : k.reader = .findingPeer frame seen) (hx : s.findSession seen.id = some x)
      (hpeer : x.peerConn c = some peer) :
      ReaderMove s c k ok (s.setReader c (.findingClient frame x peer))
  | noClient {frame : Bytes} {x : ActiveSession} {peer : Nat}
      (hp : k.reader = .findingClient frame x peer) (hclient : s.getClient peer = none) :
      ReaderMove s c k ok (s.setReader c .reading)
  | client {frame : Bytes} {x : ActiveSession} {peer : Nat} {k' : Connection τ}
      (hp : k.reader = .findingClient frame x peer) (hclient : s.getClient peer = some k') :
      ReaderMove s c k ok (s.setReader c (.waiting frame x peer k'.client.kind))
  | deliver {frame : Bytes} {x : ActiveSession} {peer : Nat} {kind : PrincipalKind}
      (hp : k.reader = .waiting frame x peer kind) (hok : ok = true)
      (hroom : s.conns[peer]?.any Connection.hasRoom = true) :
      ReaderMove s c k ok ((s.push peer ⟨.binary frame, some (x, c)⟩).setReader c .reading)
  | giveUp {frame : Bytes} {x : ActiveSession} {peer : Nat} {kind : PrincipalKind}
      (hp : k.reader = .waiting frame x peer kind) (hok : ok = false) :
      ReaderMove s c k ok (s.setReader c (.removing x.id peer kind))
  | remove {id : Uuid} {peer : Nat} {kind : PrincipalKind} {x : ActiveSession}
      (hp : k.reader = .removing id peer kind) (hx : s.findSession id = some x) :
      ReaderMove s c k ok ((s.removeSession id).setReader c (.notifying x.notices peer kind))
  | gone {id : Uuid} {peer : Nat} {kind : PrincipalKind}
      (hp : k.reader = .removing id peer kind) (hx : s.findSession id = none) :
      ReaderMove s c k ok (s.setReader c (.afterNotices peer kind))
  | notify {id : Uuid} {d peer : Nat} {rest : List (Uuid × Nat)} {kind : PrincipalKind}
      (hp : k.reader = .notifying ((id, d) :: rest) peer kind) :
      ReaderMove s c k ok ((s.notifyClosed id d).setReader c (.notifying rest peer kind))
  | notified {peer : Nat} {kind : PrincipalKind} (hp : k.reader = .notifying [] peer kind) :
      ReaderMove s c k ok (s.setReader c (.afterNotices peer kind))
  | drop {peer : Nat} (hp : k.reader = .dropping peer) :
      ReaderMove s c k ok ((s.drop peer).setReader c .reading)

theorem stepReader_iff : s.stepReader c k ok = some t ↔ ReaderMove s c k ok t := by
  constructor
  · intro h
    unfold stepReader at h
    cases hp : k.reader with
    | reading => simp [hp] at h
    | sending m =>
      simp only [hp] at h
      split at h <;> cases h
      exact .send hp ‹_›
    | findingTunnel frame id =>
      cases hx : s.findSession id with
      | none =>
        simp only [hp, hx, some.injEq] at h
        exact h ▸ .noTunnel hp (by simp [hx])
      | some x =>
        simp only [hp, hx, some.injEq] at h
        split at h
        · exact h ▸ .tunnel hp hx ‹_›
        · rename_i htunnel
          exact h ▸ .noTunnel hp (by simpa [hx] using htunnel)
    | findingPeer frame seen =>
      cases hx : s.findSession seen.id with
      | none =>
        simp only [hp, hx, some.injEq] at h
        exact h ▸ .noPeer hp (by simp [hx])
      | some x =>
        cases hpeer : x.peerConn c with
        | none =>
          simp only [hp, hx, hpeer, some.injEq] at h
          exact h ▸ .noPeer hp (by simpa [hx] using hpeer)
        | some peer =>
          simp only [hp, hx, hpeer, some.injEq] at h
          exact h ▸ .peer hp hx hpeer
    | findingClient frame x peer =>
      cases hclient : s.getClient peer with
      | none =>
        simp only [hp, hclient, some.injEq] at h
        exact h ▸ .noClient hp hclient
      | some k' =>
        simp only [hp, hclient, some.injEq] at h
        exact h ▸ .client hp hclient
    | waiting frame x peer kind =>
      cases ok with
      | true =>
        simp only [hp] at h
        split at h <;> cases h
        exact .deliver hp rfl ‹_›
      | false =>
        simp only [hp, some.injEq] at h
        exact h ▸ .giveUp hp rfl
    | removing id peer kind =>
      cases hx : s.findSession id with
      | none =>
        simp only [hp, hx, some.injEq] at h
        exact h ▸ .gone hp hx
      | some x =>
        simp only [hp, hx, some.injEq] at h
        exact h ▸ .remove hp hx
    | notifying todo peer kind =>
      cases todo with
      | nil =>
        simp only [hp, some.injEq] at h
        exact h ▸ .notified hp
      | cons p rest =>
        simp only [hp, some.injEq] at h
        exact h ▸ .notify hp
    | dropping peer =>
      simp only [hp, some.injEq] at h
      exact h ▸ .drop hp
    | ended => simp [hp] at h
  · intro h
    cases h with
    | send hp hroom => simp [stepReader, hp, hroom]
    | @noTunnel frame id hp hx =>
      cases hfind : s.findSession id with
      | none => simp [stepReader, hp, hfind]
      | some x => simp [stepReader, hp, hfind, hx x hfind]
    | tunnel hp hx htunnel => simp [stepReader, hp, hx, htunnel]
    | @noPeer frame seen hp hx =>
      cases hfind : s.findSession seen.id with
      | none => simp [stepReader, hp, hfind]
      | some x => simp [stepReader, hp, hfind, hx x hfind]
    | peer hp hx hpeer => simp [stepReader, hp, hx, hpeer]
    | noClient hp hclient | client hp hclient => simp [stepReader, hp, hclient]
    | deliver hp hok hroom => simp [stepReader, hp, hok, hroom]
    | giveUp hp hok => simp [stepReader, hp, hok]
    | remove hp hx | gone hp hx => simp [stepReader, hp, hx]
    | notify hp | notified hp | drop hp => simp [stepReader, hp]

inductive RouterMove (C : PacketCodec τ) (s : Relay τ) : Relay τ → Prop
  | offline {m : SignalingMessage τ} {q : SessionQuery} {id : Uuid}
      (hr : s.router = .findingDevice m q id) (hd : s.devices q.deviceId = none) :
      RouterMove C s { s with router := .rejecting m id unknownDevice }
  | online {m : SignalingMessage τ} {q : SessionQuery} {id : Uuid} {d : Nat}
      (hr : s.router = .findingDevice m q id) (hd : s.devices q.deviceId = some d) :
      RouterMove C s { s with router := .checkingOrg m q id d }
  | foreign {m : SignalingMessage τ} {q : SessionQuery} {id : Uuid} {d : Nat}
      (hr : s.router = .checkingOrg m q id d)
      (horg : (s.getClient d).any (·.client.orgId = m.client.orgId) = false) :
      RouterMove C s { s with router := .rejecting m id unknownDevice }
  | known {m : SignalingMessage τ} {q : SessionQuery} {id : Uuid} {d : Nat}
      (hr : s.router = .checkingOrg m q id d)
      (horg : (s.getClient d).any (·.client.orgId = m.client.orgId) = true) :
      RouterMove C s { s with router := .counting m q id d s.sessions 0 0 }
  | tooMany {m : SignalingMessage τ} {q : SessionQuery} {id : Uuid} {d byUser byDevice : Nat}
      (hr : s.router = .counting m q id d [] byUser byDevice) (hmax : maxSessionsPerUser ≤ byUser) :
      RouterMove C s { s with
        router := .rejecting m id "too many open sessions for this account" }
  | busy {m : SignalingMessage τ} {q : SessionQuery} {id : Uuid} {d byUser byDevice : Nat}
      (hr : s.router = .counting m q id d [] byUser byDevice)
      (huser : byUser < maxSessionsPerUser) (hmax : maxSessionsPerDevice ≤ byDevice) :
      RouterMove C s { s with router := .rejecting m id "device is busy" }
  | accept {m : SignalingMessage τ} {q : SessionQuery} {id : Uuid} {d byUser byDevice : Nat}
      (hr : s.router = .counting m q id d [] byUser byDevice)
      (huser : byUser < maxSessionsPerUser) (hdevice : byDevice < maxSessionsPerDevice) :
      RouterMove C s { s with router := .inserting m q (newSession m q id d) }
  | insert {m : SignalingMessage τ} {q : SessionQuery} {x : ActiveSession}
      (hr : s.router = .inserting m q x) :
      RouterMove C s { s with
        sessions := s.sessions ++ [x]
        created := s.created ++ [x]
        router := .delivering m q x }
  | deliver {m : SignalingMessage τ} {q : SessionQuery} {x : ActiveSession}
      (hr : s.router = .delivering m q x)
      (hroom : (s.getClient x.deviceConn).any Connection.hasRoom = true) :
      RouterMove C s { s.push x.deviceConn ⟨.text (C.render (q.enriched x.id)), none⟩ with
        delivered := s.delivered ++ [x]
        router := .rechecking m x true }
  | undelivered {m : SignalingMessage τ} {q : SessionQuery} {x : ActiveSession}
      (hr : s.router = .delivering m q x)
      (hroom : (s.getClient x.deviceConn).any Connection.hasRoom = false) :
      RouterMove C s { s with router := .rechecking m x false }
  | keep {m : SignalingMessage τ} {x : ActiveSession}
      (hr : s.router = .rechecking m x true) (hclient : (s.getClient m.connId).isSome = true) :
      RouterMove C s { s with router := .idle }
  | withdraw {m : SignalingMessage τ} {x : ActiveSession} {delivered : Bool}
      (hr : s.router = .rechecking m x delivered)
      (hclient : (delivered && (s.getClient m.connId).isSome) = false) :
      RouterMove C s { s with router := .undoing m x }
  | undo {m : SignalingMessage τ} {x : ActiveSession} (hr : s.router = .undoing m x) :
      RouterMove C s { s.removeSession x.id with router := .rejecting m x.id unknownDevice }
  | reject {m : SignalingMessage τ} {id : Uuid} {reason : String}
      (hr : s.router = .rejecting m id reason) :
      RouterMove C s { (s.sendTo m.connId
        ⟨.text (C.render (.sessionRejected id reason)), none⟩).1 with router := .idle }
  | noMember {m : SignalingMessage τ} {id : Uuid} {ends : Bool}
      (hr : s.router = .findingMember m id ends)
      (hx : ∀ x, s.findSession id = some x → x.peerConn m.connId = none) :
      RouterMove C s { s with router := .idle }
  | member {m : SignalingMessage τ} {id : Uuid} {ends : Bool} {x : ActiveSession} {peer : Nat}
      (hr : s.router = .findingMember m id ends) (hx : s.findSession id = some x)
      (hpeer : x.peerConn m.connId = some peer) :
      RouterMove C s { s with router := .passingOn m x peer ends }
  | passOn {m : SignalingMessage τ} {x : ActiveSession} {peer : Nat} {ends : Bool}
      (hr : s.router = .passingOn m x peer ends) :
      RouterMove C s { (s.sendTo peer ⟨.text m.text, some (x, m.connId)⟩).1 with
        router := if ends then .ending m x else .idle }
  | finish {m : SignalingMessage τ} {x : ActiveSession} (hr : s.router = .ending m x) :
      RouterMove C s { s.removeSession x.id with
        router := .idle
        endedByDevice :=
          if m.connId = x.deviceConn ∧ (s.findSession x.id).isSome then s.endedByDevice ++ [x]
          else s.endedByDevice }

theorem stepRouter_iff : s.stepRouter C = some t ↔ RouterMove C s t := by
  constructor
  · intro h
    unfold stepRouter at h
    cases hr : s.router with
    | idle => simp [hr] at h
    | findingDevice m q id =>
      cases hd : s.devices q.deviceId with
      | none =>
        simp only [hr, hd, some.injEq] at h
        exact h ▸ .offline hr hd
      | some d =>
        simp only [hr, hd, some.injEq] at h
        exact h ▸ .online hr hd
    | checkingOrg m q id d =>
      simp only [hr] at h
      split at h
      · cases h
        exact .known hr ‹_›
      · cases h
        exact .foreign hr (Bool.eq_false_of_not_eq_true ‹_›)
    | counting m q id d todo byUser byDevice =>
      cases todo with
      | cons x todo => simp [hr] at h
      | nil =>
        simp only [hr] at h
        split at h
        · cases h
          exact .tooMany hr ‹_›
        · rename_i huser
          split at h
          · cases h
            exact .busy hr (Nat.lt_of_not_le huser) ‹_›
          · rename_i hdevice
            cases h
            exact .accept hr (Nat.lt_of_not_le huser) (Nat.lt_of_not_le hdevice)
    | inserting m q x =>
      simp only [hr, some.injEq] at h
      exact h ▸ .insert hr
    | delivering m q x =>
      simp only [hr, sendTo] at h
      split at h
      · rename_i heq
        split at heq <;> cases heq
        cases h
        exact .deliver hr ‹_›
      · rename_i heq
        split at heq <;> cases heq
        cases h
        exact .undelivered hr (Bool.eq_false_of_not_eq_true ‹_›)
    | rechecking m x delivered =>
      simp only [hr] at h
      split at h
      · rename_i hkeep
        cases h
        obtain ⟨rfl, hclient⟩ := Bool.and_eq_true_iff.1 hkeep
        exact .keep hr hclient
      · cases h
        exact .withdraw hr (Bool.eq_false_of_not_eq_true ‹_›)
    | undoing m x =>
      simp only [hr, some.injEq] at h
      exact h ▸ .undo hr
    | rejecting m id reason =>
      simp only [hr, some.injEq] at h
      exact h ▸ .reject hr
    | findingMember m id ends =>
      cases hx : s.findSession id with
      | none =>
        simp only [hr, hx, some.injEq] at h
        exact h ▸ .noMember hr (by simp [hx])
      | some x =>
        cases hpeer : x.peerConn m.connId with
        | none =>
          simp only [hr, hx, hpeer, some.injEq] at h
          exact h ▸ .noMember hr (by simpa [hx] using hpeer)
        | some peer =>
          simp only [hr, hx, hpeer, some.injEq] at h
          exact h ▸ .member hr hx hpeer
    | passingOn m x peer ends =>
      simp only [hr, some.injEq] at h
      exact h ▸ .passOn hr
    | ending m x =>
      simp only [hr, some.injEq] at h
      exact h ▸ .finish hr
  · intro h
    cases h with
    | offline hr hd | online hr hd => simp [stepRouter, hr, hd]
    | foreign hr horg | known hr horg => simp [stepRouter, hr, horg]
    | tooMany hr hmax => simp [stepRouter, hr, hmax]
    | busy hr huser hmax => simp [stepRouter, hr, Nat.not_le_of_lt huser, hmax]
    | accept hr huser hdevice =>
      simp [stepRouter, hr, Nat.not_le_of_lt huser, Nat.not_le_of_lt hdevice]
    | insert hr => simp [stepRouter, hr]
    | deliver hr hroom | undelivered hr hroom => simp [stepRouter, hr, sendTo, hroom]
    | keep hr hclient | withdraw hr hclient => simp [stepRouter, hr, hclient]
    | undo hr | reject hr => simp [stepRouter, hr]
    | @noMember m id ends hr hx =>
      cases hfind : s.findSession id with
      | none => simp [stepRouter, hr, hfind]
      | some x => simp [stepRouter, hr, hfind, hx x hfind]
    | member hr hx hpeer => simp [stepRouter, hr, hx, hpeer]
    | passOn hr | finish hr => simp [stepRouter, hr]

/-! ## Steps -/

/-- A message is ignored, or it is for a session, or it asks for one. -/
theorem dispatch_cases (C : PacketCodec τ) (m : SignalingMessage τ) (id : Uuid) :
    dispatch C m id = (.idle, false) ∨
      (∃ id' ends, (ends = true → m.Ends C id') ∧
        dispatch C m id = (.findingMember m id' ends, false)) ∨
      ∃ q : SessionQuery,
        (∃ id', C.parse m.text = some (.sessionRequest q.deviceId q.clientPublicKey
          q.protocolVersion q.requestedCapability id')) ∧
        dispatch C m id =
          (if m.client.kind = .user then .findingDevice m q id
            else .rejecting m id "only users can open sessions", true) := by
  unfold dispatch
  cases hp : C.parse m.text with
  | none => exact .inl rfl
  | some packet =>
    cases packet with
    | sessionRequest deviceId key version capability sid =>
      exact .inr (.inr ⟨⟨deviceId, key, version, capability⟩, ⟨sid, rfl⟩, rfl⟩)
    | sessionRejected x reason | sessionClosed x =>
      exact .inr (.inl ⟨x, true, fun _ => ⟨_, hp, by simp [SignalPacket.endsSession]⟩, rfl⟩)
    | heartbeat => exact .inl rfl
    | _ => exact .inr (.inl ⟨_, false, fun he => Bool.noConfusion he, rfl⟩)

/-- A message that is passed on in a session is a packet for it. -/
theorem member_of_dispatch {m : SignalingMessage τ} {id id' : Uuid} {ends fresh : Bool}
    (h : dispatch C m id = (.findingMember m id' ends, fresh)) :
    ∃ p, C.parse m.text = some p ∧ p.member = some id' := by
  unfold dispatch at h
  cases hp : C.parse m.text with
  | none =>
    rw [hp] at h
    cases h
  | some packet =>
    rw [hp] at h
    cases packet with
    | sessionRequest deviceId key version capability sid =>
      dsimp only at h
      split at h <;> cases h
    | heartbeat => cases h
    | _ =>
      cases h
      exact ⟨_, rfl, rfl⟩

/-- What a step does. A session that has left the table meanwhile is not found by a scan and does
not count. The reader task is only aborted where it waits, once the socket task has gone on. -/
inductive StepMove (C : PacketCodec τ) (accounts : Uuid → Option (Uuid × PrincipalKind))
    (s : Relay τ) : RelayAction τ → Relay τ → Prop
  | connect {principal org : Uuid} {kind : PrincipalKind}
      (ha : accounts principal = some (org, kind)) :
      StepMove C accounts s (.connect principal)
        { s with conns := s.conns ++ [{ client := ⟨principal, org, kind⟩ }] }
  | hangUp {c : Nat} {k : Connection τ} (hk : s.conns[c]? = some k) (hp : k.task = .serving)
      (hdone : k.writing = false ∨ k.reader.hasEnded = true) :
      StepMove C accounts s (.hangUp c) (s.setTask c .closing)
  | task {c : Nat} {k : Connection τ} {t : Relay τ} (hk : s.conns[c]? = some k)
      (hmove : TaskMove s c k t) : StepMove C accounts s (.task c) t
  | scan {c : Nat} {k : Connection τ} {x : ActiveSession} {todo : List ActiveSession}
      {found : List Uuid} (hk : s.conns[c]? = some k) (hp : k.task = .scanning todo found)
      (hx : x ∈ s.sessions ∨ x ∈ todo) :
      StepMove C accounts s (.scan c x) (s.setTask c (.scanning (todo.filter (· ≠ x))
        (if x ∈ s.sessions ∧ x.joins c = true then found ++ [x.id] else found)))
  | write {c : Nat} {k : Connection τ} {e : Delivery τ} {rest : List (Delivery τ)}
      (hk : s.conns[c]? = some k) (hwriting : k.writing = true) (hqueue : k.queue = e :: rest) :
      StepMove C accounts s (.write c true)
        (s.modifyConn c fun k => { k with queue := rest, received := k.received ++ [e] })
  | fail {c : Nat} {k : Connection τ} {e : Delivery τ} {rest : List (Delivery τ)}
      (hk : s.conns[c]? = some k) (hwriting : k.writing = true) (hqueue : k.queue = e :: rest) :
      StepMove C accounts s (.write c false) (s.modifyConn c Connection.cut)
  | writerEnds {c : Nat} {k : Connection τ} (hk : s.conns[c]? = some k) :
      StepMove C accounts s (.writerEnds c) (s.modifyConn c Connection.cut)
  | tell {c i : Nat} {k : Connection τ} {id : Uuid} (hk : s.conns[c]? = some k)
      (hid : k.notices[i]? = some id) (hroom : k.hasRoom = true) :
      StepMove C accounts s (.notice c i true) (s.modifyConn c fun k =>
        (k.unnote i).hand ⟨.text (C.render (.sessionClosed id)), none⟩)
  | untold {c i : Nat} {k : Connection τ} {id : Uuid} (hk : s.conns[c]? = some k)
      (hid : k.notices[i]? = some id) :
      StepMove C accounts s (.notice c i false) (s.modifyConn c (·.unnote i))
  | receive {c : Nat} {k : Connection τ} {message : WsMessage τ} (hk : s.conns[c]? = some k)
      (hr : k.reader = .reading) (hbegun : k.task.begun = true) :
      StepMove C accounts s (.receive c message) (s.modifyConn c fun k =>
        { k with said := k.said ++ [message], reader := .onMessage message })
  | reader {c : Nat} {k : Connection τ} {ok : Bool} {t : Relay τ} (hk : s.conns[c]? = some k)
      (hmove : ReaderMove s c k ok t) : StepMove C accounts s (.reader c ok) t
  | readerEnds {c : Nat} {k : Connection τ} (hk : s.conns[c]? = some k)
      (hr : k.reader = .reading ∨ k.reader.awaits = true ∧ k.task ≠ .serving) :
      StepMove C accounts s (.readerEnds c) (s.setReader c .ended)
  | ignore {id : Uuid} {m : SignalingMessage τ} {rest : List (SignalingMessage τ)}
      (hidle : s.router = .idle) (hsig : s.signaling = m :: rest)
      (hd : dispatch C m id = (.idle, false)) :
      StepMove C accounts s (.route id) { s with signaling := rest }
  | message {id id' : Uuid} {m : SignalingMessage τ} {rest : List (SignalingMessage τ)}
      {ends : Bool}
      (hidle : s.router = .idle) (hsig : s.signaling = m :: rest)
      (hends : ends = true → m.Ends C id')
      (hd : dispatch C m id = (.findingMember m id' ends, false)) :
      StepMove C accounts s (.route id)
        { s with signaling := rest, router := .findingMember m id' ends }
  | ask {id : Uuid} {m : SignalingMessage τ} {rest : List (SignalingMessage τ)} {q : SessionQuery}
      (hidle : s.router = .idle) (hsig : s.signaling = m :: rest)
      (hq : ∃ id', C.parse m.text = some (.sessionRequest q.deviceId q.clientPublicKey
        q.protocolVersion q.requestedCapability id'))
      (hd : dispatch C m id =
        (if m.client.kind = .user then .findingDevice m q id
          else .rejecting m id "only users can open sessions", true))
      (hid : id ∉ s.used.map (·.1)) :
      StepMove C accounts s (.route id) { s with
        signaling := rest
        used := s.used ++ [(id, m.client.orgId)]
        router :=
          if m.client.kind = .user then .findingDevice m q id
          else .rejecting m id "only users can open sessions" }
  | count {x : ActiveSession} {m : SignalingMessage τ} {q : SessionQuery} {id : Uuid} {d : Nat}
      {todo : List ActiveSession} {byUser byDevice : Nat}
      (hr : s.router = .counting m q id d todo byUser byDevice) (hx : x ∈ todo) :
      StepMove C accounts s (.count x) { s with
        router := .counting m q id d (todo.filter (· ≠ x))
          (byUser + if x ∈ s.sessions ∧ x.initiatorId = m.client.principalId then 1 else 0)
          (byDevice + if x ∈ s.sessions ∧ x.deviceId = q.deviceId then 1 else 0) }
  | router {t : Relay τ} (hmove : RouterMove C s t) : StepMove C accounts s .router t

variable {accounts : Uuid → Option (Uuid × PrincipalKind)} {a : RelayAction τ} {x : ActiveSession}

theorem StepMove.of_scan (hk : s.conns[c]? = some k) (h : s.scan c k x = some t) :
    StepMove C accounts s (.scan c x) t := by
  unfold Relay.scan at h
  split at h
  · rename_i todo found hp
    split at h
    · rename_i hmem
      cases h
      have hmove : StepMove C accounts s (.scan c x) _ := .scan hk hp (.inl hmem)
      simpa only [hmem, true_and] using hmove
    · rename_i hmem
      obtain ⟨hx, ⟨⟩⟩ := ite_none_right_eq_some.1 h
      have hmove : StepMove C accounts s (.scan c x) _ := .scan hk hp (.inr hx)
      simpa only [hmem, false_and, if_false] using hmove
  · cases h

theorem StepMove.of_notice {i : Nat} (hk : s.conns[c]? = some k)
    (h : s.notice C c k i ok = some t) :
    StepMove C accounts s (.notice c i ok) t := by
  obtain ⟨id, hid, h⟩ := bind_eq_some_iff.1 h
  cases ok with
  | true =>
    dsimp only at h
    split at h <;> cases h
    exact .tell hk hid ‹_›
  | false =>
    cases h
    exact .untold hk hid

theorem StepMove.of_receive {message : WsMessage τ} (hk : s.conns[c]? = some k)
    (h : s.receive c k message = some t) : StepMove C accounts s (.receive c message) t := by
  unfold Relay.receive at h
  split at h
  · cases h
  · cases h
  · rename_i hr hopening hlisted
    cases h
    refine .receive hk hr ?_
    cases hp : k.task with
    | opening => exact absurd hp hopening
    | listed => exact absurd hp hlisted
    | _ => rfl
  · cases h

theorem StepMove.of_readerEnds (hk : s.conns[c]? = some k) (h : s.readerEnds c k = some t) :
    StepMove C accounts s (.readerEnds c) t := by
  unfold Relay.readerEnds at h
  split at h
  · cases h
    exact .readerEnds hk (.inl ‹_›)
  · split at h <;> cases h
    exact .readerEnds hk (.inr ⟨by simp [*, ReaderPhase.awaits], ‹_›⟩)
  · split at h <;> cases h
    exact .readerEnds hk (.inr ⟨by simp [*, ReaderPhase.awaits], ‹_›⟩)
  · cases h

theorem StepMove.of_route {id : Uuid} (h : s.route C id = some t) :
    StepMove C accounts s (.route id) t := by
  unfold Relay.route at h
  split at h
  · rename_i m rest hidle hsig
    obtain hd | ⟨id', ends, hends, hd⟩ | ⟨q, hq, hd⟩ := dispatch_cases C m id
    · simp only [hd, some.injEq, ← hidle] at h
      exact h ▸ .ignore hidle hsig hd
    · simp only [hd, some.injEq] at h
      exact h ▸ .message hidle hsig hends hd
    · simp only [hd] at h
      split at h <;> cases h
      exact .ask hidle hsig hq hd ‹_›
  · cases h

theorem StepMove.of_count (h : s.count x = some t) : StepMove C accounts s (.count x) t := by
  unfold Relay.count at h
  split at h
  · rename_i m q id d todo byUser byDevice hr
    obtain ⟨hx, h⟩ := ite_none_right_eq_some.1 h
    have hmove : StepMove C accounts s (.count x) _ := .count hr hx
    split at h
    · rename_i hmem
      cases h
      simpa only [hmem, true_and] using hmove
    · rename_i hmem
      cases h
      simpa only [hmem, false_and, if_false, Nat.add_zero] using hmove
  · cases h

theorem step_iff : s.step C accounts a = some t ↔ StepMove C accounts s a t := by
  constructor
  · intro h
    cases a with
    | connect principal =>
      obtain ⟨⟨org, kind⟩, ha, rfl⟩ := map_eq_some_iff.1 h
      exact .connect ha
    | writerEnds c =>
      obtain ⟨k, hk, rfl⟩ := map_eq_some_iff.1 h
      exact .writerEnds hk
    | route id => exact .of_route h
    | count x => exact .of_count h
    | router => exact .router (stepRouter_iff.1 h)
    | hangUp c =>
      obtain ⟨k, hk, h⟩ := bind_eq_some_iff.1 h
      obtain ⟨hp, ⟨⟩⟩ := ite_none_right_eq_some.1 h
      exact .hangUp hk hp.1 hp.2
    | task c =>
      obtain ⟨k, hk, h⟩ := bind_eq_some_iff.1 h
      exact .task hk (stepTask_iff.1 h)
    | scan c x =>
      obtain ⟨k, hk, h⟩ := bind_eq_some_iff.1 h
      exact .of_scan hk h
    | write c ok =>
      obtain ⟨k, hk, h⟩ := bind_eq_some_iff.1 h
      unfold Relay.write at h
      split at h
      · cases h
        exact .write hk ‹_› ‹_›
      · cases h
        exact .fail hk ‹_› ‹_›
      · cases h
    | notice c i ok =>
      obtain ⟨k, hk, h⟩ := bind_eq_some_iff.1 h
      exact .of_notice hk h
    | receive c message =>
      obtain ⟨k, hk, h⟩ := bind_eq_some_iff.1 h
      exact .of_receive hk h
    | reader c ok =>
      obtain ⟨k, hk, h⟩ := bind_eq_some_iff.1 h
      exact .reader hk (stepReader_iff.1 h)
    | readerEnds c =>
      obtain ⟨k, hk, h⟩ := bind_eq_some_iff.1 h
      exact .of_readerEnds hk h
  · intro h
    cases h with
    | connect ha => simp [step, ha]
    | hangUp hk hp hdone => simp [step, hk, hp, hdone]
    | task hk hmove => simp [step, hk, stepTask_iff.2 hmove]
    | @scan c k x todo found hk hp hx =>
      by_cases hmem : x ∈ s.sessions
      · simp [step, hk, Relay.scan, hp, hmem]
      · simp [step, hk, Relay.scan, hp, hmem, hx.resolve_left hmem]
    | write hk hwriting hqueue => simp [step, hk, Relay.write, hwriting, hqueue]
    | fail hk hwriting hqueue => simp [step, hk, Relay.write, hwriting, hqueue]
    | writerEnds hk => simp [step, hk]
    | tell hk hid hroom => simp [step, hk, Relay.notice, hid, hroom]
    | untold hk hid => simp [step, hk, Relay.notice, hid]
    | @receive c k message hk hr hbegun =>
      cases hp : k.task with
      | opening | listed =>
        rw [hp] at hbegun
        cases hbegun
      | _ => simp [step, hk, Relay.receive, hr, hp]
    | reader hk hmove => simp [step, hk, stepReader_iff.2 hmove]
    | @readerEnds c k hk hr =>
      obtain hr | ⟨hawaits, hp⟩ := hr
      · simp [step, hk, Relay.readerEnds, hr]
      · cases hr : k.reader <;> simp [hr, ReaderPhase.awaits] at hawaits <;>
          simp [step, hk, Relay.readerEnds, hr, hp]
    | ignore hidle hsig hd => simp only [step, Relay.route, hidle, hsig, hd]
    | message hidle hsig hends hd => simp [step, Relay.route, hidle, hsig, hd]
    | ask hidle hsig hq hd hid => simp only [step, Relay.route, hidle, hsig, hd, if_neg hid]
    | @count x m q id d todo byUser byDevice hr hx =>
      by_cases hmem : x ∈ s.sessions
      · simp [step, Relay.count, hr, hx, hmem]
      · simp [step, Relay.count, hr, hx, hmem]
    | router hmove => exact stepRouter_iff.2 hmove

end Relay

end RivetLink.Server
