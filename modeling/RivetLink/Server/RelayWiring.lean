import RivetLink.Server.RelayMoves

/-!
# Who is connected to whom

What the tasks of the relay carry from one access to the next stays true although the maps change
in between, because it is about things that never change once they are known: who a connection
belongs to, which sessions were created, and what a connection has said. These are the `Facts` of a
state; they only grow. `Wired` says that the state is in order with respect to its facts: messages
carry the client of their connection, a session joins a user and a device of one organisation, what
was delivered through a session came from its other end, and the tasks of a connection act on the
sessions and connections of its own organisation only. `Wired.step` shows that every step keeps it.
-/

namespace RivetLink.Server

open List Option RivetLink.Foundation RivetLink.Protocol

variable {τ : Type}

structure Facts (τ : Type) where
  clients : Nat → Option AuthOutcome
  created : List ActiveSession
  said : Nat → List (WsMessage τ)

namespace Facts

def org (F : Facts τ) (c : Nat) : Option Uuid := (F.clients c).map (·.orgId)

def kind (F : Facts τ) (c : Nat) : Option PrincipalKind := (F.clients c).map (·.kind)

/-- `G` knows all that `F` knows. -/
structure Le (F G : Facts τ) : Prop where
  clients : ∀ c a, F.clients c = some a → G.clients c = some a
  created : ∀ x ∈ F.created, x ∈ G.created
  said : ∀ c, ∀ m ∈ F.said c, m ∈ G.said c

variable {F G : Facts τ}

theorem Le.org (h : F.Le G) {c : Nat} {o : Uuid} (hc : F.org c = some o) : G.org c = some o := by
  obtain ⟨a, ha, rfl⟩ := map_eq_some_iff.1 hc
  simp [Facts.org, h.clients c a ha]

theorem Le.kind (h : F.Le G) {c : Nat} {p : PrincipalKind} (hc : F.kind c = some p) :
    G.kind c = some p := by
  obtain ⟨a, ha, rfl⟩ := map_eq_some_iff.1 hc
  simp [Facts.kind, h.clients c a ha]

/-- The organisation of a session that was created under this id. -/
def Holds (F : Facts τ) (o : Uuid) (id : Uuid) : Prop := ∃ x ∈ F.created, x.id = id ∧ x.orgId = o

theorem Le.holds (h : F.Le G) {o id : Uuid} (hid : F.Holds o id) : G.Holds o id := by
  obtain ⟨x, hx, hxid, hxo⟩ := hid
  exact ⟨x, h.created x hx, hxid, hxo⟩

end Facts

/-! ## What is in order -/

section Fits

variable (C : PacketCodec τ)

/-- The message was said by the connection it names. -/
structure SignalingMessage.Fits (F : Facts τ) (m : SignalingMessage τ) : Prop where
  client : F.clients m.connId = some m.client
  said : .text m.text ∈ F.said m.connId

/-- The message is a session request of a user. -/
structure SignalingMessage.Asks (F : Facts τ) (m : SignalingMessage τ) (q : SessionQuery) : Prop
    extends SignalingMessage.Fits F m where
  user : m.client.kind = .user
  asks : ∃ id, C.parse m.text = some (.sessionRequest q.deviceId q.clientPublicKey
    q.protocolVersion q.requestedCapability id)

/-- A session joins a user to the device of its organisation that the user asked for. -/
structure ActiveSession.Fits (F : Facts τ) (x : ActiveSession) : Prop where
  initiator : F.clients x.initiatorConn = some ⟨x.initiatorId, x.orgId, .user⟩
  device : F.clients x.deviceConn = some ⟨x.deviceId, x.orgId, .device⟩
  asked : ∃ t key version capability id, .text t ∈ F.said x.initiatorConn ∧
    C.parse t = some (.sessionRequest x.deviceId key version capability id)

/-- What was delivered to connection `c` through a session came from its other end. -/
def Delivery.Fits (F : Facts τ) (c : Nat) (d : Delivery τ) : Prop :=
  ∀ x sender, d.through = some (x, sender) →
    x ∈ F.created ∧ x.peerConn sender = some c ∧ d.message ∈ F.said sender

/-- The reader task of connection `c` of organisation `o`. -/
def ReaderPhase.Fits (F : Facts τ) (c : Nat) (o : Uuid) : ReaderPhase τ → Prop
  | .reading | .ended => True
  | .sending t => .text t ∈ F.said c
  | .findingTunnel frame _ => .binary frame ∈ F.said c
  | .findingPeer frame seen => .binary frame ∈ F.said c ∧ seen ∈ F.created
  | .findingClient frame x peer =>
    .binary frame ∈ F.said c ∧ x ∈ F.created ∧ x.peerConn c = some peer
  | .waiting frame x peer kind =>
    .binary frame ∈ F.said c ∧ x ∈ F.created ∧ x.peerConn c = some peer ∧ F.kind peer = some kind
  | .removing id peer kind => F.Holds o id ∧ F.org peer = some o ∧ F.kind peer = some kind
  | .notifying todo peer kind =>
    (∀ p ∈ todo, F.org p.2 = some o) ∧ F.org peer = some o ∧ F.kind peer = some kind
  | .dropping peer => F.org peer = some o ∧ F.kind peer = some .user

/-- The socket task of a connection of organisation `o`. -/
def TaskPhase.Fits (F : Facts τ) (o : Uuid) : TaskPhase → Prop
  | .scanning _ found => ∀ id ∈ found, F.Holds o id
  | .deleting ids removed =>
    (∀ id ∈ ids, F.Holds o id) ∧ ∀ x ∈ removed, x ∈ F.created ∧ x.orgId = o
  | .notifying todo => ∀ p ∈ todo, F.org p.2 = some o
  | _ => True

def RouterPhase.Fits (F : Facts τ) : RouterPhase τ → Prop
  | .idle => True
  | .findingDevice m q _ => m.Asks C F q
  | .checkingOrg m q _ d => m.Asks C F q ∧ ∃ o, F.clients d = some ⟨q.deviceId, o, .device⟩
  | .counting m q _ d _ _ _ =>
    m.Asks C F q ∧ F.clients d = some ⟨q.deviceId, m.client.orgId, .device⟩
  | .inserting m _ x => m.Fits F ∧ x.Fits C F ∧ x.initiatorConn = m.connId
  | .delivering m _ x | .rechecking m x _ | .undoing m x =>
    m.Fits F ∧ x ∈ F.created ∧ x.initiatorConn = m.connId
  | .rejecting m _ _ => m.Fits F
  | .findingMember m id ends => m.Fits F ∧ (ends = true → m.Ends C id)
  | .passingOn m x peer ends =>
    m.Fits F ∧ x ∈ F.created ∧ x.peerConn m.connId = some peer ∧ (ends = true → m.Ends C x.id)
  | .ending m x => m.Fits F ∧ x ∈ F.created ∧ (x.peerConn m.connId).isSome

/-- The id of the session that the router is about to create. -/
def RouterPhase.pending : RouterPhase τ → Option Uuid
  | .findingDevice _ _ id | .checkingOrg _ _ id _ | .counting _ _ id _ _ _ _ => some id
  | .inserting _ _ x => some x.id
  | _ => none

/-- The socket task waits for its socket, or has yet to take the connection from the map. -/
def TaskPhase.serves : TaskPhase → Bool
  | .serving | .closing => true
  | _ => false

structure Connection.Fits (F : Facts τ) (c : Nat) (k : Connection τ) : Prop where
  reader : k.reader.Fits F c k.client.orgId
  task : k.task.Fits F k.client.orgId
  handed : ∀ d ∈ k.handed, d.Fits F c
  queue : ∀ d ∈ k.queue, d ∈ k.handed
  received : ∀ d ∈ k.received, d ∈ k.handed
  live : k.registered = true → k.task.serves = true
  /-- Only users are dropped before their socket task drops them. -/
  device : k.client.kind = .device → k.task.serves = true → k.registered = true

end Fits

section Mono

variable {C : PacketCodec τ} {F G : Facts τ} (h : F.Le G)
include h

variable {m : SignalingMessage τ}

theorem SignalingMessage.Fits.mono (hm : m.Fits F) : m.Fits G :=
  ⟨h.clients _ _ hm.client, h.said _ _ hm.said⟩

theorem SignalingMessage.Asks.mono {q : SessionQuery} (hm : m.Asks C F q) : m.Asks C G q :=
  ⟨hm.toFits.mono h, hm.user, hm.asks⟩

theorem ActiveSession.Fits.mono {x : ActiveSession} (hx : x.Fits C F) : x.Fits C G := by
  obtain ⟨t, key, version, capability, id, ht, hp⟩ := hx.asked
  exact ⟨h.clients _ _ hx.initiator, h.clients _ _ hx.device,
    t, key, version, capability, id, h.said _ _ ht, hp⟩

variable {c : Nat}

theorem Delivery.Fits.mono {d : Delivery τ} (hd : d.Fits F c) : d.Fits G c := by
  intro x sender hx
  obtain ⟨hcreated, hpeer, hsaid⟩ := hd x sender hx
  exact ⟨h.created x hcreated, hpeer, h.said _ _ hsaid⟩

variable {o : Uuid}

theorem ReaderPhase.Fits.mono {p : ReaderPhase τ} (hp : p.Fits F c o) : p.Fits G c o := by
  cases p with
  | reading | ended => trivial
  | sending t | findingTunnel frame id => exact h.said _ _ hp
  | findingPeer frame seen => exact ⟨h.said _ _ hp.1, h.created _ hp.2⟩
  | findingClient frame x peer => exact ⟨h.said _ _ hp.1, h.created _ hp.2.1, hp.2.2⟩
  | waiting frame x peer kind =>
    exact ⟨h.said _ _ hp.1, h.created _ hp.2.1, hp.2.2.1, h.kind hp.2.2.2⟩
  | removing id peer kind => exact ⟨h.holds hp.1, h.org hp.2.1, h.kind hp.2.2⟩
  | notifying todo peer kind =>
    exact ⟨fun q hq => h.org (hp.1 q hq), h.org hp.2.1, h.kind hp.2.2⟩
  | dropping peer => exact ⟨h.org hp.1, h.kind hp.2⟩

theorem TaskPhase.Fits.mono {p : TaskPhase} (hp : p.Fits F o) : p.Fits G o := by
  cases p with
  | scanning todo found => exact fun id hid => h.holds (hp id hid)
  | deleting ids removed =>
    exact ⟨fun id hid => h.holds (hp.1 id hid),
      fun x hx => ⟨h.created x (hp.2 x hx).1, (hp.2 x hx).2⟩⟩
  | notifying todo => exact fun q hq => h.org (hp q hq)
  | _ => trivial

theorem RouterPhase.Fits.mono {p : RouterPhase τ} (hp : p.Fits C F) : p.Fits C G := by
  cases p with
  | idle => trivial
  | findingDevice m q id => exact SignalingMessage.Asks.mono h hp
  | checkingOrg m q id d =>
    obtain ⟨hm, o, hd⟩ := hp
    exact ⟨hm.mono h, o, h.clients _ _ hd⟩
  | counting m q id d todo byUser byDevice => exact ⟨hp.1.mono h, h.clients _ _ hp.2⟩
  | inserting m q x => exact ⟨hp.1.mono h, hp.2.1.mono h, hp.2.2⟩
  | rejecting m id reason => exact SignalingMessage.Fits.mono h hp
  | findingMember m id ends => exact ⟨hp.1.mono h, hp.2⟩
  | delivering m q x | rechecking m x delivered | undoing m x | passingOn m x peer ends
  | ending m x => exact ⟨hp.1.mono h, h.created _ hp.2.1, hp.2.2⟩

theorem Connection.Fits.mono {k : Connection τ} (hk : k.Fits F c) : k.Fits G c :=
  { hk with
    reader := hk.reader.mono h
    task := hk.task.mono h
    handed := fun d hd => (hk.handed d hd).mono h }

end Mono

variable {c : Nat} {F : Facts τ}

/-- A message that fits is put into the queue. -/
theorem Connection.Fits.hand {k : Connection τ} {d : Delivery τ} (hk : k.Fits F c)
    (hd : d.Fits F c) :
    (k.hand d).Fits F c := by
  refine { hk with handed := ?_, queue := ?_, received := ?_ }
  · intro e he
    obtain he | he := mem_append.1 he
    · exact hk.handed e he
    · exact mem_singleton.1 he ▸ hd
  · intro e he
    obtain he | he := mem_append.1 he
    · exact mem_append_left _ (hk.queue e he)
    · exact mem_append_right _ he
  · exact fun e he => mem_append_left _ (hk.received e he)

variable {x : ActiveSession}

theorem ActiveSession.joins_iff : x.joins c = true ↔ x.initiatorConn = c ∨ x.deviceConn = c := by
  simp [ActiveSession.joins]

/-- The two ends of a session are of its organisation. -/
theorem ActiveSession.Fits.org_of_joins {C : PacketCodec τ} (hx : x.Fits C F)
    (hc : x.joins c = true) : F.org c = some x.orgId := by
  obtain rfl | rfl := ActiveSession.joins_iff.1 hc
  · simp [Facts.org, hx.initiator]
  · simp [Facts.org, hx.device]

theorem ActiveSession.joins_of_peerConn {d : Nat} (h : x.peerConn c = some d) :
    x.joins c = true ∧ x.joins d = true := by
  unfold ActiveSession.peerConn at h
  split at h
  · simp_all [ActiveSession.joins]
  · split at h <;> simp_all [ActiveSession.joins]

namespace Relay

variable (C : PacketCodec τ) (accounts : Uuid → Option (Uuid × PrincipalKind))

def facts (s : Relay τ) : Facts τ where
  clients c := s.conns[c]?.map (·.client)
  created := s.created
  said c := (s.conns[c]?.map (·.said)).getD []

structure Wired (s : Relay τ) : Prop where
  accounts : ∀ c a, s.facts.clients c = some a → accounts a.principalId = some (a.orgId, a.kind)
  created : ∀ x ∈ s.created, x.Fits C s.facts
  unique : ∀ x ∈ s.created, ∀ y ∈ s.created, x.id = y.id → x = y
  sessions : ∀ x ∈ s.sessions, x ∈ s.created
  devices : ∀ u c, s.devices u = some c → ∃ o, s.facts.clients c = some ⟨u, o, .device⟩
  signaling : ∀ m ∈ s.signaling, m.Fits s.facts
  router : s.router.Fits C s.facts
  used : ∀ x ∈ s.created, x.id ∈ s.used.map (·.1)
  pending : ∀ id, s.router.pending = some id →
    id ∈ s.used.map (·.1) ∧ ∀ x ∈ s.created, x.id ≠ id
  conns : ∀ c (k : Connection τ), s.conns[c]? = some k → k.Fits s.facts c

section Lemmas

variable {s : Relay τ} {c d : Nat} {f : Connection τ → Connection τ} {k : Connection τ}

/-- A change of one connection that keeps who it is and what it said changes no facts. -/
theorem facts_modifyConn (hclient : ∀ k, (f k).client = k.client)
    (hsaid : ∀ k, (f k).said = k.said) : (s.modifyConn c f).facts = s.facts := by
  simp only [facts, map_modifyConn (·.client) hclient, map_modifyConn (·.said) hsaid]
  rfl

theorem le_modifyConn (hclient : ∀ k, (f k).client = k.client)
    (hsaid : ∀ k, ∀ m ∈ k.said, m ∈ (f k).said) : s.facts.Le (s.modifyConn c f).facts where
  clients d a ha := (map_modifyConn (·.client) hclient).trans ha
  created _ hx := hx
  said d m hm := by
    simp only [facts, conns_modifyConn] at hm ⊢
    cases hd : s.conns[d]? with
    | none => simp [hd] at hm
    | some k =>
      simp only [hd, map_some, getD_some] at hm
      split
      · exact hsaid k m hm
      · exact hm

theorem clients_of_getElem (hk : s.conns[c]? = some k) : s.facts.clients c = some k.client := by
  simp [facts, hk]

theorem org_of_getElem (hk : s.conns[c]? = some k) : s.facts.org c = some k.client.orgId := by
  simp [Facts.org, clients_of_getElem hk]

@[simp] theorem facts_setTask (p : TaskPhase) : (s.setTask c p).facts = s.facts :=
  facts_modifyConn (fun _ => rfl) fun _ => rfl

@[simp] theorem facts_setReader (p : ReaderPhase τ) : (s.setReader c p).facts = s.facts :=
  facts_modifyConn (fun _ => rfl) fun _ => rfl

@[simp] theorem facts_push (e : Delivery τ) : (s.push c e).facts = s.facts :=
  facts_modifyConn (fun _ => rfl) fun _ => rfl

@[simp] theorem facts_removeSession (id : Uuid) : (s.removeSession id).facts = s.facts := rfl

@[simp] theorem facts_notifyClosed (id : Uuid) : (s.notifyClosed id c).facts = s.facts := by
  rw [notifyClosed_eq]
  exact facts_modifyConn (fun k => by split <;> rfl) fun k => by split <;> rfl

@[simp] theorem facts_sendTo (c : Nat) (e : Delivery τ) : (s.sendTo c e).1.facts = s.facts := by
  rw [sendTo_fst]
  exact facts_modifyConn (fun k => by split <;> rfl) fun k => by split <;> rfl

/-- A frame that was said may be dealt with. -/
theorem onMessage_fits {message : WsMessage τ} (hm : message ∈ F.said c) (o : Uuid) :
    (ReaderPhase.onMessage message).Fits F c o := by
  cases message with
  | text t => exact hm
  | binary frame =>
    simp only [ReaderPhase.onMessage]
    split
    · trivial
    · split
      · exact hm
      · trivial

/-- A session that is created is one that was asked for. -/
theorem newSession_fits {C : PacketCodec τ} {m : SignalingMessage τ} {q : SessionQuery} (id : Uuid)
    (hm : m.Asks C s.facts q)
    (hd : s.facts.clients d = some ⟨q.deviceId, m.client.orgId, .device⟩) :
    (newSession m q id d).Fits C s.facts := by
  obtain ⟨sid, hq⟩ := hm.asks
  refine ⟨?_, hd, m.text, _, _, _, sid, hm.said, hq⟩
  rw [newSession, hm.client, ← hm.user]

end Lemmas

/-! ## The changes that steps are made of -/

namespace Wired

variable {C accounts} {s : Relay τ} (hw : Wired C accounts s)
include hw

variable {f : Connection τ → Connection τ}

/-- One connection changes, and may have said more than before. -/
theorem modify_of_le (hclient : ∀ k, (f k).client = k.client)
    (hsaid : ∀ k, ∀ m ∈ k.said, m ∈ (f k).said)
    (hfit : ∀ k, s.conns[c]? = some k → (f k).Fits (s.modifyConn c f).facts c) :
    Wired C accounts (s.modifyConn c f) := by
  have hle : s.facts.Le (s.modifyConn c f).facts := le_modifyConn hclient hsaid
  have hclients : (s.modifyConn c f).facts.clients = s.facts.clients :=
    funext fun d => map_modifyConn (·.client) hclient
  exact {
    accounts := hclients ▸ hw.accounts
    created := fun x hx => (hw.created x hx).mono hle
    unique := hw.unique
    sessions := hw.sessions
    devices := hclients ▸ hw.devices
    signaling := fun m hm => (hw.signaling m hm).mono hle
    router := hw.router.mono hle
    used := hw.used
    pending := hw.pending
    conns := by
      intro d k hk
      by_cases hd : c = d
      · subst hd
        rw [conns_modifyConn, if_pos rfl] at hk
        obtain ⟨k', hk', rfl⟩ := map_eq_some_iff.1 hk
        exact hfit k' hk'
      · exact (hw.conns d k (getElem_modifyConn_of_ne hd ▸ hk)).mono hle }

theorem modify (hclient : ∀ k, (f k).client = k.client) (hsaid : ∀ k, (f k).said = k.said)
    (hfit : ∀ k, s.conns[c]? = some k → (f k).Fits s.facts c) :
    Wired C accounts (s.modifyConn c f) :=
  hw.modify_of_le hclient (fun k _ hm => (hsaid k).symm ▸ hm) fun k hk =>
    (facts_modifyConn hclient hsaid).symm ▸ hfit k hk

theorem setReader {p : ReaderPhase τ} (hp : ∀ o, s.facts.org c = some o → p.Fits s.facts c o) :
    Wired C accounts (s.setReader c p) :=
  hw.modify (fun _ => rfl) (fun _ => rfl) fun k hk =>
    { hw.conns c k hk with reader := hp k.client.orgId (org_of_getElem hk) }

/-- A change of phase that is neither the start nor the end of serving. -/
theorem setTask {p : TaskPhase} (hp : ∀ o, s.facts.org c = some o → p.Fits s.facts o)
    (hserves : ∀ q, s.taskOf c = some q → q.serves = p.serves) :
    Wired C accounts (s.setTask c p) := by
  refine hw.modify (fun _ => rfl) (fun _ => rfl) fun k hk => ?_
  have hk' := hw.conns c k hk
  have hsame : k.task.serves = p.serves := hserves _ (taskOf_of_getElem hk)
  exact { hk' with
    task := hp k.client.orgId (org_of_getElem hk)
    live := fun hr => hsame ▸ hk'.live hr
    device := fun hkind hs => hk'.device hkind (hsame.trans hs) }

variable {d : Delivery τ}

theorem push (hd : d.Fits s.facts c) : Wired C accounts (s.push c d) :=
  hw.modify (fun _ => rfl) (fun _ => rfl) fun k hk => (hw.conns c k hk).hand hd

theorem sendTo (hd : d.Fits s.facts c) : Wired C accounts (s.sendTo c d).1 := by
  rw [sendTo_fst]
  refine hw.modify (fun k => by split <;> rfl) (fun k => by split <;> rfl) fun k hk => ?_
  split
  · exact (hw.conns c k hk).hand hd
  · exact hw.conns c k hk

theorem notifyClosed (id : Uuid) (c : Nat) : Wired C accounts (s.notifyClosed id c) := by
  rw [notifyClosed_eq]
  refine hw.modify (fun k => by split <;> rfl) (fun k => by split <;> rfl) fun k hk => ?_
  split
  · exact { hw.conns c k hk with }
  · exact hw.conns c k hk

theorem removeSession (id : Uuid) : Wired C accounts (s.removeSession id) :=
  { hw with sessions := fun x hx => hw.sessions x (mem_filter.1 hx).1 }

variable {p : RouterPhase τ}

theorem setRouter (hp : p.Fits C s.facts)
    (hpending : ∀ id, p.pending = some id → s.router.pending = some id) :
    Wired C accounts { s with router := p } :=
  { hw with router := hp, pending := fun id hid => hw.pending id (hpending id hid) }

variable {x : ActiveSession}

theorem eq_of_holds {o id : Uuid} (hid : s.facts.Holds o id) (hx : s.findSession id = some x) :
    x.orgId = o := by
  obtain ⟨y, hy, hyid, rfl⟩ := hid
  obtain ⟨hmem, hxid⟩ := mem_of_findSession hx
  rw [hw.unique x (hw.sessions x hmem) y hy (hxid.trans hyid.symm)]

theorem org_of_joins (hx : x ∈ s.created) (hc : x.joins c = true) : s.facts.org c = some x.orgId :=
  (hw.created x hx).org_of_joins hc

/-- The ends of a session are told of its end by tasks of their own organisation. -/
theorem org_of_mem_notices (hx : x ∈ s.created) {p : Uuid × Nat} (hp : p ∈ x.notices) :
    s.facts.org p.2 = some x.orgId := by
  refine hw.org_of_joins hx ?_
  simp only [ActiveSession.notices, mem_cons, not_mem_nil, or_false] at hp
  obtain rfl | rfl := hp <;> simp [ActiveSession.joins]

variable {c : Nat}

/-- The socket task moves on after the connection has left the map, or before it enters it. -/
theorem setTask_of_idle {p q : TaskPhase} (htask : s.taskOf c = some q) (hq : q.serves = false)
    (hp : p.serves = false) (hfits : ∀ o, s.facts.org c = some o → p.Fits s.facts o) :
    Wired C accounts (s.setTask c p) := by
  refine hw.setTask hfits fun q' hq' => ?_
  rw [htask, some.injEq] at hq'
  rw [← hq', hq, hp]

theorem register (c : Nat) : Wired C accounts (s.register c) :=
  hw.modify (fun _ => rfl) (fun _ => rfl) fun k hk =>
    { hw.conns c k hk with task := trivial, live := fun _ => rfl, device := fun _ _ => rfl }

theorem unregister (c : Nat) : Wired C accounts (s.unregister c) := by
  refine hw.modify (fun _ => rfl) (fun _ => rfl) fun k hk => ?_
  refine { hw.conns c k hk with
    task := ?_, live := fun hr => Bool.noConfusion hr, device := fun _ hs => ?_ }
  · dsimp only
    split <;> trivial
  · dsimp only at hs
    split at hs <;> cases hs

/-- Only a user is dropped. -/
theorem drop (huser : s.facts.kind c = some .user) : Wired C accounts (s.drop c) := by
  refine hw.modify (fun _ => rfl) (fun _ => rfl) fun k hk => ?_
  refine { hw.conns c k hk with live := fun hr => Bool.noConfusion hr, device := ?_ }
  intro hkind
  have hkind' : some k.client.kind = some PrincipalKind.user := by
    rw [← huser, Facts.kind, clients_of_getElem hk, map_some]
  rw [hkind] at hkind'
  cases hkind'

/-! ## Steps -/

variable {t : Relay τ} {k : Connection τ}

omit hw in
theorem orgId_eq (hk : s.conns[c]? = some k) {o : Uuid} (ho : s.facts.org c = some o) :
    k.client.orgId = o := by
  simpa [org_of_getElem hk] using ho

theorem stepTask (hk : s.conns[c]? = some k) (h : TaskMove s c k t) : Wired C accounts t := by
  have hfits := (hw.conns c k hk).task
  have htask : s.taskOf c = some k.task := taskOf_of_getElem hk
  cases h with
  | list hp hkind =>
    have hset := hw.setTask_of_idle (p := .listed) (hp ▸ htask) rfl rfl fun _ _ => trivial
    refine { hset with devices := ?_ }
    intro u e he
    simp only [Function.update_apply] at he
    split at he
    · rename_i hu
      cases he
      refine ⟨k.client.orgId, ?_⟩
      change (s.setTask c .listed).facts.clients c = _
      rw [facts_setTask, clients_of_getElem hk, hu, ← hkind]
    · exact hset.devices u e he
  | register hp => exact hw.register c
  | unregister hp => exact hw.unregister c
  | delist hp =>
    have hset := hw.setTask_of_idle (p := .collecting) (hp ▸ htask) rfl rfl fun _ _ => trivial
    refine { hset with devices := ?_ }
    intro u e he
    apply hset.devices u e
    dsimp only at he
    split at he
    · rw [Function.update_apply] at he
      obtain ⟨-, he⟩ := ite_none_left_eq_some.1 he
      exact he
    · exact he
  | collect hp =>
    exact hw.setTask_of_idle (hp ▸ htask) rfl rfl fun _ _ id hid => absurd hid not_mem_nil
  | scanned hp =>
    rw [hp] at hfits
    exact hw.setTask_of_idle (hp ▸ htask) rfl rfl fun o ho =>
      ⟨fun id hid => orgId_eq hk ho ▸ hfits id hid, fun x hx => by cases hx⟩
  | skip hp hx =>
    rw [hp] at hfits
    exact hw.setTask_of_idle (hp ▸ htask) rfl rfl fun o ho =>
      orgId_eq hk ho ▸ ⟨fun i hi => hfits.1 i (mem_cons_of_mem _ hi), hfits.2⟩
  | @delete id ids removed x hp hx =>
    rw [hp] at hfits
    refine (hw.removeSession id).setTask_of_idle (hp ▸ htask) rfl rfl fun o ho => ?_
    obtain rfl := orgId_eq hk ho
    refine ⟨fun i hi => hfits.1 i (mem_cons_of_mem _ hi), fun y hy => ?_⟩
    obtain hy | hy := mem_append.1 hy
    · exact hfits.2 y hy
    · rw [mem_singleton.1 hy]
      exact ⟨hw.sessions x (mem_of_findSession hx).1,
        hw.eq_of_holds (hfits.1 id mem_cons_self) hx⟩
  | deleted hp =>
    rw [hp] at hfits
    refine hw.setTask_of_idle (hp ▸ htask) rfl rfl fun o ho p hp => ?_
    obtain ⟨x, hx, hpx⟩ := mem_flatMap.1 hp
    rw [hw.org_of_mem_notices (hfits.2 x hx).1 hpx, (hfits.2 x hx).2, orgId_eq hk ho]
  | @notify id d rest hp =>
    rw [hp] at hfits
    have htask' : (s.notifyClosed id d).taskOf c = some (.notifying ((id, d) :: rest)) := by
      rw [taskOf_notifyClosed, htask, hp]
    refine (hw.notifyClosed id d).setTask_of_idle htask' rfl rfl fun o ho q hq => ?_
    rw [facts_notifyClosed] at ho ⊢
    exact orgId_eq hk ho ▸ hfits q (mem_cons_of_mem _ hq)
  | finish hp => exact hw.setTask_of_idle (hp ▸ htask) rfl rfl fun _ _ => trivial

theorem scan {todo : List ActiveSession} {found : List Uuid} (hk : s.conns[c]? = some k)
    (hp : k.task = .scanning todo found) :
    Wired C accounts (s.setTask c (.scanning (todo.filter (· ≠ x))
      (if x ∈ s.sessions ∧ x.joins c = true then found ++ [x.id] else found))) := by
  have hfits := (hw.conns c k hk).task
  rw [hp] at hfits
  refine hw.setTask_of_idle (hp ▸ taskOf_of_getElem hk) rfl rfl fun o ho id hid => ?_
  split at hid
  · rename_i hx
    obtain hid | hid := mem_append.1 hid
    · exact orgId_eq hk ho ▸ hfits id hid
    · have hxo := hw.org_of_joins (hw.sessions x hx.1) hx.2
      rw [ho, some.injEq] at hxo
      exact ⟨x, hw.sessions x hx.1, (mem_singleton.1 hid).symm, hxo.symm⟩
  · exact orgId_eq hk ho ▸ hfits id hid

variable {kind : PrincipalKind}

theorem afterNotices {peer : Nat} (hk : s.conns[c]? = some k)
    (horg : s.facts.org peer = some k.client.orgId) (hkind : s.facts.kind peer = some kind) :
    Wired C accounts (s.setReader c (.afterNotices peer kind)) := by
  refine hw.setReader fun o ho => ?_
  obtain rfl := orgId_eq hk ho
  cases kind with
  | user => exact ⟨horg, hkind⟩
  | device => trivial

theorem stepReader {ok : Bool} (hk : s.conns[c]? = some k) (h : ReaderMove s c k ok t) :
    Wired C accounts t := by
  have hfits := (hw.conns c k hk).reader
  -- back to the socket
  have hread : Wired C accounts (s.setReader c .reading) := hw.setReader fun _ _ => trivial
  cases h with
  | send hp hroom =>
    rw [hp] at hfits
    refine { hread with signaling := ?_ }
    intro m' hm'
    change m'.Fits (s.setReader c .reading).facts
    rw [facts_setReader]
    obtain hm' | hm' := mem_append.1 hm'
    · exact hw.signaling m' hm'
    · rw [mem_singleton.1 hm']
      exact ⟨clients_of_getElem hk, hfits⟩
  | noTunnel hp hx => exact hread
  | tunnel hp hx htunnel =>
    rw [hp] at hfits
    exact hw.setReader fun _ _ => ⟨hfits, hw.sessions _ (mem_of_findSession hx).1⟩
  | noPeer hp hx => exact hread
  | peer hp hx hpeer =>
    rw [hp] at hfits
    exact hw.setReader fun _ _ => ⟨hfits.1, hw.sessions _ (mem_of_findSession hx).1, hpeer⟩
  | noClient hp hclient => exact hread
  | client hp hclient =>
    rw [hp] at hfits
    refine hw.setReader fun _ _ => ⟨hfits.1, hfits.2.1, hfits.2.2, ?_⟩
    simp [Facts.kind, clients_of_getElem (getClient_eq_some.1 hclient).1]
  | deliver hp hok hroom =>
    rw [hp] at hfits
    refine (hw.push ?_).setReader fun _ _ => trivial
    intro y sender hy
    cases hy
    exact ⟨hfits.2.1, hfits.2.2.1, hfits.1⟩
  | giveUp hp hok =>
    rw [hp] at hfits
    obtain ⟨-, hcreated, hpeer, hkind⟩ := hfits
    refine hw.setReader fun o ho => ?_
    obtain ⟨hc, hd⟩ := ActiveSession.joins_of_peerConn hpeer
    have hxo := hw.org_of_joins hcreated hc
    rw [ho, some.injEq] at hxo
    exact ⟨⟨_, hcreated, rfl, hxo.symm⟩, hxo ▸ hw.org_of_joins hcreated hd, hkind⟩
  | @remove id peer kind x hp hx =>
    rw [hp] at hfits
    refine (hw.removeSession id).setReader fun o ho => ?_
    obtain rfl := orgId_eq hk ho
    refine ⟨fun p hp => ?_, hfits.2.1, hfits.2.2⟩
    have hcreated : x ∈ s.created := hw.sessions x (mem_of_findSession hx).1
    rw [facts_removeSession, hw.org_of_mem_notices hcreated hp, hw.eq_of_holds hfits.1 hx]
  | gone hp hx =>
    rw [hp] at hfits
    exact hw.afterNotices hk hfits.2.1 hfits.2.2
  | @notify id d peer rest kind hp =>
    rw [hp] at hfits
    refine (hw.notifyClosed id d).setReader fun o ho => ?_
    rw [facts_notifyClosed] at ho ⊢
    obtain rfl := orgId_eq hk ho
    exact ⟨fun q hq => hfits.1 q (mem_cons_of_mem _ hq), hfits.2.1, hfits.2.2⟩
  | notified hp =>
    rw [hp] at hfits
    exact hw.afterNotices hk hfits.2.1 hfits.2.2
  | drop hp =>
    rw [hp] at hfits
    exact (hw.drop hfits.2).setReader fun _ _ => trivial

/-- A frame arrives: what the connection has said grows. -/
theorem receive (message : WsMessage τ) :
    Wired C accounts (s.modifyConn c fun k =>
      { k with said := k.said ++ [message], reader := .onMessage message }) := by
  refine hw.modify_of_le (fun _ => rfl) (fun _ m hm => mem_append_left _ hm) fun k hk => ?_
  have hle := le_modifyConn (s := s) (c := c)
    (f := fun k => { k with said := k.said ++ [message], reader := .onMessage message })
    (fun _ => rfl) (fun _ m hm => mem_append_left _ hm)
  refine { (hw.conns c k hk).mono hle with reader := onMessage_fits ?_ _ }
  simp [facts, getElem_modifyConn_self hk]

theorem writerEnds : Wired C accounts (s.modifyConn c Connection.cut) :=
  hw.modify (fun _ => rfl) (fun _ => rfl) fun k hk =>
    { hw.conns c k hk with queue := nofun }

theorem write {e : Delivery τ} {rest : List (Delivery τ)} (hk : s.conns[c]? = some k)
    (hqueue : k.queue = e :: rest) :
    Wired C accounts
      (s.modifyConn c fun k => { k with queue := rest, received := k.received ++ [e] }) := by
  refine hw.modify (fun _ => rfl) (fun _ => rfl) fun k' hk' => ?_
  cases hk.symm.trans hk'
  have hkf := hw.conns c k hk
  refine { hkf with
    queue := fun e he => hkf.queue e (hqueue ▸ mem_cons_of_mem _ he), received := ?_ }
  intro d hd
  obtain hd | hd := mem_append.1 hd
  · exact hkf.received d hd
  · rw [mem_singleton.1 hd]
    exact hkf.queue e (hqueue ▸ mem_cons_self)

variable {rest : List (SignalingMessage τ)} {m : SignalingMessage τ}

/-- A message leaves the queue of the router. -/
theorem take (hsig : s.signaling = m :: rest) : Wired C accounts { s with signaling := rest } :=
  { hw with signaling := fun m' hm' => hw.signaling m' (hsig ▸ mem_cons_of_mem _ hm') }

variable {q : SessionQuery}

theorem ask {id : Uuid} (hsig : s.signaling = m :: rest)
    (hq : ∃ id', C.parse m.text = some (.sessionRequest q.deviceId q.clientPublicKey
      q.protocolVersion q.requestedCapability id')) (hid : id ∉ s.used.map (·.1)) :
    Wired C accounts { s with
      signaling := rest
      used := s.used ++ [(id, m.client.orgId)]
      router :=
        if m.client.kind = .user then .findingDevice m q id
        else .rejecting m id "only users can open sessions" } := by
  have hm : m.Fits s.facts := hw.signaling m (hsig ▸ mem_cons_self)
  have hused : id ∈ (s.used ++ [(id, m.client.orgId)]).map (·.1) := by simp
  refine { hw.take hsig with
    router := ?_
    used := fun x hx => ?_
    pending := fun id' hid' => ?_ }
  · dsimp only
    split
    · rename_i huser
      exact ⟨hm, huser, hq⟩
    · exact hm
  · rw [map_append]
    exact mem_append_left _ (hw.used x hx)
  · have hid'' : id = id' := by
      dsimp only at hid'
      split at hid'
      · simpa [RouterPhase.pending] using hid'
      · cases hid'
    subst hid''
    exact ⟨hused, fun x hx hxid => hid (hxid ▸ hw.used x hx)⟩

theorem insertSession (hr : s.router = .inserting m q x) :
    Wired C accounts { s with
      sessions := s.sessions ++ [x]
      created := s.created ++ [x]
      router := .delivering m q x } := by
  have hfit := hw.router
  rw [hr] at hfit
  obtain ⟨hm, hx, hconn⟩ := hfit
  obtain ⟨hused, hnew⟩ := hw.pending x.id (by rw [hr]; rfl)
  have hle : s.facts.Le { s.facts with created := s.created ++ [x] } :=
    ⟨fun _ _ h => h, fun _ h => mem_append_left _ h, fun _ _ h => h⟩
  have hmem : ∀ {y : ActiveSession}, y ∈ s.created ++ [x] → y ∈ s.created ∨ y = x := by
    simp
  exact {
    accounts := hw.accounts
    created := by
      intro y hy
      obtain hy | rfl := hmem hy
      · exact (hw.created y hy).mono hle
      · exact hx.mono hle
    unique := by
      intro y hy z hz hyz
      obtain hy | hyx := hmem hy <;> obtain hz | hzx := hmem hz
      · exact hw.unique y hy z hz hyz
      · exact absurd (hzx ▸ hyz) (hnew y hy)
      · exact absurd (hyx ▸ hyz.symm) (hnew z hz)
      · exact hyx.trans hzx.symm
    sessions := by
      intro y hy
      obtain hy | hy := mem_append.1 hy
      · exact mem_append_left _ (hw.sessions y hy)
      · exact mem_append_right _ hy
    devices := hw.devices
    signaling := fun m hm => (hw.signaling m hm).mono hle
    router := ⟨hm.mono hle, mem_append_right _ mem_cons_self, hconn⟩
    used := by
      intro y hy
      obtain hy | rfl := hmem hy
      · exact hw.used y hy
      · exact hused
    pending := nofun
    conns := fun c k hk => (hw.conns c k hk).mono hle }

/-- The router turns to a phase in which no session is about to be created. -/
theorem setRouter_of_none (hp : p.Fits C s.facts) (hnone : p.pending = none) :
    Wired C accounts { s with router := p } :=
  hw.setRouter hp fun id hid => by rw [hnone] at hid; cases hid

theorem stepRouter (h : RouterMove C s t) : Wired C accounts t := by
  have hfits := hw.router
  cases h with
  | offline hr hd =>
    rw [hr] at hfits
    exact hw.setRouter_of_none hfits.toFits rfl
  | online hr hd =>
    rw [hr] at hfits
    exact hw.setRouter ⟨hfits, hw.devices _ _ hd⟩ fun _ hp => by rw [hr]; exact hp
  | foreign hr horg =>
    rw [hr] at hfits
    exact hw.setRouter_of_none hfits.1.toFits rfl
  | known hr horg =>
    rw [hr] at hfits
    obtain ⟨hm, o, hd⟩ := hfits
    refine hw.setRouter ⟨hm, ?_⟩ fun _ hp => by rw [hr]; exact hp
    obtain ⟨k, hk, hko⟩ := any_eq_true _ _ |>.1 horg
    have hkd := clients_of_getElem (getClient_eq_some.1 hk).1
    rw [hd, some.injEq] at hkd
    rw [hd, ← of_decide_eq_true hko, ← hkd]
  | tooMany hr hmax | busy hr huser hmax =>
    rw [hr] at hfits
    exact hw.setRouter_of_none hfits.1.toFits rfl
  | accept hr huser hdevice =>
    rw [hr] at hfits
    exact hw.setRouter ⟨hfits.1.toFits, newSession_fits _ hfits.1 hfits.2, rfl⟩
      fun _ hp => by rw [hr]; exact hp
  | insert hr => exact hw.insertSession hr
  | @deliver m q x hr hroom =>
    rw [hr] at hfits
    have hsent : Wired C accounts
        (s.push x.deviceConn ⟨.text (C.render (q.enriched x.id)), none⟩) :=
      hw.push fun y sender hy => by cases hy
    refine { hsent with router := ?_, pending := nofun }
    change RouterPhase.Fits C (s.push x.deviceConn _).facts _
    rw [facts_push]
    exact hfits
  | undelivered hr hroom =>
    rw [hr] at hfits
    exact hw.setRouter_of_none hfits rfl
  | keep hr hclient => exact hw.setRouter_of_none trivial rfl
  | withdraw hr hclient =>
    rw [hr] at hfits
    exact hw.setRouter_of_none hfits rfl
  | undo hr =>
    rw [hr] at hfits
    exact (hw.removeSession _).setRouter_of_none hfits.1 rfl
  | @reject m id reason hr =>
    have hsent : Wired C accounts
        (s.sendTo m.connId ⟨.text (C.render (.sessionRejected id reason)), none⟩).1 :=
      hw.sendTo fun x sender hx => by cases hx
    exact hsent.setRouter_of_none trivial rfl
  | noMember hr hx => exact hw.setRouter_of_none trivial rfl
  | member hr hx hpeer =>
    rw [hr] at hfits
    obtain ⟨hmem, rfl⟩ := mem_of_findSession hx
    exact hw.setRouter_of_none ⟨hfits.1, hw.sessions _ hmem, hpeer, hfits.2⟩ rfl
  | @passOn m x peer ends hr =>
    rw [hr] at hfits
    obtain ⟨hm, hx, hpeer, hends⟩ := hfits
    have hd : Delivery.Fits s.facts peer ⟨.text m.text, some (x, m.connId)⟩ := by
      intro y sender hy
      cases hy
      exact ⟨hx, hpeer, hm.said⟩
    refine (hw.sendTo hd).setRouter_of_none ?_ ?_
    · rw [facts_sendTo]
      split
      · exact ⟨hm, hx, by rw [hpeer]; rfl⟩
      · trivial
    · split <;> rfl
  | @finish m x hr =>
    have hidle : Wired C accounts { s.removeSession x.id with router := .idle } :=
      (hw.removeSession x.id).setRouter_of_none trivial rfl
    exact { hidle with }

/-- A connection is authenticated: who is connected grows. -/
theorem connect {principal org : Uuid} (h : accounts principal = some (org, kind)) :
    Wired C accounts { s with conns := s.conns ++ [{ client := ⟨principal, org, kind⟩ }] } := by
  have hold : ∀ {d : Nat} {k : Connection τ}, s.conns[d]? = some k →
      (s.conns ++ [{ client := ⟨principal, org, kind⟩ }])[d]? = some k := by
    intro d k hk
    rw [getElem?_append_left (lt_of_slot hk), hk]
  have hle : s.facts.Le
      ({ s with conns := s.conns ++ [{ client := ⟨principal, org, kind⟩ }] } : Relay τ).facts := by
    refine ⟨fun d a ha => ?_, fun x hx => hx, fun d m hm => ?_⟩
    · obtain ⟨k, hk, rfl⟩ := map_eq_some_iff.1 ha
      exact clients_of_getElem (hold hk)
    · cases hd : s.conns[d]? with
      | none => simp [facts, hd] at hm
      | some k =>
        simp only [facts, hd, map_some, getD_some] at hm
        simp only [facts, hold hd, map_some, getD_some]
        exact hm
  -- a connection of the new list is an old one, or the new one
  have hcases : ∀ {d : Nat} {k : Connection τ},
      (s.conns ++ [{ client := ⟨principal, org, kind⟩ }])[d]? = some k →
        s.conns[d]? = some k ∨ k = { client := ⟨principal, org, kind⟩ } := by
    intro d k hk
    rw [getElem?_append] at hk
    split at hk
    · exact .inl hk
    · exact .inr (mem_singleton.1 (mem_of_getElem? hk))
  exact {
    accounts := by
      intro d a ha
      obtain ⟨k, hk, rfl⟩ := map_eq_some_iff.1 ha
      obtain hk | rfl := hcases hk
      · exact hw.accounts d k.client (clients_of_getElem hk)
      · exact h
    created := fun x hx => (hw.created x hx).mono hle
    unique := hw.unique
    sessions := hw.sessions
    devices := by
      intro u d hd
      obtain ⟨o, ho⟩ := hw.devices u d hd
      exact ⟨o, hle.clients _ _ ho⟩
    signaling := fun m hm => (hw.signaling m hm).mono hle
    router := hw.router.mono hle
    used := hw.used
    pending := hw.pending
    conns := by
      intro d k hk
      obtain hk | rfl := hcases hk
      · exact (hw.conns d k hk).mono hle
      · exact {
          reader := trivial
          task := trivial
          handed := nofun
          queue := nofun
          received := nofun
          live := nofun
          device := nofun } }

/-- Every step leaves the state in order. -/
theorem step {a : RelayAction τ} (h : s.step C accounts a = some t) : Wired C accounts t := by
  cases step_iff.1 h with
  | connect ha => exact hw.connect ha
  | hangUp hk hp hdone =>
    refine hw.setTask (fun _ _ => trivial) fun q hq => ?_
    rw [taskOf_of_getElem hk, hp, some.injEq] at hq
    rw [← hq]
    rfl
  | task hk hmove => exact hw.stepTask hk hmove
  | scan hk hp hx => exact hw.scan hk hp
  | write hk hwriting hqueue => exact hw.write hk hqueue
  | fail hk hwriting hqueue | writerEnds hk => exact hw.writerEnds
  | tell hk hid hroom =>
    exact hw.modify (fun _ => rfl) (fun _ => rfl) fun k hk =>
      Connection.Fits.hand { hw.conns _ k hk with } fun x sender hx => by cases hx
  | untold hk hid =>
    exact hw.modify (fun _ => rfl) (fun _ => rfl) fun k hk => { hw.conns _ k hk with }
  | receive hk hr hbegun => exact hw.receive _
  | reader hk hmove => exact hw.stepReader hk hmove
  | readerEnds hk hr => exact hw.setReader fun _ _ => trivial
  | ignore hidle hsig hd => exact hw.take hsig
  | message hidle hsig hends hd =>
    have hm := hw.signaling _ (hsig ▸ mem_cons_self)
    exact (hw.take hsig).setRouter ⟨hm, hends⟩ nofun
  | ask hidle hsig hq hd hid => exact hw.ask hsig hq hid
  | count hr hx =>
    have hfit := hw.router
    rw [hr] at hfit
    exact hw.setRouter hfit fun id hid => by rw [hr]; exact hid
  | router hmove => exact hw.stepRouter hmove

end Wired

theorem Wired.new : Wired C accounts (Relay.new : Relay τ) where
  accounts _ _ h := by cases h
  created _ h := by cases h
  unique _ h := by cases h
  sessions _ h := by cases h
  devices _ _ h := by cases h
  signaling _ h := by cases h
  router := trivial
  used _ h := by cases h
  pending _ h := by cases h
  conns _ _ h := by cases h

/-- Every state that a run reaches is in order. -/
theorem wired_of_run {acts : List (RelayAction τ)} {s : Relay τ}
    (hrun : runFrom (step C accounts) new acts = some s) : Wired C accounts s :=
  invariant_of_step (fun _ _ _ hw h => hw.step h) (Wired.new C accounts) hrun

end Relay

end RivetLink.Server
