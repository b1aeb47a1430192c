import RivetLink.Foundation.Fifo
import RivetLink.Protocol.TunnelFrames
import RivetLink.Server.RelayDeliveries

/-!
# What the relay delivers

The messages that a socket receives are an initial part of those that were queued for it. A message
that was queued came through a session, and then it carries the id of this session, or it is the
relay's own: a session request with a fresh id for a device, a rejection or a notice. A device is
asked for each of its sessions at most once.
-/

namespace RivetLink.Server

open List Option RivetLink.Foundation RivetLink.Protocol

variable {τ : Type}

/-- A frame in the hands of the reader carries the id of the session that the reader looked up. -/
def ReaderPhase.Tagged : ReaderPhase τ → Prop
  | .findingTunnel frame id => Tags id frame
  | .findingPeer frame seen => Tags seen.id frame
  | .findingClient frame x _ | .waiting frame x _ _ => Tags x.id frame
  | _ => True

/-- A packet that the relay makes itself. -/
def ofRelay : SignalPacket → Bool
  | .sessionRequest _ _ _ _ _ | .sessionRejected _ _ | .sessionClosed _ => true
  | _ => false

/-- A message carries the id of the session it came through, or is the relay's own. -/
def Delivery.Tagged (C : PacketCodec τ) (d : Delivery τ) : Prop :=
  match d.through, d.message with
  | some (x, _), .binary frame => Tags x.id frame
  | some (x, _), .text t => ∃ p, C.parse t = some p ∧ p.member = some x.id
  | none, .text t => ∃ p, C.parse t = some p ∧ ofRelay p = true
  | none, .binary _ => False

/-- The message is a session request of a client that asks for a tunnel, or for something else. -/
def AsksFor (C : PacketCodec τ) (tunnel : Bool) (t : τ) : Prop :=
  ∃ deviceId key version capability id,
    C.parse t = some (.sessionRequest deviceId key version capability id) ∧
      tunnel = decide (version = relayTunnelVersion)

/-- The router acts on packets for the session that it looked up, and remembers what kind of session
was asked for. -/
def RouterPhase.Tagged (C : PacketCodec τ) : RouterPhase τ → Prop
  | .findingMember m id _ => ∃ p, C.parse m.text = some p ∧ p.member = some id
  | .passingOn m x _ _ => ∃ p, C.parse m.text = some p ∧ p.member = some x.id
  | .inserting m q x =>
    x.tunnel = decide (q.protocolVersion = relayTunnelVersion) ∧ AsksFor C x.tunnel m.text
  | .delivering _ q x => x.tunnel = decide (q.protocolVersion = relayTunnelVersion)
  | _ => True

namespace Relay

variable {C : PacketCodec τ} {accounts : Uuid → Option (Uuid × PrincipalKind)} {s t : Relay τ}
  {a : RelayAction τ} {c d : Nat} {k k' : Connection τ} {e : Delivery τ} {x : ActiveSession}
  {q : SessionQuery}

/-! ## Sockets -/

/-- What a socket receives is an initial part of what was queued for it. -/
def Flows (s : Relay τ) : Prop :=
  ∀ (c : Nat) (k : Connection τ), s.conns[c]? = some k →
    Passes k.handed k.received k.queue (k.writing = true)

theorem Flows.step (hf : s.Flows) (h : s.step C accounts a = some t) : t.Flows := by
  intro c k' hk'
  obtain ⟨k, hk, hmoves⟩ | ⟨-, client, -, rfl⟩ := conn_before h hk'
  · have hflow := hf c k hk
    cases hmoves.queue with
    | stay hwriting hqueue hhanded hreceived =>
      rw [hwriting, hqueue, hhanded, hreceived]
      exact hflow
    | hand ho hwriting hbefore hqueue hhanded hreceived =>
      rw [hqueue, hhanded, hreceived]
      exact (hflow.take _).mono fun _ => hbefore
    | @write d hwriting hbefore hqueue hhanded hreceived =>
      rw [hhanded, hreceived]
      rw [hqueue, ← singleton_append] at hflow
      exact (hflow.give hbefore).mono fun _ => hbefore
    | cut hwriting hhanded hreceived =>
      rw [hhanded, hreceived]
      exact hflow.stop (by rw [hwriting]; exact Bool.false_ne_true) _
  · exact .nil _

/-! ## Tags -/

/-- What is under way carries the id of its session. -/
structure Tagged (C : PacketCodec τ) (s : Relay τ) : Prop where
  readers : ∀ (c : Nat) (k : Connection τ), s.conns[c]? = some k → k.reader.Tagged
  router : s.router.Tagged C
  handed : ∀ (c : Nat) (k : Connection τ), s.conns[c]? = some k → ∀ d ∈ k.handed, d.Tagged C

theorem tagged_onMessage (message : WsMessage τ) : (ReaderPhase.onMessage message).Tagged := by
  cases message with
  | text m => trivial
  | binary frame =>
    unfold ReaderPhase.onMessage
    dsimp only
    split
    · trivial
    · rename_i hsize
      split
      · rename_i id hid
        refine ⟨tunnelSized_iff.2 ?_, fromSlice_eq_some hid⟩
        rw [sessionIdLen] at hsize
        omega
      · trivial

theorem reader_of_setReader {p : ReaderPhase τ} (hk' : (s.setReader c p).conns[c]? = some k') :
    k'.reader = p := by
  rw [setReader, conns_modifyConn, if_pos rfl] at hk'
  obtain ⟨k, -, rfl⟩ := map_eq_some_iff.1 hk'
  rfl

theorem ReaderMove.tagged {ok : Bool} (h : ReaderMove s c k ok t) (htag : k.reader.Tagged)
    (hk' : t.conns[c]? = some k') : k'.reader.Tagged := by
  have hset : ∀ {u : Relay τ} {p : ReaderPhase τ}, t.conns = (u.setReader c p).conns →
      p.Tagged → k'.reader.Tagged := by
    intro u p ht hp
    rw [ht] at hk'
    rw [reader_of_setReader hk']
    exact hp
  cases h with
  | send => exact hset (p := .reading) rfl trivial
  | tunnel hp hx htunnel =>
    refine hset rfl ?_
    rw [hp] at htag
    rw [← (mem_of_findSession hx).2] at htag
    exact htag
  | peer hp hx hpeer =>
    refine hset rfl ?_
    rw [hp] at htag
    change Tags _ _ at htag
    rw [← (mem_of_findSession hx).2] at htag
    exact htag
  | client hp hclient =>
    refine hset rfl ?_
    rw [hp] at htag
    exact htag
  | @gone id peer kind hp hx | @notified peer kind hp => exact hset rfl (by cases kind <;> trivial)
  | _ => exact hset rfl trivial

theorem Tagged.reader_step (ht : s.Tagged C) (h : s.step C accounts a = some t)
    (hk : s.conns[c]? = some k) (hk' : t.conns[c]? = some k') (hmoves : k.Moves C s a c k') :
    k'.reader.Tagged := by
  have htag := ht.readers c k hk
  cases hreads : a.reads c with
  | false =>
    rw [hmoves.reader hreads]
    exact htag
  | true =>
    cases step_iff.1 h with
    | @receive d kd message hd hr hbegun =>
      obtain rfl : d = c := of_decide_eq_true hreads
      rw [getElem_modifyConn_self hd, some.injEq] at hk'
      rw [← hk']
      exact tagged_onMessage message
    | @reader d kd ok t hd hmove =>
      obtain rfl : d = c := of_decide_eq_true hreads
      cases hd.symm.trans hk
      exact hmove.tagged htag hk'
    | @readerEnds d kd hd hr =>
      obtain rfl : d = c := of_decide_eq_true hreads
      rw [reader_of_setReader hk']
      trivial
    | _ => cases hreads

theorem RouterMove.tagged (h : RouterMove C s t) (hw : Wired C accounts s)
    (htag : s.router.Tagged C) : t.router.Tagged C := by
  cases h with
  | accept hr huser hdevice =>
    have hfits := hw.router
    rw [hr] at hfits
    obtain ⟨id, hid⟩ := hfits.1.asks
    exact ⟨rfl, _, _, _, _, _, hid, rfl⟩
  | insert hr =>
    rw [hr] at htag
    exact htag.1
  | member hr hx hpeer =>
    rw [hr] at htag
    obtain ⟨p, hp, hmember⟩ := htag
    exact ⟨p, hp, (mem_of_findSession hx).2 ▸ hmember⟩
  | passOn hr =>
    dsimp only
    split <;> trivial
  | _ => trivial

theorem Tagged.router_step (ht : s.Tagged C) (hw : Wired C accounts s)
    (h : s.step C accounts a = some t) : t.router.Tagged C := by
  cases step_iff.1 h with
  | ignore => exact ht.router
  | message hidle hsig hends hd => exact member_of_dispatch hd
  | ask =>
    dsimp only
    split <;> trivial
  | count => trivial
  | router hmove => exact hmove.tagged hw ht.router
  | _ =>
    rw [(sameTables_step h rfl).router]
    exact ht.router

/-- What a step queues is tagged. -/
theorem Tagged.origin (ht : s.Tagged C) (ho : Origin C s c a e) : e.Tagged C := by
  cases ho with
  | frame hk hr =>
    have htag := ht.readers _ _ hk
    rw [hr] at htag
    exact htag
  | passed hr =>
    have htag := ht.router
    rw [hr] at htag
    exact htag
  | request hr hc | rejected hr | closed i id => exact ⟨_, C.parse_render _, rfl⟩

theorem Tagged.step (ht : s.Tagged C) (hw : Wired C accounts s)
    (h : s.step C accounts a = some t) : t.Tagged C where
  readers c k' hk' := by
    obtain ⟨k, hk, hmoves⟩ | ⟨-, client, -, rfl⟩ := conn_before h hk'
    · exact ht.reader_step h hk hk' hmoves
    · trivial
  router := ht.router_step hw h
  handed c k' hk' e he := by
    obtain ⟨k, hk, hmoves⟩ | ⟨-, client, -, rfl⟩ := conn_before h hk'
    · have hold := ht.handed c k hk e
      obtain hhanded | ⟨e', ho, hhanded⟩ := hmoves.handed
      · exact hold (hhanded ▸ he)
      · rw [hhanded] at he
        obtain he | he := mem_append.1 he
        · exact hold he
        · rw [mem_singleton.1 he]
          exact ht.origin ho
    · cases he

/-! ## Connections that have begun -/

/-- A connection that has said something, or that a session is made for, has been in the map. -/
structure Started (s : Relay τ) : Prop where
  said : ∀ (c : Nat) (k : Connection τ), s.conns[c]? = some k → k.said ≠ [] → k.task.begun = true
  device : ∀ x ∈ s.created, s.Begun x.deviceConn
  target : ∀ d, s.router.target = some d → s.Begun d

theorem Begun.step (hb : s.Begun c) (h : s.step C accounts a = some t) : t.Begun c := by
  obtain ⟨k, hk, hbegun⟩ := hb
  obtain ⟨k', hk', hmoves⟩ := conn_step h hk
  exact ⟨k', hk', hmoves.begun hbegun⟩

theorem begun_of_getClient (hw : Wired C accounts s) (h : s.getClient c = some k) : s.Begun c := by
  obtain ⟨hk, hregistered⟩ := getClient_eq_some.1 h
  refine ⟨k, hk, ?_⟩
  have hserves := (hw.conns c k hk).live hregistered
  cases hp : k.task <;> rw [hp] at hserves <;> first | rfl | cases hserves

theorem Started.said_step (hs : s.Started) (h : s.step C accounts a = some t)
    (hk' : t.conns[c]? = some k') (hsaid : k'.said ≠ []) : k'.task.begun = true := by
  obtain ⟨k, hk, hmoves⟩ | ⟨-, client, -, rfl⟩ := conn_before h hk'
  · by_cases hold : k.said = []
    · -- the first frame of the connection arrives
      rw [hmoves.said, hold, nil_append] at hsaid
      cases step_iff.1 h with
      | @receive d kd message hd hr hbegun =>
        obtain rfl : d = c := by
          by_contra hne
          exact hsaid (if_neg hne)
        cases hd.symm.trans hk
        exact hmoves.begun hbegun
      | _ => exact absurd rfl hsaid
    · exact hmoves.begun (hs.said c k hk hold)
  · exact absurd rfl hsaid

theorem Started.router_step (hs : s.Started) (hw : Wired C accounts s)
    (h : s.step C accounts a = some t) :
    (∀ x ∈ t.created, t.Begun x.deviceConn) ∧ ∀ d, t.router.target = some d → t.Begun d := by
  have hold : ∀ x ∈ s.created, t.Begun x.deviceConn := fun x hx => (hs.device x hx).step h
  have htarget : ∀ d, s.router.target = some d → t.Begun d := fun d hd => (hs.target d hd).step h
  cases step_iff.1 h with
  | ignore => exact ⟨hold, htarget⟩
  | message => exact ⟨hold, fun d hd => by cases hd⟩
  | ask =>
    refine ⟨hold, fun d hd => ?_⟩
    dsimp only at hd
    split at hd <;> cases hd
  | count hr hx => exact ⟨hold, fun d' hd' => htarget d' (by rw [hr]; exact hd')⟩
  | router hmove =>
    cases hmove with
    | @known m q id d hr horg =>
      refine ⟨hold, fun d' hd' => ?_⟩
      cases hd'
      cases hclient : s.getClient d with
      | none => simp [hclient] at horg
      | some k => exact (begun_of_getClient hw hclient).step h
    | accept hr _ _ => exact ⟨hold, fun d' hd' => htarget d' (by rw [hr]; exact hd')⟩
    | @insert m q x hr =>
      refine ⟨fun y hy => ?_, fun d hd => by cases hd⟩
      obtain hy | hy := mem_append.1 hy
      · exact hold y hy
      · rw [mem_singleton.1 hy]
        exact htarget _ (by rw [hr]; rfl)
    | reject hr =>
      rw [sendTo_fst] at hold ⊢
      exact ⟨hold, fun d hd => by cases hd⟩
    | @passOn m x peer ends hr =>
      rw [sendTo_fst] at hold ⊢
      refine ⟨hold, fun d hd => ?_⟩
      cases ends <;> cases hd
    | _ => exact ⟨hold, fun d hd => by cases hd⟩
  | _ =>
    have hsame := sameTables_step h rfl
    rw [hsame.created, hsame.router]
    exact ⟨hold, htarget⟩

theorem Started.step (hs : s.Started) (hw : Wired C accounts s)
    (h : s.step C accounts a = some t) : t.Started where
  said _ _ hk' := hs.said_step h hk'
  device := (hs.router_step hw h).1
  target := (hs.router_step hw h).2

/-! ## Session requests -/

/-- The session requests among the messages that were queued. -/
def requestsOf (C : PacketCodec τ) (l : List (Delivery τ)) : List (Uuid × Bool) :=
  l.filterMap (·.message.request C)

theorem requestsOf_append (C : PacketCodec τ) (l : List (Delivery τ)) (e : Delivery τ) :
    requestsOf C (l ++ [e]) = requestsOf C l ++ (e.message.request C).toList := by
  rw [requestsOf, filterMap_append, requestsOf]
  cases he : e.message.request C with
  | none | some r => simp [he]

/-- A device is asked for each of its sessions at most once, for the kind of session that the user
asked for. -/
structure Asked (C : PacketCodec τ) (s : Relay τ) : Prop where
  delivered : ∀ x ∈ s.delivered, x ∈ s.created
  nodup : (s.delivered.map (·.id)).Nodup
  unasked : ∀ m q x, s.router = .delivering m q x → x ∉ s.delivered
  requests : ∀ (c : Nat) (k : Connection τ), s.conns[c]? = some k →
    requestsOf C k.handed = (s.delivered.filter (·.deviceConn = c)).map fun x => (x.id, x.tunnel)
  kinds : ∀ x ∈ s.created, ∃ m, .text m ∈ s.facts.said x.initiatorConn ∧ AsksFor C x.tunnel m

theorem request_of_member {m : τ} {p : SignalPacket} {id : Uuid} (hp : C.parse m = some p)
    (hmember : p.member = some id) : (WsMessage.text m).request C = none := by
  rw [WsMessage.request, hp]
  cases p <;> first | rfl | cases hmember

/-- A step queues a session request only for the session that the router is about to deliver. -/
theorem request_of_origin (ht : s.Tagged C) (ho : Origin C s c a e) :
    e.message.request C = none ∨ a = .router ∧ ∃ m q x, s.router = .delivering m q x := by
  cases ho with
  | frame hk hr => exact .inl rfl
  | passed hr =>
    have htag := ht.router
    rw [hr] at htag
    obtain ⟨p, hp, hmember⟩ := htag
    exact .inl (request_of_member hp hmember)
  | request hr hc => exact .inr ⟨rfl, _, _, _, hr⟩
  | rejected hr | closed i id => exact .inl (request_of_member (C.parse_render _) rfl)

/-- A step other than the delivery of a request queues no request. -/
theorem requests_of_quiet (ht : s.Tagged C) (ha : Asked C s) (h : s.step C accounts a = some t)
    (hquiet : a = .router → ∀ m q x, s.router ≠ .delivering m q x) (hk' : t.conns[c]? = some k')
    (hnew : s.conns[c]? = none → s.delivered.filter (·.deviceConn = c) = []) :
    requestsOf C k'.handed =
      (s.delivered.filter (·.deviceConn = c)).map fun x => (x.id, x.tunnel) := by
  obtain ⟨k, hk, hmoves⟩ | ⟨rfl, client, -, rfl⟩ := conn_before h hk'
  · rw [← ha.requests c k hk]
    obtain hhanded | ⟨e, ho, hhanded⟩ := hmoves.handed
    · rw [hhanded]
    · have hnone : e.message.request C = none := by
        obtain hnone | ⟨rfl, m, q, x, hr⟩ := request_of_origin ht ho
        · exact hnone
        · exact absurd hr (hquiet rfl m q x)
      rw [hhanded, requestsOf_append, hnone, toList_none, append_nil]
  · rw [hnew (getElem?_eq_none_iff.2 (Nat.le_refl _))]
    rfl

theorem request_enriched (htag : x.tunnel = decide (q.protocolVersion = relayTunnelVersion)) :
    (WsMessage.text (C.render (q.enriched x.id))).request C = some (x.id, x.tunnel) := by
  simp only [WsMessage.request, C.parse_render, SessionQuery.enriched, htag]

/-- The delivery of a request. -/
theorem Asked.deliver (ha : Asked C s) (ht : s.Tagged C) {m : SignalingMessage τ}
    (hr : s.router = .delivering m q x)
    (hk' : (s.push x.deviceConn ⟨.text (C.render (q.enriched x.id)), none⟩).conns[c]? = some k') :
    requestsOf C k'.handed =
      ((s.delivered ++ [x]).filter (·.deviceConn = c)).map fun x => (x.id, x.tunnel) := by
  have htag := ht.router
  rw [hr] at htag
  by_cases hc : x.deviceConn = c
  · rw [hc, push, conns_modifyConn, if_pos rfl] at hk'
    obtain ⟨k, hk, rfl⟩ := map_eq_some_iff.1 hk'
    have hrequest := request_enriched (C := C) htag
    rw [filter_append, filter_cons_of_pos (by simp [hc]), filter_nil, map_append,
      ← ha.requests c k hk, Connection.hand, requestsOf_append, hrequest]
    rfl
  · rw [push, getElem_modifyConn_of_ne hc] at hk'
    rw [filter_append, filter_cons_of_neg (by simp [hc]), filter_nil, append_nil]
    exact ha.requests c k' hk'

theorem mem_said_step (h : s.step C accounts a = some t) {m : WsMessage τ}
    (hm : m ∈ s.facts.said c) : m ∈ t.facts.said c := by
  cases hk : s.conns[c]? with
  | none => simp [facts, hk] at hm
  | some k =>
    obtain ⟨k', hk', hmoves⟩ := conn_step h hk
    simp only [facts, hk, map_some, getD_some] at hm
    simp only [facts, hk', map_some, getD_some, hmoves.said]
    exact mem_append_left _ hm

/-- No device is asked for a session over a connection that is not there. -/
theorem Asked.filter_eq_nil (ha : Asked C s) (hw : Wired C accounts s) (hc : s.conns[c]? = none) :
    s.delivered.filter (·.deviceConn = c) = [] := by
  refine filter_eq_nil_iff.2 fun x hx hxc => ?_
  have hdevice := (hw.created x (ha.delivered x hx)).device
  rw [of_decide_eq_true hxc] at hdevice
  simp [facts, hc] at hdevice

/-- A step that neither creates a session nor delivers a request. -/
theorem Asked.of_quiet (ha : Asked C s) (hw : Wired C accounts s) (ht : s.Tagged C)
    (h : s.step C accounts a = some t) (hdelivered : t.delivered = s.delivered)
    (hcreated : t.created = s.created)
    (hrouter : ∀ m q x, t.router = .delivering m q x → s.router = .delivering m q x)
    (hquiet : a = .router → ∀ m q x, s.router ≠ .delivering m q x) : Asked C t where
  delivered := by
    rw [hdelivered, hcreated]
    exact ha.delivered
  nodup := hdelivered ▸ ha.nodup
  unasked m q x hr := hdelivered ▸ ha.unasked m q x (hrouter m q x hr)
  requests c k' hk' := by
    rw [hdelivered]
    exact requests_of_quiet ht ha h hquiet hk' (ha.filter_eq_nil hw)
  kinds x hx := by
    obtain ⟨m, hm, hasks⟩ := ha.kinds x (hcreated ▸ hx)
    exact ⟨m, mem_said_step h hm, hasks⟩

theorem Asked.stepRouter (ha : Asked C s) (hw : Wired C accounts s) (ht : s.Tagged C)
    (h : s.step C accounts .router = some t) : Asked C t := by
  have hquiet : (∀ m q x, t.router ≠ .delivering m q x) → (∀ m q x, s.router ≠ .delivering m q x) →
      t.delivered = s.delivered → t.created = s.created → Asked C t := fun hafter hbefore hd hc =>
    ha.of_quiet hw ht h hd hc (fun m q x hr => absurd hr (hafter m q x)) fun _ => hbefore
  cases stepRouter_iff.1 h with
  | @insert m q x hr =>
    have hfits := hw.router
    have htag := ht.router
    have hpending := (hw.pending x.id (by rw [hr]; rfl)).2
    rw [hr] at hfits htag
    exact {
      delivered := fun y hy => mem_append_left _ (ha.delivered y hy)
      nodup := ha.nodup
      unasked := by
        intro m' q' y hy hmem
        cases hy
        exact hpending x (ha.delivered x hmem) rfl
      requests := ha.requests
      kinds := by
        intro y hy
        obtain hy | hy := mem_append.1 hy
        · exact ha.kinds y hy
        · rw [mem_singleton.1 hy]
          exact ⟨m.text, hfits.2.2 ▸ hfits.1.said, htag.2⟩ }
  | @deliver m q x hr hroom =>
    have hfits := hw.router
    rw [hr] at hfits
    exact {
      delivered := by
        intro y hy
        obtain hy | hy := mem_append.1 hy
        · exact ha.delivered y hy
        · rw [mem_singleton.1 hy]
          exact hfits.2.1
      nodup := by
        rw [map_append, map_singleton]
        refine nodup_append.2 ⟨ha.nodup, by simp, ?_⟩
        intro i hi j hj hij
        obtain ⟨y, hy, rfl⟩ := mem_map.1 hi
        rw [mem_singleton.1 hj] at hij
        have hyx := hw.unique y (ha.delivered y hy) x hfits.2.1 hij
        exact ha.unasked m q x hr (hyx ▸ hy)
      unasked := nofun
      requests := fun c k' hk' => ha.deliver ht hr hk'
      kinds := fun y hy => by
        obtain ⟨m', hm', hasks⟩ := ha.kinds y hy
        exact ⟨m', mem_said_step h hm', hasks⟩ }
  | undelivered hr hroom =>
    exact { ha with unasked := nofun }
  | reject hr =>
    refine hquiet (nofun) (fun _ _ _ hr' => ?_) ?_ ?_
    · rw [hr] at hr'
      cases hr'
    · rw [sendTo_fst]
      rfl
    · rw [sendTo_fst]
      rfl
  | @passOn m x peer ends hr =>
    refine hquiet (fun _ _ _ hr' => ?_) (fun _ _ _ hr' => ?_) ?_ ?_
    · cases ends <;> cases hr'
    · rw [hr] at hr'
      cases hr'
    · rw [sendTo_fst]
      rfl
    · rw [sendTo_fst]
      rfl
  | offline hr | online hr | foreign hr | known hr | tooMany hr | busy hr | accept hr | keep hr
  | withdraw hr | undo hr | noMember hr | member hr | finish hr =>
    refine hquiet (nofun) (fun _ _ _ hr' => ?_) rfl rfl
    rw [hr] at hr'
    cases hr'

theorem Asked.step (ha : Asked C s) (hw : Wired C accounts s) (ht : s.Tagged C)
    (h : s.step C accounts a = some t) : Asked C t := by
  cases step_iff.1 h with
  | ignore => exact ha.of_quiet hw ht h rfl rfl (fun _ _ _ hr => hr) nofun
  | message => exact ha.of_quiet hw ht h rfl rfl (nofun) nofun
  | ask =>
    refine ha.of_quiet hw ht h rfl rfl (fun _ _ _ hr => ?_) nofun
    dsimp only at hr
    split at hr <;> cases hr
  | count => exact ha.of_quiet hw ht h rfl rfl (nofun) nofun
  | router => exact ha.stepRouter hw ht h
  | _ =>
    have hsame := sameTables_step h rfl
    exact ha.of_quiet hw ht h hsame.delivered hsame.created
      (fun m q x hr => by rw [← hsame.router, hr]) nofun

/-! ## Every run -/

structure Contents (C : PacketCodec τ) (accounts : Uuid → Option (Uuid × PrincipalKind))
    (s : Relay τ) : Prop where
  wired : Wired C accounts s
  flows : s.Flows
  tagged : s.Tagged C
  started : s.Started
  asked : Asked C s

theorem Contents.step (hc : Contents C accounts s) (h : s.step C accounts a = some t) :
    Contents C accounts t where
  wired := hc.wired.step h
  flows := hc.flows.step h
  tagged := hc.tagged.step hc.wired h
  started := hc.started.step hc.wired h
  asked := hc.asked.step hc.wired hc.tagged h

theorem Contents.new : Contents C accounts (Relay.new : Relay τ) where
  wired := Wired.new C accounts
  flows _ _ hk := by cases hk
  tagged :=
    { readers := nofun
      router := trivial
      handed := nofun }
  started :=
    { said := nofun
      device := nofun
      target := nofun }
  asked :=
    { delivered := nofun
      nodup := nodup_nil
      unasked := nofun
      requests := nofun
      kinds := nofun }

end Relay

end RivetLink.Server
