import RivetLink.System.TunnelNet
import RivetLink.Server.RelaySessions

/-!
# What one end of a tunnel reads, the other has written

Each stage of a tunnel passes on an initial part of what it gets: the pump of the sender, its queue
and its socket, the reader task of the relay, the queue and the socket of the receiver, its loop,
and its pump. So what an end has read is an initial part of what the other end has written, as long
as the receiver misses nothing at the beginning. A host opens the tunnel before its client can send.
The client, though, skips the frames that come before it has read `SessionAccepted`, and those of a
host that sends at once can come first, since the router does not handle them.
-/

namespace RivetLink.System

open List Option RivetLink.Foundation RivetLink.Protocol RivetLink.Server RivetLink.Sdk
  RivetLink.Agent

variable {τ η : Type}

namespace Program

/-- The program keeps its own invariant. -/
def Ok (C : PacketCodec τ) : Program η τ → Prop
  | .client c => c.Ok C
  | .host h => h.Ok C
  | .other => True

structure Linked (k : Connection τ) (p : Program η τ) : Prop where
  heard : p.heard <+: k.received.map (·.message)
  said : ∀ box, p.box = some box → k.said <+: box.sent
  kind : p.fits k.client.kind = true

structure Fresh (C : PacketCodec τ) (p : Program η τ) : Prop where
  ok : p.Ok C
  heard : p.heard = []
  client : ∀ c, p = .client c → c.tunnel = none

theorem fresh_program (C : PacketCodec τ) (H : HostHandler η) (start : Start) :
    Fresh C (start.program C H) := by
  cases start with
  | client =>
    refine ⟨TunnelClient.Ok.new .., rfl, fun c hc => ?_⟩
    cases hc
    rfl
  | host => exact ⟨TunnelHost.new_ok C H, rfl, nofun⟩
  | other => exact ⟨trivial, rfl, nofun⟩

end Program

namespace TunnelNet

variable {C : PacketCodec τ} {H : HostHandler η} {maxTunnels : Nat}
  {accounts : Uuid → Option (Uuid × PrincipalKind)} {s t : TunnelNet η τ} {c d : Nat}
  {k kd k' : Connection τ} {p p' : Program η τ} {client client' : TunnelClient τ}
  {host host' : TunnelHost η τ} {x : ActiveSession} {id : Uuid} {box : Outbox τ} {m : WsMessage τ}
  {e : Delivery τ} {tunnel : HostTunnel} {a : RelayAction τ}

structure Ok (C : PacketCodec τ) (accounts : Uuid → Option (Uuid × PrincipalKind))
    (s : TunnelNet η τ) : Prop where
  contents : Relay.Contents C accounts s.relay
  aligned : s.programs.length = s.relay.conns.length
  programs : ∀ (c : Nat) p, s.programs[c]? = some p → p.Ok C
  linked : ∀ (c : Nat) k p, s.relay.conns[c]? = some k → s.programs[c]? = some p →
    Program.Linked k p
  /-- Between the readers of sockets and the queues of the other ends. -/
  forwards : ∀ x ∈ s.relay.created, ∀ (c : Nat) d p box, x.peerConn c = some d →
    s.programs[c]? = some p → p.box = some box → Relay.Forwards s.relay x c d
  opened : ∀ (c : Nat) client id, s.programs[c]? = some (.client client) →
    client.tunnel = some id → ∃ x ∈ s.relay.created, x.id = id ∧ x.initiatorConn = c
  /-- The host has opened the tunnel before the client. -/
  served : ∀ x ∈ s.relay.created, ∀ client host,
    s.programs[x.initiatorConn]? = some (.client client) → client.tunnel = some x.id →
      s.programs[x.deviceConn]? = some (.host host) → ∃ since, (x.id, since) ∈ host.marks
  /-- A host has missed no frame of a tunnel. -/
  missed : ∀ x ∈ s.relay.created, ∀ client host,
    s.programs[x.initiatorConn]? = some (.client client) →
      s.programs[x.deviceConn]? = some (.host host) →
        ∀ since, (x.id, since) ∈ host.marks → payloads x.id (host.heard.take since) = []

/-! ## What the programs have to do with the sessions of the relay -/

theorem Ok.exists_conn (hs : s.Ok C accounts) (hp : s.programs[c]? = some p) :
    ∃ k, s.relay.conns[c]? = some k := by
  refine ⟨_, getElem?_eq_getElem ?_⟩
  rw [← hs.aligned]
  exact lt_of_slot hp

theorem received_isPrefix (hs : s.Ok C accounts) (hk : s.relay.conns[c]? = some k) :
    k.received.map (·.message) <+: k.handed.map (·.message) :=
  (hs.contents.flows c k hk).initial.map _

/-- What a program has read was queued for it. -/
theorem Ok.heard_prefix (hs : s.Ok C accounts) (hk : s.relay.conns[c]? = some k)
    (hp : s.programs[c]? = some p) : p.heard <+: k.handed.map (·.message) :=
  (hs.linked c k p hk hp).heard.trans (received_isPrefix hs hk)

theorem requests_handed (C : PacketCodec τ) (l : List (Delivery τ)) :
    requests C (l.map (·.message)) = Relay.requestsOf C l := by
  rw [requests, filterMap_map]
  rfl

/-- A host was asked for the sessions of its device. -/
theorem Ok.session_of_request (hs : s.Ok C accounts) (hp : s.programs[d]? = some (.host host))
    {tunnel : Bool} (hr : (id, tunnel) ∈ requests C host.heard) :
    ∃ x ∈ s.relay.created, x.id = id ∧ x.deviceConn = d ∧ x.tunnel = tunnel := by
  obtain ⟨k, hk⟩ := hs.exists_conn hp
  have hmem : (id, tunnel) ∈ requests C (k.handed.map (·.message)) :=
    ((hs.heard_prefix hk hp).sublist.filterMap _).subset hr
  rw [requests_handed, hs.contents.asked.requests d k hk] at hmem
  obtain ⟨x, hx, heq⟩ := mem_map.1 hmem
  obtain ⟨hx, hd⟩ := mem_filter.1 hx
  cases heq
  exact ⟨x, hs.contents.asked.delivered x hx, rfl, of_decide_eq_true hd, rfl⟩

theorem Ok.session_of_mark (hs : s.Ok C accounts) (hp : s.programs[d]? = some (.host host))
    {since : Nat} (hmark : (id, since) ∈ host.marks) :
    ∃ x ∈ s.relay.created, x.id = id ∧ x.deviceConn = d := by
  obtain ⟨t, ht, rfl, -⟩ := TunnelHost.mem_marks.1 hmark
  obtain ⟨x, hx, hid, hd, -⟩ :=
    hs.session_of_request hp ((hs.programs d _ hp : host.Ok C).requested t ht)
  exact ⟨x, hx, hid, hd⟩

theorem Ok.said_queued (hs : s.Ok C accounts) (hk : s.relay.conns[c]? = some k)
    (hp : s.programs[c]? = some p) (hbox : p.box = some box) : k.said <+: box.queued := by
  refine ((hs.linked c k p hk hp).said box hbox).trans ?_
  have hok := hs.programs c p hp
  cases p with
  | client client =>
    cases hbox
    exact (hok : client.Ok C).box.initial
  | host host =>
    cases hbox
    exact (hok : host.Ok C).box.initial
  | other => cases hbox

/-- No program of ours sends frames of a session that was not created. -/
theorem Ok.payloads_said (hs : s.Ok C accounts) (hk : s.relay.conns[c]? = some k)
    (hp : s.programs[c]? = some p) (hbox : p.box = some box)
    (hfresh : ∀ x ∈ s.relay.created, x.id ≠ id) : payloads id k.said = [] := by
  have hqueued : payloads id box.queued = [] := by
    cases p with
    | client client =>
      cases hbox
      refine TunnelClient.Ok.payloads_eq_nil (hs.programs c _ hp : client.Ok C) fun htunnel => ?_
      obtain ⟨x, hx, hid, -⟩ := hs.opened c client id hp htunnel
      exact hfresh x hx hid
    | host host =>
      cases hbox
      refine payloads_eq_nil fun frame hframe htags => ?_
      have hok : host.Ok C := hs.programs c _ hp
      obtain ⟨t, ht, -, htags'⟩ := hok.frames frame hframe
      obtain ⟨x, hx, hid, -⟩ := hs.session_of_request hp (hok.requested t ht)
      exact hfresh x hx (hid.trans (htags'.eq htags))
    | other => cases hbox
  have hpre := payloads_isPrefix id (hs.said_queued hk hp hbox)
  rw [hqueued] at hpre
  exact prefix_nil.1 hpre

/-! ## Steps of the programs -/

/-- A program goes on. -/
theorem Ok.set (hs : s.Ok C accounts) (hp : s.programs[c]? = some p) (hok : p'.Ok C)
    (hheard : ∀ k, s.relay.conns[c]? = some k → p'.heard <+: k.received.map (·.message))
    (hkind : p'.fits = p.fits)
    (hbox : ∀ box', p'.box = some box' → ∃ box, p.box = some box ∧ box.sent <+: box'.sent)
    (hopened : ∀ client id, p' = .client client → client.tunnel = some id →
      ∃ x ∈ s.relay.created, x.id = id ∧ x.initiatorConn = c)
    (hserved : ∀ x ∈ s.relay.created, ∀ client host,
      (s.set c p').programs[x.initiatorConn]? = some (.client client) →
        client.tunnel = some x.id → (s.set c p').programs[x.deviceConn]? = some (.host host) →
          ∃ since, (x.id, since) ∈ host.marks)
    (hmissed : ∀ x ∈ s.relay.created, ∀ client host,
      (s.set c p').programs[x.initiatorConn]? = some (.client client) →
        (s.set c p').programs[x.deviceConn]? = some (.host host) →
          ∀ since, (x.id, since) ∈ host.marks → payloads x.id (host.heard.take since) = []) :
    (s.set c p').Ok C accounts := by
  refine ⟨hs.contents, length_set.trans hs.aligned, fun d q hq => ?_, fun d k q hk hq => ?_,
    fun x hx d e q box hpeer hq hqbox => ?_, fun d q id hq hid => ?_, hserved, hmissed⟩
  · rcases of_slot_set hq with ⟨rfl, rfl⟩ | ⟨-, hq⟩
    · exact hok
    · exact hs.programs d q hq
  · rcases of_slot_set hq with ⟨rfl, rfl⟩ | ⟨-, hq⟩
    · have hlinked := hs.linked d k _ hk hp
      refine ⟨hheard k hk, fun box' hbox' => ?_, hkind ▸ hlinked.kind⟩
      obtain ⟨box, hpbox, hsent⟩ := hbox box' hbox'
      exact (hlinked.said box hpbox).trans hsent
    · exact hs.linked d k q hk hq
  · rcases of_slot_set hq with ⟨rfl, rfl⟩ | ⟨-, hq⟩
    · obtain ⟨box', hpbox, -⟩ := hbox box hqbox
      exact hs.forwards x hx d e _ _ hpeer hp hpbox
    · exact hs.forwards x hx d e q box hpeer hq hqbox
  · rcases of_slot_set hq with ⟨rfl, heq⟩ | ⟨-, hq⟩
    · exact hopened q id heq.symm hid
    · exact hs.opened d q id hq hid

/-- A client goes on. If it opens its tunnel, the host has done so. -/
theorem Ok.set_client (hs : s.Ok C accounts) (hp : s.programs[c]? = some (.client client))
    (hok : client'.Ok C) (hheard : ∀ k, s.relay.conns[c]? = some k →
      client'.heard <+: k.received.map (·.message))
    (hsent : client.box.sent <+: client'.box.sent)
    (htunnel : ∀ id, client'.tunnel = some id → client.tunnel = some id ∨
      ∃ x ∈ s.relay.created, x.id = id ∧ x.initiatorConn = c ∧
        ∀ host, s.programs[x.deviceConn]? = some (.host host) →
          ∃ since, (id, since) ∈ host.marks) :
    (s.set c (.client client')).Ok C accounts := by
  refine hs.set hp hok hheard rfl (fun _ hbox => ⟨_, rfl, some.inj hbox ▸ hsent⟩)
    (fun q id hq hid => ?_) (fun x hx q host hq hid hhost => ?_) fun x hx q host hq hhost => ?_
  · cases hq
    obtain hid | ⟨x, hx, hxid, hxc, -⟩ := htunnel id hid
    · exact hs.opened c client id hp hid
    · exact ⟨x, hx, hxid, hxc⟩
  · obtain ⟨-, ⟨⟩⟩ | ⟨-, hhost⟩ := of_slot_set hhost
    obtain ⟨hc, ⟨⟩⟩ | ⟨-, hq⟩ := of_slot_set hq
    · obtain hid | ⟨y, hy, hyid, -, hserved⟩ := htunnel x.id hid
      · exact hs.served x hx client host (hc ▸ hp) hid hhost
      · cases hs.contents.wired.unique y hy x hx hyid
        exact hserved host hhost
    · exact hs.served x hx q host hq hid hhost
  · obtain ⟨-, ⟨⟩⟩ | ⟨-, hhost⟩ := of_slot_set hhost
    obtain ⟨hc, -⟩ | ⟨-, hq⟩ := of_slot_set hq
    · exact hs.missed x hx client host (hc ▸ hp) hhost
    · exact hs.missed x hx q host hq hhost

/-- A host goes on. If it opens a tunnel, it has missed no frame of it. -/
theorem Ok.set_host (hs : s.Ok C accounts) (hp : s.programs[c]? = some (.host host))
    (hok : host'.Ok C) (hheard : ∀ k, s.relay.conns[c]? = some k →
      host'.heard <+: k.received.map (·.message))
    (hsent : host.box.sent <+: host'.box.sent) (hmarks : host.marks <+: host'.marks)
    (hmissed : ∀ x ∈ s.relay.created, x.deviceConn = c → ∀ client,
      s.programs[x.initiatorConn]? = some (.client client) →
        ∀ since, (x.id, since) ∈ host'.marks → payloads x.id (host'.heard.take since) = []) :
    (s.set c (.host host')).Ok C accounts := by
  refine hs.set hp hok hheard rfl (fun _ hbox => ⟨_, rfl, some.inj hbox ▸ hsent⟩) nofun
    (fun x hx q host'' hq hid hhost => ?_) fun x hx q host'' hq hhost => ?_
  · obtain ⟨-, ⟨⟩⟩ | ⟨-, hq⟩ := of_slot_set hq
    obtain ⟨hc, ⟨⟩⟩ | ⟨-, hhost⟩ := of_slot_set hhost
    · obtain ⟨since, hsince⟩ := hs.served x hx q host hq hid (hc ▸ hp)
      exact ⟨since, hmarks.subset hsince⟩
    · exact hs.served x hx q host'' hq hid hhost
  · obtain ⟨-, ⟨⟩⟩ | ⟨-, hq⟩ := of_slot_set hq
    obtain ⟨hc, ⟨⟩⟩ | ⟨-, hhost⟩ := of_slot_set hhost
    · exact hmissed x hx hc q hq
    · exact hs.missed x hx q host'' hq hhost

/-! ## Reading -/

/-- What a client has read before its tunnel was open. -/
def early (client : TunnelClient τ) : List (WsMessage τ) :=
  match client.tunnel with
  | none => client.heard
  | some _ => client.heard.take client.since

/-- The clients have skipped no frames. -/
def Attentive (s : TunnelNet η τ) : Prop :=
  ∀ (c : Nat) client, s.programs[c]? = some (.client client) → ∀ m ∈ early client, m.isText = true

/-- No client reads a tunnel frame while it waits for the answer of the host. -/
def calm (s : TunnelNet η τ) : NetAction τ → Bool
  | .read c =>
    match s.programs[c]? with
    | some (.client client) =>
      client.tunnel.isSome || (s.nextMessage c (.client client)).all WsMessage.isText
    | _ => true
  | _ => true

theorem Attentive.set (ha : s.Attentive)
    (hp' : ∀ client, p' = .client client → ∀ m ∈ early client, m.isText = true) :
    (s.set c p').Attentive := by
  intro d client hd
  rcases of_slot_set hd with ⟨-, heq⟩ | ⟨-, hd⟩
  · exact hp' client heq.symm
  · exact ha d client hd

/-- A client that has skipped no frames reads a message. -/
theorem early_next (hok : client.Ok C) (hread : client.Reads C m client')
    (hcalm : client.tunnel = none → m.isText = true)
    (hbefore : ∀ m ∈ early client, m.isText = true) :
    ∀ m ∈ early client', m.isText = true := by
  cases htunnel : client.tunnel with
  | none =>
    have hall : ∀ m' ∈ client.heard ++ [m], m'.isText = true := by
      intro m' hm'
      rcases mem_append.1 hm' with hm' | hm'
      · rw [early, htunnel] at hbefore
        exact hbefore m' hm'
      · rw [mem_singleton.1 hm']
        exact hcalm htunnel
    unfold early
    rw [hread.heard]
    split
    · exact hall
    · exact fun m' hm' => hall m' (mem_of_mem_take hm')
  | some id =>
    rcases hread.tunnel with ⟨hsame, hsince⟩ | ⟨hnone, -⟩
    · rw [early, htunnel] at hbefore
      rw [early, hsame, htunnel, hread.heard, hsince]
      dsimp only
      rw [take_append_of_le_length hok.since]
      exact hbefore
    · cases hnone.symm.trans htunnel

/-- The message that a program reads next. -/
theorem nextMessage_eq_some (hk : s.relay.conns[c]? = some k) (hp : s.programs[c]? = some p)
    (hs : s.Ok C accounts) (hm : s.nextMessage c p = some m) :
    p.heard ++ [m] <+: k.received.map (·.message) ∧ ∃ e ∈ k.handed, e.message = m := by
  simp only [nextMessage, hk, bind_some, map_eq_some_iff] at hm
  obtain ⟨e, he, rfl⟩ := hm
  refine ⟨?_, e, ?_, rfl⟩
  · obtain ⟨rest, hrest⟩ := (hs.linked c k p hk hp).heard
    have hnext : (k.received.map (·.message))[p.heard.length]? = some e.message := by
      rw [getElem?_map, he, map_some]
    rw [← hrest, getElem?_append_right le_rfl, Nat.sub_self] at hnext
    cases rest with
    | nil => cases hnext
    | cons m rest =>
      cases hnext
      exact ⟨rest, by rw [← hrest, append_assoc, singleton_append]⟩
  · exact (hs.contents.flows c k hk).initial.subset (mem_of_getElem? he)

theorem sized_of_handed (hs : s.Ok C accounts) (hk : s.relay.conns[c]? = some k) (he : e ∈ k.handed)
    (frame : Bytes) (hm : e.message = .binary frame) : tunnelSized frame = true := by
  have htagged := hs.contents.tagged.handed c k hk e he
  unfold Delivery.Tagged at htagged
  rw [hm] at htagged
  cases hthrough : e.through with
  | none =>
    rw [hthrough] at htagged
    exact htagged.elim
  | some through =>
    rw [hthrough] at htagged
    exact htagged.1

/-- What accepts a session was sent by the host of its device, which had opened the tunnel. -/
theorem Ok.accepted (hs : s.Ok C accounts) (hp : s.programs[c]? = some (.client client))
    (hk : s.relay.conns[c]? = some k) (he : e ∈ k.handed) {text : τ} (hm : e.message = .text text)
    {role : SessionRole} (hparse : C.parse text = some (.sessionAccepted id role)) :
    ∃ x ∈ s.relay.created, x.id = id ∧ x.initiatorConn = c ∧
      ∀ host, s.programs[x.deviceConn]? = some (.host host) →
        ∃ since, (id, since) ∈ host.marks := by
  have htagged := hs.contents.tagged.handed c k hk e he
  have hfits := (hs.contents.wired.conns c k hk).handed e he
  unfold Delivery.Tagged at htagged
  rw [hm] at htagged
  cases hthrough : e.through with
  | none =>
    rw [hthrough] at htagged
    obtain ⟨p, hp, hrelay⟩ := htagged
    cases hparse.symm.trans hp
    cases hrelay
  | some through =>
    obtain ⟨x, sender⟩ := through
    rw [hthrough] at htagged
    obtain ⟨p, hp', hmember⟩ := htagged
    cases hparse.symm.trans hp'
    cases hmember
    obtain ⟨hx, hpeer, hsaid⟩ := hfits x sender hthrough
    have hx' := hs.contents.wired.created x hx
    -- a client is no device
    have hdevice : x.deviceConn ≠ c := by
      intro hc
      have hclient := hx'.device
      rw [hc, Relay.clients_of_getElem hk, some.injEq] at hclient
      have hkind := (hs.linked c k _ hk hp).kind
      rw [hclient] at hkind
      cases hkind
    have hinitiator : x.initiatorConn = c :=
      (ActiveSession.joins_iff.1 (ActiveSession.joins_of_peerConn hpeer).2).resolve_right hdevice
    refine ⟨x, hx, rfl, hinitiator, fun host hhost => ?_⟩
    have hsender : sender = x.deviceConn := by
      refine (ActiveSession.joins_iff.1
        (ActiveSession.joins_of_peerConn hpeer).1).elim (fun hi => ?_) Eq.symm
      unfold ActiveSession.peerConn at hpeer
      rw [if_pos hi, some.injEq] at hpeer
      exact absurd hpeer hdevice
    subst hsender
    obtain ⟨kd, hkd⟩ := hs.exists_conn hhost
    rw [hm] at hsaid
    simp only [Relay.facts, hkd, map_some, getD_some] at hsaid
    have hok : host.Ok C := hs.programs _ _ hhost
    have hqueued := (hs.said_queued hkd hhost rfl).subset hsaid
    obtain ⟨t, ht, hid⟩ | hrequest := hok.accepted text (.inl hqueued) x.id role hparse
    · exact ⟨t.since, TunnelHost.mem_marks.2 ⟨t, ht, hid, rfl⟩⟩
    · -- the client has asked for a tunnel
      obtain ⟨y, hy, hid, -, htunnel⟩ := hs.session_of_request hhost hrequest
      cases hs.contents.wired.unique y hy x hx hid
      obtain ⟨text', hsaid', deviceId, key, version, capability, id', hparse', hversion⟩ :=
        hs.contents.asked.kinds x hx
      rw [hinitiator] at hsaid'
      simp only [Relay.facts, hk, map_some, getD_some] at hsaid'
      have hasks := (hs.programs c _ hp : client.Ok C).asks text'
        ((hs.said_queued hk hp rfl).subset hsaid') _ _ _ _ _ hparse'
      rw [htunnel, hasks, decide_eq_true rfl] at hversion
      cases hversion

/-- A host is asked for a session once. -/
theorem fresh_request (hs : s.Ok C accounts) (hk : s.relay.conns[c]? = some k)
    (hpre : host.heard ++ [m] <+: k.received.map (·.message)) {b : Bool}
    (hm : m.request C = some (id, b)) (b' : Bool) : (id, b') ∉ requests C host.heard := by
  intro hr
  have hnodup : ((requests C (host.heard ++ [m])).map (·.1)).Nodup := by
    have hsub : (requests C (host.heard ++ [m])).Sublist (Relay.requestsOf C k.handed) := by
      rw [← requests_handed]
      exact (hpre.trans (received_isPrefix hs hk)).sublist.filterMap _
    refine (hsub.map (·.1)).nodup ?_
    rw [hs.contents.asked.requests c k hk, List.map_map]
    exact (List.filter_sublist.map _).nodup hs.contents.asked.nodup
  rw [requests_append, hm, map_append, nodup_append] at hnodup
  exact hnodup.2.2 id (mem_map_of_mem hr) id (mem_singleton_self _) rfl

theorem Ok.read (hs : s.Ok C accounts) (hp : s.programs[c]? = some p)
    (hm : s.nextMessage c p = some m) (hnext : p.next C H maxTunnels m = some p') (ha : s.Attentive)
    (hcalm : s.calm (.read c) = true) : (s.set c p').Ok C accounts ∧ (s.set c p').Attentive := by
  obtain ⟨k, hk⟩ := hs.exists_conn hp
  obtain ⟨hpre, e, he, rfl⟩ := nextMessage_eq_some hk hp hs hm
  have hsized := sized_of_handed hs hk he
  have hheard : ∀ l, l = p.heard ++ [e.message] → ∀ k', s.relay.conns[c]? = some k' →
      l <+: k'.received.map (·.message) := by
    intro l hl k' hk'
    cases hk.symm.trans hk'
    rw [hl]
    exact hpre
  cases p with
  | client client =>
    obtain ⟨client', hclient, rfl⟩ := map_eq_some_iff.1 hnext
    have hok : client.Ok C := hs.programs c _ hp
    obtain ⟨hok', hread⟩ := hok.next hsized hclient
    refine ⟨hs.set_client hp hok' (hheard _ hread.heard) (hread.box ▸ prefix_refl _)
      fun id hid => ?_, ha.set fun client₁ heq => ?_⟩
    · obtain ⟨hsame, -⟩ | ⟨-, -, text, id', role, htext, hparse, htunnel⟩ := hread.tunnel
      · exact .inl (hsame ▸ hid)
      · cases htunnel.symm.trans hid
        exact .inr (hs.accepted hp hk he htext hparse)
    · cases heq
      refine early_next hok hread (fun htunnel => ?_) (ha c client hp)
      simp only [calm, hp, htunnel, hm] at hcalm
      exact hcalm
  | host host =>
    obtain ⟨host', hhost, rfl⟩ := map_eq_some_iff.1 hnext
    have hok : host.Ok C := hs.programs c _ hp
    have hfresh : ∀ id b, e.message.request C = some (id, b) → ∀ b',
        (id, b') ∉ requests C host.heard := fun id b hr => fresh_request hs hk hpre hr
    obtain ⟨hok', hread, hbox, hcases⟩ := hok.next hhost hsized hfresh
    refine ⟨hs.set_host hp hok' (hheard _ hread) (hbox ▸ prefix_refl _) ?_ ?_, ha.set nofun⟩
    · obtain hsame | ⟨id, -, hmarks⟩ := hcases
      · rw [hsame]
      · rw [hmarks]
        exact prefix_append _ _
    · intro x hx hc client hclient since hmark
      have hold : (x.id, since) ∈ host.marks → payloads x.id (host'.heard.take since) = [] := by
        intro hmark
        obtain ⟨t, ht, -, rfl⟩ := TunnelHost.mem_marks.1 hmark
        obtain ⟨i, hi⟩ := getElem?_of_mem ht
        rw [hread, take_append_of_le_length (hok.tunnels i t hi).since]
        exact hs.missed x hx client host hclient (hc ▸ hp) _ hmark
      obtain hsame | ⟨id, hrequest, hmarks⟩ := hcases
      · exact hold (hsame ▸ hmark)
      · rw [hmarks] at hmark
        obtain hmark | hmark := mem_append.1 hmark
        · exact hold hmark
        · -- the client cannot have sent a frame yet
          cases mem_singleton.1 hmark
          have hclosed : client.tunnel ≠ some x.id := by
            intro htunnel
            obtain ⟨since, hsince⟩ := hs.served x hx client host hclient htunnel (hc ▸ hp)
            obtain ⟨t, ht, hid, -⟩ := TunnelHost.mem_marks.1 hsince
            have hasked := hok.requested t ht
            rw [hid] at hasked
            exact hfresh _ _ hrequest true hasked
          obtain ⟨ki, hki⟩ := hs.exists_conn hclient
          have hpeer : x.peerConn x.initiatorConn = some c := by
            rw [ActiveSession.peerConn, if_pos rfl, hc]
          have hflow := (hs.forwards x hx _ c _ _ hpeer hclient rfl ki k hki hk).initial
          have hquiet := TunnelClient.Ok.payloads_eq_nil
            (hs.programs _ _ hclient : client.Ok C) hclosed
          have hsaid := payloads_isPrefix x.id (hs.said_queued hki hclient rfl)
          have hread' := payloads_isPrefix x.id
            (hpre.trans (received_isPrefix hs hk))
          have hnil := (hread'.trans hflow).trans hsaid
          rw [hquiet, prefix_nil] at hnil
          rw [hread, take_of_length_le (by simp)]
          exact hnil
  | other => cases hnext

/-! ## Both ends -/

/-- Each end of a tunnel has read an initial part of what the other has written, and the payloads
that arrived are an initial part of those that were sent: after one that is lost, none arrives. -/
structure Faithful (s : TunnelNet η τ) : Prop where
  toHost : ∀ (d : Nat) host, s.programs[d]? = some (.host host) → ∀ tunnel ∈ host.tunnels,
    ∃ x ∈ s.relay.created, x.id = tunnel.id ∧ x.deviceConn = d ∧
      ∀ client, s.programs[x.initiatorConn]? = some (.client client) →
        tunnel.pump.down.taken <+: client.pump.up.put ∧ tunnel.pump.got <+: client.pump.built
  toClient : ∀ (c : Nat) client id, s.programs[c]? = some (.client client) →
    client.tunnel = some id →
      ∃ x ∈ s.relay.created, x.id = id ∧ x.initiatorConn = c ∧
        ∀ host, s.programs[x.deviceConn]? = some (.host host) →
          ∃ tunnel ∈ host.tunnels, tunnel.id = id ∧
            client.pump.down.taken <+: tunnel.pump.up.put ∧ client.pump.got <+: tunnel.pump.built
  /-- The frames that the ends build pass the checks of the relay and of the host. -/
  frames : ∀ (c : Nat) p box frame, s.programs[c]? = some p → p.box = some box →
    .binary frame ∈ box.queued →
      tunnelSized frame = true ∧
        ∃ id payload, frame = tunnelFrame id payload ∧ splitTunnelFrame frame = some (id, payload)

/-- The payloads of a session, from the queue of one program to what another has read. -/
theorem Ok.carries (hs : s.Ok C accounts) (hx : x ∈ s.relay.created) (hpeer : x.peerConn c = some d)
    {q : Program η τ} (hp : s.programs[c]? = some p) (hq : s.programs[d]? = some q)
    (hbox : p.box = some box) : payloads x.id q.heard <+: payloads x.id box.queued := by
  obtain ⟨k, hk⟩ := hs.exists_conn hp
  obtain ⟨kd, hkd⟩ := hs.exists_conn hq
  calc payloads x.id q.heard
      <+: payloads x.id (kd.handed.map (·.message)) :=
        payloads_isPrefix x.id (hs.heard_prefix hkd hq)
    _ <+: payloads x.id k.said := (hs.forwards x hx c d p box hpeer hp hbox k kd hk hkd).initial
    _ <+: payloads x.id box.queued := payloads_isPrefix x.id (hs.said_queued hk hp hbox)

theorem payloads_drop {l : List (WsMessage τ)} {n : Nat} (h : payloads id (l.take n) = []) :
    payloads id (l.drop n) = payloads id l := by
  conv_rhs => rw [← take_append_drop n l, payloads_append, h, nil_append]

/-- The bytes of the local streams follow the payloads. -/
theorem read_of_got {pump pump' : Pump} (h : pump.Ok) (h' : pump'.Ok)
    (hgot : pump.got <+: pump'.built) :
    pump.down.taken <+: pump'.up.put :=
  (h.read_prefix.trans hgot.flatten).trans h'.built_prefix

theorem Ok.toHost (hs : s.Ok C accounts) (hx : x ∈ s.relay.created)
    (hclient : s.programs[x.initiatorConn]? = some (.client client))
    (hhost : s.programs[x.deviceConn]? = some (.host host)) (ht : tunnel ∈ host.tunnels)
    (hid : tunnel.id = x.id) : tunnel.pump.got <+: client.pump.built := by
  have hok : host.Ok C := hs.programs _ _ hhost
  have hokc : client.Ok C := hs.programs _ _ hclient
  obtain ⟨i, hi⟩ := getElem?_of_mem ht
  have htunnel := hok.tunnels i tunnel hi
  have hmark : (x.id, tunnel.since) ∈ host.marks :=
    TunnelHost.mem_marks.2 ⟨tunnel, ht, hid, rfl⟩
  have hpeer : x.peerConn x.initiatorConn = some x.deviceConn := by
    rw [ActiveSession.peerConn, if_pos rfl]
  have hgot : tunnel.pump.got <+: payloads x.id client.box.queued := by
    calc tunnel.pump.got
        <+: tunnel.entered := htunnel.drains.initial
      _ <+: payloads tunnel.id (host.heard.drop tunnel.since) := htunnel.enters.initial
      _ = payloads x.id host.heard := by
          rw [hid, payloads_drop (hs.missed x hx client host hclient hhost _ hmark)]
      _ <+: payloads x.id client.box.queued := hs.carries hx hpeer hclient hhost rfl
  by_cases hopen : client.tunnel = some x.id
  · exact hgot.trans (hokc.feeds x.id hopen).initial
  · rw [TunnelClient.Ok.payloads_eq_nil hokc hopen, prefix_nil] at hgot
    rw [hgot]
    exact nil_prefix

theorem Ok.toClient (hs : s.Ok C accounts) (ha : s.Attentive) (hx : x ∈ s.relay.created)
    (hclient : s.programs[x.initiatorConn]? = some (.client client))
    (hopen : client.tunnel = some x.id) (hhost : s.programs[x.deviceConn]? = some (.host host))
    (ht : tunnel ∈ host.tunnels) (hid : tunnel.id = x.id) :
    client.pump.got <+: tunnel.pump.built := by
  have hok : host.Ok C := hs.programs _ _ hhost
  have hokc : client.Ok C := hs.programs _ _ hclient
  obtain ⟨i, hi⟩ := getElem?_of_mem ht
  have hne : x.initiatorConn ≠ x.deviceConn := by
    intro heq
    rw [heq, hhost] at hclient
    cases hclient
  have hpeer : x.peerConn x.deviceConn = some x.initiatorConn := by
    rw [ActiveSession.peerConn, if_neg hne, if_pos rfl]
  have hskipped : payloads x.id (client.heard.take client.since) = [] := by
    refine payloads_eq_nil fun frame hframe _ => ?_
    have hearly := ha _ client hclient
    rw [early, hopen] at hearly
    cases hearly _ hframe
  calc client.pump.got
      <+: payloads x.id (client.heard.drop client.since) := (hokc.drains x.id hopen).initial
    _ = payloads x.id client.heard := payloads_drop hskipped
    _ <+: payloads x.id host.box.queued := hs.carries hx hpeer hhost hclient rfl
    _ <+: tunnel.pump.built := hid ▸ (hok.tunnels i tunnel hi).feeds.initial

theorem Ok.frame (hs : s.Ok C accounts) (hp : s.programs[c]? = some p) (hbox : p.box = some box)
    {frame : Bytes} (hframe : .binary frame ∈ box.queued) :
    tunnelSized frame = true ∧
      ∃ id payload, frame = tunnelFrame id payload ∧
        splitTunnelFrame frame = some (id, payload) := by
  have hbuilt : ∃ id payload, frame = tunnelFrame id payload ∧ Tags id frame := by
    cases p with
    | client client =>
      cases hbox
      obtain ⟨id, -, ⟨b, -, hb⟩, htags⟩ := (hs.programs c _ hp : client.Ok C).frames frame hframe
      exact ⟨id, b, hb, htags⟩
    | host host =>
      cases hbox
      obtain ⟨t, -, ⟨b, -, hb⟩, htags⟩ := (hs.programs c _ hp : host.Ok C).frames frame hframe
      exact ⟨t.id, b, hb, htags⟩
    | other => cases hbox
  obtain ⟨id, payload, rfl, htags⟩ := hbuilt
  refine ⟨htags.1, id, payload, rfl, ?_⟩
  rw [htags.split, drop_tunnelFrame]

/-! ## Steps of the relay -/

theorem Ok.new : (TunnelNet.mk {} [] : TunnelNet η τ).Ok C accounts where
  contents := Relay.Contents.new
  aligned := rfl
  programs _ _ hp := by cases hp
  linked _ _ _ hk := by cases hk
  forwards _ hx := by cases hx
  opened _ _ _ hp := by cases hp
  served _ hx := by cases hx
  missed _ hx := by cases hx

theorem received_step (hmoves : k.Moves C s.relay a c k') : k.received <+: k'.received := by
  cases hmoves.queue with
  | stay _ _ _ hreceived | hand _ _ _ _ _ hreceived => rw [hreceived]
  | write _ _ _ _ hreceived =>
    rw [hreceived]
    exact prefix_append _ _
  | cut _ _ hreceived => rw [hreceived]

variable [DecidableEq τ]

theorem said_step (hs : s.Ok C accounts) (hpermits : ∀ d m, a = .receive d m → s.permits a = true)
    (hk : s.relay.conns[c]? = some k) (hp : s.programs[c]? = some p)
    (hmoves : k.Moves C s.relay a c k') (hbox : p.box = some box) : k'.said <+: box.sent := by
  have hbefore := (hs.linked c k p hk hp).said box hbox
  rw [hmoves.said]
  cases a with
  | receive d m =>
    by_cases hd : d = c
    · subst hd
      have hutters := hpermits d m rfl
      simp only [permits, hp, hk, Program.utters, hbox, decide_eq_true_eq] at hutters
      obtain ⟨rest, hrest⟩ := hbefore
      rw [← hrest, getElem?_append_right le_rfl, Nat.sub_self] at hutters
      cases rest with
      | nil => cases hutters
      | cons m' rest =>
        cases hutters
        simp only [RelayAction.utters, if_pos]
        exact ⟨rest, by rw [← hrest, append_assoc, singleton_append]⟩
    · simp only [RelayAction.utters, if_neg hd, append_nil]
      exact hbefore
  | _ =>
    simp only [RelayAction.utters, append_nil]
    exact hbefore

/-- The relay takes a step, and a program may begin at a new connection. -/
theorem Ok.advance (hs : s.Ok C accounts) {relay : Relay τ} {programs : List (Program η τ)}
    (h : s.relay.step C accounts a = some relay)
    (hpermits : ∀ d m, a = .receive d m → s.permits a = true)
    (haligned : programs.length = relay.conns.length)
    (hprograms : ∀ (c : Nat) p, programs[c]? = some p → s.programs[c]? = some p ∨
      c = s.relay.conns.length ∧ p.Fresh C ∧
        ∀ k, relay.conns[c]? = some k → p.fits k.client.kind = true) :
    (TunnelNet.mk relay programs).Ok C accounts := by
  have hcontents := hs.contents.step h
  -- the programs at the ends of sessions were there before
  have hold : ∀ x ∈ s.relay.created, ∀ (c : Nat) p, x.joins c = true → programs[c]? = some p →
      s.programs[c]? = some p := by
    intro x hx c p hjoins hp
    obtain hp | ⟨rfl, -, -⟩ := hprograms c p hp
    · exact hp
    · have hfits := hs.contents.wired.created x hx
      have horg := hfits.org_of_joins hjoins
      simp [Relay.facts, Facts.org] at horg
  have hends : ∀ x : ActiveSession, x.joins x.initiatorConn = true ∧ x.joins x.deviceConn = true :=
    fun x => ⟨ActiveSession.joins_iff.2 (.inl rfl), ActiveSession.joins_iff.2 (.inr rfl)⟩
  -- a new session has an id of its own
  have hcreated : ∀ x ∈ relay.created, x ∈ s.relay.created ∨
      (∀ y ∈ s.relay.created, y.id ≠ x.id) ∧ relay.conns = s.relay.conns := by
    intro x hx
    obtain heq | ⟨m, q, y, hr, heq, hconns⟩ := Relay.created_step h
    · exact .inl (heq ▸ hx)
    · rw [heq] at hx
      obtain hx | hx := mem_append.1 hx
      · exact .inl hx
      · cases mem_singleton.1 hx
        exact .inr ⟨(hs.contents.wired.pending x.id (by rw [hr]; rfl)).2, hconns⟩
  have hsame : ∀ (c : Nat) p, relay.conns = s.relay.conns → programs[c]? = some p →
      s.programs[c]? = some p := by
    intro c p hconns hp
    obtain hp' | ⟨rfl, -, -⟩ := hprograms c p hp
    · exact hp'
    · have hlt := lt_of_slot hp
      rw [haligned, hconns] at hlt
      exact absurd hlt (Nat.lt_irrefl _)
  refine ⟨hcontents, haligned, ?_, ?_, ?_, ?_, ?_, ?_⟩
  · intro c p hp
    obtain hp | ⟨-, hfresh, -⟩ := hprograms c p hp
    · exact hs.programs c p hp
    · exact hfresh.ok
  · intro c k' p hk' hp
    obtain ⟨k, hk, hmoves⟩ | ⟨rfl, account, -, rfl⟩ := Relay.conn_before h hk'
    · obtain hp | ⟨rfl, -, -⟩ := hprograms c p hp
      · have hlinked := hs.linked c k p hk hp
        exact ⟨hlinked.heard.trans ((received_step hmoves).map _),
          fun box hbox => said_step hs hpermits hk hp hmoves hbox,
          hmoves.client ▸ hlinked.kind⟩
      · rw [getElem?_eq_none le_rfl] at hk
        cases hk
    · obtain hp | ⟨-, hfresh, hfits⟩ := hprograms _ p hp
      · rw [← hs.aligned, getElem?_eq_none le_rfl] at hp
        cases hp
      · refine ⟨?_, fun box _ => nil_prefix, hfits _ hk'⟩
        rw [hfresh.heard]
        exact nil_prefix
  · intro x hx c d p box hpeer hp hbox
    obtain hx | ⟨hfresh, hconns⟩ := hcreated x hx
    · have hp := hold x hx c p (ActiveSession.joins_of_peerConn hpeer).1 hp
      exact (hs.forwards x hx c d p box hpeer hp hbox).step hs.contents hx hpeer h
    · have hp := hsame c p hconns hp
      exact Relay.forwards_of_fresh hs.contents hconns hfresh fun k hk =>
        hs.payloads_said hk hp hbox hfresh
  · intro c client id hp htunnel
    obtain hp | ⟨-, hfresh, -⟩ := hprograms c _ hp
    · obtain ⟨x, hx, hid, hc⟩ := hs.opened c client id hp htunnel
      exact ⟨x, Relay.mem_created_step h hx, hid, hc⟩
    · rw [hfresh.client client rfl] at htunnel
      cases htunnel
  · intro x hx client host hclient htunnel hhost
    obtain hx | ⟨hfresh, hconns⟩ := hcreated x hx
    · exact hs.served x hx client host (hold x hx _ _ (hends x).1 hclient) htunnel
        (hold x hx _ _ (hends x).2 hhost)
    · obtain ⟨y, hy, hid, -⟩ := hs.opened _ client x.id (hsame _ _ hconns hclient) htunnel
      exact absurd hid (hfresh y hy)
  · intro x hx client host hclient hhost since hmark
    obtain hx | ⟨hfresh, hconns⟩ := hcreated x hx
    · exact hs.missed x hx client host (hold x hx _ _ (hends x).1 hclient)
        (hold x hx _ _ (hends x).2 hhost) since hmark
    · obtain ⟨y, hy, hid, -⟩ := hs.session_of_mark (hsame _ _ hconns hhost) hmark
      exact absurd hid (hfresh y hy)

theorem Ok.step (hs : s.Ok C accounts) (ha : s.Attentive) {a : NetAction τ}
    (hcalm : s.calm a = true) (h : s.step C H maxTunnels accounts a = some t) :
    t.Ok C accounts ∧ t.Attentive := by
  cases a with
  | join principal start =>
    obtain ⟨⟨org, kind⟩, haccount, h⟩ := bind_eq_some_iff.1 h
    obtain ⟨hfits, h⟩ := ite_none_right_eq_some.1 h
    obtain ⟨relay, hrelay, rfl⟩ := map_eq_some_iff.1 h
    obtain ⟨account, haccount', rfl⟩ := map_eq_some_iff.1 hrelay
    cases haccount.symm.trans haccount'
    have hfresh := Program.fresh_program C H start
    refine ⟨hs.advance hrelay nofun ?_ fun c p hp => ?_, fun c client hc => ?_⟩
    · rw [length_append, length_append, hs.aligned]
      rfl
    · rcases of_slot_snoc hp with hp | ⟨rfl, rfl⟩
      · exact .inl hp
      · refine .inr ⟨hs.aligned, hfresh, fun k hk => ?_⟩
        rw [hs.aligned, getElem?_concat_length, some.injEq] at hk
        subst hk
        exact hfits
    · rcases of_slot_snoc hc with hc | ⟨-, hnew⟩
      · exact ha c client hc
      · rw [← hnew] at hfresh
        have hheard : client.heard = [] := hfresh.heard
        rw [early, hfresh.client client rfl, hheard]
        exact nofun
  | relay a =>
    obtain ⟨hpermits, h⟩ := ite_none_right_eq_some.1 h
    obtain ⟨relay, hrelay, rfl⟩ := map_eq_some_iff.1 h
    refine ⟨hs.advance hrelay (fun _ _ _ => hpermits) ?_ fun c p hp => .inl hp, ha⟩
    obtain hlen | ⟨account, rfl, -, -⟩ := Relay.length_step hrelay
    · rw [hlen, hs.aligned]
    · cases hpermits
  | client c a =>
    simp only [TunnelNet.step] at h
    split at h
    · rename_i client hp
      obtain ⟨client', hstep, rfl⟩ := map_eq_some_iff.1 h
      obtain ⟨hok, hkeeps⟩ := (hs.programs c _ hp : client.Ok C).step hstep
      refine ⟨hs.set_client hp hok (fun k hk => ?_) hkeeps.sent
        fun id hid => .inl (hkeeps.tunnel ▸ hid), ha.set fun client₁ heq => ?_⟩
      · rw [hkeeps.heard]
        exact (hs.linked c k _ hk hp).heard
      · cases heq
        rw [early, hkeeps.tunnel, hkeeps.heard, hkeeps.since]
        exact ha c client hp
    · cases h
  | host c a =>
    simp only [TunnelNet.step] at h
    split at h
    · rename_i host hp
      obtain ⟨host', hstep, rfl⟩ := map_eq_some_iff.1 h
      obtain ⟨hok, hkeeps⟩ := (hs.programs c _ hp : host.Ok C).step hstep
      refine ⟨hs.set_host hp hok (fun k hk => ?_) hkeeps.sent (hkeeps.marks ▸ prefix_refl _)
        fun x hx hc client hclient since hmark => ?_, ha.set nofun⟩
      · rw [hkeeps.heard]
        exact (hs.linked c k _ hk hp).heard
      · rw [hkeeps.heard]
        exact hs.missed x hx client host hclient (hc ▸ hp) since (hkeeps.marks ▸ hmark)
    · cases h
  | read c =>
    obtain ⟨p, hp, h⟩ := bind_eq_some_iff.1 h
    obtain ⟨m, hm, h⟩ := bind_eq_some_iff.1 h
    obtain ⟨p', hnext, rfl⟩ := map_eq_some_iff.1 h
    exact hs.read hp hm hnext ha hcalm

/-! ## Every run -/

/-- As long as no client reads a tunnel frame before it has the answer of the host, each end of each
tunnel reads an initial part of what the other has written, at every moment of every run. -/
theorem tunnels_faithful {acts : List (NetAction τ)}
    (hcalm : RunMeets (step C H maxTunnels accounts) (fun s a => s.calm a = true)
      (TunnelNet.mk {} [] : TunnelNet η τ) acts)
    (hrun : runFrom (step C H maxTunnels accounts) (TunnelNet.mk {} []) acts = some s) :
    s.Faithful := by
  obtain ⟨hs, ha⟩ : s.Ok C accounts ∧ s.Attentive :=
    invariant_of_guardedStep (I := fun s => s.Ok C accounts ∧ s.Attentive)
      (fun _ _ _ h hcalm hstep => h.1.step h.2 hcalm hstep)
      ⟨Ok.new, nofun⟩ hcalm hrun
  refine ⟨?_, ?_, fun c p box frame hp hbox => hs.frame hp hbox⟩
  · intro d host hhost tunnel ht
    have hok : host.Ok C := hs.programs d _ hhost
    obtain ⟨x, hx, hid, rfl, -⟩ := hs.session_of_request hhost (hok.requested tunnel ht)
    refine ⟨x, hx, hid, rfl, fun client hclient => ?_⟩
    have hgot := hs.toHost hx hclient hhost ht hid.symm
    obtain ⟨i, hi⟩ := getElem?_of_mem ht
    exact ⟨read_of_got (hok.tunnels i tunnel hi).pump
      (hs.programs _ _ hclient : client.Ok C).pump hgot, hgot⟩
  · intro c client id hclient hopen
    obtain ⟨x, hx, rfl, rfl⟩ := hs.opened c client id hclient hopen
    refine ⟨x, hx, rfl, rfl, fun host hhost => ?_⟩
    obtain ⟨since, hmark⟩ := hs.served x hx client host hclient hopen hhost
    obtain ⟨tunnel, ht, hid, -⟩ := TunnelHost.mem_marks.1 hmark
    obtain ⟨i, hi⟩ := getElem?_of_mem ht
    have hgot := hs.toClient ha hx hclient hopen hhost ht hid
    exact ⟨tunnel, ht, hid, read_of_got (hs.programs _ _ hclient : client.Ok C).pump
      ((hs.programs _ _ hhost : host.Ok C).tunnels i tunnel hi).pump hgot, hgot⟩

/-! ## A host that sends at once -/

def sampleStep : TunnelNet Unit SignalPacket → NetAction SignalPacket →
    Option (TunnelNet Unit SignalPacket) :=
  step .plain .silent 4 Relay.sampleAccounts

/-- User 1 asks device 2 for a tunnel, and the host opens it. -/
def sampleOpening : List (NetAction SignalPacket) :=
  [.join (Relay.sampleId 1) (.client (Relay.sampleId 2) .empty .consoleControl),
    .join (Relay.sampleId 2) .host] ++
  [.relay (.task 0), .relay (.task 1), .relay (.task 1)] ++ Relay.sampleInsert.map .relay ++
  [.relay .router, .relay .router, .relay (.write 1 true)] ++
  [.read 1, .host 1 .reply, .host 1 .reply, .host 1 .flush]

/-- The host writes a byte to its end of the tunnel and sends it. -/
def sampleSend (b : UInt8) : List (NetAction SignalPacket) :=
  [.host 1 (.pump 0 (.write [b])), .host 1 (.pump 0 (.take 1)), .host 1 (.send 0), .host 1 .flush]

/-- The reader task of the relay takes the answer of the host to the queue of the router. -/
def sampleAnswer : List (NetAction SignalPacket) :=
  [.relay (.receive 1 (.text (.sessionAccepted (Relay.sampleId 50) .controller))),
    .relay (.reader 1 true)]

/-- The reader task forwards a frame of the host, and the client reads it. -/
def sampleForward (b : UInt8) : List (NetAction SignalPacket) :=
  [.relay (.receive 1 (.binary (tunnelFrame (Relay.sampleId 50) [b]))), .relay (.reader 1 true),
    .relay (.reader 1 true), .relay (.reader 1 true), .relay (.reader 1 true),
    .relay (.write 0 true), .read 0]

/-- The router passes the answer on, and the client reads it. -/
def sampleAccept : List (NetAction SignalPacket) :=
  [.relay (.route (Relay.sampleId 51)), .relay .router, .relay .router, .relay (.write 0 true),
    .read 0]

/-- The client takes what has arrived from its end of the tunnel. -/
def sampleTake : List (NetAction SignalPacket) :=
  [.client 0 (.pump (.put 1)), .client 0 (.pump (.read 1))]

/-- The client at connection `c`, and the first tunnel of the host at connection `d`. -/
def endsAt (s : TunnelNet η τ) (c d : Nat) :
    Option (TunnelClient τ × TunnelHost η τ × HostTunnel) :=
  match s.programs[c]?, s.programs[d]? with
  | some (.client client), some (.host host) =>
    host.tunnels.head?.map fun tunnel => (client, host, tunnel)
  | _, _ => none

/-- The client waits for the answer before the host sends. -/
def samplePatientRun : List (NetAction SignalPacket) :=
  sampleOpening ++ sampleAnswer ++ sampleAccept ++ sampleSend 7 ++ sampleForward 7 ++ sampleTake

def samplePatient : TunnelNet Unit SignalPacket :=
  (runFrom sampleStep ⟨{}, []⟩ samplePatientRun).get (by decide +kernel)

theorem tunnels_faithful_samplePatient :
    ((endsAt samplePatient 0 1).map fun (client, _, tunnel) =>
        (client.tunnel, client.pump.down.taken, tunnel.pump.up.put)) =
      some (some (Relay.sampleId 50), [7], [7]) ∧ samplePatient.Faithful := by
  have hcalm : RunMeets sampleStep (fun s a => s.calm a = true) ⟨{}, []⟩ samplePatientRun := by
    decide +kernel
  exact ⟨by decide +kernel, tunnels_faithful hcalm (some_get _).symm⟩

/-- The host sends a byte at once. Its frame comes to the client before the answer. -/
def sampleHastyRun : List (NetAction SignalPacket) :=
  sampleOpening ++ sampleSend 7 ++ sampleAnswer ++ sampleForward 7 ++ sampleAccept ++
  sampleSend 8 ++ sampleForward 8 ++ sampleTake

def sampleHasty : TunnelNet Unit SignalPacket :=
  (runFrom sampleStep ⟨{}, []⟩ sampleHastyRun).get (by decide +kernel)

/-- The client skips the first byte and reads the second. -/
theorem first_frame_skipped :
    runFrom sampleStep ⟨{}, []⟩ sampleHastyRun = some sampleHasty ∧
      ((endsAt sampleHasty 0 1).map fun (client, _, tunnel) =>
          (client.tunnel, client.pump.down.taken, tunnel.pump.up.put)) =
        some (some (Relay.sampleId 50), [8], [7, 8]) ∧ ¬ sampleHasty.Faithful := by
  have hreads : ((endsAt sampleHasty 0 1).map fun (client, _, tunnel) =>
      (client.tunnel, client.pump.down.taken, tunnel.pump.up.put)) =
        some (some (Relay.sampleId 50), [8], [7, 8]) := by decide +kernel
  have hcreated : sampleHasty.relay.created = [Relay.sampleSession] := by decide +kernel
  have htunnels : ((endsAt sampleHasty 0 1).map fun (_, host, _) => host.tunnels.length) =
      some 1 := by decide +kernel
  refine ⟨(some_get _).symm, hreads, fun hfaithful => ?_⟩
  obtain ⟨⟨client, host, tunnel⟩, hends, heq⟩ := map_eq_some_iff.1 hreads
  simp only [Prod.mk.injEq] at heq
  obtain ⟨hopen, htaken, hput⟩ := heq
  rw [hends, map_some, some.injEq] at htunnels
  unfold endsAt at hends
  split at hends
  · rename_i client' host' hclient hhost
    obtain ⟨tunnel', htunnel, heq⟩ := map_eq_some_iff.1 hends
    cases heq
    obtain ⟨x, hx, -, -, hread⟩ := hfaithful.toClient 0 client _ hclient hopen
    rw [hcreated, mem_singleton] at hx
    subst hx
    obtain ⟨other, hother, -, htaken', -⟩ := hread host hhost
    -- the host has only one tunnel
    obtain ⟨only, honly⟩ := length_eq_one_iff.1 htunnels
    rw [honly] at htunnel hother
    cases htunnel
    rw [mem_singleton.1 hother, htaken, hput] at htaken'
    revert htaken'
    decide
  · cases hends

end TunnelNet

end RivetLink.System
