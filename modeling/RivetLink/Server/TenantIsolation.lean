import RivetLink.Server.RelayDeliveries
import RivetLink.Server.RelaySessions
import RivetLink.Server.TenantView

/-!
# Organisations do not see each other

What is delivered through a session comes from its other end, and the two ends are a user and a
device of one organisation (`Wired`). Beyond that, nothing that the connections of other
organisations do changes what the connections of an organisation receive: the steps of a run that
are for organisation `o` (`keeps`) are a run of their own, which ends in the view of `o`
(`TaskMove.view`, `ReaderMove.view`, `RouterMove.view` for the own steps, the lemmas on foreign
steps for the others).
-/

namespace RivetLink.Server

open List Option RivetLink.Foundation RivetLink.Protocol

variable {τ : Type}

/-- The reader looks a second time at a session of another organisation. -/
def ReaderPhase.looksAbroad (o : Uuid) : ReaderPhase τ → Bool
  | .findingPeer _ seen => seen.orgId ≠ o
  | _ => false

/-- The router looks at a device of another organisation. -/
def RouterPhase.looksAbroad (o : Uuid) (org : Nat → Option Uuid) : RouterPhase τ → Bool
  | .checkingOrg _ _ _ d => org d ≠ some o
  | _ => false

namespace Relay

/-- The steps of a run that are for organisation `o`: the steps of its connections and of the router
on its messages, save where they look at what belongs to others. That a connection is authenticated
is kept for all, since it numbers the connections. -/
def keeps (o : Uuid) (s : Relay τ) : RelayAction τ → Bool
  | .connect _ => true
  | .hangUp c | .task c | .write c _ | .writerEnds c | .notice c _ _ | .receive c _
  | .readerEnds c => s.org c = some o
  | .scan c x => s.org c = some o && x.orgId = o
  | .reader c _ =>
    s.org c = some o && !(s.conns[c]?.any fun k => k.reader.looksAbroad o)
  | .route _ => s.signaling.head?.any (·.client.orgId = o)
  | .count x => s.router.isFor o && x.orgId = o
  | .router => s.router.isFor o && !s.router.looksAbroad o s.org

variable {C : PacketCodec τ} {accounts : Uuid → Option (Uuid × PrincipalKind)} {o : Uuid}
  {s t : Relay τ} {c d : Nat} {k : Connection τ} {x : ActiveSession} {ok : Bool} {p : RouterPhase τ}
  {m : SignalingMessage τ} {a : RelayAction τ}

/-! ## Own steps -/

/-- A socket task changes the map of devices. -/
theorem view_setTask_devices (hc : s.org c = some o) {D E : Uuid → Option Nat} (p : TaskPhase)
    (hD : ∀ u, (D u).filter (s.org · = some o) = E u) :
    ({ s.setTask c p with devices := D } : Relay τ).view o =
      { (s.view o).setTask c (p.restrict o) with devices := E } := by
  rw [view_withDevices, view_setTask hc, org_setTask, funext hD]

theorem org_of_own (hk : s.conns[c]? = some k) (ho : k.client.orgId = o) : s.org c = some o := by
  rw [org_eq_of_getElem hk, ho]

/-- The socket task of an own connection does the same in the view. -/
theorem TaskMove.view (h : TaskMove s c k t) (hw : Wired C accounts s) (hk : s.conns[c]? = some k)
    (ho : k.client.orgId = o) : TaskMove (s.view o) c (k.restrict o) (t.view o) := by
  have hc : s.org c = some o := org_of_own hk ho
  have hfits := (hw.conns c k hk).task
  have htask : ∀ {p : TaskPhase}, k.task = p → k.task.restrict o = p.restrict o := congrArg _
  rw [restrict_own ho]
  cases h with
  | list hp hkind =>
    rw [view_setTask_devices hc .listed
      (E := Function.update (s.view o).devices k.client.principalId (some c))]
    · exact .list (htask hp) hkind
    · intro u
      by_cases hu : u = k.client.principalId
      · simp [hu, hc]
      · simp [hu, Relay.view]
  | register hp =>
    have hview : (s.register c).view o = (s.view o).register c :=
      view_modifyConn_own hc (fun _ => rfl) fun _ => rfl
    rw [hview]
    exact .register (hp.imp (And.imp_left htask) htask)
  | unregister hp =>
    have hview : (s.unregister c).view o = (s.view o).unregister c := by
      refine view_modifyConn_own hc (fun _ => rfl) fun k => ?_
      dsimp only
      split <;> rfl
    rw [hview]
    exact .unregister (htask hp)
  | delist hp =>
    rw [view_setTask_devices hc .collecting (E :=
      if (s.view o).devices k.client.principalId = some c then
        Function.update (s.view o).devices k.client.principalId none
      else (s.view o).devices)]
    · exact .delist (htask hp)
    · intro u
      have hsame : (s.view o).devices k.client.principalId = some c ↔
          s.devices k.client.principalId = some c := by
        simp [Relay.view, filter_eq_some_iff, hc]
      by_cases hdev : s.devices k.client.principalId = some c
      · rw [if_pos hdev, if_pos (hsame.2 hdev)]
        by_cases hu : u = k.client.principalId
        · simp [hu]
        · simp [hu, Relay.view]
      · rw [if_neg hdev, if_neg (fun h => hdev (hsame.1 h))]
        rfl
  | collect hp =>
    rw [view_setTask hc]
    exact .collect (htask hp)
  | scanned hp =>
    rw [view_setTask hc]
    exact .scanned (htask hp)
  | skip hp hx =>
    rw [view_setTask hc]
    exact .skip (htask hp) (findSession_view_of_none hx)
  | @delete id ids removed x hp hx =>
    rw [hp] at hfits
    rw [view_setTask (by rw [org_removeSession, hc]), view_removeSession]
    have hxo : x.orgId = o := (hw.eq_of_holds (hfits.1 id mem_cons_self) hx).trans ho
    exact .delete (htask hp) (findSession_view hw hx hxo)
  | deleted hp =>
    rw [view_setTask hc]
    exact .deleted (htask hp)
  | @notify id d rest hp =>
    rw [hp] at hfits
    have hd : s.org d = some o := by
      rw [org_eq, hfits (id, d) mem_cons_self, ho]
    rw [view_setTask (by rw [org_notifyClosed, hc]), view_notifyClosed hd]
    exact .notify (htask hp)
  | finish hp =>
    rw [view_setTask hc]
    exact .finish (htask hp)

/-- The ends of a session are connections of its organisation. -/
theorem org_of_joins (hw : Wired C accounts s) (hx : x ∈ s.created) (hd : x.joins d = true) :
    s.org d = some x.orgId := by
  rw [org_eq, hw.org_of_joins hx hd]

/-- The sessions of an own connection are own ones. -/
theorem own_of_joins (hw : Wired C accounts s) (hx : x ∈ s.created) (hc : s.org c = some o)
    (hjoins : x.joins c = true) : x.orgId = o :=
  some.inj ((org_of_joins hw hx hjoins).symm.trans hc)

/-- The two ends of a session are connections of one organisation. -/
theorem own_of_peerConn (hw : Wired C accounts s) (hx : x ∈ s.created) (hc : s.org c = some o)
    (hpeer : x.peerConn c = some d) : x.orgId = o ∧ s.org d = some o := by
  obtain ⟨hjc, hjd⟩ := ActiveSession.joins_of_peerConn hpeer
  have hxo := own_of_joins hw hx hc hjc
  exact ⟨hxo, hxo ▸ org_of_joins hw hx hjd⟩

theorem restrict_afterNotices (d : Nat) (kind : PrincipalKind) :
    ReaderPhase.restrict o (.afterNotices d kind : ReaderPhase τ) = .afterNotices d kind := by
  cases kind <;> rfl

/-- The reader of an own connection does the same in the view, unless it looks abroad. A tunnel
frame for a foreign session is dropped in the view as soon as the session is looked up. -/
theorem ReaderMove.view (h : ReaderMove s c k ok t) (hw : Wired C accounts s)
    (hk : s.conns[c]? = some k) (ho : k.client.orgId = o) (hhome : k.reader.looksAbroad o = false) :
    ReaderMove (s.view o) c (k.restrict o) ok (t.view o) := by
  have hc : s.org c = some o := org_of_own hk ho
  have hfits := (hw.conns c k hk).reader
  have hreader : ∀ {p : ReaderPhase τ}, k.reader = p → k.reader.restrict o = p.restrict o :=
    congrArg _
  have hfinding : ∀ {frame : Bytes} {seen : ActiveSession}, k.reader = .findingPeer frame seen →
      k.reader.restrict o = .findingPeer frame seen := by
    intro frame seen hp
    rw [hp, ReaderPhase.looksAbroad, decide_eq_false_iff_not, not_not] at hhome
    rw [hp, ReaderPhase.restrict, if_pos hhome]
  rw [restrict_own ho]
  cases h with
  | @send m hp hroom =>
    have hsignaling : (s.signaling ++ [(⟨c, k.client, m⟩ : SignalingMessage τ)]).filter
        (·.client.orgId = o) = (s.view o).signaling ++ [⟨c, k.client, m⟩] := by
      simp [ho, Relay.view]
    rw [view_withSignaling (s := s.setReader c .reading), hsignaling, view_setReader hc]
    exact .send (hreader hp) (Nat.lt_of_le_of_lt (length_filter_le _ _) hroom)
  | noTunnel hp hx =>
    rw [view_setReader hc]
    exact .noTunnel (hreader hp) fun x hfind => hx x (findSession_of_view hw hfind).1
  | @tunnel frame id x hp hx htunnel =>
    rw [view_setReader hc]
    by_cases hxo : x.orgId = o
    · rw [ReaderPhase.restrict, if_pos hxo]
      exact .tunnel (hreader hp) (findSession_view hw hx hxo) htunnel
    · rw [ReaderPhase.restrict, if_neg hxo]
      refine .noTunnel (hreader hp) fun y hfind => ?_
      obtain ⟨hy, hyo⟩ := findSession_of_view hw hfind
      rw [hx, some.injEq] at hy
      exact absurd (hy ▸ hyo) hxo
  | noPeer hp hx =>
    rw [view_setReader hc]
    exact .noPeer (hfinding hp) fun x hfind => hx x (findSession_of_view hw hfind).1
  | @peer frame seen x d hp hx hpeer =>
    obtain ⟨hxo, -⟩ := own_of_peerConn hw (hw.sessions x (mem_of_findSession hx).1) hc hpeer
    rw [view_setReader hc]
    exact .peer (hfinding hp) (findSession_view hw hx hxo) hpeer
  | @noClient frame x d hp hd =>
    rw [hp] at hfits
    obtain ⟨-, hdo⟩ := own_of_peerConn hw hfits.2.1 hc hfits.2.2
    rw [view_setReader hc]
    exact .noClient (hreader hp) (by rw [getClient_view hdo, hd]; rfl)
  | @client frame x d k' hp hd =>
    rw [hp] at hfits
    obtain ⟨-, hdo⟩ := own_of_peerConn hw hfits.2.1 hc hfits.2.2
    rw [view_setReader hc, ← client_restrict (o := o) k']
    exact .client (hreader hp) (by rw [getClient_view hdo, hd]; rfl)
  | @deliver frame x d kind hp hok hroom =>
    rw [hp] at hfits
    obtain ⟨-, hdo⟩ := own_of_peerConn hw hfits.2.1 hc hfits.2.2.1
    rw [view_setReader (by rw [org_push, hc]), view_push hdo]
    refine .deliver (hreader hp) hok ?_
    obtain ⟨k', hk', hroom'⟩ := any_eq_true _ _ |>.1 hroom
    rw [getElem_view_own hk' hdo]
    exact hroom'
  | giveUp hp hok =>
    rw [view_setReader hc]
    exact .giveUp (hreader hp) hok
  | @remove id d kind x hp hx =>
    rw [hp] at hfits
    have hxo : x.orgId = o := (hw.eq_of_holds hfits.1 hx).trans ho
    rw [view_setReader (by rw [org_removeSession, hc]), view_removeSession]
    exact .remove (hreader hp) (findSession_view hw hx hxo)
  | gone hp hx =>
    rw [view_setReader hc, restrict_afterNotices]
    exact .gone (hreader hp) (findSession_view_of_none hx)
  | @notify id d peer rest kind hp =>
    rw [hp] at hfits
    have hd : s.org d = some o := by
      rw [org_eq, hfits.1 (id, d) mem_cons_self, ho]
    rw [view_setReader (by rw [org_notifyClosed, hc]), view_notifyClosed hd]
    exact .notify (hreader hp)
  | notified hp =>
    rw [view_setReader hc, restrict_afterNotices]
    exact .notified (hreader hp)
  | @drop d hp =>
    rw [hp] at hfits
    have hdo : s.org d = some o := by rw [org_eq, hfits.1, ho]
    have hview : (s.drop d).view o = (s.view o).drop d :=
      view_modifyConn_own hdo (fun _ => rfl) fun _ => rfl
    rw [view_setReader (by rw [org_drop, hc]), hview]
    exact .drop (hreader hp)

/-- How the view goes with what the router changes. -/
theorem view_withRouter (sessions delivered ended created : List ActiveSession)
    (p : RouterPhase τ) :
    ({ s with
        sessions := sessions
        delivered := delivered
        endedByDevice := ended
        created := created
        router := p } : Relay τ).view o =
      { s.view o with
        sessions := sessions.filter (·.orgId = o)
        delivered := delivered.filter (·.orgId = o)
        endedByDevice := ended.filter (·.orgId = o)
        created := created.filter (·.orgId = o)
        router := if p.isFor o then p.restrict o s.org else .idle } :=
  rfl

theorem filter_append_own (hx : x.orgId = o) (l : List ActiveSession) :
    (l ++ [x]).filter (·.orgId = o) = l.filter (·.orgId = o) ++ [x] := by
  simp [filter_append, hx]

/-- The router works on messages that came over connections of their organisation. -/
theorem org_of_message (hw : Wired C accounts s) (hr : s.router = p) (hm : p.message = some m) :
    s.org m.connId = some m.client.orgId := by
  have hfits := hw.router
  rw [hr] at hfits
  rw [org_eq, Facts.org]
  cases p with
  | idle => cases hm
  | findingDevice =>
    cases hm
    rw [hfits.client, map_some]
  | rejecting =>
    cases hm
    rw [SignalingMessage.Fits.client hfits, map_some]
  | _ =>
    cases hm
    rw [hfits.1.client, map_some]

/-- The session that the router is about to create is for the organisation of the message. -/
theorem org_of_inserting {q : SessionQuery} (hw : Wired C accounts s)
    (hr : s.router = .inserting m q x) : x.orgId = m.client.orgId := by
  have hfits := hw.router
  rw [hr] at hfits
  have hinit := hfits.2.1.initiator
  rw [hfits.2.2, hfits.1.client, some.injEq] at hinit
  rw [hinit]

/-- The router does the same for an own message in the view, unless it looks abroad. A foreign
device is not found in the view. -/
theorem RouterMove.view (h : RouterMove C s t) (hw : Wired C accounts s)
    (hfor : s.router.isFor o = true) (hhome : s.router.looksAbroad o s.org = false) :
    RouterMove C (s.view o) (t.view o) := by
  have hfits := hw.router
  have hrouter : ∀ {p : RouterPhase τ}, s.router = p → (s.view o).router = p.restrict o s.org := by
    intro p hp
    rw [router_view_own hfor, hp]
  have hown : ∀ {m : SignalingMessage τ} {p : RouterPhase τ}, s.router = p →
      p.message = some m → m.client.orgId = o := by
    intro m p hr hm
    simpa [RouterPhase.isFor, hr, hm] using hfor
  have hsame : ∀ {p q : RouterPhase τ}, s.router = p → q.message = p.message →
      q.isFor o = true := by
    intro p q hr hq
    rw [RouterPhase.isFor, hq, ← hr]
    exact hfor
  have hset : ∀ {p q : RouterPhase τ} {u : Relay τ}, s.router = p → q.message = p.message →
      ({ u with router := q } : Relay τ).view o = { u.view o with router := q.restrict o u.org } :=
    fun hr hq => view_setRouter_own (hsame hr hq)
  have hconn : ∀ {m : SignalingMessage τ} {p : RouterPhase τ}, s.router = p →
      p.message = some m → s.org m.connId = some o :=
    fun hr hm => hown hr hm ▸ org_of_message hw hr hm
  have hchecking : ∀ {m : SignalingMessage τ} {q : SessionQuery} {id : Uuid} {d : Nat},
      s.router = .checkingOrg m q id d →
      s.org d = some o ∧ (s.view o).router = .checkingOrg m q id d := by
    intro m q id d hr
    have hdo : s.org d = some o := by simpa [hr, RouterPhase.looksAbroad] using hhome
    exact ⟨hdo, (hrouter hr).trans (if_pos hdo)⟩
  have hdelivering : ∀ {m : SignalingMessage τ} {q : SessionQuery} {x : ActiveSession},
      s.router = .delivering m q x → x.orgId = o ∧ s.org x.deviceConn = some o := by
    intro m q x hr
    rw [hr] at hfits
    have hxo := own_of_joins hw hfits.2.1 (hconn hr rfl) (by simp [ActiveSession.joins, hfits.2.2])
    exact ⟨hxo, hxo ▸ org_of_joins hw hfits.2.1 (by simp [ActiveSession.joins])⟩
  suffices hmove : ∃ u, RouterMove C (s.view o) u ∧ t.view o = u by
    obtain ⟨u, hu, heq⟩ := hmove
    exact heq ▸ hu
  cases h with
  | offline hr hd => exact ⟨_, .offline (hrouter hr) (by simp [Relay.view, hd]), hset hr rfl⟩
  | @online m q id d hr hd =>
    have hview : ({ s with router := .checkingOrg m q id d } : Relay τ).view o = _ := hset hr rfl
    rw [RouterPhase.restrict] at hview
    by_cases hdo : s.org d = some o
    · rw [if_pos hdo] at hview
      exact ⟨_, .online (hrouter hr) (by simp [Relay.view, hd, hdo]), hview⟩
    · rw [if_neg hdo] at hview
      exact ⟨_, .offline (hrouter hr) (by simp [Relay.view, hd, hdo]), hview⟩
  | foreign hr horg =>
    obtain ⟨hdo, hr'⟩ := hchecking hr
    exact ⟨_,
      .foreign hr' (by rw [any_getClient_view hdo fun k hk => by rw [restrict_own hk], horg]),
      hset hr rfl⟩
  | known hr horg =>
    obtain ⟨hdo, hr'⟩ := hchecking hr
    exact ⟨_, .known hr' (by rw [any_getClient_view hdo fun k hk => by rw [restrict_own hk], horg]),
      hset hr rfl⟩
  | tooMany hr hmax => exact ⟨_, .tooMany (hrouter hr) hmax, hset hr rfl⟩
  | busy hr huser hmax => exact ⟨_, .busy (hrouter hr) huser hmax, hset hr rfl⟩
  | accept hr huser hdevice => exact ⟨_, .accept (hrouter hr) huser hdevice, hset hr rfl⟩
  | @insert m q x hr =>
    have hxo : x.orgId = o := (org_of_inserting hw hr).trans (hown hr rfl)
    refine ⟨_, .insert (hrouter hr), (view_withRouter ..).trans ?_⟩
    rw [filter_append_own hxo, filter_append_own hxo,
      if_pos (hsame (q := .delivering m q x) hr rfl)]
    rfl
  | @deliver m q x hr hroom =>
    obtain ⟨hxo, hdo⟩ := hdelivering hr
    refine ⟨_, .deliver (hrouter hr) (by rw [any_hasRoom_view hdo, hroom]),
      (view_withRouter (s := s.push ..) ..).trans ?_⟩
    rw [filter_append_own hxo, if_pos (hsame (q := .rechecking m x true) hr rfl), view_push hdo]
    rfl
  | undelivered hr hroom =>
    obtain ⟨-, hdo⟩ := hdelivering hr
    exact ⟨_, .undelivered (hrouter hr) (by rw [any_hasRoom_view hdo, hroom]), hset hr rfl⟩
  | keep hr hclient =>
    refine ⟨_, .keep (hrouter hr) ?_, view_setRouter_foreign rfl⟩
    rw [getClient_view (hconn hr rfl), isSome_map, hclient]
  | withdraw hr hclient =>
    refine ⟨_, .withdraw (hrouter hr) ?_, hset hr rfl⟩
    rw [getClient_view (hconn hr rfl), isSome_map, hclient]
  | @undo m x hr =>
    refine ⟨_, .undo (hrouter hr), (hset (u := s.removeSession x.id) hr (by rfl)).trans ?_⟩
    rw [view_removeSession]
    rfl
  | reject hr =>
    refine ⟨_, .reject (hrouter hr), (view_setRouter_foreign rfl).trans ?_⟩
    rw [view_sendTo (hconn hr rfl)]
  | noMember hr hx =>
    exact ⟨_, .noMember (hrouter hr) fun x hfind => hx x (findSession_of_view hw hfind).1,
      view_setRouter_foreign rfl⟩
  | @member m id ends x peer hr hx hpeer =>
    obtain ⟨hxo, -⟩ := own_of_peerConn hw (hw.sessions x (mem_of_findSession hx).1)
      (hconn hr rfl) hpeer
    exact ⟨_, .member (hrouter hr) (findSession_view hw hx hxo) hpeer, hset hr rfl⟩
  | @passOn m x peer ends hr =>
    rw [hr] at hfits
    obtain ⟨-, hpo⟩ := own_of_peerConn hw hfits.2.1 (hconn hr rfl) hfits.2.2.1
    refine ⟨_, .passOn (hrouter hr), ?_⟩
    cases ends with
    | true =>
      refine (hset hr (by rfl)).trans ?_
      rw [view_sendTo hpo]
      rfl
    | false =>
      refine (view_setRouter_foreign rfl).trans ?_
      rw [view_sendTo hpo]
      rfl
  | @finish m x hr =>
    rw [hr] at hfits
    obtain ⟨-, hx, hpeer⟩ := hfits
    obtain ⟨peer, hpeer⟩ := isSome_iff_exists.1 hpeer
    obtain ⟨hxo, -⟩ := own_of_peerConn hw hx (hconn hr rfl) hpeer
    have hfound : ((s.view o).findSession x.id).isSome = (s.findSession x.id).isSome := by
      cases hfind : s.findSession x.id with
      | none => rw [findSession_view_of_none hfind]
      | some y =>
        obtain ⟨hy, hyid⟩ := mem_of_findSession hfind
        have hyx : y = x := hw.unique y (hw.sessions y hy) x hx hyid
        rw [findSession_view hw hfind (hyx ▸ hxo)]
    refine ⟨_, .finish (hrouter hr), (view_withRouter (s := s.removeSession x.id) ..).trans ?_⟩
    have hended : (if m.connId = x.deviceConn ∧ (s.findSession x.id).isSome then
          s.endedByDevice ++ [x] else s.endedByDevice).filter (·.orgId = o) =
        if m.connId = x.deviceConn ∧ ((s.view o).findSession x.id).isSome then
          (s.view o).endedByDevice ++ [x] else (s.view o).endedByDevice := by
      rw [hfound]
      split
      · exact filter_append_own hxo _
      · rfl
    have hsessions : (s.removeSession x.id).sessions.filter (·.orgId = o) =
        ((s.view o).removeSession x.id).sessions :=
      congrArg Relay.sessions (view_removeSession x.id)
    rw [hended, hsessions, view_removeSession]
    rfl

/-! ## Foreign steps -/

theorem org_ne {q : Uuid} (hq : q ≠ o) (hc : s.org c = some q) : s.org c ≠ some o := by
  rw [hc]
  exact fun h => hq (some.inj h)

/-- A device of another organisation is not in the map of the view. -/
theorem devices_foreign (hw : Wired C accounts s) (hk : s.conns[c]? = some k)
    (ho : k.client.orgId ≠ o) :
    (s.devices k.client.principalId).filter (s.org · = some o) = none := by
  cases hd : s.devices k.client.principalId with
  | none => rfl
  | some d =>
    obtain ⟨o', ho'⟩ := hw.devices _ _ hd
    -- a principal is of one organisation
    have hsame : some (o', PrincipalKind.device) = some (k.client.orgId, k.client.kind) :=
      (hw.accounts _ _ ho').symm.trans (hw.accounts _ _ (clients_of_getElem hk))
    simp only [some.injEq, Prod.mk.injEq] at hsame
    have horg : s.org d = some k.client.orgId := by
      rw [org_eq, Facts.org, ho', map_some, hsame.1]
    simp [Option.filter, org_ne ho horg]

theorem view_setTask_devices_foreign (hc : s.org c ≠ some o) {D : Uuid → Option Nat} (p : TaskPhase)
    (hD : ∀ u, (D u).filter (s.org · = some o) = (s.devices u).filter (s.org · = some o)) :
    ({ s.setTask c p with devices := D } : Relay τ).view o = s.view o := by
  rw [view_withDevices, view_setTask_foreign hc, org_setTask, funext hD]
  rfl

/-- What the socket task of a foreign connection does is not seen. -/
theorem TaskMove.view_foreign (h : TaskMove s c k t) (hw : Wired C accounts s)
    (hk : s.conns[c]? = some k) (ho : k.client.orgId ≠ o) : t.view o = s.view o := by
  have hc : s.org c ≠ some o := fun hc => ho (own_of_org hk hc)
  have hfits := (hw.conns c k hk).task
  have hset : ∀ p, (s.setTask c p).view o = s.view o := view_setTask_foreign hc
  cases h with
  | list hp hkind =>
    refine view_setTask_devices_foreign hc _ fun u => ?_
    by_cases hu : u = k.client.principalId
    · subst hu
      rw [devices_foreign hw hk ho]
      simp [hc]
    · simp [hu]
  | register | unregister => exact view_modifyConn_foreign (fun _ => rfl) hc
  | delist hp =>
    refine view_setTask_devices_foreign hc _ fun u => ?_
    split
    · by_cases hu : u = k.client.principalId
      · subst hu
        rw [devices_foreign hw hk ho]
        simp
      · simp [hu]
    · rfl
  | @delete id ids removed x hp hx =>
    rw [hp] at hfits
    have hxo : x.orgId ≠ o := hw.eq_of_holds (hfits.1 id mem_cons_self) hx ▸ ho
    refine (view_setTask_foreign ?_ _).trans (view_removeSession_foreign hw hx hxo)
    exact hc
  | @notify id d rest hp =>
    rw [hp] at hfits
    have hd := org_ne ho ((org_eq s d).trans (hfits (id, d) mem_cons_self))
    refine (view_setTask_foreign ?_ _).trans (view_notifyClosed_foreign hd id)
    rw [org_notifyClosed]
    exact hc
  | _ => exact hset _

/-- What the reader of a foreign connection does is not seen. -/
theorem ReaderMove.view_foreign (h : ReaderMove s c k ok t) (hw : Wired C accounts s)
    (hk : s.conns[c]? = some k) (ho : k.client.orgId ≠ o) : t.view o = s.view o := by
  have hc : s.org c ≠ some o := fun hc => ho (own_of_org hk hc)
  have hfits := (hw.conns c k hk).reader
  have hset : ∀ p, (s.setReader c p).view o = s.view o := view_setReader_foreign hc
  cases h with
  | @send m hp hroom =>
    have hsignaling : (s.signaling ++ [(⟨c, k.client, m⟩ : SignalingMessage τ)]).filter
        (·.client.orgId = o) =
        (s.view o).signaling := by
      simp [ho, Relay.view]
    refine (view_withSignaling (s := s.setReader c .reading) _).trans ?_
    rw [hset, hsignaling]
  | @deliver frame x d kind hp hok hroom =>
    rw [hp] at hfits
    have hd := org_ne ho (own_of_peerConn hw hfits.2.1 (org_eq_of_getElem hk) hfits.2.2.1).2
    refine (view_setReader_foreign ?_ _).trans (view_push_foreign hd _)
    rw [org_push]
    exact hc
  | @remove id d kind x hp hx =>
    rw [hp] at hfits
    have hxo : x.orgId ≠ o := hw.eq_of_holds hfits.1 hx ▸ ho
    refine (view_setReader_foreign ?_ _).trans (view_removeSession_foreign hw hx hxo)
    exact hc
  | @notify id d peer rest kind hp =>
    rw [hp] at hfits
    have hd := org_ne ho ((org_eq s d).trans (hfits.1 (id, d) mem_cons_self))
    refine (view_setReader_foreign ?_ _).trans (view_notifyClosed_foreign hd id)
    rw [org_notifyClosed]
    exact hc
  | @drop d hp =>
    rw [hp] at hfits
    have hd := org_ne ho ((org_eq s d).trans hfits.1)
    have hdrop : (s.drop d).view o = s.view o := view_modifyConn_foreign (fun _ => rfl) hd
    refine (view_setReader_foreign ?_ _).trans hdrop
    rw [org_drop]
    exact hc
  | _ => exact hset _

/-- When the reader of an own connection looks abroad, it finds nothing. -/
theorem ReaderMove.view_abroad (h : ReaderMove s c k ok t) (hw : Wired C accounts s)
    (hk : s.conns[c]? = some k) (ho : k.client.orgId = o)
    (habroad : k.reader.looksAbroad o = true) :
    t.view o = s.view o := by
  have hc : s.org c = some o := org_of_own hk ho
  have hfits := (hw.conns c k hk).reader
  cases h with
  | @noPeer frame seen hp hx =>
    have hseen : seen.orgId ≠ o := by simpa [hp, ReaderPhase.looksAbroad] using habroad
    rw [view_setReader hc]
    refine modifyConn_eq_self fun k' hk' => ?_
    rw [getElem_view hk, some.injEq] at hk'
    have hreading : k'.reader = .reading := by
      rw [← hk', restrict_own ho, hp]
      exact if_neg hseen
    change { k' with reader := .reading } = k'
    rw [← hreading]
  | @peer frame seen x d hp hx hpeer =>
    have hseen : seen.orgId ≠ o := by simpa [hp, ReaderPhase.looksAbroad] using habroad
    rw [hp] at hfits
    obtain ⟨hmem, hid⟩ := mem_of_findSession hx
    have hxs : x = seen := hw.unique x (hw.sessions x hmem) seen hfits.2 hid
    have hxo : x.orgId = o :=
      own_of_joins hw (hw.sessions x hmem) hc (ActiveSession.joins_of_peerConn hpeer).1
    exact absurd (hxs ▸ hxo) hseen
  | send hp | noTunnel hp | tunnel hp | noClient hp | client hp | deliver hp | giveUp hp | remove hp
  | gone hp | notify hp | notified hp | drop hp => simp [hp, ReaderPhase.looksAbroad] at habroad

/-- A session of another organisation that is added to a list is not seen. -/
theorem filter_append_foreign (hx : x.orgId ≠ o) (l : List ActiveSession) :
    (l ++ [x]).filter (·.orgId = o) = l.filter (·.orgId = o) := by
  simp [filter_append, hx]

/-- What the router does for a foreign message is not seen. -/
theorem RouterMove.view_foreign (h : RouterMove C s t) (hw : Wired C accounts s)
    (hfor : s.router.isFor o = false) : t.view o = s.view o := by
  have hfits := hw.router
  have hidle : { s.view o with router := .idle } = s.view o := by
    rw [← router_view_foreign hfor]
  have hown : ∀ {m : SignalingMessage τ} {p : RouterPhase τ}, s.router = p →
      p.message = some m → m.client.orgId ≠ o := by
    intro m p hr hm
    simpa [RouterPhase.isFor, hr, hm] using hfor
  have hsame : ∀ {p q : RouterPhase τ}, s.router = p → q.message = p.message →
      q.isFor o = false := by
    intro p q hr hq
    rw [RouterPhase.isFor, hq, ← hr]
    exact hfor
  have hconn : ∀ {m : SignalingMessage τ} {p : RouterPhase τ}, s.router = p →
      p.message = some m → s.org m.connId ≠ some o :=
    fun hr hm => org_ne (hown hr hm) (org_of_message hw hr hm)
  -- the sessions of a foreign connection and their ends are foreign
  have hsession : ∀ {m : SignalingMessage τ} {p : RouterPhase τ} {x : ActiveSession},
      s.router = p → p.message = some m → x ∈ s.created → x.joins m.connId = true →
      x.orgId ≠ o :=
    fun hr hm hx hjoins hxo => hconn hr hm (hxo ▸ org_of_joins hw hx hjoins)
  have hset : ∀ {p q : RouterPhase τ}, s.router = p → q.message = p.message →
      ({ s with router := q } : Relay τ).view o = s.view o :=
    fun hr hq => (view_setRouter_foreign (hsame hr hq)).trans hidle
  have hdone : ({ s with router := .idle } : Relay τ).view o = s.view o :=
    (view_setRouter_foreign rfl).trans hidle
  cases h with
  | offline hr | online hr | foreign hr | known hr | tooMany hr | busy hr | accept hr
  | undelivered hr | withdraw hr | member hr => exact hset hr rfl
  | keep | noMember => exact hdone
  | @insert m q x hr =>
    have hxo : x.orgId ≠ o := org_of_inserting hw hr ▸ hown hr rfl
    have hp : (RouterPhase.delivering m q x).isFor o = false := hsame hr rfl
    refine (view_withRouter ..).trans ?_
    rw [filter_append_foreign hxo, filter_append_foreign hxo, hp, if_neg Bool.false_ne_true]
    exact hidle
  | @deliver m q x hr hroom =>
    rw [hr] at hfits
    have hxo : x.orgId ≠ o :=
      hsession hr rfl hfits.2.1 (by simp [ActiveSession.joins, hfits.2.2])
    have hp : (RouterPhase.rechecking m x true).isFor o = false := hsame hr rfl
    refine (view_withRouter (s := s.push ..) ..).trans ?_
    rw [filter_append_foreign hxo, hp, if_neg Bool.false_ne_true,
      view_push_foreign (org_ne hxo (org_of_joins hw hfits.2.1 (by simp [ActiveSession.joins])))]
    exact hidle
  | @undo m x hr =>
    rw [hr] at hfits
    have hxo : x.orgId ≠ o :=
      hsession hr rfl hfits.2.1 (by simp [ActiveSession.joins, hfits.2.2])
    refine (view_setRouter_foreign (s := s.removeSession x.id) (hsame hr (by rfl))).trans ?_
    rw [view_removeSession_of_created hw hfits.2.1 hxo]
    exact hidle
  | @reject m id reason hr =>
    refine (view_setRouter_foreign rfl).trans ?_
    rw [view_sendTo_foreign (hconn hr rfl)]
    exact hidle
  | @passOn m x peer ends hr =>
    rw [hr] at hfits
    obtain ⟨-, hpo⟩ := own_of_peerConn hw hfits.2.1 (org_of_message hw hr rfl) hfits.2.2.1
    have hp : (if ends then RouterPhase.ending m x else .idle).isFor o = false := by
      cases ends with
      | true => exact hsame hr rfl
      | false => rfl
    refine (view_setRouter_foreign hp).trans ?_
    rw [view_sendTo_foreign (org_ne (hown hr rfl) hpo)]
    exact hidle
  | @finish m x hr =>
    rw [hr] at hfits
    obtain ⟨-, hx, hpeer⟩ := hfits
    obtain ⟨peer, hpeer⟩ := isSome_iff_exists.1 hpeer
    have hxo : x.orgId ≠ o := hsession hr rfl hx (ActiveSession.joins_of_peerConn hpeer).1
    have hended : (if m.connId = x.deviceConn ∧ (s.findSession x.id).isSome then
        s.endedByDevice ++ [x] else s.endedByDevice).filter (·.orgId = o) =
          (s.view o).endedByDevice := by
      split
      · exact filter_append_foreign hxo _
      · rfl
    have hremove := view_removeSession_of_created hw hx hxo
    have hsessions : (s.removeSession x.id).sessions.filter (·.orgId = o) = (s.view o).sessions :=
      congrArg Relay.sessions hremove
    refine (view_withRouter (s := s.removeSession x.id) ..).trans ?_
    rw [hended, hsessions, hremove]
    exact hidle

/-- When the router looks abroad for an own message, it finds nothing. -/
theorem RouterMove.view_abroad (h : RouterMove C s t) (hfor : s.router.isFor o = true)
    (habroad : s.router.looksAbroad o s.org = true) : t.view o = s.view o := by
  have hrouter := router_view_own hfor
  cases h with
  | @foreign m q id d hr horg =>
    have hd : s.org d ≠ some o := by simpa [hr, RouterPhase.looksAbroad] using habroad
    rw [hr, RouterPhase.restrict, if_neg hd] at hrouter
    have hfor' : (RouterPhase.rejecting m id unknownDevice).isFor o = true := by
      rw [hr] at hfor
      exact hfor
    refine (view_setRouter_own hfor').trans ?_
    change { s.view o with router := .rejecting m id unknownDevice } = s.view o
    rw [← hrouter]
  | @known m q id d hr horg =>
    have hd : s.org d ≠ some o := by simpa [hr, RouterPhase.looksAbroad] using habroad
    obtain ⟨k, hk, hko⟩ := any_eq_true _ _ |>.1 horg
    have hmo : m.client.orgId = o := by
      simpa [hr, RouterPhase.isFor, RouterPhase.message] using hfor
    rw [org_eq_of_getElem (getClient_eq_some.1 hk).1, of_decide_eq_true hko, hmo] at hd
    exact absurd rfl hd
  | offline hr | online hr | tooMany hr | busy hr | accept hr | insert hr | deliver hr
  | undelivered hr | keep hr | withdraw hr | undo hr | reject hr | noMember hr | member hr
  | passOn hr | finish hr => simp [hr, RouterPhase.looksAbroad] at habroad

/-! ## The other steps -/

theorem filter_ne_own (x : ActiveSession) (todo : List ActiveSession) :
    (todo.filter (· ≠ x)).filter (·.orgId = o) = (todo.filter (·.orgId = o)).filter (· ≠ x) := by
  rw [List.filter_filter, List.filter_filter]
  exact List.filter_congr fun y _ => Bool.and_comm _ _

theorem filter_ne_foreign (hxo : x.orgId ≠ o) (todo : List ActiveSession) :
    (todo.filter (· ≠ x)).filter (·.orgId = o) = todo.filter (·.orgId = o) := by
  rw [List.filter_filter]
  refine List.filter_congr fun y _ => ?_
  by_cases hyo : y.orgId = o
  · have hne : y ≠ x := fun h => hxo (h ▸ hyo)
    simp [hyo, hne]
  · simp [hyo]

/-- The router takes a message. -/
theorem view_withMessage (rest : List (SignalingMessage τ)) (used : List (Uuid × Uuid))
    (hm : p.message = some m) (hp : p.restrict o s.org = p) :
    ({ s with signaling := rest, used := used, router := p } : Relay τ).view o =
      { s.view o with
        signaling := rest.filter (·.client.orgId = o)
        used := used.filter (·.2 = o)
        router := if m.client.orgId = o then p else .idle } := by
  have hview : ({ s with signaling := rest, used := used, router := p } : Relay τ).view o =
      { s.view o with
        signaling := rest.filter (·.client.orgId = o)
        used := used.filter (·.2 = o)
        router := if p.isFor o then p.restrict o s.org else .idle } := rfl
  rw [hview, hp, RouterPhase.isFor, hm]
  simp

/-- The accounts tell a principal of one organisation from a principal of another. -/
theorem principal_ne (hw : Wired C accounts s) {a b : AuthOutcome} (hc : s.facts.clients c = some a)
    (hd : s.facts.clients d = some b) (hne : a.orgId ≠ b.orgId) :
    a.principalId ≠ b.principalId := by
  intro h
  have ha := hw.accounts c a hc
  rw [h, hw.accounts d b hd, some.injEq, Prod.mk.injEq] at ha
  exact hne ha.1.symm

/-- The count for an own message passes over a foreign session, which counts neither for the user
nor for the device. -/
theorem count_view_abroad {q : SessionQuery} {id : Uuid} {byUser byDevice : Nat}
    {todo : List ActiveSession} (hw : Wired C accounts s)
    (hr : s.router = .counting m q id d todo byUser byDevice) (hfor : s.router.isFor o = true)
    (hxo : x.orgId ≠ o) :
    ({ s with
        router := .counting m q id d (todo.filter (· ≠ x))
          (byUser + if x ∈ s.sessions ∧ x.initiatorId = m.client.principalId then 1 else 0)
          (byDevice + if x ∈ s.sessions ∧ x.deviceId = q.deviceId then 1 else 0) } :
        Relay τ).view o = s.view o := by
  have hr' := router_view_own hfor
  have hfits := hw.router
  rw [hr] at hr' hfits hfor
  rw [RouterPhase.restrict] at hr'
  have hmo : m.client.orgId = o := by simpa [RouterPhase.isFor, RouterPhase.message] using hfor
  have hne : x.orgId ≠ m.client.orgId := fun h => hxo (h.trans hmo)
  have huser : ¬ (x ∈ s.sessions ∧ x.initiatorId = m.client.principalId) := fun hx =>
    principal_ne hw (hw.created x (hw.sessions x hx.1)).initiator hfits.1.client hne hx.2
  have hdevice : ¬ (x ∈ s.sessions ∧ x.deviceId = q.deviceId) := fun hx =>
    principal_ne hw (hw.created x (hw.sessions x hx.1)).device hfits.2 hne hx.2
  refine (view_setRouter_own (by exact hfor)).trans ?_
  rw [if_neg huser, if_neg hdevice, RouterPhase.restrict, filter_ne_foreign hxo, Nat.add_zero,
    Nat.add_zero, ← hr']

/-- The view of the router depends on who the known connections belong to. -/
theorem restrict_congr {F : Facts τ} (hp : p.Fits C F) {f g : Nat → Option Uuid}
    (hfg : ∀ d a, F.clients d = some a → f d = g d) : p.restrict o f = p.restrict o g := by
  cases p with
  | checkingOrg m q id d =>
    obtain ⟨-, o', hd⟩ := hp
    rw [RouterPhase.restrict, RouterPhase.restrict, hfg d _ hd]
  | _ => rfl

/-- A new connection of whatever organisation shows that it is there. -/
theorem view_connect (hw : Wired C accounts s) (client : AuthOutcome) :
    ({ s with conns := s.conns ++ [{ client := client }] } : Relay τ).view o =
      { s.view o with conns := (s.view o).conns ++ [{ client := client }] } := by
  set new : Connection τ := { client := client }
  have hrestrict : new.restrict o = new := by
    unfold Connection.restrict
    split <;> rfl
  -- what is known of a connection stays known
  have horg : ∀ {d : Nat} {a : AuthOutcome}, s.facts.clients d = some a →
      ({ s with conns := s.conns ++ [new] } : Relay τ).org d = s.org d := by
    intro d a hd
    obtain ⟨k, hk, -⟩ := map_eq_some_iff.1 hd
    simp [org, getElem?_append_left (lt_of_slot hk)]
  have hdevices : ∀ u, (s.devices u).filter
      (({ s with conns := s.conns ++ [new] } : Relay τ).org · = some o) = (s.view o).devices u := by
    intro u
    cases hd : s.devices u with
    | none => simp [Relay.view, hd]
    | some d =>
      obtain ⟨o', hd'⟩ := hw.devices u d hd
      simp [Relay.view, hd, Option.filter, horg hd']
  have hconns : (s.conns ++ [new]).map (·.restrict o) = (s.view o).conns ++ [new] := by
    rw [map_append, map_singleton, hrestrict]
    rfl
  have hrouter : (if s.router.isFor o then
      s.router.restrict o ({ s with conns := s.conns ++ [new] } : Relay τ).org else .idle) =
      (s.view o).router := by
    rw [restrict_congr hw.router fun _ _ => horg]
    rfl
  unfold Relay.view
  rw [hconns, hrouter, funext hdevices]
  rfl

/-- In the view, the tasks of an own connection are where they are. -/
theorem restrict_eq_serving {p : TaskPhase} : p.restrict o = .serving ↔ p = .serving := by
  cases p <;> simp [TaskPhase.restrict]

theorem begun_restrict (p : TaskPhase) : (p.restrict o).begun = p.begun := by
  cases p <;> rfl

theorem hasEnded_restrict (p : ReaderPhase τ) : (p.restrict o).hasEnded = p.hasEnded := by
  cases p with
  | findingPeer frame seen =>
    change (if seen.orgId = o then ReaderPhase.findingPeer frame seen else .reading).hasEnded = _
    split <;> rfl
  | _ => rfl

theorem restrict_onMessage (message : WsMessage τ) :
    (ReaderPhase.onMessage message).restrict o = .onMessage message := by
  cases message with
  | text t => rfl
  | binary frame =>
    unfold ReaderPhase.onMessage
    dsimp only
    split
    · rfl
    · split <;> rfl

theorem restrict_of_awaits {p : ReaderPhase τ} (h : p.awaits = true) : p.restrict o = p := by
  cases p with
  | findingPeer frame seen => cases h
  | _ => rfl

/-! ## Every step -/

theorem StepMove.of_view_eq {u : Relay τ} (h : StepMove C accounts (s.view o) a u)
    (heq : t.view o = u) : StepMove C accounts (s.view o) a (t.view o) :=
  heq ▸ h

/-- A step for the organisation does the same in the view. -/
theorem StepMove.view (h : StepMove C accounts s a t) (hw : Wired C accounts s)
    (hkeep : s.keeps o a = true) : StepMove C accounts (s.view o) a (t.view o) := by
  have hrouter : s.router = .idle → (s.view o).router = .idle := fun hidle =>
    router_view_foreign (by rw [hidle]; rfl)
  -- the router takes an own message
  have hhead : ∀ {m : SignalingMessage τ} {rest : List (SignalingMessage τ)},
      s.signaling = m :: rest → s.signaling.head?.any (·.client.orgId = o) = true →
      m.client.orgId = o ∧ (s.view o).signaling = m :: rest.filter (·.client.orgId = o) := by
    intro m rest hsig hown
    have hmo : m.client.orgId = o := by simpa [hsig] using hown
    exact ⟨hmo, by simp [Relay.view, hsig, hmo]⟩
  cases h with
  | connect ha =>
    rw [view_connect hw]
    exact .connect ha
  | @hangUp c k hk hp hdone =>
    have hc : s.org c = some o := of_decide_eq_true hkeep
    rw [view_setTask hc]
    refine .hangUp (getElem_view_own hk hc) ?_ (hdone.imp_right (hasEnded_restrict _).trans)
    dsimp only
    rw [hp]
    rfl
  | @task c k t hk hmove =>
    exact .task (getElem_view hk) (hmove.view hw hk (own_of_org hk (of_decide_eq_true hkeep)))
  | @scan c k x todo found hk hp hx =>
    simp only [keeps, Bool.and_eq_true, decide_eq_true_eq] at hkeep
    obtain ⟨hc, hxo⟩ := hkeep
    have hp' : k.task.restrict o = .scanning (todo.filter (·.orgId = o)) found := by
      rw [hp]
      rfl
    have hsessions : x ∈ (s.view o).sessions ↔ x ∈ s.sessions := by
      simp [Relay.view, hxo]
    refine .of_view_eq
      (.scan (getElem_view_own hk hc) hp' (hx.imp hsessions.2 fun hx => by simp [hx, hxo])) ?_
    rw [view_setTask hc, TaskPhase.restrict, filter_ne_own]
    simp only [hsessions]
  | write hk hwriting hqueue =>
    have hc := of_decide_eq_true hkeep
    exact .of_view_eq (.write (getElem_view_own hk hc) hwriting hqueue)
      (view_modifyConn_own hc (fun _ => rfl) fun _ => rfl)
  | fail hk hwriting hqueue =>
    have hc := of_decide_eq_true hkeep
    exact .of_view_eq (.fail (getElem_view_own hk hc) hwriting hqueue)
      (view_modifyConn_own hc (fun _ => rfl) fun _ => rfl)
  | writerEnds hk =>
    exact .of_view_eq (.writerEnds (getElem_view hk))
      (view_modifyConn_own (of_decide_eq_true hkeep) (fun _ => rfl) fun _ => rfl)
  | tell hk hid hroom =>
    have hc := of_decide_eq_true hkeep
    exact .of_view_eq (.tell (getElem_view_own hk hc) hid hroom)
      (view_modifyConn_own hc (fun _ => rfl) fun _ => rfl)
  | untold hk hid =>
    have hc := of_decide_eq_true hkeep
    exact .of_view_eq (.untold (getElem_view_own hk hc) hid)
      (view_modifyConn_own hc (fun _ => rfl) fun _ => rfl)
  | @receive c k message hk hr hbegun =>
    have hc : s.org c = some o := of_decide_eq_true hkeep
    refine .of_view_eq (.receive (getElem_view_own hk hc) ?_ ((begun_restrict _).trans hbegun))
      (view_modifyConn_own hc (fun _ => rfl) fun k => ?_)
    · dsimp only
      rw [hr]
      rfl
    · dsimp only
      rw [restrict_onMessage]
  | @reader c k ok t hk hmove =>
    simp only [keeps, hk, any_some, Bool.and_eq_true, decide_eq_true_eq,
      Bool.not_eq_true'] at hkeep
    exact .reader (getElem_view hk) (hmove.view hw hk (own_of_org hk hkeep.1) hkeep.2)
  | @readerEnds c k hk hr =>
    have hc : s.org c = some o := of_decide_eq_true hkeep
    rw [view_setReader hc]
    refine .readerEnds (getElem_view_own hk hc) ?_
    obtain hr | ⟨hawaits, hp⟩ := hr
    · exact .inl (by rw [hr]; rfl)
    · exact .inr ⟨by rw [restrict_of_awaits hawaits]; exact hawaits,
        restrict_eq_serving.not.2 hp⟩
  | ignore hidle hsig hd =>
    obtain ⟨hmo, hsig'⟩ := hhead hsig hkeep
    exact .ignore (hrouter hidle) hsig' hd
  | @message id id' m rest ends hidle hsig hends hd =>
    obtain ⟨hmo, hsig'⟩ := hhead hsig hkeep
    refine .of_view_eq (.message (hrouter hidle) hsig' hends hd)
      ((view_withMessage rest s.used (by rfl) (by rfl)).trans ?_)
    rw [if_pos hmo]
    rfl
  | @ask id m rest q hidle hsig hq hd hid =>
    obtain ⟨hmo, hsig'⟩ := hhead hsig hkeep
    have hused : (s.used ++ [(id, m.client.orgId)]).filter (·.2 = o) =
        (s.view o).used ++ [(id, m.client.orgId)] := by
      simp [Relay.view, hmo]
    refine .of_view_eq (.ask (hrouter hidle) hsig' hq hd fun hid' => ?_)
      ((view_withMessage (m := m) rest _ (by split <;> rfl) (by split <;> rfl)).trans ?_)
    · obtain ⟨u, hu, hui⟩ := mem_map.1 hid'
      exact hid (mem_map.2 ⟨u, (mem_filter.1 hu).1, hui⟩)
    · rw [if_pos hmo, hused]
  | @count x m q id d todo byUser byDevice hr hx =>
    simp only [keeps, Bool.and_eq_true, decide_eq_true_eq] at hkeep
    obtain ⟨hfor, hxo⟩ := hkeep
    have hr' := router_view_own hfor
    rw [hr] at hr' hfor
    have hsessions : x ∈ (s.view o).sessions ↔ x ∈ s.sessions := by
      simp [Relay.view, hxo]
    refine .of_view_eq (.count hr' (mem_filter.2 ⟨hx, by simp [hxo]⟩))
      ((view_setRouter_own (by exact hfor)).trans ?_)
    rw [RouterPhase.restrict, filter_ne_own]
    simp only [hsessions]
  | router hmove =>
    simp only [keeps, Bool.and_eq_true, Bool.not_eq_true'] at hkeep
    exact .router (hmove.view hw hkeep.1 hkeep.2)

/-- Every other step is not seen. -/
theorem StepMove.view_foreign (h : StepMove C accounts s a t) (hw : Wired C accounts s)
    (hkeep : s.keeps o a = false) : t.view o = s.view o := by
  have hrouter : s.router = .idle → (s.view o).router = .idle := fun hidle =>
    router_view_foreign (by rw [hidle]; rfl)
  -- the router takes a foreign message
  have hhead : ∀ {m : SignalingMessage τ} {rest : List (SignalingMessage τ)},
      s.signaling = m :: rest → s.signaling.head?.any (·.client.orgId = o) = false →
      m.client.orgId ≠ o ∧ (s.view o).signaling = rest.filter (·.client.orgId = o) := by
    intro m rest hsig hown
    have hmo : m.client.orgId ≠ o := by simpa [hsig] using hown
    exact ⟨hmo, by simp [Relay.view, hsig, hmo]⟩
  cases h with
  | connect => cases hkeep
  | hangUp => exact view_setTask_foreign (of_decide_eq_false hkeep) _
  | task hk hmove =>
    exact hmove.view_foreign hw hk fun ho => of_decide_eq_false hkeep (org_of_own hk ho)
  | @scan c k x todo found hk hp hx =>
    by_cases hc : s.org c = some o
    · -- the scan of an own task passes over a foreign session
      have hxo : x.orgId ≠ o := by simpa [keeps, hc] using hkeep
      have hnot : ¬ (x ∈ s.sessions ∧ x.joins c = true) := fun hx =>
        hxo (own_of_joins hw (hw.sessions x hx.1) hc hx.2)
      rw [if_neg hnot, view_setTask hc, TaskPhase.restrict, filter_ne_foreign hxo]
      refine modifyConn_eq_self fun k' hk' => ?_
      rw [getElem_view hk, some.injEq] at hk'
      have htask : k'.task = .scanning (todo.filter (·.orgId = o)) found := by
        rw [← hk', restrict_own (own_of_org hk hc), hp]
        rfl
      rw [← htask]
    · exact view_setTask_foreign hc _
  | write | fail | writerEnds | tell | untold | receive =>
    exact view_modifyConn_foreign (fun _ => rfl) (of_decide_eq_false hkeep)
  | @reader c k ok t hk hmove =>
    by_cases hc : s.org c = some o
    · have habroad : k.reader.looksAbroad o = true := by simpa [keeps, hk, hc] using hkeep
      exact hmove.view_abroad hw hk (own_of_org hk hc) habroad
    · exact hmove.view_foreign hw hk fun ho => hc (org_of_own hk ho)
  | readerEnds => exact view_setReader_foreign (of_decide_eq_false hkeep) _
  | ignore hidle hsig hd =>
    obtain ⟨hmo, hsig'⟩ := hhead hsig hkeep
    rw [view_withSignaling, ← hsig']
  | @message id id' m rest ends hidle hsig hends hd =>
    obtain ⟨hmo, hsig'⟩ := hhead hsig hkeep
    refine (view_withMessage rest s.used (by rfl) (by rfl)).trans ?_
    rw [if_neg hmo, ← hsig', ← hrouter hidle]
    rfl
  | @ask id m rest q hidle hsig hq hd hid =>
    obtain ⟨hmo, hsig'⟩ := hhead hsig hkeep
    have hused : (s.used ++ [(id, m.client.orgId)]).filter (·.2 = o) = (s.view o).used := by
      simp [Relay.view, hmo]
    refine (view_withMessage (m := m) rest _ (by split <;> rfl) (by split <;> rfl)).trans ?_
    rw [if_neg hmo, hused, ← hsig', ← hrouter hidle]
  | @count x m q id d todo byUser byDevice hr hx =>
    cases hfor : s.router.isFor o with
    | true => exact count_view_abroad hw hr hfor (by simpa [keeps, hfor] using hkeep)
    | false =>
      have hidle := router_view_foreign hfor
      rw [hr] at hfor
      rw [view_setRouter_foreign (by exact hfor), ← hidle]
  | router hmove =>
    cases hfor : s.router.isFor o with
    | true => exact hmove.view_abroad hfor (by simpa [keeps, hfor] using hkeep)
    | false => exact hmove.view_foreign hw hfor

/-- The steps that are for an organisation make up what it sees. -/
theorem unwinds (C : PacketCodec τ) (accounts : Uuid → Option (Uuid × PrincipalKind)) (o : Uuid) :
    Unwinds (step C accounts) (Wired C accounts) (keeps o) (view o) where
  invariant _ _ _ hw h := hw.step h
  kept _ _ _ hw hkeep h := step_iff.2 ((step_iff.1 h).view hw hkeep)
  dropped _ _ _ hw hkeep h := (step_iff.1 h).view_foreign hw hkeep

/-- A connection never changes its organisation. -/
theorem org_step (h : s.step C accounts a = some t) (hc : s.org c = some o) : t.org c = some o := by
  obtain ⟨k, hk, rfl⟩ := map_eq_some_iff.1 hc
  obtain ⟨k', hk', hmoves⟩ := conn_step h hk
  rw [org_eq_of_getElem hk', hmoves.client]

/-- The frames that the relay has got from its sockets, with the connection they came over. -/
def sent (acts : List (RelayAction τ)) : List (Nat × WsMessage τ) :=
  acts.filterMap fun
    | .receive c message => some (c, message)
    | _ => none

/-- The steps for an organisation are a run with the frames of its own connections only. -/
theorem sent_purge {acts : List (RelayAction τ)}
    (hrun : runFrom (step C accounts) s acts = some t) :
    sent (purge (step C accounts) (keeps o) s acts) =
      (sent acts).filter fun p => t.org p.1 = some o := by
  induction acts generalizing s with
  | nil => rfl
  | cons a acts ih =>
    obtain ⟨m, hm, hrest⟩ := runFrom_cons_eq_some.1 hrun
    have hrest' := ih hrest
    simp only [purge, hm]
    cases a with
    | receive c message =>
      obtain ⟨k, hk, -⟩ := bind_eq_some_iff.1 hm
      have horg : t.org c = s.org c := by
        rw [org_eq_of_getElem hk]
        refine invariant_of_step (I := fun u : Relay τ => u.org c = some k.client.orgId) ?_
          (org_step hm (org_eq_of_getElem hk)) hrest
        exact fun _ _ _ hc h => org_step h hc
      change _ = List.filter _ ((c, message) :: sent acts)
      by_cases ho : s.org c = some o
      · rw [filter_cons_of_pos (by simp [horg, ho]), if_pos (by simp [keeps, ho]), ← hrest']
        rfl
      · rw [filter_cons_of_neg (by simp [horg, ho]), if_neg (by simp [keeps, ho]), ← hrest']
    | _ =>
      -- a step that is no frame from a socket adds nothing on either side
      split
      · exact hrest'
      · exact hrest'

/-- What was delivered through a session came from its other end, and the session joins a user to a
device of the same organisation. -/
theorem Wired.through (hw : Wired C accounts s) (hk : s.conns[c]? = some k) {d : Delivery τ}
    (hd : d ∈ k.received) {sender : Nat} (hx : d.through = some (x, sender)) :
    x.peerConn sender = some c ∧ d.message ∈ s.facts.said sender ∧ x.Fits C s.facts := by
  have hk' := hw.conns c k hk
  obtain ⟨hcreated, hpeer, hsaid⟩ := hk'.handed d (hk'.received d hd) x sender hx
  exact ⟨hpeer, hsaid, hw.created x hcreated⟩

theorem exists_conn {a : AuthOutcome} (h : s.facts.clients c = some a) :
    ∃ k : Connection τ, s.conns[c]? = some k ∧ k.client = a ∧ s.facts.said c = k.said := by
  obtain ⟨k, hk, ha⟩ := map_eq_some_iff.1 h
  exact ⟨k, hk, ha, by simp [facts, hk]⟩

/-- Two states with the same view of an organisation have the same connections of it. -/
theorem received_of_view_eq {s' : Relay τ} (hview : s.view o = s'.view o)
    (hk : s.conns[c]? = some k) (ho : k.client.orgId = o) :
    ∃ k' : Connection τ, s'.conns[c]? = some k' ∧ k'.client = k.client ∧
      k'.received = k.received := by
  have hrestrict : s'.conns[c]?.map (·.restrict o) = some (k.restrict o) := by
    rw [← getElem?_map, ← getElem_view hk, hview]
    rfl
  obtain ⟨k', hk', hsame⟩ := map_eq_some_iff.1 hrestrict
  have hclient : k'.client = k.client := by
    rw [← client_restrict (o := o) k', hsame, client_restrict]
  rw [restrict_own ho, restrict_own (hclient ▸ ho)] at hsame
  simp only [Connection.mk.injEq] at hsame
  exact ⟨k', hk', hclient, hsame.2.2.2.2.2.1⟩

/-- Organisations do not see each other. What was delivered through a session was said by its other
end, and the ends are a user and the device of the same organisation that the user asked for.
Without the frames of other organisations, the connections of an organisation receive the same; and
they do so in any two runs that agree on the steps for this organisation. -/
theorem organisations_isolated (C : PacketCodec τ)
    (accounts : Uuid → Option (Uuid × PrincipalKind)) {acts : List (RelayAction τ)}
    (hrun : runFrom (step C accounts) new acts = some s) :
    (∀ (c : Nat) (k : Connection τ) (d : Delivery τ) (x : ActiveSession) (sender : Nat),
        s.conns[c]? = some k → d ∈ k.received → d.through = some (x, sender) →
        x.peerConn sender = some c ∧
        ∃ initiator device source : Connection τ,
          s.conns[x.initiatorConn]? = some initiator ∧ s.conns[x.deviceConn]? = some device ∧
          s.conns[sender]? = some source ∧ d.message ∈ source.said ∧
          initiator.client = ⟨x.initiatorId, x.orgId, .user⟩ ∧
          device.client = ⟨x.deviceId, x.orgId, .device⟩ ∧
          ∃ t key version capability id, .text t ∈ initiator.said ∧
            C.parse t = some (.sessionRequest x.deviceId key version capability id)) ∧
      (∀ o : Uuid, ∃ t : Relay τ,
        runFrom (step C accounts) new (purge (step C accounts) (keeps o) new acts) = some t ∧
        sent (purge (step C accounts) (keeps o) new acts) =
          (sent acts).filter (fun p => s.org p.1 = some o) ∧
        ∀ (c : Nat) (k : Connection τ), s.conns[c]? = some k → k.client.orgId = o →
          ∃ k' : Connection τ, t.conns[c]? = some k' ∧ k'.client = k.client ∧
            k'.said = k.said ∧ k'.handed = k.handed ∧ k'.received = k.received) ∧
      ∀ (o : Uuid) (acts' : List (RelayAction τ)) (s' : Relay τ),
        runFrom (step C accounts) new acts' = some s' →
        purge (step C accounts) (keeps o) new acts = purge (step C accounts) (keeps o) new acts' →
        ∀ (c : Nat) (k : Connection τ), s.conns[c]? = some k → k.client.orgId = o →
          ∃ k' : Connection τ, s'.conns[c]? = some k' ∧ k'.client = k.client ∧
            k'.received = k.received := by
  have hw : Wired C accounts s := wired_of_run C accounts hrun
  refine ⟨?_, ?_, ?_⟩
  · intro c k d x sender hk hd hx
    obtain ⟨hpeer, hsaid, hfits⟩ := hw.through hk hd hx
    obtain ⟨t, key, version, capability, id, ht, hparse⟩ := hfits.asked
    obtain ⟨initiator, hinitiator, huser, hasked⟩ := exists_conn hfits.initiator
    obtain ⟨device, hdevice, hdev, -⟩ := exists_conn hfits.device
    have hsender : ∃ a, s.facts.clients sender = some a := by
      obtain h | h := ActiveSession.joins_iff.1 (ActiveSession.joins_of_peerConn hpeer).1
      · exact ⟨_, h ▸ hfits.initiator⟩
      · exact ⟨_, h ▸ hfits.device⟩
    obtain ⟨a, ha⟩ := hsender
    obtain ⟨source, hsource, -, hsourceSaid⟩ := exists_conn ha
    exact ⟨hpeer, initiator, device, source, hinitiator, hdevice, hsource, hsourceSaid ▸ hsaid,
      huser, hdev, t, key, version, capability, id, hasked ▸ ht, hparse⟩
  · intro o
    refine ⟨s.view o, (unwinds C accounts o).runFrom_purge (Wired.new C accounts) hrun,
      sent_purge hrun, fun c k hk ho => ?_⟩
    refine ⟨k.restrict o, getElem_view hk, client_restrict k, ?_⟩
    rw [restrict_own ho]
    exact ⟨rfl, rfl, rfl⟩
  · intro o acts' s' hrun' hpurge c k hk ho
    have hview : s.view o = s'.view o :=
      (unwinds C accounts o).view_eq_of_purge_eq (Wired.new C accounts) hrun hrun' hpurge
    exact received_of_view_eq hview hk ho

def sampleFrame : Bytes := (sampleId 50).bytes ++ [7]

/-- User 3 of another organisation asks for device 2 and sends a frame with the id of session 50;
then user 1 sends one, and the device takes what there is. -/
def sampleShared : List (RelayAction SignalPacket) :=
  sampleConnects ++ [.connect (sampleId 3), .task 2] ++ sampleInsert ++ [.router, .router] ++
    [.receive 2 (sampleRequest 2), .reader 2 true, .route (sampleId 51), .router, .router, .router,
      .receive 2 (.binary sampleFrame), .reader 2 true, .reader 2 true,
      .receive 0 (.binary sampleFrame), .reader 0 true, .reader 0 true, .reader 0 true,
      .reader 0 true, .write 1 true, .write 1 true]

def sampleSharedEnd : Relay SignalPacket :=
  (runFrom (Relay.step .plain sampleAccounts) Relay.new sampleShared).get (by decide +kernel)

theorem organisations_isolated_sampleShared :
    (∃ k : Connection SignalPacket, sampleSharedEnd.conns[1]? = some k ∧
        ⟨.binary sampleFrame, some (sampleSession, 0)⟩ ∈ k.received) ∧
      sent (purge (step .plain sampleAccounts) (keeps (sampleId 100)) new sampleShared) =
        [(0, sampleRequest 2), (0, .binary sampleFrame)] ∧
      ∃ t, runFrom (step .plain sampleAccounts) new
          (purge (step .plain sampleAccounts) (keeps (sampleId 100)) new sampleShared) = some t ∧
        ∃ k' : Connection SignalPacket, t.conns[1]? = some k' ∧
          ⟨.binary sampleFrame, some (sampleSession, 0)⟩ ∈ k'.received := by
  have hmem : ∃ k : Connection SignalPacket, sampleSharedEnd.conns[1]? = some k ∧
      k.client.orgId = sampleId 100 ∧
      ⟨.binary sampleFrame, some (sampleSession, 0)⟩ ∈ k.received :=
    ⟨sampleSharedEnd.conns[1]?.get (by decide +kernel), by decide +kernel, by decide +kernel,
      by decide +kernel⟩
  obtain ⟨k, hk, ho, hreceived⟩ := hmem
  obtain ⟨t, hrun, -, hsame⟩ :=
    (organisations_isolated .plain sampleAccounts (s := sampleSharedEnd) (some_get _).symm).2.1
      (sampleId 100)
  obtain ⟨k', hk', -, -, -, heq⟩ := hsame 1 k hk ho
  exact ⟨⟨k, hk, hreceived⟩, by decide +kernel, t, hrun, k', hk', heq ▸ hreceived⟩

end Relay

end RivetLink.Server
