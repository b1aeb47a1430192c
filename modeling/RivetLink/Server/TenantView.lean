import RivetLink.Foundation.NonInterference
import RivetLink.Server.RelayWiring

/-!
# What one organisation sees of the relay

`view o s` is the relay as it would be if only the connections of organisation `o` had ever done
anything: the other connections have been authenticated and stand still, and there are no sessions,
messages or devices of other organisations. A look of an own task at something of another
organisation, a tunnel frame with the id of a foreign session or a request for a foreign device, is
shown with the outcome it is bound to have.

The lemmas say how the view goes with the changes that steps are made of, for own connections and
for foreign ones.
-/

namespace RivetLink.Server

open List Option RivetLink.Foundation RivetLink.Protocol

variable {τ : Type}

/-! ## The view -/

/-- Only own sessions are still to be scanned. -/
def TaskPhase.restrict (o : Uuid) : TaskPhase → TaskPhase
  | .scanning todo found => .scanning (todo.filter (·.orgId = o)) found
  | p => p

/-- A frame with the id of a foreign session will be dropped. -/
def ReaderPhase.restrict (o : Uuid) : ReaderPhase τ → ReaderPhase τ
  | .findingPeer frame seen => if seen.orgId = o then .findingPeer frame seen else .reading
  | p => p

def Connection.restrict (o : Uuid) (k : Connection τ) : Connection τ :=
  if k.client.orgId = o then
    { k with reader := k.reader.restrict o, task := k.task.restrict o }
  else { client := k.client }

def RouterPhase.message : RouterPhase τ → Option (SignalingMessage τ)
  | .idle => none
  | .findingDevice m _ _ | .checkingOrg m _ _ _ | .counting m _ _ _ _ _ _ | .inserting m _ _
  | .delivering m _ _ | .rechecking m _ _ | .undoing m _ | .rejecting m _ _
  | .findingMember m _ _ | .passingOn m _ _ _ | .ending m _ => some m

/-- The router is working on a message of the organisation. -/
def RouterPhase.isFor (o : Uuid) (p : RouterPhase τ) : Bool := p.message.any (·.client.orgId = o)

/-- A request for a foreign device will be rejected; `org` is the organisation of a connection. -/
def RouterPhase.restrict (o : Uuid) (org : Nat → Option Uuid) : RouterPhase τ → RouterPhase τ
  | .checkingOrg m q id d =>
    if org d = some o then .checkingOrg m q id d else .rejecting m id Relay.unknownDevice
  | .counting m q id d todo byUser byDevice =>
    .counting m q id d (todo.filter (·.orgId = o)) byUser byDevice
  | p => p

namespace Relay

def org (s : Relay τ) (c : Nat) : Option Uuid := s.conns[c]?.map (·.client.orgId)

def view (o : Uuid) (s : Relay τ) : Relay τ where
  conns := s.conns.map (·.restrict o)
  devices u := (s.devices u).filter (s.org · = some o)
  sessions := s.sessions.filter (·.orgId = o)
  signaling := s.signaling.filter (·.client.orgId = o)
  router := if s.router.isFor o then s.router.restrict o s.org else .idle
  used := s.used.filter (·.2 = o)
  delivered := s.delivered.filter (·.orgId = o)
  endedByDevice := s.endedByDevice.filter (·.orgId = o)
  created := s.created.filter (·.orgId = o)

variable {C : PacketCodec τ} {accounts : Uuid → Option (Uuid × PrincipalKind)} {o : Uuid}
  {s t : Relay τ} {c d : Nat} {k : Connection τ} {f g : Connection τ → Connection τ} {id : Uuid}
  {x : ActiveSession} {p : RouterPhase τ}

/-! ## Connections -/

theorem org_eq (s : Relay τ) (c : Nat) : s.org c = s.facts.org c := by
  simp [org, Facts.org, facts, Function.comp_def]

theorem org_eq_of_getElem (hk : s.conns[c]? = some k) : s.org c = some k.client.orgId := by
  simp [org, hk]

/-- A connection is an own one if its organisation is. -/
theorem own_of_org (hk : s.conns[c]? = some k) (hc : s.org c = some o) : k.client.orgId = o := by
  simpa [org_eq_of_getElem hk] using hc

theorem org_modifyConn (hclient : ∀ k, (f k).client = k.client) :
    (s.modifyConn c f).org = s.org := by
  funext d
  exact map_modifyConn (·.client.orgId) fun k => by rw [hclient]

theorem restrict_own (h : k.client.orgId = o) :
    k.restrict o = { k with reader := k.reader.restrict o, task := k.task.restrict o } :=
  if_pos h

theorem restrict_foreign (h : k.client.orgId ≠ o) : k.restrict o = { client := k.client } :=
  if_neg h

theorem client_restrict (k : Connection τ) : (k.restrict o).client = k.client := by
  unfold Connection.restrict
  split <;> rfl

theorem getElem_view (hk : s.conns[c]? = some k) : (s.view o).conns[c]? = some (k.restrict o) := by
  simp [view, hk]

theorem getElem_view_own (hk : s.conns[c]? = some k) (hc : s.org c = some o) :
    (s.view o).conns[c]? =
      some { k with reader := k.reader.restrict o, task := k.task.restrict o } := by
  rw [getElem_view hk, restrict_own (own_of_org hk hc)]

/-- Two states that differ in the connections only, and not in who they belong to, have views that
differ in the connections only. -/
theorem view_modifyConn (hclient : ∀ k, (f k).client = k.client)
    (hfg : ∀ k, s.conns[c]? = some k → (f k).restrict o = g (k.restrict o)) :
    (s.modifyConn c f).view o = (s.view o).modifyConn c g := by
  have hconns : (s.conns.modify c f).map (·.restrict o) =
      (s.conns.map (·.restrict o)).modify c g := by
    refine ext_getElem? fun d => ?_
    rw [getElem?_map, getElem?_modify, getElem?_modify, getElem?_map]
    cases hd : s.conns[d]? with
    | none => simp
    | some k =>
      by_cases hcd : c = d
      · subst hcd
        simp [hfg k hd]
      · simp [hcd]
  have horg : (s.modifyConn c f).org = s.org := org_modifyConn hclient
  unfold view
  rw [horg]
  simp only [modifyConn, hconns]
  rfl

/-- What a foreign connection does is not seen. -/
theorem view_modifyConn_foreign (hclient : ∀ k, (f k).client = k.client)
    (hc : s.org c ≠ some o) : (s.modifyConn c f).view o = s.view o := by
  have hid : (s.modifyConn c f).view o = (s.view o).modifyConn c id := by
    refine view_modifyConn hclient fun k hk => ?_
    have hk' : k.client.orgId ≠ o := fun h => hc (by rw [org_eq_of_getElem hk, h])
    rw [restrict_foreign hk', restrict_foreign (hclient k ▸ hk'), hclient]
    rfl
  rw [hid]
  exact modifyConn_eq_self fun _ _ => rfl

/-- A change of an own connection that does not touch its tasks. -/
theorem view_modifyConn_own (hc : s.org c = some o) (hclient : ∀ k, (f k).client = k.client)
    (hf : ∀ k : Connection τ,
      f { k with reader := k.reader.restrict o, task := k.task.restrict o } =
      { f k with reader := (f k).reader.restrict o, task := (f k).task.restrict o }) :
    (s.modifyConn c f).view o = (s.view o).modifyConn c f := by
  refine view_modifyConn hclient fun k hk => ?_
  have hk' := own_of_org hk hc
  rw [restrict_own hk', restrict_own ((hclient k).symm ▸ hk'), hf]

theorem view_setTask (hc : s.org c = some o) (p : TaskPhase) :
    (s.setTask c p).view o = (s.view o).setTask c (p.restrict o) := by
  refine view_modifyConn (fun _ => rfl) fun k hk => ?_
  have hk' := own_of_org hk hc
  rw [restrict_own hk']
  exact restrict_own hk'

theorem view_setReader (hc : s.org c = some o) (p : ReaderPhase τ) :
    (s.setReader c p).view o = (s.view o).setReader c (p.restrict o) := by
  refine view_modifyConn (fun _ => rfl) fun k hk => ?_
  have hk' := own_of_org hk hc
  rw [restrict_own hk']
  exact restrict_own hk'

theorem view_push (hc : s.org c = some o) (e : Delivery τ) :
    (s.push c e).view o = (s.view o).push c e :=
  view_modifyConn_own hc (fun _ => rfl) fun _ => rfl

theorem view_sendTo (hc : s.org c = some o) (e : Delivery τ) :
    (s.sendTo c e).1.view o = ((s.view o).sendTo c e).1 := by
  rw [sendTo_fst, sendTo_fst]
  refine view_modifyConn_own hc (fun k => by split <;> rfl) fun k => ?_
  change (if k.registered && k.hasRoom then _ else _) = _
  split <;> rfl

theorem view_notifyClosed (hc : s.org c = some o) (id : Uuid) :
    (s.notifyClosed id c).view o = (s.view o).notifyClosed id c := by
  rw [notifyClosed_eq, notifyClosed_eq]
  refine view_modifyConn_own hc (fun k => by split <;> rfl) fun k => ?_
  dsimp only
  split <;> rfl

theorem view_setTask_foreign (hc : s.org c ≠ some o) (p : TaskPhase) :
    (s.setTask c p).view o = s.view o :=
  view_modifyConn_foreign (fun _ => rfl) hc

theorem view_setReader_foreign (hc : s.org c ≠ some o) (p : ReaderPhase τ) :
    (s.setReader c p).view o = s.view o :=
  view_modifyConn_foreign (fun _ => rfl) hc

theorem view_push_foreign (hc : s.org c ≠ some o) (e : Delivery τ) :
    (s.push c e).view o = s.view o :=
  view_modifyConn_foreign (fun _ => rfl) hc

theorem view_sendTo_foreign (hc : s.org c ≠ some o) (e : Delivery τ) :
    (s.sendTo c e).1.view o = s.view o := by
  rw [sendTo_fst]
  exact view_modifyConn_foreign (fun k => by split <;> rfl) hc

theorem view_notifyClosed_foreign (hc : s.org c ≠ some o) (id : Uuid) :
    (s.notifyClosed id c).view o = s.view o := by
  rw [notifyClosed_eq]
  exact view_modifyConn_foreign (fun k => by split <;> rfl) hc

@[simp] theorem org_setTask (p : TaskPhase) : (s.setTask c p).org = s.org :=
  org_modifyConn fun _ => rfl

@[simp] theorem org_push (e : Delivery τ) : (s.push c e).org = s.org := org_modifyConn fun _ => rfl

@[simp] theorem org_drop : (s.drop c).org = s.org := org_modifyConn fun _ => rfl

@[simp] theorem org_removeSession (id : Uuid) : (s.removeSession id).org = s.org := rfl

@[simp] theorem org_notifyClosed (id : Uuid) : (s.notifyClosed id c).org = s.org := by
  rw [notifyClosed_eq]
  exact org_modifyConn fun k => by split <;> rfl

/-- An own connection is in the map of the view if it is in the map. -/
theorem getClient_view (hc : s.org c = some o) :
    (s.view o).getClient c = (s.getClient c).map (·.restrict o) := by
  cases hk : s.conns[c]? with
  | none => simp [org, hk] at hc
  | some k =>
    have hreg : (k.restrict o).registered = k.registered := by
      rw [restrict_own (own_of_org hk hc)]
    unfold getClient
    rw [getElem_view hk, hk]
    cases hr : k.registered <;> simp [Option.filter, hreg, hr]

/-- What holds of an own connection in its view holds of it. -/
theorem any_getClient_view (hc : s.org c = some o) {p : Connection τ → Bool}
    (hp : ∀ k : Connection τ, k.client.orgId = o → p (k.restrict o) = p k) :
    ((s.view o).getClient c).any p = (s.getClient c).any p := by
  rw [getClient_view hc, Option.any_map]
  cases hk : s.getClient c with
  | none => rfl
  | some k => exact hp k (own_of_org (getClient_eq_some.1 hk).1 hc)

theorem any_hasRoom_view (hc : s.org c = some o) :
    ((s.view o).getClient c).any Connection.hasRoom = (s.getClient c).any Connection.hasRoom :=
  any_getClient_view hc fun k hk => by rw [restrict_own hk]; rfl

/-! ## Sessions -/

theorem view_removeSession (id : Uuid) :
    (s.removeSession id).view o = (s.view o).removeSession id := by
  simp only [view, removeSession, List.filter_filter, Bool.and_comm]
  rfl

theorem findSession_view_of_none (h : s.findSession id = none) :
    (s.view o).findSession id = none := by
  refine find?_eq_none.2 fun y hy => ?_
  exact find?_eq_none.1 h y (mem_filter.1 hy).1

/-- A session of the view is found in the table. -/
theorem findSession_of_view (hw : Wired C accounts s) (h : (s.view o).findSession id = some x) :
    s.findSession id = some x ∧ x.orgId = o := by
  obtain ⟨hmem, rfl⟩ := mem_of_findSession h
  obtain ⟨hx, hxo⟩ := mem_filter.1 hmem
  refine ⟨?_, by simpa using hxo⟩
  cases hfind : s.findSession x.id with
  | none => exact absurd hfind (findSession_ne_none hx)
  | some y =>
    obtain ⟨hy, hyid⟩ := mem_of_findSession hfind
    rw [hw.unique y (hw.sessions y hy) x (hw.sessions x hx) hyid]

theorem findSession_view (hw : Wired C accounts s) (h : s.findSession id = some x)
    (hx : x.orgId = o) : (s.view o).findSession id = some x := by
  obtain ⟨hmem, rfl⟩ := mem_of_findSession h
  cases hfind : (s.view o).findSession x.id with
  | none =>
    have hmem' : x ∈ (s.view o).sessions := mem_filter.2 ⟨hmem, by simpa using hx⟩
    exact absurd hfind (findSession_ne_none hmem')
  | some y => exact ((findSession_of_view hw hfind).1.symm.trans h)

/-- The end of a foreign session is not seen. -/
theorem view_removeSession_of_created (hw : Wired C accounts s) (hx : x ∈ s.created)
    (hxo : x.orgId ≠ o) : (s.removeSession x.id).view o = s.view o := by
  have hfilter : (s.sessions.filter (·.id ≠ x.id)).filter (·.orgId = o) =
      s.sessions.filter (·.orgId = o) := by
    rw [List.filter_filter]
    refine List.filter_congr fun y hy => ?_
    by_cases hyo : y.orgId = o
    · have hne : y.id ≠ x.id := by
        intro hid
        exact hxo (hw.unique y (hw.sessions y hy) x hx hid ▸ hyo)
      simp [hyo, hne]
    · simp [hyo]
  simp only [view, removeSession, hfilter]
  rfl

theorem view_removeSession_foreign (hw : Wired C accounts s) (h : s.findSession id = some x)
    (hxo : x.orgId ≠ o) : (s.removeSession id).view o = s.view o := by
  obtain ⟨hmem, rfl⟩ := mem_of_findSession h
  exact view_removeSession_of_created hw (hw.sessions x hmem) hxo

/-! ## The router and the messages -/

theorem view_setRouter_own (hp : p.isFor o = true) :
    ({ s with router := p } : Relay τ).view o = { s.view o with router := p.restrict o s.org } := by
  have horg : ({ s with router := p } : Relay τ).org = s.org := rfl
  simp only [view, horg, hp, if_true]

theorem view_setRouter_foreign (hp : p.isFor o = false) :
    ({ s with router := p } : Relay τ).view o = { s.view o with router := .idle } := by
  have horg : ({ s with router := p } : Relay τ).org = s.org := rfl
  simp [view, horg, hp]

theorem view_withDevices (D : Uuid → Option Nat) :
    ({ s with devices := D } : Relay τ).view o =
      { s.view o with devices := fun u => (D u).filter (s.org · = some o) } :=
  rfl

theorem view_withSignaling (l : List (SignalingMessage τ)) :
    ({ s with signaling := l } : Relay τ).view o =
      { s.view o with signaling := l.filter (·.client.orgId = o) } :=
  rfl

theorem router_view_own (h : s.router.isFor o = true) :
    (s.view o).router = s.router.restrict o s.org :=
  if_pos h

theorem router_view_foreign (h : s.router.isFor o = false) : (s.view o).router = .idle := by
  simp [view, h]

end Relay

end RivetLink.Server
