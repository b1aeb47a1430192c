import RivetLink.Server.RelaySessions

/-!
# The device hears of the end of its sessions

When the relay ends a session whose request went to a device, it owes the device a notice, unless
the device has ended the session itself. The tasks that remove a session carry the notice from the
removal on (`Connection.Announces`); after that it waits with the connection of the device or was
put into its queue (`Connection.Queued`), or the connection has left the map.

The notice can be lost in three ways. The initiator is gone when the router checks it again after
the request was delivered; then the router removes the session and tells the initiator only. The
initiator ends the session while the queue of the device is full. Or a notice does not get room in
the queue within its time. `Heeded` excludes these; `withdrawn_request_stays_open` is a run of the
first kind.
-/

namespace RivetLink.Server

open List Option RivetLink.Foundation RivetLink.Protocol

variable {τ : Type}

/-- The message tells its receiver that the session with this id is over. -/
def Delivery.endsSession (C : PacketCodec τ) (id : Uuid) (d : Delivery τ) : Bool :=
  match d.message with
  | .text t => (C.parse t).any (·.endsSession id)
  | .binary _ => false

/-- The socket task has removed the session and has not told the device yet. -/
def TaskPhase.Announces (x : ActiveSession) : TaskPhase → Prop
  | .deleting _ removed => x ∈ removed
  | .notifying todo => (x.id, x.deviceConn) ∈ todo
  | _ => False

/-- The reader task has removed the session and has not told the device yet. -/
def ReaderPhase.Announces (x : ActiveSession) : ReaderPhase τ → Prop
  | .notifying todo _ _ => (x.id, x.deviceConn) ∈ todo
  | _ => False

namespace Connection

/-- A task of the connection has removed the session and has not told the device yet. -/
def Announces (x : ActiveSession) (k : Connection τ) : Prop :=
  k.task.Announces x ∨ k.reader.Announces x

/-- The end of the session is in the queue, or waits for room in it. -/
def Queued (C : PacketCodec τ) (id : Uuid) (k : Connection τ) : Prop :=
  id ∈ k.notices ∨ ∃ d ∈ k.handed, d.endsSession C id = true

/-- `k'` is a later state of the connection. The notices of a device stay until they are queued or
it has left. -/
structure Later (C : PacketCodec τ) (k k' : Connection τ) : Prop where
  client : k'.client = k.client
  begun : k.task.begun = true → k'.task.begun = true
  left : k.Left → k'.Left
  handed : ∀ d ∈ k.handed, d ∈ k'.handed
  notices : k.client.kind = .device → k.task.begun = true → ∀ id ∈ k.notices,
    k'.Left ∨ k'.Queued C id

namespace Later

variable {C : PacketCodec τ} {k k' k'' : Connection τ} {id : Uuid}

theorem queued (h : k.Later C k') (hkind : k.client.kind = .device) (hb : k.task.begun = true)
    (hq : k.Queued C id) : k'.Left ∨ k'.Queued C id := by
  obtain hn | ⟨d, hd, hends⟩ := hq
  · exact h.notices hkind hb id hn
  · exact .inr (.inr ⟨d, h.handed d hd, hends⟩)

theorem trans (h : k.Later C k') (h' : k'.Later C k'') : k.Later C k'' where
  client := h'.client.trans h.client
  begun hb := h'.begun (h.begun hb)
  left hl := h'.left (h.left hl)
  handed d hd := h'.handed d (h.handed d hd)
  notices hkind hb id hid :=
    (h.notices hkind hb id hid).elim (fun hl => .inl (h'.left hl))
      (h'.queued (h.client ▸ hkind) (h.begun hb))

/-- A change that does not touch the task, the queue or the notices. -/
theorem of_eq (hclient : k'.client = k.client) (htask : k'.task = k.task)
    (hregistered : k'.registered = true → k.registered = true) (hhanded : k'.handed = k.handed)
    (hnotices : k'.notices = k.notices) : k.Later C k' where
  client := hclient
  begun hb := htask ▸ hb
  left hl := by
    refine ⟨?_, htask ▸ hl.2⟩
    cases hr : k'.registered with
    | false => rfl
    | true => exact absurd (hregistered hr) (by simp [hl.1])
  handed d hd := hhanded ▸ hd
  notices _ _ id hid := .inr (.inl (hnotices ▸ hid))

theorem refl (k : Connection τ) : k.Later C k := of_eq rfl rfl id rfl rfl

theorem hand (k : Connection τ) (d : Delivery τ) : k.Later C (k.hand d) where
  client := rfl
  begun hb := hb
  left hl := hl
  handed _ he := mem_append_left _ he
  notices _ _ _ hid := .inr (.inl hid)

theorem note (k : Connection τ) (id : Uuid) : k.Later C (k.note id) where
  client := rfl
  begun hb := hb
  left hl := hl
  handed _ he := he
  notices _ _ _ hid := .inr (.inl (mem_append_left _ hid))

/-- A notice is queued. -/
theorem unnote_hand {i : Nat} (hid : k.notices[i]? = some id) :
    k.Later C ((k.unnote i).hand ⟨.text (C.render (.sessionClosed id)), none⟩) where
  client := rfl
  begun hb := hb
  left hl := hl
  handed _ he := mem_append_left _ he
  notices _ _ id' hid' := by
    right
    obtain ⟨j, hj⟩ := mem_iff_getElem?.1 hid'
    by_cases hij : j = i
    · subst hij
      rw [hid, some.injEq] at hj
      subst hj
      refine .inr ⟨_, mem_append_right _ mem_cons_self, ?_⟩
      simp [Delivery.endsSession, C.parse_render, SignalPacket.endsSession]
    · exact .inl (mem_eraseIdx_iff_getElem?.2 ⟨j, hij, hj⟩)

/-- A notice that fails is not one to a device, or the device has left. -/
theorem unnote {i : Nat} (hgone : k.client.kind = .device → k.registered = false) :
    k.Later C (k.unnote i) where
  client := rfl
  begun hb := hb
  left hl := hl
  handed _ he := he
  notices hk hb _ _ := .inl ⟨hgone hk, hb⟩

/-- A phase of the socket task after its start. -/
theorem task {p : TaskPhase} (hp : k.task.begun = true → p.begun = true) :
    k.Later C { k with task := p } where
  client := rfl
  begun hb := hp hb
  left hl := ⟨hl.1, hp hl.2⟩
  handed _ he := he
  notices _ _ _ hid := .inr (.inl hid)

end Later

end Connection

namespace Relay

variable {C : PacketCodec τ} {accounts : Uuid → Option (Uuid × PrincipalKind)} {s t : Relay τ}
  {x : ActiveSession} {c : Nat} {k : Connection τ}

/-- Some task has removed the session and has not told the device yet. -/
def Announcing (s : Relay τ) (x : ActiveSession) : Prop := ∃ k ∈ s.conns, k.Announces x

/-- The device of the session has heard of its end, or has left. -/
def Heard (C : PacketCodec τ) (s : Relay τ) (x : ActiveSession) : Prop :=
  ∃ k, s.conns[x.deviceConn]? = some k ∧ (k.Left ∨ k.Queued C x.id)

/-- The relay owes nobody a notice about the session. -/
def Accounted (C : PacketCodec τ) (s : Relay τ) (x : ActiveSession) : Prop :=
  x ∈ s.sessions ∨ x ∈ s.endedByDevice ∨ s.Heard C x ∨ s.Announcing x

end Relay

/-- The session that the router has created and the device has not been asked for. -/
def RouterPhase.unasked : RouterPhase τ → Option ActiveSession
  | .delivering _ _ x | .rechecking _ x false | .undoing _ x => some x
  | _ => none

/-- The session for which the router is about to ask the device. -/
def RouterPhase.asking : RouterPhase τ → Option ActiveSession
  | .delivering _ _ x => some x
  | _ => none

namespace Relay

variable {C : PacketCodec τ} {accounts : Uuid → Option (Uuid × PrincipalKind)} {s t : Relay τ}
  {x : ActiveSession} {c : Nat} {k : Connection τ} {f : Connection τ → Connection τ}

/-- No session whose device was asked, or is about to be asked, is lost sight of. -/
structure Told (C : PacketCodec τ) (s : Relay τ) : Prop where
  created : ∀ x ∈ s.delivered, x ∈ s.created
  begun : ∀ x ∈ s.created, s.Begun x.deviceConn
  target : ∀ d, s.router.target = some d → s.Begun d
  unasked : ∀ x, s.router.unasked = some x → x ∉ s.delivered
  ending : ∀ m x, s.router = .ending m x → m.connId = x.initiatorConn → s.Heard C x
  asking : ∀ x, s.router.asking = some x → s.Accounted C x
  delivered : ∀ x ∈ s.delivered, s.Accounted C x

/-- The initiator is still there when the router checks it again; if the initiator ends the session,
its message gets into the queue of the device, if the device is there; and no notice to a device
that is registered fails. -/
def Heeded (s : Relay τ) : RelayAction τ → Prop
  | .notice c _ false => ∀ k ∈ s.conns[c]?, k.client.kind = .device → k.registered = false
  | .router =>
    match s.router with
    | .rechecking m _ true => (s.getClient m.connId).isSome = true
    | .passingOn _ x peer true =>
      peer = x.deviceConn → ∀ k ∈ s.getClient peer, k.hasRoom = true
    | _ => True
  | _ => True

instance (s : Relay τ) (a : RelayAction τ) : Decidable (s.Heeded a) := by
  unfold Heeded
  split
  · infer_instance
  · split <;> infer_instance
  · infer_instance

/-! ## Connections move on -/

/-- Every connection of `s` is there in `t`, in a later state. -/
def Onward (C : PacketCodec τ) (s t : Relay τ) : Prop :=
  ∀ (c : Nat) k, s.conns[c]? = some k → ∃ k', t.conns[c]? = some k' ∧ k.Later C k'

namespace Onward

theorem of_conns_eq (h : t.conns = s.conns) : Onward C s t :=
  fun _ k hk => ⟨k, h ▸ hk, .refl k⟩

theorem trans {u : Relay τ} (h : Onward C s t) (h' : Onward C t u) : Onward C s u := by
  intro c k hk
  obtain ⟨k', hk', hl⟩ := h c k hk
  obtain ⟨k'', hk'', hl'⟩ := h' c k' hk'
  exact ⟨k'', hk'', hl.trans hl'⟩

theorem modify (hf : ∀ k, s.conns[c]? = some k → k.Later C (f k)) :
    Onward C s (s.modifyConn c f) := by
  intro d k hk
  by_cases hcd : c = d
  · subst hcd
    exact ⟨f k, getElem_modifyConn_self hk, hf k hk⟩
  · exact ⟨k, (getElem_modifyConn_of_ne hcd).trans hk, .refl k⟩

theorem setReader (p : ReaderPhase τ) : Onward C s (s.setReader c p) :=
  modify fun _ _ => .of_eq rfl rfl id rfl rfl

theorem begun (h : Onward C s t) (hc : s.Begun c) : t.Begun c := by
  obtain ⟨k, hk, hb⟩ := hc
  obtain ⟨k', hk', hl⟩ := h c k hk
  exact ⟨k', hk', hl.begun hb⟩

/-- What a device has heard stays heard. -/
theorem heard (h : Onward C s t) (hw : Wired C accounts s) (hx : x ∈ s.created)
    (hb : s.Begun x.deviceConn) (hh : s.Heard C x) : t.Heard C x := by
  obtain ⟨k, hk, hl | hq⟩ := hh
  · obtain ⟨k', hk', hlater⟩ := h _ k hk
    exact ⟨k', hk', .inl (hlater.left hl)⟩
  · obtain ⟨k', hk', hlater⟩ := h _ k hk
    have hkind : k.client.kind = .device := by
      have hd := (hw.created x hx).device
      rw [clients_of_getElem hk, some.injEq] at hd
      rw [hd]
    obtain ⟨k₁, hk₁, hbegun⟩ := hb
    cases hk.symm.trans hk₁
    exact ⟨k', hk', hlater.queued hkind hbegun hq⟩

end Onward

/-! ## Announcements -/

theorem announcing_iff :
    s.Announcing x ↔ ∃ (c : Nat) (k : Connection τ), s.conns[c]? = some k ∧ k.Announces x := by
  constructor
  · rintro ⟨k, hk, ha⟩
    obtain ⟨c, hc⟩ := mem_iff_getElem?.1 hk
    exact ⟨c, k, hc, ha⟩
  · rintro ⟨c, k, hk, ha⟩
    exact ⟨k, mem_of_getElem? hk, ha⟩

/-- The announcement is in the hands of connection `c`, or a change of `c` does not matter. -/
theorem Announcing.cases_at (h : s.Announcing x) (c : Nat) :
    (∃ k, s.conns[c]? = some k ∧ k.Announces x) ∨ ∀ f, (s.modifyConn c f).Announcing x := by
  obtain ⟨d, k, hk, ha⟩ := announcing_iff.1 h
  by_cases hcd : c = d
  · subst hcd
    exact .inl ⟨k, hk, ha⟩
  · exact .inr fun f => announcing_iff.2 ⟨d, k, (getElem_modifyConn_of_ne hcd).trans hk, ha⟩

theorem Announcing.modify (h : s.Announcing x)
    (hf : ∀ k, s.conns[c]? = some k → k.Announces x → (f k).Announces x) :
    (s.modifyConn c f).Announcing x := by
  obtain ⟨k, hk, ha⟩ | hother := h.cases_at c
  · exact announcing_iff.2 ⟨c, f k, getElem_modifyConn_self hk, hf k hk ha⟩
  · exact hother f

theorem announcing_modifyConn (hk : s.conns[c]? = some k) (ha : (f k).Announces x) :
    (s.modifyConn c f).Announcing x :=
  announcing_iff.2 ⟨c, f k, getElem_modifyConn_self hk, ha⟩

/-- A device that is told of the end of a session has heard of it, or has left. -/
theorem heard_notifyClosed (hb : s.Begun x.deviceConn) :
    (s.notifyClosed x.id x.deviceConn).Heard C x := by
  obtain ⟨k, hk, hbegun⟩ := hb
  rw [notifyClosed_eq]
  refine ⟨_, getElem_modifyConn_self hk, ?_⟩
  split
  · exact .inr (.inl (mem_append_right _ mem_cons_self))
  · rename_i hr
    exact .inl ⟨Bool.eq_false_of_not_eq_true hr, hbegun⟩

namespace Told

section Steps

variable (h : Told C s) (hw : Wired C accounts s) {f g : Connection τ → Connection τ}
  {y : ActiveSession} {p : RouterPhase τ} {q : SessionQuery} {m : SignalingMessage τ}
include h hw

/-- A step that creates no session and asks no device. -/
theorem mono (hon : Onward C s t)
    (hcreated : t.created = s.created) (hdelivered : t.delivered = s.delivered)
    (hended : ∀ x ∈ s.endedByDevice, x ∈ t.endedByDevice)
    (hsessions : ∀ x ∈ s.created, (x ∈ s.delivered ∨ s.router.asking = some x) → x ∈ s.sessions →
      t.Accounted C x)
    (hannouncing : ∀ x ∈ s.created, s.Announcing x → t.Accounted C x)
    (htarget : ∀ d, t.router.target = some d → t.Begun d)
    (hunasked : ∀ x, t.router.unasked = some x → s.router.unasked = some x)
    (hending : ∀ m x, t.router = .ending m x → m.connId = x.initiatorConn → t.Heard C x)
    (hasking : ∀ x, t.router.asking = some x → s.router.asking = some x ∧ x ∈ s.created) :
    Told C t := by
  have hkeep : ∀ x ∈ s.created, (x ∈ s.delivered ∨ s.router.asking = some x) →
      s.Accounted C x → t.Accounted C x := by
    intro x hx hdue hacc
    obtain hs | he | hh | ha := hacc
    · exact hsessions x hx hdue hs
    · exact .inr (.inl (hended x he))
    · exact .inr (.inr (.inl (hon.heard hw hx (h.begun x hx) hh)))
    · exact hannouncing x hx ha
  exact {
    created := hcreated ▸ hdelivered ▸ h.created
    begun := fun x hx => hon.begun (h.begun x (hcreated ▸ hx))
    target := htarget
    unasked := fun x hx => hdelivered ▸ h.unasked x (hunasked x hx)
    ending := hending
    asking := fun x hx =>
      hkeep x (hasking x hx).2 (.inr (hasking x hx).1) (h.asking x (hasking x hx).1)
    delivered := fun x hx =>
      have hx' : x ∈ s.delivered := hdelivered ▸ hx
      hkeep x (h.created x hx') (.inl hx') (h.delivered x hx') }

/-- A step of another task than the router. -/
theorem of_router_eq (hon : Onward C s t)
    (hcreated : t.created = s.created) (hdelivered : t.delivered = s.delivered)
    (hended : t.endedByDevice = s.endedByDevice) (hrouter : t.router = s.router)
    (hsessions : ∀ x ∈ s.created, x ∈ s.sessions → t.Accounted C x)
    (hannouncing : ∀ x ∈ s.created, s.Announcing x → t.Accounted C x) : Told C t := by
  have hfits := hw.router
  refine h.mono hw hon hcreated hdelivered (fun x hx => hended ▸ hx) (fun x hx _ => hsessions x hx)
    hannouncing ?_ ?_ ?_ ?_
  · exact fun d hd => hon.begun (h.target d (hrouter ▸ hd))
  · exact fun x hx => hrouter ▸ hx
  · intro m x hr hm
    rw [hrouter] at hr
    rw [hr] at hfits
    exact hon.heard hw hfits.2.1 (h.begun x hfits.2.1) (h.ending m x hr hm)
  · intro x hx
    rw [hrouter] at hx
    refine ⟨hx, ?_⟩
    cases hr : s.router with
    | delivering m q y =>
      rw [hr] at hx hfits
      cases hx
      exact hfits.2.1
    | _ =>
      rw [hr] at hx
      cases hx

/-- One connection changes, and goes on announcing what it announced. -/
theorem modify (hf : ∀ k, s.conns[c]? = some k → k.Later C (f k))
    (ha : ∀ k, s.conns[c]? = some k → ∀ x, k.Announces x → (f k).Announces x) :
    Told C (s.modifyConn c f) :=
  h.of_router_eq hw (.modify hf) rfl rfl rfl rfl (fun _ _ hx => .inl hx) fun x _ hx =>
    .inr (.inr (.inr (hx.modify fun k hk => ha k hk x)))

/-! ## Steps -/

/-- The socket task turns to a phase in which it announces no less. -/
theorem setTask (hk : s.conns[c]? = some k)
    {p : TaskPhase} (hp : k.task.begun = true → p.begun = true)
    (ha : ∀ x, k.task.Announces x → p.Announces x) : Told C (s.setTask c p) := by
  refine h.modify hw (fun k' hk' => ?_) fun k' hk' x hx => ?_
  · cases hk.symm.trans hk'
    exact .task hp
  · cases hk.symm.trans hk'
    exact hx.imp_left (ha x)

theorem setReader (hk : s.conns[c]? = some k)
    {p : ReaderPhase τ} (ha : ∀ x, k.reader.Announces x → p.Announces x) :
    Told C (s.setReader c p) := by
  refine h.modify hw (fun k' _ => .of_eq rfl rfl id rfl rfl) fun k' hk' x hx => ?_
  cases hk.symm.trans hk'
  exact hx.imp_right (ha x)

/-- A session that a task takes from the table is announced by it. -/
theorem removeSession (hk : s.conns[c]? = some k) (hy : s.findSession y.id = some y)
    (hf : k.Later C (f k)) (ha : ∀ x, k.Announces x → (f k).Announces x)
    (hnew : (f k).Announces y) :
    Told C ((s.removeSession y.id).modifyConn c f) := by
  have hon : Onward C s ((s.removeSession y.id).modifyConn c f) :=
    Onward.trans (Onward.of_conns_eq rfl) (Onward.modify fun k' hk' => by
      cases hk.symm.trans hk'
      exact hf)
  refine h.of_router_eq hw hon rfl rfl rfl rfl (fun x hx hmem => ?_) fun x _ hx => ?_
  · by_cases hid : x.id = y.id
    · have hxy : x = y := hw.unique x hx y (hw.sessions y (mem_of_findSession hy).1) hid
      exact .inr (.inr (.inr (announcing_modifyConn hk (hxy ▸ hnew))))
    · exact .inl (mem_filter.2 ⟨hmem, by simpa using hid⟩)
  · refine .inr (.inr (.inr (Announcing.modify (s := s.removeSession y.id) hx ?_)))
    intro k' hk' hx'
    cases hk.symm.trans hk'
    exact ha x hx'

theorem notifyClosed (id : Uuid) (d : Nat) :
    Told C (s.notifyClosed id d) := by
  rw [notifyClosed_eq]
  refine h.modify hw (fun k _ => ?_) fun k _ x hx => ?_
  · split
    · exact .note k id
    · exact .refl k
  · split <;> exact hx

omit h hw in
/-- A change that does not touch the tasks of a connection. -/
theorem phases_modifyConn {e : Nat} {k' : Connection τ} (htask : ∀ k, (g k).task = k.task)
    (hreader : ∀ k, (g k).reader = k.reader) (hk : s.conns[c]? = some k)
    (hk' : (s.modifyConn e g).conns[c]? = some k') : k'.task = k.task ∧ k'.reader = k.reader := by
  have htask' : some k'.task = some k.task := by
    simpa only [hk, hk', map_some] using
      map_modifyConn (s := s) (c := e) (d := c) (f := g) (·.task) htask
  have hreader' : some k'.reader = some k.reader := by
    simpa only [hk, hk', map_some] using
      map_modifyConn (s := s) (c := e) (d := c) (f := g) (·.reader) hreader
  exact ⟨some.inj htask', some.inj hreader'⟩

/-- Another connection changes and the reader turns to a new phase. -/
theorem modify_setReader (hk : s.conns[c]? = some k) {e : Nat}
    (hlater : ∀ k : Connection τ, k.Later C (g k)) (htask : ∀ k, (g k).task = k.task)
    (hreader : ∀ k, (g k).reader = k.reader) (hnot : ∀ x, ¬ k.reader.Announces x)
    (p : ReaderPhase τ) : Told C ((s.modifyConn e g).setReader c p) := by
  have hon : Onward C s ((s.modifyConn e g).setReader c p) :=
    (Onward.modify fun k _ => hlater k).trans (.setReader p)
  refine h.of_router_eq hw hon rfl rfl rfl rfl (fun _ _ hx => .inl hx) fun x _ hx =>
    .inr (.inr (.inr ?_))
  have hg : (s.modifyConn e g).Announcing x := hx.modify fun k _ hkx => by
    simpa only [Connection.Announces, htask, hreader] using hkx
  refine hg.modify fun k' hk' hkx => hkx.imp_right fun hkx => ?_
  rw [(phases_modifyConn htask hreader hk hk').2] at hkx
  exact absurd hkx (hnot x)

/-- A task tells the next connection on its list and strikes it from the list. The device of the
session has heard of it then, or has left. -/
theorem notify (hk : s.conns[c]? = some k) {id : Uuid} {d : Nat}
    (hf : ∀ k : Connection τ, k.Later C (f k))
    (ha : ∀ k', k'.task = k.task → k'.reader = k.reader → ∀ x, k'.Announces x →
      (x.id, x.deviceConn) = (id, d) ∨ (f k').Announces x) :
    Told C ((s.notifyClosed id d).modifyConn c f) := by
  have hw' := hw.notifyClosed id d
  have hcreated : (s.notifyClosed id d).created = s.created := by
    rw [notifyClosed_eq]
    rfl
  have hon : Onward C (s.notifyClosed id d) ((s.notifyClosed id d).modifyConn c f) :=
    .modify fun k _ => hf k
  refine (h.notifyClosed hw id d).of_router_eq hw' hon rfl rfl rfl rfl (fun _ _ hx => .inl hx)
    fun x hx hann => ?_
  obtain ⟨k', hk', hkx⟩ | hother := hann.cases_at c
  · have hphases : k'.task = k.task ∧ k'.reader = k.reader := by
      rw [notifyClosed_eq] at hk'
      exact phases_modifyConn (fun k => by split <;> rfl) (fun k => by split <;> rfl) hk hk'
    obtain ⟨htask, hreader⟩ := hphases
    obtain heq | hkx' := ha k' htask hreader x hkx
    · cases heq
      have hheard : (s.notifyClosed x.id x.deviceConn).Heard C x :=
        heard_notifyClosed (h.begun x (hcreated ▸ hx))
      have hbegun := (h.notifyClosed hw x.id x.deviceConn).begun x hx
      exact .inr (.inr (.inl (hon.heard hw' hx hbegun hheard)))
    · exact .inr (.inr (.inr (announcing_modifyConn hk' hkx')))
  · exact .inr (.inr (.inr (hother f)))

theorem stepTask (hk : s.conns[c]? = some k)
    (hmove : TaskMove s c k t) : Told C t := by
  cases hmove with
  | list hp hkind =>
    have hset : Told C (s.setTask c .listed) :=
      h.setTask hw hk (by simp [hp, TaskPhase.begun]) fun x hx => by rw [hp] at hx; exact hx
    exact { hset with }
  | register hp =>
    refine h.modify hw (fun k' hk' => ?_) fun k' hk' x hx => ?_
    · cases hk.symm.trans hk'
      have hbegun : k.task.begun = false := by
        obtain ⟨hp, -⟩ | hp := hp <;> rw [hp] <;> rfl
      exact ⟨rfl, fun _ => rfl, fun hl => absurd hl.2 (by simp [hbegun]), fun _ hd => hd,
        fun _ _ _ hid => .inr (.inl hid)⟩
    · cases hk.symm.trans hk'
      refine hx.imp_left fun hx => ?_
      obtain ⟨hp, -⟩ | hp := hp <;> rw [hp] at hx <;> exact hx
  | unregister hp =>
    refine h.modify hw (fun k' _ => ?_) fun k' hk' x hx => ?_
    · have hbegun : ∀ b : Bool, (if b then TaskPhase.delisting else .collecting).begun = true := by
        decide
      exact ⟨rfl, fun _ => hbegun _, fun _ => ⟨rfl, hbegun _⟩, fun _ hd => hd,
        fun _ _ _ hid => .inr (.inl hid)⟩
    · cases hk.symm.trans hk'
      refine hx.imp_left fun hx => ?_
      rw [hp] at hx
      exact hx.elim
  | delist hp =>
    have hset : Told C (s.setTask c .collecting) :=
      h.setTask hw hk (fun _ => rfl) fun x hx => by rw [hp] at hx; exact hx
    exact { hset with }
  | collect hp => exact h.setTask hw hk (fun _ => rfl) fun x hx => by rw [hp] at hx; exact hx.elim
  | scanned hp => exact h.setTask hw hk (fun _ => rfl) fun x hx => by rw [hp] at hx; exact hx.elim
  | skip hp hx => exact h.setTask hw hk (fun _ => rfl) fun x hx => by rw [hp] at hx; exact hx
  | @delete id ids removed y hp hy =>
    obtain ⟨-, rfl⟩ := mem_of_findSession hy
    refine h.removeSession hw hk hy (.task fun _ => rfl) (fun x hx => ?_) ?_
    · refine hx.imp_left fun hx => ?_
      rw [hp] at hx
      exact mem_append_left _ hx
    · exact .inl (mem_append_right _ mem_cons_self)
  | deleted hp =>
    refine h.setTask hw hk (fun _ => rfl) fun x hx => ?_
    rw [hp] at hx
    exact mem_flatMap.2 ⟨x, hx, by simp [ActiveSession.notices]⟩
  | @notify id d rest hp =>
    refine h.notify hw hk (fun k => .task fun _ => rfl) fun k' htask _ x hx => ?_
    obtain hx | hx := hx
    · rw [htask, hp] at hx
      exact (mem_cons.1 hx).imp_right .inl
    · exact .inr (.inr hx)
  | finish hp =>
    refine h.setTask hw hk (fun _ => rfl) fun x hx => ?_
    rw [hp] at hx
    cases hx

theorem stepReader {ok : Bool} (hk : s.conns[c]? = some k) (hmove : ReaderMove s c k ok t) :
    Told C t := by
  -- a phase in which the reader announces nothing
  have hset : ∀ {p : ReaderPhase τ}, (∀ x, ¬ k.reader.Announces x) → Told C (s.setReader c p) :=
    fun hnot => h.setReader hw hk fun x hx => absurd hx (hnot x)
  cases hmove with
  | send hp hroom =>
    have hread : Told C (s.setReader c .reading) := hset fun x hx => by rw [hp] at hx; exact hx
    exact { hread with }
  | noTunnel hp _ | tunnel hp _ _ | noPeer hp _ | peer hp _ _ | noClient hp _ | client hp _
  | giveUp hp _ | gone hp _ => exact hset fun x hx => by rw [hp] at hx; exact hx
  | deliver hp hok hroom =>
    exact h.modify_setReader hw hk (fun k => .hand k _) (fun _ => rfl) (fun _ => rfl)
      (fun x hx => by rw [hp] at hx; exact hx) _
  | @remove id peer kind y hp hy =>
    obtain ⟨-, rfl⟩ := mem_of_findSession hy
    refine h.removeSession hw hk hy (.of_eq rfl rfl id rfl rfl) (fun x hx => ?_) ?_
    · refine hx.imp_right fun hx => ?_
      rw [hp] at hx
      exact hx.elim
    · exact .inr (by simp [ReaderPhase.Announces, ActiveSession.notices])
  | notify hp =>
    refine h.notify hw hk (fun k => .of_eq rfl rfl id rfl rfl) fun k' _ hreader x hx => ?_
    obtain hx | hx := hx
    · exact .inr (.inl hx)
    · rw [hreader, hp] at hx
      exact (mem_cons.1 hx).imp_right .inr
  | notified hp => exact hset fun x hx => by rw [hp] at hx; cases hx
  | drop hp =>
    exact h.modify_setReader hw hk (g := fun k => { k with registered := false })
      (fun k => .of_eq rfl rfl (fun hr => Bool.noConfusion hr) rfl rfl)
      (fun _ => rfl) (fun _ => rfl) (fun x hx => by rw [hp] at hx; exact hx) _

/-! ## The router -/

/-- The router turns to another phase. -/
theorem setRouter (htarget : ∀ d, p.target = some d → s.Begun d)
    (hunasked : ∀ x, p.unasked = some x → s.router.unasked = some x)
    (hending : ∀ m x, p = .ending m x → m.connId = x.initiatorConn → s.Heard C x)
    (hasking : p.asking = none) : Told C { s with router := p } := by
  refine h.mono hw (.of_conns_eq rfl) rfl rfl (fun _ hx => hx) (fun _ _ _ hx => .inl hx)
    (fun _ _ hx => .inr (.inr (.inr hx))) htarget hunasked hending fun x hx => ?_
  rw [hasking] at hx
  cases hx

/-- The router turns to a phase in which it has no session in hand. -/
theorem setRouter_of_none (htarget : p.target = none) (hunasked : p.unasked = none)
    (hasking : p.asking = none) (hending : ∀ m x, p ≠ .ending m x) :
    Told C { s with router := p } :=
  h.setRouter hw (fun d hd => by rw [htarget] at hd; cases hd)
    (fun x hx => by rw [hunasked] at hx; cases hx) (fun m x hp => absurd hp (hending m x)) hasking

/-- A message is queued. -/
theorem sendTo (e : Delivery τ) :
    Told C (s.sendTo c e).1 := by
  rw [sendTo_fst]
  refine h.modify hw (fun k _ => ?_) fun k _ x hx => ?_
  · split
    · exact .hand k e
    · exact .refl k
  · split <;> exact hx

/-- The router takes a session from the table that no device was asked for, or of whose end its
device has heard, or which its device has ended. -/
theorem undo (hy : y ∈ s.created) {ended : List ActiveSession}
    (hended : ∀ x ∈ s.endedByDevice, x ∈ ended) (hasking : s.router.asking = none)
    (hacc : y ∈ s.delivered → y ∈ s.sessions → y ∈ ended ∨ s.Heard C y) (htarget : p.target = none)
    (hunasked : p.unasked = none) (hasking' : p.asking = none) (hending : ∀ m x, p ≠ .ending m x) :
    Told C { s.removeSession y.id with router := p, endedByDevice := ended } := by
  refine h.mono hw (.of_conns_eq rfl) rfl rfl hended (fun x hx hdue hmem => ?_)
    (fun _ _ hx => .inr (.inr (.inr hx))) (fun d hd => ?_) (fun x hx => ?_)
    (fun m x hp => absurd hp (hending m x)) fun x hx => ?_
  · by_cases hid : x.id = y.id
    · obtain rfl := hw.unique x hx y hy hid
      obtain hd | ha := hdue
      · obtain he | hh := hacc hd hmem
        · exact .inr (.inl he)
        · exact .inr (.inr (.inl hh))
      · rw [hasking] at ha
        cases ha
    · exact .inl (mem_filter.2 ⟨hmem, by simpa using hid⟩)
  · rw [htarget] at hd
    cases hd
  · rw [hunasked] at hx
    cases hx
  · rw [hasking'] at hx
    cases hx

theorem insert (hr : s.router = .inserting m q x) :
    Told C { s with
      sessions := s.sessions ++ [x]
      created := s.created ++ [x]
      router := .delivering m q x } := by
  obtain ⟨-, hnew⟩ := hw.pending x.id (by rw [hr]; rfl)
  have hx : s.Begun x.deviceConn := h.target _ (by rw [hr]; rfl)
  exact {
    created := fun y hy => mem_append_left _ (h.created y hy)
    begun := by
      intro y hy
      obtain hy | hy := mem_append.1 hy
      · exact h.begun y hy
      · exact mem_singleton.1 hy ▸ hx
    target := nofun
    unasked := by
      intro y hy hmem
      cases hy
      exact hnew x (h.created x hmem) rfl
    ending := nofun
    asking := by
      intro y hy
      cases hy
      exact .inl (mem_append_right _ mem_cons_self)
    delivered := fun y hy => (h.delivered y hy).imp_left fun hy => mem_append_left _ hy }

theorem deliver (hr : s.router = .delivering m q x) (e : Delivery τ) :
    Told C { s.push x.deviceConn e with
      delivered := s.delivered ++ [x]
      router := .rechecking m x true } := by
  have hfits := hw.router
  rw [hr] at hfits
  have hpush : Told C (s.push x.deviceConn e) :=
    h.modify hw (fun k _ => .hand k e) fun _ _ _ hx => hx
  have hmem : ∀ {y : ActiveSession}, y ∈ s.delivered ++ [x] → y ∈ s.delivered ∨ y = x := by
    simp
  exact {
    created := by
      intro y hy
      obtain hy | rfl := hmem hy
      · exact h.created y hy
      · exact hfits.2.1
    begun := hpush.begun
    target := nofun
    unasked := nofun
    ending := nofun
    asking := nofun
    delivered := by
      intro y hy
      obtain hy | rfl := hmem hy
      · exact hpush.delivered y hy
      · have hrouter : (s.push y.deviceConn e).router = s.router := rfl
        exact hpush.asking y (by rw [hrouter, hr]; rfl) }

omit hw in
/-- The initiator ends a session: the device gets its message, or has left. -/
theorem heard_of_passOn (hx : x ∈ s.created) (hends : m.Ends C x.id)
    (hroom : ∀ k ∈ s.getClient x.deviceConn, k.hasRoom = true) (y : ActiveSession × Nat) :
    (s.sendTo x.deviceConn ⟨.text m.text, some y⟩).1.Heard C x := by
  obtain ⟨k, hk, hbegun⟩ := h.begun x hx
  rw [sendTo_fst]
  refine ⟨_, getElem_modifyConn_self hk, ?_⟩
  cases hr : k.registered with
  | false =>
    rw [Bool.false_and, if_neg Bool.false_ne_true]
    exact .inl ⟨hr, hbegun⟩
  | true =>
    rw [Bool.true_and, if_pos (hroom k (getClient_eq_some.2 ⟨hk, hr⟩))]
    refine .inr (.inr ⟨_, mem_append_right _ mem_cons_self, ?_⟩)
    obtain ⟨p, hp, hpends⟩ := hends
    simp [Delivery.endsSession, hp, hpends]

theorem stepRouter (hheed : s.Heeded .router)
    (hmove : RouterMove C s t) : Told C t := by
  have hfits := hw.router
  cases hmove with
  | offline | online | foreign | tooMany | busy | keep | noMember | member =>
    exact h.setRouter_of_none hw rfl rfl rfl nofun
  | @known m q id d hr horg =>
    refine h.setRouter hw (fun d' hd' => ?_) nofun nofun
      rfl
    cases hd'
    obtain ⟨k, hk, -⟩ := any_eq_true _ _ |>.1 horg
    obtain ⟨hk, hregistered⟩ := getClient_eq_some.1 hk
    refine ⟨k, hk, ?_⟩
    have hserves := (hw.conns d k hk).live hregistered
    cases hp : k.task <;> rw [hp] at hserves <;> first | rfl | cases hserves
  | accept hr huser hdevice =>
    refine h.setRouter hw (fun d' hd' => ?_) nofun nofun
      rfl
    exact h.target d' (by rw [hr]; exact hd')
  | insert hr => exact h.insert hw hr
  | deliver hr hroom => exact h.deliver hw hr _
  | undelivered hr hroom =>
    exact h.setRouter hw nofun (fun x hx => by rw [hr]; exact hx)
      nofun rfl
  | @withdraw m x delivered hr hclient =>
    -- the initiator is there, so the device was not asked
    have hnot : delivered = false := by
      cases delivered with
      | false => rfl
      | true =>
        simp only [Heeded, hr] at hheed
        simp [hheed] at hclient
    subst hnot
    exact h.setRouter hw nofun (fun x hx => by rw [hr]; exact hx)
      nofun rfl
  | @undo m x hr =>
    rw [hr] at hfits
    exact h.undo hw hfits.2.1 (fun _ hx => hx) (by rw [hr]; rfl)
      (fun hd => absurd hd (h.unasked x (by rw [hr]; rfl))) rfl rfl rfl nofun
  | @reject m id reason hr =>
    have hw' : Wired C accounts
        (s.sendTo m.connId ⟨.text (C.render (.sessionRejected id reason)), none⟩).1 :=
      hw.sendTo fun x sender hx => by cases hx
    exact (h.sendTo hw _).setRouter_of_none hw' rfl rfl rfl nofun
  | @passOn m x peer ends hr =>
    rw [hr] at hfits
    obtain ⟨hm, hx, hpeer, hends⟩ := hfits
    have hw' : Wired C accounts (s.sendTo peer ⟨.text m.text, some (x, m.connId)⟩).1 :=
      hw.sendTo fun y sender hy => by
        cases hy
        exact ⟨hx, hpeer, hm.said⟩
    cases ends with
    | false => exact (h.sendTo hw _).setRouter_of_none hw' rfl rfl rfl nofun
    | true =>
      refine (h.sendTo hw _).setRouter hw' nofun nofun
        (fun m' x' hp hinit => ?_) rfl
      cases hp
      have hdevice : peer = x.deviceConn := by
        rw [ActiveSession.peerConn, if_pos hinit.symm, some.injEq] at hpeer
        exact hpeer.symm
      subst hdevice
      simp only [Heeded, hr, true_implies] at hheed
      exact h.heard_of_passOn hx (hends rfl) hheed _
  | @finish m x hr =>
    rw [hr] at hfits
    obtain ⟨-, hx, hpeer⟩ := hfits
    refine h.undo hw hx (fun y hy => ?_) (by rw [hr]; rfl) (fun _ hmem => ?_) rfl rfl rfl
      nofun
    · split
      · exact mem_append_left _ hy
      · exact hy
    · by_cases hdevice : m.connId = x.deviceConn
      · have hfound : (s.findSession x.id).isSome = true :=
          find?_isSome.2 ⟨x, hmem, by simp⟩
        rw [if_pos ⟨hdevice, hfound⟩]
        exact .inl (mem_append_right _ mem_cons_self)
      · refine .inr (h.ending m x hr ?_)
        by_contra hinit
        rw [ActiveSession.peerConn, if_neg (Ne.symm hinit), if_neg (Ne.symm hdevice)] at hpeer
        cases hpeer

theorem step {a : RelayAction τ} (hheed : s.Heeded a)
    (hstep : s.step C accounts a = some t) : Told C t := by
  cases step_iff.1 hstep with
  | @connect principal org kind ha =>
    have hon : Onward C s
        { s with conns := s.conns ++ [{ client := ⟨principal, org, kind⟩ }] } := by
      intro c k hk
      exact ⟨k, by rw [getElem?_append_left (lt_of_slot hk), hk], .refl k⟩
    refine h.of_router_eq hw hon rfl rfl rfl rfl (fun _ _ hx => .inl hx) fun x _ hx => ?_
    obtain ⟨k, hk, hkx⟩ := hx
    exact .inr (.inr (.inr ⟨k, mem_append_left _ hk, hkx⟩))
  | hangUp hk hp | scan hk hp =>
    exact h.setTask hw hk (fun _ => rfl) fun x hx => by rw [hp] at hx; exact hx.elim
  | task hk hmove => exact h.stepTask hw hk hmove
  | write | fail | writerEnds =>
    exact h.modify hw (fun _ _ => .of_eq rfl rfl id rfl rfl) fun _ _ _ hx => hx
  | tell hk hid hroom =>
    refine h.modify hw (fun k' hk' => ?_) fun _ _ _ hx => hx
    cases hk.symm.trans hk'
    exact .unnote_hand hid
  | untold hk hid =>
    refine h.modify hw (fun k' hk' => ?_) fun _ _ _ hx => hx
    cases hk.symm.trans hk'
    exact .unnote (hheed _ hk)
  | receive hk hreading hbegun =>
    refine h.modify hw (fun _ _ => .of_eq rfl rfl id rfl rfl) fun k' hk' x hx => ?_
    cases hk.symm.trans hk'
    refine hx.imp_right fun hx => ?_
    rw [hreading] at hx
    exact hx.elim
  | reader hk hmove => exact h.stepReader hw hk hmove
  | @readerEnds c k hk hr =>
    refine h.setReader hw hk fun x hx => ?_
    obtain hr | ⟨hawaits, -⟩ := hr
    · rw [hr] at hx
      exact hx
    · cases hp : k.reader <;> rw [hp] at hawaits hx <;> first | exact hx.elim | cases hawaits
  | ignore => exact { h with }
  | @message id id' m rest ends =>
    have hset : Told C { s with router := .findingMember m id' ends } :=
      h.setRouter_of_none hw rfl rfl rfl nofun
    exact { hset with }
  | @ask id m rest q =>
    have hset : Told C { s with
        router :=
          if m.client.kind = .user then .findingDevice m q id
          else .rejecting m id "only users can open sessions" } := by
      split <;> exact h.setRouter_of_none hw rfl rfl rfl nofun
    exact { hset with }
  | count hr hx =>
    exact h.setRouter hw (fun d' hd' => h.target d' (by rw [hr]; exact hd')) nofun nofun rfl
  | router hmove => exact h.stepRouter hw hheed hmove

end Steps

theorem new : Told C (Relay.new : Relay τ) where
  created _ h := by cases h
  begun _ h := by cases h
  target _ h := by cases h
  unasked _ h := by cases h
  ending _ _ h := by cases h
  asking _ h := by cases h
  delivered _ h := by cases h

end Told

/-- Under `Heeded`, a device that was asked for a session that is over, and has not ended it itself,
has the end of the session in its queue or waiting for it, or the task that ended the session is
about to see to that, as long as its connection is in the map. -/
theorem device_told_of_end {acts : List (RelayAction τ)}
    (hmeets : RunMeets (Relay.step C accounts) Heeded Relay.new acts)
    (hrun : runFrom (Relay.step C accounts) Relay.new acts = some s) :
    ∀ x ∈ s.delivered, x ∉ s.sessions → x ∉ s.endedByDevice →
      ∀ k, s.conns[x.deviceConn]? = some k → k.registered = true →
        k.Queued C x.id ∨ s.Announcing x := by
  have hall : Wired C accounts s ∧ Told C s :=
    invariant_of_guardedStep (I := fun s => Wired C accounts s ∧ Told C s)
      (fun _ _ _ h hheed hstep => ⟨h.1.step hstep, h.2.step h.1 hheed hstep⟩)
      ⟨Wired.new C accounts, Told.new⟩ hmeets hrun
  intro x hx hgone hended k hk hregistered
  obtain hmem | hmem | ⟨k', hk', hleft | hqueued⟩ | hann := hall.2.delivered x hx
  · exact absurd hmem hgone
  · exact absurd hmem hended
  · cases hk.symm.trans hk'
    exact absurd hregistered (by simp [hleft.1])
  · cases hk.symm.trans hk'
    exact .inl hqueued
  · exact .inr hann

/-- User 1 closes its socket while its session is open. -/
def sampleHangUp : List (RelayAction SignalPacket) :=
  [.readerEnds 0, .hangUp 0, .task 0, .task 0]

/-- The session of user 1 ends with its socket, and the notice is written to the device. -/
def sampleEndedRun : List (RelayAction SignalPacket) :=
  sampleConnects ++ sampleInsert ++ [.router, .router] ++ sampleHangUp ++
  [.scan 0 sampleSession, .task 0, .task 0, .task 0, .task 0, .task 0, .notice 1 0 true,
    .write 1 true, .write 1 true]

def sampleEnded : Relay SignalPacket :=
  (runFrom (Relay.step .plain sampleAccounts) Relay.new sampleEndedRun).get (by decide +kernel)

theorem device_told_of_end_sampleEnded :
    sampleEnded.sessions = [] ∧ sampleEnded.delivered = [sampleSession] ∧
      ∀ x ∈ sampleEnded.delivered, x ∉ sampleEnded.sessions → x ∉ sampleEnded.endedByDevice →
        ∀ k, sampleEnded.conns[x.deviceConn]? = some k → k.registered = true →
          k.Queued .plain x.id ∨ sampleEnded.Announcing x := by
  have hmeets : RunMeets (Relay.step .plain sampleAccounts) Heeded Relay.new sampleEndedRun := by
    decide +kernel
  exact ⟨by decide +kernel, by decide +kernel, device_told_of_end hmeets (some_get _).symm⟩

/-- User 1 asks for a session and closes its socket before the router comes to the request. -/
def sampleWithdrawnRun : List (RelayAction SignalPacket) :=
  sampleConnects ++ [.receive 0 (sampleRequest 2), .reader 0 true] ++ sampleHangUp ++
  [.task 0, .task 0, .task 0, .route (sampleId 50), .router, .router, .router, .router, .router,
    .router, .router, .router, .write 1 true]

def sampleWithdrawn : Relay SignalPacket :=
  (runFrom (Relay.step .plain sampleAccounts) Relay.new sampleWithdrawnRun).get (by decide +kernel)

/-- The device is asked for the session, and nobody tells it that the session is over: the router
and the task of the user are done, the device is connected, and all it got is the request. -/
theorem withdrawn_request_stays_open :
    runFrom (Relay.step .plain sampleAccounts) Relay.new sampleWithdrawnRun =
        some sampleWithdrawn ∧
      sampleWithdrawn.delivered = [sampleSession] ∧ sampleWithdrawn.sessions = [] ∧
      sampleWithdrawn.endedByDevice = [] ∧ sampleWithdrawn.router = .idle ∧
      sampleWithdrawn.conns.map (·.task) = [.done, .serving] ∧
      sampleWithdrawn.conns.map (·.reader) = [.ended, .reading] ∧
      sampleWithdrawn.conns.map (·.registered) = [false, true] ∧
      sampleWithdrawn.conns.map (·.notices) = [[], []] ∧
      sampleWithdrawn.conns.map (·.handed) =
        [[], [⟨.text (.sessionRequest (sampleId 2) .empty relayTunnelVersion .consoleControl
          (some (sampleId 50))), none⟩]] := by
  refine ⟨(some_get _).symm, ?_, ?_, ?_, ?_, ?_, ?_, ?_, ?_, ?_⟩ <;> decide +kernel

end Relay

end RivetLink.Server
