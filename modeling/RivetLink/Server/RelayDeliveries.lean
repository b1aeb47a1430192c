import RivetLink.Server.RelayWiring

/-!
# What a step does to a connection

Every step of the relay leaves the data of a connection as they are, or queues one message for it,
or writes one to its socket, or drops its queue; `Origin` tells why a message is queued. What a
connection has said grows by the frames that arrive over it only, and only its reader task changes
where its reader is (`conn_step`). Results on what is delivered go by these cases rather than by the
steps.
-/

namespace RivetLink.Server

open List Option RivetLink.Foundation RivetLink.Protocol

variable {τ : Type}

/-- The frames that arrive over connection `c` in a step. -/
def RelayAction.utters (c : Nat) : RelayAction τ → List (WsMessage τ)
  | .receive d message => if d = c then [message] else []
  | _ => []

/-- The step is one of the reader task of connection `c`. -/
def RelayAction.reads (c : Nat) : RelayAction τ → Bool
  | .receive d _ | .reader d _ | .readerEnds d => d = c
  | _ => false

def RelayAction.routes : RelayAction τ → Bool
  | .route _ | .count _ | .router => true
  | _ => false

/-- Why a step queues a message for connection `c`. -/
inductive Origin (C : PacketCodec τ) (s : Relay τ) (c : Nat) : RelayAction τ → Delivery τ → Prop
  | frame {d : Nat} {k : Connection τ} {frame : Bytes} {x : ActiveSession}
      {kind : PrincipalKind} (hk : s.conns[d]? = some k)
      (hr : k.reader = .waiting frame x c kind) :
      Origin C s c (.reader d true) ⟨.binary frame, some (x, d)⟩
  | passed {m : SignalingMessage τ} {x : ActiveSession} {ends : Bool}
      (hr : s.router = .passingOn m x c ends) :
      Origin C s c .router ⟨.text m.text, some (x, m.connId)⟩
  | request {m : SignalingMessage τ} {q : SessionQuery} {x : ActiveSession}
      (hr : s.router = .delivering m q x) (hc : x.deviceConn = c) :
      Origin C s c .router ⟨.text (C.render (q.enriched x.id)), none⟩
  | rejected {m : SignalingMessage τ} {id : Uuid} {reason : String}
      (hr : s.router = .rejecting m id reason) :
      Origin C s c .router ⟨.text (C.render (.sessionRejected id reason)), none⟩
  | closed (i : Nat) (id : Uuid) :
      Origin C s c (.notice c i true) ⟨.text (C.render (.sessionClosed id)), none⟩

namespace Connection

/-- The connection moves on, and nothing goes in or out. -/
structure Still (k k' : Connection τ) : Prop where
  client : k'.client = k.client
  begun : k.task.begun = true → k'.task.begun = true
  left : k.Left → k'.Left
  writing : k'.writing = k.writing
  queue : k'.queue = k.queue
  handed : k'.handed = k.handed
  received : k'.received = k.received
  said : k'.said = k.said

theorem Still.refl (k : Connection τ) : k.Still k :=
  ⟨rfl, id, id, rfl, rfl, rfl, rfl, rfl⟩

theorem Still.trans {k k' k'' : Connection τ} (h : k.Still k') (h' : k'.Still k'') :
    k.Still k'' where
  client := h'.client.trans h.client
  begun hb := h'.begun (h.begun hb)
  left hl := h'.left (h.left hl)
  writing := h'.writing.trans h.writing
  queue := h'.queue.trans h.queue
  handed := h'.handed.trans h.handed
  received := h'.received.trans h.received
  said := h'.said.trans h.said

/-- What a step does to the queue of connection `c`. -/
inductive QueueMove (C : PacketCodec τ) (s : Relay τ) (a : RelayAction τ) (c : Nat)
    (k k' : Connection τ) : Prop
  | stay (hwriting : k'.writing = k.writing) (hqueue : k'.queue = k.queue)
      (hhanded : k'.handed = k.handed) (hreceived : k'.received = k.received)
  | hand {d : Delivery τ} (ho : Origin C s c a d) (hwriting : k'.writing = true)
      (hbefore : k.writing = true) (hqueue : k'.queue = k.queue ++ [d])
      (hhanded : k'.handed = k.handed ++ [d]) (hreceived : k'.received = k.received)
  | write {d : Delivery τ} (hwriting : k'.writing = true) (hbefore : k.writing = true)
      (hqueue : k.queue = d :: k'.queue) (hhanded : k'.handed = k.handed)
      (hreceived : k'.received = k.received ++ [d])
  | cut (hwriting : k'.writing = false) (hhanded : k'.handed = k.handed)
      (hreceived : k'.received = k.received)

/-- What a step does to connection `c`. -/
structure Moves (C : PacketCodec τ) (s : Relay τ) (a : RelayAction τ) (c : Nat)
    (k k' : Connection τ) : Prop where
  client : k'.client = k.client
  begun : k.task.begun = true → k'.task.begun = true
  left : k.Left → k'.Left
  said : k'.said = k.said ++ a.utters c
  reader : a.reads c = false → k'.reader = k.reader
  queue : k.QueueMove C s a c k'

/-- A step queues at most one message. -/
theorem Moves.handed {C : PacketCodec τ} {s : Relay τ} {a : RelayAction τ} {c : Nat}
    {k k' : Connection τ} (h : k.Moves C s a c k') :
    k'.handed = k.handed ∨ ∃ e, Origin C s c a e ∧ k'.handed = k.handed ++ [e] := by
  cases h.queue with
  | stay _ _ hhanded _ => exact .inl hhanded
  | hand ho _ _ _ hhanded _ => exact .inr ⟨_, ho, hhanded⟩
  | write _ _ _ hhanded _ | cut _ hhanded _ => exact .inl hhanded

end Connection

namespace Relay

variable {C : PacketCodec τ} {accounts : Uuid → Option (Uuid × PrincipalKind)} {s t u : Relay τ}
  {c d : Nat} {k : Connection τ} {f : Connection τ → Connection τ} {ok : Bool}

/-! ## Still steps -/

/-- Nothing goes in or out anywhere. -/
def AllStill (s t : Relay τ) : Prop :=
  ∀ (c : Nat) (k : Connection τ), s.conns[c]? = some k → ∃ k', t.conns[c]? = some k' ∧ k.Still k'

namespace AllStill

theorem of_conns_eq (h : t.conns = s.conns) : AllStill s t :=
  fun _ k hk => ⟨k, h ▸ hk, .refl k⟩

theorem trans (h : AllStill s t) (h' : AllStill t u) : AllStill s u := by
  intro c k hk
  obtain ⟨k', hk', hstill⟩ := h c k hk
  obtain ⟨k'', hk'', hstill'⟩ := h' c k' hk'
  exact ⟨k'', hk'', hstill.trans hstill'⟩

theorem modify (hf : ∀ k, s.conns[c]? = some k → k.Still (f k)) :
    AllStill s (s.modifyConn c f) := by
  intro d k hk
  by_cases hcd : c = d
  · subst hcd
    exact ⟨f k, getElem_modifyConn_self hk, hf k hk⟩
  · exact ⟨k, (getElem_modifyConn_of_ne hcd).trans hk, .refl k⟩

theorem setReader (p : ReaderPhase τ) : AllStill s (s.setReader c p) :=
  modify fun _ _ => ⟨rfl, id, id, rfl, rfl, rfl, rfl, rfl⟩

theorem setTask {p : TaskPhase} (hp : p.begun = true) : AllStill s (s.setTask c p) :=
  modify fun _ _ => ⟨rfl, fun _ => hp, fun hl => ⟨hl.1, hp⟩, rfl, rfl, rfl, rfl, rfl⟩

theorem notifyClosed (id : Uuid) : AllStill s (s.notifyClosed id c) := by
  rw [notifyClosed_eq]
  refine modify fun k _ => ?_
  split
  · exact ⟨rfl, fun hb => hb, fun hl => hl, rfl, rfl, rfl, rfl, rfl⟩
  · exact .refl k

theorem drop : AllStill s (s.drop c) :=
  modify fun _ _ => ⟨rfl, id, fun hl => ⟨rfl, hl.2⟩, rfl, rfl, rfl, rfl, rfl⟩

end AllStill

theorem TaskMove.allStill (h : TaskMove s c k t) (hk : s.conns[c]? = some k) : AllStill s t := by
  cases h with
  | list hp hkind =>
    have hset : AllStill s (s.setTask c .listed) := by
      refine .modify fun k' hk' => ?_
      cases hk.symm.trans hk'
      refine ⟨rfl, fun hb => ?_, fun hl => ?_, rfl, rfl, rfl, rfl, rfl⟩
      · rw [hp] at hb
        cases hb
      · have hb := hl.2
        rw [hp] at hb
        cases hb
    exact hset.trans (.of_conns_eq rfl)
  | register hp =>
    refine .modify fun k' hk' => ?_
    cases hk.symm.trans hk'
    refine ⟨rfl, fun _ => rfl, fun hl => ?_, rfl, rfl, rfl, rfl, rfl⟩
    have hb := hl.2
    obtain ⟨hp, -⟩ | hp := hp
    · rw [hp] at hb
      cases hb
    · rw [hp] at hb
      cases hb
  | unregister hp =>
    refine .modify fun k' hk' => ?_
    have hbegun : ∀ b : Bool, TaskPhase.begun (if b then .delisting else .collecting) = true := by
      intro b
      cases b <;> rfl
    exact ⟨rfl, fun _ => hbegun _, fun _ => ⟨rfl, hbegun _⟩, rfl, rfl, rfl, rfl, rfl⟩
  | delist hp => exact (AllStill.setTask (s := s) rfl).trans (.of_conns_eq rfl)
  | delete hp hx => exact (AllStill.of_conns_eq rfl).trans (.setTask rfl)
  | notify hp => exact (AllStill.notifyClosed _).trans (.setTask rfl)
  | _ => exact .setTask rfl

/-! ## Where readers are -/

/-- The phase of the reader task of a connection. -/
def readerOf (s : Relay τ) (c : Nat) : Option (ReaderPhase τ) := s.conns[c]?.map (·.reader)

theorem readerOf_of_getElem (hk : s.conns[c]? = some k) : s.readerOf c = some k.reader := by
  simp [readerOf, hk]

@[simp] theorem readerOf_setTask (p : TaskPhase) : (s.setTask c p).readerOf d = s.readerOf d :=
  map_modifyConn (·.reader) fun _ => rfl

@[simp] theorem readerOf_push (e : Delivery τ) : (s.push c e).readerOf d = s.readerOf d :=
  map_modifyConn (·.reader) fun _ => rfl

@[simp] theorem readerOf_drop : (s.drop c).readerOf d = s.readerOf d :=
  map_modifyConn (·.reader) fun _ => rfl

@[simp] theorem readerOf_removeSession (id : Uuid) :
    (s.removeSession id).readerOf d = s.readerOf d := rfl

@[simp] theorem readerOf_sendTo (e : Delivery τ) : (s.sendTo c e).1.readerOf d = s.readerOf d := by
  rw [sendTo_fst]
  exact map_modifyConn (·.reader) fun k => by split <;> rfl

@[simp] theorem readerOf_notifyClosed (id : Uuid) :
    (s.notifyClosed id c).readerOf d = s.readerOf d := by
  rw [notifyClosed_eq]
  exact map_modifyConn (·.reader) fun k => by split <;> rfl

theorem readerOf_setReader_of_ne (hne : c ≠ d) (p : ReaderPhase τ) :
    (s.setReader c p).readerOf d = s.readerOf d := by
  rw [readerOf, setReader, getElem_modifyConn_of_ne hne, readerOf]

theorem TaskMove.readerOf_eq (h : TaskMove s c k t) : t.readerOf d = s.readerOf d := by
  cases h with
  | list => exact readerOf_setTask _
  | register | unregister => exact map_modifyConn (·.reader) fun _ => rfl
  | delist => exact readerOf_setTask _
  | _ => simp

theorem ReaderMove.readerOf_eq (h : ReaderMove s c k ok t) (hne : c ≠ d) :
    t.readerOf d = s.readerOf d := by
  cases h with
  | send => exact readerOf_setReader_of_ne hne _
  | _ => simp [readerOf_setReader_of_ne hne]

theorem RouterMove.readerOf_eq (h : RouterMove C s t) : t.readerOf d = s.readerOf d := by
  cases h with
  | deliver => exact readerOf_push _
  | reject | passOn => exact readerOf_sendTo _
  | _ => rfl

/-! ## Every step -/

variable {a : RelayAction τ} {e : Delivery τ} {x : ActiveSession}

/-- A step after which nothing has gone in or out. -/
theorem moves_of_still (hstill : AllStill s t) (hk : s.conns[c]? = some k)
    (hquiet : a.utters c = []) (hreader : a.reads c = false → t.readerOf c = s.readerOf c) :
    ∃ k', t.conns[c]? = some k' ∧ k.Moves C s a c k' := by
  obtain ⟨k', hk', h⟩ := hstill c k hk
  refine ⟨k', hk', h.client, h.begun, h.left, ?_, fun ha => ?_,
    .stay h.writing h.queue h.handed h.received⟩
  · rw [hquiet, append_nil, h.said]
  · have hsame := hreader ha
    rw [readerOf_of_getElem hk, readerOf_of_getElem hk', some.injEq] at hsame
    exact hsame

/-- A step that queues a message for connection `d`. -/
theorem moves_of_push (ho : Origin C s d a e) (hroom : ∀ k, s.conns[d]? = some k → k.writing = true)
    (hstill : AllStill (s.push d e) t) (hk : s.conns[c]? = some k) (hquiet : a.utters c = [])
    (hreader : a.reads c = false → t.readerOf c = s.readerOf c) :
    ∃ k', t.conns[c]? = some k' ∧ k.Moves C s a c k' := by
  by_cases hdc : d = c
  · subst hdc
    obtain ⟨k', hk', h⟩ := hstill d (k.hand e) (getElem_modifyConn_self hk)
    refine ⟨k', hk', h.client, h.begun, h.left, ?_, fun ha => ?_,
      .hand ho (h.writing.trans (hroom k hk)) (hroom k hk) h.queue h.handed h.received⟩
    · rw [hquiet, append_nil, h.said]
      rfl
    · have hsame := hreader ha
      rw [readerOf_of_getElem hk, readerOf_of_getElem hk', some.injEq] at hsame
      exact hsame
  · obtain ⟨k', hk', h⟩ := hstill c k ((getElem_modifyConn_of_ne hdc).trans hk)
    refine ⟨k', hk', h.client, h.begun, h.left, ?_, fun ha => ?_,
      .stay h.writing h.queue h.handed h.received⟩
    · rw [hquiet, append_nil, h.said]
    · have hsame := hreader ha
      rw [readerOf_of_getElem hk, readerOf_of_getElem hk', some.injEq] at hsame
      exact hsame

theorem writing_of_hasRoom (h : k.hasRoom = true) : k.writing = true :=
  (Bool.and_eq_true_iff.1 h).1

/-- A step that queues a message for connection `d`, if there is room. -/
theorem moves_of_sendTo (ho : Origin C s d a e) (hstill : AllStill (s.sendTo d e).1 t)
    (hk : s.conns[c]? = some k) (hquiet : a.utters c = [])
    (hreader : a.reads c = false → t.readerOf c = s.readerOf c) :
    ∃ k', t.conns[c]? = some k' ∧ k.Moves C s a c k' := by
  unfold sendTo at hstill
  split at hstill
  · rename_i hroom
    refine moves_of_push ho (fun kd hkd => ?_) hstill hk hquiet hreader
    rw [any_hasRoom_getClient hkd, Bool.and_eq_true] at hroom
    exact writing_of_hasRoom hroom.2
  · exact moves_of_still hstill hk hquiet hreader

/-- A step that changes one connection. -/
theorem moves_of_modify (hk : s.conns[c]? = some k) (hquiet : c ≠ d → a.utters c = [])
    (hself : c = d → k.Moves C s a c (f k)) :
    ∃ k', (s.modifyConn d f).conns[c]? = some k' ∧ k.Moves C s a c k' := by
  by_cases hcd : c = d
  · subst hcd
    exact ⟨f k, getElem_modifyConn_self hk, hself rfl⟩
  · refine ⟨k, (getElem_modifyConn_of_ne (Ne.symm hcd)).trans hk, rfl, id, id, ?_, fun _ => rfl,
      .stay rfl rfl rfl rfl⟩
    rw [hquiet hcd, append_nil]

theorem ReaderMove.moves {kd : Connection τ} (h : ReaderMove s d kd ok t)
    (hd : s.conns[d]? = some kd) (hk : s.conns[c]? = some k) :
    ∃ k', t.conns[c]? = some k' ∧ k.Moves C s (.reader d ok) c k' := by
  have hreader : RelayAction.reads c (.reader d ok : RelayAction τ) = false →
      t.readerOf c = s.readerOf c := by
    intro hreads
    exact h.readerOf_eq (of_decide_eq_false hreads)
  cases h with
  | send hp hroom =>
    exact moves_of_still ((AllStill.setReader (s := s) _).trans (.of_conns_eq rfl)) hk rfl hreader
  | deliver hp hok hroom =>
    subst hok
    refine moves_of_push (.frame hd hp) (fun kp hkp => ?_) (.setReader _) hk rfl hreader
    rw [hkp, any_some] at hroom
    exact writing_of_hasRoom hroom
  | remove hp hx =>
    exact moves_of_still ((AllStill.of_conns_eq rfl).trans (.setReader _)) hk rfl hreader
  | notify hp =>
    exact moves_of_still ((AllStill.notifyClosed _).trans (.setReader _)) hk rfl hreader
  | drop hp => exact moves_of_still (AllStill.drop.trans (.setReader _)) hk rfl hreader
  | _ => exact moves_of_still (.setReader _) hk rfl hreader

theorem RouterMove.moves (h : RouterMove C s t) (hk : s.conns[c]? = some k) :
    ∃ k', t.conns[c]? = some k' ∧ k.Moves C s .router c k' := by
  have hreader : RelayAction.reads c (.router : RelayAction τ) = false →
      t.readerOf c = s.readerOf c := fun _ => h.readerOf_eq
  cases h with
  | deliver hr hroom =>
    refine moves_of_push (.request hr rfl) (fun kd hkd => ?_) (.of_conns_eq rfl) hk rfl hreader
    rw [any_hasRoom_getClient hkd, Bool.and_eq_true] at hroom
    exact writing_of_hasRoom hroom.2
  | reject hr => exact moves_of_sendTo (.rejected hr) (.of_conns_eq rfl) hk rfl hreader
  | passOn hr => exact moves_of_sendTo (.passed hr) (.of_conns_eq rfl) hk rfl hreader
  | _ => exact moves_of_still (.of_conns_eq rfl) hk rfl hreader

/-- What a step does to a connection. -/
theorem conn_step (h : s.step C accounts a = some t) (hk : s.conns[c]? = some k) :
    ∃ k', t.conns[c]? = some k' ∧ k.Moves C s a c k' := by
  cases step_iff.1 h with
  | connect ha =>
    refine ⟨k, ?_, rfl, id, id, (append_nil _).symm, fun _ => rfl, .stay rfl rfl rfl rfl⟩
    exact (getElem?_append_left (lt_of_slot hk)).trans hk
  | task hd hmove =>
    exact moves_of_still (hmove.allStill hd) hk rfl fun _ => hmove.readerOf_eq
  | hangUp | scan => exact moves_of_still (.setTask rfl) hk rfl fun _ => readerOf_setTask _
  | write hd hwriting hqueue =>
    refine moves_of_modify hk (fun _ => rfl) fun hcd => ?_
    subst hcd
    cases hk.symm.trans hd
    exact ⟨rfl, id, id, (append_nil _).symm, fun _ => rfl,
      .write hwriting hwriting hqueue rfl rfl⟩
  | fail | writerEnds =>
    refine moves_of_modify hk (fun _ => rfl) fun _ => ?_
    exact ⟨rfl, id, id, (append_nil _).symm, fun _ => rfl, .cut rfl rfl rfl⟩
  | @tell d i kd id' hd hid hroom =>
    refine moves_of_modify hk (fun _ => rfl) fun hcd => ?_
    subst hcd
    cases hk.symm.trans hd
    have hwriting := writing_of_hasRoom hroom
    exact ⟨rfl, id, id, (append_nil _).symm, fun _ => rfl,
      .hand (.closed i id') hwriting hwriting rfl rfl rfl⟩
  | untold =>
    refine moves_of_modify hk (fun _ => rfl) fun _ => ?_
    exact ⟨rfl, id, id, (append_nil _).symm, fun _ => rfl, .stay rfl rfl rfl rfl⟩
  | receive =>
    refine moves_of_modify hk (fun hcd => if_neg (Ne.symm hcd)) fun hcd => ?_
    subst hcd
    refine ⟨rfl, id, id, ?_, fun hreads => ?_, .stay rfl rfl rfl rfl⟩
    · simp [RelayAction.utters]
    · simp [RelayAction.reads] at hreads
  | reader hd hmove => exact hmove.moves hd hk
  | readerEnds =>
    refine moves_of_still (.setReader _) hk rfl fun hreads => ?_
    exact readerOf_setReader_of_ne (of_decide_eq_false hreads) _
  | router hmove => exact hmove.moves hk
  | _ => exact moves_of_still (.of_conns_eq rfl) hk rfl fun _ => rfl

/-! ## No other connections -/

@[simp] theorem length_modifyConn : (s.modifyConn c f).conns.length = s.conns.length :=
  length_modify ..

@[simp] theorem length_setTask (p : TaskPhase) : (s.setTask c p).conns.length = s.conns.length :=
  length_modifyConn

@[simp] theorem length_setReader (p : ReaderPhase τ) :
    (s.setReader c p).conns.length = s.conns.length :=
  length_modifyConn

@[simp] theorem length_push (e : Delivery τ) : (s.push c e).conns.length = s.conns.length :=
  length_modifyConn

@[simp] theorem length_removeSession (id : Uuid) :
    (s.removeSession id).conns.length = s.conns.length := rfl

@[simp] theorem length_drop : (s.drop c).conns.length = s.conns.length := length_modifyConn

@[simp] theorem length_sendTo (e : Delivery τ) :
    (s.sendTo c e).1.conns.length = s.conns.length := by
  rw [sendTo_fst, length_modifyConn]

@[simp] theorem length_notifyClosed (id : Uuid) :
    (s.notifyClosed id c).conns.length = s.conns.length := by
  rw [notifyClosed_eq, length_modifyConn]

theorem TaskMove.length_eq (h : TaskMove s c k t) : t.conns.length = s.conns.length := by
  cases h with
  | register | unregister => exact length_modifyConn
  | _ => simp

theorem ReaderMove.length_eq (h : ReaderMove s c k ok t) : t.conns.length = s.conns.length := by
  cases h <;> simp

theorem RouterMove.length_eq (h : RouterMove C s t) : t.conns.length = s.conns.length := by
  cases h <;> simp

/-- A step adds a connection only if one is authenticated. -/
theorem length_step (h : s.step C accounts a = some t) :
    t.conns.length = s.conns.length ∨
      ∃ client : AuthOutcome, a = .connect client.principalId ∧
        accounts client.principalId = some (client.orgId, client.kind) ∧
        t.conns = s.conns ++ [{ client := client }] := by
  cases step_iff.1 h with
  | @connect principal tenant kind ha => exact .inr ⟨⟨principal, tenant, kind⟩, rfl, ha, rfl⟩
  | task _ hmove | reader _ hmove | router hmove => exact .inl hmove.length_eq
  | ignore | message | ask | count => exact .inl rfl
  | _ => exact .inl length_modifyConn

/-- A connection after a step was there before, or is new. -/
theorem conn_before {k' : Connection τ} (h : s.step C accounts a = some t)
    (hk' : t.conns[c]? = some k') :
    (∃ k, s.conns[c]? = some k ∧ k.Moves C s a c k') ∨
      c = s.conns.length ∧ ∃ client : AuthOutcome, a = .connect client.principalId ∧
        k' = { client := client } := by
  cases hk : s.conns[c]? with
  | some k =>
    obtain ⟨k'', hk'', hmoves⟩ := conn_step h hk
    cases hk'.symm.trans hk''
    exact .inl ⟨k, rfl, hmoves⟩
  | none =>
    have hlen := getElem?_eq_none_iff.1 hk
    have hlt := lt_of_slot hk'
    obtain hsame | ⟨client, ha, -, hconns⟩ := length_step h
    · exact absurd hlt (Nat.not_lt.2 (hsame ▸ hlen))
    · rw [hconns] at hk' hlt
      have hc : c = s.conns.length := by
        rw [length_append, length_singleton] at hlt
        omega
      subst hc
      rw [getElem?_concat_length, some.injEq] at hk'
      exact .inr ⟨rfl, client, ha, hk'.symm⟩

/-! ## The tables -/

/-- `t` has the router and the records of sessions of `s`, and no other sessions. -/
structure SameTables (s t : Relay τ) : Prop where
  router : t.router = s.router
  delivered : t.delivered = s.delivered
  created : t.created = s.created
  sessions : ∀ x ∈ t.sessions, x ∈ s.sessions

theorem sameTables_modifyConn : SameTables s (s.modifyConn c f) := ⟨rfl, rfl, rfl, fun _ hx => hx⟩

theorem sameTables_notifyClosed (id : Uuid) : SameTables s (s.notifyClosed id c) := by
  rw [notifyClosed_eq]
  exact sameTables_modifyConn

theorem SameTables.modifyConn (h : SameTables s t) : SameTables s (t.modifyConn c f) :=
  ⟨h.router, h.delivered, h.created, h.sessions⟩

theorem sameTables_removeSession (id : Uuid) : SameTables s (s.removeSession id) :=
  ⟨rfl, rfl, rfl, fun _ hx => (mem_filter.1 hx).1⟩

theorem TaskMove.sameTables (h : TaskMove s c k t) : SameTables s t := by
  cases h with
  | list | delist => exact ⟨rfl, rfl, rfl, fun _ hx => hx⟩
  | delete => exact (sameTables_removeSession _).modifyConn
  | notify => exact (sameTables_notifyClosed _).modifyConn
  | _ => exact sameTables_modifyConn

theorem ReaderMove.sameTables (h : ReaderMove s c k ok t) : SameTables s t := by
  cases h with
  | send => exact ⟨rfl, rfl, rfl, fun _ hx => hx⟩
  | deliver => exact sameTables_modifyConn.modifyConn
  | remove => exact (sameTables_removeSession _).modifyConn
  | notify => exact (sameTables_notifyClosed _).modifyConn
  | drop => exact sameTables_modifyConn.modifyConn
  | _ => exact sameTables_modifyConn

/-- Only the router changes its phase and records sessions. -/
theorem sameTables_step (h : s.step C accounts a = some t) (ha : a.routes = false) :
    SameTables s t := by
  cases step_iff.1 h with
  | connect => exact ⟨rfl, rfl, rfl, fun _ hx => hx⟩
  | task _ hmove | reader _ hmove => exact hmove.sameTables
  | ignore | message | ask | count | router => cases ha
  | _ => exact sameTables_modifyConn

theorem RouterMove.mem_sessions (h : RouterMove C s t) (hx : x ∈ t.sessions) :
    x ∈ s.sessions ∨ ∃ m q, s.router = .inserting m q x := by
  cases h with
  | @insert m q y hr =>
    obtain hx | hx := mem_append.1 hx
    · exact .inl hx
    · rw [mem_singleton.1 hx]
      exact .inr ⟨m, q, hr⟩
  | undo hr => exact .inl (mem_filter.1 hx).1
  | reject hr | passOn hr =>
    rw [sendTo_fst] at hx
    exact .inl hx
  | finish hr => exact .inl (mem_filter.1 hx).1
  | _ => exact .inl hx

/-- Only the router inserts sessions. -/
theorem mem_sessions_step (h : s.step C accounts a = some t) (hx : x ∈ t.sessions) :
    x ∈ s.sessions ∨ ∃ m q, s.router = .inserting m q x := by
  cases step_iff.1 h with
  | router hmove => exact hmove.mem_sessions hx
  | ignore | message | ask | count => exact .inl hx
  | _ => exact .inl ((sameTables_step h rfl).sessions x hx)

/-- A session is created by a step of the router that changes no connection. -/
theorem created_step (h : s.step C accounts a = some t) :
    t.created = s.created ∨
      ∃ m q x, s.router = .inserting m q x ∧ t.created = s.created ++ [x] ∧ t.conns = s.conns := by
  cases step_iff.1 h with
  | router hmove =>
    cases hmove with
    | @insert m q x hr => exact .inr ⟨m, q, x, hr, rfl, rfl⟩
    | reject hr | passOn hr =>
      rw [sendTo_fst]
      exact .inl rfl
    | _ => exact .inl rfl
  | ignore | message | ask | count => exact .inl rfl
  | _ => exact .inl (sameTables_step h rfl).created

theorem mem_created_step (h : s.step C accounts a = some t) (hx : x ∈ s.created) :
    x ∈ t.created := by
  obtain heq | ⟨m, q, y, -, heq, -⟩ := created_step h
  · rw [heq]
    exact hx
  · rw [heq]
    exact mem_append_left _ hx

end Relay

end RivetLink.Server
