import RivetLink.Server.RelayWiring

/-!
# Sessions end with their sockets

A session in the table is attended at both ends: the socket task of the connection is yet to find
the session when it forgets the connection (`TaskPhase.Minds`), or the router, which created the
session a moment ago, is yet to check the connection (`RouterPhase.Unsure`). A socket task that has
started its scan does not find sessions that are inserted later; but then the connection has left
the map, so the router will find that out.
-/

namespace RivetLink.Server

open List Option RivetLink.Foundation RivetLink.Protocol

variable {τ : Type}

/-- The socket task has still to remove this session. -/
def TaskPhase.Minds (x : ActiveSession) : TaskPhase → Prop
  | .serving | .closing | .delisting | .collecting => True
  | .scanning todo found => x ∈ todo ∨ x.id ∈ found
  | .deleting ids _ => x.id ∈ ids
  | _ => False

/-- The router has still to see that connection `c` is there, or to undo the session. -/
def RouterPhase.Unsure (x : ActiveSession) (c : Nat) : RouterPhase τ → Prop
  | .delivering _ _ y => y = x
  | .rechecking _ y delivered => y = x ∧ (delivered = true → c = x.initiatorConn)
  | .undoing _ y => y = x
  | _ => False

/-- `forget_connection` has begun and is not done. -/
def TaskPhase.forgetting : TaskPhase → Bool
  | .delisting | .collecting | .scanning _ _ | .deleting _ _ | .notifying _ => true
  | _ => false

/-- `forget_connection` has not begun. -/
def TaskPhase.willForget : TaskPhase → Bool
  | .opening | .listed | .serving | .closing => true
  | _ => false

namespace Relay

variable {C : PacketCodec τ} {accounts : Uuid → Option (Uuid × PrincipalKind)} {s t : Relay τ}
  {c : Nat} {k : Connection τ} {x : ActiveSession}

/-- The socket task of connection `c` has still to remove the session. -/
def Minds (s : Relay τ) (x : ActiveSession) (c : Nat) : Prop := ∃ p, s.taskOf c = some p ∧ p.Minds x

/-- Somebody attends to both ends of every session. -/
def Attended (s : Relay τ) : Prop :=
  ∀ x ∈ s.sessions, ∀ c, x.joins c = true → s.Minds x c ∨ s.router.Unsure x c

/-- Neither the router nor a `forget_connection` is at work. -/
structure Quiet (s : Relay τ) : Prop where
  router : s.router = .idle
  tasks : ∀ k ∈ s.conns, k.task.forgetting = false

/-! ## The changes that steps are made of -/

/-- The tasks mind what they minded. -/
theorem Minds.of_taskOf_eq (h : s.Minds x c) (htask : t.taskOf c = s.taskOf c) : t.Minds x c := by
  obtain ⟨p, hp, hx⟩ := h
  exact ⟨p, htask.trans hp, hx⟩

/-- A task changes its phase. -/
theorem Minds.setTask {d : Nat} {p : TaskPhase} (h : s.Minds x d)
    (hp : ∀ q, s.taskOf c = some q → c = d → q.Minds x → p.Minds x) :
    (s.setTask c p).Minds x d := by
  obtain ⟨q, hq, hx⟩ := h
  by_cases hcd : c = d
  · subst hcd
    exact ⟨p, by simp [taskOf_setTask, hq], hp q hq rfl hx⟩
  · exact ⟨q, by simpa [taskOf_setTask, hcd] using hq, hx⟩

namespace Attended

/-- No session is added, the tasks mind what they minded, and the router settles for an end of a
session only when its task does. -/
theorem mono (h : s.Attended) (hsessions : ∀ x ∈ t.sessions, x ∈ s.sessions)
    (hminds : ∀ x ∈ t.sessions, ∀ c, x.joins c = true → s.Minds x c → t.Minds x c)
    (hunsure : ∀ x ∈ t.sessions, ∀ c, x.joins c = true → s.router.Unsure x c →
      t.Minds x c ∨ t.router.Unsure x c) : t.Attended := by
  intro x hx c hc
  obtain hm | hu := h x (hsessions x hx) c hc
  · exact .inl (hminds x hx c hc hm)
  · exact hunsure x hx c hc hu

/-- A step of a task other than a socket task or the router. -/
theorem of_taskOf_eq (h : s.Attended) (hsessions : ∀ x ∈ t.sessions, x ∈ s.sessions)
    (htask : ∀ c, t.taskOf c = s.taskOf c) (hrouter : t.router = s.router) : t.Attended :=
  h.mono hsessions (fun _ _ c _ hm => hm.of_taskOf_eq (htask c))
    fun _ _ _ _ hu => .inr (hrouter ▸ hu)

variable {p : TaskPhase}

/-- A step of a socket task. -/
theorem of_setTask {r : Relay τ} (h : s.Attended) (hsessions : ∀ x ∈ r.sessions, x ∈ s.sessions)
    (htask : ∀ c, r.taskOf c = s.taskOf c) (hrouter : r.router = s.router)
    (hp : ∀ q, s.taskOf c = some q → ∀ x ∈ r.sessions, x.joins c = true → q.Minds x → p.Minds x) :
    (r.setTask c p).Attended := by
  refine h.mono hsessions (fun x hx d hd hm => ?_) fun _ _ _ _ hu => .inr (hrouter ▸ hu)
  refine (hm.of_taskOf_eq (htask d)).setTask fun q hq hcd => ?_
  subst hcd
  exact hp q (htask c ▸ hq) x hx hd

/-- A step of the router that leaves the sessions and has nothing to settle. -/
theorem of_router {p : RouterPhase τ} (h : s.Attended)
    (hsure : ∀ x c, s.router.Unsure x c → p.Unsure x c) : Attended { s with router := p } :=
  h.mono (fun _ hx => hx) (fun _ _ _ _ hm => hm) fun x _ c _ hu => .inr (hsure x c hu)

/-! ## Steps -/

/-- A socket task goes on without touching anything else. -/
theorem setTask (h : s.Attended) (hk : s.conns[c]? = some k)
    (hp : ∀ x ∈ s.sessions, x.joins c = true → k.task.Minds x → p.Minds x) :
    (s.setTask c p).Attended := by
  refine h.of_setTask (fun _ hx => hx) (fun _ => rfl) rfl fun q hq x hx hc hm => ?_
  rw [taskOf_of_getElem hk, some.injEq] at hq
  exact hp x hx hc (hq ▸ hm)

/-- Entering and leaving the map set the phase as well. -/
theorem of_modifyConn (h : s.Attended) (hk : s.conns[c]? = some k)
    {f : Connection τ → Connection τ} (hf : ∀ x, k.task.Minds x → (f k).task.Minds x) :
    (s.modifyConn c f).Attended := by
  refine h.mono (fun _ hx => hx) (fun x _ d _ hm => ?_) fun _ _ _ _ hu => .inr hu
  obtain ⟨q, hq, hx⟩ := hm
  by_cases hcd : c = d
  · subst hcd
    rw [taskOf_of_getElem hk, some.injEq] at hq
    exact ⟨(f k).task, taskOf_of_getElem (getElem_modifyConn_self hk), hf x (hq ▸ hx)⟩
  · refine ⟨q, ?_, hx⟩
    simpa only [taskOf, getElem_modifyConn_of_ne hcd] using hq

theorem stepTask (h : s.Attended) (hk : s.conns[c]? = some k) (hmove : TaskMove s c k t) :
    t.Attended := by
  cases hmove with
  | list hp hkind => exact h.setTask hk fun x _ _ hm => by rw [hp] at hm; exact hm.elim
  | register hp => exact h.of_modifyConn hk fun _ _ => trivial
  | unregister hp =>
    refine h.of_modifyConn hk fun _ _ => ?_
    dsimp only
    split <;> trivial
  | delist hp => exact h.setTask hk fun _ _ _ _ => trivial
  | collect hp => exact h.setTask hk fun x hx _ _ => .inl hx
  | scanned hp =>
    refine h.setTask hk fun x _ _ hm => ?_
    rw [hp] at hm
    obtain hm | hm := hm
    · cases hm
    · exact hm
  | skip hp hx =>
    refine h.setTask hk fun y hy _ hm => ?_
    rw [hp] at hm
    obtain hid | hid := mem_cons.1 hm
    · exact absurd hid (by simpa using find?_eq_none.1 hx y hy)
    · exact hid
  | delete hp hx =>
    refine h.of_setTask (fun y hy => (mem_filter.1 hy).1) (fun _ => rfl) rfl
      fun q hq y hy _ hm => ?_
    rw [taskOf_of_getElem hk, some.injEq] at hq
    rw [← hq, hp] at hm
    obtain hid | hid := mem_cons.1 hm
    · exact absurd hid (by simpa using (mem_filter.1 hy).2)
    · exact hid
  | deleted hp =>
    refine h.setTask hk fun x _ _ hm => ?_
    rw [hp] at hm
    cases hm
  | @notify id d rest hp =>
    rw [notifyClosed_eq]
    refine h.of_setTask (fun _ hx => hx) (fun d' => ?_) rfl fun q hq y _ _ hm => ?_
    · exact map_modifyConn (·.task) fun k => by split <;> rfl
    rw [taskOf_of_getElem hk, some.injEq] at hq
    rw [← hq, hp] at hm
    exact hm.elim
  | finish hp => exact h.setTask hk fun x _ _ hm => by rw [hp] at hm; exact hm.elim

theorem scan {y : ActiveSession} {todo : List ActiveSession} {found : List Uuid}
    (h : s.Attended) (hk : s.conns[c]? = some k) (hp : k.task = .scanning todo found) :
    (s.setTask c (.scanning (todo.filter (· ≠ y))
      (if y ∈ s.sessions ∧ y.joins c = true then found ++ [y.id] else found))).Attended := by
  refine h.setTask hk fun x hx hc hm => ?_
  rw [hp] at hm
  obtain htodo | hfound := hm
  · by_cases hxy : x = y
    · -- the scan comes to the session and keeps its id
      subst hxy
      refine .inr ?_
      rw [if_pos ⟨hx, hc⟩]
      exact mem_append_right _ mem_cons_self
    · exact .inl (mem_filter.2 ⟨htodo, by simpa using hxy⟩)
  · refine .inr ?_
    split
    · exact mem_append_left _ hfound
    · exact hfound

theorem stepReader {ok : Bool} (h : s.Attended) (hmove : ReaderMove s c k ok t) : t.Attended := by
  have hset : ∀ p, (s.setReader c p).Attended := fun p =>
    h.of_taskOf_eq (fun _ hx => hx) (fun _ => taskOf_setReader p) rfl
  cases hmove with
  | send hp hroom => exact hset .reading
  | noTunnel hp hx | tunnel hp hx htunnel | noPeer hp hx | peer hp hx hpeer | noClient hp hclient
  | client hp hclient | giveUp hp hok | gone hp hx | notified hp => exact hset _
  | deliver hp hok hroom =>
    exact h.of_taskOf_eq (fun _ hx => hx)
      (fun _ => (taskOf_setReader _).trans (taskOf_push _)) rfl
  | remove hp hx =>
    exact h.of_taskOf_eq (fun x hx => (mem_filter.1 hx).1) (fun _ => taskOf_setReader _) rfl
  | notify hp =>
    rw [notifyClosed_eq]
    refine h.of_taskOf_eq (fun _ hx => hx) (fun _ => (taskOf_setReader _).trans ?_) rfl
    exact map_modifyConn (·.task) fun k => by split <;> rfl
  | drop hp =>
    refine h.of_taskOf_eq (fun _ hx => hx) (fun _ => (taskOf_setReader _).trans ?_) rfl
    exact map_modifyConn (·.task) fun _ => rfl

/-- A connection in the map has a socket task that minds its sessions. -/
theorem minds_of_getClient (hw : Wired C accounts s) {x : ActiveSession}
    (hc : s.getClient c = some k) : s.Minds x c := by
  obtain ⟨hk, hr⟩ := getClient_eq_some.1 hc
  refine ⟨k.task, taskOf_of_getElem hk, ?_⟩
  have hserves := (hw.conns c k hk).live hr
  cases hp : k.task with
  | serving | closing => trivial
  | _ =>
    rw [hp] at hserves
    cases hserves

theorem stepRouter (h : s.Attended) (hw : Wired C accounts s) (hmove : RouterMove C s t) :
    t.Attended := by
  -- the router has nothing to settle before it has inserted a session and after it has checked it
  have hsure : ∀ {p : RouterPhase τ}, (∀ x c, ¬ s.router.Unsure x c) →
      Attended { s with router := p } := fun hnot =>
    h.of_router fun x c hu => absurd hu (hnot x c)
  have hsend : ∀ {p : RouterPhase τ} {c : Nat} {e : Delivery τ},
      (∀ x c, ¬ s.router.Unsure x c) → Attended { (s.sendTo c e).1 with router := p } := by
    intro p c e hnot
    refine h.mono (fun x hx => ?_) (fun x _ d _ hm => hm.of_taskOf_eq (taskOf_sendTo e))
      fun x _ d _ hu => absurd hu (hnot x d)
    rw [sendTo_fst] at hx
    exact hx
  cases hmove with
  | offline hr hd | online hr hd => exact hsure fun _ _ hu => by rw [hr] at hu; exact hu
  | foreign hr horg | known hr horg => exact hsure fun _ _ hu => by rw [hr] at hu; exact hu
  | tooMany hr hmax | busy hr huser hmax => exact hsure fun _ _ hu => by rw [hr] at hu; exact hu
  | accept hr huser hdevice => exact hsure fun _ _ hu => by rw [hr] at hu; exact hu
  | insert hr =>
    intro y hy c hc
    obtain hy | hy := mem_append.1 hy
    · obtain hm | hu := h y hy c hc
      · exact .inl hm
      · rw [hr] at hu
        exact hu.elim
    · exact .inr (mem_singleton.1 hy).symm
  | @deliver m q x hr hroom =>
    refine h.mono (fun _ hy => hy) (fun y _ c _ hm => hm.of_taskOf_eq (taskOf_push _))
      fun y hy c hc hu => ?_
    rw [hr] at hu
    obtain rfl : x = y := hu
    simp only [ActiveSession.joins, Bool.or_eq_true, decide_eq_true_eq] at hc
    obtain rfl | rfl := hc
    · exact .inr ⟨rfl, fun _ => rfl⟩
    · -- the queue of the device took the request, so the device is in the map
      obtain ⟨k, hk, -⟩ := any_eq_true _ _ |>.1 hroom
      exact .inl ((minds_of_getClient hw hk).of_taskOf_eq (taskOf_push _))
  | undelivered hr hroom =>
    refine h.of_router fun y c hu => ?_
    rw [hr] at hu
    exact ⟨hu, fun hfalse => Bool.noConfusion hfalse⟩
  | @keep m x hr hclient =>
    refine h.mono (fun _ hy => hy) (fun _ _ _ _ hm => hm) fun y _ c _ hu => ?_
    have hfits := hw.router
    rw [hr] at hu hfits
    obtain ⟨rfl, hc⟩ := hu
    obtain ⟨k, hk⟩ := isSome_iff_exists.1 hclient
    rw [← hfits.2.2, ← hc rfl] at hk
    exact .inl (minds_of_getClient hw hk)
  | withdraw hr hclient =>
    refine h.of_router fun y c hu => ?_
    rw [hr] at hu
    exact hu.1
  | undo hr =>
    refine h.mono (fun y hy => (mem_filter.1 hy).1) (fun _ _ _ _ hm => hm)
      fun y hy c _ hu => ?_
    rw [hr] at hu
    have hne := (mem_filter.1 hy).2
    simp only [RouterPhase.Unsure] at hu
    simp [hu] at hne
  | reject hr => exact hsend fun _ _ hu => by rw [hr] at hu; exact hu
  | noMember hr hx | member hr hx hpeer => exact hsure fun _ _ hu => by rw [hr] at hu; exact hu
  | passOn hr => exact hsend fun _ _ hu => by rw [hr] at hu; exact hu
  | finish hr =>
    refine h.mono (fun y hy => (mem_filter.1 hy).1) (fun _ _ _ _ hm => hm)
      fun y _ c _ hu => ?_
    rw [hr] at hu
    exact hu.elim

theorem step {a : RelayAction τ} (h : s.Attended) (hw : Wired C accounts s)
    (hstep : s.step C accounts a = some t) : t.Attended := by
  -- what changes a connection but not its socket task
  have hconn : ∀ {c : Nat} {f : Connection τ → Connection τ}, (∀ k, (f k).task = k.task) →
      (s.modifyConn c f).Attended := fun hf =>
    h.of_taskOf_eq (fun _ hx => hx) (fun _ => map_modifyConn (·.task) hf) rfl
  cases step_iff.1 hstep with
  | connect ha =>
    refine h.mono (fun _ hx => hx) (fun x _ c _ hm => ?_) fun _ _ _ _ hu => .inr hu
    obtain ⟨p, hp, hx⟩ := hm
    obtain ⟨k, hk, rfl⟩ := map_eq_some_iff.1 hp
    refine ⟨k.task, taskOf_of_getElem ?_, hx⟩
    rw [getElem?_append_left (lt_of_slot hk), hk]
  | hangUp hk hp hdone => exact h.setTask hk fun _ _ _ _ => trivial
  | task hk hmove => exact h.stepTask hk hmove
  | scan hk hp hx => exact h.scan hk hp
  | reader hk hmove => exact h.stepReader hmove
  | ignore hidle hsig hd => exact h
  | message hidle hsig hends hd | ask hidle hsig hq hd hid =>
    exact h.mono (fun _ hx => hx) (fun _ _ _ _ hm => hm) fun _ _ _ _ hu => by
      rw [hidle] at hu
      exact hu.elim
  | count hr hx => exact h.of_router fun x c hu => by rw [hr] at hu; exact hu
  | router hmove => exact h.stepRouter hw hmove
  | _ => exact hconn fun _ => rfl

theorem new : Attended (new : Relay τ) := nofun

end Attended

/-- No session is left in the table without a socket that will take it along. Whenever the router
and `forget_connection` are not at work, both ends of every session are in the map or have a socket
task that will run `forget_connection`; and once the router is done with its message, the socket
task of neither end of a session is done. -/
theorem no_orphaned_session {acts : List (RelayAction τ)}
    (hrun : runFrom (Relay.step C accounts) Relay.new acts = some s) :
    (s.Quiet → ∀ x ∈ s.sessions, ∀ c, x.joins c = true →
        ∃ k, s.conns[c]? = some k ∧ (k.registered = true ∨ k.task.willForget = true)) ∧
      (s.router = .idle → ∀ x ∈ s.sessions, ∀ c, x.joins c = true →
        ∃ k, s.conns[c]? = some k ∧ k.task ≠ .done) := by
  have hall : Wired C accounts s ∧ s.Attended :=
    invariant_of_step (I := fun s => Wired C accounts s ∧ s.Attended)
      (fun _ _ _ h hstep => ⟨h.1.step hstep, h.2.step h.1 hstep⟩)
      ⟨Wired.new C accounts, Attended.new⟩ hrun
  have hminds : s.router = .idle → ∀ x ∈ s.sessions, ∀ c, x.joins c = true →
      ∃ k, s.conns[c]? = some k ∧ k.task.Minds x := by
    intro hidle x hx c hc
    obtain ⟨p, hp, hm⟩ | hu := hall.2 x hx c hc
    · obtain ⟨k, hk, rfl⟩ := map_eq_some_iff.1 hp
      exact ⟨k, hk, hm⟩
    · rw [hidle] at hu
      exact hu.elim
  constructor
  · intro hquiet x hx c hc
    obtain ⟨k, hk, hm⟩ := hminds hquiet.router x hx c hc
    refine ⟨k, hk, .inr ?_⟩
    have hnot := hquiet.tasks k (mem_of_getElem? hk)
    cases hp : k.task <;> rw [hp] at hm hnot <;> first | rfl | exact hm.elim | cases hnot
  · intro hidle x hx c hc
    obtain ⟨k, hk, hm⟩ := hminds hidle x hx c hc
    refine ⟨k, hk, fun hdone => ?_⟩
    rw [hdone] at hm
    exact hm

theorem length_sampleId (n : UInt8) : (List.replicate 16 n).length = 16 := length_replicate

def sampleId (n : UInt8) : Uuid := ⟨List.replicate 16 n, length_sampleId n⟩

/-- Two organisations, each with a user and a device. -/
def sampleAccounts (u : Uuid) : Option (Uuid × PrincipalKind) :=
  match u.bytes.head? with
  | some 1 => some (sampleId 100, .user)
  | some 2 => some (sampleId 100, .device)
  | some 3 => some (sampleId 101, .user)
  | some 4 => some (sampleId 101, .device)
  | _ => none

def sampleRequest (device : UInt8) : WsMessage SignalPacket :=
  .text (.sessionRequest (sampleId device) .empty relayTunnelVersion .consoleControl none)

def sampleConnects : List (RelayAction SignalPacket) :=
  [.connect (sampleId 1), .connect (sampleId 2), .task 0, .task 1, .task 1]

/-- The router takes a request up to the insertion of session 50. -/
def sampleInsert : List (RelayAction SignalPacket) :=
  [.receive 0 (sampleRequest 2), .reader 0 true, .route (sampleId 50), .router, .router, .router,
    .router]

def sampleSession : ActiveSession where
  id := sampleId 50
  orgId := sampleId 100
  deviceId := sampleId 2
  deviceConn := 1
  initiatorId := sampleId 1
  initiatorConn := 0
  tunnel := true

def sampleOpen : Relay SignalPacket :=
  (runFrom (Relay.step .plain sampleAccounts) Relay.new
    (sampleConnects ++ sampleInsert ++ [.router, .router])).get (by decide +kernel)

theorem no_orphaned_session_sampleOpen :
    sampleOpen.Quiet ∧ sampleOpen.sessions = [sampleSession] ∧
      ∀ x ∈ sampleOpen.sessions, ∀ c, x.joins c = true →
        ∃ k, sampleOpen.conns[c]? = some k ∧ (k.registered = true ∨ k.task.willForget = true) := by
  have hquiet : sampleOpen.Quiet := ⟨by decide +kernel, by decide +kernel⟩
  exact ⟨hquiet, by decide +kernel, (no_orphaned_session (some_get _).symm).1 hquiet⟩

end Relay

end RivetLink.Server
