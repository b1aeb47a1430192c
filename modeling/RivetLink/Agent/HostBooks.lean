import Mathlib.Data.List.Nodup
import RivetLink.Agent.RelayHost
import RivetLink.Foundation.Transition

/-!
# The books of a tunnel host

`run_host_tunnels` keeps a queue for each tunnel (`inbound`), the tunnels that were offered a direct
path (`offered`), and a set of tasks, one for each tunnel and one for each direct path. The tables
are kept under the session ids that the relay chose, and the relay may use an id again, also while a
tunnel of that id is still running. `Books` is what the loop keeps, with the tasks in the order in
which they were started, and `Books.Move` what can happen to it. A tunnel that ends takes the
entries of its id along, also if they belong to another tunnel of that id; so nothing is ever kept
for an id without a running tunnel.
-/

namespace RivetLink.Agent

open List Option RivetLink.Foundation RivetLink.Protocol RivetLink.Sdk

structure BookEntry where
  id : Uuid
  ended : Bool := false
  /-- The loop has seen the end of the task. -/
  joined : Bool := false
  deriving DecidableEq

structure Books where
  roster : List BookEntry := []
  inbound : Uuid → Option Nat := fun _ => none
  offered : List Uuid := []
  /-- The tasks that serve a direct path. -/
  directs : List Uuid := []

namespace Books

/-- The tasks that the loop has not seen end. -/
def tasks (b : Books) : Nat := b.roster.countP (!·.joined) + b.directs.length

def unfinished (b : Books) : Nat := b.roster.countP (!·.ended) + b.directs.length

/-- One change of the books, with the tunnel for which a direct path is served from now on. -/
inductive Move (maxTunnels : Nat) (b : Books) : Books → Option Nat → Prop
  | same : Move maxTunnels b b none
  | work {i : Nat} {e e' : BookEntry} (he : b.roster[i]? = some e) (hid : e'.id = e.id)
      (hended : e.ended = true → e'.ended = true) (hjoined : e'.joined = e.joined) :
      Move maxTunnels b { b with roster := b.roster.set i e' } none
  | accept (id : Uuid) (hroom : b.tasks < maxTunnels) :
      Move maxTunnels b { b with
        roster := b.roster ++ [{ id := id }]
        inbound := Function.update b.inbound id (some b.roster.length) } none
  | offer {id : Uuid} {i : Nat} (hi : b.inbound id = some i) (hroom : b.tasks < maxTunnels)
      (hnew : id ∉ b.offered) :
      Move maxTunnels b { b with
        directs := b.directs ++ [id]
        offered := b.offered ++ [id] } (some i)
  | unlink (id : Uuid) :
      Move maxTunnels b { b with inbound := Function.update b.inbound id none } none
  | join {i : Nat} {e : BookEntry} (he : b.roster[i]? = some e) (hended : e.ended = true)
      (hjoined : e.joined = false) :
      Move maxTunnels b { b with
        roster := b.roster.set i { e with joined := true }
        inbound := Function.update b.inbound e.id none
        offered := b.offered.erase e.id } none
  | joinDirect (j : Nat) : Move maxTunnels b { b with directs := b.directs.eraseIdx j } none

/-- The books are in order; direct paths have been served for the tunnels in `served`. -/
structure Ok (maxTunnels : Nat) (b : Books) (served : List Nat) : Prop where
  limit : b.tasks ≤ maxTunnels
  joined : ∀ e ∈ b.roster, e.joined = true → e.ended = true
  inbound : ∀ id i, b.inbound id = some i →
    ∃ e, b.roster[i]? = some e ∧ e.id = id ∧ e.joined = false
  offered : ∀ id ∈ b.offered, ∃ e ∈ b.roster, e.id = id ∧ e.joined = false
  distinct : b.offered.Nodup
  once : served.Nodup
  known : ∀ i ∈ served, i < b.roster.length
  -- a tunnel that is still linked was entered in `offered` when its direct path was served
  kept : ∀ id i, b.inbound id = some i → i ∈ served → id ∈ b.offered

variable {maxTunnels i : Nat} {b b' : Books} {served : List Nat} {r : Option Nat}
  {l : List BookEntry}

section Links

variable {f : Uuid → Option Nat} {id id' : Uuid} {i n : Nat}

theorem update_some_eq_some : Function.update f id (some n) id' = some i ↔
    id' = id ∧ n = i ∨ id' ≠ id ∧ f id' = some i := by
  by_cases hid : id' = id
  · subst hid
    simp
  · simp [hid]

theorem update_none_eq_some : Function.update f id none id' = some i ↔
    id' ≠ id ∧ f id' = some i := by
  by_cases hid : id' = id
  · subst hid
    simp
  · simp [hid]

end Links

theorem Ok.new : Ok maxTunnels {} [] := by
  refine ⟨Nat.zero_le _, ?_, ?_, ?_, nodup_nil, nodup_nil, ?_, ?_⟩ <;> simp

theorem unfinished_le_tasks (hb : Ok maxTunnels b served) : b.unfinished ≤ b.tasks := by
  refine Nat.add_le_add_right (countP_mono_left fun e he hended => ?_) _
  cases hjoined : e.joined with
  | false => rfl
  | true =>
    rw [hb.joined e he hjoined] at hended
    cases hended

/-- A task that was joined stays joined, so there are no more tasks to join than before. -/
theorem countP_set_le {e e' : BookEntry} (he : l[i]? = some e)
    (hjoined : e.joined = true → e'.joined = true) :
    (l.set i e').countP (!·.joined) ≤ l.countP (!·.joined) := by
  obtain ⟨hi, rfl⟩ := List.getElem?_eq_some_iff.1 he
  rw [List.countP_set hi]
  cases hold : l[i].joined with
  | true => simp [hjoined hold]
  | false =>
    have hpos : 0 < l.countP (!·.joined) :=
      countP_pos_iff.2 ⟨l[i], getElem_mem hi, by simp [hold]⟩
    simp only [Bool.not_false, if_true]
    split <;> omega

/-- Entries of other tasks stay, and an entry that is not joined stays so unless the move joins
it. -/
theorem getElem?_set_cases {j : Nat} {e x : BookEntry} (e' : BookEntry) (he : l[i]? = some e)
    (hx : l[j]? = some x) :
    i = j ∧ x = e ∧ (l.set i e')[j]? = some e' ∨ (l.set i e')[j]? = some x := by
  by_cases hij : i = j
  · subst hij
    refine .inl ⟨rfl, some.inj (hx.symm.trans he), ?_⟩
    rw [slot_set he]
  · exact .inr (by rw [getElem?_set_ne hij, hx])

namespace Ok

variable {i : Nat}

theorem work (hb : Ok maxTunnels b served) {e e' : BookEntry} (he : b.roster[i]? = some e)
    (hid : e'.id = e.id) (hended : e.ended = true → e'.ended = true)
    (hjoined : e'.joined = e.joined) :
    Ok maxTunnels { b with roster := b.roster.set i e' } served where
  limit := (Nat.add_le_add_right (countP_set_le he fun h => hjoined.trans h) _).trans hb.limit
  joined x hx hj := by
    obtain hx | rfl := mem_or_eq_of_mem_set hx
    · exact hb.joined x hx hj
    · exact hended (hb.joined e (mem_of_getElem? he) (hjoined.symm.trans hj))
  inbound id j hj := by
    obtain ⟨x, hx, hxid, hxj⟩ := hb.inbound id j hj
    obtain ⟨-, rfl, hset⟩ | hset := getElem?_set_cases e' he hx
    · exact ⟨e', hset, hid.trans hxid, hjoined.trans hxj⟩
    · exact ⟨x, hset, hxid, hxj⟩
  offered id hoffered := by
    obtain ⟨x, hx, hxid, hxj⟩ := hb.offered id hoffered
    obtain rfl | hx := mem_set_of_mem e' he hx
    · exact ⟨e', mem_set_self he, hid.trans hxid, hjoined.trans hxj⟩
    · exact ⟨x, hx, hxid, hxj⟩
  distinct := hb.distinct
  once := hb.once
  known j hj := by
    rw [length_set]
    exact hb.known j hj
  kept := hb.kept

theorem accept (hb : Ok maxTunnels b served) (id : Uuid) (hroom : b.tasks < maxTunnels) :
    Ok maxTunnels { b with
      roster := b.roster ++ [{ id := id }]
      inbound := Function.update b.inbound id (some b.roster.length) } served where
  limit := by
    simp only [tasks, countP_append, countP_singleton, Bool.not_false, if_true] at hroom ⊢
    omega
  joined x hx hj := by
    obtain hx | hx := mem_append.1 hx
    · exact hb.joined x hx hj
    · rw [mem_singleton.1 hx] at hj
      cases hj
  inbound id' i hi := by
    obtain ⟨rfl, rfl⟩ | ⟨-, hi⟩ := update_some_eq_some.1 hi
    · exact ⟨{ id := id' }, getElem?_concat_length, rfl, rfl⟩
    · obtain ⟨e, he, heid, hej⟩ := hb.inbound id' i hi
      exact ⟨e, by rw [getElem?_append_left (lt_of_slot he), he], heid, hej⟩
  offered id' hoffered := by
    obtain ⟨e, he, heid, hej⟩ := hb.offered id' hoffered
    exact ⟨e, mem_append_left _ he, heid, hej⟩
  distinct := hb.distinct
  once := hb.once
  known i hi := by
    rw [length_append]
    exact Nat.lt_succ_of_lt (hb.known i hi)
  kept id' i hi hserved := by
    obtain ⟨rfl, rfl⟩ | ⟨-, hi⟩ := update_some_eq_some.1 hi
    · -- the new tunnel has not been served
      exact absurd (hb.known _ hserved) (Nat.lt_irrefl _)
    · exact hb.kept id' i hi hserved

theorem offer (hb : Ok maxTunnels b served) {id : Uuid} (hi : b.inbound id = some i)
    (hroom : b.tasks < maxTunnels) (hnew : id ∉ b.offered) :
    Ok maxTunnels { b with
      directs := b.directs ++ [id]
      offered := b.offered ++ [id] } (served ++ [i]) where
  limit := by
    simp only [tasks, length_append, length_singleton] at hroom ⊢
    omega
  joined := hb.joined
  inbound := hb.inbound
  offered id' hoffered := by
    obtain hoffered | hoffered := mem_append.1 hoffered
    · exact hb.offered id' hoffered
    · obtain ⟨e, he, heid, hej⟩ := hb.inbound id i hi
      exact ⟨e, mem_of_getElem? he, heid.trans (mem_singleton.1 hoffered).symm, hej⟩
  distinct := by
    refine nodup_append.2 ⟨hb.distinct, nodup_singleton id, fun x hx y hy hxy => ?_⟩
    rw [mem_singleton.1 hy] at hxy
    exact hnew (hxy ▸ hx)
  once := by
    -- a tunnel that was served before would have its id among the offered ones
    refine nodup_append.2 ⟨hb.once, nodup_singleton i, fun x hx y hy hxy => ?_⟩
    rw [mem_singleton.1 hy] at hxy
    exact hnew (hb.kept id i hi (hxy ▸ hx))
  known j hj := by
    obtain hj | hj := mem_append.1 hj
    · exact hb.known j hj
    · obtain ⟨e, he, -, -⟩ := hb.inbound id i hi
      rw [mem_singleton.1 hj]
      exact lt_of_slot he
  kept id' j hj hserved := by
    obtain hserved | hserved := mem_append.1 hserved
    · exact mem_append_left _ (hb.kept id' j hj hserved)
    · -- an id that leads to the tunnel is the id of the tunnel
      obtain ⟨e, he, heid, -⟩ := hb.inbound id i hi
      obtain ⟨e', he', heid', -⟩ := hb.inbound id' j hj
      rw [mem_singleton.1 hserved, he] at he'
      cases he'
      exact mem_append_right _ (mem_singleton.2 (heid'.symm.trans heid))

theorem unlink (hb : Ok maxTunnels b served) (id : Uuid) :
    Ok maxTunnels { b with inbound := Function.update b.inbound id none } served :=
  { hb with
    inbound := fun id' i hi => hb.inbound id' i (update_none_eq_some.1 hi).2
    kept := fun id' i hi => hb.kept id' i (update_none_eq_some.1 hi).2 }

theorem join (hb : Ok maxTunnels b served) {e : BookEntry} (he : b.roster[i]? = some e)
    (hended : e.ended = true) :
    Ok maxTunnels { b with
      roster := b.roster.set i { e with joined := true }
      inbound := Function.update b.inbound e.id none
      offered := b.offered.erase e.id } served := by
  -- what is left in the tables is of other ids
  refine ⟨?_, fun x hx hj => ?_, fun id j hj => ?_, fun id hoffered => ?_, hb.distinct.erase _,
    hb.once, fun j hj => ?_, fun id j hj hserved => ?_⟩
  · exact (Nat.add_le_add_right (countP_set_le he fun _ => rfl) _).trans hb.limit
  · obtain hx | rfl := mem_or_eq_of_mem_set hx
    · exact hb.joined x hx hj
    · exact hended
  · obtain ⟨hid, hj⟩ := update_none_eq_some.1 hj
    obtain ⟨x, hx, hxid, hxj⟩ := hb.inbound id j hj
    obtain ⟨-, rfl, -⟩ | hset := getElem?_set_cases { e with joined := true } he hx
    · exact absurd hxid.symm hid
    · exact ⟨x, hset, hxid, hxj⟩
  · obtain ⟨hid, hoffered⟩ := hb.distinct.mem_erase_iff.1 hoffered
    obtain ⟨x, hx, hxid, hxj⟩ := hb.offered id hoffered
    obtain rfl | hx := mem_set_of_mem { e with joined := true } he hx
    · exact absurd hxid.symm hid
    · exact ⟨x, hx, hxid, hxj⟩
  · rw [length_set]
    exact hb.known j hj
  · obtain ⟨hid, hj⟩ := update_none_eq_some.1 hj
    exact hb.distinct.mem_erase_iff.2 ⟨hid, hb.kept id j hj hserved⟩

theorem joinDirect (hb : Ok maxTunnels b served) (j : Nat) :
    Ok maxTunnels { b with directs := b.directs.eraseIdx j } served :=
  { hb with
    limit := (Nat.add_le_add_left (length_eraseIdx_le b.directs j) _).trans hb.limit }

theorem move (hb : Ok maxTunnels b served) (h : Move maxTunnels b b' r) :
    Ok maxTunnels b' (served ++ r.toList) := by
  cases h with
  | offer hi hroom hnew => exact hb.offer hi hroom hnew
  | same => simpa using hb
  | work he hid hended hjoined => simpa using hb.work he hid hended hjoined
  | accept id hroom => simpa using hb.accept id hroom
  | unlink id => simpa using hb.unlink id
  | join he hended _ => simpa using hb.join he hended
  | joinDirect j => simpa using hb.joinDirect j

end Ok

end Books

/-! ## The host keeps such books -/

variable {τ η : Type}

/-- The session and the pump of the tunnel have returned. -/
def HostTunnel.ended (t : HostTunnel) : Bool := t.closed && !t.pump.attached

def HostTunnel.entry (t : HostTunnel) : BookEntry := ⟨t.id, t.ended, t.joined⟩

/-- The loop reads a message, or something else happens at the host. -/
inductive RelayEvent (τ : Type) where
  | message (m : WsMessage τ)
  | act (a : HostAction)

namespace TunnelHost

variable (C : PacketCodec τ) (H : HostHandler η) (maxTunnels : Nat)

def stepEvent (h : TunnelHost η τ) : RelayEvent τ → Option (TunnelHost η τ)
  | .message m => h.next C H maxTunnels m
  | .act a => h.step C a

def books (h : TunnelHost η τ) : Books where
  roster := h.tunnels.map HostTunnel.entry
  inbound := h.inbound
  offered := h.offered
  directs := h.directs

def unfinished (h : TunnelHost η τ) : Nat :=
  (h.tunnels.filter fun t => !t.ended).length + h.directs.length

/-- The tunnel for which a step begins to serve a direct path. -/
def serves (h : TunnelHost η τ) : RelayEvent τ → Option Nat
  | .message (.text t) =>
    match C.parse t with
    | some (.iceCandidate id _) =>
      if h.tasks < maxTunnels ∧ id ∉ h.offered then h.inbound id else none
    | _ => none
  | _ => none

variable {C H maxTunnels} {h h' : TunnelHost η τ} {i : Nat} {t t' : HostTunnel} {a : HostAction}
  {e : RelayEvent τ}

theorem tasks_books : h.books.tasks = h.tasks := by
  rw [Books.tasks, tasks, ← countP_eq_length_filter, books, countP_map]
  rfl

theorem unfinished_books : h.books.unfinished = h.unfinished := by
  rw [Books.unfinished, unfinished, ← countP_eq_length_filter, books, countP_map]
  rfl

theorem getElem?_books (hi : h.tunnels[i]? = some t) : h.books.roster[i]? = some t.entry := by
  rw [books, getElem?_map, hi, map_some]

/-- A tunnel moves on. -/
theorem move_setTunnel (hi : h.tunnels[i]? = some t) (hid : t'.id = t.id)
    (hended : t.ended = true → t'.ended = true) (hjoined : t'.joined = t.joined) :
    h.books.Move maxTunnels (h.setTunnel i t').books none := by
  have hset : (h.setTunnel i t').books =
      { h.books with roster := h.books.roster.set i t'.entry } := by
    rw [books, setTunnel, map_set]
    rfl
  rw [hset]
  exact .work (getElem?_books hi) hid hended hjoined

/-- The local side of a tunnel does not come back. -/
theorem attached_of_step {p p' : Pump} {b : PumpAction} (hstep : p.step b = some p')
    (hdetached : p.attached = false) : p'.attached = false := by
  cases b with
  | detach | stop =>
    cases hstep
    first | rfl | exact hdetached
  | write bytes | read n | take n | put n =>
    obtain ⟨-, ⟨⟩⟩ := ite_none_right_eq_some.1 hstep
    exact hdetached

theorem move_stepTunnel (hi : h.tunnels[i]? = some t) (hstep : h.stepTunnel C i t a = some h') :
    h.books.Move maxTunnels h'.books none := by
  cases a with
  | pump i' b =>
    obtain ⟨p, hp, rfl⟩ := map_eq_some_iff.1 hstep
    refine move_setTunnel hi rfl (fun hended => ?_) rfl
    simp only [HostTunnel.ended, Bool.and_eq_true, Bool.not_eq_true'] at hended ⊢
    exact ⟨hended.1, attached_of_step hp hended.2⟩
  | send i' | recv i' =>
    simp only [TunnelHost.stepTunnel] at hstep
    split at hstep
    · obtain ⟨-, ⟨⟩⟩ := ite_none_right_eq_some.1 hstep
      exact move_setTunnel hi rfl id rfl
    · cases hstep
  | close i' =>
    obtain ⟨-, ⟨⟩⟩ := ite_none_right_eq_some.1 hstep
    refine move_setTunnel hi rfl (fun hended => ?_) rfl
    simp only [HostTunnel.ended, Bool.and_eq_true] at hended ⊢
    exact ⟨trivial, hended.2⟩
  | _ => cases hstep

theorem move_stepLoop (hstep : h.stepLoop C a = some h') :
    h.books.Move maxTunnels h'.books none := by
  cases a with
  | deliver ok =>
    simp only [TunnelHost.stepLoop] at hstep
    split at hstep
    · split at hstep
      · rename_i hi
        obtain ⟨-, ⟨⟩⟩ := ite_none_right_eq_some.1 hstep
        exact move_setTunnel (h := h) hi rfl id rfl
      · cases hstep
      · cases hstep
        exact .unlink _
    · cases hstep
  | reply =>
    simp only [TunnelHost.stepLoop] at hstep
    split at hstep
    · obtain ⟨-, ⟨⟩⟩ := ite_none_right_eq_some.1 hstep
      exact .same
    · cases hstep
      exact .same
    · cases hstep
  | heartbeat =>
    simp only [TunnelHost.stepLoop] at hstep
    split at hstep <;> cases hstep
    exact .same
  | joinDirect j =>
    simp only [TunnelHost.stepLoop] at hstep
    split at hstep <;> cases hstep
    exact .joinDirect j
  | join i =>
    simp only [TunnelHost.stepLoop] at hstep
    split at hstep
    · rename_i t hphase hi
      obtain ⟨hcond, ⟨⟩⟩ := ite_none_right_eq_some.1 hstep
      simp only [Bool.and_eq_true, Bool.not_eq_true'] at hcond
      have hended : t.ended = true := by
        simp only [HostTunnel.ended, hcond.1.1, hcond.1.2, Bool.not_false, Bool.and_self]
      have hmove : h.books.Move maxTunnels _ none := .join (getElem?_books hi) hended hcond.2
      have hset : (h.tunnels.set i { t with joined := true }).map HostTunnel.entry =
          h.books.roster.set i { t.entry with joined := true } := map_set
      rw [← hset] at hmove
      exact hmove
    · cases hstep
  | fail =>
    cases hstep
    exact .same
  | _ => cases hstep

theorem move_step (hstep : h.step C a = some h') : h.books.Move maxTunnels h'.books none := by
  obtain ⟨-, hstep⟩ := ite_none_right_eq_some.1 hstep
  split at hstep
  case h_5 =>
    obtain ⟨id, -, hstep⟩ := bind_eq_some_iff.1 hstep
    obtain ⟨-, ⟨⟩⟩ := ite_none_right_eq_some.1 hstep
    exact .same
  case h_6 =>
    obtain ⟨box, -, rfl⟩ := map_eq_some_iff.1 hstep
    exact .same
  case h_7 => exact move_stepLoop hstep
  all_goals
    obtain ⟨t, hi, hstep⟩ := bind_eq_some_iff.1 hstep
    exact move_stepTunnel hi hstep

theorem books_handle (p : SignalPacket) : (handle C H h p).books = h.books := by
  unfold TunnelHost.handle
  split <;> rfl

theorem move_openTunnel (id : Uuid) :
    h.books.Move maxTunnels (openTunnel C maxTunnels h id).books none := by
  unfold TunnelHost.openTunnel
  split
  · exact .same
  · rename_i hroom
    have hmove : h.books.Move maxTunnels _ none :=
      .accept id (by rw [tasks_books]; exact Nat.lt_of_not_le hroom)
    have hset : (h.tunnels ++ [({ id := id, since := h.heard.length } : HostTunnel)]).map
        HostTunnel.entry = h.books.roster ++ [{ id := id }] := map_append
    have hlen : h.books.roster.length = h.tunnels.length := length_map _
    rw [← hset, hlen] at hmove
    exact hmove

/-- A packet that offers no direct path. -/
theorem move_onPacket {p : SignalPacket} (hp : ∀ id candidate, p ≠ .iceCandidate id candidate) :
    h.books.Move maxTunnels (onPacket C H maxTunnels h p).books none := by
  have hhandle : ∀ q, h.books.Move maxTunnels (handle C H h q).books none := by
    intro q
    rw [books_handle]
    exact .same
  unfold onPacket
  split
  · split
    · exact move_openTunnel _
    · exact hhandle _
  · exact absurd rfl (hp _ _)
  · split
    · exact .unlink _
    · exact hhandle _
  · exact hhandle _

theorem move_next {m : WsMessage τ} (hnext : h.next C H maxTunnels m = some h') :
    h.books.Move maxTunnels h'.books (h.serves C maxTunnels (.message m)) := by
  unfold TunnelHost.next at hnext
  split at hnext <;> cases hnext
  cases m with
  | binary frame =>
    simp only [onMessage, serves]
    split
    · split <;> exact .same
    · exact .same
  | text text =>
    simp only [onMessage, serves]
    cases hparse : C.parse text with
    | none => exact .same
    | some p =>
      cases p with
      | iceCandidate id candidate =>
        simp only [onPacket]
        cases hinbound : h.inbound id with
        | none =>
          simp only [isSome_none, Bool.false_eq_true, if_false, ite_self,
            books_handle]
          exact .same
        | some i =>
          simp only [isSome_some, if_true]
          have htasks : ({ h with heard := h.heard ++ [.text text] } :
            TunnelHost η τ).tasks = h.tasks := rfl
          rw [htasks]
          split
          · rename_i hcond
            exact .offer hinbound (by rw [tasks_books]; exact hcond.1) hcond.2
          · exact .same
      | _ =>
        exact move_onPacket (h := { h with heard := h.heard ++ [.text text] })
          nofun

theorem move_stepEvent (hstep : h.stepEvent C H maxTunnels e = some h') :
    h.books.Move maxTunnels h'.books (h.serves C maxTunnels e) := by
  cases e with
  | message m => exact move_next hstep
  | act a => exact move_step hstep

/-- The tunnels for which a run has served direct paths, in order. -/
def servedOf (C : PacketCodec τ) (H : HostHandler η) (maxTunnels : Nat)
    (events : List (RelayEvent τ)) : List Nat :=
  runOutputs (stepEvent C H maxTunnels) (fun h e => (h.serves C maxTunnels e).toList) (new H) events

theorem books_ok_of_run {events : List (RelayEvent τ)}
    (hrun : runFrom (stepEvent C H maxTunnels) (new H) events = some h) :
    h.books.Ok maxTunnels (servedOf C H maxTunnels events) := by
  have hnew : (new H : TunnelHost η τ).books.Ok maxTunnels (servedOf C H maxTunnels []) :=
    Books.Ok.new
  refine invariant_of_past (I := fun past (h : TunnelHost η τ) =>
    h.books.Ok maxTunnels (servedOf C H maxTunnels past)) hnew
    (fun past h e h' hpast hok hstep => ?_) hrun
  dsimp only [servedOf]
  rw [runOutputs_concat hpast]
  exact hok.move (move_stepEvent hstep)

/-- The only move that adds a direct path serves it for a tunnel. -/
theorem serves_of_directs (hstep : h.stepEvent C H maxTunnels e = some h')
    (hmore : h.directs.length < h'.directs.length) : ∃ i, h.serves C maxTunnels e = some i := by
  have hmove := move_stepEvent hstep
  have hmore : h.books.directs.length < h'.books.directs.length := hmore
  generalize h.books = b, h'.books = b', h.serves C maxTunnels e = r at hmove hmore ⊢
  cases hmove with
  | @offer id i hi hroom hnew => exact ⟨i, rfl⟩
  | joinDirect j => exact absurd hmore (Nat.not_lt.2 (length_eraseIdx_le _ _))
  | same | work _ _ _ _ | accept _ _ | unlink _ | join _ _ _ => exact absurd hmore (Nat.lt_irrefl _)

/-- For all that the relay may send, with whatever session ids, and in whatever order tasks end:
there are never more than `maxTunnels` unfinished tasks; every direct path is served for a tunnel of
its own; `inbound` and `offered` have entries for ids of tunnels that the loop has not seen end
only; and a frame for an unknown id does nothing. -/
theorem tunnel_bookkeeping {events : List (RelayEvent τ)}
    (hrun : runFrom (stepEvent C H maxTunnels) (new H) events = some h) :
    h.unfinished ≤ maxTunnels ∧
      ((servedOf C H maxTunnels events).Nodup ∧
        (∀ i ∈ servedOf C H maxTunnels events, i < h.tunnels.length) ∧
        ∀ e h', h.stepEvent C H maxTunnels e = some h' → h.directs.length < h'.directs.length →
          ∃ i, h.serves C maxTunnels e = some i) ∧
      (∀ id, (h.inbound id).isSome ∨ id ∈ h.offered →
        ∃ t ∈ h.tunnels, t.id = id ∧ t.joined = false) ∧
      ∀ frame h',
        (∀ id payload, splitTunnelFrame frame = some (id, payload) → h.inbound id = none) →
        h.stepEvent C H maxTunnels (.message (.binary frame)) = some h' →
        h' = { h with heard := h.heard ++ [.binary frame] } := by
  have hok := books_ok_of_run hrun
  refine ⟨?_, ⟨hok.once, fun i hi => ?_, fun e h' => serves_of_directs⟩, fun id hid => ?_,
    fun frame h' hunknown hstep => ?_⟩
  · calc h.unfinished
      _ = h.books.unfinished := unfinished_books.symm
      _ ≤ h.books.tasks := Books.unfinished_le_tasks hok
      _ ≤ maxTunnels := hok.limit
  · have hlen := hok.known i hi
    rwa [books, length_map] at hlen
  · have hentry : ∃ e ∈ h.books.roster, e.id = id ∧ e.joined = false := by
      obtain hid | hid := hid
      · obtain ⟨i, hi⟩ := isSome_iff_exists.1 hid
        obtain ⟨e, he, heid, hej⟩ := hok.inbound id i hi
        exact ⟨e, mem_of_getElem? he, heid, hej⟩
      · exact hok.offered id hid
    obtain ⟨e, he, heid, hej⟩ := hentry
    obtain ⟨t, ht, rfl⟩ := mem_map.1 he
    exact ⟨t, ht, heid, hej⟩
  · simp only [stepEvent, TunnelHost.next] at hstep
    split at hstep <;> cases hstep
    simp only [onMessage]
    cases hsplit : splitTunnelFrame frame with
    | none => rfl
    | some p =>
      obtain ⟨id, payload⟩ := p
      simp only [hunknown id payload hsplit]

/-- The relay uses one session id for two tunnels. -/
def sampleReuse : List (RelayEvent SignalPacket) :=
  [.message (.text (.sessionRequest (padTo 16 [1]) .empty relayTunnelVersion .consoleControl
      (some (padTo 16 [9])))), .act .reply, .act .reply,
    .message (.text (.iceCandidate (padTo 16 [9]) .empty)),
    .message (.text (.sessionRequest (padTo 16 [1]) .empty relayTunnelVersion .consoleControl
      (some (padTo 16 [9])))), .act .reply, .act .reply,
    -- the offer for the second tunnel is refused: the first one still runs
    .message (.text (.iceCandidate (padTo 16 [9]) .empty)),
    .act (.pump 0 .detach), .act (.pump 0 .stop), .act (.close 0), .act (.join 0)]

theorem tunnel_bookkeeping_sampleReuse :
    ∃ h, runFrom (stepEvent .plain .silent 3) (new .silent) sampleReuse = some h ∧
      h.unfinished = 2 ∧ h.unfinished ≤ 3 ∧
      servedOf .plain .silent 3 sampleReuse = [0] ∧
      (servedOf .plain .silent 3 sampleReuse).Nodup := by
  have hany : (runFrom (stepEvent .plain .silent 3) (new .silent) sampleReuse).any
      (fun h => h.unfinished == 2) = true := by decide +kernel
  obtain ⟨h, hrun, hh⟩ := any_eq_true _ _ |>.1 hany
  have hbooks := tunnel_bookkeeping hrun
  exact ⟨h, hrun, eq_of_beq hh, hbooks.1, by decide +kernel, hbooks.2.1.1⟩

end TunnelHost

end RivetLink.Agent
