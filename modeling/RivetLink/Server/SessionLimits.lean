import Mathlib.Data.List.Nodup
import Mathlib.Data.List.Perm.Basic
import RivetLink.Server.RelayDeliveries
import RivetLink.Server.RelaySessions

/-!
# How many sessions there are

`create_session` counts the sessions of the user and of the device in a scan of the table, while
other tasks remove sessions, and inserts the new session after the scan. Only the router inserts
sessions. So what is in the table when the scan ends was there when the scan began, and was counted
(`Relay.Within`); and what was counted was in the table when the scan began (`Relay.Began`).

`Ledger` accounts for the sessions: every session that was created is in the table, or some call of
`remove_session` has returned it (`removals`).
-/

namespace RivetLink.Server

open List Option RivetLink.Foundation RivetLink.Protocol

/-! ## A scan of a table that shrinks meanwhile -/

section Scan

variable {α : Type} [DecidableEq α] (p : α → Bool) {x : α} {l todo : List α}

theorem not_mem_filter_ne {y : α} : y ∉ todo.filter (· ≠ x) ↔ y ∉ todo ∨ y = x := by
  simp only [mem_filter, ne_eq, decide_not, Bool.not_eq_eq_eq_not, Bool.not_true,
    decide_eq_false_iff_not, not_and_or, not_not]

/-- What was scanned grows by one element at most. -/
theorem countP_scanned_le (x : α) (todo : List α) (hl : l.Nodup) :
    (l.filter (· ∉ todo.filter (· ≠ x))).countP p ≤
      (l.filter (· ∉ todo)).countP p + if x ∈ l ∧ p x = true then 1 else 0 := by
  simp only [countP_filter, not_mem_filter_ne]
  induction l with
  | nil => simp
  | cons y l ih =>
    obtain ⟨hy, hl⟩ := nodup_cons.1 hl
    have ih := ih hl
    simp only [countP_cons, mem_cons]
    by_cases hxy : y = x
    · subst hxy
      simp only [hy, false_and, if_false, Nat.add_zero] at ih
      simp only [or_true, decide_true, Bool.and_true, true_or, true_and]
      omega
    · have hyx : x ≠ y := fun h => hxy h.symm
      simp only [hxy, hyx, or_false, false_or]
      omega

/-- An element of the table that is scanned counts. -/
theorem le_countP_scanned (hx : x ∈ l) (htodo : x ∈ todo) :
    (l.filter (· ∉ todo)).countP p + (if p x = true then 1 else 0) ≤
      (l.filter (· ∉ todo.filter (· ≠ x))).countP p := by
  obtain ⟨l₁, l₂, rfl⟩ := append_of_mem hx
  have hmono : ∀ l : List α, (l.filter (· ∉ todo)).countP p ≤
      (l.filter (· ∉ todo.filter (· ≠ x))).countP p := by
    intro l
    refine (monotone_filter_right l fun y hy => ?_).countP_le
    simp only [decide_eq_true_eq] at hy ⊢
    exact not_mem_filter_ne.2 (.inl hy)
  have h₁ := hmono l₁
  have h₂ := hmono l₂
  rw [filter_append, filter_append, countP_append, countP_append,
    filter_cons_of_neg (by simpa using htodo), filter_cons_of_pos (by simp),
    countP_cons]
  omega

end Scan

variable {τ : Type}

def sessionsOfUser (sessions : List ActiveSession) (u : Uuid) : Nat :=
  sessions.countP fun x => x.initiatorId = u

def sessionsOfDevice (sessions : List ActiveSession) (d : Uuid) : Nat :=
  sessions.countP fun x => x.deviceId = d

namespace Relay

variable (C : PacketCodec τ) (accounts : Uuid → Option (Uuid × PrincipalKind))

/-- What `remove_session` returns, if the step is a call of it. -/
def returned (s : Relay τ) : RelayAction τ → Option ActiveSession
  | .task c =>
    match s.taskOf c with
    | some (.deleting (id :: _) _) => s.findSession id
    | _ => none
  | .reader c _ =>
    match s.readerOf c with
    | some (.removing id _ _) => s.findSession id
    | _ => none
  | .router =>
    match s.router with
    | .undoing _ x | .ending _ x => s.findSession x.id
    | _ => none
  | _ => none

/-- The sessions that calls of `remove_session` have returned in a run. -/
def removals (acts : List (RelayAction τ)) : List ActiveSession :=
  runOutputs (Relay.step C accounts) (fun s a => (s.returned a).toList) Relay.new acts

variable {C accounts} {s t b : Relay τ} {a : RelayAction τ} {c byDevice : Nat} {k : Connection τ}
  {gone todo : List ActiveSession} {id : Uuid} {acts : List (RelayAction τ)} {p : RouterPhase τ}
  {q : SessionQuery} {m : SignalingMessage τ}

/-! ## What a step does to the table -/

/-- A step leaves the table alone, removes a session and returns it, or inserts one. -/
inductive TableChange (s t : Relay τ) : Option ActiveSession → Prop
  | keep (hsessions : t.sessions = s.sessions) (hcreated : t.created = s.created) :
      TableChange s t none
  | remove {x : ActiveSession} (hx : s.findSession x.id = some x)
      (hsessions : t.sessions = s.sessions.filter (·.id ≠ x.id))
      (hcreated : t.created = s.created) : TableChange s t (some x)
  | insert {m : SignalingMessage τ} {q : SessionQuery} {x : ActiveSession}
      (hr : s.router = .inserting m q x) (hsessions : t.sessions = s.sessions ++ [x])
      (hcreated : t.created = s.created ++ [x]) : TableChange s t none

/-- `remove_session` returns what it removes. -/
theorem TableChange.of_removeSession (hsessions : t.sessions = (s.removeSession id).sessions)
    (hcreated : t.created = s.created) : TableChange s t (s.findSession id) := by
  cases hfind : s.findSession id with
  | none =>
    refine .keep (hsessions.trans (filter_eq_self.2 fun x hx => ?_)) hcreated
    simpa using find?_eq_none.1 hfind x hx
  | some x =>
    obtain ⟨-, rfl⟩ := mem_of_findSession hfind
    exact .remove hfind hsessions hcreated

theorem TaskMove.tableChange (hk : s.conns[c]? = some k) (h : TaskMove s c k t) :
    TableChange s t (s.returned (.task c)) := by
  have htask := taskOf_of_getElem hk
  cases h with
  | skip hp hx =>
    simp only [returned, htask, hp, hx]
    exact .keep rfl rfl
  | delete hp hx =>
    simp only [returned, htask, hp]
    exact .of_removeSession rfl rfl
  | notify hp =>
    simp only [returned, htask, hp]
    rw [notifyClosed_eq]
    exact .keep rfl rfl
  | register hp =>
    obtain ⟨hp, -⟩ | hp := hp
    · simp only [returned, htask, hp]
      exact .keep rfl rfl
    · simp only [returned, htask, hp]
      exact .keep rfl rfl
  | list hp _ | unregister hp | delist hp | collect hp | scanned hp | deleted hp | finish hp =>
    simp only [returned, htask, hp]
    exact .keep rfl rfl

theorem ReaderMove.tableChange {ok : Bool} (hk : s.conns[c]? = some k)
    (h : ReaderMove s c k ok t) : TableChange s t (s.returned (.reader c ok)) := by
  have hreader := readerOf_of_getElem hk
  cases h with
  | remove hp hx =>
    simp only [returned, hreader, hp]
    exact .of_removeSession rfl rfl
  | gone hp hx =>
    simp only [returned, hreader, hp, hx]
    exact .keep rfl rfl
  | notify hp =>
    simp only [returned, hreader, hp]
    rw [notifyClosed_eq]
    exact .keep rfl rfl
  | send hp _ | noTunnel hp _ | tunnel hp _ _ | noPeer hp _ | peer hp _ _ | noClient hp _
  | client hp _ | deliver hp _ _ | giveUp hp _ | notified hp | drop hp =>
    simp only [returned, hreader, hp]
    exact .keep rfl rfl

theorem RouterMove.tableChange (h : RouterMove C s t) :
    TableChange s t (s.returned .router) := by
  cases h with
  | insert hr =>
    simp only [returned, hr]
    exact .insert hr rfl rfl
  | undo hr | finish hr =>
    simp only [returned, hr]
    exact .of_removeSession rfl rfl
  | reject hr | passOn hr =>
    simp only [returned, hr]
    rw [sendTo_fst]
    exact .keep rfl rfl
  | offline hr _ | online hr _ | foreign hr _ | known hr _ | tooMany hr _ | busy hr _ _
  | accept hr _ _ | deliver hr _ | undelivered hr _ | keep hr _ | withdraw hr _ | noMember hr _
  | member hr _ _ =>
    simp only [returned, hr]
    exact .keep rfl rfl

theorem tableChange_step (h : s.step C accounts a = some t) : TableChange s t (s.returned a) := by
  cases step_iff.1 h with
  | task hk hmove | reader hk hmove => exact hmove.tableChange hk
  | router hmove => exact hmove.tableChange
  | _ => exact .keep rfl rfl

/-! ## Every session is returned once at most -/

/-- Every session that was created is in the table or was returned, and there are no two of one
id. -/
structure Ledger (s : Relay τ) (gone : List ActiveSession) : Prop where
  ids : (s.created.map (·.id)).Nodup
  all : s.created.Perm (s.sessions ++ gone)

namespace Ledger

theorem nodup (hl : s.Ledger gone) : (s.sessions ++ gone).Nodup :=
  hl.all.nodup (List.Nodup.of_map _ hl.ids)

theorem nodup_sessions (hl : s.Ledger gone) : s.sessions.Nodup :=
  (nodup_append.1 hl.nodup).1

variable {x : ActiveSession}

theorem not_mem_of_gone (hl : s.Ledger gone) (hx : x ∈ gone) : x ∉ s.sessions := fun hmem =>
  (nodup_append.1 hl.nodup).2.2 x hmem x hx rfl

/-- The table has one session of an id at most. -/
theorem perm_filter (hl : s.Ledger gone) (hx : x ∈ s.sessions) :
    s.sessions.Perm (x :: s.sessions.filter (·.id ≠ x.id)) := by
  have hcreated : ∀ y ∈ s.sessions, y ∈ s.created := fun y hy =>
    hl.all.mem_iff.2 (mem_append_left _ hy)
  have herase : s.sessions.filter (·.id ≠ x.id) = s.sessions.erase x := by
    rw [hl.nodup_sessions.erase_eq_filter]
    refine filter_congr fun y hy => ?_
    have hid : y.id = x.id ↔ y = x :=
      ⟨fun h => inj_on_of_nodup_map hl.ids (hcreated y hy) (hcreated x hx) h, fun h => h ▸ rfl⟩
    by_cases hyx : y = x
    · simp [hyx]
    · simp [hyx, hid]
  rw [herase]
  exact perm_cons_erase hx

theorem change {r : Option ActiveSession} (hl : s.Ledger gone) (hw : Wired C accounts s)
    (h : TableChange s t r) : t.Ledger (gone ++ r.toList) := by
  cases h with
  | keep hsessions hcreated =>
    rw [toList_none, append_nil]
    exact ⟨hcreated ▸ hl.ids, by rw [hcreated, hsessions]; exact hl.all⟩
  | @remove x hx hsessions hcreated =>
    refine ⟨hcreated ▸ hl.ids, ?_⟩
    rw [hcreated, hsessions, toList_some]
    have hperm := hl.perm_filter (mem_of_findSession hx).1
    rw [← append_assoc]
    exact hl.all.trans ((hperm.append_right gone).trans (perm_append_singleton x _).symm)
  | @insert m q x hr hsessions hcreated =>
    have hfresh := (hw.pending x.id (by rw [hr]; rfl)).2
    rw [toList_none, append_nil]
    refine ⟨?_, ?_⟩
    · rw [hcreated, map_append, map_singleton]
      refine nodup_append.2 ⟨hl.ids, nodup_singleton _, fun id hid id' hid' => ?_⟩
      obtain ⟨y, hy, rfl⟩ := mem_map.1 hid
      rw [mem_singleton.1 hid']
      exact hfresh y hy
    · rw [hcreated, hsessions]
      rw [append_assoc]
      refine (hl.all.append_right [x]).trans ?_
      rw [append_assoc]
      exact perm_append_comm.append_left s.sessions

theorem new : (Relay.new : Relay τ).Ledger [] := ⟨nodup_nil, List.Perm.refl _⟩

end Ledger

theorem ledger_of_run (hrun : runFrom (Relay.step C accounts) Relay.new acts = some s) :
    s.Ledger (removals C accounts acts) := by
  refine invariant_of_past (I := fun past s => s.Ledger (removals C accounts past)) Ledger.new
    (fun past s a t hpast hl h => ?_) hrun
  dsimp only [removals]
  rw [runOutputs_concat hpast]
  exact hl.change (wired_of_run C accounts hpast) (tableChange_step h)

/-! ## The limits -/

/-- What was scanned and is still in the table was counted; for a session to insert there is
room. -/
def Within (sessions : List ActiveSession) : RouterPhase τ → Prop
  | .counting m q _ _ todo byUser byDevice =>
    sessionsOfUser (sessions.filter (· ∉ todo)) m.client.principalId ≤ byUser ∧
      sessionsOfDevice (sessions.filter (· ∉ todo)) q.deviceId ≤ byDevice
  | .inserting _ _ x =>
    sessionsOfUser sessions x.initiatorId < maxSessionsPerUser ∧
      sessionsOfDevice sessions x.deviceId < maxSessionsPerDevice
  | _ => True

theorem Within.mono {l l' : List ActiveSession} (hp : Within l p) (hsub : l'.Sublist l) :
    Within l' p := by
  cases p with
  | counting m q id d todo byUser byDevice =>
    exact ⟨(hsub.filter _).countP_le.trans hp.1, (hsub.filter _).countP_le.trans hp.2⟩
  | inserting m q x =>
    exact ⟨Nat.lt_of_le_of_lt hsub.countP_le hp.1, Nat.lt_of_le_of_lt hsub.countP_le hp.2⟩
  | _ => trivial

structure Limited (s : Relay τ) : Prop where
  users : ∀ u, sessionsOfUser s.sessions u ≤ maxSessionsPerUser
  devices : ∀ d, sessionsOfDevice s.sessions d ≤ maxSessionsPerDevice
  router : Within s.sessions s.router

theorem TableChange.sublist {r : Option ActiveSession} (h : TableChange s t r)
    (hcreated : t.created = s.created) : t.sessions.Sublist s.sessions := by
  cases h with
  | keep hsessions _ => exact hsessions ▸ List.Sublist.refl _
  | remove _ hsessions _ => exact hsessions ▸ filter_sublist
  | insert _ _ hnew => exact absurd (hnew.symm.trans hcreated) (by simp)

namespace Limited

/-- No session is inserted. -/
theorem of_sublist (hs : s.Limited) (hsub : t.sessions.Sublist s.sessions)
    (hrouter : Within t.sessions t.router) : t.Limited :=
  ⟨fun u => hsub.countP_le.trans (hs.users u), fun d => hsub.countP_le.trans (hs.devices d),
    hrouter⟩

variable {x : ActiveSession}

theorem count {d : Nat} {byUser : Nat} (hs : s.Limited) (hl : s.Ledger gone)
    (hr : s.router = .counting m q id d todo byUser byDevice) :
    Limited { s with
      router := .counting m q id d (todo.filter (· ≠ x))
        (byUser + if x ∈ s.sessions ∧ x.initiatorId = m.client.principalId then 1 else 0)
        (byDevice + if x ∈ s.sessions ∧ x.deviceId = q.deviceId then 1 else 0) } := by
  refine hs.of_sublist (List.Sublist.refl _) ?_
  have hrouter := hs.router
  rw [hr] at hrouter
  obtain ⟨huser, hdevice⟩ := hrouter
  have hstepUser := countP_scanned_le (fun y => decide (y.initiatorId = m.client.principalId))
    x todo hl.nodup_sessions
  have hstepDevice := countP_scanned_le (fun y => decide (y.deviceId = q.deviceId))
    x todo hl.nodup_sessions
  simp only [decide_eq_true_eq] at hstepUser hstepDevice
  exact ⟨hstepUser.trans (Nat.add_le_add_right huser _),
    hstepDevice.trans (Nat.add_le_add_right hdevice _)⟩

theorem insert (hs : s.Limited)
    (huser : sessionsOfUser s.sessions x.initiatorId < maxSessionsPerUser)
    (hdevice : sessionsOfDevice s.sessions x.deviceId < maxSessionsPerDevice)
    (hsessions : t.sessions = s.sessions ++ [x]) (hrouter : Within t.sessions t.router) :
    t.Limited := by
  refine ⟨fun u => ?_, fun d => ?_, hrouter⟩
  · rw [hsessions, sessionsOfUser, countP_append, countP_singleton]
    by_cases hu : x.initiatorId = u
    · subst hu
      simp only [decide_true, if_true]
      exact huser
    · simp only [hu, decide_false, Bool.false_eq_true, if_false]
      exact hs.users u
  · rw [hsessions, sessionsOfDevice, countP_append, countP_singleton]
    by_cases hd : x.deviceId = d
    · subst hd
      simp only [decide_true, if_true]
      exact hdevice
    · simp only [hd, decide_false, Bool.false_eq_true, if_false]
      exact hs.devices d

theorem stepRouter (hs : s.Limited) (h : RouterMove C s t) : t.Limited := by
  have hrouter := hs.router
  cases h with
  | known hr horg =>
    refine hs.of_sublist (List.Sublist.refl _) ?_
    simp [Within, sessionsOfUser, sessionsOfDevice]
  | @accept m q id d byUser byDevice hr huser hdevice =>
    rw [hr] at hrouter
    simp only [Within, not_mem_nil, not_false_eq_true, decide_true, filter_true]
      at hrouter
    exact hs.of_sublist (List.Sublist.refl _)
      ⟨Nat.lt_of_le_of_lt hrouter.1 huser, Nat.lt_of_le_of_lt hrouter.2 hdevice⟩
  | insert hr =>
    rw [hr] at hrouter
    exact hs.insert hrouter.1 hrouter.2 rfl trivial
  | undo hr | finish hr => exact hs.of_sublist filter_sublist trivial
  | reject hr =>
    refine hs.of_sublist ?_ trivial
    rw [sendTo_fst]
    exact List.Sublist.refl _
  | @passOn m x peer ends hr =>
    refine hs.of_sublist ?_ ?_
    · rw [sendTo_fst]
      exact List.Sublist.refl _
    · cases ends <;> trivial
  | _ => exact hs.of_sublist (List.Sublist.refl _) trivial

theorem step (hs : s.Limited) (hl : s.Ledger gone) (h : s.step C accounts a = some t) :
    t.Limited := by
  cases step_iff.1 h with
  | ignore hidle hsig hd => exact ⟨hs.users, hs.devices, hs.router⟩
  | message hidle hsig hends hd => exact ⟨hs.users, hs.devices, trivial⟩
  | ask hidle hsig hq hd hid =>
    refine ⟨hs.users, hs.devices, ?_⟩
    dsimp only
    split <;> trivial
  | count hr hx => exact hs.count hl hr
  | router hmove => exact hs.stepRouter hmove
  | _ =>
    have hsame := sameTables_step h rfl
    have hsub := (tableChange_step h).sublist hsame.created
    refine hs.of_sublist hsub ?_
    rw [hsame.router]
    exact hs.router.mono hsub

theorem new : (Relay.new : Relay τ).Limited :=
  ⟨fun _ => Nat.zero_le _, fun _ => Nat.zero_le _, trivial⟩

end Limited

/-! ## A refusal -/

/-- `create_session` was called in state `b`, and what it has counted so far was in the table
then. -/
def Began (b : Relay τ) : RouterPhase τ → Prop
  | .counting m q id d todo byUser byDevice =>
    b.router = .counting m q id d b.sessions 0 0 ∧ (∀ x ∈ todo, x ∈ b.sessions) ∧
      byUser ≤ sessionsOfUser (b.sessions.filter (· ∉ todo)) m.client.principalId ∧
      byDevice ≤ sessionsOfDevice (b.sessions.filter (· ∉ todo)) q.deviceId
  | _ => True

/-- The call of `create_session` that goes on began in an earlier state of the run. -/
def Traced (C : PacketCodec τ) (accounts : Uuid → Option (Uuid × PrincipalKind))
    (past : List (RelayAction τ)) (s : Relay τ) : Prop :=
  ∃ before b, before <+: past ∧ runFrom (Relay.step C accounts) Relay.new before = some b ∧
    Began b s.router

theorem began_of_not_counting
    (hp : ∀ m q id d todo byUser byDevice, p ≠ .counting m q id d todo byUser byDevice) :
    Began b p := by
  cases p with
  | counting m q id d todo byUser byDevice => exact absurd rfl (hp m q id d todo byUser byDevice)
  | _ => trivial

theorem Began.count {x : ActiveSession} {d byUser : Nat}
    (hb : Began b (.counting m q id d todo byUser byDevice)) (hx : x ∈ todo) :
    Began b (.counting m q id d (todo.filter (· ≠ x))
      (byUser + if x ∈ s.sessions ∧ x.initiatorId = m.client.principalId then 1 else 0)
      (byDevice + if x ∈ s.sessions ∧ x.deviceId = q.deviceId then 1 else 0)) := by
  obtain ⟨hstart, htodo, huser, hdevice⟩ := hb
  refine ⟨hstart, fun y hy => htodo y (mem_filter.1 hy).1, ?_, ?_⟩
  · refine (Nat.add_le_add huser ?_).trans (le_countP_scanned _ (htodo x hx) hx)
    simp only [decide_eq_true_eq]
    split <;> split <;> simp_all
  · refine (Nat.add_le_add hdevice ?_).trans (le_countP_scanned _ (htodo x hx) hx)
    simp only [decide_eq_true_eq]
    split <;> split <;> simp_all

/-- A step of the router begins a call of `create_session`, or leads to no count. -/
theorem RouterMove.counting (h : RouterMove C s t) : Began t t.router ∨ Began b t.router := by
  cases h with
  | known hr horg => exact .inl ⟨rfl, fun x hx => hx, Nat.zero_le _, Nat.zero_le _⟩
  | passOn hr =>
    refine .inr (began_of_not_counting fun m q id d todo byUser byDevice => ?_)
    dsimp only
    split <;> nofun
  | _ => exact .inr trivial

theorem traced_of_run (hrun : runFrom (Relay.step C accounts) Relay.new acts = some s) :
    Traced C accounts acts s := by
  have hnew : Traced C accounts [] Relay.new := ⟨[], Relay.new, prefix_rfl, rfl, trivial⟩
  refine invariant_of_past hnew (fun past s a t hpast hs h => ?_) hrun
  obtain ⟨before, b, hbefore, hb, hbegan⟩ := hs
  have hearlier : before <+: past ++ [a] := hbefore.trans (prefix_append past [a])
  cases step_iff.1 h with
  | ignore hidle hsig hd => exact ⟨before, b, hearlier, hb, hbegan⟩
  | message hidle hsig hends hd => exact ⟨before, b, hearlier, hb, trivial⟩
  | ask hidle hsig hq hd hid =>
    refine ⟨before, b, hearlier, hb, ?_⟩
    dsimp only
    split <;> trivial
  | count hr hx =>
    rw [hr] at hbegan
    exact ⟨before, b, hearlier, hb, hbegan.count hx⟩
  | router hmove =>
    have hnow : runFrom (Relay.step C accounts) Relay.new (past ++ [.router]) = some t := by
      rw [runFrom_append, hpast, bind_some, runFrom_cons_eq_some]
      exact ⟨t, h, rfl⟩
    obtain hbegan' | hbegan' := hmove.counting (b := b)
    · exact ⟨past ++ [.router], t, prefix_rfl, hnow, hbegan'⟩
    · exact ⟨before, b, hearlier, hb, hbegan'⟩
  | _ =>
    refine ⟨before, b, hearlier, hb, ?_⟩
    rw [(sameTables_step h rfl).router]
    exact hbegan

/-- A limit is reached for the user and the device of a request. -/
def Full (s : Relay τ) (m : SignalingMessage τ) (q : SessionQuery) : Prop :=
  maxSessionsPerUser ≤ sessionsOfUser s.sessions m.client.principalId ∨
    maxSessionsPerDevice ≤ sessionsOfDevice s.sessions q.deviceId

/-- What `create_session` has counted at its end was in the table when it was called. -/
theorem Began.full {d byUser : Nat} (hb : Began b (.counting m q id d [] byUser byDevice))
    (hmax : maxSessionsPerUser ≤ byUser ∨ maxSessionsPerDevice ≤ byDevice) : b.Full m q := by
  obtain ⟨-, -, huser, hdevice⟩ := hb
  simp only [not_mem_nil, not_false_eq_true, decide_true, filter_true] at huser hdevice
  exact hmax.imp (·.trans huser) (·.trans hdevice)

/-- `create_session` refuses at the end of its count. -/
theorem RouterMove.refusal (h : RouterMove C s t) {m' : SignalingMessage τ} {id' : Uuid}
    {reason : String} {d byUser : Nat} (hr : s.router = .counting m q id d todo byUser byDevice)
    (ht : t.router = .rejecting m' id' reason) :
    todo = [] ∧ (maxSessionsPerUser ≤ byUser ∨ maxSessionsPerDevice ≤ byDevice) := by
  cases h with
  | tooMany hr' hmax =>
    cases hr.symm.trans hr'
    exact ⟨rfl, .inl hmax⟩
  | busy hr' huser hmax =>
    cases hr.symm.trans hr'
    exact ⟨rfl, .inr hmax⟩
  | accept hr' huser hdevice => cases ht
  | offline hr' _ | online hr' _ | foreign hr' _ | known hr' _ | insert hr' | deliver hr' _
  | undelivered hr' _ | keep hr' _ | withdraw hr' _ | undo hr' | reject hr' | noMember hr' _
  | member hr' _ _ | passOn hr' | finish hr' => cases hr.symm.trans hr'

/-- However the router and the closing connections interleave: no user and no device has more
sessions than it may have; of the created sessions none is returned twice by `remove_session`; and
when `create_session` refuses a session, a limit was reached by the sessions in the table when it
was called, among which is none that was returned before. -/
theorem session_limits {acts : List (RelayAction τ)}
    (hrun : runFrom (Relay.step C accounts) Relay.new acts = some s) :
    (∀ u, sessionsOfUser s.sessions u ≤ maxSessionsPerUser) ∧
      (∀ d, sessionsOfDevice s.sessions d ≤ maxSessionsPerDevice) ∧
      (removals C accounts acts).Nodup ∧
      (∀ x, x ∈ s.created ↔ x ∈ s.sessions ∨ x ∈ removals C accounts acts) ∧
      ∀ m q id d todo byUser byDevice reason t,
        s.router = .counting m q id d todo byUser byDevice →
        s.step C accounts .router = some t → t.router = .rejecting m id reason →
        ∃ before b, before <+: acts ∧
          runFrom (Relay.step C accounts) Relay.new before = some b ∧
          b.router = .counting m q id d b.sessions 0 0 ∧ b.Full m q ∧
          ∀ x ∈ removals C accounts before, x ∉ b.sessions := by
  have hledger := ledger_of_run hrun
  have hlimited : s.Limited := by
    refine (invariant_of_past (I := fun _ s => s.Limited) Limited.new
      (fun past s a t hpast hs h => ?_) hrun)
    exact hs.step (ledger_of_run hpast) h
  refine ⟨hlimited.users, hlimited.devices, (nodup_append.1 hledger.nodup).2.1,
    fun x => hledger.all.mem_iff.trans mem_append, ?_⟩
  intro m q id d todo byUser byDevice reason t hr h ht
  obtain ⟨before, b, hbefore, hb, hbegan⟩ := traced_of_run hrun
  refine ⟨before, b, hbefore, hb, ?_⟩
  have hgone : ∀ x ∈ removals C accounts before, x ∉ b.sessions := fun x hx =>
    (ledger_of_run hb).not_mem_of_gone hx
  obtain ⟨rfl, hmax⟩ := (stepRouter_iff.1 h).refusal hr ht
  rw [hr] at hbegan
  exact ⟨hbegan.1, hbegan.full hmax, hgone⟩

/-- The request of user 1 for device 2, as the router has it. -/
def sampleMessage : SignalingMessage SignalPacket where
  connId := 0
  client := ⟨sampleId 1, sampleId 100, .user⟩
  text := .sessionRequest (sampleId 2) .empty relayTunnelVersion .consoleControl none

def sampleQuery : SessionQuery := ⟨sampleId 2, .empty, relayTunnelVersion, .consoleControl⟩

/-- The user asks for a session, and the router counts the open ones. -/
def sampleCount (id : UInt8) (opened : List UInt8) : List (RelayAction SignalPacket) :=
  [.receive 0 (sampleRequest 2), .reader 0 true, .route (sampleId id), .router, .router] ++
    opened.map fun i => .count { sampleSession with id := sampleId i }

/-- The router opens the session after the count. -/
def sampleOpening (id : UInt8) (opened : List UInt8) : List (RelayAction SignalPacket) :=
  sampleCount id opened ++ [.router, .router, .router, .router]

def sampleEnding : List (RelayAction SignalPacket) :=
  [.receive 0 (.text (.sessionClosed (sampleId 50))), .reader 0 true, .route (sampleId 0), .router,
    .router, .router]

/-- One session is opened and ended, four more are opened, and another one is asked for. -/
def sampleSixth : List (RelayAction SignalPacket) :=
  sampleConnects ++ sampleOpening 50 [] ++ sampleEnding ++ sampleOpening 51 [] ++
    sampleOpening 52 [51] ++ sampleOpening 53 [51, 52] ++ sampleOpening 54 [51, 52, 53] ++
    sampleCount 55 [51, 52, 53, 54]

def refusesSixth (s : Relay SignalPacket) : Bool :=
  s.router = .counting sampleMessage sampleQuery (sampleId 55) 1 [] 4 4 &&
    (s.step .plain sampleAccounts .router).any fun t =>
      t.router = .rejecting sampleMessage (sampleId 55) "too many open sessions for this account"

theorem session_limits_sampleSixth :
    ∃ before b, before <+: sampleSixth ∧
      runFrom (Relay.step .plain sampleAccounts) Relay.new before = some b ∧
      b.Full sampleMessage sampleQuery ∧
      ∀ x ∈ removals .plain sampleAccounts before, x ∉ b.sessions := by
  have hany : (runFrom (Relay.step .plain sampleAccounts) Relay.new sampleSixth).any refusesSixth =
      true := by decide +kernel
  obtain ⟨s, hrun, hs⟩ := any_eq_true _ _ |>.1 hany
  obtain ⟨hr, hstep⟩ := Bool.and_eq_true_iff.1 hs
  obtain ⟨t, ht, hreject⟩ := any_eq_true _ _ |>.1 hstep
  obtain ⟨before, b, hbefore, hb, -, hfull, hgone⟩ :=
    (session_limits hrun).2.2.2.2 _ _ _ _ _ _ _ _ t (of_decide_eq_true hr) ht
      (of_decide_eq_true hreject)
  exact ⟨before, b, hbefore, hb, hfull, hgone⟩

end Relay

end RivetLink.Server
