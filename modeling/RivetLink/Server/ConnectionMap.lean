import RivetLink.Foundation.KeyedMap
import RivetLink.Server.Relay

/-!
# The map of connections

The relay keeps its connections by id, and for each device the connection that session requests are
routed to, the newest one. A connection that closes takes the entry of its device along if it is the
one that requests are routed to. An older connection of the device may still be there then
(`older_connection_forgotten`): it is registered, but the device counts as offline.

`Registry` runs inserts and removals one after the other, with fresh ids. What requests are routed
to is always registered; that every device with a registered connection is online needs
`LeavesNone`.
-/

namespace RivetLink.Server

open List Option RivetLink.Foundation

/-- A connected client; its sender is left out. -/
structure ConnectedClient where
  userId : Uuid
  orgId : Uuid
  kind : PrincipalKind
  deriving DecidableEq

structure ConnectionMap where
  inner : KeyedMap Uuid ConnectedClient := .empty
  /-- The current connection of each device. -/
  devices : KeyedMap Uuid Uuid := .empty

namespace ConnectionMap

def insert (m : ConnectionMap) (connId : Uuid) (client : ConnectedClient) : ConnectionMap where
  devices := if client.kind = .device then m.devices.put client.userId connId else m.devices
  inner := m.inner.put connId client

def remove (m : ConnectionMap) (connId : Uuid) : ConnectionMap :=
  match m.inner.find? connId with
  | some client =>
    { inner := m.inner.erase connId
      devices :=
        if client.kind = .device ∧ m.devices.find? client.userId = some connId then
          m.devices.erase client.userId
        else m.devices }
  | none => m

def deviceConn (m : ConnectionMap) (deviceId : Uuid) : Option Uuid := m.devices.find? deviceId

def deviceIsConnected (m : ConnectionMap) (deviceId : Uuid) : Bool := m.devices.contains deviceId

/-- The connection is registered, as one of the device. -/
def Registered (m : ConnectionMap) (deviceId connId : Uuid) : Prop :=
  ∃ client, m.inner.find? connId = some client ∧ client.kind = .device ∧ client.userId = deviceId

/-- The registered connections of a device besides one of them. -/
def others (m : ConnectionMap) (deviceId connId : Uuid) : List Uuid :=
  (m.inner.entries.filter fun e =>
    e.1 ≠ connId ∧ e.2.kind = .device ∧ e.2.userId = deviceId).map (·.1)

end ConnectionMap

inductive MapOp where
  | insert (connId : Uuid) (client : ConnectedClient)
  | remove (connId : Uuid)
  deriving DecidableEq

/-- The map, and the ids that were ever inserted. -/
structure Registry where
  map : ConnectionMap := {}
  used : List Uuid := []

namespace Registry

/-- An inserted id is a fresh one. -/
def step (s : Registry) : MapOp → Option Registry
  | .insert connId client =>
    if connId ∈ s.used then none
    else some ⟨s.map.insert connId client, s.used ++ [connId]⟩
  | .remove connId => some { s with map := s.map.remove connId }

/-- When the current connection of a device is removed, it is the last one of the device. -/
def LeavesNone (s : Registry) : MapOp → Prop
  | .insert _ _ => True
  | .remove connId => ∀ client ∈ s.map.inner.find? connId, client.kind = .device →
      s.map.deviceConn client.userId = some connId → s.map.others client.userId connId = []

instance (s : Registry) (op : MapOp) : Decidable (s.LeavesNone op) :=
  match op with
  | .insert _ _ => inferInstanceAs (Decidable True)
  | .remove connId => inferInstanceAs (Decidable (∀ client ∈ s.map.inner.find? connId,
      client.kind = .device → s.map.deviceConn client.userId = some connId →
        s.map.others client.userId connId = []))

/-! ## One operation -/

variable {s t : Registry} {m : ConnectionMap} {op : MapOp} {d c connId : Uuid}
  {client : ConnectedClient}

/-- Requests are routed to registered connections. -/
structure Routed (s : Registry) : Prop where
  registered : ∀ d c, s.map.deviceConn d = some c → s.map.Registered d c
  known : ∀ c client, s.map.inner.find? c = some client → c ∈ s.used

theorem registered_insert (hne : c ≠ connId) (h : m.Registered d c) :
    (m.insert connId client).Registered d c := by
  obtain ⟨client', hfind, hkind⟩ := h
  exact ⟨client', (KeyedMap.find?_put_of_ne hne).trans hfind, hkind⟩

theorem Routed.insert (hs : s.Routed) (hfresh : connId ∉ s.used) :
    Routed ⟨s.map.insert connId client, s.used ++ [connId]⟩ where
  registered d c h := by
    have hold : ∀ c, s.map.deviceConn d = some c →
        (s.map.insert connId client).Registered d c := by
      intro c hc
      obtain ⟨client', hfind, hkind⟩ := hs.registered d c hc
      refine registered_insert ?_ ⟨client', hfind, hkind⟩
      rintro rfl
      exact hfresh (hs.known c client' hfind)
    unfold ConnectionMap.deviceConn ConnectionMap.insert at h
    dsimp only at h
    split at h
    · rename_i hkind
      obtain ⟨rfl, rfl⟩ | ⟨-, hfind⟩ := KeyedMap.find?_put_cases h
      · exact ⟨client, KeyedMap.find?_put_self, hkind, rfl⟩
      · exact hold c hfind
    · exact hold c h
  known c client' h := by
    obtain ⟨rfl, -⟩ | ⟨-, hfind⟩ := KeyedMap.find?_put_cases h
    · exact mem_append_right _ (mem_singleton.2 rfl)
    · exact mem_append_left _ (hs.known c client' hfind)

/-- What a removal leaves of the connections and of the current connections of devices. -/
theorem remove_cases (m : ConnectionMap) (connId : Uuid) :
    m.remove connId = m ∧ m.inner.find? connId = none ∨
      ∃ client, m.inner.find? connId = some client ∧
        (m.remove connId).inner = m.inner.erase connId ∧
        (∀ d, (m.remove connId).deviceConn d = m.deviceConn d ∧
            (client.kind = .device → d = client.userId → m.deviceConn d ≠ some connId) ∨
          (m.remove connId).deviceConn d = none ∧ client.kind = .device ∧ d = client.userId ∧
            m.deviceConn d = some connId) := by
  unfold ConnectionMap.remove
  cases hfind : m.inner.find? connId with
  | none => exact .inl ⟨rfl, rfl⟩
  | some client =>
    refine .inr ⟨client, rfl, rfl, fun d => ?_⟩
    unfold ConnectionMap.deviceConn
    dsimp only
    split
    · rename_i hcurrent
      by_cases hd : d = client.userId
      · subst hd
        exact .inr ⟨KeyedMap.find?_erase_self, hcurrent.1, rfl, hcurrent.2⟩
      · exact .inl ⟨KeyedMap.find?_erase_of_ne hd, fun _ heq => absurd heq hd⟩
    · rename_i hcurrent
      refine .inl ⟨rfl, fun hkind hd h => hcurrent ⟨hkind, ?_⟩⟩
      rw [← hd]
      exact h

theorem Routed.remove (hs : s.Routed) : Routed { s with map := s.map.remove connId } := by
  obtain ⟨heq, -⟩ | ⟨client, hfind, hinner, hdevices⟩ := remove_cases s.map connId
  · rw [heq]
    exact hs
  · refine ⟨fun d c h => ?_, fun c client' h => ?_⟩
    · obtain ⟨hsame, hother⟩ | ⟨hnone, -⟩ := hdevices d
      · rw [hsame] at h
        obtain ⟨client', hfind', hkind, hid⟩ := hs.registered d c h
        refine ⟨client', ?_, hkind, hid⟩
        rw [hinner, KeyedMap.find?_erase_of_ne]
        · exact hfind'
        · rintro rfl
          rw [hfind] at hfind'
          cases hfind'
          exact hother hkind hid.symm h
      · rw [hnone] at h
        cases h
    · rw [hinner] at h
      exact hs.known c client' (KeyedMap.find?_erase_cases h).2

/-- Devices with a registered connection are online. -/
def Online (s : Registry) : Prop :=
  ∀ d c, s.map.Registered d c → (s.map.deviceConn d).isSome = true

theorem Online.insert (hs : s.Online) :
    Online ⟨s.map.insert connId client, s.used ++ [connId]⟩ := by
  rintro d c ⟨client', hfind, hkind, hid⟩
  have hold : (s.map.deviceConn d).isSome = true →
      ((s.map.insert connId client).deviceConn d).isSome = true := by
    intro hsome
    unfold ConnectionMap.deviceConn ConnectionMap.insert
    dsimp only
    split
    · by_cases hd : d = client.userId
      · rw [hd, KeyedMap.find?_put_self]
        rfl
      · rw [KeyedMap.find?_put_of_ne hd]
        exact hsome
    · exact hsome
  obtain ⟨rfl, rfl⟩ | ⟨-, hfind⟩ := KeyedMap.find?_put_cases hfind
  · unfold ConnectionMap.deviceConn ConnectionMap.insert
    dsimp only
    rw [if_pos hkind, hid, KeyedMap.find?_put_self]
    rfl
  · exact hold (hs d c ⟨client', hfind, hkind, hid⟩)

theorem mem_others (hne : c ≠ connId) (h : m.Registered d c) : c ∈ m.others d connId := by
  obtain ⟨client, hfind, hkind, hid⟩ := h
  refine mem_map.2 ⟨(c, client), mem_filter.2 ⟨KeyedMap.find?_eq_some.1 hfind, ?_⟩, rfl⟩
  exact decide_eq_true ⟨hne, hkind, hid⟩

theorem Online.remove (hs : s.Online) (hguard : s.LeavesNone (.remove connId)) :
    Online { s with map := s.map.remove connId } := by
  obtain ⟨heq, -⟩ | ⟨client, hfind, hinner, hdevices⟩ := remove_cases s.map connId
  · rw [heq]
    exact hs
  · rintro d c ⟨client', hfind', hkind, hid⟩
    rw [hinner] at hfind'
    obtain ⟨hne, hfind'⟩ := KeyedMap.find?_erase_cases hfind'
    have hbefore : s.map.Registered d c := ⟨client', hfind', hkind, hid⟩
    obtain ⟨hsame, -⟩ | ⟨-, hdevice, rfl, hcurrent⟩ := hdevices d
    · rw [hsame]
      exact hs d c hbefore
    · have hnone := hguard client hfind hdevice hcurrent
      have hmem := mem_others hne hbefore
      rw [hnone] at hmem
      cases hmem

theorem Routed.step (hs : s.Routed) (h : s.step op = some t) : t.Routed := by
  cases op with
  | insert connId client =>
    rw [Registry.step] at h
    obtain ⟨hfresh, ⟨⟩⟩ := ite_none_left_eq_some.1 h
    exact hs.insert hfresh
  | remove connId =>
    cases h
    exact hs.remove

theorem Online.step (hs : s.Online) (hguard : s.LeavesNone op) (h : s.step op = some t) :
    t.Online := by
  cases op with
  | insert connId client =>
    rw [Registry.step] at h
    obtain ⟨-, ⟨⟩⟩ := ite_none_left_eq_some.1 h
    exact hs.insert
  | remove connId =>
    cases h
    exact hs.remove hguard

/-! ## Every sequence of operations -/

/-- After any inserts and removals with fresh ids, the connection that requests for a device are
routed to is a registered one of the device. If the current connection of a device is only removed
as its last one, a device is online exactly when one of its connections is registered. -/
theorem device_presence (ops : List MapOp) (hrun : runFrom step {} ops = some s) :
    (∀ d c, s.map.deviceConn d = some c → s.map.Registered d c) ∧
      (RunMeets step LeavesNone {} ops →
        ∀ d, s.map.deviceIsConnected d = true ↔ ∃ c, s.map.Registered d c) := by
  have hrouted : s.Routed := by
    refine invariant_of_step (fun s op t hs h => Routed.step hs h)
      ⟨fun d c h => ?_, fun c k h => ?_⟩ hrun
    · cases h
    · cases h
  refine ⟨hrouted.registered, fun hmeets d => ⟨fun hconnected => ?_, fun ⟨c, hc⟩ => ?_⟩⟩
  · obtain ⟨c, hc⟩ := isSome_iff_exists.1 hconnected
    exact ⟨c, hrouted.registered d c hc⟩
  · have honline : s.Online := by
      refine invariant_of_guardedStep (fun s op t hs hguard h => Online.step hs hguard h) ?_ hmeets
        hrun
      rintro d c ⟨client, hfind, -⟩
      cases hfind
    exact honline d c hc

/-- A device reconnects, its older connection closes, and then the newer one. -/
def sampleReconnect : List MapOp :=
  [.insert (padTo 16 [1]) ⟨padTo 16 [9], padTo 16 [7], .device⟩,
    .insert (padTo 16 [2]) ⟨padTo 16 [9], padTo 16 [7], .device⟩, .remove (padTo 16 [1]),
    .insert (padTo 16 [3]) ⟨padTo 16 [8], padTo 16 [7], .user⟩]

theorem device_presence_sampleReconnect :
    ∃ s, runFrom step {} sampleReconnect = some s ∧
      RunMeets step LeavesNone {} sampleReconnect ∧
      (s.map.deviceIsConnected (padTo 16 [9]) = true ↔
        ∃ c, s.map.Registered (padTo 16 [9]) c) := by
  have hmeets : RunMeets step LeavesNone {} sampleReconnect := by decide +kernel
  have hrun : runFrom step {} sampleReconnect =
      some ((runFrom step {} sampleReconnect).get (by decide +kernel)) :=
    (some_get _).symm
  exact ⟨_, hrun, hmeets, (device_presence sampleReconnect hrun).2 hmeets (padTo 16 [9])⟩

/-- The newer connection closes first: the older one is still registered, and the device counts as
offline. -/
theorem older_connection_forgotten :
    ∃ s, runFrom step {} [.insert (padTo 16 [1]) ⟨padTo 16 [9], padTo 16 [7], .device⟩,
        .insert (padTo 16 [2]) ⟨padTo 16 [9], padTo 16 [7], .device⟩,
        .remove (padTo 16 [2])] = some s ∧
      s.map.Registered (padTo 16 [9]) (padTo 16 [1]) ∧
      s.map.deviceIsConnected (padTo 16 [9]) = false :=
  ⟨_, rfl, ⟨⟨padTo 16 [9], padTo 16 [7], .device⟩, by decide +kernel, rfl, rfl⟩, by decide +kernel⟩

end Registry

end RivetLink.Server
