import RivetLink.Sdk.KeyConnect

/-!
# No classical handshake with a pinned host

`KeyCall.Move` says once what a call can do next. From it, `classical_of_move` tells how a call
comes to a classical handshake: it was closed on in the hybrid one, and the pins let it go on. A
call over an open stream never gets there, and the pins let nobody go on to a host that was pinned
when the call began, since hosts are never dropped (`Secure`). `Recorded` is the invariant of the
log: a host is inserted only after a hybrid handshake with its key.
-/

namespace RivetLink.Sdk

open List Option RivetLink.Foundation RivetLink.Crypto PqPins

/-! ## What a completed handshake has proved -/

/-- The client function has returned a channel of protocol version 3, with an ML-KEM secret, and the
host has signed with the pinned key. -/
structure HybridWith (P : Suite) (s : Session) (key : FixedBytes 32) : Prop where
  config : ∃ identity, s.config = .clientKey identity (some key) true
  returned : ∃ channel, s.result P = some (.ok (channel, none))
  agreed : ∃ a client host hostEph sig binding, s.agreed? P = some a ∧
    a.terms = .kex hybridVersion client host ∧ a.pqSecret.isSome = true ∧
    decodeN P.b64 32 host.id = .ok key ∧ decodeN P.b64 64 host.sig = .ok sig ∧
    hostKexBinding P.b64 hybridVersion host.id (clientFieldsHash P.kdf.sha256 client) host.pq =
      .ok binding ∧
    P.signature.verify key (signatureMessage binding hostEph) sig = true

section Handshake

variable {P : Suite} {s : Session}

theorem clientKeyHello_pq {identity : FixedBytes 32} {pinned : Option (FixedBytes 32)}
    {hybrid : Bool} {coins : Coins} {st : ClientKex}
    (h : clientKeyHello P identity pinned hybrid coins = .ok st) :
    st.pq = ClientPq.start P hybrid coins.kemSeed := by
  unfold clientKeyHello at h
  dsimp only at h
  obtain ⟨key, -, hrest⟩ := bind_eq_ok.1 h
  obtain ⟨binding, -, hst⟩ := bind_eq_ok.1 hrest
  obtain rfl := Except.ok.inj hst
  rfl

variable {channel : SealedChannel}

theorem hybridWith_of_returns {identity key : FixedBytes 32}
    (hconfig : s.config = .clientKey identity (some key) true)
    (hreturns : s.returns P = some (.ok channel)) : HybridWith P s key := by
  obtain ⟨r, hresult, hr⟩ := map_eq_some_iff.1 hreturns
  obtain ⟨ch, id, rfl⟩ : ∃ ch id, r = .ok (ch, id) := by
    cases r with
    | ok r => exact ⟨r.1, r.2, rfl⟩
    | error e => cases hr
  obtain rfl : id = none := by
    have hclient := hresult
    unfold Session.result at hclient
    rw [hconfig] at hclient
    exact Session.result_of_client hclient
  obtain ⟨a, hagreed, -⟩ := Session.result_eq_ok hresult
  refine ⟨⟨identity, hconfig⟩, ⟨ch, hresult⟩, a, ?_⟩
  cases Session.ran_of_agreed hagreed with
  | clientKey identity' pinned hybrid st msg rest hconfig' hinbox hhello hreply =>
    rw [hconfig] at hconfig'
    cases hconfig'
    obtain ⟨hpinned, hversion, hpq, -⟩ := clientKeyHello_spec hhello
    cases hpinned
    have hstart := clientKeyHello_pq hhello
    obtain ⟨hsound, -, host, hostEph, sig, binding, hterms, -, hid, hsig, hbinding, hverify⟩ :=
      clientKeyReply_spec hversion hpq hreply
    have hsome : st.pq.isSome = true := by rw [hstart]; rfl
    have hhybrid : st.version = hybridVersion := by rw [hversion, ClientPq.version, if_pos hsome]
    have hsecret : a.pqSecret.isSome = true := by
      rw [hsound.pqSecret_isSome, hterms, Terms.usesPq, hpq, isSome_map]
      exact hsome
    rw [hhybrid] at hterms hbinding
    exact ⟨st.client, host, hostEph, sig, binding, hagreed, hterms, hsecret, hid, hsig, hbinding,
      hverify⟩
  | clientPassword _ _ _ _ hc | hostKey _ _ _ _ _ hc => rw [hconfig] at hc; cases hc
  | hostPassword _ _ _ _ _ hc =>
    rw [hconfig] at hc
    obtain hc | ⟨_, _, hc⟩ := hc <;> cases hc

theorem config_onEvent (e : NetEvent) : (s.onEvent P e).1.config = s.config := by
  cases e with
  | message msg | badFrame e => rfl
  | ioError e =>
    unfold Session.onEvent
    dsimp only
    split <;> rfl
  | timeout => rfl

/-- Only a handshake that has received its messages returns a channel. -/
theorem returns_of_onEvent {e : NetEvent} (h : (s.onEvent P e).2 = some (.ok channel)) :
    (s.onEvent P e).1.returns P = some (.ok channel) := by
  cases e with
  | message msg | badFrame e => exact h
  | ioError e =>
    unfold Session.onEvent at h
    dsimp only at h
    split at h <;> cases h
  | timeout => cases h

end Handshake

/-! ## What a call can do -/

/-- The phases that come after the pins let a classical handshake go on. -/
def ConnectPhase.classical : ConnectPhase → Bool
  | .connecting hybrid => !hybrid
  | .handshaking hybrid _ => !hybrid
  | .returned (.ok (hybrid, _)) => !hybrid
  | _ => false

/-- The start of a classical handshake and the return of its channel. -/
def CallEvent.classical : CallEvent → Bool
  | .started hybrid => !hybrid
  | .returned hybrid => !hybrid
  | _ => false

namespace KeyCall

variable {P : Suite} {c : KeyCall} {store store' : PinStore} {phase : ConnectPhase}
  {events : List CallEvent} {a : CallAction} {hybrid : Bool} {session : Session}

/-- How a handshake goes on. -/
inductive Goes (c : KeyCall) (hybrid : Bool) (session : Session) :
    Option (Except ConnectError SealedChannel) → ConnectPhase → List CallEvent → Prop where
  | waits : Goes c hybrid session none (.handshaking hybrid session) []
  | completes (channel : SealedChannel) (key : FixedBytes 32) (hhybrid : hybrid = true)
      (hpinned : c.pinned = some key) :
      Goes c hybrid session (some (.ok channel)) (.completed session channel) [.completed session]
  | ends (channel : SealedChannel) : Goes c hybrid session (some (.ok channel))
      (.returned (.ok (hybrid, channel))) [.completed session, .returned hybrid]
  | closed (e : ConnectError) (hhybrid : hybrid = true) (hover : c.overStream = false) :
      Goes c hybrid session (some (.error e)) .closed []
  | fails (e : ConnectError) : Goes c hybrid session (some (.error e)) (.returned (.error e)) []

theorem goes_continueWith (c : KeyCall) (hybrid : Bool) (session : Session)
    (r : Option (Except ConnectError SealedChannel)) :
    Goes c hybrid session r (c.continueWith hybrid session r).1
      (c.continueWith hybrid session r).2 := by
  cases r with
  | none => exact .waits
  | some r =>
    cases r with
    | ok channel =>
      unfold continueWith afterHandshake
      dsimp only
      split
      · rename_i hhybrid
        split
        · rename_i key hpinned
          exact .completes channel key hhybrid hpinned
        · subst hhybrid
          exact .ends channel
      · rename_i hhybrid
        rw [Bool.not_eq_true] at hhybrid
        subst hhybrid
        exact .ends channel
    | error e =>
      unfold continueWith afterHandshake
      dsimp only
      split
      · rename_i hguard
        rw [Bool.and_eq_true, Bool.and_eq_true, Bool.not_eq_true'] at hguard
        exact .closed e hguard.1.1 hguard.1.2
      · exact .fails e

/-- What a call can do next. -/
inductive Move (P : Suite) (c : KeyCall) (store : PinStore) :
    PinStore → ConnectPhase → List CallEvent → Prop where
  | tcpFailed (e : IoFailure) (hybrid : Bool) (hphase : c.phase = .connecting hybrid) :
      Move P c store store (.returned (.error (.io e))) []
  | starts (hybrid : Bool) (coins : Coins) (phase : ConnectPhase) (events : List CallEvent)
      (hphase : c.phase = .connecting hybrid)
      (hgoes : Goes c hybrid (c.newSession hybrid coins) ((c.newSession hybrid coins).returns P)
        phase events) :
      Move P c store store phase (.started hybrid :: events)
  | continues (hybrid : Bool) (session : Session) (e : NetEvent) (phase : ConnectPhase)
      (events : List CallEvent) (hphase : c.phase = .handshaking hybrid session)
      (hgoes : Goes c hybrid (session.onEvent P e).1 (session.onEvent P e).2 phase events) :
      Move P c store store phase events
  | inserts (session : Session) (channel : SealedChannel) (host : List Char)
      (hphase : c.phase = .completed session channel) (hhost : c.host P = some host) :
      Move P c store (store.remember host)
        (.inserted session channel (store.pins.remember host).2) [.inserted host]
  | remembers (session : Session) (channel : SealedChannel) (spawn : Bool) (host : List Char)
      (store' : PinStore) (hphase : c.phase = .inserted session channel spawn)
      (hhost : c.host P = some host) (hstore : store'.pins = store.pins) :
      Move P c store store' (.returned (.ok (true, channel))) [.remembered host, .returned true]
  | refused (reason : String) (hphase : c.phase = .closed) :
      Move P c store store (.returned (.error (.sdk (.crypto reason)))) [.refused reason]
  | retries (hphase : c.phase = .closed)
      (hpins : (c.host P).bind store.pins.refusesDowngrade = none) :
      Move P c store store (.connecting false) []

theorem move_of_step (h : c.step P store a = some (store', phase, events)) :
    Move P c store store' phase events := by
  unfold step at h
  split at h
  · rename_i hybrid e hphase
    cases h
    exact .tcpFailed e hybrid hphase
  · rename_i hybrid coins hphase
    cases h
    exact .starts hybrid coins _ _ hphase (goes_continueWith c hybrid _ _)
  · rename_i hybrid session e hphase
    obtain ⟨rfl, hnext⟩ := Prod.mk.inj (some.inj h)
    have hgoes := goes_continueWith c hybrid (session.onEvent P e).1 (session.onEvent P e).2
    rw [hnext] at hgoes
    exact .continues hybrid session e phase events hphase hgoes
  · rename_i session channel hphase
    split at h <;> cases h
    rename_i host hhost
    exact .inserts session channel host hphase hhost
  · rename_i session channel spawn hphase
    split at h
    · rename_i host hhost
      obtain ⟨store₁, hstore, hrest⟩ := map_eq_some_iff.1 h
      cases hrest
      refine .remembers session channel spawn host store' hphase hhost ?_
      split at hstore
      · unfold PinStore.step at hstore
        obtain ⟨-, ⟨⟩⟩ := ite_none_right_eq_some.1 hstore
        rfl
      · cases hstore
        rfl
    · cases h
  · rename_i hphase
    split at h
    · rename_i reason hreason
      cases h
      exact .refused reason hphase
    · rename_i hpins
      cases h
      exact .retries hphase hpins
  · cases h

variable {r : Option (Except ConnectError SealedChannel)}

theorem classical_of_goes (h : Goes c hybrid session r phase events)
    (hclassical : phase.classical = true ∨ ∃ e ∈ events, e.classical = true) : hybrid = false := by
  cases h with
  | waits | ends => simpa [ConnectPhase.classical, CallEvent.classical] using hclassical
  | completes | closed | fails => simp [ConnectPhase.classical, CallEvent.classical] at hclassical

/-- A call comes to a classical handshake only if the pins let it go on after it was closed on. -/
theorem classical_of_move (h : Move P c store store' phase events)
    (hclassical : phase.classical = true ∨ ∃ e ∈ events, e.classical = true) :
    c.phase.classical = true ∨
      c.phase = .closed ∧ (c.host P).bind store.pins.refusesDowngrade = none := by
  cases h with
  | starts hybrid coins _ events hphase hgoes =>
    have hhybrid : hybrid = false := by
      obtain h | ⟨e, he, h⟩ := hclassical
      · exact classical_of_goes hgoes (.inl h)
      · obtain rfl | he := mem_cons.1 he
        · simpa [CallEvent.classical] using h
        · exact classical_of_goes hgoes (.inr ⟨e, he, h⟩)
    rw [hphase, hhybrid]
    exact .inl rfl
  | continues hybrid session e _ _ hphase hgoes =>
    rw [hphase, classical_of_goes hgoes hclassical]
    exact .inl rfl
  | retries hphase hpins => exact .inr ⟨hphase, hpins⟩
  | tcpFailed | inserts | remembers | refused =>
    simp [ConnectPhase.classical, CallEvent.classical] at hclassical

theorem over_of_goes (h : Goes c hybrid session r phase events) (hclosed : phase = .closed) :
    c.overStream = false := by
  cases h with
  | closed _ _ hover => exact hover
  | _ => cases hclosed

/-- Only a call that opens its own connection is asked to retry. -/
theorem over_of_move (h : Move P c store store' phase events) (hclosed : phase = .closed) :
    c.overStream = false := by
  cases h with
  | starts _ _ _ _ _ hgoes | continues _ _ _ _ _ _ hgoes => exact over_of_goes hgoes hclosed
  | _ => cases hclosed

variable {host : List Char}

theorem not_inserted_of_goes (h : Goes c hybrid session r phase events) :
    .inserted host ∉ events ∧ .remembered host ∉ events := by
  cases h <;> simp

/-- No host is dropped, and hosts are added only when the call says so. -/
theorem pins_of_move (h : Move P c store store' phase events) :
    store.pins.hosts ⊆ store'.pins.hosts ∧ store'.pins.unreadable = store.pins.unreadable ∧
      ∀ host ∈ store'.pins.hosts, host ∈ store.pins.hosts ∨ .inserted host ∈ events := by
  cases h with
  | inserts session channel host hphase hhost =>
    refine ⟨PinStore.subset_remember _ _, rfl, fun host' hhost' => ?_⟩
    obtain rfl | hhost' := SortedSet.mem_insert.1 hhost'
    · exact .inr (mem_singleton.2 rfl)
    · exact .inl hhost'
  | remembers session channel spawn host _ hphase hhost hstore =>
    rw [hstore]
    exact ⟨SortedSet.subset_refl _, rfl, fun _ h => .inl h⟩
  | _ => exact ⟨SortedSet.subset_refl _, rfl, fun _ h => .inl h⟩

/-- A host is inserted by a call that has completed its handshake. -/
theorem inserted_of_move (h : Move P c store store' phase events) (hmem : .inserted host ∈ events) :
    events = [.inserted host] ∧ c.host P = some host ∧ host ∈ store'.pins.hosts ∧
      ∃ session channel, c.phase = .completed session channel := by
  cases h with
  | starts _ _ _ _ _ hgoes => simp [not_inserted_of_goes hgoes] at hmem
  | continues _ _ _ _ _ _ hgoes => exact absurd hmem (not_inserted_of_goes hgoes).1
  | inserts session channel host' hphase hhost =>
    cases mem_singleton.1 hmem
    exact ⟨rfl, hhost, SortedSet.mem_insert.2 (.inl rfl), session, channel, hphase⟩
  | tcpFailed | remembers | refused | retries => simp at hmem

/-- A host is remembered by a call that has inserted it. -/
theorem remembered_of_move (h : Move P c store store' phase events)
    (hmem : .remembered host ∈ events) :
    c.host P = some host ∧ ∃ session channel spawn, c.phase = .inserted session channel spawn := by
  cases h with
  | starts _ _ _ _ _ hgoes => simp [not_inserted_of_goes hgoes] at hmem
  | continues _ _ _ _ _ _ hgoes => exact absurd hmem (not_inserted_of_goes hgoes).2
  | remembers session channel spawn host' _ hphase hhost _ =>
    have heq : host = host' := by simpa using hmem
    exact ⟨heq ▸ hhost, session, channel, spawn, hphase⟩
  | tcpFailed | inserts | refused | retries => simp at hmem

end KeyCall

/-! ## The log -/

namespace KeyConnects

variable {P : Suite} {s t : KeyConnects} {log : List ConnectEvent} {i : Nat} {c : KeyCall}
  {store : PinStore} {phase : ConnectPhase} {events : List CallEvent}

/-- What the log tells about a call in a given phase. -/
def Told (P : Suite) (log : List ConnectEvent) (i : Nat) (c : KeyCall) : Prop :=
  match c.phase with
  | .handshaking hybrid session => session.config = .clientKey c.identity c.pinned hybrid
  | .completed session _ => .call i (.completed session) ∈ log ∧
      ∃ key, c.pinned = some key ∧ HybridWith P session key
  | .inserted _ _ _ => ∀ host, c.host P = some host → .call i (.inserted host) ∈ log
  | _ => True

theorem Told.mono {log' : List ConnectEvent} (h : Told P log i c)
    (hsub : ∀ e ∈ log, e ∈ log') : Told P log' i c := by
  unfold Told at h ⊢
  split at h
  · exact h
  · exact ⟨hsub _ h.1, h.2⟩
  · exact fun host hhost => hsub _ (h host hhost)
  · trivial

theorem told_of_goes {r : Option (Except ConnectError SealedChannel)} {hybrid : Bool}
    {session : Session} (h : c.Goes hybrid session r phase events)
    (hconfig : session.config = .clientKey c.identity c.pinned hybrid)
    (hreturns : ∀ channel, r = some (.ok channel) → session.returns P = some (.ok channel))
    (hevents : ∀ e ∈ events, .call i e ∈ log) : Told P log i { c with phase := phase } := by
  cases h with
  | waits => exact hconfig
  | completes channel key hhybrid hpinned =>
    subst hhybrid
    refine ⟨hevents _ (mem_singleton.2 rfl), key, hpinned, ?_⟩
    rw [hpinned] at hconfig
    exact hybridWith_of_returns hconfig (hreturns channel rfl)
  | ends channel | closed e hhybrid hover | fails e => trivial

theorem Told.move (h : Told P log i c) (hmove : c.Move P s.store store phase events)
    (hevents : ∀ e ∈ events, .call i e ∈ log) : Told P log i { c with phase := phase } := by
  cases hmove with
  | starts hybrid coins _ _ hphase hgoes =>
    exact told_of_goes hgoes rfl (fun _ h => h) fun e he => hevents e (mem_cons_of_mem _ he)
  | continues hybrid session e _ _ hphase hgoes =>
    unfold Told at h
    rw [hphase] at h
    exact told_of_goes hgoes ((config_onEvent e).trans h) (fun _ => returns_of_onEvent) hevents
  | inserts session channel host hphase hhost =>
    intro host' hhost'
    change c.host P = some host' at hhost'
    rw [hhost] at hhost'
    cases hhost'
    exact hevents _ (mem_singleton.2 rfl)
  | _ => trivial

variable {new : List ConnectEvent}

/-- An event that is not among the last ones stands where it stood. -/
theorem exists_of_append {before after : List ConnectEvent} {e : ConnectEvent}
    (h : log ++ new = before ++ e :: after) (he : e ∉ new) :
    ∃ after', log = before ++ e :: after' := by
  obtain ⟨rest, rfl, hnew⟩ | ⟨rest, rfl, hrest⟩ := append_eq_append_iff.1 h
  · rw [hnew] at he
    exact absurd (mem_append_right _ mem_cons_self) he
  · cases rest with
    | nil =>
      rw [nil_append] at hrest
      rw [← hrest] at he
      exact absurd mem_cons_self he
    | cons x rest =>
      cases hrest
      exact ⟨rest, rfl⟩

structure Recorded (P : Suite) (s : KeyConnects) : Prop where
  unreadable : .unreadable ∈ s.log → s.store.pins.unreadable = true
  pinned : ∀ i host, .call i (.inserted host) ∈ s.log → host ∈ s.store.pins.hosts
  remembered : ∀ i host, .call i (.remembered host) ∈ s.log → .call i (.inserted host) ∈ s.log
  known : ∀ host ∈ s.store.pins.hosts, (∃ i, .call i (.inserted host) ∈ s.log) ∨
    ∃ hosts, .loaded hosts ∈ s.log ∧ host ∈ hosts
  began : ∀ i pinned, .began i pinned ∈ s.log → ∃ c, s.calls[i]? = some c ∧ c.pinned = pinned
  logged : ∀ i e, .call i e ∈ s.log → i < s.calls.length
  told : ∀ i c, s.calls[i]? = some c → Told P s.log i c
  proved : ∀ before after i host, s.log = before ++ .call i (.inserted host) :: after →
    ∃ key session, host = hostText P key ∧ .call i (.completed session) ∈ before ∧
      HybridWith P session key

/-! ## One step -/

/-- What the process can do: a call begins, a call moves, a store is opened or cannot be read, a
save goes on. -/
inductive Stepped (P : Suite) (s : KeyConnects) : KeyConnects → Prop where
  | begins (c : KeyCall) (hphase : c.phase = .connecting true) : Stepped P s (s.begin c [])
  | moves (i : Nat) (c : KeyCall) (store : PinStore) (phase : ConnectPhase)
      (events : List CallEvent) (hc : s.calls[i]? = some c)
      (hmove : c.Move P s.store store phase events) :
      Stepped P s { s with
        store := store
        calls := s.calls.set i { c with phase := phase }
        log := s.log ++ events.map (.call i) }
  | loads (hosts : HostSet) (pins : Pins)
      (hhosts : pins.hosts = s.store.pins.hosts.extend hosts.elems)
      (hunreadable : pins.unreadable = s.store.pins.unreadable) :
      Stepped P s { s with store := { s.store with pins := pins }, log := s.log ++ [.loaded hosts] }
  | fails (pins : Pins) (hhosts : pins.hosts = s.store.pins.hosts)
      (hunreadable : pins.unreadable = true) :
      Stepped P s { s with store := { s.store with pins := pins }, log := s.log ++ [.unreadable] }
  | saves (store : PinStore) (hpins : store.pins = s.store.pins) :
      Stepped P s { s with store := store }

theorem begin_append (s : KeyConnects) (c : KeyCall) (phase : ConnectPhase)
    (events : List CallEvent) :
    s.begin { c with phase := phase } events =
      { s.begin c [] with
        calls := (s.begin c []).calls.set s.calls.length { c with phase := phase }
        log := (s.begin c []).log ++ events.map (.call s.calls.length) } := by
  simp [begin]

variable {b : PinAction}

theorem pins_of_saves (h : s.store.step b = some store) (hb : ∀ host, b ≠ .remember host) :
    store.pins = s.store.pins := by
  cases b with
  | remember host => exact absurd rfl (hb host)
  | spawn host | lock | write fault =>
    rw [PinStore.step] at h
    split at h <;> cases h
    rfl
  | read =>
    rw [PinStore.step] at h
    split at h
    · split at h <;> cases h <;> rfl
    · cases h

theorem stepped_of_saves (h : step.saves s b = some t) (hb : ∀ host, b ≠ .remember host) :
    Stepped P s t := by
  obtain ⟨store, hstore, rfl⟩ := map_eq_some_iff.1 h
  exact .saves store (pins_of_saves hstore hb)

/-- A call over an open stream begins and starts its handshake at once. -/
theorem stepped_of_step {a : ConnectAction} (h : s.step P a = some t) :
    Stepped P s t ∨ ∃ u, Stepped P s u ∧ Stepped P u t := by
  cases a with
  | connectKey identity pinned =>
    cases h
    exact .inl (.begins ⟨false, identity, pinned, .connecting true⟩ rfl)
  | connectKeyOver identity pinned coins =>
    cases h
    refine .inr ⟨_, .begins ⟨true, identity, some pinned, .connecting true⟩ rfl, ?_⟩
    have hmove := Stepped.moves (P := P)
      (s := s.begin ⟨true, identity, some pinned, .connecting true⟩ []) s.calls.length _ s.store
      _ _ getElem?_concat_length
      (.starts true coins _ _ rfl (KeyCall.goes_continueWith _ true _ _))
    have heq := begin_append s ⟨true, identity, some pinned, .connecting true⟩
      (KeyCall.startHandshake P ⟨true, identity, some pinned, .connecting true⟩ true coins).1
      (KeyCall.startHandshake P ⟨true, identity, some pinned, .connecting true⟩ true coins).2
    exact heq ▸ hmove
  | call i b =>
    obtain ⟨c, hc, h⟩ := bind_eq_some_iff.1 h
    obtain ⟨⟨store, phase, events⟩, hstep, h⟩ := bind_eq_some_iff.1 h
    cases h
    exact .inl (.moves i c store phase events hc (KeyCall.move_of_step hstep))
  | useStore path fault =>
    rw [step, PqPins.useStore] at h
    cases hload : load s.store.files path fault with
    | ok hosts =>
      rw [hload] at h
      cases h
      exact .inl (.loads hosts _ rfl rfl)
    | error e =>
      rw [hload] at h
      cases h
      exact .inl (.fails _ rfl rfl)
  | lock | read => exact .inl (stepped_of_saves h fun _ hb => PinAction.noConfusion hb)
  | write fault => exact .inl (stepped_of_saves h fun _ hb => PinAction.noConfusion hb)

namespace Recorded

/-- A call begins. -/
theorem begins (hs : Recorded P s) (c : KeyCall) (hphase : c.phase = .connecting true) :
    Recorded P (s.begin c []) := by
  have hold : ∀ e ∈ s.log, e ∈ (s.begin c []).log := fun e he => mem_append_left _ he
  have hnew : ∀ e, e ∈ (s.begin c []).log → e ∈ s.log ∨ e = .began s.calls.length c.pinned :=
    fun e he => (mem_append.1 he).imp_right mem_singleton.1
  have hcalls : ∀ i c', s.calls[i]? = some c' → (s.begin c []).calls[i]? = some c' :=
    fun i c' hc' => getElem?_append_left (lt_of_slot hc') ▸ hc'
  refine ⟨fun h => ?_, fun i host h => ?_, fun i host h => ?_, fun host h => ?_,
    fun i pinned h => ?_, fun i e h => ?_, fun i c' h => ?_, fun before after i host h => ?_⟩
  · exact hs.unreadable ((hnew _ h).resolve_right nofun)
  · exact hs.pinned i host ((hnew _ h).resolve_right nofun)
  · exact hold _ (hs.remembered i host ((hnew _ h).resolve_right nofun))
  · obtain ⟨i, hi⟩ | ⟨hosts, hh, hm⟩ := hs.known host h
    · exact .inl ⟨i, hold _ hi⟩
    · exact .inr ⟨hosts, hold _ hh, hm⟩
  · obtain h | h := hnew _ h
    · obtain ⟨c', hc', hpinned⟩ := hs.began i pinned h
      exact ⟨c', hcalls i c' hc', hpinned⟩
    · cases h
      exact ⟨c, getElem?_concat_length, rfl⟩
  · have hlt := hs.logged i e ((hnew _ h).resolve_right nofun)
    rw [begin, length_append]
    exact Nat.lt_of_lt_of_le hlt (Nat.le_add_right _ _)
  · change (s.calls ++ [c])[i]? = some c' at h
    rw [getElem?_append] at h
    split at h
    · exact (hs.told i c' h).mono hold
    · rw [getElem?_singleton] at h
      obtain ⟨-, ⟨⟩⟩ := ite_none_right_eq_some.1 h
      unfold Told
      rw [hphase]
      trivial
  · obtain ⟨after', hlog⟩ := exists_of_append h (by simp)
    exact hs.proved before after' i host hlog

/-- A call moves. -/
theorem moves (hs : Recorded P s) (hc : s.calls[i]? = some c)
    (hmove : c.Move P s.store store phase events) :
    Recorded P { s with
      store := store
      calls := s.calls.set i { c with phase := phase }
      log := s.log ++ events.map (.call i) } := by
  obtain ⟨hhosts, hunreadable, hadded⟩ := KeyCall.pins_of_move hmove
  have htold := hs.told i c hc
  have hlt := lt_of_slot hc
  have hold : ∀ e ∈ s.log, e ∈ s.log ++ events.map (.call i) :=
    fun e he => mem_append_left _ he
  have hnew : ∀ j e, .call j e ∈ s.log ++ events.map (.call i) →
      .call j e ∈ s.log ∨ j = i ∧ e ∈ events := by
    intro j e he
    refine (mem_append.1 he).imp_right fun he => ?_
    obtain ⟨e', he', heq⟩ := mem_map.1 he
    cases heq
    exact ⟨rfl, he'⟩
  have hevents : ∀ e ∈ events, .call i e ∈ s.log ++ events.map (.call i) :=
    fun e he => mem_append_right _ (mem_map_of_mem he)
  have hother : ∀ e, (∀ f, e ≠ .call i f) → e ∈ s.log ++ events.map (.call i) → e ∈ s.log := by
    intro e hne he
    refine (mem_append.1 he).resolve_right fun he => ?_
    obtain ⟨f, -, rfl⟩ := mem_map.1 he
    exact hne f rfl
  refine ⟨fun h => ?_, fun j host h => ?_, fun j host h => ?_, fun host h => ?_,
    fun j pinned h => ?_, fun j e h => ?_, fun j c' h => ?_, fun before after j host h => ?_⟩
  · exact hunreadable.trans (hs.unreadable (hother _ nofun h))
  · obtain hmem | ⟨rfl, hmem⟩ := hnew _ _ h
    · exact hhosts _ (hs.pinned j host hmem)
    · exact (KeyCall.inserted_of_move hmove hmem).2.2.1
  · obtain hmem | ⟨rfl, hmem⟩ := hnew _ _ h
    · exact hold _ (hs.remembered j host hmem)
    · obtain ⟨hhost, session, channel, spawn, hphase⟩ := KeyCall.remembered_of_move hmove hmem
      unfold Told at htold
      rw [hphase] at htold
      exact hold _ (htold host hhost)
  · obtain h | h := hadded host h
    · obtain ⟨j, hj⟩ | ⟨hosts, hh, hm⟩ := hs.known host h
      · exact .inl ⟨j, hold _ hj⟩
      · exact .inr ⟨hosts, hold _ hh, hm⟩
    · exact .inl ⟨i, hevents _ h⟩
  · obtain ⟨c', hc', hpinned⟩ := hs.began j pinned (hother _ nofun h)
    dsimp only
    rw [getElem?_set]
    split
    · rename_i hij
      subst hij
      rw [hc] at hc'
      cases hc'
      exact ⟨_, rfl, hpinned⟩
    · exact ⟨c', hc', hpinned⟩
  · dsimp only
    rw [length_set]
    obtain h | ⟨rfl, -⟩ := hnew _ _ h
    · exact hs.logged j e h
    · exact hlt
  · dsimp only at h
    rw [getElem?_set] at h
    split at h
    · rename_i hij
      subst hij
      cases h
      exact (htold.mono hold).move hmove hevents
    · exact (hs.told j c' h).mono hold
  · dsimp only at h
    by_cases hins : j = i ∧ .inserted host ∈ events
    · -- the call inserts its host now, and has completed its handshake before
      obtain ⟨rfl, hins⟩ := hins
      obtain ⟨rfl, hhost, -, session, channel, hphase⟩ := KeyCall.inserted_of_move hmove hins
      unfold Told at htold
      rw [hphase] at htold
      obtain ⟨hcompleted, key, hpinned, hhybrid⟩ := htold
      rw [KeyCall.host, hpinned] at hhost
      cases hhost
      by_cases hearlier : ∃ after', s.log = before ++ .call j (.inserted (hostText P key)) :: after'
      · obtain ⟨after', hlog⟩ := hearlier
        exact hs.proved before after' j _ hlog
      · refine ⟨key, session, rfl, ?_, hhybrid⟩
        obtain ⟨rest, rfl, hrest⟩ | ⟨rest, hlog, hrest⟩ := append_eq_append_iff.1 h
        · exact mem_append_left _ hcompleted
        · cases rest with
          | nil =>
            rw [append_nil] at hlog
            exact hlog ▸ hcompleted
          | cons x rest =>
            cases hrest
            exact absurd ⟨rest, hlog⟩ hearlier
    · obtain ⟨after', hlog⟩ := exists_of_append h fun hmem => by
        obtain ⟨e, he, heq⟩ := mem_map.1 hmem
        cases heq
        exact hins ⟨rfl, he⟩
      exact hs.proved before after' j host hlog

/-- The pins change without a call, and the log says so. -/
theorem opens (hs : Recorded P s) (store : PinStore) (new : List ConnectEvent)
    (hquiet : ∀ e ∈ new, (∃ hosts, e = .loaded hosts) ∨ e = .unreadable)
    (hhosts : s.store.pins.hosts ⊆ store.pins.hosts)
    (hunreadable : .unreadable ∈ s.log ++ new → store.pins.unreadable = true)
    (hadded : ∀ host ∈ store.pins.hosts, host ∈ s.store.pins.hosts ∨
      ∃ hosts, .loaded hosts ∈ new ∧ host ∈ hosts) :
    Recorded P { s with store := store, log := s.log ++ new } := by
  have hold : ∀ e ∈ s.log, e ∈ s.log ++ new := fun e he => mem_append_left _ he
  have hcall : ∀ i e, .call i e ∉ new := by
    intro i e he
    obtain ⟨hosts, h⟩ | h := hquiet _ he <;> cases h
  have hbegan : ∀ i pinned, .began i pinned ∉ new := by
    intro i pinned he
    obtain ⟨hosts, h⟩ | h := hquiet _ he <;> cases h
  refine ⟨hunreadable, fun i host h => ?_, fun i host h => ?_, fun host h => ?_,
    fun i pinned h => ?_, fun i e h => ?_, fun i c h => (hs.told i c h).mono hold,
    fun before after i host h => ?_⟩
  · exact hhosts _ (hs.pinned i host ((mem_append.1 h).resolve_right (hcall _ _)))
  · exact hold _ (hs.remembered i host ((mem_append.1 h).resolve_right (hcall _ _)))
  · obtain h | ⟨hosts, hh, hm⟩ := hadded host h
    · obtain ⟨i, hi⟩ | ⟨hosts, hh, hm⟩ := hs.known host h
      · exact .inl ⟨i, hold _ hi⟩
      · exact .inr ⟨hosts, hold _ hh, hm⟩
    · exact .inr ⟨hosts, mem_append_right _ hh, hm⟩
  · exact hs.began i pinned ((mem_append.1 h).resolve_right (hbegan _ _))
  · exact hs.logged i e ((mem_append.1 h).resolve_right (hcall _ _))
  · obtain ⟨after', hlog⟩ := exists_of_append h (hcall _ _)
    exact hs.proved before after' i host hlog

theorem stepped (hs : Recorded P s) (h : Stepped P s t) : Recorded P t := by
  cases h with
  | begins c hphase => exact hs.begins c hphase
  | moves i c store phase events hc hmove => exact hs.moves hc hmove
  | loads hosts pins hhosts hunreadable =>
    refine hs.opens { s.store with pins := pins } [.loaded hosts]
      (fun e he => .inl ⟨hosts, mem_singleton.1 he⟩) (fun host h => ?_) (fun h => ?_)
      fun host h => ?_
    · rw [hhosts]
      exact SortedSet.mem_extend.2 (.inl h)
    · refine hunreadable.trans (hs.unreadable ((mem_append.1 h).resolve_right ?_))
      simp
    · rw [hhosts] at h
      exact (SortedSet.mem_extend.1 h).imp_right fun h => ⟨hosts, mem_singleton.2 rfl, h⟩
  | fails pins hhosts hunreadable =>
    refine hs.opens { s.store with pins := pins } [.unreadable]
      (fun e he => .inr (mem_singleton.1 he)) (fun host h => ?_) (fun _ => hunreadable)
      fun host h => .inl ?_
    · rw [hhosts]
      exact h
    · rw [hhosts] at h
      exact h
  | saves store hpins =>
    have hopens := hs.opens store [] (fun e he => by cases he)
      (by rw [hpins]; exact SortedSet.subset_refl _)
      (by rw [hpins, append_nil]; exact hs.unreadable)
      fun host h => .inl (by rw [hpins] at h; exact h)
    rw [append_nil] at hopens
    exact hopens

end Recorded

/-! ## Safe calls -/

/-- The host of a call was pinned, or the store could not be read, when the call began. -/
def Guarded (P : Suite) (log : List ConnectEvent) (i : Nat) : Prop :=
  ∃ before after key, log = before ++ .began i (some key) :: after ∧
    ((∃ j, .call j (.remembered (hostText P key)) ∈ before) ∨ .unreadable ∈ before)

theorem guarded_of_append (h : Guarded P (log ++ new) i) (hnew : ∀ pinned, .began i pinned ∉ new) :
    Guarded P log i := by
  obtain ⟨before, after, key, hlog, hbefore⟩ := h
  obtain ⟨after', hlog'⟩ := exists_of_append hlog (hnew _)
  exact ⟨before, after', key, hlog', hbefore⟩

/-- The call has not come to a classical handshake. -/
structure Safe (s : KeyConnects) (i : Nat) (c : KeyCall) : Prop where
  phase : c.phase.classical = false
  events : ∀ e : CallEvent, e.classical = true → .call i e ∉ s.log

/-- Calls over an open stream and guarded calls are safe. -/
structure Secure (P : Suite) (s : KeyConnects) : Prop where
  overStream : ∀ i c, s.calls[i]? = some c → c.overStream = true → Safe s i c ∧ c.phase ≠ .closed
  guarded : ∀ i c, s.calls[i]? = some c → Guarded P s.log i → Safe s i c

/-- The pins refuse a classical retry of a guarded call. -/
theorem refuses_of_guarded (hs : Recorded P s) (hc : s.calls[i]? = some c)
    (h : Guarded P s.log i) : (c.host P).bind s.store.pins.refusesDowngrade ≠ none := by
  obtain ⟨before, after, key, hlog, hbefore⟩ := h
  have hmem : ∀ e ∈ before, e ∈ s.log := fun e he => hlog ▸ mem_append_left _ he
  obtain ⟨c', hc', hpinned⟩ := hs.began i (some key) (by
    rw [hlog]
    exact mem_append_right _ mem_cons_self)
  rw [hc] at hc'
  cases hc'
  rw [KeyCall.host, hpinned, map_some, bind_some, Pins.refusesDowngrade]
  obtain ⟨j, hj⟩ | hunreadable := hbefore
  · rw [if_pos (hs.pinned j _ (hs.remembered j _ (hmem _ hj)))]
    split <;> exact some_ne_none _
  · rw [if_pos (hs.unreadable (hmem _ hunreadable))]
    exact some_ne_none _

/-- A safe call stays safe if the pins do not let it retry. -/
theorem Safe.move (h : Safe s i c) (hmove : c.Move P s.store store phase events)
    (hpins : c.phase = .closed → (c.host P).bind s.store.pins.refusesDowngrade ≠ none)
    (hlog : t.log = s.log ++ events.map (.call i)) : Safe t i { c with phase := phase } := by
  have hnot : ¬(phase.classical = true ∨ ∃ e ∈ events, e.classical = true) := by
    intro hclassical
    obtain hbefore | ⟨hclosed, hnone⟩ := KeyCall.classical_of_move hmove hclassical
    · rw [h.phase] at hbefore
      cases hbefore
    · exact hpins hclosed hnone
  refine ⟨Bool.not_eq_true _ ▸ fun hp => hnot (.inl hp), fun e he hmem => ?_⟩
  rw [hlog] at hmem
  obtain hmem | hmem := mem_append.1 hmem
  · exact h.events e he hmem
  · obtain ⟨e', he', heq⟩ := mem_map.1 hmem
    cases heq
    exact hnot (.inr ⟨e, he', he⟩)

/-- Steps of others do not matter. -/
theorem Safe.mono (h : Safe s i c) (hlog : t.log = s.log ++ new) (hnew : ∀ e, .call i e ∉ new) :
    Safe t i c := by
  refine ⟨h.phase, fun e he hmem => ?_⟩
  rw [hlog] at hmem
  exact h.events e he ((mem_append.1 hmem).resolve_right (hnew e))

theorem Secure.stepped (hrec : Recorded P s) (hs : Secure P s) (h : Stepped P s t) :
    Secure P t := by
  cases h with
  | begins c hphase =>
    have hlog : (s.begin c []).log = s.log ++ [.began s.calls.length c.pinned] := rfl
    have hfresh : Safe (s.begin c []) s.calls.length c := by
      refine ⟨by rw [hphase]; rfl, fun e _ hmem => ?_⟩
      rw [hlog] at hmem
      have hlt := hrec.logged _ e ((mem_append.1 hmem).resolve_right (by simp))
      exact Nat.lt_irrefl _ hlt
    have hcases : ∀ i c', (s.begin c []).calls[i]? = some c' →
        s.calls[i]? = some c' ∨ i = s.calls.length ∧ c' = c := by
      intro i c' hc'
      change (s.calls ++ [c])[i]? = some c' at hc'
      rw [getElem?_append] at hc'
      split at hc'
      · exact .inl hc'
      · rw [getElem?_singleton] at hc'
        split at hc' <;> cases hc'
        rename_i hnot hzero
        exact .inr ⟨by omega, rfl⟩
    refine ⟨fun i c' hc' hover => ?_, fun i c' hc' hguarded => ?_⟩
    · obtain hc' | ⟨rfl, rfl⟩ := hcases i c' hc'
      · exact ⟨(hs.overStream i c' hc' hover).1.mono hlog (by simp),
          (hs.overStream i c' hc' hover).2⟩
      · exact ⟨hfresh, by rw [hphase]; nofun⟩
    · obtain hc' | ⟨rfl, rfl⟩ := hcases i c' hc'
      · have hne : i ≠ s.calls.length := Nat.ne_of_lt (lt_of_slot hc')
        refine (hs.guarded i c' hc' (guarded_of_append hguarded ?_)).mono hlog (by simp)
        intro pinned hmem
        cases mem_singleton.1 hmem
        exact hne rfl
      · exact hfresh
  | moves i c store phase events hc hmove =>
    have hbegan : ∀ j pinned, .began j pinned ∉ events.map (ConnectEvent.call i) := by simp
    have hcall : ∀ j e, j ≠ i → .call j e ∉ events.map (ConnectEvent.call i) := by
      intro j e hne hmem
      obtain ⟨e', -, heq⟩ := mem_map.1 hmem
      cases heq
      exact hne rfl
    refine ⟨fun j c' hc' hover => ?_, fun j c' hc' hguarded => ?_⟩
    · dsimp only at hc'
      rw [getElem?_set] at hc'
      split at hc'
      · rename_i hij
        subst hij
        obtain ⟨-, ⟨⟩⟩ := ite_none_right_eq_some.1 hc'
        obtain ⟨hsafe, hopen⟩ := hs.overStream i c hc hover
        refine ⟨hsafe.move hmove (fun hclosed => absurd hclosed hopen) rfl, fun hclosed => ?_⟩
        have hfalse := KeyCall.over_of_move hmove hclosed
        rw [hover] at hfalse
        cases hfalse
      · rename_i hij
        obtain ⟨hsafe, hopen⟩ := hs.overStream j c' hc' hover
        exact ⟨hsafe.mono rfl fun e => hcall j e (Ne.symm hij), hopen⟩
    · have hguarded' := guarded_of_append hguarded (hbegan j)
      dsimp only at hc'
      rw [getElem?_set] at hc'
      split at hc'
      · rename_i hij
        subst hij
        obtain ⟨-, ⟨⟩⟩ := ite_none_right_eq_some.1 hc'
        exact (hs.guarded i c hc hguarded').move hmove
          (fun _ => refuses_of_guarded hrec hc hguarded') rfl
      · rename_i hij
        exact (hs.guarded j c' hc' hguarded').mono rfl fun e => hcall j e (Ne.symm hij)
  | loads hosts pins hhosts hunreadable | fails pins hhosts hunreadable =>
    refine ⟨fun i c hc hover => ?_, fun i c hc hguarded => ?_⟩
    · exact ⟨(hs.overStream i c hc hover).1.mono rfl (by simp), (hs.overStream i c hc hover).2⟩
    · exact (hs.guarded i c hc (guarded_of_append hguarded (by simp))).mono rfl (by simp)
  | saves store hpins =>
    refine ⟨fun i c hc hover => ?_, fun i c hc hguarded => ?_⟩
    · exact ⟨(hs.overStream i c hc hover).1.mono (append_nil _).symm (by simp),
        (hs.overStream i c hc hover).2⟩
    · exact (hs.guarded i c hc hguarded).mono (append_nil _).symm (by simp)

/-! ## Whole runs -/

theorem recorded_start (P : Suite) (files : Files) :
    Recorded P (start files) ∧ Secure P (start files) := by
  have hlog : ∀ e, e ∉ (start files).log := fun _ => not_mem_nil
  have hcalls : ∀ (i : Nat) (c : KeyCall), (start files).calls[i]? ≠ some c := by
    intro i c h
    cases h
  refine ⟨⟨fun h => absurd h (hlog _), fun _ _ h => absurd h (hlog _),
    fun _ _ h => absurd h (hlog _), fun _ h => absurd h SortedSet.not_mem_empty,
    fun _ _ h => absurd h (hlog _), fun _ _ h => absurd h (hlog _),
    fun _ _ h => absurd h (hcalls _ _), fun before after i host h => ?_⟩,
    fun _ _ h => absurd h (hcalls _ _), fun _ _ h => absurd h (hcalls _ _)⟩
  exact absurd h.symm (by simp [start])

/-- Whatever the network does and however calls interleave: a call of `connect_key` that begins
after `remember` has returned for its host, or after the store could not be read, neither starts a
classical handshake nor returns the channel of one, and no call of `connect_key_over` ever does. A
host is inserted into the pins only after a completed hybrid handshake with its key, and the pins
hold no host that was not inserted or loaded. -/
theorem no_downgrade (P : Suite) (files : Files) (actions : List ConnectAction)
    (hrun : runFrom (step P) (start files) actions = some t) :
    (∀ i, Guarded P t.log i → ∀ e : CallEvent, e.classical = true → .call i e ∉ t.log) ∧
    (∀ i c, t.calls[i]? = some c → c.overStream = true →
      ∀ e : CallEvent, e.classical = true → .call i e ∉ t.log) ∧
    (∀ before after i host, t.log = before ++ .call i (.inserted host) :: after →
      ∃ key session, host = hostText P key ∧ .call i (.completed session) ∈ before ∧
        HybridWith P session key) ∧
    (∀ host ∈ t.store.pins.hosts, (∃ i, .call i (.inserted host) ∈ t.log) ∨
      ∃ hosts, .loaded hosts ∈ t.log ∧ host ∈ hosts) ∧
    ∀ i host, .call i (.remembered host) ∈ t.log → .call i (.inserted host) ∈ t.log := by
  have hstep : ∀ s a t, Recorded P s ∧ Secure P s → step P s a = some t →
      Recorded P t ∧ Secure P t := by
    rintro s a t ⟨hrec, hsec⟩ h
    obtain h | ⟨u, hu, ht⟩ := stepped_of_step h
    · exact ⟨hrec.stepped h, hsec.stepped hrec h⟩
    · exact ⟨(hrec.stepped hu).stepped ht, (hsec.stepped hrec hu).stepped (hrec.stepped hu) ht⟩
  obtain ⟨hrec, hsec⟩ := invariant_of_step hstep (recorded_start P files) hrun
  refine ⟨fun i hguarded e he => ?_, fun i c hc hover => (hsec.overStream i c hc hover).1.events,
    hrec.proved, hrec.known, hrec.remembered⟩
  obtain ⟨before, after, key, hlog, -⟩ := id hguarded
  obtain ⟨c, hc, -⟩ := hrec.began i (some key) (by
    rw [hlog]
    exact mem_append_right _ mem_cons_self)
  exact (hsec.guarded i c hc hguarded).events e he

/-- A call completes its handshake and its host is remembered; a later one to the same host is
closed on. -/
def sampleConnects : List ConnectAction :=
  [.connectKey sampleClientIdentity (some sampleHostIdentity), .call 0 (.tcp (.ok (sampleCoins 1))),
    .call 0 (.network (.message (sampleAnswer 2))),
    .call 0 (.network (.message (sampleConfirm (sampleKeyHost 2 [.ok sampleHello])))),
    .call 0 .remember, .call 0 .returnFromRemember,
    .connectKey sampleClientIdentity (some sampleHostIdentity),
    .call 1 (.tcp (.ok (sampleCoins 4))),
    .call 1 (.network (.ioError ⟨.unexpectedEof, "early eof"⟩)), .call 1 .check]

def ConnectEvent.guards (host : List Char) : ConnectEvent → Bool
  | .call _ (.remembered host') => host' = host
  | .unreadable => true
  | _ => false

/-- Entry `n` of the log is the begin of call `i` to a host that is guarded by then. -/
def guardedAt (P : Suite) (n i : Nat) (key : FixedBytes 32) (log : List ConnectEvent) : Bool :=
  (log[n]?.any fun | .began j pinned => j = i ∧ pinned = some key | _ => false) &&
    (log.take n).any (ConnectEvent.guards (hostText P key))

theorem guarded_of_guardedAt {n : Nat} {key : FixedBytes 32} (h : guardedAt P n i key log = true) :
    Guarded P log i := by
  obtain ⟨hbegan, hguards⟩ := Bool.and_eq_true _ _ ▸ h
  obtain ⟨e, he, heq⟩ := any_eq_true _ _ |>.1 hbegan
  obtain ⟨hn, rfl⟩ := List.getElem?_eq_some_iff.1 he
  split at heq
  · rename_i j pinned hlog
    obtain ⟨rfl, rfl⟩ := of_decide_eq_true heq
    refine ⟨log.take n, log.drop (n + 1), key, ?_, ?_⟩
    · rw [← hlog, cons_getElem_drop_succ, take_append_drop]
    · obtain ⟨e, he, hguard⟩ := any_eq_true.1 hguards
      unfold ConnectEvent.guards at hguard
      split at hguard
      · rename_i k host
        exact .inl ⟨k, of_decide_eq_true hguard ▸ he⟩
      · exact .inr he
      · cases hguard
  · cases heq

theorem guarded_sampleConnects :
    ((runFrom (step smallSuite) (start .empty) sampleConnects).any fun s =>
      guardedAt smallSuite 6 1 sampleHostIdentity s.log) = true := by
  decide +kernel

theorem no_downgrade_sampleConnects :
    ∃ t, runFrom (step smallSuite) (start .empty) sampleConnects = some t ∧
      Guarded smallSuite t.log 1 ∧ ∀ e : CallEvent, e.classical = true → .call 1 e ∉ t.log := by
  obtain ⟨t, hrun, hguarded⟩ := (any_eq_true _ _).1 guarded_sampleConnects
  have hcall := guarded_of_guardedAt hguarded
  exact ⟨t, hrun, hcall, (no_downgrade smallSuite .empty sampleConnects hrun).1 1 hcall⟩

end KeyConnects

end RivetLink.Sdk
