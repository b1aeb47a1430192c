import RivetLink.Server.RelayContents

/-!
# Tunnel frames on their way through the relay

The reader task of one end of a session forwards the frames of this end to the other, one at a time.
It can lose a frame at five places: the session is no longer in the table, or it is no tunnel, or
the other end has left the map, or its queue has no room in time, or the reader is aborted. After
each of them it forwards no further frame of this session (`Severed`). So the frames that are queued
for the other end are an initial part of those that came in.
-/

namespace RivetLink.Server

open List Option RivetLink.Foundation RivetLink.Protocol

variable {τ : Type}

namespace ReaderPhase

/-- The payload of the frame of the session that the reader has in hand. -/
def inHand (id : Uuid) : ReaderPhase τ → List Bytes
  | .findingTunnel frame _ | .findingPeer frame _ | .findingClient frame _ _
  | .waiting frame _ _ _ => payloads id [(.binary frame : WsMessage τ)]
  | _ => []

/-- The reader waits for room for a frame of the session. -/
def Waits (x : ActiveSession) : ReaderPhase τ → Prop
  | .waiting _ y _ _ => y = x
  | _ => False

/-- The reader has found the other end of the session. -/
def Carries (x : ActiveSession) : ReaderPhase τ → Prop
  | .findingClient _ y _ | .waiting _ y _ _ => y = x
  | _ => False

def Sees (x : ActiveSession) : ReaderPhase τ → Prop
  | .findingPeer _ y | .findingClient _ y _ | .waiting _ y _ _ => y = x
  | _ => False

def isFree : ReaderPhase τ → Bool
  | .findingPeer _ _ | .findingClient _ _ _ | .waiting _ _ _ _ => false
  | _ => true

variable {p : ReaderPhase τ}

theorem not_sees_of_isFree (h : p.isFree = true) (x : ActiveSession) : ¬ p.Sees x := by
  cases p <;> first | exact id | cases h

variable {x : ActiveSession}

theorem sees_of_carries (h : p.Carries x) : p.Sees x := by
  cases p <;> first | exact h | exact h.elim

theorem carries_of_waits (h : p.Waits x) : p.Carries x := by
  cases p <;> first | exact h | exact h.elim

end ReaderPhase

namespace Relay

variable {C : PacketCodec τ} {accounts : Uuid → Option (Uuid × PrincipalKind)} {s t : Relay τ}
  {a : RelayAction τ} {c d : Nat} {k kd : Connection τ} {x : ActiveSession} {p q : ReaderPhase τ}

/-- A reader in phase `p` will forward no further frame of session `x` to connection `d`. -/
inductive Severed (s : Relay τ) (x : ActiveSession) (d : Nat) (p : ReaderPhase τ) : Prop
  | ended (hp : p.hasEnded = true)
  | removing {peer : Nat} {kind : PrincipalKind} (hp : p = .removing x.id peer kind)
  | gone (hx : x ∉ s.sessions) (hp : ¬ p.Carries x)
  | left {k : Connection τ} (hd : s.conns[d]? = some k) (hleft : k.Left) (hp : ¬ p.Waits x)
  | plain (hx : x.tunnel = false) (hp : ¬ p.Sees x)

/-- The frames of session `x` that connection `c` has sent come to the queue of `d` in order, up to
the first that is lost. -/
def Forwards (s : Relay τ) (x : ActiveSession) (c d : Nat) : Prop :=
  ∀ k kd : Connection τ, s.conns[c]? = some k → s.conns[d]? = some kd →
    Passes (payloads x.id k.said) (payloads x.id (kd.handed.map (·.message)))
      (k.reader.inHand x.id) (¬ Severed s x d k.reader)

theorem inHand_onMessage (id : Uuid) (message : WsMessage τ) :
    (ReaderPhase.onMessage message).inHand id = payloads id [message] := by
  cases message with
  | text m => rfl
  | binary frame =>
    -- a frame of the session passes the checks of the reader
    have hnone : ¬ Tags id frame → payloads id [(.binary frame : WsMessage τ)] = [] := by
      intro htags
      simp [payloads, WsMessage.payload, htags]
    unfold ReaderPhase.onMessage
    dsimp only
    split
    · rename_i hsize
      refine (hnone fun htags => ?_).symm
      have hsized := tunnelSized_iff.1 htags.1
      rw [sessionIdLen] at hsize
      omega
    · split
      · rfl
      · rename_i hslice
        refine (hnone fun htags => ?_).symm
        rw [sessionIdLen, htags.2, fromSlice_bytes] at hslice
        cases hslice

theorem isFree_onMessage (message : WsMessage τ) :
    (ReaderPhase.onMessage message).isFree = true := by
  cases message with
  | text m => rfl
  | binary frame =>
    unfold ReaderPhase.onMessage
    dsimp only
    split
    · rfl
    · split <;> rfl

/-! ## What stays severed -/

/-- A session that was removed does not come back. -/
theorem not_mem_sessions_step (hw : Wired C accounts s) (hx : x ∈ s.created)
    (h : s.step C accounts a = some t) (hgone : x ∉ s.sessions) : x ∉ t.sessions := by
  intro hmem
  obtain hold | ⟨m, q, hr⟩ := mem_sessions_step h hmem
  · exact hgone hold
  · exact (hw.pending x.id (by rw [hr]; rfl)).2 x hx rfl

/-- The reader goes from phase `p` to phase `q`, neither of which is the end of it. -/
theorem Severed.step (hsev : Severed s x d p) (hw : Wired C accounts s) (hx : x ∈ s.created)
    (h : s.step C accounts a = some t) (hended : p.hasEnded = true → q.hasEnded = true)
    (hremoving : ∀ peer kind, p = .removing x.id peer kind →
      q = p ∨ x ∉ t.sessions ∧ q.isFree = true)
    (hgone : x ∉ s.sessions → ¬ p.Carries x → ¬ q.Carries x)
    (hleft : (∃ k, s.conns[d]? = some k ∧ k.Left) → ¬ p.Waits x → ¬ q.Waits x)
    (hplain : x.tunnel = false → ¬ p.Sees x → ¬ q.Sees x) : Severed t x d q := by
  cases hsev with
  | ended hp => exact .ended (hended hp)
  | @removing peer kind hp =>
    obtain hsame | ⟨hnot, hfree⟩ := hremoving peer kind hp
    · exact .removing (hsame.trans hp)
    · exact .gone hnot fun hc =>
        ReaderPhase.not_sees_of_isFree hfree x (ReaderPhase.sees_of_carries hc)
  | gone hgone' hp => exact .gone (not_mem_sessions_step hw hx h hgone') (hgone hgone' hp)
  | left hd hl hp =>
    obtain ⟨k', hk', hmoves⟩ := conn_step h hd
    exact .left hk' (hmoves.left hl) (hleft ⟨_, hd, hl⟩ hp)
  | plain htunnel hp => exact .plain htunnel (hplain htunnel hp)

theorem Severed.step_same (hsev : Severed s x d p) (hw : Wired C accounts s) (hx : x ∈ s.created)
    (h : s.step C accounts a = some t) : Severed t x d p :=
  hsev.step hw hx h id (fun _ _ _ => .inl rfl) (fun _ => id) (fun _ => id) fun _ => id

/-- The reader goes on to a phase in which it has nothing to forward. -/
theorem Severed.step_free (hsev : Severed s x d p) (hw : Wired C accounts s) (hx : x ∈ s.created)
    (h : s.step C accounts a = some t) (hended : p.hasEnded = false)
    (hremoving : ∀ peer kind, p = .removing x.id peer kind → x ∉ t.sessions)
    (hfree : q.isFree = true) : Severed t x d q := by
  have hnot := ReaderPhase.not_sees_of_isFree hfree x
  refine hsev.step hw hx h (fun hp => ?_)
    (fun peer kind hp => .inr ⟨hremoving peer kind hp, hfree⟩)
    (fun _ _ hc => hnot (ReaderPhase.sees_of_carries hc))
    (fun _ _ hp => hnot (ReaderPhase.sees_of_carries (ReaderPhase.carries_of_waits hp)))
    fun _ _ => hnot
  rw [hended] at hp
  cases hp

/-! ## One step -/

/-- The ends of a session are two connections. -/
theorem peerConn_inj (hw : Wired C accounts s) (hx : x ∈ s.created) {c' : Nat}
    (hc : x.peerConn c = some d) (hc' : x.peerConn c' = some d) : c' = c := by
  have hne : x.initiatorConn ≠ x.deviceConn := by
    intro heq
    have hfits := hw.created x hx
    have hsame := hfits.initiator
    rw [heq, hfits.device, some.injEq, AuthOutcome.mk.injEq] at hsame
    cases hsame.2.2
  unfold ActiveSession.peerConn at hc hc'
  split at hc <;> split at hc' <;> simp_all

theorem exists_ends (hw : Wired C accounts s) (hx : x ∈ s.created) (hpeer : x.peerConn c = some d) :
    (∃ k, s.conns[c]? = some k) ∧ ∃ kd, s.conns[d]? = some kd := by
  have hfits := hw.created x hx
  obtain ⟨ki, hki, -⟩ := map_eq_some_iff.1 hfits.initiator
  obtain ⟨kd, hkd, -⟩ := map_eq_some_iff.1 hfits.device
  have hends : ∀ e, x.joins e = true → ∃ k, s.conns[e]? = some k := by
    intro e he
    obtain rfl | rfl := ActiveSession.joins_iff.1 he
    · exact ⟨ki, hki⟩
    · exact ⟨kd, hkd⟩
  have hjoins := ActiveSession.joins_of_peerConn hpeer
  exact ⟨hends c hjoins.1, hends d hjoins.2⟩

variable {frame : Bytes}

theorem Tags.payloads_of_ne {id id' : Uuid} (htags : Tags id frame) (hne : id' ≠ id) :
    payloads id' [(.binary frame : WsMessage τ)] = [] := by
  rw [htags.payloads_eq, if_neg hne]

/-- The reader of another connection queues no frame of the session for `d`. -/
theorem payloads_of_origin (hc : Contents C accounts s) (hx : x ∈ s.created)
    (hpeer : x.peerConn c = some d) {e : Delivery τ} (ho : Origin C s d a e)
    (hreads : a.reads c = false) : payloads x.id [e.message] = [] := by
  cases ho with
  | @frame c' k' frame y kind hk hr =>
    have hfits := (hc.wired.conns c' k' hk).reader
    have htags := hc.tagged.readers c' k' hk
    rw [hr] at hfits htags
    refine Tags.payloads_of_ne htags fun hid => ?_
    obtain rfl := hc.wired.unique x hx y hfits.2.1 hid
    have hne : c' ≠ c := of_decide_eq_false hreads
    exact hne (peerConn_inj hc.wired hx hpeer hfits.2.2.1)
  | _ => rfl

/-- A step in which the reader of `c` comes to phase `q` and no frame of the session is queued for
`d`. The reader keeps what it has in hand and takes what arrives, or forwards no further frame. -/
theorem Forwards.of_step (hf : Forwards s x c d) (hc : Contents C accounts s)
    (hx : x ∈ s.created) (hpeer : x.peerConn c = some d) (h : s.step C accounts a = some t)
    (hk : s.conns[c]? = some k) (hreader : ∀ k', t.conns[c]? = some k' → k'.reader = q)
    (hnone : ∀ e, Origin C s d a e → payloads x.id [e.message] = [])
    (hhand : q.inHand x.id = k.reader.inHand x.id ++ payloads x.id (a.utters c) ∨ Severed t x d q)
    (hsev : Severed s x d k.reader → Severed t x d q) : Forwards t x c d := by
  intro k' kd' hk' hkd'
  obtain ⟨-, kd, hkd⟩ := exists_ends hc.wired hx hpeer
  obtain ⟨k₁, hk₁, hmoves⟩ := conn_step h hk
  obtain ⟨kd₁, hkd₁, hdmoves⟩ := conn_step h hkd
  cases hk'.symm.trans hk₁
  cases hkd'.symm.trans hkd₁
  have hhanded : payloads x.id (kd'.handed.map (·.message)) =
      payloads x.id (kd.handed.map (·.message)) := by
    obtain hsame | ⟨e, ho, hnew⟩ := hdmoves.handed
    · rw [hsame]
    · rw [hnew, map_append, payloads_append, map_singleton, hnone e ho, append_nil]
  rw [hmoves.said, payloads_append, hhanded, hreader k' hk']
  obtain hsame | hstop := hhand
  · rw [hsame]
    exact ((hf k kd hk hkd).take _).mono fun hnot hs => hnot (hsev hs)
  · exact (hf k kd hk hkd).ignore (fun hnot => hnot hstop) _ _

variable {y : ActiveSession}

/-- What the reader of `c` looks at, in terms of the session `x`. -/
theorem eq_of_id (hw : Wired C accounts s) (hx : x ∈ s.created) (hy : y ∈ s.created)
    (hid : x.id = y.id) : y = x :=
  (hw.unique x hx y hy hid).symm

theorem Severed.of_findSession (hw : Wired C accounts s) (hx : x ∈ s.created)
    (h : s.step C accounts a = some t) (hfind : s.findSession x.id = none) (hp : p.isFree = true) :
    Severed t x d p :=
  .gone (not_mem_sessions_step hw hx h fun hmem => findSession_ne_none hmem hfind) fun hcarries =>
    ReaderPhase.not_sees_of_isFree hp x (ReaderPhase.sees_of_carries hcarries)

/-- A registered connection that has begun and is not in the map has left it. -/
theorem left_of_getClient (hkd : s.conns[d]? = some kd) (hbegun : s.Begun d)
    (hnone : s.getClient d = none) : kd.Left := by
  obtain ⟨k', hk', hb⟩ := hbegun
  cases hkd.symm.trans hk'
  refine ⟨?_, hb⟩
  have hregistered := isSome_getClient hkd
  rw [hnone, isSome_none] at hregistered
  exact hregistered.symm

theorem begun_of_peerConn (hc : Contents C accounts s) (hx : x ∈ s.created)
    (hpeer : x.peerConn c = some d) : s.Begun d := by
  obtain rfl | rfl := ActiveSession.joins_iff.1 (ActiveSession.joins_of_peerConn hpeer).2
  · obtain ⟨m, _, _, _, _, hm, _⟩ := (hc.wired.created x hx).asked
    obtain ⟨k, hk, -⟩ := map_eq_some_iff.1 (hc.wired.created x hx).initiator
    refine ⟨k, hk, hc.started.said _ k hk fun hnil => ?_⟩
    simp [facts, hk, hnil] at hm
  · exact hc.started.device x hx

variable {ok : Bool}

theorem Forwards.deliver {peer : Nat} {kind : PrincipalKind} (hf : Forwards s x c d)
    (hc : Contents C accounts s) (hx : x ∈ s.created) (hpeer : x.peerConn c = some d)
    (h : s.step C accounts (.reader c ok) = some t) (hk : s.conns[c]? = some k)
    (hp : k.reader = .waiting frame y peer kind)
    (ht : t = (s.push peer ⟨.binary frame, some (y, c)⟩).setReader c .reading) :
    Forwards t x c d := by
  have hfits := (hc.wired.conns c k hk).reader
  have htags := hc.tagged.readers c k hk
  rw [hp] at hfits htags
  by_cases hid : x.id = y.id
  · -- the frame is one of this session
    obtain rfl := eq_of_id hc.wired hx hfits.2.1 hid
    obtain rfl : peer = d := some.inj (hfits.2.2.1.symm.trans hpeer)
    have hactive : ¬ Severed s y peer k.reader := by
      rw [hp]
      intro hsev
      cases hsev with
      | ended hp | removing hp => cases hp
      | gone _ hp | left _ _ hp | plain _ hp => exact hp rfl
    intro k' kd' hk' hkd'
    obtain ⟨-, kd, hkd⟩ := exists_ends hc.wired hx hpeer
    obtain ⟨k₁, hk₁, hmoves⟩ := conn_step h hk
    cases hk'.symm.trans hk₁
    have hpush : (s.push peer ⟨.binary frame, some (y, c)⟩).conns[peer]? =
        some (kd.hand ⟨.binary frame, some (y, c)⟩) := getElem_modifyConn_self hkd
    obtain ⟨kd₁, hkd₁, hstill⟩ := AllStill.setReader (c := c) .reading peer _ hpush
    have hreader : k'.reader = .reading := by
      rw [ht] at hk'
      exact reader_of_setReader hk'
    have hhanded : kd'.handed = kd.handed ++ [⟨.binary frame, some (y, c)⟩] := by
      rw [ht] at hkd'
      cases hkd'.symm.trans hkd₁
      exact hstill.handed
    have hsaid : k'.said = k.said := by rw [hmoves.said]; exact append_nil _
    have hpasses := hf k kd hk hkd
    rw [hsaid, hhanded, hreader, map_append, payloads_append]
    refine (Passes.give ?_ hactive).mono fun _ => hactive
    have hinHand : payloads y.id
        (([⟨.binary frame, some (y, c)⟩] : List (Delivery τ)).map (·.message)) ++
        (ReaderPhase.reading : ReaderPhase τ).inHand y.id = k.reader.inHand y.id := by
      rw [hp]
      exact append_nil _
    rw [hinHand]
    exact hpasses
  · have hother : payloads x.id [(.binary frame : WsMessage τ)] = [] :=
      Tags.payloads_of_ne htags hid
    have hreader : ∀ k', t.conns[c]? = some k' → k'.reader = .reading := by
      rw [ht]
      exact fun k' hk' => reader_of_setReader hk'
    refine hf.of_step hc hx hpeer h hk hreader (fun e ho => ?_) (.inl ?_) fun hsev => ?_
    · cases ho with
      | frame hk₁ hr =>
        cases hk.symm.trans hk₁
        rw [hp] at hr
        cases hr
        exact hother
    · rw [hp]
      exact (append_nil _).trans hother |>.symm
    · rw [hp] at hsev
      exact hsev.step_free hc.wired hx h rfl nofun rfl

theorem Forwards.stepReader (hf : Forwards s x c d) (hc : Contents C accounts s)
    (hx : x ∈ s.created) (hpeer : x.peerConn c = some d)
    (h : s.step C accounts (.reader c ok) = some t) (hk : s.conns[c]? = some k)
    (hmove : ReaderMove s c k ok t) : Forwards t x c d := by
  have hfits := (hc.wired.conns c k hk).reader
  have htags := hc.tagged.readers c k hk
  -- a reader that does not wait queues nothing
  have hnone : ∀ {p : ReaderPhase τ}, k.reader = p → (∀ y, ¬ p.Waits y) →
      ∀ e, Origin C s d (.reader c ok) e → payloads x.id [e.message] = [] := by
    intro p hp hwaits e ho
    cases ho with
    | frame hk₁ hr =>
      cases hk.symm.trans hk₁
      cases hp.symm.trans hr
      exact (hwaits _ rfl).elim
  have hreader : ∀ {q : ReaderPhase τ}, (∃ u : Relay τ, t = u.setReader c q) →
      ∀ k', t.conns[c]? = some k' → k'.reader = q := by
    rintro q ⟨u, rfl⟩ k' hk'
    exact reader_of_setReader hk'
  -- the reader goes on with the frame that it has in hand
  have hkeep : ∀ {p q : ReaderPhase τ}, k.reader = p → (∃ u : Relay τ, t = u.setReader c q) →
      (∀ y, ¬ p.Waits y) → q.inHand x.id = p.inHand x.id →
      (Severed s x d p → Severed t x d q) → Forwards t x c d := by
    rintro p q rfl hq hwaits hsame
    exact hf.of_step hc hx hpeer h hk (hreader hq) (hnone rfl hwaits)
      (.inl (hsame.trans (append_nil _).symm))
  -- the reader goes on with nothing to forward
  have hgo : ∀ {p q : ReaderPhase τ}, k.reader = p → (∃ u : Relay τ, t = u.setReader c q) →
      (∀ e, Origin C s d (.reader c ok) e → payloads x.id [e.message] = []) →
      q.inHand x.id = p.inHand x.id ∨ Severed t x d q → p.hasEnded = false →
      (∀ peer kind, p = .removing x.id peer kind → x ∉ t.sessions) → q.isFree = true →
      Forwards t x c d := by
    rintro p q rfl hq hnone hhand hended hremoving hfree
    refine hf.of_step hc hx hpeer h hk (hreader hq) hnone (hhand.imp_left fun hsame => ?_)
      fun hsev => hsev.step_free hc.wired hx h hended hremoving hfree
    exact hsame.trans (append_nil _).symm
  -- the reader loses its frame, which matters if it is one of this session
  have hlost : ∀ {id : Uuid} {frame : Bytes} {q : ReaderPhase τ}, Tags id frame →
      q.inHand x.id = [] → (x.id = id → Severed t x d q) →
      q.inHand x.id = payloads x.id [(.binary frame : WsMessage τ)] ∨ Severed t x d q := by
    intro id frame q htags hafter hstop
    by_cases hid : x.id = id
    · exact .inr (hstop hid)
    · rw [hafter, Tags.payloads_of_ne htags hid]
      exact .inl rfl
  cases hmove with
  | @send m hp hroom =>
    exact hgo (q := .reading) hp ⟨{ s with signaling := s.signaling ++ [⟨c, k.client, m⟩] }, rfl⟩
      (hnone hp fun _ => id) (.inl rfl) rfl nofun rfl
  | @noTunnel frame sid hp hnot =>
    rw [hp] at htags
    refine hgo hp ⟨_, rfl⟩ (hnone hp fun _ => id) (hlost htags rfl fun hid => ?_) rfl nofun rfl
    subst hid
    cases hfind : s.findSession x.id with
    | none => exact .of_findSession hc.wired hx h hfind rfl
    | some y =>
      obtain ⟨hy, hyid⟩ := mem_of_findSession hfind
      obtain rfl := eq_of_id hc.wired hx (hc.wired.sessions y hy) hyid.symm
      exact .plain (hnot y hfind) id
  | @tunnel frame sid y hp hfind htunnel =>
    refine hkeep hp ⟨_, rfl⟩ (fun _ => id) rfl fun hsev => ?_
    refine hsev.step hc.wired hx h nofun nofun (fun _ _ hcarries => hcarries)
      (fun _ _ hwaits => hwaits) fun hplain _ hsees => ?_
    rw [show y = x from hsees, hplain] at htunnel
    cases htunnel
  | @noPeer frame seen hp hnot =>
    rw [hp] at htags
    refine hgo hp ⟨_, rfl⟩ (hnone hp fun _ => id) (hlost htags rfl fun hid => ?_) rfl nofun rfl
    cases hfind : s.findSession x.id with
    | none => exact .of_findSession hc.wired hx h hfind rfl
    | some y =>
      obtain ⟨hy, hyid⟩ := mem_of_findSession hfind
      obtain rfl := eq_of_id hc.wired hx (hc.wired.sessions y hy) hyid.symm
      rw [hid] at hfind
      rw [hnot y hfind] at hpeer
      cases hpeer
  | @peer frame seen y peer hp hfind hpeer' =>
    rw [hp] at hfits
    obtain ⟨hy, hyid⟩ := mem_of_findSession hfind
    refine hkeep hp ⟨_, rfl⟩ (fun _ => id) rfl fun hsev => ?_
    refine hsev.step hc.wired hx h nofun nofun
      (fun hgone _ hcarries => hgone ((show y = x from hcarries) ▸ hy)) (fun _ _ => id)
      fun _ hnot hsees => hnot ?_
    have hyx : y = x := hsees
    exact eq_of_id hc.wired hx hfits.2 (by rw [← hyx, hyid])
  | @noClient frame y peer hp hclient =>
    rw [hp] at htags hfits
    refine hgo hp ⟨_, rfl⟩ (hnone hp fun _ => id) (hlost htags rfl fun hid => ?_) rfl nofun rfl
    obtain rfl := eq_of_id hc.wired hx hfits.2.1 hid
    obtain rfl : peer = d := some.inj (hfits.2.2.symm.trans hpeer)
    obtain ⟨-, kd, hkd⟩ := exists_ends hc.wired hx hpeer
    have hleft := left_of_getClient hkd (begun_of_peerConn hc hx hpeer) hclient
    obtain ⟨kd', hkd', hmoves⟩ := conn_step h hkd
    exact .left hkd' (hmoves.left hleft) id
  | @client frame y peer k₁ hp hclient =>
    rw [hp] at hfits
    refine hkeep hp ⟨_, rfl⟩ (fun _ => id) rfl fun hsev => ?_
    refine hsev.step hc.wired hx h nofun nofun (fun _ => id) (fun hleft _ hwaits => ?_)
      fun _ => id
    -- a connection that has left is not in the map
    obtain rfl : y = x := hwaits
    obtain rfl : peer = d := some.inj (hfits.2.2.symm.trans hpeer)
    obtain ⟨kd, hkd, hl⟩ := hleft
    obtain ⟨hk₁, hregistered⟩ := getClient_eq_some.1 hclient
    cases hkd.symm.trans hk₁
    rw [hl.1] at hregistered
    cases hregistered
  | deliver hp hok hroom => exact hf.deliver hc hx hpeer h hk hp rfl
  | @giveUp frame y peer kind hp hok =>
    rw [hp] at htags hfits
    subst hok
    refine hgo hp ⟨_, rfl⟩ nofun (hlost htags rfl fun hid => ?_) rfl nofun rfl
    obtain rfl := eq_of_id hc.wired hx hfits.2.1 hid
    exact .removing rfl
  | @remove sid peer kind y hp hfind =>
    refine hgo hp ⟨_, rfl⟩ (hnone hp fun _ => id) (.inl rfl) rfl
      (fun peer' kind' hp' hmem => ?_) rfl
    cases hp'
    simpa using (mem_filter.1 hmem).2
  | @gone sid peer kind hp hfind =>
    refine hgo hp ⟨_, rfl⟩ (hnone hp fun _ => id) (.inl (by cases kind <;> rfl)) rfl
      (fun peer' kind' hp' hmem => ?_) (by cases kind <;> rfl)
    cases hp'
    exact findSession_ne_none hmem hfind
  | @notified peer kind hp =>
    exact hgo hp ⟨_, rfl⟩ (hnone hp fun _ => id) (.inl (by cases kind <;> rfl)) rfl nofun
      (by cases kind <;> rfl)
  | notify hp | drop hp =>
    exact hgo hp ⟨_, rfl⟩ (hnone hp fun _ => id) (.inl rfl) rfl nofun rfl

/-- Every step keeps the frames in order. -/
theorem Forwards.step (hf : Forwards s x c d) (hc : Contents C accounts s) (hx : x ∈ s.created)
    (hpeer : x.peerConn c = some d) (h : s.step C accounts a = some t) : Forwards t x c d := by
  obtain ⟨⟨k, hk⟩, -⟩ := exists_ends hc.wired hx hpeer
  cases hreads : a.reads c with
  | false =>
    have hquiet : a.utters c = [] := by
      cases a with
      | receive c' message => exact if_neg (of_decide_eq_false hreads)
      | _ => rfl
    refine hf.of_step hc hx hpeer h hk (q := k.reader) (fun k' hk' => ?_)
      (fun e ho => payloads_of_origin hc hx hpeer ho hreads) (.inl ?_) fun hsev =>
      hsev.step_same hc.wired hx h
    · obtain ⟨k₁, hk₁, hmoves⟩ := conn_step h hk
      cases hk'.symm.trans hk₁
      exact hmoves.reader hreads
    · rw [hquiet]
      exact (append_nil _).symm
  | true =>
    cases step_iff.1 h with
    | @receive c' k₀ message hk₀ hreading hbegun =>
      obtain rfl : c' = c := of_decide_eq_true hreads
      cases hk.symm.trans hk₀
      refine hf.of_step hc hx hpeer h hk (q := .onMessage message) (fun k' hk' => ?_)
        (fun e ho => by cases ho) (.inl ?_) fun hsev => ?_
      · rw [getElem_modifyConn_self hk, some.injEq] at hk'
        rw [← hk']
      · rw [hreading, inHand_onMessage, RelayAction.utters, if_pos rfl]
        rfl
      · rw [hreading] at hsev
        exact hsev.step_free hc.wired hx h rfl (fun _ _ hr => by cases hr)
          (isFree_onMessage message)
    | @reader c' k₀ ok t hk₀ hmove =>
      obtain rfl : c' = c := of_decide_eq_true hreads
      exact hf.stepReader hc hx hpeer h hk₀ hmove
    | @readerEnds c' k₀ hk₀ hr =>
      obtain rfl : c' = c := of_decide_eq_true hreads
      exact hf.of_step hc hx hpeer h hk (fun k' hk' => reader_of_setReader hk')
        (fun e ho => by cases ho) (.inr (.ended rfl)) fun _ => .ended rfl
    | _ => cases hreads

/-- At first the sender has sent no frame of a new session, and none has been queued. -/
theorem forwards_of_fresh (hc : Contents C accounts s) (hconns : t.conns = s.conns)
    (hfresh : ∀ y ∈ s.created, y.id ≠ x.id)
    (hsaid : ∀ k : Connection τ, s.conns[c]? = some k → payloads x.id k.said = []) :
    Forwards t x c d := by
  intro k kd hk hkd
  rw [hconns] at hk hkd
  have hhanded : payloads x.id (kd.handed.map (·.message)) = [] := by
    refine payloads_eq_nil fun frame hframe htags => ?_
    obtain ⟨e, he, hmessage⟩ := mem_map.1 hframe
    have htagged := hc.tagged.handed d kd hkd e he
    have hfits := (hc.wired.conns d kd hkd).handed e he
    unfold Delivery.Tagged at htagged
    rw [hmessage] at htagged
    cases hthrough : e.through with
    | none =>
      rw [hthrough] at htagged
      exact htagged
    | some through =>
      obtain ⟨y, sender⟩ := through
      rw [hthrough] at htagged
      exact hfresh y (hfits y sender hthrough).1 (htagged.eq htags)
  have hhand : k.reader.inHand x.id = [] := by
    have hnone : ∀ frame, .binary frame ∈ s.facts.said c →
        payloads x.id [(.binary frame : WsMessage τ)] = [] := by
      intro frame hframe
      simp only [facts, hk, map_some, getD_some] at hframe
      refine payloads_eq_nil fun frame' hframe' htags => ?_
      cases mem_singleton.1 hframe'
      have hmem : frame.drop 16 ∈ payloads x.id k.said :=
        mem_filterMap.2 ⟨_, hframe, if_pos htags⟩
      rw [hsaid k hk] at hmem
      cases hmem
    have hfits := (hc.wired.conns c k hk).reader
    cases hr : k.reader with
    | findingTunnel frame id =>
      rw [hr] at hfits
      exact hnone frame hfits
    | findingPeer frame | findingClient frame | waiting frame =>
      rw [hr] at hfits
      exact hnone frame hfits.1
    | _ => rfl
  rw [hsaid k hk, hhanded, hhand]
  exact .nil _

end Relay

end RivetLink.Server
