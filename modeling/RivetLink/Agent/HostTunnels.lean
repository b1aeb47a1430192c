import RivetLink.Agent.RelayHost
import RivetLink.Foundation.Slots

/-!
# What the host keeps

The frames that the loop of `run_host_tunnels` reads for a tunnel come to the session in order, up
to the first that is lost, and the chunks that the session writes are queued in order as frames of
its tunnel. This needs that a host is asked for each session at most once; otherwise a second tunnel
with the same id would take the frames of the first and mix its own with them.
-/

namespace RivetLink.Agent

open List Option RivetLink.Foundation RivetLink.Protocol RivetLink.Sdk

variable {τ η : Type}

def requests (C : PacketCodec τ) (l : List (WsMessage τ)) : List (Uuid × Bool) :=
  l.filterMap (·.request C)

theorem requests_append (C : PacketCodec τ) (l : List (WsMessage τ)) (m : WsMessage τ) :
    requests C (l ++ [m]) = requests C l ++ (m.request C).toList := by
  rw [requests, filterMap_append, requests]
  cases hm : m.request C with
  | none | some r => simp [hm]

namespace TunnelHost

/-- The frames of tunnel `i` are in order. -/
structure TunnelOk (h : TunnelHost η τ) (i : Nat) (t : HostTunnel) : Prop where
  pump : t.pump.Ok
  feeds : t.pump.Feeds (payloads t.id h.box.queued)
  enters : Passes (payloads t.id (h.heard.drop t.since)) t.entered (h.phase.inHand i)
    (h.inbound t.id = some i)
  drains : t.pump.Drains t.entered t.inbox
  since : t.since ≤ h.heard.length

/-- The text is queued, or about to be. -/
def Says (h : TunnelHost η τ) (t : τ) : Prop :=
  .text t ∈ h.box.queued ∨ ∃ texts, h.phase = .replying texts ∧ t ∈ texts

structure Ok (C : PacketCodec τ) (h : TunnelHost η τ) : Prop where
  box : h.box.Ok
  unique : (h.tunnels.map (·.id)).Nodup
  requested : ∀ t ∈ h.tunnels, (t.id, true) ∈ requests C h.heard
  inbound : ∀ id i, h.inbound id = some i → ∃ t, h.tunnels[i]? = some t ∧ t.id = id
  delivering : ∀ id i payload, h.phase = .delivering id i payload → h.inbound id = some i
  tunnels : ∀ i t, h.tunnels[i]? = some t → h.TunnelOk i t
  frames : ∀ frame, .binary frame ∈ h.box.queued →
    ∃ t ∈ h.tunnels, (∃ b ∈ t.pump.built, frame = tunnelFrame t.id b) ∧ Tags t.id frame
  accepted : ∀ t, h.Says t → ∀ id role, C.parse t = some (.sessionAccepted id role) →
    (∃ u ∈ h.tunnels, u.id = id) ∨ (id, false) ∈ requests C h.heard

variable {C : PacketCodec τ} {H : HostHandler η} {maxTunnels : Nat} {h h' : TunnelHost η τ}
  {m : WsMessage τ} {a : HostAction} {i j : Nat} {t t' : HostTunnel} {id : Uuid} {p : HostPhase τ}
  {r : Uuid × Bool}

theorem Ok.eq_of_id (hok : Ok C h) (hi : h.tunnels[i]? = some t) (hj : h.tunnels[j]? = some t')
    (hid : t.id = t'.id) : i = j := by
  have hlen : i < (h.tunnels.map (·.id)).length := by
    rw [length_map]
    exact lt_of_slot hi
  refine (getElem?_inj hlen hok.unique).1 ?_
  rw [getElem?_map, getElem?_map, hi, hj, map_some, map_some, hid]

theorem new_ok (C : PacketCodec τ) (H : HostHandler η) : Ok C (TunnelHost.new H) where
  box := .nil _
  unique := nodup_nil
  requested _ ht := by cases ht
  inbound _ _ hi := by cases hi
  delivering _ _ _ hp := by cases hp
  tunnels _ _ ht := by cases ht
  frames _ hf := by cases hf
  accepted t ht := by
    obtain ht | ⟨texts, htexts, -⟩ := ht
    · cases ht
    · cases htexts

/-- The tunnels, with how much of what was read they have missed. -/
def marks (h : TunnelHost η τ) : List (Uuid × Nat) := h.tunnels.map fun t => (t.id, t.since)

theorem mem_marks {since : Nat} :
    (id, since) ∈ h.marks ↔ ∃ t ∈ h.tunnels, t.id = id ∧ t.since = since := by
  simp only [marks, List.mem_map, Prod.mk.injEq]

/-- Only `next` reads from the socket, and what was sent stays sent. -/
structure Keeps (h h' : TunnelHost η τ) : Prop where
  marks : h'.marks = h.marks
  heard : h'.heard = h.heard
  sent : h.box.sent <+: h'.box.sent

/-! ## Changes that steps are made of -/

/-- Tunnel `i` becomes `t'`, with the same id, and what is queued besides is a frame of it. -/
theorem Ok.change (hok : Ok C h) (t' : HostTunnel) (hi : h.tunnels[i]? = some t)
    (hid : t'.id = t.id)
    (hbuilt : ∀ b ∈ t.pump.built, b ∈ t'.pump.built)
    (htunnels : h'.tunnels = (h.setTunnel i t').tunnels) (hinbound : h'.inbound = h.inbound)
    (hheard : h'.heard = h.heard) (hbox : h'.box.Ok)
    (hdelivering : ∀ id j payload, h'.phase = .delivering id j payload → h.phase = h'.phase)
    (hself : h'.TunnelOk i t')
    (hother : ∀ j u, i ≠ j → h.tunnels[j]? = some u → h'.TunnelOk j u)
    (hframes : ∀ frame, .binary frame ∈ h'.box.queued → .binary frame ∈ h.box.queued ∨
      (∃ b ∈ t'.pump.built, frame = tunnelFrame t'.id b) ∧ Tags t'.id frame)
    (hsaid : ∀ s, h'.Says s → h.Says s) : Ok C h' := by
  refine ⟨hbox, ?_, ?_, ?_, ?_, ?_, ?_, ?_⟩
  · rw [htunnels, TunnelHost.setTunnel, map_set_slot hi hid]
    exact hok.unique
  · intro u hu
    rw [htunnels] at hu
    rw [hheard]
    obtain ⟨j, hj⟩ := getElem?_of_mem hu
    obtain ⟨rfl, rfl⟩ | ⟨-, hj⟩ := of_slot_set hj
    · rw [hid]
      exact hok.requested t (mem_of_getElem? hi)
    · exact hok.requested u (mem_of_getElem? hj)
  · intro id' j hj
    rw [hinbound] at hj
    obtain ⟨u, hu, huid⟩ := hok.inbound id' j hj
    rw [htunnels]
    by_cases hij : i = j
    · subst hij
      cases hi.symm.trans hu
      refine ⟨t', ?_, hid.trans huid⟩
      rw [TunnelHost.setTunnel, slot_set hi]
    · refine ⟨u, ?_, huid⟩
      rw [TunnelHost.setTunnel, getElem?_set_ne hij, hu]
  · intro id' j payload hphase
    rw [hinbound]
    exact hok.delivering id' j payload ((hdelivering id' j payload hphase).trans hphase)
  · intro j u hu
    rw [htunnels] at hu
    obtain ⟨rfl, rfl⟩ | ⟨hij, hu⟩ := of_slot_set hu
    · exact hself
    · exact hother j u (Ne.symm hij) hu
  · intro frame hframe
    rw [htunnels]
    obtain hframe | hframe := hframes frame hframe
    · obtain ⟨u, hu, ⟨b, hb, hframe⟩, htags⟩ := hok.frames frame hframe
      obtain rfl | hu := mem_set_of_mem t' hi hu
      · exact ⟨t', mem_set_self hi, ⟨b, hbuilt b hb, hid ▸ hframe⟩, hid ▸ htags⟩
      · exact ⟨u, hu, ⟨b, hb, hframe⟩, htags⟩
    · exact ⟨t', mem_set_self hi, hframe⟩
  · intro s hs id' role hp
    rw [htunnels, hheard]
    obtain ⟨u, hu, huid⟩ | hrequest := hok.accepted s (hsaid s hs) id' role hp
    · obtain rfl | hu := mem_set_of_mem t' hi hu
      · exact .inl ⟨t', mem_set_self hi, hid.trans huid⟩
      · exact .inl ⟨u, hu, huid⟩
    · exact .inr hrequest

/-- A tunnel changes and keeps its id. -/
theorem Ok.setTunnel (hok : Ok C h) (hi : h.tunnels[i]? = some t) (hid : t'.id = t.id)
    (hbuilt : ∀ b ∈ t.pump.built, b ∈ t'.pump.built) (ht' : h.TunnelOk i t') :
    Ok C (h.setTunnel i t') :=
  hok.change _ hi hid hbuilt rfl rfl rfl hok.box (fun _ _ _ _ => rfl) { ht' with }
    (fun j u _ hu => { hok.tunnels j u hu with }) (fun _ => .inl) fun _ hs => hs

/-- A text is queued that accepts no session. -/
theorem Ok.queue_text (hok : Ok C h) {s : τ}
    (hs : ∀ id role, C.parse s = some (.sessionAccepted id role) →
      (∃ u ∈ h.tunnels, u.id = id) ∨ (id, false) ∈ requests C h.heard) :
    Ok C (h.queue (.text s)) :=
  { hok with
    box := hok.box.push _
    tunnels := fun j u hu =>
      { hok.tunnels j u hu with
        feeds := by
          change u.pump.Feeds (payloads u.id (h.box.queued ++ [.text s]))
          rw [payloads_append, payloads_text, append_nil]
          exact (hok.tunnels j u hu).feeds }
    frames := fun frame hframe => by
      obtain hframe | hframe := mem_append.1 hframe
      · exact hok.frames frame hframe
      · cases mem_singleton.1 hframe
    accepted := fun s' hs' id' role hp => by
      obtain hs' | hs' := hs'
      · obtain hs' | hs' := mem_append.1 hs'
        · exact hok.accepted s' (.inl hs') id' role hp
        · cases mem_singleton.1 hs'
          exact hs id' role hp
      · exact hok.accepted s' (.inr hs') id' role hp }

/-- The loop goes on to another phase, with nothing in hand before or after. -/
theorem Ok.setPhase (hok : Ok C h) (hbefore : ∀ i, h.phase.inHand i = [])
    (hafter : ∀ i, p.inHand i = []) (hp : ∀ id i payload, p ≠ .delivering id i payload)
    (haccepted : ∀ texts, p = .replying texts → ∀ s ∈ texts, ∀ id role,
      C.parse s = some (.sessionAccepted id role) →
        (∃ u ∈ h.tunnels, u.id = id) ∨ (id, false) ∈ requests C h.heard) :
    Ok C { h with phase := p } :=
  { hok with
    delivering := fun id i payload heq => absurd heq (hp id i payload)
    tunnels := fun j u hu =>
      { hok.tunnels j u hu with
        enters := by
          change Passes _ _ (p.inHand j) _
          rw [hafter, ← hbefore j]
          exact (hok.tunnels j u hu).enters }
    accepted := fun s hs => by
      obtain hs | ⟨texts, htexts, hs⟩ := hs
      · exact hok.accepted s (.inl hs)
      · exact haccepted texts htexts s hs }

/-- A tunnel is dropped from `inbound`, and what the loop had in hand for it is lost. -/
theorem Ok.unlink (hok : Ok C h) (hp : p = .reading) (id : Uuid)
    (hhand : ∀ j u, h.tunnels[j]? = some u → u.id ≠ id → h.phase.inHand j = []) :
    Ok C { h with phase := p, inbound := Function.update h.inbound id none } := by
  subst hp
  refine { hok with inbound := ?_, delivering := ?_, tunnels := ?_, accepted := ?_ }
  · intro id' j hj
    by_cases hid : id' = id
    · subst hid
      have hnone : Function.update h.inbound id' none id' = none := Function.update_self ..
      cases hnone.symm.trans hj
    · exact hok.inbound id' j ((Function.update_of_ne hid ..).symm.trans hj)
  · intro _ _ _ heq
    cases heq
  · intro j u hu
    have henters := (hok.tunnels j u hu).enters
    refine { hok.tunnels j u hu with enters := ?_ }
    by_cases hid : u.id = id
    · refine henters.stop (fun hlink => ?_) []
      subst hid
      have hnone : Function.update h.inbound u.id none u.id = none := Function.update_self ..
      cases hnone.symm.trans hlink
    · rw [hhand j u hu hid] at henters
      exact henters.mono fun hlink => (Function.update_of_ne hid ..).symm.trans hlink
  · intro s hs
    obtain hs | ⟨texts, htexts, -⟩ := hs
    · exact hok.accepted s (.inl hs)
    · cases htexts

/-! ## Tasks of tunnels -/

/-- The chunk in hand of tunnel `i` is queued as a frame. -/
theorem Ok.send (hok : Ok C h) (hi : h.tunnels[i]? = some t) {chunk : Bytes}
    (hhand : t.pump.hand = some chunk) :
    Ok C ((h.setTunnel i { t with pump := t.pump.release }).queue
      (.binary (tunnelFrame t.id chunk))) := by
  have ht := hok.tunnels i t hi
  obtain ⟨-, hbuilt⟩ := ht.pump.hand chunk hhand
  obtain ⟨hne, hmax⟩ := ht.pump.sized chunk hbuilt
  have htags : Tags t.id (tunnelFrame t.id chunk) := tags_tunnelFrame hne hmax
  have hqueued : ∀ id', payloads id' (h.box.queued ++ [.binary (tunnelFrame t.id chunk)]) =
      payloads id' h.box.queued ++ if id' = t.id then [chunk] else [] := by
    intro id'
    rw [payloads_append, htags.payloads_eq, drop_tunnelFrame]
  refine hok.change { t with pump := t.pump.release } hi rfl (fun _ hb => hb) rfl rfl rfl
    (hok.box.push _) (fun _ _ _ _ => rfl) ?_ ?_ ?_ ?_
  · refine ⟨ht.pump.release, ?_, ht.enters, ht.drains, ht.since⟩
    change t.pump.release.Feeds (payloads t.id (h.box.queued ++ _))
    rw [hqueued, if_pos rfl]
    exact ht.feeds.release ht.pump hhand
  · intro j u hij hu
    have hu' := hok.tunnels j u hu
    refine ⟨hu'.pump, ?_, hu'.enters, hu'.drains, hu'.since⟩
    change u.pump.Feeds (payloads u.id (h.box.queued ++ _))
    rw [hqueued, if_neg fun hid => hij (hok.eq_of_id hi hu hid.symm), append_nil]
    exact hu'.feeds
  · intro frame hframe
    obtain hframe | hframe := mem_append.1 hframe
    · exact .inl hframe
    · cases mem_singleton.1 hframe
      exact .inr ⟨⟨chunk, hbuilt, rfl⟩, htags⟩
  · intro s hs
    obtain hs | hs := hs
    · obtain hs | hs := mem_append.1 hs
      · exact .inl hs
      · cases mem_singleton.1 hs
    · exact .inr hs

theorem parse_render_ne {p : SignalPacket} (hp : ∀ id role, p ≠ .sessionAccepted id role)
    {P : Uuid → Prop} :
    ∀ id role, C.parse (C.render p) = some (.sessionAccepted id role) → P id := by
  intro id role heq
  rw [C.parse_render, some.injEq] at heq
  exact absurd heq (hp id role)

theorem Ok.stepTunnel (hok : Ok C h) (hi : h.tunnels[i]? = some t)
    (hstep : h.stepTunnel C i t a = some h') : Ok C h' ∧ Keeps h h' := by
  have ht := hok.tunnels i t hi
  cases a with
  | pump i' b =>
    obtain ⟨p, hp, rfl⟩ := map_eq_some_iff.1 hstep
    refine ⟨hok.setTunnel hi rfl (Pump.frame_step hp).built ?_, map_set_slot hi rfl, rfl,
      prefix_refl _⟩
    exact ⟨ht.pump.step hp, ht.feeds.step hp, ht.enters, ht.drains.step hp, ht.since⟩
  | send i' =>
    simp only [TunnelHost.stepTunnel] at hstep
    split at hstep
    · rename_i chunk hhand
      obtain ⟨-, ⟨⟩⟩ := ite_none_right_eq_some.1 hstep
      exact ⟨hok.send hi hhand, map_set_slot hi rfl, rfl, prefix_refl _⟩
    · cases hstep
  | recv i' =>
    simp only [TunnelHost.stepTunnel] at hstep
    split at hstep
    · rename_i payload rest hinbox
      obtain ⟨hready, ⟨⟩⟩ := ite_none_right_eq_some.1 hstep
      refine ⟨hok.setTunnel hi rfl (fun _ hb => hb)
        ⟨ht.pump.accept hready, ht.feeds, ht.enters, ?_, ht.since⟩, map_set_slot hi rfl, rfl,
        prefix_refl _⟩
      have hdrains := ht.drains
      rw [hinbox] at hdrains
      exact hdrains.accept hready
    · cases hstep
  | close i' =>
    obtain ⟨-, ⟨⟩⟩ := ite_none_right_eq_some.1 hstep
    have hset : Ok C (h.setTunnel i { t with closed := true }) :=
      hok.setTunnel hi rfl (fun _ hb => hb) { ht with }
    exact ⟨hset.queue_text (parse_render_ne (by simp)), map_set_slot hi rfl, rfl,
      prefix_refl _⟩
  | _ => cases hstep

/-! ## The loop -/

theorem inHand_of_reading (hphase : h.phase = .reading) : ∀ i, h.phase.inHand i = [] := by
  intro i
  rw [hphase]
  rfl

theorem inHand_of_replying {texts : List τ} (hphase : h.phase = .replying texts) :
    ∀ i, h.phase.inHand i = [] := by
  intro i
  rw [hphase]
  rfl

theorem Ok.deliver (hok : Ok C h) {ok : Bool} (hstep : h.stepLoop C (.deliver ok) = some h') :
    Ok C h' ∧ Keeps h h' := by
  simp only [TunnelHost.stepLoop] at hstep
  split at hstep
  · rename_i id i payload hphase
    have hlink := hok.delivering id i payload hphase
    obtain ⟨t, hi, hid⟩ := hok.inbound id i hlink
    have hother : ∀ j, i ≠ j → h.phase.inHand j = [] := by
      intro j hij
      rw [hphase]
      exact if_neg hij
    split at hstep
    · rename_i u hu
      cases hi.symm.trans hu
      obtain ⟨-, ⟨⟩⟩ := ite_none_right_eq_some.1 hstep
      have ht := hok.tunnels i t hi
      -- the payload goes from the hand of the loop to the queue of the tunnel
      have henters : Passes (payloads t.id (h.heard.drop t.since)) (t.entered ++ [payload])
          [] (h.inbound t.id = some i) := by
        have hbefore := ht.enters
        rw [hphase, HostPhase.inHand, if_pos rfl] at hbefore
        exact Passes.give (l := [payload]) hbefore (hid.symm ▸ hlink)
      refine ⟨hok.change
        { t with inbox := t.inbox ++ [payload], entered := t.entered ++ [payload] }
        hi rfl (fun _ hb => hb) rfl rfl rfl hok.box nofun
        ⟨ht.pump, ht.feeds, henters, Passes.take ht.drains [payload], ht.since⟩ ?_
        (fun _ => .inl) ?_, map_set_slot hi rfl, rfl, prefix_refl _⟩
      · intro j u hij hu
        have hbefore := (hok.tunnels j u hu).enters
        rw [hother j hij] at hbefore
        exact { hok.tunnels j u hu with enters := hbefore }
      · intro s hs
        obtain hs | ⟨texts, htexts, -⟩ := hs
        · exact .inl hs
        · cases htexts
    · cases hstep
    · cases hstep
      refine ⟨hok.unlink rfl id fun j u hu huid => hother j ?_, rfl, rfl, prefix_refl _⟩
      rintro rfl
      cases hi.symm.trans hu
      exact huid hid
  · cases hstep

theorem Ok.stepLoop (hok : Ok C h) (hstep : h.stepLoop C a = some h') :
    Ok C h' ∧ Keeps h h' := by
  have hrefl : h.box.sent <+: h.box.sent := prefix_refl _
  cases a with
  | deliver ok => exact hok.deliver hstep
  | reply =>
    simp only [TunnelHost.stepLoop] at hstep
    split at hstep
    · rename_i s rest hphase
      obtain ⟨-, ⟨⟩⟩ := ite_none_right_eq_some.1 hstep
      have hrest : Ok C { h with phase := .replying rest } := by
        refine hok.setPhase (inHand_of_replying hphase) (fun _ => rfl) nofun
          fun texts htexts s' hs' => ?_
        cases htexts
        exact hok.accepted s' (.inr ⟨_, hphase, mem_cons_of_mem _ hs'⟩)
      exact ⟨hrest.queue_text (hok.accepted s (.inr ⟨_, hphase, mem_cons_self⟩)), rfl, rfl,
        hrefl⟩
    · rename_i hphase
      cases hstep
      exact ⟨hok.setPhase (inHand_of_replying hphase) (fun _ => rfl) nofun nofun, rfl, rfl, hrefl⟩
    · cases hstep
  | heartbeat =>
    simp only [TunnelHost.stepLoop] at hstep
    split at hstep <;> cases hstep
    rename_i hphase
    refine ⟨hok.setPhase (inHand_of_reading hphase) (fun _ => rfl) nofun
      fun texts htexts s hs => ?_, rfl, rfl, hrefl⟩
    cases htexts
    cases mem_singleton.1 hs
    exact parse_render_ne (by simp)
  | join i =>
    simp only [TunnelHost.stepLoop] at hstep
    split at hstep
    · rename_i t hphase hi
      obtain ⟨-, ⟨⟩⟩ := ite_none_right_eq_some.1 hstep
      have hunlink := hok.unlink hphase t.id fun j _ _ _ => inHand_of_reading hphase j
      refine ⟨hunlink.change { t with joined := true } hi rfl (fun _ hb => hb) rfl rfl
        rfl hok.box (fun _ _ _ _ => rfl) { hunlink.tunnels i t hi with } (fun j u _ hu => ?_)
        (fun _ => .inl) fun _ hs => hs, map_set_slot hi rfl, rfl, hrefl⟩
      exact { hunlink.tunnels j u hu with }
    · cases hstep
  | joinDirect j =>
    simp only [TunnelHost.stepLoop] at hstep
    split at hstep <;> cases hstep
    exact ⟨{ hok with tunnels := fun j u hu => { hok.tunnels j u hu with } }, rfl, rfl, hrefl⟩
  | fail =>
    cases hstep
    exact ⟨{ hok with
      box := hok.box.close
      tunnels := fun j u hu => { hok.tunnels j u hu with } }, rfl, rfl, hrefl⟩
  | _ => cases hstep

theorem Ok.step (hok : Ok C h) (hstep : h.step C a = some h') : Ok C h' ∧ Keeps h h' := by
  obtain ⟨-, hstep⟩ := ite_none_right_eq_some.1 hstep
  cases a with
  | pump i b | send i | recv i | close i =>
    obtain ⟨t, hi, hstep⟩ := bind_eq_some_iff.1 hstep
    exact hok.stepTunnel hi hstep
  | answer j candidate =>
    obtain ⟨id, -, hstep⟩ := bind_eq_some_iff.1 hstep
    obtain ⟨-, ⟨⟩⟩ := ite_none_right_eq_some.1 hstep
    exact ⟨hok.queue_text (parse_render_ne (by simp)), rfl, rfl, prefix_refl _⟩
  | flush =>
    obtain ⟨box, hbox, rfl⟩ := map_eq_some_iff.1 hstep
    obtain ⟨m, rest, -, -, rfl⟩ := Outbox.flush_eq_some hbox
    exact ⟨{ hok with
      box := hok.box.flush hbox
      tunnels := fun j u hu => { hok.tunnels j u hu with } }, rfl, rfl, prefix_append _ _⟩
  | _ => exact hok.stepLoop hstep

/-! ## A message from the socket -/

theorem mem_requests_next (hr : r ∈ requests C h.heard) : r ∈ requests C (h.heard ++ [m]) := by
  rw [requests_append]
  exact mem_append_left _ hr

theorem self_mem_requests (hm : m.request C = some r) : r ∈ requests C (h.heard ++ [m]) := by
  rw [requests_append, hm]
  exact mem_append_right _ (mem_singleton_self r)

/-- The message is recorded. What it holds for a tunnel is in hand, or the tunnel has no queue. -/
theorem Ok.record (hok : Ok C h) (hphase : h.phase = .reading)
    (hp : ∀ id i payload, p = .delivering id i payload → h.inbound id = some i)
    (hreply : ∀ texts, p ≠ .replying texts)
    (hhand : ∀ i t, h.tunnels[i]? = some t → p.inHand i = payloads t.id [m] ∨
      p.inHand i = [] ∧ h.inbound t.id ≠ some i) :
    Ok C { h with heard := h.heard ++ [m], phase := p } := by
  refine { hok with requested := ?_, delivering := hp, tunnels := ?_, accepted := ?_ }
  · exact fun t ht => mem_requests_next (hok.requested t ht)
  · intro i t hi
    have ht := hok.tunnels i t hi
    have hbefore := ht.enters
    rw [inHand_of_reading hphase i] at hbefore
    refine { ht with enters := ?_, since := ?_ }
    · change Passes (payloads t.id ((h.heard ++ [m]).drop t.since)) t.entered (p.inHand i) _
      rw [drop_append_of_le_length ht.since, payloads_append]
      obtain heq | ⟨heq, hlink⟩ := hhand i t hi
      · rw [heq]
        exact hbefore.take (payloads t.id [m])
      · exact hbefore.ignore hlink _ _
    · change t.since ≤ (h.heard ++ [m]).length
      rw [length_append]
      exact ht.since.trans (Nat.le_add_right _ _)
  · intro s hs id role hparse
    obtain hs | ⟨texts, htexts, -⟩ := hs
    · exact (hok.accepted s (.inl hs) id role hparse).imp (fun h => h) mem_requests_next
    · exact absurd htexts (hreply texts)

/-- A message with no frame of a tunnel is recorded. -/
theorem Ok.record_other (hok : Ok C h) (hphase : h.phase = .reading)
    (hm : ∀ id, payloads id [m] = []) : Ok C { h with heard := h.heard ++ [m] } := by
  have hsame := hok.record (m := m) (p := h.phase) hphase
    (fun id i payload heq => by rw [hphase] at heq; cases heq)
    (fun texts heq => by rw [hphase] at heq; cases heq)
    fun i t _ => .inl ((inHand_of_reading hphase i).trans (hm t.id).symm)
  exact hsame

theorem Ok.next_binary (hok : Ok C h) (hphase : h.phase = .reading) {frame : Bytes}
    (hsized : tunnelSized frame) :
    Ok C (onMessage C H maxTunnels { h with heard := h.heard ++ [.binary frame] }
      (.binary frame)) := by
  simp only [onMessage]
  split
  · rename_i id payload hsplit
    obtain ⟨htags, rfl⟩ := tags_of_split hsized hsplit
    have hpayloads : ∀ id', payloads id' [(WsMessage.binary frame : WsMessage τ)] =
        if id' = id then [frame.drop 16] else [] := htags.payloads_eq
    split
    · rename_i i hlink
      change h.inbound id = some i at hlink
      obtain ⟨u, hu, huid⟩ := hok.inbound id i hlink
      refine hok.record hphase ?_ (nofun) ?_
      · intro id' j payload' heq
        cases heq
        exact hlink
      · intro j t hj
        refine .inl ?_
        rw [hpayloads]
        change (if i = j then [frame.drop 16] else []) = _
        refine if_congr ⟨?_, ?_⟩ rfl rfl
        · intro hij
          subst hij
          cases hu.symm.trans hj
          exact huid
        · exact fun hid => hok.eq_of_id hu hj (huid.trans hid.symm)
    · rename_i hlink
      change h.inbound id = none at hlink
      have hsame := hok.record (m := .binary frame) (p := h.phase) hphase
        (fun id i payload heq => by rw [hphase] at heq; cases heq)
        (fun texts heq => by rw [hphase] at heq; cases heq) ?_
      · exact hsame
      · intro j t hj
        rw [hpayloads, inHand_of_reading hphase j]
        by_cases hid : t.id = id
        · refine .inr ⟨rfl, ?_⟩
          rw [hid, hlink]
          exact nofun
        · exact .inl (if_neg hid).symm
  · rename_i hsplit
    refine hok.record_other hphase fun id => payloads_eq_nil fun frame' hframe htags => ?_
    cases mem_singleton.1 hframe
    cases hsplit.symm.trans htags.split

/-- A new tunnel. -/
theorem Ok.openTunnel (hok : Ok C h) (hphase : h.phase = .reading)
    (hasked : (id, true) ∈ requests C h.heard) (hfresh : ∀ t ∈ h.tunnels, t.id ≠ id) :
    Ok C (openTunnel C maxTunnels h id) := by
  unfold TunnelHost.openTunnel
  split
  · refine hok.setPhase (inHand_of_reading hphase) (fun _ => rfl)
      (nofun) fun texts htexts s hs => ?_
    cases htexts
    cases mem_singleton.1 hs
    exact parse_render_ne (by simp)
  · have hold : ∀ (j : Nat) t, h.tunnels[j]? = some t →
        (h.tunnels ++ [{ id := id, since := h.heard.length }])[j]? = some t := by
      intro j t hj
      rw [getElem?_append_left (lt_of_slot hj), hj]
    refine {
      box := hok.box
      unique := ?_
      requested := ?_
      inbound := ?_
      delivering := nofun
      tunnels := ?_
      frames := ?_
      accepted := ?_ }
    · change ((h.tunnels ++ [_]).map HostTunnel.id).Nodup
      rw [map_append, map_singleton, nodup_append]
      refine ⟨hok.unique, by simp, fun id' hid' id'' hid'' => ?_⟩
      obtain ⟨t, ht, rfl⟩ := mem_map.1 hid'
      cases mem_singleton.1 hid''
      exact hfresh t ht
    · intro t ht
      obtain ht | ht := mem_append.1 ht
      · exact hok.requested t ht
      · cases mem_singleton.1 ht
        exact hasked
    · intro id' j hj
      by_cases hid : id' = id
      · subst hid
        have hself : Function.update h.inbound id' (some h.tunnels.length) id' =
          some h.tunnels.length := Function.update_self ..
        cases hself.symm.trans hj
        exact ⟨_, getElem?_concat_length, rfl⟩
      · obtain ⟨t, ht, htid⟩ := hok.inbound id' j ((Function.update_of_ne hid ..).symm.trans hj)
        exact ⟨t, hold j t ht, htid⟩
    · intro j t ht
      obtain hj | ⟨rfl, rfl⟩ := of_slot_snoc ht
      · have hid : t.id ≠ id := hfresh t (mem_of_getElem? hj)
        refine { hok.tunnels j t hj with enters := ?_ }
        have hbefore := (hok.tunnels j t hj).enters
        rw [inHand_of_reading hphase j] at hbefore
        exact hbefore.mono fun hlink => (Function.update_of_ne hid ..).symm.trans hlink
      · have hnone : payloads id h.box.queued = [] := by
          refine payloads_eq_nil fun frame hframe htags => ?_
          obtain ⟨u, hu, -, hu'⟩ := hok.frames frame hframe
          exact hfresh u hu (hu'.eq htags)
        refine ⟨.new, ?_, ?_, .nil _, le_rfl⟩
        · change Pump.Feeds {} (payloads id h.box.queued)
          rw [hnone]
          exact .nil _
        · change Passes (payloads id (h.heard.drop h.heard.length)) [] [] _
          rw [drop_length]
          exact .nil _
    · intro frame hframe
      obtain ⟨t, ht, hframe⟩ := hok.frames frame hframe
      exact ⟨t, mem_append_left _ ht, hframe⟩
    · intro s hs id' role hparse
      obtain hs | ⟨texts, htexts, hs⟩ := hs
      · refine (hok.accepted s (.inl hs) id' role hparse).imp ?_ fun h => h
        rintro ⟨t, ht, htid⟩
        exact ⟨t, mem_append_left _ ht, htid⟩
      · cases htexts
        cases mem_singleton.1 hs
        rw [C.parse_render, some.injEq] at hparse
        cases hparse
        exact .inl ⟨_, mem_append_right _ (mem_singleton_self _), rfl⟩

/-- Reading a message sends none, and opens a tunnel only if the message asks for it. -/
structure Reads (C : PacketCodec τ) (h : TunnelHost η τ) (m : WsMessage τ) (h' : TunnelHost η τ) :
    Prop where
  heard : h'.heard = h.heard ++ [m]
  box : h'.box = h.box
  marks : h'.marks = h.marks ∨ ∃ id, m.request C = some (id, true) ∧
    h'.marks = h.marks ++ [(id, h.heard.length + 1)]

theorem Ok.handle (hok : Ok C { h with heard := h.heard ++ [m] }) (hphase : h.phase = .reading)
    {p : SignalPacket} (hp : ∀ deviceId key version capability id,
      p = .sessionRequest deviceId key version capability (some id) →
        (id, false) ∈ requests C (h.heard ++ [m])) :
    Ok C (handle C H { h with heard := h.heard ++ [m] } p) ∧
      Reads C h m (handle C H { h with heard := h.heard ++ [m] } p) := by
  unfold TunnelHost.handle
  split
  · rename_i handler out hhandle
    have hreply := hok.setPhase (p := .replying (out.map C.render)) (inHand_of_reading hphase)
      (fun _ => rfl) nofun fun texts htexts s hs id role hparse => ?_
    · exact ⟨{ hreply with tunnels := fun j t hj => { hreply.tunnels j t hj with } }, rfl, rfl,
        .inl rfl⟩
    · cases htexts
      obtain ⟨q, hq, rfl⟩ := mem_map.1 hs
      rw [C.parse_render, some.injEq] at hparse
      subst hparse
      obtain ⟨deviceId, key, version, capability, rfl⟩ :=
        H.accepts _ _ _ _ hhandle id role hq
      exact .inr (hp _ _ _ _ _ rfl)
  · exact ⟨{ hok with tunnels := fun j t hj => { hok.tunnels j t hj with } }, rfl, rfl, .inl rfl⟩

theorem Ok.next_text (hok : Ok C h) (hphase : h.phase = .reading) {s : τ}
    (hfresh : ∀ id b, (WsMessage.text s).request C = some (id, b) →
      ∀ b', (id, b') ∉ requests C h.heard) :
    Ok C (onMessage C H maxTunnels { h with heard := h.heard ++ [.text s] } (.text s)) ∧
      Reads C h (.text s)
        (onMessage C H maxTunnels { h with heard := h.heard ++ [.text s] } (.text s)) := by
  have hrecord : Ok C { h with heard := h.heard ++ [.text s] } :=
    hok.record_other hphase fun _ => payloads_text _
  simp only [onMessage]
  split
  · rename_i p hparse
    unfold onPacket
    split
    · rename_i deviceId key version capability id
      split
      · rename_i hversion
        have hrequest : (WsMessage.text s).request C = some (id, true) := by
          simp [WsMessage.request, hparse, hversion]
        refine ⟨hrecord.openTunnel hphase (self_mem_requests hrequest) fun t ht hid => ?_, ?_⟩
        · refine hfresh id true hrequest true ?_
          rw [← hid]
          exact hok.requested t ht
        · unfold TunnelHost.openTunnel
          split
          · exact ⟨rfl, rfl, .inl rfl⟩
          · exact ⟨rfl, rfl, .inr ⟨id, hrequest, by simp [TunnelHost.marks]⟩⟩
      · rename_i hversion
        have hrequest : (WsMessage.text s).request C = some (id, false) := by
          simp [WsMessage.request, hparse, hversion]
        refine hrecord.handle hphase fun _ _ _ _ _ heq => ?_
        cases heq
        exact self_mem_requests hrequest
    · rename_i id candidate
      split
      · split
        · exact ⟨{ hrecord with tunnels := fun j t hj => { hrecord.tunnels j t hj with } }, rfl,
            rfl,
            .inl rfl⟩
        · exact ⟨hrecord, rfl, rfl, .inl rfl⟩
      · exact hrecord.handle hphase nofun
    · rename_i id
      split
      · exact ⟨hrecord.unlink hphase id fun j _ _ _ => inHand_of_reading hphase j, rfl, rfl,
          .inl rfl⟩
      · exact hrecord.handle hphase nofun
    · rename_i hnot _ _
      exact hrecord.handle hphase fun _ _ _ _ _ heq => absurd heq (hnot _ _ _ _ _)
  · exact ⟨hrecord, rfl, rfl, .inl rfl⟩

/-- The loop reads a message. -/
theorem Ok.next (hok : Ok C h) (hnext : next C H maxTunnels h m = some h')
    (hsized : ∀ frame, m = .binary frame → tunnelSized frame)
    (hfresh : ∀ id b, m.request C = some (id, b) → ∀ b', (id, b') ∉ requests C h.heard) :
    Ok C h' ∧ Reads C h m h' := by
  unfold TunnelHost.next at hnext
  split at hnext <;> cases hnext
  rename_i hphase
  cases m with
  | binary frame =>
    refine ⟨hok.next_binary hphase (hsized frame rfl), ?_⟩
    simp only [onMessage]
    split
    · split <;> exact ⟨rfl, rfl, .inl rfl⟩
    · exact ⟨rfl, rfl, .inl rfl⟩
  | text s => exact hok.next_text hphase hfresh

end TunnelHost

end RivetLink.Agent
