import RivetLink.Agent.StreamRequests

/-!
# Whose stream a viewer stops

`StopDesktopStream` does not say which stream it is to stop, so it stops whatever runs when the
worker serves it. `stopsAt` collects the phases from which a viewer may still send the request: it
holds a stream, is in the middle of a display switch, or its start has been accepted. A viewer's own
moves never put it there (`ViewerEffect.stops`); only the worker does, when it accepts a start.

A stream that ends on its own leaves its viewer with a stop to send, and nothing keeps another
viewer from starting a stream before that: the flag is down, and the claim lock is free. The stop
then hits the new stream (`login_wait_stops_successor`). If the worker accepts a start only while no
other viewer has a stop to send, every stop that hits a running stream is on behalf of the viewer
for whom the stream was started (`stop_stops_own_stream`).
-/

namespace RivetLink.Agent

open List Option RivetLink.Foundation

namespace ViewerPhase

/-- A viewer comes to owe a stop only when its start has been accepted. -/
theorem stopsAt_answered {r : StreamResponse} {p : ViewerPhase} {w w' : Nat}
    (h : (p.answered w r).stopsAt = some w') : p.stopsAt = some w' ∨ w' = w ∧ r = .started := by
  unfold answered at h
  split at h
  · rename_i q w₁ seen
    cases q with
    | switch id seen' => exact .inl h
    | claim id =>
      split at h
      · cases r <;> cases h
        exact .inr ⟨‹_›, rfl⟩
      · cases h
  · rename_i c w₁
    cases c <;> exact .inl h
  · exact .inl h

end ViewerPhase

namespace ConsoleWorkerPool

variable {s t : ConsoleWorkerPool} {u w : Nat} {m : Move} {p p' : ViewerPhase}
  {k k' : ConsoleWorker}

/-- Viewer `u` may yet send a stop to worker `w`, or has one on the way to it. -/
def Outstanding (s : ConsoleWorkerPool) (u w : Nat) : Prop :=
  s.viewers[u]?.bind ViewerPhase.stopsAt = some w ∨
    ∃ k, s.workers[w]? = some k ∧ (u, StreamRequest.stop) ∈ k.wire

theorem Touch.stopped_eq (h : Touch u p p' w k k') : k'.stopped = k.stopped := by
  cases h <;> rfl

variable {x : Nat}

theorem Touch.mem_wire (h : Touch u p p' w k k') (hx : (x, StreamRequest.stop) ∈ k'.wire) :
    (x, StreamRequest.stop) ∈ k.wire ∨ x = u ∧ p.stopsAt = some w := by
  cases h with
  | flag | unlock => exact .inl hx
  | send r hfree hp hp' hstop =>
    rcases mem_append.1 hx with hx | hx
    · exact .inl hx
    · obtain ⟨rfl, rfl⟩ := Prod.mk.inj (mem_singleton.1 hx)
      exact .inr ⟨rfl, hstop rfl⟩

/-- No viewer comes to owe a stop by a move of a viewer. -/
theorem ViewerEffect.outstanding (he : ViewerEffect s t u p p') (hp : s.viewers[u]? = some p)
    (h : t.Outstanding x w) : s.Outstanding x w := by
  rcases h with h | ⟨k', hk', hx⟩
  · left
    rw [he.phase hp] at h
    split at h
    · rename_i hxu
      rw [hxu, hp]
      rcases he.stops with hnone | hsame
      · rw [bind_some, hnone] at h
        cases h
      · rwa [bind_some, hsame] at h
    · exact h
  · obtain ⟨k, hk, heq | htouch⟩ := he.worker hk'
    · exact .inr ⟨k, hk, heq ▸ hx⟩
    · rcases htouch.mem_wire hx with hx | ⟨rfl, hstop⟩
      · exact .inr ⟨k, hk, hx⟩
      · exact .inl (by rw [hp, bind_some, hstop])

/-- While a stream runs, only the viewer for whom it was started may owe a stop; and so far only
such viewers have stopped a stream. -/
structure Owned (s : ConsoleWorkerPool) : Prop where
  running : ∀ (w : Nat) (k : ConsoleWorker) (v : Nat), s.workers[w]? = some k →
    k.desktopStream = some (v, .running) → ∀ u, s.Outstanding u w → u = v
  stopped : ∀ (w : Nat) (k : ConsoleWorker), s.workers[w]? = some k → ∀ x ∈ k.stopped, x.1 = x.2

theorem Owned.new : Owned new where
  running := nofun
  stopped := nofun

theorem Owned.mono (h : Owned s) (hout : ∀ x w, t.Outstanding x w → s.Outstanding x w)
    (hrunning : ∀ (w : Nat) (k' : ConsoleWorker) (v : Nat), t.workers[w]? = some k' →
      k'.desktopStream = some (v, .running) →
      ∃ k, s.workers[w]? = some k ∧ k.desktopStream = some (v, .running))
    (hstopped : ∀ (w : Nat) (k' : ConsoleWorker), t.workers[w]? = some k' →
      ∀ x ∈ k'.stopped, x.1 = x.2) : Owned t := by
  refine ⟨fun w k' v hk' hstream u hu => ?_, hstopped⟩
  obtain ⟨k, hk, hv⟩ := hrunning w k' v hk' hstream
  exact h.running w k v hk hv u (hout u w hu)

theorem Owned.viewer (h : Owned s) (hp : s.viewers[u]? = some p) (he : ViewerEffect s t u p p') :
    Owned t := by
  refine h.mono (fun _ _ => he.outstanding hp) (fun w k' v hk' hv => ?_) (fun w k' hk' x hx => ?_)
  · obtain ⟨k, hk, rfl | htouch⟩ := he.worker hk'
    · exact ⟨k', hk, hv⟩
    · exact ⟨k, hk, htouch.desktopStream_eq ▸ hv⟩
  · obtain ⟨k, hk, rfl | htouch⟩ := he.worker hk'
    · exact h.stopped w k' hk x hx
    · exact h.stopped w k hk x (htouch.stopped_eq ▸ hx)

variable {e : WorkerEvent}

theorem Owned.task (h : Owned s) (hk : s.workers[w]? = some k) (hstep : stepTask k e = some k') :
    Owned (s.update w k') := by
  obtain ⟨hwire, hstopped, hrunning⟩ := stepTask_spec hstep
  refine h.mono ?_ ?_ ?_
  · rintro x w₁ (hx | ⟨k₁, hk₁, hx⟩)
    · exact .inl hx
    · rcases of_slot_set hk₁ with ⟨rfl, rfl⟩ | ⟨-, hk₁⟩
      · exact .inr ⟨k, hk, hwire ▸ hx⟩
      · exact .inr ⟨k₁, hk₁, hx⟩
  · intro w₁ k₁ v hk₁ hv
    rcases of_slot_set hk₁ with ⟨rfl, rfl⟩ | ⟨-, hk₁⟩
    · exact ⟨k, hk, hrunning v hv⟩
    · exact ⟨k₁, hk₁, hv⟩
  · intro w₁ k₁ hk₁ x hx
    rcases of_slot_set hk₁ with ⟨rfl, rfl⟩ | ⟨-, hk₁⟩
    · exact h.stopped w₁ k hk x (hstopped ▸ hx)
    · exact h.stopped w₁ k₁ hk₁ x hx

theorem Owned.join (h : Owned s) : Owned { s with viewers := s.viewers ++ [.arriving] } := by
  refine h.mono ?_ (fun w k v hk hv => ⟨k, hk, hv⟩) h.stopped
  rintro x w (hx | hx)
  · obtain ⟨q, hq, hstops⟩ := bind_eq_some_iff.1 hx
    rcases of_slot_snoc hq with hq | ⟨-, rfl⟩
    · exact .inl (bind_eq_some_iff.2 ⟨q, hq, hstops⟩)
    · cases hstops
  · exact .inr hx

/-- A worker that has just been attached is as it should be. -/
theorem Owned.attach (h : Owned s) (hwire : k.wire = []) (hstream : k.desktopStream = none)
    (hstopped : k.stopped = []) : Owned { s with workers := s.workers ++ [k] } := by
  refine h.mono ?_ ?_ ?_
  · rintro x w (hx | ⟨k', hk', hx⟩)
    · exact .inl hx
    · rcases of_slot_snoc hk' with hk' | ⟨-, rfl⟩
      · exact .inr ⟨k', hk', hx⟩
      · rw [hwire] at hx
        cases hx
  · intro w k' v hk' hv
    rcases of_slot_snoc hk' with hk' | ⟨-, rfl⟩
    · exact ⟨k', hk', hv⟩
    · rw [hstream] at hv
      cases hv
  · intro w k' hk' x hx
    rcases of_slot_snoc hk' with hk' | ⟨-, rfl⟩
    · exact h.stopped w k' hk' x hx
    · rw [hstopped] at hx
      cases hx

variable {f : ViewerPhase → ViewerPhase}

/-- When a request of viewer `u` has been served, only `u` may have come to owe a stop. -/
theorem outstanding_of_served {w' : Nat} {R : Prop} (hk : s.workers[w]? = some k)
    (hwire : ∀ y ∈ k'.wire, y ∈ k.wire)
    (hf : ∀ {p : ViewerPhase} {w'}, (f p).stopsAt = some w' → p.stopsAt = some w' ∨ w' = w ∧ R)
    (h : ((s.update w k').answer k u f).Outstanding x w') :
    s.Outstanding x w' ∨ x = u ∧ w' = w ∧ R := by
  rcases h with h | ⟨k₁, hk₁, hx⟩
  · obtain ⟨q, hq, hstops⟩ := bind_eq_some_iff.1 h
    obtain ⟨p, hp, rfl | ⟨rfl, rfl⟩⟩ := answer_phase hq
    · exact .inl (.inl (bind_eq_some_iff.2 ⟨q, hp, hstops⟩))
    · rcases hf hstops with hstops | hw
      · exact .inl (.inl (bind_eq_some_iff.2 ⟨p, hp, hstops⟩))
      · exact .inr ⟨rfl, hw⟩
  · rw [answer_workers] at hk₁
    rcases of_slot_set hk₁ with ⟨rfl, rfl⟩ | ⟨-, hk₁⟩
    · exact .inl (.inr ⟨k, hk, hwire _ hx⟩)
    · exact .inl (.inr ⟨k₁, hk₁, hx⟩)

/-- No viewer but `v` has a stop to send to worker `w`, or one on the way to it. -/
def NoneElseStops (s : ConsoleWorkerPool) (v w : Nat) (k : ConsoleWorker) : Prop :=
  (∀ u < s.viewers.length, s.viewers[u]?.bind ViewerPhase.stopsAt = some w → u = v) ∧
    ∀ x ∈ k.wire, x.2 = .stop → x.1 = v

theorem NoneElseStops.eq_of_outstanding {v : Nat} (h : s.NoneElseStops v w k)
    (hk : s.workers[w]? = some k) (hu : s.Outstanding u w) : u = v := by
  rcases hu with hu | ⟨k₁, hk₁, hu⟩
  · obtain ⟨p, hp, -⟩ := bind_eq_some_iff.1 hu
    exact h.1 u (lt_of_slot hp) hu
  · cases hk.symm.trans hk₁
    exact h.2 _ hu rfl

/-- A worker accepts a start only when no other viewer has a stop to send to it, and no request is
dropped while its response is on the way. -/
def Unopposed (s : ConsoleWorkerPool) : DesktopAction → Prop
  | .worker w .serve => ∀ k ∈ s.workers[w]?, ∀ x ∈ k.wire.head?,
      x.2 = .start → k.accepts = true → s.NoneElseStops x.1 w k
  | .worker _ .abandoned => False
  | _ => True

instance (s : ConsoleWorkerPool) (v w : Nat) (k : ConsoleWorker) :
    Decidable (s.NoneElseStops v w k) := by
  unfold NoneElseStops
  infer_instance

instance (s : ConsoleWorkerPool) (a : DesktopAction) : Decidable (s.Unopposed a) := by
  unfold Unopposed
  split <;> infer_instance

/-- Nothing was stopped when a request has been served, apart from what worker `w` has recorded. -/
theorem Owned.stopped_of_served (h : Owned s) (hstopped : ∀ x ∈ k'.stopped, x.1 = x.2) {w₁ : Nat}
    {k₁ : ConsoleWorker} (hk₁ : ((s.update w k').answer k u f).workers[w₁]? = some k₁) :
    ∀ x ∈ k₁.stopped, x.1 = x.2 := by
  rw [answer_workers] at hk₁
  rcases of_slot_set hk₁ with ⟨-, rfl⟩ | ⟨-, hk₁⟩
  · exact hstopped
  · exact h.stopped w₁ k₁ hk₁

/-- The worker starts a stream for viewer `v`. -/
theorem Owned.accept {v : Nat} (h : Owned s) (hk : s.workers[w]? = some k)
    (hwire : ∀ y ∈ k'.wire, y ∈ k.wire) (hstopped : k'.stopped = k.stopped)
    (hstream : k'.desktopStream = some (v, .running)) (hguard : s.NoneElseStops v w k) :
    Owned ((s.update w k').answer k v (ViewerPhase.answered w .started)) := by
  refine ⟨?_, fun w₁ k₁ => h.stopped_of_served (hstopped ▸ h.stopped w k hk)⟩
  intro w₁ k₁ v₁ hk₁ hv₁ u hu
  rw [answer_workers] at hk₁
  have hserved := outstanding_of_served (R := True) hk hwire
    (fun hstops => (ViewerPhase.stopsAt_answered hstops).imp_right fun hw => ⟨hw.1, trivial⟩) hu
  rcases of_slot_set hk₁ with ⟨rfl, rfl⟩ | ⟨hne, hk₁⟩
  · rw [hstream] at hv₁
    cases hv₁
    exact hserved.elim (hguard.eq_of_outstanding hk) And.left
  · exact hserved.elim (h.running w₁ k₁ v₁ hk₁ hv₁ u) fun hw => absurd hw.2.1 hne

/-- The worker serves a request without starting a stream. -/
theorem Owned.served (h : Owned s) (hk : s.workers[w]? = some k) (hwire : ∀ y ∈ k'.wire, y ∈ k.wire)
    (hstopped : ∀ x ∈ k'.stopped, x.1 = x.2)
    (hstream : ∀ v, k'.desktopStream = some (v, .running) → k.desktopStream = some (v, .running))
    (hf : ∀ {p : ViewerPhase} {w' : Nat}, (f p).stopsAt = some w' → p.stopsAt = some w') :
    Owned ((s.update w k').answer k u f) := by
  refine h.mono (fun x w₁ hx => ?_) (fun w₁ k₁ v hk₁ hv => ?_)
    (fun w₁ k₁ => h.stopped_of_served hstopped)
  · exact (outstanding_of_served (R := False) hk hwire (fun hstops => .inl (hf hstops)) hx).elim id
      fun hR => hR.2.2.elim
  · rw [answer_workers] at hk₁
    rcases of_slot_set hk₁ with ⟨rfl, rfl⟩ | ⟨-, hk₁⟩
    · exact ⟨k, hk, hstream v hv⟩
    · exact ⟨k₁, hk₁, hv⟩

/-- A stop that is served hits a stream of the viewer that sent it, or none. -/
theorem serveStop_stopped (h : k.serveStop u = some k') : k'.stopped = k.stopped ∨
    ∃ v, k.desktopStream = some (v, .running) ∧ k'.stopped = k.stopped ++ [(u, v)] := by
  unfold ConsoleWorker.serveStop at h
  split at h <;> cases h
  · exact .inr ⟨_, ‹_›, rfl⟩
  · exact .inl rfl

theorem Owned.serve (h : Owned s) (hguarded : Guarded s) (hk : s.workers[w]? = some k)
    (hguard : s.Unopposed (.worker w .serve)) (hstep : s.serve w k = some t) : Owned t := by
  obtain ⟨v, rest, hserved⟩ := hguarded.serve_cases hk hstep
  have hmem : ∀ req, k.wire = (v, req) :: rest → ∀ y ∈ rest, y ∈ k.wire :=
    fun req hwire y hy => hwire ▸ mem_cons_of_mem _ hy
  rcases hserved with ⟨hwire, haccepts, rfl⟩ | ⟨hwire, -, rfl⟩ | ⟨hwire, k', hk', rfl⟩
  · refine h.accept hk (hmem _ hwire) rfl rfl ?_
    exact hguard k hk (v, .start) (by rw [hwire]; rfl) rfl haccepts
  · refine h.served hk (hmem _ hwire) (h.stopped w k hk) (fun v hv => hv) fun hstops => ?_
    exact (ViewerPhase.stopsAt_answered hstops).resolve_right nofun
  · have heq := serveStop_eq hk'
    refine h.served hk (heq ▸ hmem _ hwire) ?_ (heq ▸ nofun) fun hstops =>
      (ViewerPhase.stopsAt_answered hstops).resolve_right nofun
    rcases serveStop_stopped hk' with heq | ⟨v', hv', heq⟩
    · exact heq ▸ h.stopped w k hk
    · -- the stream that is stopped runs for the viewer whose stop this is
      obtain rfl := h.running w k v' hk hv' v (.inr ⟨k, hk, hwire ▸ mem_cons_self⟩)
      intro x hx
      rw [heq] at hx
      rcases mem_append.1 hx with hx | hx
      · exact h.stopped w k hk x hx
      · rw [mem_singleton.1 hx]

theorem Unopposed.not_abandoned {a : DesktopAction} (h : s.Unopposed a) (w : Nat) :
    a ≠ .worker w .abandoned := by
  rintro rfl
  exact h

theorem Owned.step {a : DesktopAction} (h : Owned s) (hguarded : Guarded s) (hguard : s.Unopposed a)
    (hstep : s.step a = some t) : Owned t := by
  cases StepMove.of_step hguarded.fresh hguard.not_abandoned hstep with
  | join => exact h.join
  | attach => exact h.attach rfl rfl rfl
  | viewer hp hmove => exact h.viewer hp hmove.effect
  | serve hk hserve => exact h.serve hguarded hk hguard hserve
  | task _ _ hk hk' => exact h.task hk hk'

/-- Viewer `u` starts a stream at worker 0. -/
def sampleStart (u : Nat) : List DesktopAction :=
  [.viewer u (.current (some 0)), .viewer u .load, .viewer u .swap, .viewer u .subscribe,
    .viewer u (.write true), .worker 0 .serve, .viewer u .receive]

end ConsoleWorkerPool

end RivetLink.Agent
