import RivetLink.Agent.DesktopFrames
import RivetLink.Agent.StreamRequests

/-!
# Separation of desktop streams

Frames and endings carry no mark of their stream, so a viewer gets those of its own stream only if
nothing of an earlier one is passed on after it has subscribed. The code does not see to that: a
viewer that stops its stream clears the flag before the worker hears of the stop, and a viewer that
takes over may subscribe in between. It then finds a frame of the earlier stream at its handle
(`early_subscription_leaks`).

`Cleared` excludes this, and under it `next` returns nothing of an earlier stream
(`next_returns_no_earlier_stream`). The invariant `Separate` speaks of the number of a stream:
everything that a connection can still bring to a receiver is from the stream of its handle or a
later one (`Clear`). This is kept by every step. That the stream which the worker accepts is the
first one after the subscription follows from the claim lock.
-/

namespace RivetLink.Agent

open List Option RivetLink.Foundation RivetLink.Sdk

namespace ViewerPhase

/-- The viewer has subscribed to the channels of a worker that has not answered its start. -/
def subscribedAt : ViewerPhase → Option Nat
  | .startQueued _ w _ | .startSent _ w _ none => some w
  | _ => none

/-- The worker has accepted the start of the viewer, which has not received the response. -/
def acceptedAt : ViewerPhase → Option Nat
  | .startSent _ w _ (some .started) => some w
  | _ => none

/-- The worker to whose channels the viewer is about to subscribe. -/
def subscribesAt : ViewerPhase → Option Nat
  | .subscribing _ w => some w
  | _ => none

theorem holdsClaim_of_subscribedAt {p : ViewerPhase} {w : Nat} (h : p.subscribedAt = some w) :
    p.holdsClaim = true := by
  unfold subscribedAt at h
  split at h <;> cases h <;> rfl

end ViewerPhase

namespace ConsoleWorkerPool

variable {s t s' : ConsoleWorkerPool} {u w : Nat} {m : Move} {p p' : ViewerPhase}

theorem ViewerMove.acceptedAt_eq (h : ViewerMove s u m p p' s') : p'.acceptedAt = none := by
  cases h with
  | lock b => cases b <;> rfl
  | @swapFails q | @clear q => cases q <;> rfl
  | @stopLost c | @stopped c | @notStopped c | @stopFails c => cases c <;> rfl
  | _ => rfl

/-- How a viewer comes to be subscribed by its own moves. -/
theorem ViewerMove.subscribed (h : ViewerMove s u m p p' s') (hw : p'.subscribedAt = some w) :
    (m = .write true ∧ p.subscribedAt = some w) ∨ (m = .subscribe ∧ ∃ q, p = .subscribing q w) := by
  cases h with
  | subscribe => exact .inr ⟨rfl, _, by rw [some.inj hw]⟩
  | sendStart => exact .inl ⟨rfl, hw⟩
  | lock b => cases b <;> cases hw
  | @swapFails q | @clear q => cases q <;> cases hw
  | @stopLost c | @stopped c | @notStopped c | @stopFails c => cases c <;> cases hw
  | _ => cases hw

end ConsoleWorkerPool

/-! ## What a receiver can still get -/

/-- Everything that a connection still brings is from stream `n` or a later one. -/
structure Later (c : ClientChannels) (k : ConsoleWorker) (n : Nat) : Prop where
  started : n ≤ c.started + 1
  task : ∀ x ∈ k.desktopStream, x.2 ≠ .ended → n ≤ c.started
  strays : ∀ i ∈ c.strays, n ≤ i
  output : ∀ x ∈ c.output, ∀ i ∈ x.stream, n ≤ i
  reading : ∀ i ∈ c.reading, n ≤ i

/-- The same of everything that two receivers on the connection can still get. -/
structure Clear (c : ClientChannels) (k : ConsoleWorker) (n : Nat) (frames ended : Receiver) : Prop
    where
  later : Later c k n
  frames : c.desktopFrames.Sees frames (n ≤ ·.1)
  ended : c.desktopEnded.Sees ended (∀ i ∈ ·, n ≤ i)

section Clear

variable {c c' : ClientChannels} {k k' : ConsoleWorker} {n u : Nat} {frames ended : Receiver}
  {x : WorkerPacket}

/-- The worker's side has changed at most in that its task has ended. -/
theorem Later.worker (h : Later c k n)
    (htask : ∀ x ∈ k'.desktopStream, x.2 ≠ .ended → ∃ y ∈ k.desktopStream, y.2 ≠ .ended) :
    Later c k' n where
  started := h.started
  task := by
    intro x hx hne
    obtain ⟨y, hy, hne⟩ := htask x hx hne
    exact h.task y hy hne
  strays := h.strays
  output := h.output
  reading := h.reading

/-- A packet is written. -/
theorem Later.write (h : Later c k n) (hx : ∀ i ∈ x.stream, n ≤ i) :
    Later { c with output := c.output ++ [x] } k n where
  started := h.started
  task := h.task
  strays := h.strays
  output := by
    intro y hy
    rcases mem_append.1 hy with hy | hy
    · exact h.output y hy
    · rw [mem_singleton.1 hy]
      exact hx
  reading := h.reading

theorem Later.respond (h : Later c k n) :
    Later { c with output := c.output ++ [.response] } k n :=
  h.write fun i hi => by cases hi

/-- A task that was replaced reports its end. -/
theorem Later.report {i j : Nat} (h : Later c k n) (hj : c.strays[i]? = some j) :
    Later { c with strays := c.strays.eraseIdx i, output := c.output ++ [.ended j] } k n := by
  have hwritten : Later { c with output := c.output ++ [.ended j] } k n := by
    refine h.write fun i hi => ?_
    cases hi
    exact h.strays j (mem_of_getElem? hj)
  exact ⟨h.started, h.task, fun l hl => h.strays l (mem_of_mem_eraseIdx hl), hwritten.output,
    h.reading⟩

/-- The next packet is taken from the socket. -/
theorem Later.take {rest : List WorkerPacket} (h : Later c k n) (hout : c.output = x :: rest) :
    Later { c with output := rest } k n ∧ ∀ i ∈ x.stream, n ≤ i := by
  refine ⟨⟨h.started, h.task, h.strays, fun y hy => ?_, h.reading⟩, ?_⟩
  · exact h.output y (hout ▸ mem_cons_of_mem x hy)
  · exact h.output x (hout ▸ mem_cons_self)

/-- A start is accepted; a task that is replaced keeps its number. -/
theorem Later.accept (h : Later c k n) :
    Later { c with
      started := c.started + 1
      strays := c.strays ++
        (k.desktopStream.filter (·.2 = .closing)).toList.map fun _ => c.started } k' n where
  started := Nat.le_succ_of_le h.started
  task := fun _ _ _ => h.started
  strays := by
    intro i hi
    rcases mem_append.1 hi with hi | hi
    · exact h.strays i hi
    · obtain ⟨x, hx, rfl⟩ := mem_map.1 hi
      obtain ⟨hmem, hclosing⟩ := filter_eq_some_iff.1 (mem_toList.1 hx)
      refine h.task x hmem ?_
      rw [of_decide_eq_true hclosing]
      exact nofun
  output := h.output
  reading := h.reading

theorem Clear.serve {t : ConsoleWorkerPool} {s : ConsoleWorkerPool} {w : Nat}
    (h : Clear c k n frames ended) (hguarded : s.Guarded) (hk : s.workers[w]? = some k)
    (hstep : s.serve w k = some t) (hk' : t.workers[w]? = some k') :
    Clear (c.serve k) k' n frames ended := by
  obtain ⟨u, rest, ⟨hwire, haccepts, rfl⟩ | ⟨hwire, haccepts, rfl⟩ | ⟨hwire, k₁, hk₁, rfl⟩⟩ :=
    hguarded.serve_cases hk hstep
  all_goals
    rw [ConsoleWorkerPool.answer_workers] at hk'
    obtain rfl := some.inj ((slot_set hk).symm.trans hk')
    unfold ClientChannels.serve
    rw [hwire]
  · simp only [haccepts, if_true]
    exact ⟨h.later.accept.respond, h.frames, h.ended⟩
  · simp only [haccepts, Bool.false_eq_true, if_false]
    refine ⟨(h.later.worker fun x hx hne => ?_).respond, h.frames, h.ended⟩
    exact ⟨x, hx, hne⟩
  · refine ⟨(h.later.worker fun x hx => ?_).respond, h.frames, h.ended⟩
    rw [ConsoleWorkerPool.serveStop_eq hk₁] at hx
    cases hx

/-- An event at the worker or in the reader task. -/
theorem Clear.task {e : WorkerEvent} (h : Clear c k n frames ended)
    (hk' : ConsoleWorkerPool.stepTask k e = some k') (hc' : c.onEvent k e = some c') :
    Clear c' k' n frames ended := by
  cases e <;> simp only [ConsoleWorkerPool.stepTask] at hk'
  case serve => cases hk'
  case strayReports | readerReads => cases hc'
  case taskEnds =>
    split at hk' <;> cases hk'
    cases hc'
    exact ⟨h.later.worker fun x _ _ => ⟨_, ‹k.desktopStream = _›, fun hne => by cases hne⟩,
      h.frames, h.ended⟩
  case taskReports =>
    split at hk' <;> cases hk'
    rename_i v hclosing
    cases hc'
    refine ⟨(h.later.worker fun x hx hne => ?_).write fun i hi => ?_, h.frames, h.ended⟩
    · cases hx
      exact absurd rfl hne
    · cases hi
      exact h.later.task _ hclosing fun hended => by cases hended
  case readerTells =>
    split at hk' <;> cases hk'
    obtain ⟨i, hi, rfl⟩ := map_eq_some_iff.1 hc'
    refine ⟨⟨h.later.started, h.later.task, h.later.strays, h.later.output,
      fun j hj => by cases hj⟩, h.frames, h.ended.send fun j hj => ?_⟩
    cases hj
    exact h.later.reading i hi
  case readerEnds =>
    split at hk' <;> cases hk'
    cases hc'
    exact ⟨⟨h.later.started, h.later.task, h.later.strays, h.later.output, h.later.reading⟩,
      h.frames, h.ended.send fun j hj => by cases hj⟩
  case abandoned =>
    split at hk' <;> cases hk'
    cases hc'
    exact ⟨h.later.respond.worker fun x hx hne => ⟨x, hx, hne⟩, h.frames, h.ended⟩

end Clear

namespace DesktopFrames

open ConsoleWorkerPool ViewerPhase

variable {s t : DesktopFrames} {u w n w₁ : Nat} {frames ended : Receiver} {x y : Seat}
  {pool : ConsoleWorkerPool} {k : ConsoleWorker} {c : ClientChannels} {m : Move} {o : Option Nat}
  {seats : List Seat}

/-- Worker `w` is there, and what two receivers on its connection can still get is from stream `n`
or a later one. -/
def ClearAt (s : DesktopFrames) (w n : Nat) (frames ended : Receiver) : Prop :=
  ∃ c k, s.channels[w]? = some c ∧ s.pool.workers[w]? = some k ∧ Clear c k n frames ended

/-- Viewer `u` has subscribed at worker `w`, and as long as the reader task runs, what it can get is
from a stream that the worker has yet to accept. -/
def WaitsAt (s : DesktopFrames) (x : Seat) (w : Nat) : Prop :=
  ∃ q c k, x.subscription = some q ∧ q.worker = w ∧ s.channels[w]? = some c ∧
    s.pool.workers[w]? = some k ∧
    (k.readerEnded = false → q.number = none ∧ Clear c k (c.started + 1) q.frames q.ended)

/-- The subscription has the number of a stream that worker `w` has accepted, and what it can get is
from this stream or a later one. -/
def NumberedAt (s : DesktopFrames) (x : Seat) (w : Nat) : Prop :=
  ∃ q n, x.subscription = some q ∧ q.worker = w ∧ q.number = some n ∧ s.ClearAt w n q.frames q.ended

structure Separate (s : DesktopFrames) : Prop where
  guarded : s.pool.Guarded
  channels : s.channels.length = s.pool.workers.length
  seats : s.seats.length = s.pool.viewers.length
  subscribed : ∀ (u : Nat) (p : ViewerPhase) (w : Nat) (x : Seat), s.pool.viewers[u]? = some p →
    p.subscribedAt = some w → s.seats[u]? = some x → s.WaitsAt x w
  accepted : ∀ (u : Nat) (p : ViewerPhase) (w : Nat) (x : Seat), s.pool.viewers[u]? = some p →
    p.acceptedAt = some w → s.seats[u]? = some x → s.NumberedAt x w
  desktop : ∀ x ∈ s.seats, ∀ d ∈ x.desktop, s.ClearAt d.worker d.number d.frames d.ended
  returned : ∀ x ∈ s.seats, ∀ r ∈ x.returned, ∀ i ∈ r.2.stream, r.1 ≤ i

theorem Separate.new : Separate new where
  guarded := .new
  channels := rfl
  seats := rfl
  subscribed := nofun
  accepted := nofun
  desktop := nofun
  returned := nofun

/-- Connections stay, and stay clear. -/
structure Steady (s t : DesktopFrames) : Prop where
  length : t.channels.length = t.pool.workers.length
  forth : ∀ (w : Nat) (c : ClientChannels) (k : ConsoleWorker), s.channels[w]? = some c →
    s.pool.workers[w]? = some k → ∃ c' k', t.channels[w]? = some c' ∧
      t.pool.workers[w]? = some k' ∧ (k'.readerEnded = false → k.readerEnded = false) ∧
      ∀ n frames ended, Clear c k n frames ended → Clear c' k' n frames ended

theorem Steady.clearAt (h : Steady s t) (hclear : s.ClearAt w n frames ended) :
    t.ClearAt w n frames ended := by
  obtain ⟨c, k, hc, hk, hclear⟩ := hclear
  obtain ⟨c', k', hc', hk', -, hstay⟩ := h.forth w c k hc hk
  exact ⟨c', k', hc', hk', hstay n frames ended hclear⟩

theorem Steady.numberedAt (h : Steady s t) (hx : s.NumberedAt x w) : t.NumberedAt x w := by
  obtain ⟨q, n, hq, hw, hn, hclear⟩ := hx
  exact ⟨q, n, hq, hw, hn, h.clearAt hclear⟩

/-- A viewer that waits goes on to wait, if the worker does not accept a start. -/
theorem Steady.waitsAt (h : Steady s t) (hx : s.WaitsAt x w)
    (hstarted : ∀ (c c' : ClientChannels) (k : ConsoleWorker), s.channels[w]? = some c →
      t.channels[w]? = some c' → s.pool.workers[w]? = some k → k.readerEnded = false →
      c'.started = c.started) : t.WaitsAt x w := by
  obtain ⟨q, c, k, hq, hw, hc, hk, hclear⟩ := hx
  obtain ⟨c', k', hc', hk', hreader, hstay⟩ := h.forth w c k hc hk
  refine ⟨q, c', k', hq, hw, hc', hk', fun hreader' => ?_⟩
  obtain ⟨hnone, hclear⟩ := hclear (hreader hreader')
  rw [hstarted c c' k hc hc' hk (hreader hreader')]
  exact ⟨hnone, hstay _ _ _ hclear⟩

/-- The connections of the pool are as they were, apart from what viewers change about them. -/
theorem Steady.viewer {p p' : ViewerPhase} (h : s.channels.length = s.pool.workers.length)
    (he : s.pool.ViewerEffect pool u p p') :
    Steady s { s with pool, seats := s.seats.set u x } where
  length := by
    rw [h]
    rcases he.workers with ⟨heq, -⟩ | ⟨w, k, k', -, heq, -⟩
    · rw [heq]
    · rw [heq, length_set]
  forth := by
    intro w c k hc hk
    obtain ⟨k', hk', ⟨rfl, -⟩ | htouch⟩ := he.touched hk
    · exact ⟨c, k', hc, hk', id, fun _ _ _ hclear => hclear⟩
    · refine ⟨c, k', hc, hk', fun hreader => ?_, fun _ _ _ hclear => ?_⟩
      · rw [← htouch.readerEnded_eq]
        exact hreader
      · refine ⟨hclear.later.worker fun y hy hne => ⟨y, ?_, hne⟩, hclear.frames, hclear.ended⟩
        rwa [htouch.desktopStream_eq] at hy

/-- Connection `w` changes. -/
theorem Steady.channel {c' : ClientChannels} {k' : ConsoleWorker}
    (h : s.channels.length = s.pool.workers.length) (hc : s.channels[w]? = some c)
    (hk : s.pool.workers[w]? = some k) (hchannels : t.channels = s.channels.set w c')
    (hworkers : t.pool.workers = s.pool.workers.set w k')
    (hreader : k'.readerEnded = false → k.readerEnded = false)
    (hclear : ∀ n frames ended, Clear c k n frames ended → Clear c' k' n frames ended) :
    Steady s t where
  length := by rw [hchannels, hworkers, length_set, length_set, h]
  forth := by
    intro w₁ c₁ k₁ hc₁ hk₁
    rw [hchannels, hworkers]
    by_cases hw : w₁ = w
    · subst hw
      cases hc.symm.trans hc₁
      cases hk.symm.trans hk₁
      exact ⟨c', k', slot_set hc, slot_set hk, hreader, hclear⟩
    · exact ⟨c₁, k₁, by rw [getElem?_set_ne (Ne.symm hw), hc₁],
        by rw [getElem?_set_ne (Ne.symm hw), hk₁], id, fun _ _ _ => id⟩

/-- Connection `w` changes, and no start is accepted there. -/
theorem Separate.channel {c' : ClientChannels} {k' : ConsoleWorker} (h : Separate s)
    (hc : s.channels[w]? = some c) (hk : s.pool.workers[w]? = some k) (hguarded : t.pool.Guarded)
    (hviewers : t.pool.viewers = s.pool.viewers) (hseats : t.seats = s.seats)
    (hchannels : t.channels = s.channels.set w c')
    (hworkers : t.pool.workers = s.pool.workers.set w k') (hstarted : c'.started = c.started)
    (hreader : k'.readerEnded = false → k.readerEnded = false)
    (hclear : ∀ n frames ended, Clear c k n frames ended → Clear c' k' n frames ended) :
    Separate t := by
  have hsteady : Steady s t := .channel h.channels hc hk hchannels hworkers hreader hclear
  refine ⟨hguarded, hsteady.length, ?_, fun u p w₁ x hp hw₁ hx => ?_, fun u p w₁ x hp hw₁ hx => ?_,
    fun x hx d hd => ?_, ?_⟩
  · rw [hseats, hviewers, h.seats]
  · rw [hviewers] at hp
    rw [hseats] at hx
    refine hsteady.waitsAt (h.subscribed u p w₁ x hp hw₁ hx) fun c₁ c₂ k₁ hc₁ hc₂ _ _ => ?_
    rw [hchannels] at hc₂
    rcases of_slot_set hc₂ with ⟨rfl, rfl⟩ | ⟨-, hc₂⟩
    · rw [hstarted, some.inj (hc.symm.trans hc₁)]
    · rw [some.inj (hc₁.symm.trans hc₂)]
  · rw [hviewers] at hp
    rw [hseats] at hx
    exact hsteady.numberedAt (h.accepted u p w₁ x hp hw₁ hx)
  · rw [hseats] at hx
    exact hsteady.clearAt (h.desktop x hx d hd)
  · rw [hseats]
    exact h.returned

/-- An event at worker `w` that serves no request changes its connection. -/
theorem Separate.event {e : WorkerEvent} {c' : ClientChannels} (h : Separate s)
    (hpool : s.pool.step (.worker w e) = some pool) (he : e ≠ .serve) (hkept : e ≠ .abandoned)
    (hc : s.channels[w]? = some c) (hstarted : c'.started = c.started)
    (hclear : ∀ k k', s.pool.workers[w]? = some k → stepTask k e = some k' →
      ∀ n frames ended, Clear c k n frames ended → Clear c' k' n frames ended) :
    Separate ⟨pool, s.channels.set w c', s.seats⟩ := by
  have hlost : ∀ w', DesktopAction.worker w e ≠ .worker w' .abandoned := by
    rintro w' ⟨⟩
    exact hkept rfl
  have hguarded := h.guarded.step hlost hpool
  cases StepMove.of_step h.guarded.fresh hlost hpool with
  | serve => exact absurd rfl he
  | task _ _ hk hk' =>
    exact h.channel hc hk hguarded rfl rfl rfl rfl hstarted
      (fun hreader => ((stepTask_frame hk').2.1 hreader).2) (hclear _ _ hk hk')

/-- Viewer `u` moves. -/
theorem Separate.move {p p' : ViewerPhase} {x₀ : Seat} (h : Separate s)
    (hp : s.pool.viewers[u]? = some p) (hx₀ : s.seats[u]? = some x₀)
    (hmove : s.pool.ViewerMove u m p p' pool) (hsame : m = .write true → x = x₀)
    (hsubscribe : ∀ q w, m = .subscribe → p = .subscribing q w → s.WaitsAt x w)
    (hdesktop : ∀ d ∈ x.desktop, s.ClearAt d.worker d.number d.frames d.ended)
    (hreturned : ∀ r ∈ x.returned, ∀ i ∈ r.2.stream, r.1 ≤ i) :
    Separate { s with pool := pool.goTo u p', seats := s.seats.set u x } := by
  have he := hmove.effect
  have hsteady : Steady s { s with pool := pool.goTo u p', seats := s.seats.set u x } :=
    .viewer h.channels he
  -- a move accepts no start
  have hwaits : ∀ {y w}, s.WaitsAt y w →
      ({ s with pool := pool.goTo u p', seats := s.seats.set u x } : DesktopFrames).WaitsAt y
        w := by
    intro y w hy
    refine hsteady.waitsAt hy fun c c' k hc hc' _ _ => ?_
    rw [some.inj (hc.symm.trans hc')]
  refine ⟨h.guarded.viewer hp he, hsteady.length, ?_, fun v q w y hq hw hy => ?_,
    fun v q w y hq hw hy => ?_, fun y hy d hd => ?_, fun y hy => ?_⟩
  · dsimp only
    rw [length_set, he.viewers, length_set, h.seats]
  · dsimp only at hq
    rw [he.phase hp] at hq
    rcases of_slot_set hy with ⟨rfl, rfl⟩ | ⟨hv, hy⟩
    · rw [if_pos rfl] at hq
      cases hq
      rcases hmove.subscribed hw with ⟨hm, hw⟩ | ⟨hm, q, hpq⟩
      · rw [hsame hm]
        exact hwaits (h.subscribed v p w x₀ hp hw hx₀)
      · exact hwaits (hsubscribe q w hm hpq)
    · rw [if_neg hv] at hq
      exact hwaits (h.subscribed v q w y hq hw hy)
  · dsimp only at hq
    rw [he.phase hp] at hq
    rcases of_slot_set hy with ⟨rfl, rfl⟩ | ⟨hv, hy⟩
    · rw [if_pos rfl] at hq
      cases hq
      cases hmove.acceptedAt_eq.symm.trans hw
    · rw [if_neg hv] at hq
      exact hsteady.numberedAt (h.accepted v q w y hq hw hy)
  · rcases mem_or_eq_of_mem_set hy with hy | rfl
    · exact hsteady.clearAt (h.desktop y hy d hd)
    · exact hsteady.clearAt (hdesktop d hd)
  · rcases mem_or_eq_of_mem_set hy with hy | rfl
    · exact h.returned y hy
    · exact hreturned

/-! ## Steps -/

/-- When a viewer subscribes, nothing of an earlier stream is left at the worker: no task that runs
or has yet to report its end, no frame and no ending on the socket or with the reader task. And no
request is dropped while its response is on the way. -/
def Cleared (s : DesktopFrames) : FrameAction → Prop
  | .pool (.viewer u .subscribe) => ∀ p ∈ s.pool.viewers[u]?, ∀ w ∈ p.subscribesAt,
      ∀ c ∈ s.channels[w]?, ∀ k ∈ s.pool.workers[w]?,
        (∀ x ∈ k.desktopStream, x.2 = .ended) ∧ c.strays = [] ∧
          (∀ x ∈ c.output, x.stream = none) ∧ c.reading = none
  | .pool (.worker _ .abandoned) => False
  | _ => True

instance (s : DesktopFrames) (a : FrameAction) : Decidable (s.Cleared a) := by
  unfold Cleared
  split <;> infer_instance

theorem onMove_receive {x' : Seat} (h : s.onMove u x .receive = some x') :
    x' = x ∨ ∃ q w seen y i, s.pool.viewers[u]? = some (.startSent q w seen (some .started)) ∧
      x.subscription = some y ∧
      x' = { x with
        subscription := none
        desktop := some ⟨y.worker, y.frames, y.ended, y.number.getD i, false, true, false,
          false⟩ } := by
  simp only [onMove] at h
  split at h
  · rename_i q w seen r hq
    obtain ⟨c, hc, hmove⟩ := bind_eq_some_iff.1 h
    split at hmove
    · cases hmove
    split at hmove
    · rename_i hr
      obtain ⟨y, hy, hx'⟩ := map_eq_some_iff.1 hmove
      exact .inr ⟨q, w, seen, y, _, hr ▸ hq, hy, hx'.symm⟩
    · cases hmove
      exact .inl rfl
  · obtain ⟨c, hc, hmove⟩ := bind_eq_some_iff.1 h
    split at hmove <;> cases hmove
    exact .inl rfl
  · cases h

theorem Separate.viewer (h : Separate s) (hguard : s.Cleared (.pool (.viewer u m)))
    (hstep : s.stepPool (.viewer u m) = some t) : Separate t := by
  obtain ⟨pool, hpool, hstep⟩ := bind_eq_some_iff.1 hstep
  obtain ⟨p, hp, hpool⟩ := bind_eq_some_iff.1 hpool
  obtain ⟨p', pool', hviewer, rfl⟩ := ViewerMove.of_stepViewer h.guarded.fresh hpool
  obtain ⟨x, hx, hstep⟩ := bind_eq_some_iff.1 hstep
  obtain ⟨x', hmove, rfl⟩ := map_eq_some_iff.1 hstep
  have hdesktop := h.desktop x (mem_of_getElem? hx)
  have hreturned := h.returned x (mem_of_getElem? hx)
  cases m
  case subscribe =>
    simp only [onMove] at hmove
    split at hmove
    · rename_i q w hq
      cases hp.symm.trans hq
      obtain ⟨c, hc, rfl⟩ := map_eq_some_iff.1 hmove
      refine h.move hp hx hviewer (nofun) (fun q' w' _ hq' => ?_) hdesktop hreturned
      cases hq'
      obtain ⟨k, hk⟩ : ∃ k, s.pool.workers[w]? = some k := by
        have hlt := h.channels ▸ lt_of_slot hc
        exact ⟨_, getElem?_eq_getElem hlt⟩
      obtain ⟨htask, hstrays, hout, hreading⟩ := hguard _ hp w rfl c hc k hk
      refine ⟨_, c, k, rfl, rfl, hc, hk, fun _ => ⟨rfl, ⟨?_, ?_, ?_, ?_, ?_⟩, .subscribe,
        .subscribe⟩⟩
      · exact Nat.le_refl _
      · exact fun y hy hne => absurd (htask y hy) hne
      · rw [hstrays]
        exact fun i hi => by cases hi
      · intro y hy i hi
        rw [hout y hy] at hi
        cases hi
      · rw [hreading]
        exact fun i hi => by cases hi
    · cases hmove
  case receive =>
    refine h.move hp hx hviewer (nofun) (nofun) ?_ ?_
    · rcases onMove_receive hmove with rfl | ⟨q, w, seen, y, i, hq, hy, rfl⟩
      · exact hdesktop
      · -- the handle is made of the subscription
        obtain ⟨y', n, hy', hw, hn, hclear⟩ := h.accepted u _ w x hq rfl hx
        cases hy.symm.trans hy'
        rw [hn]
        intro d hd
        cases hd
        exact hw ▸ hclear
    · rcases onMove_receive hmove with rfl | ⟨q, w, seen, y, i, hq, hy, rfl⟩
      · exact hreturned
      · exact hreturned
  case frameError => cases hmove
  all_goals
    cases hmove
    exact h.move hp hx hviewer (fun _ => rfl) (nofun) hdesktop hreturned

/-- An event at a worker that serves no request. -/
theorem Separate.task {e : WorkerEvent} (h : Separate s) (he : e ≠ .serve)
    (hkept : e ≠ .abandoned) (hstep : s.stepPool (.worker w e) = some t) : Separate t := by
  obtain ⟨pool, hpool, hstep⟩ := bind_eq_some_iff.1 hstep
  obtain ⟨k, hk, hstep⟩ := bind_eq_some_iff.1 hstep
  obtain ⟨c, hc, hstep⟩ := bind_eq_some_iff.1 hstep
  obtain ⟨c', hc', rfl⟩ := map_eq_some_iff.1 hstep
  have hstarted : c'.started = c.started ∧ startAccepted k e = none := by
    cases e
    case serve => exact absurd rfl he
    case strayReports | readerReads => cases hc'
    case readerTells =>
      obtain ⟨i, -, rfl⟩ := map_eq_some_iff.1 hc'
      exact ⟨rfl, rfl⟩
    all_goals
      cases hc'
      exact ⟨rfl, rfl⟩
  rw [hstarted.2]
  refine h.event hpool he hkept hc hstarted.1 fun k₁ k' hk₁ hk' n frames ended hclear => ?_
  cases hk.symm.trans hk₁
  exact hclear.task hk' hc'

/-- A viewer does not wait at the worker that accepts a start of it. -/
theorem WaitsAt.accept (h : s.WaitsAt x w₁) (hw : w₁ ≠ w) : s.WaitsAt (x.accept w n) w₁ := by
  obtain ⟨q, c, k, hq, hqw, hrest⟩ := h
  refine ⟨q, c, k, ?_, hqw, hrest⟩
  rw [Seat.accept, hq, map_some, Subscription.accept, if_neg (hqw ▸ hw)]

/-- After the end of the reader task nothing matters but that the viewer has subscribed. -/
theorem WaitsAt.of_ended (h : s.WaitsAt x w) (hy : y = x ∨ y = x.accept w n)
    (hc : t.channels[w]? = some c) (hk : t.pool.workers[w]? = some k)
    (hended : k.readerEnded = true) : t.WaitsAt y w := by
  obtain ⟨q, -, -, hq, hqw, -⟩ := h
  have hvacuous : ∀ q : Subscription, k.readerEnded = false →
      q.number = none ∧ Clear c k (c.started + 1) q.frames q.ended := by
    intro q hreader
    rw [hended] at hreader
    cases hreader
  rcases hy with rfl | rfl
  · exact ⟨q, c, k, hq, hqw, hc, hk, hvacuous q⟩
  · refine ⟨q.accept w n, c, k, by rw [Seat.accept, hq, map_some], ?_, hc, hk, hvacuous _⟩
    rw [Subscription.accept, if_pos hqw]
    exact hqw

/-- A subscription keeps its number. -/
theorem NumberedAt.accept (h : s.NumberedAt x w₁) (hy : y = x ∨ y = x.accept w n) :
    s.NumberedAt y w₁ := by
  rcases hy with rfl | rfl
  · exact h
  obtain ⟨q, i, hq, hqw, hi, hclear⟩ := h
  refine ⟨q, i, ?_, hqw, hi, hclear⟩
  rw [Seat.accept, hq, map_some, Subscription.accept, hi, getD_some, ← hi, ite_id]

/-- The data of a viewer after a start may have been accepted. -/
theorem getElem?_numbered {v : Nat} (h : (numbered seats w n o)[v]? = some y) :
    ∃ y₀, seats[v]? = some y₀ ∧ (y = y₀ ∧ o ≠ some v ∨ y = y₀.accept w n ∧ o = some v) := by
  cases o with
  | none => exact ⟨y, h, .inl ⟨rfl, nofun⟩⟩
  | some u =>
    rw [numbered, getElem?_modify] at h
    obtain ⟨y₀, hy₀, hy⟩ := map_eq_some_iff.1 h
    refine ⟨y₀, hy₀, ?_⟩
    by_cases huv : u = v
    · rw [if_pos huv] at hy
      exact .inr ⟨hy.symm, by rw [huv]⟩
    · rw [if_neg huv] at hy
      exact .inl ⟨hy.symm, fun hv => huv (some.inj hv)⟩

/-- Only subscriptions are numbered. -/
theorem mem_numbered (h : y ∈ numbered seats w n o) :
    ∃ y₀ ∈ seats, y.desktop = y₀.desktop ∧ y.returned = y₀.returned := by
  obtain ⟨v, hv⟩ := getElem?_of_mem h
  obtain ⟨y₀, hy₀, ⟨rfl, -⟩ | ⟨rfl, -⟩⟩ := getElem?_numbered hv
  all_goals exact ⟨_, mem_of_getElem? hy₀, rfl, rfl⟩

theorem length_numbered : (numbered seats w n o).length = seats.length := by
  cases o with
  | none => rfl
  | some u => exact length_modify ..

/-- What serving a request at worker `w` does to the pool. -/
theorem serve_frame {p q : ConsoleWorkerPool} (hguarded : p.Guarded)
    (hk : p.workers[w]? = some k) (h : p.serve w k = some q) :
    ∃ k', q.workers = p.workers.set w k' ∧ k'.readerEnded = k.readerEnded ∧
      (k.readerEnded = true → q.viewers = p.viewers) := by
  obtain ⟨u, req, k', r, rfl, -, -, hreader, -⟩ := hguarded.serve_answer hk h
  refine ⟨k', answer_workers, hreader, fun hended => ?_⟩
  rw [answer_of_readerEnded hended]
  rfl

theorem Separate.of_steady (h : Separate s) (hsteady : Steady s t) (hguarded : t.pool.Guarded)
    (hlength : t.seats.length = t.pool.viewers.length)
    (hsubscribed : ∀ (u : Nat) (p : ViewerPhase) (w : Nat) (x : Seat),
      t.pool.viewers[u]? = some p → p.subscribedAt = some w → t.seats[u]? = some x → t.WaitsAt x w)
    (haccepted : ∀ (u : Nat) (p : ViewerPhase) (w : Nat) (x : Seat),
      t.pool.viewers[u]? = some p → p.acceptedAt = some w → t.seats[u]? = some x →
      t.NumberedAt x w)
    (hseats : ∀ x ∈ t.seats, ∃ x₀ ∈ s.seats, x.desktop = x₀.desktop ∧ x.returned = x₀.returned) :
    Separate t := by
  refine ⟨hguarded, hsteady.length, hlength, hsubscribed, haccepted, fun x hx => ?_, fun x hx => ?_⟩
  · obtain ⟨x₀, hx₀, hdesktop, -⟩ := hseats x hx
    rw [hdesktop]
    exact fun d hd => hsteady.clearAt (h.desktop x₀ hx₀ d hd)
  · obtain ⟨x₀, hx₀, -, hreturned⟩ := hseats x hx
    rw [hreturned]
    exact h.returned x₀ hx₀

def served (s : DesktopFrames) (w : Nat) (k : ConsoleWorker) (c : ClientChannels)
    (pool : ConsoleWorkerPool) : DesktopFrames :=
  ⟨pool, s.channels.set w (c.serve k),
    numbered s.seats w (c.serve k).started (startAccepted k .serve)⟩

/-- What serving a request comes to. -/
theorem stepPool_serve (hstep : s.stepPool (.worker w .serve) = some t) : ∃ k c pool,
    s.pool.workers[w]? = some k ∧ s.channels[w]? = some c ∧ s.pool.serve w k = some pool ∧
      t = s.served w k c pool := by
  obtain ⟨pool, hpool, hstep⟩ := bind_eq_some_iff.1 hstep
  obtain ⟨k, hk, hstep⟩ := bind_eq_some_iff.1 hstep
  obtain ⟨c, hc, hstep⟩ := bind_eq_some_iff.1 hstep
  obtain ⟨k₁, hk₁, hpool⟩ := bind_eq_some_iff.1 hpool
  cases hk.symm.trans hk₁
  exact ⟨k, c, pool, hk, hc, hpool, (some.inj hstep).symm⟩

/-- Without an accepted start the number of streams stays. -/
theorem serve_started (h : startAccepted k .serve = none) : (c.serve k).started = c.started := by
  unfold ClientChannels.serve
  unfold startAccepted at h
  split
  · rfl
  · rename_i u rest hwire
    simp only [hwire] at h
    split at h
    · cases h
    · rw [if_neg ‹_›]
  · rfl

/-- Worker `w` accepts a start, and nobody learns of it because the reader task has ended. -/
theorem Separate.serve_ended (h : Separate s) (hk : s.pool.workers[w]? = some k)
    (hc : s.channels[w]? = some c) (hpool : s.pool.serve w k = some pool)
    (hended : k.readerEnded = true) (hsteady : Steady s (s.served w k c pool)) :
    Separate (s.served w k c pool) := by
  obtain ⟨k', hworkers, hreader, hviewers⟩ := serve_frame h.guarded hk hpool
  refine h.of_steady hsteady (h.guarded.serve hk hpool) ?_ (fun v p w₁ y hp hw₁ hy => ?_)
    (fun v p w₁ y hp hw₁ hy => ?_) fun y => mem_numbered
  · rw [served, length_numbered, hviewers hended, h.seats]
  · rw [served, hviewers hended] at hp
    obtain ⟨y₀, hy₀, hy⟩ := getElem?_numbered hy
    have hwaits := h.subscribed v p w₁ y₀ hp hw₁ hy₀
    by_cases hw : w₁ = w
    · subst hw
      exact hwaits.of_ended (hy.imp And.left And.left) (slot_set hc) (hworkers ▸ slot_set hk)
        (hreader.trans hended)
    · refine hsteady.waitsAt ?_ fun c₁ c₂ _ hc₁ hc₂ _ _ => ?_
      · rcases hy with ⟨rfl, -⟩ | ⟨rfl, -⟩
        · exact hwaits
        · exact hwaits.accept hw
      · rw [served, getElem?_set_ne (Ne.symm hw)] at hc₂
        rw [some.inj (hc₁.symm.trans hc₂)]
  · rw [served, hviewers hended] at hp
    obtain ⟨y₀, hy₀, hy⟩ := getElem?_numbered hy
    exact (hsteady.numberedAt (h.accepted v p w₁ y₀ hp hw₁ hy₀)).accept (hy.imp And.left And.left)

/-- Worker `w` serves the request of viewer `u`, which learns of it. -/
theorem Separate.serve_running {k' : ConsoleWorker} {p p' : ViewerPhase} (h : Separate s)
    (hserved : s.pool.Served pool w u k k' p p') (hguarded : pool.Guarded)
    (hlength : pool.viewers.length = s.pool.viewers.length) (hc : s.channels[w]? = some c)
    (hreader : k.readerEnded = false) (hp' : p'.subscribedAt = none)
    (hnumbered : ∀ v, startAccepted k .serve = some v → v = u ∧ p.subscribedAt = some w)
    (haccepted : ∀ w₁, p'.acceptedAt = some w₁ → w₁ = w ∧ startAccepted k .serve = some u ∧
      (c.serve k).started = c.started + 1) (hsteady : Steady s (s.served w k c pool)) :
    Separate (s.served w k c pool) := by
  refine h.of_steady hsteady hguarded ?_ (fun v q w₁ y hq hw₁ hy => ?_)
    (fun v q w₁ y hq hw₁ hy => ?_) fun y => mem_numbered
  · rw [served, length_numbered, hlength, h.seats]
  · rw [served, hserved.viewers] at hq
    split at hq
    · cases hq
      cases hp'.symm.trans hw₁
    · rename_i hv
      obtain ⟨y₀, hy₀, ⟨rfl, -⟩ | ⟨-, hy⟩⟩ := getElem?_numbered hy
      · refine hsteady.waitsAt (h.subscribed v q w₁ y hq hw₁ hy₀) fun c₁ c₂ _ hc₁ hc₂ _ _ => ?_
        -- the start of another viewer is not accepted, because this one holds the claim lock
        have hnone : startAccepted k .serve = none := by
          cases ho : startAccepted k .serve with
          | none => rfl
          | some v' =>
            have hw := (hnumbered v' ho).2
            exact absurd (h.guarded.claim_unique hq hserved.phase
              (holdsClaim_of_subscribedAt hw₁)
              (holdsClaim_of_subscribedAt hw)) hv
        rcases of_slot_set hc₂ with ⟨rfl, rfl⟩ | ⟨-, hc₂⟩
        · rw [serve_started hnone, some.inj (hc.symm.trans hc₁)]
        · rw [some.inj (hc₁.symm.trans hc₂)]
      · exact absurd (hnumbered v hy).1 hv
  · rw [served, hserved.viewers] at hq
    obtain ⟨y₀, hy₀, hy⟩ := getElem?_numbered hy
    split at hq
    · rename_i hv
      subst hv
      cases hq
      obtain ⟨rfl, hstart, hstarted⟩ := haccepted w₁ hw₁
      obtain ⟨i, c₁, k₁, hi, hiw, hc₁, hk₁, hclear⟩ :=
        h.subscribed v p w₁ y₀ hserved.phase (hnumbered v hstart).2 hy₀
      cases hc.symm.trans hc₁
      cases hserved.worker.symm.trans hk₁
      obtain ⟨hnumber, hclear⟩ := hclear hreader
      rcases hy with ⟨-, hne⟩ | ⟨rfl, -⟩
      · exact absurd hstart hne
      · refine ⟨i.accept w₁ (c.serve k).started, c.started + 1, ?_, ?_, ?_, ?_⟩
        · rw [Seat.accept, hi, map_some]
        · rw [Subscription.accept, if_pos hiw]
          exact hiw
        · rw [Subscription.accept, if_pos hiw, hnumber, getD_none, hstarted]
        · rw [Subscription.accept, if_pos hiw]
          exact hsteady.clearAt ⟨c, k, hc, hserved.worker, hclear⟩
    · exact (hsteady.numberedAt (h.accepted v q w₁ y₀ hq hw₁ hy₀)).accept
        (hy.imp And.left And.left)

theorem Separate.serve (h : Separate s) (hstep : s.stepPool (.worker w .serve) = some t) :
    Separate t := by
  obtain ⟨k, c, pool, hk, hc, hpool, rfl⟩ := stepPool_serve hstep
  have hguarded := h.guarded.serve hk hpool
  obtain ⟨k', hworkers, hreader, -⟩ := serve_frame h.guarded hk hpool
  have hk' : pool.workers[w]? = some k' := hworkers ▸ slot_set hk
  have hsteady : Steady s (s.served w k c pool) :=
    .channel h.channels hc hk rfl hworkers (fun hr => hreader ▸ hr)
      fun n frames ended hclear => hclear.serve h.guarded hk hpool hk'
  cases hended : k.readerEnded with
  | true => exact h.serve_ended hk hc hpool hended hsteady
  | false =>
    obtain ⟨u, rest, ⟨hwire, haccepts, rfl⟩ | ⟨hwire, haccepts, rfl⟩ | ⟨hwire, k₁, hk₁, rfl⟩⟩ :=
      h.guarded.serve_cases hk hpool
    · obtain ⟨-, p, hawaits, hserved⟩ := h.guarded.served hk hended hwire _
      obtain ⟨q, seen, rfl⟩ := eq_startSent_of_awaits hawaits
      have hstart : startAccepted k .serve = some u := by
        simp [startAccepted, hwire, haccepts]
      have hstarted : (c.serve k).started = c.started + 1 := by
        simp [ClientChannels.serve, hwire, haccepts]
      refine h.serve_running (hserved _) hguarded ?_ hc hended ?_ (fun v hv => ?_)
        (fun w₁ hw₁ => ?_) hsteady
      · exact answer_length
      · simp only [answered, if_true]
        rfl
      · exact ⟨some.inj (hv.symm.trans hstart), rfl⟩
      · simp only [answered, if_true] at hw₁
        exact ⟨(some.inj hw₁).symm, hstart, hstarted⟩
    · obtain ⟨-, p, hawaits, hserved⟩ := h.guarded.served hk hended hwire _
      obtain ⟨q, seen, rfl⟩ := eq_startSent_of_awaits hawaits
      have hstart : startAccepted k .serve = none := by
        simp [startAccepted, hwire, haccepts]
      refine h.serve_running (hserved _) hguarded ?_ hc hended ?_ (fun v hv => ?_)
        (fun w₁ hw₁ => ?_) hsteady
      · exact answer_length
      · simp only [answered, if_true]
        rfl
      · rw [hstart] at hv
        cases hv
      · simp only [answered, if_true] at hw₁
        cases hw₁
    · obtain ⟨-, p, hawaits, hserved⟩ := h.guarded.served hk hended hwire _
      obtain ⟨q, rfl⟩ := eq_stopSent_of_awaits hawaits
      have hstart : startAccepted k .serve = none := by
        simp [startAccepted, hwire]
      refine h.serve_running (hserved _) hguarded ?_ hc hended ?_ (fun v hv => ?_)
        (fun w₁ hw₁ => ?_) hsteady
      · exact answer_length
      · rfl
      · rw [hstart] at hv
        cases hv
      · cases hw₁

theorem Separate.join (h : Separate s) (hstep : s.stepPool .join = some t) : Separate t := by
  cases hstep
  have hseat : ∀ {v : Nat} {p : ViewerPhase} {y : Seat}, s.pool.viewers[v]? = some p →
      (s.seats ++ [({} : Seat)])[v]? = some y → s.seats[v]? = some y := by
    intro v p y hp hy
    rwa [getElem?_append_left (h.seats ▸ lt_of_slot hp)] at hy
  refine ⟨h.guarded.join, h.channels, ?_, fun v p w y hp hw hy => ?_,
    fun v p w y hp hw hy => ?_, fun y hy => ?_, fun y hy => ?_⟩
  · simp [h.seats]
  · rcases of_slot_snoc hp with hp | ⟨-, rfl⟩
    · exact h.subscribed v p w y hp hw (hseat hp hy)
    · cases hw
  · rcases of_slot_snoc hp with hp | ⟨-, rfl⟩
    · exact h.accepted v p w y hp hw (hseat hp hy)
    · cases hw
  · rcases mem_append.1 hy with hy | hy
    · exact h.desktop y hy
    · rw [mem_singleton.1 hy]
      exact fun d hd => by cases hd
  · rcases mem_append.1 hy with hy | hy
    · exact h.returned y hy
    · rw [mem_singleton.1 hy]
      exact fun r hr => by cases hr

theorem Separate.attach {desktopReady displaySwitch supported : Bool} (h : Separate s)
    (hstep : s.stepPool (.attach desktopReady displaySwitch supported) = some t) : Separate t := by
  obtain ⟨pool, hpool, hstep⟩ := bind_eq_some_iff.1 hstep
  have hguarded := h.guarded.step (fun _ _ => by contradiction) hpool
  cases hpool
  cases hstep
  have hsteady : Steady s { s with
      pool := { s.pool with
        workers := s.pool.workers ++ [{ desktopReady, displaySwitch, supported }] }
      channels := s.channels ++ [({} : ClientChannels)] } := by
    exact ⟨by simp [h.channels],
      fun w c k hc hk => ⟨c, k, slot_snoc hc, slot_snoc hk, id, fun _ _ _ => id⟩⟩
  refine h.of_steady hsteady hguarded h.seats (fun v p w y hp hw hy => ?_)
    (fun v p w y hp hw hy => hsteady.numberedAt (h.accepted v p w y hp hw hy))
    fun y hy => ⟨y, hy, rfl, rfl⟩
  refine hsteady.waitsAt (h.subscribed v p w y hp hw hy) fun c c' _ hc hc' _ _ => ?_
  rw [some.inj ((slot_snoc hc).symm.trans hc')]

/-! ## Frames, packets and calls of `next` -/

theorem Separate.produce {f : StreamFrame} (h : Separate s)
    (hstep : s.step (.produce w f) = some t) : Separate t := by
  obtain ⟨k, hk, hstep⟩ := bind_eq_some_iff.1 hstep
  obtain ⟨c, hc, hstep⟩ := bind_eq_some_iff.1 hstep
  split at hstep
  case h_2 => cases hstep
  rename_i v hrunning
  cases hstep
  refine h.channel hc hk h.guarded rfl rfl rfl (set_slot hk).symm rfl id fun n _ _ hclear => ?_
  refine ⟨hclear.later.write fun i hi => ?_, hclear.frames, hclear.ended⟩
  cases hi
  exact hclear.later.task (v, .running) hrunning nofun

theorem Separate.strayReports {i : Nat} (h : Separate s)
    (hstep : s.step (.strayReports w i) = some t) : Separate t := by
  obtain ⟨pool, hpool, hstep⟩ := bind_eq_some_iff.1 hstep
  obtain ⟨c, hc, hstep⟩ := bind_eq_some_iff.1 hstep
  obtain ⟨n, hn, rfl⟩ := map_eq_some_iff.1 hstep
  refine h.event hpool nofun nofun hc rfl fun k k' hk hk' m _ _ hclear => ?_
  simp only [stepTask] at hk'
  split at hk' <;> cases hk'
  exact ⟨(hclear.later.report hn).worker fun x hx hne => ⟨x, hx, hne⟩, hclear.frames, hclear.ended⟩

theorem Separate.read (h : Separate s) (hstep : s.step (.read w) = some t) : Separate t := by
  obtain ⟨k, hk, hstep⟩ := bind_eq_some_iff.1 hstep
  obtain ⟨c, hc, hstep⟩ := bind_eq_some_iff.1 hstep
  unfold DesktopFrames.read at hstep
  split at hstep
  · cases hstep
  split at hstep
  · cases hstep
  · rename_i n f rest hout
    cases hstep
    refine h.channel hc hk h.guarded rfl rfl rfl (set_slot hk).symm rfl id fun m _ _ hclear => ?_
    obtain ⟨hlater, hn⟩ := hclear.later.take hout
    exact ⟨⟨hlater.started, hlater.task, hlater.strays, hlater.output, hlater.reading⟩,
      hclear.frames.send (hn n rfl), hclear.ended⟩
  · rename_i rest hout
    cases hstep
    refine h.channel hc hk h.guarded rfl rfl rfl (set_slot hk).symm rfl id fun m _ _ hclear => ?_
    exact ⟨(hclear.later.take hout).1, hclear.frames, hclear.ended⟩
  · rename_i n rest hout
    obtain ⟨pool, hpool, rfl⟩ := map_eq_some_iff.1 hstep
    refine h.event hpool nofun nofun hc rfl fun k k' hk hk' m _ _ hclear => ?_
    obtain ⟨hlater, hn⟩ := hclear.later.take hout
    simp only [stepTask] at hk'
    split at hk' <;> cases hk'
    refine ⟨⟨hlater.started, hlater.task, hlater.strays, hlater.output, fun j hj => ?_⟩,
      hclear.frames, hclear.ended⟩
    cases hj
    exact hn n rfl

/-- `next` keeps the number and the place of the handle, and returns only what it has received. -/
theorem onFrame_spec (d : ConsoleDesktopStream) (got : Received (Nat × StreamFrame)) :
    (d.onFrame got).1.number = d.number ∧ (d.onFrame got).1.worker = d.worker ∧
      (d.onFrame got).1.frames = d.frames ∧ (d.onFrame got).1.ended = d.ended ∧
      ∀ item ∈ (d.onFrame got).2, ∃ x, got = .value x ∧ item.stream = some x.1 := by
  unfold ConsoleDesktopStream.onFrame
  split
  · exact ⟨rfl, rfl, rfl, rfl, nofun⟩
  · dsimp only
    split <;> exact ⟨rfl, rfl, rfl, rfl, nofun⟩
  · dsimp only
    split
    · refine ⟨rfl, rfl, rfl, rfl, fun item h => ?_⟩
      cases h
      exact ⟨_, rfl, rfl⟩
    · split
      · split <;> exact ⟨rfl, rfl, rfl, rfl, nofun⟩
      · refine ⟨rfl, rfl, rfl, rfl, fun item h => ?_⟩
        cases h
        exact ⟨_, rfl, rfl⟩
  · refine ⟨rfl, rfl, rfl, rfl, fun item h => ?_⟩
    cases h
    exact ⟨_, rfl, rfl⟩

theorem polls_spec {d : ConsoleDesktopStream} (h : s.polls u = some (x, d, c)) :
    (∃ p, s.pool.viewers[u]? = some p) ∧
      s.seats[u]? = some x ∧ x.desktop = some d ∧ s.channels[d.worker]? = some c := by
  unfold polls at h
  split at h
  · rename_i id w seen hp
    obtain ⟨x', hx', h⟩ := bind_eq_some_iff.1 h
    obtain ⟨d', hd', h⟩ := bind_eq_some_iff.1 h
    obtain ⟨c', hc', h⟩ := map_eq_some_iff.1 h
    cases h
    exact ⟨⟨_, hp⟩, hx', hd', hc'⟩
  · cases h

/-- The data of viewer `u` change, and it stays where it is. -/
theorem Separate.seat {x₀ : Seat} (h : Separate s) (hx₀ : s.seats[u]? = some x₀)
    (hsubscription : x.subscription = x₀.subscription)
    (hdesktop : ∀ d ∈ x.desktop, s.ClearAt d.worker d.number d.frames d.ended)
    (hreturned : ∀ r ∈ x.returned, ∀ i ∈ r.2.stream, r.1 ≤ i) :
    Separate { s with seats := s.seats.set u x } := by
  refine ⟨h.guarded, h.channels, ?_, fun v p w y hp hw hy => ?_, fun v p w y hp hw hy => ?_,
    fun y hy => ?_, fun y hy => ?_⟩
  · dsimp only
    rw [length_set, h.seats]
  · rcases of_slot_set hy with ⟨rfl, rfl⟩ | ⟨-, hy⟩
    · obtain ⟨q, hrest⟩ := h.subscribed v p w x₀ hp hw hx₀
      exact ⟨q, hsubscription ▸ hrest⟩
    · exact h.subscribed v p w y hp hw hy
  · rcases of_slot_set hy with ⟨rfl, rfl⟩ | ⟨-, hy⟩
    · obtain ⟨q, n, hrest⟩ := h.accepted v p w x₀ hp hw hx₀
      exact ⟨q, n, hsubscription ▸ hrest⟩
    · exact h.accepted v p w y hp hw hy
  · rcases mem_or_eq_of_mem_set hy with hy | rfl
    · exact h.desktop y hy
    · exact hdesktop
  · rcases mem_or_eq_of_mem_set hy with hy | rfl
    · exact h.returned y hy
    · exact hreturned

theorem Separate.pollFrames (h : Separate s) (hstep : s.step (.pollFrames u) = some t) :
    Separate t := by
  obtain ⟨⟨x, d, c⟩, hpolls, hstep⟩ := bind_eq_some_iff.1 hstep
  obtain ⟨-, hx, hd, hc⟩ := polls_spec hpolls
  dsimp only at hstep
  split at hstep
  · cases hstep
  cases hstep
  obtain ⟨c₁, k, hc₁, hk, hclear⟩ := h.desktop x (mem_of_getElem? hx) d hd
  cases hc.symm.trans hc₁
  obtain ⟨hnumber, hworker, hframes, hended, hitem⟩ := onFrame_spec
    { d with frames := (c.desktopFrames.recv d.frames).2 } (c.desktopFrames.recv d.frames).1
  refine h.seat hx rfl (fun d' hd' => ?_) fun r hr => ?_
  · cases hd'
    rw [hnumber, hworker, hframes, hended]
    exact ⟨c, k, hc, hk, hclear.later, hclear.frames.recv, hclear.ended⟩
  · rcases mem_append.1 hr with hr | hr
    · exact h.returned x (mem_of_getElem? hx) r hr
    · obtain ⟨item, hmem, rfl⟩ := mem_map.1 hr
      obtain ⟨y, hy, hstream⟩ := hitem item (mem_toList.1 hmem)
      intro i hi
      cases hstream.symm.trans hi
      exact hclear.frames.value hy

theorem Separate.pollEnded (h : Separate s) (hstep : s.step (.pollEnded u) = some t) :
    Separate t := by
  obtain ⟨⟨x, d, c⟩, hpolls, hstep⟩ := bind_eq_some_iff.1 hstep
  obtain ⟨-, hx, hd, hc⟩ := polls_spec hpolls
  obtain ⟨c₁, k, hc₁, hk, hclear⟩ := h.desktop x (mem_of_getElem? hx) d hd
  cases hc.symm.trans hc₁
  have hreturned := h.returned x (mem_of_getElem? hx)
  have hdesktop : s.ClearAt d.worker d.number d.frames (c.desktopEnded.recv d.ended).2 :=
    ⟨c, k, hc, hk, hclear.later, hclear.frames, hclear.ended.recv⟩
  dsimp only at hstep
  split at hstep
  · cases hstep
  · cases hstep
    refine h.seat hx rfl (fun d' hd' => ?_) hreturned
    cases hd'
    exact hdesktop
  · rename_i n hn
    obtain ⟨pool, hpool, rfl⟩ := map_eq_some_iff.1 hstep
    obtain ⟨p, hp, hpool⟩ := bind_eq_some_iff.1 hpool
    obtain ⟨p', pool', hviewer, rfl⟩ := ViewerMove.of_stepViewer h.guarded.fresh hpool
    refine h.move hp hx hviewer (nofun) (nofun)
      (fun d' hd' => ?_) fun r hr => ?_
    · cases hd'
      exact hdesktop
    · rcases mem_append.1 hr with hr | hr
      · exact hreturned r hr
      · rw [mem_singleton.1 hr]
        exact hclear.ended.value hn

theorem Separate.step {a : FrameAction} (h : Separate s) (hguard : s.Cleared a)
    (hstep : s.step a = some t) : Separate t := by
  cases a with
  | pool a =>
    cases a with
    | join => exact h.join hstep
    | attach desktopReady displaySwitch supported => exact h.attach hstep
    | viewer u m => exact h.viewer hguard hstep
    | worker w e =>
      by_cases he : e = .serve
      · subst he
        exact h.serve hstep
      · refine h.task he ?_ hstep
        rintro rfl
        exact hguard
  | produce w f => exact h.produce hstep
  | strayReports w i => exact h.strayReports hstep
  | read w => exact h.read hstep
  | pollFrames u => exact h.pollFrames hstep
  | pollEnded u => exact h.pollEnded hstep

end DesktopFrames

end RivetLink.Agent
