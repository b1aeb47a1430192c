import RivetLink.Agent.StopOwnership

/-!
# View-only devices and running streams

A device that may only view claims the stream of the current worker if it finds the flag of that
worker down. It then raises the owner counter, and every other viewer sees that it is taken over.
`RunsAt` says that the stream of a viewer is running: it was started, the viewer has not begun to
stop it, and neither the worker nor the loss of the connection has ended it.

The flag does not always tell. The current worker may be another one than the worker of the stream
(`replaced_worker_displaces`). The flag of a running stream may also be down: the end of an earlier
stream is reported after the flag was set for the next one, or the stop of an earlier viewer lowers
it. `Settled` excludes this: a viewer sets the flag only when no other viewer is engaged with the
worker and nothing is left of earlier streams, and it looks at the worker at which streams run.
Under this condition a view-only device finds the stream free only while no stream is running
(`view_only_displaces_none`). `Lit` is the invariant: the flag of a running stream is up.
-/

namespace RivetLink.Agent

open List Option RivetLink.Foundation

namespace ViewerPhase

/-- The worker at which the viewer has a stream that it has not begun to stop. -/
def streamsAt : ViewerPhase → Option Nat
  | .streaming _ w _ | .waitingLogin w | .judging _ w _ | .checkingOwner _ w _ => some w
  | .storing _ w => some w
  | _ => none

/-- The worker with which the viewer is engaged: from setting the flag to the end of its stop. -/
def engagedAt : ViewerPhase → Option Nat
  | .streaming _ w _ | .waitingLogin w | .judging _ w _ | .checkingOwner _ w _ => some w
  | .storing _ w | .stopQueued _ w | .stopSent _ w _ | .swapping (.switch _ _) w => some w
  | .subscribing _ w | .startQueued _ w _ | .startSent _ w _ _ | .clearing _ w => some w
  | _ => none

/-- The worker whose flag the viewer is about to set. -/
def swapsAt : ViewerPhase → Option Nat
  | .swapping _ w => some w
  | _ => none

/-- The worker to which the viewer is about to write the stop of a display switch. -/
def switchesAt : ViewerPhase → Option Nat
  | .stopQueued (.switch _ _) w => some w
  | _ => none

/-- The viewer has raised the owner counter, or has given up. -/
def late : ViewerPhase → Bool
  | .arriving | .claiming _ | .checking | .probing _ | .bumping => false
  | _ => true

variable {r : StreamResponse} {w : Nat} {p : ViewerPhase}

theorem streamsAt_answered : (p.answered w r).streamsAt = p.streamsAt := by
  unfold answered
  split <;> rfl

theorem answered_late : p.answered w r = p ∨ (p.answered w r).late = true := by
  unfold answered
  split
  · exact .inr rfl
  · exact .inr rfl
  · exact .inl rfl

theorem engagedAt_answered : (p.answered w r).engagedAt = p.engagedAt := by
  unfold answered
  split <;> rfl

end ViewerPhase

namespace ConsoleWorker

/-- Everything that streams have reported has reached the subscribers. -/
def Silent (k : ConsoleWorker) : Prop := k.notices = 0 ∧ k.strays = 0 ∧ k.telling = false

/-- The streams so far are over, and nothing about them is on its way. -/
def AtRest (k : ConsoleWorker) : Prop := (∀ x ∈ k.desktopStream, x.2 = .ended) ∧ k.Silent

instance (k : ConsoleWorker) : Decidable k.Silent := by
  unfold Silent
  infer_instance

instance (k : ConsoleWorker) : Decidable k.AtRest := by
  unfold AtRest
  infer_instance

theorem AtRest.not_running {k : ConsoleWorker} {v : Nat} (h : k.AtRest) :
    k.desktopStream ≠ some (v, .running) := by
  intro hv
  have hended := h.1 _ hv
  cases hended

/-- The two agree in everything about tasks and their reports. -/
structure SameTask (k k' : ConsoleWorker) : Prop where
  desktopStream : k'.desktopStream = k.desktopStream
  notices : k'.notices = k.notices
  strays : k'.strays = k.strays
  telling : k'.telling = k.telling
  readerEnded : k'.readerEnded = k.readerEnded

theorem SameTask.refl (k : ConsoleWorker) : SameTask k k := ⟨rfl, rfl, rfl, rfl, rfl⟩

end ConsoleWorker

namespace ConsoleWorkerPool

variable {s t : ConsoleWorkerPool} {u v w w₁ : Nat} {m : Move} {p p' : ViewerPhase}
  {k k' : ConsoleWorker} {e : WorkerEvent} {f : ViewerPhase → ViewerPhase} {a : DesktopAction}

/-- The stream of viewer `v` is running at worker `w`. -/
def RunsAt (s : ConsoleWorkerPool) (v w : Nat) : Prop :=
  s.viewers[v]?.bind ViewerPhase.streamsAt = some w ∧
    ∃ k ∈ s.workers[w]?, k.desktopStream = some (v, .running) ∧ k.readerEnded = false

instance (s : ConsoleWorkerPool) (v w : Nat) : Decidable (s.RunsAt v w) := by
  unfold RunsAt
  infer_instance

/-- The flag is set when no other viewer is engaged with the worker and nothing is left of earlier
streams; the stop of a display switch is written as long as the connection is up; a view-only device
looks at the worker at which streams run; and no request is dropped while its response is on the
way. -/
def Settled (s : ConsoleWorkerPool) : DesktopAction → Prop
  | .viewer u .swap => ∀ p ∈ s.viewers[u]?, ∀ w ∈ p.swapsAt,
      (∀ v < s.viewers.length, s.viewers[v]?.bind ViewerPhase.engagedAt = some w → v = u) ∧
        ∀ k ∈ s.workers[w]?, k.AtRest
  | .viewer u (.write false) => ∀ p ∈ s.viewers[u]?, ∀ w ∈ p.switchesAt,
      ∀ k ∈ s.workers[w]?, k.readerEnded = true
  | .viewer u (.current (some w)) => s.viewers[u]? = some .checking →
      ∀ v < s.viewers.length, ∀ w' < s.workers.length, s.RunsAt v w' → w' = w
  | .worker _ e => e ≠ .abandoned
  | _ => True

theorem Settled.not_abandoned (h : s.Settled a) (w : Nat) : a ≠ .worker w .abandoned := by
  rintro rfl
  exact h rfl

instance (s : ConsoleWorkerPool) (a : DesktopAction) : Decidable (s.Settled a) := by
  unfold Settled
  split <;> infer_instance

/-- What is known of worker `k` while viewer `v`, engaged with it, is at a phase. -/
def Fit (v : Nat) (k : ConsoleWorker) : ViewerPhase → Prop
  -- the flag is set and no stream is there
  | .subscribing _ _ | .startQueued _ _ _ | .startSent _ _ _ none =>
    k.desktopStreamActive = true ∧ k.AtRest
  -- the viewer has a stream; as long as it runs, the flag is up
  | .startSent _ _ _ (some .started) | .streaming _ _ _ | .waitingLogin _ | .judging _ _ _ =>
    k.desktopStream = some (v, .running) → k.desktopStreamActive = true ∧ k.Silent
  | .checkingOwner _ _ _ | .storing _ _ =>
    k.desktopStream = some (v, .running) → k.desktopStreamActive = true ∧ k.Silent
  -- the viewer has lowered the flag and waits for its stream to be stopped
  | .stopQueued _ _ | .stopSent _ _ none => True
  -- the stream is stopped, or has not been started
  | _ => k.desktopStream ≠ some (v, .running)

/-- What a move of viewer `u` does to the flags, and what is known of the worker afterwards. -/
structure Turn (s t : ConsoleWorkerPool) (u : Nat) (p p' : ViewerPhase) : Prop where
  viewers : t.viewers = s.viewers.set u p'
  engaged : ∀ w, p'.engagedAt = some w → p.engagedAt = some w ∨ p.swapsAt = some w
  streams : ∀ w, p'.streamsAt = some w → p.streamsAt = some w ∨ p.holdsClaim = true
  late : p.late = true → p'.late = true
  known : ∀ w, p'.engagedAt = some w → p.engagedAt = some w ∨ w < s.workers.length
  length : t.workers.length = s.workers.length
  workers : ∀ (w : Nat) (k' : ConsoleWorker), t.workers[w]? = some k' →
    ∃ k, s.workers[w]? = some k ∧ k.SameTask k' ∧
      (k'.desktopStreamActive = k.desktopStreamActive ∨ p.engagedAt = some w ∨
        p.swapsAt = some w) ∧
      (p'.engagedAt = some w → k'.readerEnded = false → (p.engagedAt = some w → Fit u k p) →
        (p.swapsAt = some w → k.AtRest) → Fit u k' p')

/-- A move that touches no connection. -/
theorem Turn.quiet (hviewers : t.viewers = s.viewers) (hworkers : t.workers = s.workers)
    (hengaged : p'.engagedAt = none ∨ p'.engagedAt = p.engagedAt ∧ ∀ k, Fit u k p → Fit u k p')
    (hstreams : p'.streamsAt = none ∨ p'.streamsAt = p.streamsAt ∨ p.holdsClaim = true)
    (hlate : p.late = true → p'.late = true) : Turn s (t.goTo u p') u p p' where
  viewers := congrArg (·.set u p') hviewers
  engaged := fun w hw => by
    rcases hengaged with hnone | ⟨heq, -⟩
    · cases hnone.symm.trans hw
    · exact .inl (heq ▸ hw)
  streams := fun w hw => by
    rcases hstreams with hnone | heq | hholds
    · cases hnone.symm.trans hw
    · exact .inl (heq ▸ hw)
    · exact .inr hholds
  late := hlate
  known := fun w hw => by
    rcases hengaged with hnone | ⟨heq, -⟩
    · cases hnone.symm.trans hw
    · exact .inl (heq ▸ hw)
  length := congrArg List.length hworkers
  workers := fun w k' hk' => ⟨k', hworkers ▸ hk', .refl k', .inl rfl, fun hw _ hp _ => by
    rcases hengaged with hnone | ⟨heq, hfit⟩
    · cases hnone.symm.trans hw
    · exact hfit k' (hp (heq ▸ hw))⟩

/-- A move that touches connection `w`. -/
theorem Turn.touch (hk : s.workers[w]? = some k) (hviewers : t.viewers = s.viewers)
    (hworkers : t.workers = s.workers.set w k')
    (hengaged : p'.engagedAt = none ∨ p'.engagedAt = some w)
    (hp : p.engagedAt = some w ∨ p.swapsAt = some w)
    (hstreams : p'.streamsAt = none ∨ p.holdsClaim = true)
    (hlate : p'.late = true) (hsame : k.SameTask k')
    (hfit : k'.readerEnded = false → (p.engagedAt = some w → Fit u k p) →
      (p.swapsAt = some w → k.AtRest) → Fit u k' p' ∨ p'.engagedAt = none) :
    Turn s (t.goTo u p') u p p' := by
  have hw : ∀ w', p'.engagedAt = some w' → w' = w := by
    intro w' hw'
    rcases hengaged with hnone | heq
    · cases hnone.symm.trans hw'
    · exact some.inj (hw'.symm.trans heq)
  refine ⟨congrArg (·.set u p') hviewers, fun w' hw' => hw w' hw' ▸ hp, fun w' hw' => ?_,
    fun _ => hlate, fun w' hw' => .inr (hw w' hw' ▸ lt_of_slot hk),
    (congrArg List.length hworkers).trans length_set, fun w₁ k₁ hk₁ => ?_⟩
  · refine hstreams.elim (fun hnone => ?_) .inr
    cases hnone.symm.trans hw'
  · rw [goTo, hworkers] at hk₁
    rcases of_slot_set hk₁ with ⟨rfl, rfl⟩ | ⟨hne, hk₁⟩
    · refine ⟨k, hk, hsame, .inr hp, fun hengaged hreader hp hrest => ?_⟩
      refine (hfit hreader hp hrest).resolve_right fun hnone => ?_
      cases hnone.symm.trans hengaged
    · exact ⟨k₁, hk₁, .refl k₁, .inl rfl, fun hengaged => absurd (hw w₁ hengaged) hne⟩

/-- The viewer stays engaged with the connection that it touches. -/
theorem Turn.stay (hk : s.workers[w]? = some k) (hviewers : t.viewers = s.viewers)
    (hworkers : t.workers = s.workers.set w k') (hp : p.engagedAt = some w)
    (hp' : p'.engagedAt = some w) (hstreams : p'.streamsAt = none ∨ p.holdsClaim = true)
    (hlate : p'.late = true) (hsame : k.SameTask k')
    (hfit : k'.readerEnded = false → Fit u k p → Fit u k' p') : Turn s (t.goTo u p') u p p' :=
  .touch hk hviewers hworkers (.inr hp') (.inl hp) hstreams hlate hsame
    fun hreader hfit' _ => .inl (hfit hreader (hfit' hp))

/-- The viewer is through with the connection that it touches. -/
theorem Turn.leave (hk : s.workers[w]? = some k) (hviewers : t.viewers = s.viewers)
    (hworkers : t.workers = s.workers.set w k') (hp : p.engagedAt = some w)
    (hp' : p'.engagedAt = none) (hstreams : p'.streamsAt = none) (hlate : p'.late = true)
    (hsame : k.SameTask k') : Turn s (t.goTo u p') u p p' :=
  .touch hk hviewers hworkers (.inl hp') (.inl hp) (.inl hstreams) hlate hsame fun _ _ _ => .inr hp'

theorem ViewerMove.turn (h : ViewerMove s u m p p' t) (hp : s.viewers[u]? = some p)
    (hguard : s.Settled (.viewer u m)) : Turn s (t.goTo u p') u p p' := by
  have hsame : ∀ (k : ConsoleWorker) l r f, k.SameTask
      { k with requestLock := l, wire := r, desktopStreamActive := f } :=
    fun _ _ _ _ => ⟨rfl, rfl, rfl, rfl, rfl⟩
  cases h with
  | approach | probe | free => exact .quiet rfl rfl (.inl rfl) (.inl rfl) id
  | lock b => cases b <;> exact .quiet rfl rfl (.inl rfl) (.inl rfl) id
  | refuse | giveUp | noWorker | busy | bump | gone | test | sleep | ready | retry | expire =>
    exact .quiet rfl rfl (.inl rfl) (.inl rfl) fun _ => rfl
  | takenOver | leave | frameError | loginScreen | resume | switch | switchBusy | owner
  | notOwner =>
    exact .quiet rfl rfl (.inr ⟨rfl, fun _ => id⟩) (.inr (.inl rfl)) id
  | subscribe => exact .quiet rfl rfl (.inr ⟨rfl, fun _ => id⟩) (.inl rfl) id
  | startLost =>
    exact .quiet rfl rfl (.inr ⟨rfl, fun _ hfit => hfit.2.not_running⟩) (.inl rfl) id
  | @swapFails q =>
    cases q with
    | claim => exact .quiet rfl rfl (.inl rfl) (.inl rfl) id
    | switch =>
      exact .quiet rfl rfl (.inr ⟨rfl, fun _ hstopped hrunning => absurd hrunning hstopped⟩)
        (.inr (.inr rfl)) id
  | swap hk =>
    exact .touch hk rfl rfl (.inr rfl) (.inr rfl) (.inl rfl) rfl (hsame _ _ _ _)
      fun _ _ hrest => .inl ⟨rfl, hrest rfl⟩
  | sendStart hk | sendStop hk =>
    exact .stay hk rfl rfl rfl rfl (.inl rfl) rfl (hsame _ _ _ _) fun _ => id
  | started hk => exact .stay hk rfl rfl rfl rfl (.inr rfl) rfl (hsame _ _ _ _) fun _ => id
  | @refused _ _ _ r _ hk hr =>
    refine .stay hk rfl rfl rfl rfl (.inl rfl) rfl (hsame _ _ _ _) fun _ => ?_
    cases r with
    | started => exact absurd rfl hr
    | stopped | error => exact id
  | startFails hk hended =>
    exact .stay hk rfl rfl rfl rfl (.inl rfl) rfl (hsame _ _ _ _) fun hreader =>
      absurd (hended.symm.trans hreader) (by decide)
  | @clear q _ _ hk =>
    cases q with
    | claim => exact .leave hk rfl rfl rfl rfl rfl rfl (hsame _ _ _ _)
    | switch =>
      exact .stay hk rfl rfl rfl rfl (.inr rfl) rfl (hsame _ _ _ _)
        fun _ hfit hrunning => absurd hrunning hfit
  | store hk => exact .stay hk rfl rfl rfl rfl (.inl rfl) rfl (hsame _ _ _ _) fun _ _ => trivial
  | @stopLost c w =>
    cases c with
    | finish => exact .quiet rfl rfl (.inl rfl) (.inl rfl) id
    | switch =>
      -- the connection is lost, so nothing is known of the worker
      refine ⟨rfl, fun w' => .inl, fun w' _ => .inr rfl, fun _ => rfl, fun w' => .inl, rfl,
        fun w' k' hk' => ⟨k', hk', .refl k', .inl rfl, fun hw hreader => ?_⟩⟩
      cases hw
      exact absurd ((hguard _ hp w rfl k' hk').symm.trans hreader) (by decide)
  | @stopped c _ _ hk =>
    cases c with
    | finish => exact .leave hk rfl rfl rfl rfl rfl rfl (hsame _ _ _ _)
    | switch => exact .stay hk rfl rfl rfl rfl (.inl rfl) rfl (hsame _ _ _ _) fun _ => id
  | @notStopped c _ _ _ hk =>
    cases c with
    | finish => exact .leave hk rfl rfl rfl rfl rfl rfl (hsame _ _ _ _)
    | switch =>
      exact .stay hk rfl rfl rfl rfl (.inr rfl) rfl (hsame _ _ _ _)
        fun _ hfit hrunning => absurd hrunning hfit
  | @stopFails c _ _ _ hk hended =>
    cases c with
    | finish => exact .leave hk rfl rfl rfl rfl rfl rfl (hsame _ _ _ _)
    | switch =>
      exact .stay hk rfl rfl rfl rfl (.inr rfl) rfl (hsame _ _ _ _) fun hreader =>
        absurd (hended.symm.trans hreader) (by decide)

theorem Turn.phase (h : Turn s t u p p') (hp : s.viewers[u]? = some p) (x : Nat) :
    t.viewers[x]? = if x = u then some p' else s.viewers[x]? :=
  phase_of_set h.viewers hp x

theorem Fit.congr (hsame : k.SameTask k') (hflag : k'.desktopStreamActive = k.desktopStreamActive)
    (h : Fit u k p) : Fit u k' p := by
  unfold Fit ConsoleWorker.AtRest ConsoleWorker.Silent at *
  simp only [hsame.desktopStream, hsame.notices, hsame.strays, hsame.telling, hflag]
  exact h

/-! ## The invariant -/

/-- At most one viewer is engaged with a worker of the pool, and what its phase says of the worker
holds as long as the reader task runs. -/
structure Lit (s : ConsoleWorkerPool) : Prop where
  guarded : Guarded s
  sole : ∀ (u v : Nat) (p q : ViewerPhase) (w : Nat), s.viewers[u]? = some p →
    s.viewers[v]? = some q → p.engagedAt = some w → q.engagedAt = some w → u = v
  known : ∀ (v : Nat) (p : ViewerPhase) (w : Nat), s.viewers[v]? = some p →
    p.engagedAt = some w → w < s.workers.length
  fit : ∀ (v : Nat) (p : ViewerPhase) (w : Nat) (k : ConsoleWorker), s.viewers[v]? = some p →
    p.engagedAt = some w → s.workers[w]? = some k → k.readerEnded = false → Fit v k p

theorem Lit.new : Lit new where
  guarded := .new
  sole := fun _ _ _ _ _ h => by cases h
  known := fun _ _ _ h => by cases h
  fit := fun _ _ _ _ h => by cases h

/-- When a viewer sets the flag, it is the only one that is engaged with the worker, and the worker
is at rest. -/
theorem Settled.swaps (hguard : s.Settled (.viewer u m)) (h : ViewerMove s u m p p' t)
    (hp : s.viewers[u]? = some p) (hswap : p.swapsAt = some w) :
    (∀ x q, s.viewers[x]? = some q → q.engagedAt = some w → x = u) ∧
      ∀ k, s.workers[w]? = some k → k.AtRest := by
  -- a viewer that is about to set the flag does nothing else
  have hm : m = .swap := by
    cases h
    case swap | swapFails => rfl
    all_goals cases hswap
  subst hm
  obtain ⟨hsole, hrest⟩ := hguard p hp w hswap
  refine ⟨fun x q hq hengaged => ?_, hrest⟩
  refine hsole x (lt_of_slot hq) ?_
  rw [hq, bind_some, hengaged]

theorem Lit.viewer (h : Lit s) (hp : s.viewers[u]? = some p) (hguard : s.Settled (.viewer u m))
    (hmove : ViewerMove s u m p p' t) : Lit (t.goTo u p') := by
  have hturn := hmove.turn hp hguard
  -- whoever else is engaged with the worker of viewer `u` is viewer `u`
  have hother : ∀ {x w q}, s.viewers[x]? = some q → q.engagedAt = some w →
      p.engagedAt = some w ∨ p.swapsAt = some w → x = u := by
    intro x w q hq hengaged hw
    rcases hw with hw | hw
    · exact h.sole x u q p w hq hp hengaged hw
    · exact (hguard.swaps hmove hp hw).1 x q hq hengaged
  refine ⟨h.guarded.viewer hp hmove.effect, fun x y q q' w hx hy hxw hyw => ?_,
    fun x q w hx hxw => ?_, fun x q w k' hx hxw hk' hreader => ?_⟩
  · rw [hturn.phase hp] at hx hy
    split at hx <;> split at hy
    · rename_i hxu hyu
      rw [hxu, hyu]
    · rename_i hxu hyu
      cases hx
      exact absurd (hother hy hyw (hturn.engaged w hxw)) hyu
    · rename_i hxu hyu
      cases hy
      exact absurd (hother hx hxw (hturn.engaged w hyw)) hxu
    · exact h.sole x y q q' w hx hy hxw hyw
  · rw [hturn.length]
    rw [hturn.phase hp] at hx
    split at hx
    · cases hx
      exact (hturn.known w hxw).elim (h.known u p w hp) id
    · exact h.known x q w hx hxw
  · obtain ⟨k, hk, hsame, hflag, hfit⟩ := hturn.workers w k' hk'
    have hreader₀ : k.readerEnded = false := hsame.readerEnded ▸ hreader
    rw [hturn.phase hp] at hx
    split at hx
    · rename_i hxu
      cases hx
      rw [hxu]
      exact hfit hxw hreader (fun hw => h.fit u p w k hp hw hk hreader₀)
        fun hw => (hguard.swaps hmove hp hw).2 k hk
    · rename_i hxu
      refine (h.fit x q w k hx hxw hk hreader₀).congr hsame (hflag.resolve_right fun hw => ?_)
      exact hxu (hother hx hxw hw)

/-- A worker without anything to report changes only by the end of its stream, or by the loss of the
connection. -/
theorem stepTask_of_silent (hsilent : k.Silent) (hkept : e ≠ .abandoned)
    (h : stepTask k e = some k') :
    (∃ v, k.desktopStream = some (v, .running) ∧ k'.desktopStream = some (v, .closing)) ∨
      (∃ v, k.desktopStream = some (v, .closing)) ∨ k'.readerEnded = true := by
  obtain ⟨hnotices, hstrays, htelling⟩ := hsilent
  cases e <;> simp only [stepTask] at h
  case serve => cases h
  case taskEnds =>
    split at h <;> cases h
    exact .inl ⟨_, ‹_›, rfl⟩
  case taskReports =>
    split at h <;> cases h
    exact .inr (.inl ⟨_, ‹_›⟩)
  case strayReports => simp [hstrays] at h
  case readerReads => simp [hnotices] at h
  case readerTells => simp [htelling] at h
  case readerEnds =>
    split at h <;> cases h
    exact .inr (.inr rfl)
  case abandoned => exact absurd rfl hkept

theorem Fit.task (hfit : Fit v k p) (hkept : e ≠ .abandoned) (h : stepTask k e = some k')
    (hreader : k'.readerEnded = false) : Fit v k' p := by
  have hspec := (stepTask_spec h).2.2 v
  -- a worker at rest has nothing left to do
  have hrest : ¬k.AtRest := by
    rintro ⟨hended, hsilent⟩
    obtain ⟨x, hx, -⟩ | ⟨x, hx⟩ | hreader' := stepTask_of_silent hsilent hkept h
    · cases hended _ hx
    · cases hended _ hx
    · rw [hreader] at hreader'
      cases hreader'
  -- a running stream without anything to report can only end
  have hrunning : (k.desktopStream = some (v, .running) →
      k.desktopStreamActive = true ∧ k.Silent) → k'.desktopStream ≠ some (v, .running) := by
    intro hsilent hv
    obtain ⟨x, -, hx⟩ | ⟨x, hx⟩ | hreader' :=
      stepTask_of_silent (hsilent (hspec hv)).2 hkept h
    · rw [hx] at hv
      cases hv
    · rw [hx] at hspec
      cases hspec hv
    · rw [hreader] at hreader'
      cases hreader'
  revert hfit
  unfold Fit
  split <;> intro hfit <;> first
    | exact absurd hfit.2 hrest
    | exact fun hv => absurd hv (hrunning hfit)
    | exact trivial
    | exact fun hv => hfit (hspec hv)

/-- Worker `w` changes and the viewers stay where they are. -/
theorem Lit.update (h : Lit s) (hk : s.workers[w]? = some k) (hguarded : Guarded (s.update w k'))
    (hfit : k'.readerEnded = false →
      k.readerEnded = false ∧ ∀ (v : Nat) (p : ViewerPhase), Fit v k p → Fit v k' p) :
    Lit (s.update w k') where
  guarded := hguarded
  sole := h.sole
  known := by
    intro v p w₁ hp hw₁
    rw [ConsoleWorkerPool.update, length_set]
    exact h.known v p w₁ hp hw₁
  fit := by
    intro v p w₁ k₁ hp hw₁ hk₁ hreader
    rcases of_slot_set hk₁ with ⟨rfl, rfl⟩ | ⟨-, hk₁⟩
    · exact (hfit hreader).2 v p (h.fit v p w₁ k hp hw₁ hk (hfit hreader).1)
    · exact h.fit v p w₁ k₁ hp hw₁ hk₁ hreader

/-- Worker `w` has served the request of the viewer that is engaged with it. -/
theorem Served.lit (hs : Served s t w v k k' p p') (h : Lit s) (hguarded : Guarded t)
    (hlength : t.workers.length = s.workers.length) (hp : p.engagedAt = some w)
    (hp' : p'.engagedAt = p.engagedAt) (hreader : k'.readerEnded = k.readerEnded)
    (hfit : Fit v k p → Fit v k' p') : Lit t := by
  have hback : ∀ {x : Nat} {q : ViewerPhase} {w : Nat}, t.viewers[x]? = some q →
      q.engagedAt = some w → ∃ q₀, s.viewers[x]? = some q₀ ∧ q₀.engagedAt = some w := by
    intro x q w hx hxw
    rw [hs.viewers] at hx
    split at hx
    · rename_i hxv
      cases hx
      exact ⟨p, hxv ▸ hs.phase, hp' ▸ hxw⟩
    · exact ⟨q, hx, hxw⟩
  refine ⟨hguarded, fun x y q q' w₁ hx hy hxw hyw => ?_, fun x q w₁ hx hxw => ?_,
    fun x q w₁ k₁ hx hxw hk₁ hreader₁ => ?_⟩
  · obtain ⟨q₀, hq₀, hxw₀⟩ := hback hx hxw
    obtain ⟨q₁, hq₁, hyw₁⟩ := hback hy hyw
    exact h.sole x y q₀ q₁ w₁ hq₀ hq₁ hxw₀ hyw₁
  · obtain ⟨q₀, hq₀, hxw₀⟩ := hback hx hxw
    exact hlength ▸ h.known x q₀ w₁ hq₀ hxw₀
  · rw [hs.viewers] at hx
    rw [hs.workers] at hk₁
    split at hx <;> split at hk₁
    · rename_i hxv hw
      cases hx
      cases hk₁
      rw [hxv]
      exact hfit (h.fit v p w k hs.phase hp hs.worker (hreader ▸ hreader₁))
    · rename_i hxv hw
      cases hx
      exact absurd (some.inj ((hp' ▸ hxw).symm.trans hp)) hw
    · rename_i hxv hw
      exact absurd (h.sole x v q p w hx hs.phase (hw ▸ hxw) hp) hxv
    · exact h.fit x q w₁ k₁ hx hxw hk₁ hreader₁

theorem answer_update_length :
    ((s.update w k').answer k u f).workers.length = s.workers.length := by
  rw [answer_workers, update, length_set]

theorem Lit.serve (h : Lit s) (hk : s.workers[w]? = some k) (hstep : s.serve w k = some t) :
    Lit t := by
  have hguarded := h.guarded.serve hk hstep
  cases hended : k.readerEnded with
  | true =>
    -- nothing is known of the worker any more
    obtain ⟨u, req, k', r, rfl, -, -, hsame, -⟩ := h.guarded.serve_answer hk hstep
    rw [answer_of_readerEnded hended] at hguarded ⊢
    refine h.update hk hguarded fun hreader => ?_
    rw [hsame, hended] at hreader
    cases hreader
  | false =>
    obtain ⟨u, rest, ⟨hwire, -, rfl⟩ | ⟨hwire, -, rfl⟩ | ⟨hwire, k', hk', rfl⟩⟩ :=
      h.guarded.serve_cases hk hstep
    · obtain ⟨rfl, p, hawaits, hserved⟩ := h.guarded.served hk hended hwire _
      obtain ⟨q, seen, rfl⟩ := ViewerPhase.eq_startSent_of_awaits hawaits
      refine (hserved _).lit h hguarded answer_update_length rfl
        ViewerPhase.engagedAt_answered rfl ?_
      rintro ⟨hflag, hrest, hnotices, hstrays, htelling⟩
      -- no task is replaced before it has reported its end
      have hnone : k.desktopStream.filter (·.2 = .closing) = none := by
        rw [filter_eq_none_iff]
        intro x hx
        simp [hrest x hx]
      simp only [ViewerPhase.answered, if_true]
      exact fun _ => ⟨hflag, hnotices, by simp [hnone, hstrays], htelling⟩
    · obtain ⟨rfl, p, hawaits, hserved⟩ := h.guarded.served hk hended hwire _
      obtain ⟨q, seen, rfl⟩ := ViewerPhase.eq_startSent_of_awaits hawaits
      refine (hserved _).lit h hguarded answer_update_length rfl
        ViewerPhase.engagedAt_answered rfl ?_
      rintro ⟨-, hrest⟩
      simp only [ViewerPhase.answered, if_true]
      exact hrest.not_running
    · obtain ⟨rfl, p, hawaits, hserved⟩ := h.guarded.served hk hended hwire _
      obtain ⟨c, rfl⟩ := ViewerPhase.eq_stopSent_of_awaits hawaits
      have hstopped := serveStop_eq hk'
      refine (hserved k').lit h hguarded answer_update_length rfl
        ViewerPhase.engagedAt_answered ?_ fun _ => ?_
      · rw [hstopped]
      · simp only [ViewerPhase.answered, if_true]
        rw [hstopped]
        exact fun hv => by cases hv

theorem Lit.join (h : Lit s) : Lit { s with viewers := s.viewers ++ [.arriving] } where
  guarded := h.guarded.join
  sole := by
    intro x y q q' w hx hy hxw hyw
    rcases of_slot_snoc hx with hx | ⟨-, rfl⟩
    · rcases of_slot_snoc hy with hy | ⟨-, rfl⟩
      · exact h.sole x y q q' w hx hy hxw hyw
      · cases hyw
    · cases hxw
  known := by
    intro x q w hx hxw
    rcases of_slot_snoc hx with hx | ⟨-, rfl⟩
    · exact h.known x q w hx hxw
    · cases hxw
  fit := by
    intro x q w k hx hxw
    rcases of_slot_snoc hx with hx | ⟨-, rfl⟩
    · exact h.fit x q w k hx hxw
    · cases hxw

theorem Lit.step (h : Lit s) (hguard : s.Settled a) (hstep : s.step a = some t) : Lit t := by
  have hguarded := h.guarded.step hguard.not_abandoned hstep
  cases StepMove.of_step h.guarded.fresh hguard.not_abandoned hstep with
  | join => exact h.join
  | attach =>
    refine ⟨hguarded, h.sole, fun x q w hx hxw => ?_, fun x q w k hx hxw hk => ?_⟩
    · rw [length_append]
      exact Nat.lt_add_right _ (h.known x q w hx hxw)
    · rw [getElem?_append_left (h.known x q w hx hxw)] at hk
      exact h.fit x q w k hx hxw hk
  | viewer hp hmove => exact h.viewer hp hguard hmove
  | serve hk hserve => exact h.serve hk hserve
  | task _ hkept hk hk' =>
    exact h.update hk hguarded fun hreader =>
      ⟨((stepTask_frame hk').2.1 hreader).2, fun v p hfit => hfit.task hkept hk' hreader⟩

/-! ## Streams start only under the claim lock -/

/-- A stream that runs afterwards was running before, if the phase and the worker say so. -/
theorem RunsAt.mono (h : t.RunsAt v w)
    (hphase : ∀ q, t.viewers[v]? = some q → q.streamsAt = some w →
      ∃ q₀, s.viewers[v]? = some q₀ ∧ q₀.streamsAt = some w)
    (hworker : ∀ k', t.workers[w]? = some k' → k'.desktopStream = some (v, .running) →
      k'.readerEnded = false → ∃ k, s.workers[w]? = some k ∧
        k.desktopStream = some (v, .running) ∧ k.readerEnded = false) : s.RunsAt v w := by
  obtain ⟨hv, k', hk', hrunning, hreader⟩ := h
  obtain ⟨q, hq, hstreams⟩ := bind_eq_some_iff.1 hv
  exact ⟨bind_eq_some_iff.2 (hphase q hq hstreams), hworker k' hk' hrunning hreader⟩

theorem RunsAt.viewer (h : Guarded s) (hp : s.viewers[u]? = some p) (hturn : Turn s t u p p')
    (hruns : t.RunsAt v w) : s.RunsAt v w ∨ s.desktopClaim = some v := by
  by_cases hclaim : s.desktopClaim = some v
  · exact .inr hclaim
  · refine .inl (hruns.mono (fun q hq hstreams => ?_) fun k' hk' hrunning hreader => ?_)
    · rw [hturn.phase hp] at hq
      split at hq
      · rename_i hvu
        subst hvu
        cases hq
        exact ⟨p, hp, (hturn.streams w hstreams).resolve_right fun hholds =>
          hclaim (h.claim v p hp hholds)⟩
      · exact ⟨q, hq, hstreams⟩
    · obtain ⟨k, hk, hsame, -⟩ := hturn.workers w k' hk'
      exact ⟨k, hk, hsame.desktopStream ▸ hrunning, hsame.readerEnded ▸ hreader⟩

/-- A viewer does not come to have a stream by a response alone. -/
theorem answer_streamsAt (hf : ∀ p : ViewerPhase, (f p).streamsAt = p.streamsAt) {q : ViewerPhase}
    (hq : (s.answer k u f).viewers[v]? = some q) (hstreams : q.streamsAt = some w) :
    ∃ q₀, s.viewers[v]? = some q₀ ∧ q₀.streamsAt = some w := by
  obtain ⟨q₀, hq₀, rfl | ⟨-, rfl⟩⟩ := answer_phase hq
  · exact ⟨q, hq₀, hstreams⟩
  · exact ⟨q₀, hq₀, hf q₀ ▸ hstreams⟩

/-- The worker serves a request, and starts no stream for viewer `v`. -/
theorem RunsAt.answered (hruns : ((s.update w k').answer k u f).RunsAt v w₁)
    (hf : ∀ p : ViewerPhase, (f p).streamsAt = p.streamsAt) (hk : s.workers[w]? = some k)
    (hstream : k'.readerEnded = false → k'.desktopStream = some (v, .running) →
      k.desktopStream = some (v, .running) ∧ k.readerEnded = false) : s.RunsAt v w₁ := by
  refine hruns.mono (fun q hq => answer_streamsAt (s := s.update w k') hf hq)
    fun k₁ hk₁ hrunning hreader => ?_
  rw [answer_workers] at hk₁
  rcases of_slot_set hk₁ with ⟨rfl, rfl⟩ | ⟨-, hk₁⟩
  · exact ⟨k, hk, hstream hreader hrunning⟩
  · exact ⟨k₁, hk₁, hrunning, hreader⟩

theorem RunsAt.serve (h : Guarded s) (hk : s.workers[w]? = some k) (hstep : s.serve w k = some t)
    (hruns : t.RunsAt v w₁) : s.RunsAt v w₁ ∨ s.desktopClaim = some v := by
  by_cases hclaim : s.desktopClaim = some v
  · exact .inr hclaim
  · left
    obtain ⟨u, rest, ⟨hwire, -, rfl⟩ | ⟨hwire, -, rfl⟩ | ⟨hwire, k', hk', rfl⟩⟩ :=
      h.serve_cases hk hstep
    · refine hruns.answered (fun _ => ViewerPhase.streamsAt_answered) hk fun hreader hv => ?_
      -- the viewer whose stream is started holds the claim lock
      obtain ⟨-, p, hawaits, hserved⟩ := h.served hk hreader hwire id
      obtain ⟨q, seen, rfl⟩ := ViewerPhase.eq_startSent_of_awaits hawaits
      cases hv
      exact absurd (h.claim v _ (hserved k).phase rfl) hclaim
    · exact hruns.answered (fun _ => ViewerPhase.streamsAt_answered) hk
        fun hreader hv => ⟨hv, hreader⟩
    · refine hruns.answered (fun _ => ViewerPhase.streamsAt_answered) hk fun _ hv => ?_
      rw [serveStop_eq hk'] at hv
      cases hv

/-- Whoever has a running stream after a step had it before, or holds the claim lock. -/
theorem RunsAt.back (h : Guarded s) (hguard : s.Settled a) (hstep : s.step a = some t)
    (hruns : t.RunsAt v w) : s.RunsAt v w ∨ s.desktopClaim = some v := by
  cases StepMove.of_step h.fresh hguard.not_abandoned hstep with
  | join =>
    refine .inl (hruns.mono (fun q hq hstreams => ?_)
      fun k' hk' hrunning hreader => ⟨k', hk', hrunning, hreader⟩)
    rcases of_slot_snoc hq with hq | ⟨-, rfl⟩
    · exact ⟨q, hq, hstreams⟩
    · cases hstreams
  | attach =>
    refine .inl (hruns.mono (fun q hq hstreams => ⟨q, hq, hstreams⟩)
      fun k' hk' hrunning hreader => ?_)
    rcases of_slot_snoc hk' with hk' | ⟨-, rfl⟩
    · exact ⟨k', hk', hrunning, hreader⟩
    · cases hrunning
  | viewer hp hmove => exact hruns.viewer h hp (hmove.turn hp hguard)
  | serve hk hserve => exact hruns.serve h hk hserve
  | @task _ _ k k' _ _ hk hk' =>
    refine .inl (hruns.mono (fun q hq hstreams => ⟨q, hq, hstreams⟩)
      fun k₁ hk₁ hrunning hreader => ?_)
    rcases of_slot_set hk₁ with ⟨rfl, rfl⟩ | ⟨-, hk₁⟩
    · exact ⟨k, hk, (stepTask_spec hk').2.2 v hrunning, ((stepTask_frame hk').2.1 hreader).2⟩
    · exact ⟨k₁, hk₁, hrunning, hreader⟩

/-! ## The claim of a view-only device -/

/-- What is known of the running streams of the others while a viewer claims without taking over:
they run at the worker that it has picked, and there is none when it is about to raise the owner
counter. -/
def Harmless (s : ConsoleWorkerPool) (u : Nat) : ViewerPhase → Prop
  | .arriving | .claiming true => False
  | .probing w => ∀ v w', v ≠ u → s.RunsAt v w' → w' = w
  | .bumping => ∀ v w', v ≠ u → ¬s.RunsAt v w'
  | _ => True

/-- Viewer `u` claims without taking over, or is through with its claim. -/
def ViewsOnly (u : Nat) (s : ConsoleWorkerPool) : Prop :=
  ∃ p, s.viewers[u]? = some p ∧ s.Harmless u p

/-- Steps of others start no streams of others as long as the viewer holds the claim lock. -/
theorem Harmless.others (h : Guarded s) (hguard : s.Settled a) (hstep : s.step a = some t)
    (hp : s.viewers[u]? = some p) (hharmless : s.Harmless u p) : t.Harmless u p := by
  have hback : ∀ {v w}, p.holdsClaim = true → v ≠ u → t.RunsAt v w → s.RunsAt v w := by
    intro v w hholds hv hruns
    refine (hruns.back h hguard hstep).resolve_right fun hclaim => ?_
    exact hv (some.inj (hclaim.symm.trans (h.claim u p hp hholds)))
  revert hharmless
  unfold Harmless
  split
  case h_3 w => exact fun hall v w' hv hruns => hall v w' hv (hback rfl hv hruns)
  case h_4 => exact fun hnone v w' hv hruns => hnone v w' hv (hback rfl hv hruns)
  all_goals exact id

theorem Harmless.of_late (h : p.late = true) : s.Harmless u p := by
  unfold Harmless
  split <;> first | cases h | trivial

/-- A running stream shows in the flag of its worker. -/
theorem Lit.flag_of_runsAt (h : Lit s) (hruns : s.RunsAt v w) (hk : s.workers[w]? = some k) :
    k.desktopStreamActive = true := by
  obtain ⟨hv, k₁, hk₁, hrunning, hreader⟩ := hruns
  obtain ⟨q, hq, hstreams⟩ := bind_eq_some_iff.1 hv
  cases hk.symm.trans hk₁
  have hengaged : q.engagedAt = some w := by
    revert hstreams
    unfold ViewerPhase.streamsAt
    split <;> first | exact id | exact fun hnone => by cases hnone
  have hfit := h.fit v q w k hq hengaged hk hreader
  revert hstreams
  unfold ViewerPhase.streamsAt
  split <;> first | exact fun _ => (hfit hrunning).1 | exact fun hnone => by cases hnone

/-- The moves of the viewer itself. -/
theorem Harmless.move (h : Lit s) (hguard : s.Settled (.viewer u m)) (hp : s.viewers[u]? = some p)
    (hharmless : s.Harmless u p) (hmove : ViewerMove s u m p p' t)
    (hback : ∀ v w, p.holdsClaim = true → v ≠ u → (t.goTo u p').RunsAt v w → s.RunsAt v w) :
    (t.goTo u p').Harmless u p' := by
  cases hlate : p.late with
  | true => exact .of_late ((hmove.turn hp hguard).late hlate)
  | false =>
    cases hmove
    case approach | refuse => exact hharmless.elim
    case lock b _ =>
      cases b with
      | false => trivial
      | true => exact hharmless.elim
    case probe w =>
      intro v w' hv hruns
      have hruns := hback v w' rfl hv hruns
      obtain ⟨q, hq, -⟩ := bind_eq_some_iff.1 hruns.1
      obtain ⟨k, hk, -⟩ := hruns.2
      exact hguard hp v (lt_of_slot hq) w' (lt_of_slot hk) hruns
    case free w k hk hflag =>
      intro v w' hv hruns
      have hruns := hback v w' rfl hv hruns
      obtain rfl := hharmless v w' hv hruns
      exact hflag (h.flag_of_runsAt hruns hk)
    case noWorker | busy | bump => trivial
    all_goals cases hlate

/-- A response finds the viewer past its claim, or leaves it where it is. -/
theorem answer_viewsOnly {x : Nat} (hf : ∀ p : ViewerPhase, f p = p ∨ (f p).late = true)
    (hp : s.viewers[u]? = some p) :
    ∃ q, (s.answer k x f).viewers[u]? = some q ∧ (q = p ∨ q.late = true) := by
  unfold answer
  split
  · exact ⟨p, hp, .inl rfl⟩
  · rw [getElem?_modify, hp]
    by_cases hx : x = u
    · exact ⟨f p, by simp [hx], hf p⟩
    · exact ⟨p, by simp [hx], .inl rfl⟩

theorem ViewsOnly.step (h : Lit s) (hguard : s.Settled a) (hstep : s.step a = some t)
    (hviews : ViewsOnly u s) : ViewsOnly u t := by
  obtain ⟨p, hp, hharmless⟩ := hviews
  have hothers := hharmless.others h.guarded hguard hstep hp
  cases StepMove.of_step h.guarded.fresh hguard.not_abandoned hstep with
  | join => exact ⟨p, slot_snoc hp, hothers⟩
  | attach | task => exact ⟨p, hp, hothers⟩
  | @viewer x _ q q' _ hq hmove =>
    by_cases hx : u = x
    · subst hx
      cases hp.symm.trans hq
      refine ⟨q', ?_, hharmless.move h hguard hp hmove fun v w hholds hv hruns => ?_⟩
      · rw [(hmove.turn hp hguard).phase hp, if_pos rfl]
      · refine (hruns.back h.guarded hguard hstep).resolve_right fun hclaim => ?_
        exact hv (some.inj (hclaim.symm.trans (h.guarded.claim u p hp hholds)))
    · exact ⟨p, by rw [(hmove.turn hq hguard).phase hq, if_neg hx, hp], hothers⟩
  | @serve w k _ hk hserve =>
    obtain ⟨x, req, k', r, rfl, -⟩ := h.guarded.serve_answer hk hserve
    obtain ⟨q, hq, rfl | hlate⟩ := answer_viewsOnly (s := s.update w k') (k := k) (x := x)
      (f := .answered w r) (fun _ => ViewerPhase.answered_late) hp
    · exact ⟨q, hq, hothers⟩
    · exact ⟨q, hq, .of_late hlate⟩

end ConsoleWorkerPool

end RivetLink.Agent
