import RivetLink.Agent.DesktopStream

/-!
# Locks and requests of the viewers

At most one viewer of a pool holds the claim lock, and of those that use a connection at most one
holds its request lock and waits for a response. `Guarded` says so, and that the only request on
a connection is the one its holder waits for, as long as the reader task of the connection runs.
Moves of viewers, served requests, and changes at the workers keep it.

`Served` is what serving a request comes to: the worker has taken the one request there was, and the
viewer that waits has its response.
-/

namespace RivetLink.Agent

open List Option RivetLink.Foundation

namespace ViewerPhase

def holdsClaim : ViewerPhase → Bool
  | .checking | .probing _ | .bumping | .waiting _ | .testing _ _ | .sleeping _ => true
  | .swapping _ _ | .subscribing _ _ | .startQueued _ _ _ | .startSent _ _ _ _ => true
  | .clearing _ _ | .checkingOwner _ _ _ => true
  | .storing (.switch _ _) _ | .stopQueued (.switch _ _) _ | .stopSent (.switch _ _) _ _ => true
  | _ => false

/-- The worker to which the viewer has sent a request whose result it waits for. -/
def sentTo : ViewerPhase → Option Nat
  | .startSent _ w _ _ | .stopSent _ w _ => some w
  | _ => none

/-- The worker to which the viewer may yet send a stop. -/
def stopsAt : ViewerPhase → Option Nat
  | .streaming _ w _ | .waitingLogin w | .judging _ w _ | .checkingOwner _ w _ => some w
  | .storing _ w | .stopQueued _ w | .stopSent (.switch _ _) w _ => some w
  | .swapping (.switch _ _) w | .subscribing (.switch _ _) w => some w
  | .startQueued (.switch _ _) w _ | .startSent (.switch _ _) w _ _ => some w
  | .clearing (.switch _ _) w => some w
  | .startSent (.claim _) w _ (some .started) => some w
  | _ => none

variable {w : Nat} {p : ViewerPhase}

theorem sentTo_of_awaits {r : StreamRequest} (h : p.awaits = some (w, r)) : p.sentTo = some w := by
  unfold awaits at h
  split at h <;> cases h <;> rfl

theorem eq_startSent_of_awaits (h : p.awaits = some (w, .start)) :
    ∃ q seen, p = .startSent q w seen none := by
  unfold awaits at h
  split at h <;> cases h
  exact ⟨_, _, rfl⟩

theorem eq_stopSent_of_awaits (h : p.awaits = some (w, .stop)) : ∃ c, p = .stopSent c w none := by
  unfold awaits at h
  split at h <;> cases h
  exact ⟨_, rfl⟩

variable {r : StreamResponse}

/-- A response changes neither whom a viewer waits for nor which locks it holds. -/
theorem answered_frame (p : ViewerPhase) :
    (p.answered w r).sentTo = p.sentTo ∧ (p.answered w r).holdsClaim = p.holdsClaim := by
  unfold answered
  split
  · exact ⟨rfl, rfl⟩
  · rename_i c w'
    cases c <;> exact ⟨rfl, rfl⟩
  · exact ⟨rfl, rfl⟩

end ViewerPhase

namespace ConsoleWorkerPool

variable {s t : ConsoleWorkerPool} {u v w : Nat} {m : Move} {p p' : ViewerPhase}
  {k k' : ConsoleWorker} {f : ViewerPhase → ViewerPhase}

/-- What a viewer does to the claim lock. -/
inductive ClaimEffect (u : Nat) (p p' : ViewerPhase) : Option Nat → Option Nat → Prop where
  | keep {c : Option Nat} (h : p'.holdsClaim = p.holdsClaim) : ClaimEffect u p p' c c
  | take (h : p'.holdsClaim = true) : ClaimEffect u p p' none (some u)
  | release {c : Option Nat} (h : p.holdsClaim = true) (h' : p'.holdsClaim = false) :
      ClaimEffect u p p' c none

/-- What a viewer does to a connection: it sets the flag, writes a request under the request lock,
or gives up the request lock. -/
inductive Touch (u : Nat) (p p' : ViewerPhase) (w : Nat) (k : ConsoleWorker) :
    ConsoleWorker → Prop where
  | flag (b : Bool) (h : b = true → p.holdsClaim = true) (hp : p.sentTo = none)
      (hp' : p'.sentTo = none) : Touch u p p' w k { k with desktopStreamActive := b }
  | send (r : StreamRequest) (hfree : k.requestLock = none) (hp : p.sentTo = none)
      (hp' : p'.awaits = some (w, r)) (hstop : r = .stop → p.stopsAt = some w) :
      Touch u p p' w k { k with requestLock := some u, wire := k.wire ++ [(u, r)] }
  | unlock (hp : p.sentTo = some w) (hp' : p'.sentTo = none)
      (h : p.awaits = none ∨ k.readerEnded = true) :
      Touch u p p' w k { k with requestLock := none }

/-- What one move of viewer `u` from `p` to `p'` can do. -/
structure ViewerEffect (s t : ConsoleWorkerPool) (u : Nat) (p p' : ViewerPhase) : Prop where
  viewers : t.viewers = s.viewers.set u p'
  claim : ClaimEffect u p p' s.desktopClaim t.desktopClaim
  workers : (t.workers = s.workers ∧ p.sentTo = none ∧ p'.sentTo = none) ∨
    ∃ w k k', s.workers[w]? = some k ∧ t.workers = s.workers.set w k' ∧ Touch u p p' w k k'
  stops : p'.stopsAt = none ∨ p'.stopsAt = p.stopsAt

/-- A move that touches neither the claim lock nor a connection. -/
theorem ViewerEffect.quiet (hclaim : p'.holdsClaim = p.holdsClaim) (hp : p.sentTo = none)
    (hp' : p'.sentTo = none) (hstops : p'.stopsAt = none ∨ p'.stopsAt = p.stopsAt) :
    ViewerEffect s (s.goTo u p') u p p' :=
  ⟨rfl, .keep hclaim, .inl ⟨rfl, hp, hp'⟩, hstops⟩

/-- A move that gives up the claim lock and touches no connection. -/
theorem ViewerEffect.release (h : p.holdsClaim = true) (h' : p'.holdsClaim = false)
    (hp : p.sentTo = none) (hp' : p'.sentTo = none)
    (hstops : p'.stopsAt = none ∨ p'.stopsAt = p.stopsAt) :
    ViewerEffect s (s.release.goTo u p') u p p' :=
  ⟨rfl, .release h h', .inl ⟨rfl, hp, hp'⟩, hstops⟩

/-- A move that touches one connection and leaves the claim lock. -/
theorem ViewerEffect.touch (hk : s.workers[w]? = some k) (htouch : Touch u p p' w k k')
    (hclaim : p'.holdsClaim = p.holdsClaim)
    (hstops : p'.stopsAt = none ∨ p'.stopsAt = p.stopsAt) :
    ViewerEffect s ((s.update w k').goTo u p') u p p' :=
  ⟨rfl, .keep hclaim, .inr ⟨w, k, k', hk, rfl, htouch⟩, hstops⟩

/-- A move that touches one connection and gives up the claim lock. -/
theorem ViewerEffect.touchRelease (hk : s.workers[w]? = some k) (htouch : Touch u p p' w k k')
    (h : p.holdsClaim = true) (h' : p'.holdsClaim = false)
    (hstops : p'.stopsAt = none ∨ p'.stopsAt = p.stopsAt) :
    ViewerEffect s ((s.update w k').release.goTo u p') u p p' :=
  ⟨rfl, .release h h', .inr ⟨w, k, k', hk, rfl, htouch⟩, hstops⟩

theorem ViewerMove.effect {s' : ConsoleWorkerPool} (h : ViewerMove s u m p p' s') :
    ViewerEffect s (s'.goTo u p') u p p' := by
  cases h with
  | approach | refuse | giveUp | probe | free | test | sleep | ready | retry =>
    exact .quiet rfl rfl rfl (.inl rfl)
  | takenOver | leave | frameError | loginScreen | resume | switchBusy | owner =>
    exact .quiet rfl rfl rfl (.inr rfl)
  | @subscribe q | @startLost q => exact .quiet rfl rfl rfl (.inr (by cases q <;> rfl))
  | noWorker | busy | gone | expire => exact .release rfl rfl rfl rfl (.inl rfl)
  | notOwner => exact .release rfl rfl rfl rfl (.inr rfl)
  | @swapFails q => cases q <;> exact .release rfl rfl rfl rfl (.inr rfl)
  | bump => exact ⟨rfl, .keep rfl, .inl ⟨rfl, rfl, rfl⟩, .inl rfl⟩
  | lock b hfree =>
    refine ⟨rfl, hfree ▸ .take ?_, .inl ⟨rfl, rfl, ?_⟩, .inl ?_⟩ <;> cases b <;> rfl
  | switch hfree => exact ⟨rfl, hfree ▸ .take rfl, .inl ⟨rfl, rfl, rfl⟩, .inr rfl⟩
  | @swap q _ _ hk =>
    exact .touch hk (.flag true (fun _ => rfl) rfl rfl) rfl (.inr (by cases q <;> rfl))
  | @sendStart q _ _ _ hk hfree =>
    exact .touch hk (.send .start hfree rfl rfl nofun) rfl (.inr (by cases q <;> rfl))
  | @started q _ _ _ hk =>
    exact .touchRelease hk (.unlock rfl rfl (.inl rfl)) rfl rfl (.inr (by cases q <;> rfl))
  | @refused q _ _ _ _ hk hr =>
    refine .touch hk (.unlock rfl rfl (.inl rfl)) rfl ?_
    cases q <;> simp [ViewerPhase.stopsAt]
  | @startFails q _ _ _ _ hk hended =>
    refine .touch hk (.unlock rfl rfl (.inr hended)) rfl ?_
    cases q <;> simp [ViewerPhase.stopsAt]
  | @clear q _ _ hk =>
    cases q <;> exact .touchRelease hk (.flag false nofun rfl rfl) rfl rfl (.inr rfl)
  | @store c _ _ hk => exact .touch hk (.flag false nofun rfl rfl) (by cases c <;> rfl) (.inr rfl)
  | @sendStop c _ _ hk hfree =>
    exact .touch hk (.send .stop hfree rfl rfl fun _ => rfl) (by cases c <;> rfl)
      (by cases c <;> simp [ViewerPhase.stopsAt])
  | @stopLost c =>
    cases c with
    | finish => exact .quiet rfl rfl rfl (.inl rfl)
    | switch => exact .release rfl rfl rfl rfl (.inr rfl)
  | @stopped c _ _ hk => cases c <;> exact .touch hk (.unlock rfl rfl (.inl rfl)) rfl (.inr rfl)
  | @notStopped c _ _ _ hk =>
    cases c with
    | finish => exact .touch hk (.unlock rfl rfl (.inl rfl)) rfl (.inr rfl)
    | switch => exact .touchRelease hk (.unlock rfl rfl (.inl rfl)) rfl rfl (.inr rfl)
  | @stopFails c _ _ _ hk hended =>
    cases c with
    | finish => exact .touch hk (.unlock rfl rfl (.inr hended)) rfl (.inr rfl)
    | switch => exact .touchRelease hk (.unlock rfl rfl (.inr hended)) rfl rfl (.inr rfl)

/-- The phases after viewer `u` has moved to `p'`. -/
theorem phase_of_set (hviewers : t.viewers = s.viewers.set u p') (hp : s.viewers[u]? = some p)
    (x : Nat) : t.viewers[x]? = if x = u then some p' else s.viewers[x]? := by
  rw [hviewers]
  split
  · rw [‹x = u›, slot_set hp]
  · rw [getElem?_set_ne (Ne.symm ‹x ≠ u›)]

theorem ViewerEffect.phase (he : ViewerEffect s t u p p') (hp : s.viewers[u]? = some p) (x : Nat) :
    t.viewers[x]? = if x = u then some p' else s.viewers[x]? :=
  phase_of_set he.viewers hp x

theorem ViewerEffect.worker (he : ViewerEffect s t u p p') (hk' : t.workers[w]? = some k') :
    ∃ k, s.workers[w]? = some k ∧ (k' = k ∨ Touch u p p' w k k') := by
  rcases he.workers with ⟨heq, -⟩ | ⟨w₀, k₀, k₁, hk₀, heq, htouch⟩
  · exact ⟨k', heq ▸ hk', .inl rfl⟩
  · rw [heq] at hk'
    rcases of_slot_set hk' with ⟨rfl, rfl⟩ | ⟨-, hk'⟩
    · exact ⟨k₀, hk₀, .inr htouch⟩
    · exact ⟨k', hk', .inl rfl⟩

/-- The locks exclude. The viewer that waits for a worker holds its request lock, and what is on the
wire is the request of that viewer, unless the reader task has ended. No response is left over. -/
structure Guarded (s : ConsoleWorkerPool) : Prop where
  claim : ∀ (u : Nat) (p : ViewerPhase), s.viewers[u]? = some p → p.holdsClaim = true →
    s.desktopClaim = some u
  request : ∀ (u : Nat) (p : ViewerPhase) (w : Nat), s.viewers[u]? = some p → p.sentTo = some w →
    ∃ k, s.workers[w]? = some k ∧ k.requestLock = some u
  wire : ∀ (w : Nat) (k : ConsoleWorker), s.workers[w]? = some k → k.readerEnded = false →
    k.wire = [] ∨ ∃ u r p, k.wire = [(u, r)] ∧ s.viewers[u]? = some p ∧ p.awaits = some (w, r)
  fresh : s.Fresh

theorem Guarded.new : Guarded new where
  claim := nofun
  request := nofun
  wire := nofun
  fresh := nofun

variable {q : ViewerPhase} {x : Nat}

theorem Guarded.claim_unique {y : Nat} (h : Guarded s) (hx : s.viewers[x]? = some p)
    (hy : s.viewers[y]? = some q) (hp : p.holdsClaim = true) (hq : q.holdsClaim = true) : x = y :=
  some.inj ((h.claim x p hx hp).symm.trans (h.claim y q hy hq))

theorem Guarded.request_unique {y : Nat} (h : Guarded s) (hx : s.viewers[x]? = some p)
    (hy : s.viewers[y]? = some q) (hp : p.sentTo = some w) (hq : q.sentTo = some w) : x = y := by
  obtain ⟨k, hk, hlock⟩ := h.request x p w hx hp
  obtain ⟨k', hk', hlock'⟩ := h.request y q w hy hq
  cases hk.symm.trans hk'
  exact some.inj (hlock.symm.trans hlock')

/-- The holder of the claim lock after a move, from what the move does to it. -/
theorem ClaimEffect.holder {c c' : Option Nat} (he : ClaimEffect u p p' c c')
    (hu : p.holdsClaim = true → c = some u) (hx : x ≠ u → q.holdsClaim = true → c = some x)
    (hq : x = u → q = p') (hholds : q.holdsClaim = true) : c' = some x := by
  by_cases hxu : x = u
  · subst hxu
    obtain rfl := hq rfl
    cases he with
    | keep h => exact hu (h ▸ hholds)
    | take => rfl
    | release _ h' => cases h'.symm.trans hholds
  · have hc := hx hxu hholds
    cases he with
    | keep h => exact hc
    | take => cases hc
    | release h h' => exact absurd (some.inj (hc.symm.trans (hu h))) hxu

theorem Guarded.claim_viewer (h : Guarded s) (hp : s.viewers[u]? = some p)
    (he : ViewerEffect s t u p p') (hq : t.viewers[x]? = some q) (hholds : q.holdsClaim = true) :
    t.desktopClaim = some x := by
  rw [he.phase hp] at hq
  refine he.claim.holder (h.claim u p hp) (fun hx hholds => ?_) (fun hx => ?_) hholds
  · rw [if_neg hx] at hq
    exact h.claim x q hq hholds
  · rw [if_pos hx] at hq
    exact (some.inj hq).symm

theorem Touch.readerEnded_eq (h : Touch u p p' w k k') : k'.readerEnded = k.readerEnded := by
  cases h <;> rfl

/-- A viewer's moves leave the worker's end of the connection alone. -/
theorem Touch.desktopStream_eq (h : Touch u p p' w k k') : k'.desktopStream = k.desktopStream := by
  cases h <;> rfl

theorem Touch.responses_eq (h : Touch u p p' w k k') : k'.responses = k.responses := by
  cases h <;> rfl

/-- A viewer that touches a connection does not wait for another one. -/
theorem Touch.sentTo_ne {w₀ : Nat} (h : Touch u p p' w₀ k k') (hw : w ≠ w₀) :
    p.sentTo ≠ some w ∧ p'.sentTo ≠ some w := by
  cases h with
  | flag b h hp hp' => simp [hp, hp']
  | send r hfree hp hp' hstop => simp [hp, ViewerPhase.sentTo_of_awaits hp', Ne.symm hw]
  | unlock hp hp' h => simp [hp, hp', Ne.symm hw]

/-- The connections after a move: at most the one that the viewer touches has changed. -/
theorem ViewerEffect.touched (he : ViewerEffect s t u p p') (hk : s.workers[w]? = some k) :
    ∃ k', t.workers[w]? = some k' ∧
      (k' = k ∧ p.sentTo ≠ some w ∧ p'.sentTo ≠ some w ∨ Touch u p p' w k k') := by
  rcases he.workers with ⟨heq, hp, hp'⟩ | ⟨w₀, k₀, k₁, hk₀, heq, htouch⟩
  · exact ⟨k, heq ▸ hk, .inl ⟨rfl, by simp [hp], by simp [hp']⟩⟩
  · by_cases hw : w = w₀
    · subst hw
      cases hk.symm.trans hk₀
      exact ⟨k₁, heq ▸ slot_set hk, .inr htouch⟩
    · exact ⟨k, by rw [heq, getElem?_set_ne (Ne.symm hw), hk], .inl ⟨rfl, htouch.sentTo_ne hw⟩⟩

/-- A viewer waits for a worker only after it has written its request to it. -/
theorem ViewerEffect.exists_of_sentTo (he : ViewerEffect s t u p p') (h : p'.sentTo = some w) :
    ∃ k, s.workers[w]? = some k := by
  rcases he.workers with ⟨-, -, hp'⟩ | ⟨w₀, k₀, k₁, hk₀, -, htouch⟩
  · rw [hp'] at h
    cases h
  · by_cases hw : w = w₀
    · exact ⟨k₀, hw ▸ hk₀⟩
    · exact absurd h (htouch.sentTo_ne hw).2

theorem Guarded.request_viewer (h : Guarded s) (hp : s.viewers[u]? = some p)
    (he : ViewerEffect s t u p p') (hq : t.viewers[x]? = some q) (hsent : q.sentTo = some w) :
    ∃ k, t.workers[w]? = some k ∧ k.requestLock = some x := by
  rw [he.phase hp] at hq
  split at hq
  · rename_i hxu
    cases hq
    obtain ⟨k, hk⟩ := he.exists_of_sentTo hsent
    obtain ⟨k', hk', ⟨-, -, hne⟩ | htouch⟩ := he.touched hk
    · exact absurd hsent hne
    · refine ⟨k', hk', ?_⟩
      cases htouch with
      | flag _ _ _ hp' | unlock _ hp' _ => cases hp'.symm.trans hsent
      | send => rw [hxu]
  · rename_i hxu
    obtain ⟨k, hk, hlock⟩ := h.request x q w hq hsent
    obtain ⟨k', hk', ⟨rfl, -⟩ | htouch⟩ := he.touched hk
    · exact ⟨k', hk', hlock⟩
    · refine ⟨k', hk', ?_⟩
      cases htouch with
      | flag => exact hlock
      | send r hfree => cases hfree.symm.trans hlock
      | unlock hsent' => exact absurd (h.request_unique hq hp hsent hsent') hxu

/-- A viewer whose request is on the wire does not move. -/
theorem ViewerEffect.wire_eq (he : ViewerEffect s t u p p') (hp : s.viewers[u]? = some p)
    (hne : p.awaits = none ∨ p.sentTo ≠ some w) (hwire : k'.wire = k.wire)
    (h : k.wire = [] ∨ ∃ x r q, k.wire = [(x, r)] ∧ s.viewers[x]? = some q ∧
      q.awaits = some (w, r)) :
    k'.wire = [] ∨ ∃ x r q, k'.wire = [(x, r)] ∧ t.viewers[x]? = some q ∧
      q.awaits = some (w, r) := by
  rw [hwire]
  refine h.imp_right ?_
  rintro ⟨x, r, q, hone, hq, hawaits⟩
  refine ⟨x, r, q, hone, ?_, hawaits⟩
  rw [he.phase hp, if_neg, hq]
  rintro rfl
  cases hp.symm.trans hq
  rcases hne with hnone | hne
  · rw [hnone] at hawaits
    cases hawaits
  · exact hne (ViewerPhase.sentTo_of_awaits hawaits)

theorem Guarded.wire_viewer (h : Guarded s) (hp : s.viewers[u]? = some p)
    (he : ViewerEffect s t u p p') (hk' : t.workers[w]? = some k')
    (hreader' : k'.readerEnded = false) : k'.wire = [] ∨
      ∃ x r q, k'.wire = [(x, r)] ∧ t.viewers[x]? = some q ∧ q.awaits = some (w, r) := by
  obtain ⟨k, hk, -⟩ := he.worker hk'
  obtain ⟨k₁, hk₁, htouch⟩ := he.touched hk
  cases hk₁.symm.trans hk'
  have hreader : k.readerEnded = false := by
    rcases htouch with ⟨rfl, -⟩ | htouch
    · exact hreader'
    · exact htouch.readerEnded_eq ▸ hreader'
  have hwire := h.wire w k hk hreader
  rcases htouch with ⟨rfl, hne, -⟩ | htouch
  · exact he.wire_eq hp (.inr hne) rfl hwire
  · cases htouch with
    | flag b h hnone hp' => exact he.wire_eq hp (.inr (by simp [hnone])) rfl hwire
    | send r hfree hnone hp' hstop =>
      -- nobody holds the request lock, so nothing is on the wire
      have hnil : k.wire = [] := by
        refine hwire.elim id ?_
        rintro ⟨x, r', q, -, hq, hawaits⟩
        obtain ⟨k₂, hk₂, hlock⟩ := h.request x q w hq (ViewerPhase.sentTo_of_awaits hawaits)
        cases hk.symm.trans hk₂
        rw [hfree] at hlock
        cases hlock
      refine .inr ⟨u, r, p', by rw [hnil]; rfl, ?_, hp'⟩
      rw [he.phase hp, if_pos rfl]
    | unlock hsent hp' hanswered =>
      refine he.wire_eq hp (.inl (hanswered.resolve_right ?_)) rfl hwire
      rw [hreader]
      exact Bool.false_ne_true

theorem Guarded.viewer (h : Guarded s) (hp : s.viewers[u]? = some p)
    (he : ViewerEffect s t u p p') : Guarded t where
  claim := fun _ _ => h.claim_viewer hp he
  request := fun _ _ _ => h.request_viewer hp he
  wire := fun _ _ => h.wire_viewer hp he
  fresh := by
    intro w k' hk'
    obtain ⟨k, hk, rfl | htouch⟩ := he.worker hk'
    · exact h.fresh w k' hk
    · exact htouch.responses_eq.trans (h.fresh w k hk)

theorem answer_workers : (s.answer k u f).workers = s.workers := by
  unfold answer
  split <;> rfl

theorem answer_length : ((s.update w k').answer k u f).viewers.length = s.viewers.length := by
  unfold answer
  split
  · rfl
  · exact length_modify ..

/-- A response changes at most the phase of the viewer that it is for. -/
theorem answer_phase {q : ViewerPhase} (h : (s.answer k u f).viewers[x]? = some q) :
    ∃ p, s.viewers[x]? = some p ∧ (q = p ∨ x = u ∧ q = f p) := by
  unfold answer at h
  split at h
  · exact ⟨q, h, .inl rfl⟩
  · rw [getElem?_modify] at h
    obtain ⟨p, hp, hq⟩ := map_eq_some_iff.1 h
    refine ⟨p, hp, ?_⟩
    split at hq
    · exact .inr ⟨‹u = x›.symm, hq.symm⟩
    · exact .inl hq.symm

/-- The viewers do not notice that a request is served once the reader task has ended. -/
theorem answer_of_readerEnded (h : k.readerEnded = true) : s.answer k u f = s := if_pos h

/-- Worker `w`, so far `k`, has served the request of viewer `v`, which was at `p`. -/
structure Served (s t : ConsoleWorkerPool) (w v : Nat) (k k' : ConsoleWorker) (p p' : ViewerPhase) :
    Prop where
  worker : s.workers[w]? = some k
  phase : s.viewers[v]? = some p
  workers : ∀ w', t.workers[w']? = if w' = w then some k' else s.workers[w']?
  viewers : ∀ x, t.viewers[x]? = if x = v then some p' else s.viewers[x]?
  claim : t.desktopClaim = s.desktopClaim

variable {rest : List (Nat × StreamRequest)} {req : StreamRequest}

/-- The request that a worker serves is that of the viewer which waits for it. -/
theorem Guarded.served (h : Guarded s) (hk : s.workers[w]? = some k)
    (hreader : k.readerEnded = false) (hwire : k.wire = (v, req) :: rest)
    (f : ViewerPhase → ViewerPhase) :
    rest = [] ∧ ∃ p, p.awaits = some (w, req) ∧
      ∀ k', Served s ((s.update w k').answer k v f) w v k k' p (f p) := by
  rcases h.wire w k hk hreader with hnil | ⟨u, r, p, hone, hp, hawaits⟩
  · rw [hwire] at hnil
    cases hnil
  · rw [hwire] at hone
    cases hone
    refine ⟨rfl, p, hawaits, fun k' => ⟨hk, hp, fun w' => ?_, fun x => ?_, ?_⟩⟩
    · rw [answer_workers]
      by_cases hw : w' = w
      · rw [hw, if_pos rfl, update, slot_set hk]
      · rw [if_neg hw, update, getElem?_set_ne (Ne.symm hw)]
    · rw [answer, hreader, if_neg Bool.false_ne_true, getElem?_modify]
      by_cases hx : x = v
      · rw [hx, if_pos rfl, show (s.update w k').viewers[v]? = some p from hp]
        simp
      · simp [hx, Ne.symm hx, update]
    · rw [answer, hreader, if_neg Bool.false_ne_true]
      rfl

namespace Served

variable (hs : Served s t w v k k' p p')

include hs

theorem keeps {P : ConsoleWorker → Prop} {w₁ : Nat} (hP : w₁ = w → P k → P k')
    (h : ∃ k, s.workers[w₁]? = some k ∧ P k) : ∃ k, t.workers[w₁]? = some k ∧ P k := by
  obtain ⟨k₁, hk₁, h⟩ := h
  by_cases hw : w₁ = w
  · cases hs.worker.symm.trans (hw ▸ hk₁)
    exact ⟨k', by rw [hs.workers, if_pos hw], hP hw h⟩
  · exact ⟨k₁, by rw [hs.workers, if_neg hw, hk₁], h⟩

theorem guarded (h : Guarded s) (hsent : p.sentTo = some w) (hsent' : p'.sentTo = p.sentTo)
    (hclaim : p'.holdsClaim = p.holdsClaim) (hlock : k'.requestLock = k.requestLock)
    (hwire : k'.wire = []) (hresponses : k'.responses = k.responses) : Guarded t where
  claim := by
    intro x q hx hholds
    rw [hs.viewers] at hx
    rw [hs.claim]
    split at hx
    · cases hx
      rw [‹x = v›]
      exact h.claim v p hs.phase (hclaim ▸ hholds)
    · exact h.claim x q hx hholds
  request := by
    intro x q w₁ hx hq
    refine hs.keeps (fun _ h => hlock ▸ h) ?_
    rw [hs.viewers] at hx
    split at hx
    · cases hx
      rw [‹x = v›]
      exact h.request v p w₁ hs.phase (hsent' ▸ hq)
    · exact h.request x q w₁ hx hq
  wire := by
    intro w₁ k₁ hk₁ hreader
    rw [hs.workers] at hk₁
    split at hk₁
    · exact .inl (some.inj hk₁ ▸ hwire)
    · rename_i hw
      refine (h.wire w₁ k₁ hk₁ hreader).imp_right ?_
      rintro ⟨x, r, q, hone, hq, hawaits⟩
      refine ⟨x, r, q, hone, ?_, hawaits⟩
      rw [hs.viewers, if_neg, hq]
      rintro rfl
      -- this viewer waits for worker `w`
      cases hs.phase.symm.trans hq
      exact hw (some.inj ((ViewerPhase.sentTo_of_awaits hawaits).symm.trans hsent))
  fresh := by
    intro w₁ k₁ hk₁
    rw [hs.workers] at hk₁
    split at hk₁
    · exact some.inj hk₁ ▸ hresponses.trans (h.fresh w k hs.worker)
    · exact h.fresh w₁ k₁ hk₁

end Served

/-- The viewers stay where they are. A connection keeps its request lock and what is on its wire,
and its reader task does not come back; new connections have an empty wire. -/
theorem Guarded.frame (h : Guarded s) (hviewers : t.viewers = s.viewers)
    (hclaim : t.desktopClaim = s.desktopClaim)
    (forth : ∀ (w : Nat) (k : ConsoleWorker), s.workers[w]? = some k →
      ∃ k', t.workers[w]? = some k' ∧ k'.requestLock = k.requestLock)
    (back : ∀ (w : Nat) (k' : ConsoleWorker), t.workers[w]? = some k' → k'.readerEnded = false →
      k'.wire = [] ∨ ∃ k, s.workers[w]? = some k ∧ k'.wire = k.wire ∧ k.readerEnded = false)
    (hfresh : t.Fresh) : Guarded t where
  claim := by
    rw [hviewers, hclaim]
    exact h.claim
  request := by
    intro u p w hp hsent
    rw [hviewers] at hp
    obtain ⟨k, hk, hlock⟩ := h.request u p w hp hsent
    obtain ⟨k', hk', heq⟩ := forth w k hk
    exact ⟨k', hk', heq.trans hlock⟩
  wire := by
    intro w k' hk' hreader
    rcases back w k' hk' hreader with hnil | ⟨k, hk, hwire, hreader⟩
    · exact .inl hnil
    · rw [hviewers, hwire]
      exact h.wire w k hk hreader
  fresh := hfresh

theorem Guarded.join (h : Guarded s) :
    Guarded { s with viewers := s.viewers ++ [.arriving] } where
  claim := by
    intro x q hx hq
    rcases of_slot_snoc hx with hx | ⟨-, rfl⟩
    · exact h.claim x q hx hq
    · cases hq
  request := by
    intro x q w hx hq
    rcases of_slot_snoc hx with hx | ⟨-, rfl⟩
    · exact h.request x q w hx hq
    · cases hq
  wire := by
    intro w k hk hreader
    refine (h.wire w k hk hreader).imp_right ?_
    rintro ⟨x, r, q, hone, hq, hawaits⟩
    exact ⟨x, r, q, hone, slot_snoc hq, hawaits⟩
  fresh := h.fresh

/-- Connection `w` keeps its request lock and, while its reader task runs, its wire. -/
theorem Guarded.task (h : Guarded s) (hk : s.workers[w]? = some k)
    (hlock : k'.requestLock = k.requestLock)
    (hwire : k'.readerEnded = false → k'.wire = k.wire ∧ k.readerEnded = false)
    (hresponses : k'.responses = k.responses) : Guarded (s.update w k') := by
  refine h.frame rfl rfl (fun w₁ k₁ hk₁ => ?_) (fun w₁ k₁ hk₁ hreader₁ => ?_) fun w₁ k₁ hk₁ => ?_
  · by_cases hw : w₁ = w
    · subst hw
      cases hk.symm.trans hk₁
      exact ⟨k', slot_set hk, hlock⟩
    · exact ⟨k₁, (getElem?_set_ne (Ne.symm hw)).trans hk₁, rfl⟩
  · rcases of_slot_set hk₁ with ⟨rfl, rfl⟩ | ⟨-, hk₁⟩
    · exact .inr ⟨k, hk, hwire hreader₁⟩
    · exact .inr ⟨k₁, hk₁, rfl, hreader₁⟩
  · rcases of_slot_set hk₁ with ⟨rfl, rfl⟩ | ⟨-, hk₁⟩
    · exact hresponses.trans (h.fresh w₁ k hk)
    · exact h.fresh w₁ k₁ hk₁

theorem Guarded.answered (h : Guarded s) (hk : s.workers[w]? = some k)
    (hwire : k.wire = (u, req) :: rest) (hlock : k'.requestLock = k.requestLock)
    (hwire' : k'.wire = rest) (hreader : k'.readerEnded = k.readerEnded)
    (hresponses : k'.responses = k.responses)
    (hf : ∀ p : ViewerPhase, (f p).sentTo = p.sentTo ∧ (f p).holdsClaim = p.holdsClaim) :
    Guarded ((s.update w k').answer k u f) := by
  cases hended : k.readerEnded with
  | false =>
    obtain ⟨rfl, p, hawaits, hserved⟩ := h.served hk hended hwire f
    exact (hserved k').guarded h (ViewerPhase.sentTo_of_awaits hawaits) (hf p).1 (hf p).2 hlock
      hwire' hresponses
  | true =>
    rw [answer_of_readerEnded hended]
    refine h.task hk hlock (fun hreader' => ?_) hresponses
    rw [hreader, hended] at hreader'
    cases hreader'

/-- A stop leaves everything but the stream and the flag of the worker. -/
theorem serveStop_eq (h : k.serveStop u = some k') :
    k' = { k with workerActive := false, desktopStream := none, stopped := k'.stopped } := by
  unfold ConsoleWorker.serveStop at h
  split at h <;> cases h <;> rfl

/-- The response goes to the viewer whose request was served. -/
theorem Guarded.respond_eq {r : StreamResponse} (h : Guarded s) (hk : s.workers[w]? = some k)
    (hwire : k.wire = (u, req) :: rest) :
    s.respond w k k' r = (s.update w k').answer k u (ViewerPhase.answered w r) := by
  cases hreader : k.readerEnded with
  | true =>
    rw [answer_of_readerEnded hreader, respond]
    split
    · exact answer_of_readerEnded hreader
    · rw [if_pos hreader]
  | false =>
    rcases h.wire w k hk hreader with hnil | ⟨v, r, p, hone, hp, hawaits⟩
    · cases hwire.symm.trans hnil
    · cases hwire.symm.trans hone
      obtain ⟨k₁, hk₁, hlock⟩ := h.request u p w hp (ViewerPhase.sentTo_of_awaits hawaits)
      cases hk.symm.trans hk₁
      have hholder : k.requestLock.filter
          (fun u => (s.viewers[u]?.bind (·.awaits)).any (·.1 = w)) = some u := by
        simp [hlock, hp, hawaits]
      rw [respond, hholder]

/-- What serving a request comes to: a stream is started, refused or stopped. -/
theorem Guarded.serve_cases (hguarded : Guarded s) (hk : s.workers[w]? = some k)
    (h : s.serve w k = some t) : ∃ u rest,
    (k.wire = (u, .start) :: rest ∧ k.accepts = true ∧
      t = (s.update w { k with
            wire := rest, workerActive := true, desktopStream := some (u, .running)
            strays := k.strays + (k.desktopStream.filter (·.2 = .closing)).toList.length }).answer
          k u (ViewerPhase.answered w .started)) ∨
    (k.wire = (u, .start) :: rest ∧ k.accepts = false ∧
      t = (s.update w { k with wire := rest }).answer k u (ViewerPhase.answered w .error)) ∨
    (k.wire = (u, .stop) :: rest ∧ ∃ k', { k with wire := rest }.serveStop u = some k' ∧
      t = (s.update w k').answer k u (ViewerPhase.answered w .stopped)) := by
  unfold ConsoleWorkerPool.serve at h
  split at h
  case h_1 => cases h
  case h_2 u rest hwire =>
    rcases hserve : { k with wire := rest }.serveStart u with ⟨k', r⟩
    rw [hserve] at h
    cases h
    rw [hguarded.respond_eq hk hwire]
    rw [ConsoleWorker.serveStart] at hserve
    split at hserve <;> cases hserve
    · exact ⟨u, rest, .inl ⟨hwire, ‹_›, rfl⟩⟩
    · exact ⟨u, rest, .inr (.inl ⟨hwire, Bool.eq_false_iff.2 ‹_›, rfl⟩)⟩
  case h_3 u rest hwire =>
    obtain ⟨k', hk', rfl⟩ := map_eq_some_iff.1 h
    exact ⟨u, rest, .inr (.inr ⟨hwire, k', hk', hguarded.respond_eq hk hwire⟩)⟩

/-- Whatever the request is, it is taken off the wire, and its sender gets the response. -/
theorem Guarded.serve_answer (h : Guarded s) (hk : s.workers[w]? = some k)
    (hstep : s.serve w k = some t) :
    ∃ u req k' r, t = (s.update w k').answer k u (ViewerPhase.answered w r) ∧
      k.wire = (u, req) :: k'.wire ∧ k'.requestLock = k.requestLock ∧
      k'.readerEnded = k.readerEnded ∧ k'.responses = k.responses := by
  obtain ⟨u, rest, ⟨hwire, -, ht⟩ | ⟨hwire, -, ht⟩ | ⟨hwire, k', hk', ht⟩⟩ :=
    h.serve_cases hk hstep
  · exact ⟨u, _, _, _, ht, hwire, rfl, rfl, rfl⟩
  · exact ⟨u, _, _, _, ht, hwire, rfl, rfl, rfl⟩
  · have heq := serveStop_eq hk'
    exact ⟨u, _, k', _, ht, by rw [hwire, heq], by rw [heq], by rw [heq], by rw [heq]⟩

theorem Guarded.serve (h : Guarded s) (hk : s.workers[w]? = some k)
    (hstep : s.serve w k = some t) : Guarded t := by
  obtain ⟨u, req, k', r, rfl, hwire, hlock, hreader, hresponses⟩ := h.serve_answer hk hstep
  exact h.answered hk hwire hlock rfl hreader hresponses ViewerPhase.answered_frame

/-- What happens at a worker apart from requests starts no stream, stops none and leaves what is on
the wire. -/
theorem stepTask_spec {e : WorkerEvent} (h : stepTask k e = some k') :
    k'.wire = k.wire ∧ k'.stopped = k.stopped ∧
      ∀ v, k'.desktopStream = some (v, .running) → k.desktopStream = some (v, .running) := by
  cases e <;> simp only [stepTask] at h
  case serve => cases h
  all_goals
    split at h <;> cases h
    exact ⟨rfl, rfl, fun v hv => by first | exact hv | cases hv⟩

theorem stepTask_frame {e : WorkerEvent} (h : stepTask k e = some k') :
    k'.requestLock = k.requestLock ∧
      (k'.readerEnded = false → k'.wire = k.wire ∧ k.readerEnded = false) ∧
      (e ≠ .abandoned → k'.responses = k.responses) := by
  cases e <;> simp only [stepTask] at h
  case serve => cases h
  case abandoned =>
    split at h <;> cases h
    exact ⟨rfl, fun hreader => ⟨rfl, hreader⟩, fun hlost => absurd rfl hlost⟩
  all_goals
    split at h <;> cases h
    refine ⟨rfl, fun hreader => ?_, fun _ => rfl⟩
    first | exact ⟨rfl, hreader⟩ | cases hreader

/-- The locks do their work as long as no request is dropped. -/
theorem Guarded.step {a : DesktopAction} (h : Guarded s)
    (hlost : ∀ w, a ≠ .worker w .abandoned) (hstep : s.step a = some t) : Guarded t := by
  cases StepMove.of_step h.fresh hlost hstep with
  | join => exact h.join
  | attach =>
    refine h.frame rfl rfl (fun w k hk => ⟨k, slot_snoc hk, rfl⟩) (fun w k' hk' hreader => ?_)
      fun w k' hk' => ?_
    · rcases of_slot_snoc hk' with hk' | ⟨-, rfl⟩
      · exact .inr ⟨k', hk', rfl, hreader⟩
      · exact .inl rfl
    · rcases of_slot_snoc hk' with hk' | ⟨-, rfl⟩
      · exact h.fresh w k' hk'
      · rfl
  | viewer hp hmove => exact h.viewer hp hmove.effect
  | serve hk hserve => exact h.serve hk hserve
  | task _ hkept hk hk' =>
    obtain ⟨hlock, hwire, hresponses⟩ := stepTask_frame hk'
    exact h.task hk hlock hwire (hresponses hkept)

end ConsoleWorkerPool

end RivetLink.Agent
