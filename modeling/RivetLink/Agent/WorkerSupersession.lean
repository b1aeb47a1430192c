import Mathlib.Algebra.Order.Group.Nat
import Mathlib.Data.List.Basic
import RivetLink.Foundation.Transition

/-!
# Which console worker is current

The broker accepts workers one after the other. Each gets the next generation, is published as the
current worker, and is watched by a task of its own: once the worker has closed, the task reads the
generation, and clears the current worker if the generation is still that of its own. Reading and
clearing are two steps, and a new worker may come between them (`newer_worker_cleared`).

`Ordered` is the invariant of the runs in which this does not happen: a task that is about to clear
watches the newest worker.
-/

namespace RivetLink.Agent

open List Option RivetLink.Foundation

inductive WatchPhase where
  | unspawned
  | waiting
  /-- The worker has closed; the generation is read next. -/
  | woken
  /-- The generation was the worker's own; the current worker is cleared next. -/
  | clearing
  | ended
  deriving DecidableEq

structure AcceptedWorker where
  generation : UInt64
  closed : Bool := false
  watch : WatchPhase := .unspawned
  deriving DecidableEq

/-- The accept loop, with the number of the worker it has accepted. -/
inductive AcceptPhase where
  | accepting
  | numbered (i : Nat)
  | published (i : Nat)
  deriving DecidableEq

structure WorkerWatch where
  generation : UInt64 := 0
  workers : List AcceptedWorker := []
  acceptor : AcceptPhase := .accepting
  /-- The value of the watch channel. -/
  current : Option Nat := none

inductive WatchAction where
  /-- A worker is accepted and gets the next generation. -/
  | accept
  | publish
  | spawn
  /-- Worker `i` closes. -/
  | close (i : Nat)
  -- the task that watches worker `i`
  | wake (i : Nat)
  | quit (i : Nat)
  | load (i : Nat)
  | clear (i : Nat)
  deriving DecidableEq

namespace WorkerWatch

def setWatch (s : WorkerWatch) (i : Nat) (p : WatchPhase) : WorkerWatch :=
  { s with workers := s.workers.modify i fun w => { w with watch := p } }

def step (s : WorkerWatch) : WatchAction → Option WorkerWatch
  | .accept =>
    match s.acceptor with
    | .accepting =>
      some { s with
        generation := s.generation + 1
        workers := s.workers ++ [{ generation := s.generation + 1 }]
        acceptor := .numbered s.workers.length }
    | _ => none
  | .publish =>
    match s.acceptor with
    | .numbered i => some { s with current := some i, acceptor := .published i }
    | _ => none
  | .spawn =>
    match s.acceptor with
    | .published i => some { s.setWatch i .waiting with acceptor := .accepting }
    | _ => none
  | .close i => some { s with workers := s.workers.modify i fun w => { w with closed := true } }
  | .wake i =>
    s.workers[i]?.bind fun w =>
      if w.watch = .waiting ∧ w.closed then some (s.setWatch i .woken) else none
  | .quit i =>
    s.workers[i]?.bind fun w => if w.watch = .waiting then some (s.setWatch i .ended) else none
  | .load i =>
    s.workers[i]?.bind fun w =>
      if w.watch = .woken then
        some (s.setWatch i (if s.generation = w.generation then .clearing else .ended))
      else none
  | .clear i =>
    s.workers[i]?.bind fun w =>
      if w.watch = .clearing then some { s.setWatch i .ended with current := none } else none

/-- No worker is accepted while a task is about to clear, and the generations are not used up. -/
def Undisturbed (s : WorkerWatch) : WatchAction → Prop
  | .accept => (∀ w ∈ s.workers, w.watch ≠ .clearing) ∧ s.workers.length + 1 < 2 ^ 64
  | _ => True

instance (s : WorkerWatch) (a : WatchAction) : Decidable (s.Undisturbed a) :=
  match a with
  | .accept => inferInstanceAs
      (Decidable ((∀ w ∈ s.workers, w.watch ≠ .clearing) ∧ s.workers.length + 1 < 2 ^ 64))
  | .publish | .spawn | .close _ | .wake _ | .quit _ | .load _ | .clear _ =>
    inferInstanceAs (Decidable True)

/-- No step is in progress: the accept loop waits, and no task has seen its worker close. -/
def Quiet (s : WorkerWatch) : Prop :=
  s.acceptor = .accepting ∧ ∀ w ∈ s.workers, w.watch ≠ .woken ∧ w.watch ≠ .clearing

instance (s : WorkerWatch) : Decidable s.Quiet :=
  inferInstanceAs
    (Decidable (s.acceptor = .accepting ∧ ∀ w ∈ s.workers, w.watch ≠ .woken ∧ w.watch ≠ .clearing))

/-! ## One step -/

variable {s t : WorkerWatch} {a : WatchAction} {i : Nat} {w : AcceptedWorker}

/-- Generations are the numbers of the workers; a task that is about to clear watches the newest
worker, and that one has closed; the newest worker is current unless it has closed. -/
structure Ordered (s : WorkerWatch) : Prop where
  generation : s.generation = UInt64.ofNat s.workers.length
  bounded : s.workers.length < 2 ^ 64
  numbered : ∀ i w, s.workers[i]? = some w → w.generation = UInt64.ofNat (i + 1)
  accepted : ∀ i, s.acceptor = .numbered i ∨ s.acceptor = .published i →
    i + 1 = s.workers.length
  unspawned : ∀ i w, s.workers[i]? = some w → s.acceptor = .numbered i → w.watch = .unspawned
  known : ∀ i, s.current = some i → i < s.workers.length
  woken : ∀ (i : Nat) (w : AcceptedWorker), s.workers[i]? = some w →
    w.watch = .woken ∨ w.watch = .clearing → w.closed = true
  clearing : ∀ i w, s.workers[i]? = some w → w.watch = .clearing → i + 1 = s.workers.length
  newest : ∀ i w, s.workers[i]? = some w → i + 1 = s.workers.length →
    s.acceptor ≠ .numbered i → s.current = some i ∨ w.closed = true

theorem ofNat_inj {m n : Nat} (hm : m < 2 ^ 64) (hn : n < 2 ^ 64)
    (h : UInt64.ofNat m = UInt64.ofNat n) : m = n := by
  have hnat := congrArg UInt64.toNat h
  rwa [UInt64.toNat_ofNat', UInt64.toNat_ofNat', Nat.mod_eq_of_lt hm, Nat.mod_eq_of_lt hn] at hnat

namespace Ordered

theorem accept (hs : Ordered s) (hclear : ∀ w ∈ s.workers, w.watch ≠ .clearing)
    (hroom : s.workers.length + 1 < 2 ^ 64) : Ordered
      { s with
        generation := s.generation + 1
        workers := s.workers ++ [{ generation := s.generation + 1 }]
        acceptor := .numbered s.workers.length } := by
  have hnext : s.generation + 1 = UInt64.ofNat (s.workers.length + 1) := by
    rw [hs.generation, UInt64.ofNat_add]
    rfl
  have hcases : ∀ i w, (s.workers ++ [{ generation := s.generation + 1 }])[i]? = some w →
      s.workers[i]? = some w ∨ i = s.workers.length ∧ w = { generation := s.generation + 1 } := by
    intro i w hw
    rw [getElem?_append] at hw
    split at hw
    · exact .inl hw
    · rw [getElem?_singleton] at hw
      split at hw <;> cases hw
      exact .inr ⟨by omega, rfl⟩
  refine ⟨?_, ?_, fun i w hw => ?_, fun i hi => ?_, fun i w hw hi => ?_, fun i hi => ?_,
    fun i w hw hphase => ?_, fun i w hw hphase => ?_, fun i w hw hi hne => ?_⟩
  · rw [length_append]
    exact hnext
  · rw [length_append]
    exact hroom
  · obtain hw | ⟨rfl, rfl⟩ := hcases i w hw
    · exact hs.numbered i w hw
    · exact hnext
  · obtain h | h := hi <;> cases h
    rw [length_append]
    rfl
  · cases hi
    obtain hw | ⟨-, rfl⟩ := hcases _ w hw
    · exact absurd (lt_of_slot hw) (Nat.lt_irrefl _)
    · rfl
  · rw [length_append]
    exact Nat.lt_succ_of_lt (hs.known i hi)
  · obtain hw | ⟨rfl, rfl⟩ := hcases i w hw
    · exact hs.woken i w hw hphase
    · obtain h | h := hphase <;> cases h
  · obtain hw | ⟨rfl, rfl⟩ := hcases i w hw
    · exact absurd hphase (hclear w (mem_of_getElem? hw))
    · cases hphase
  · dsimp only at hi
    rw [length_append] at hi
    exact absurd (congrArg AcceptPhase.numbered (Nat.succ.inj hi).symm) hne

theorem publish (hs : Ordered s) (hacceptor : s.acceptor = .numbered i) :
    Ordered { s with current := some i, acceptor := .published i } where
  generation := hs.generation
  bounded := hs.bounded
  numbered := hs.numbered
  accepted j hj := by
    obtain h | h := hj <;> cases h
    exact hs.accepted i (.inl hacceptor)
  unspawned _ _ _ h := by cases h
  known j hj := by
    cases hj
    exact Nat.lt_of_succ_le (Nat.le_of_eq (hs.accepted i (.inl hacceptor)))
  woken := hs.woken
  clearing := hs.clearing
  newest j w hw hj _ := by
    have hij := hs.accepted i (.inl hacceptor)
    exact .inl (congrArg some (Nat.succ.inj (hij.trans hj.symm)))

/-- A worker and its task change; nothing else does but, for a task that clears, the current
worker. -/
theorem modify (hs : Ordered s) (f : AcceptedWorker → AcceptedWorker) (i : Nat)
    (acceptor : AcceptPhase) (current : Option Nat)
    (hacceptor : acceptor = s.acceptor ∧ (∀ j, s.acceptor = .numbered j → ∀ w,
      s.workers[j]? = some w → (f w).watch = w.watch ∨ i ≠ j) ∨
        s.acceptor = .published i ∧ acceptor = .accepting)
    (hgeneration : ∀ w, (f w).generation = w.generation)
    (hclosed : ∀ w, w.closed = true → (f w).closed = true)
    (hwoken : ∀ w, s.workers[i]? = some w → (f w).watch = .woken ∨ (f w).watch = .clearing →
      (f w).closed = true)
    (hclearing : ∀ w, s.workers[i]? = some w → (f w).watch = .clearing →
      i + 1 = s.workers.length)
    (hcurrent : current = s.current ∨ current = none ∧ i + 1 = s.workers.length ∧
      ∀ w, s.workers[i]? = some w → (f w).closed = true) :
    Ordered { s with
      workers := s.workers.modify i f, acceptor := acceptor, current := current } := by
  have hlen : (s.workers.modify i f).length = s.workers.length := length_modify _ _ _
  have hcases : ∀ j w, (s.workers.modify i f)[j]? = some w →
      ∃ w₀, s.workers[j]? = some w₀ ∧ w = if i = j then f w₀ else w₀ := by
    intro j w hw
    rw [getElem?_modify] at hw
    obtain ⟨w₀, hw₀, rfl⟩ := map_eq_some_iff.1 hw
    refine ⟨w₀, hw₀, ?_⟩
    split <;> rfl
  refine ⟨?_, ?_, fun j w hw => ?_, fun j hj => ?_, fun j w hw hj => ?_, fun j hj => ?_,
    fun j w hw hphase => ?_, fun j w hw hphase => ?_, fun j w hw hj hne => ?_⟩
  · rw [hlen]
    exact hs.generation
  · rw [hlen]
    exact hs.bounded
  · obtain ⟨w₀, hw₀, rfl⟩ := hcases j w hw
    split
    · rw [hgeneration]
      exact hs.numbered j w₀ hw₀
    · exact hs.numbered j w₀ hw₀
  · rw [hlen]
    obtain ⟨rfl, -⟩ | ⟨-, rfl⟩ := hacceptor
    · exact hs.accepted j hj
    · obtain h | h := hj <;> cases h
  · obtain ⟨w₀, hw₀, rfl⟩ := hcases j w hw
    obtain ⟨rfl, hwatch⟩ | ⟨-, rfl⟩ := hacceptor
    · have hold := hs.unspawned j w₀ hw₀ hj
      split
      · rename_i hij
        obtain h | h := hwatch j hj w₀ hw₀
        · exact h.trans hold
        · exact absurd hij h
      · exact hold
    · cases hj
  · rw [hlen]
    obtain rfl | ⟨rfl, -⟩ := hcurrent
    · exact hs.known j hj
    · cases hj
  · obtain ⟨w₀, hw₀, rfl⟩ := hcases j w hw
    split at hphase
    · rename_i hij
      subst hij
      rw [if_pos rfl]
      exact hwoken w₀ hw₀ hphase
    · rename_i hij
      rw [if_neg hij]
      exact hs.woken j w₀ hw₀ hphase
  · obtain ⟨w₀, hw₀, rfl⟩ := hcases j w hw
    rw [hlen]
    split at hphase
    · rename_i hij
      subst hij
      exact hclearing w₀ hw₀ hphase
    · exact hs.clearing j w₀ hw₀ hphase
  · obtain ⟨w₀, hw₀, rfl⟩ := hcases j w hw
    dsimp only at hj
    rw [hlen] at hj
    have hnot : s.acceptor ≠ .numbered j := by
      obtain ⟨rfl, -⟩ | ⟨hpublished, -⟩ := hacceptor
      · exact hne
      · rw [hpublished]
        nofun
    obtain rfl | ⟨rfl, hi, hgone⟩ := hcurrent
    · refine (hs.newest j w₀ hw₀ hj hnot).imp_right fun h => ?_
      split
      · exact hclosed w₀ h
      · exact h
    · obtain rfl : i = j := Nat.succ.inj (hi.trans hj.symm)
      right
      rw [if_pos rfl]
      exact hgone w₀ hw₀

/-- A task that was spawned moves on. -/
theorem setWatch (hs : Ordered s) (hw : s.workers[i]? = some w) (hspawned : w.watch ≠ .unspawned)
    (p : WatchPhase) (hwoken : p = .woken ∨ p = .clearing → w.closed = true)
    (hclearing : p = .clearing → i + 1 = s.workers.length) : Ordered (s.setWatch i p) := by
  refine hs.modify (fun w => { w with watch := p }) i s.acceptor s.current
    (.inl ⟨rfl, fun j hj w' hw' => .inr ?_⟩) (fun _ => rfl) (fun _ h => h)
    (fun w' hw' hp => ?_) (fun _ _ hp => hclearing hp) (.inl rfl)
  · rintro rfl
    rw [hw] at hw'
    cases hw'
    exact hspawned (hs.unspawned i w hw hj)
  · rw [hw] at hw'
    cases hw'
    exact hwoken hp

/-- A task clears the current worker: it watches the newest one, which has closed. -/
theorem clear (hs : Ordered s) (hw : s.workers[i]? = some w) (hphase : w.watch = .clearing) :
    Ordered { s.setWatch i .ended with current := none } := by
  have hclosed : w.closed = true := hs.woken i w hw (.inr hphase)
  refine hs.modify (fun w => { w with watch := .ended }) i s.acceptor none
    (.inl ⟨rfl, fun j hj w' hw' => .inr ?_⟩) (fun _ => rfl) (fun _ h => h)
    (fun _ _ hp => ?_) (fun _ _ hp => ?_)
    (.inr ⟨rfl, hs.clearing i w hw hphase, fun w' hw' => ?_⟩)
  · rintro rfl
    rw [hw] at hw'
    cases hw'
    exact absurd (hphase.symm.trans (hs.unspawned i w hw hj)) (by decide)
  · obtain h | h := hp <;> cases h
  · cases hp
  · rw [hw] at hw'
    cases hw'
    exact hclosed

/-- The generation a task reads is its own exactly when its worker is the newest. -/
theorem newest_of_generation (hs : Ordered s) (hw : s.workers[i]? = some w)
    (h : s.generation = w.generation) : i + 1 = s.workers.length := by
  have hi : i < s.workers.length := lt_of_slot hw
  have hbound := hs.bounded
  rw [hs.generation, hs.numbered i w hw] at h
  exact (ofNat_inj hbound (by omega) h).symm

theorem step (hs : Ordered s) (hguard : s.Undisturbed a) (h : s.step a = some t) : Ordered t := by
  cases a with
  | accept =>
    rw [WorkerWatch.step] at h
    split at h <;> cases h
    exact hs.accept hguard.1 hguard.2
  | publish =>
    rw [WorkerWatch.step] at h
    split at h <;> cases h
    exact hs.publish (by assumption)
  | spawn =>
    rw [WorkerWatch.step] at h
    split at h <;> cases h
    rename_i i hacceptor
    refine hs.modify (fun w => { w with watch := .waiting }) i .accepting s.current
      (.inr ⟨hacceptor, rfl⟩) (fun _ => rfl) (fun _ h => h) (fun _ _ hp => ?_)
      (fun _ _ hp => ?_) (.inl rfl)
    · obtain h | h := hp <;> cases h
    · cases hp
  | close i =>
    cases h
    exact hs.modify (fun w => { w with closed := true }) i s.acceptor s.current
      (.inl ⟨rfl, fun _ _ _ _ => .inl rfl⟩) (fun _ => rfl) (fun _ _ => rfl)
      (fun _ _ _ => rfl) (fun w hw hp => hs.clearing i w hw hp) (.inl rfl)
  | wake i =>
    obtain ⟨w, hw, h⟩ := bind_eq_some_iff.1 h
    obtain ⟨⟨hwatch, hclosed⟩, h⟩ := ite_none_right_eq_some.1 h
    cases h
    refine hs.setWatch hw ?_ .woken (fun _ => hclosed) (fun hp => ?_)
    · rw [hwatch]
      decide
    · cases hp
  | quit i =>
    obtain ⟨w, hw, h⟩ := bind_eq_some_iff.1 h
    obtain ⟨hwatch, h⟩ := ite_none_right_eq_some.1 h
    cases h
    refine hs.setWatch hw ?_ .ended (fun hp => ?_) (fun hp => ?_)
    · rw [hwatch]
      decide
    · obtain h | h := hp <;> cases h
    · cases hp
  | load i =>
    obtain ⟨w, hw, h⟩ := bind_eq_some_iff.1 h
    obtain ⟨hwatch, h⟩ := ite_none_right_eq_some.1 h
    cases h
    refine hs.setWatch hw ?_ _ (fun _ => hs.woken i w hw (.inl hwatch)) (fun hp => ?_)
    · rw [hwatch]
      decide
    · split at hp
      · exact hs.newest_of_generation hw (by assumption)
      · cases hp
  | clear i =>
    obtain ⟨w, hw, h⟩ := bind_eq_some_iff.1 h
    obtain ⟨hwatch, h⟩ := ite_none_right_eq_some.1 h
    cases h
    exact hs.clear hw hwatch

theorem init : Ordered {} := by
  refine ⟨rfl, by decide, ?_, ?_, ?_, ?_, ?_, ?_, ?_⟩ <;> simp

end Ordered

/-! ## Whole runs -/

/-- Every way the task of worker `i` clears the current worker out of `s` leaves a newer one
alone. -/
def ClearsOnlyOlder (s : WorkerWatch) : Prop :=
  ∀ i t, s.step (.clear i) = some t → ∀ j, s.current = some j → j ≤ i

/-- The current worker is the newest accepted one, unless that one has closed. -/
def NewestIsCurrent (s : WorkerWatch) : Prop :=
  ∀ i w, s.workers[i]? = some w → i + 1 = s.workers.length →
    s.current = some i ∨ w.closed = true

theorem Ordered.clearsOnlyOlder (hs : Ordered s) : s.ClearsOnlyOlder := by
  intro i t h j hj
  obtain ⟨w, hw, h⟩ := bind_eq_some_iff.1 h
  obtain ⟨hwatch, -⟩ := ite_none_right_eq_some.1 h
  have hnewest := hs.clearing i w hw hwatch
  have hknown := hs.known j hj
  omega

theorem Ordered.newestIsCurrent (hs : Ordered s) (hquiet : s.acceptor = .accepting) :
    s.NewestIsCurrent := by
  intro i w hw hi
  refine hs.newest i w hw hi ?_
  rw [hquiet]
  nofun

/-- However many workers are accepted and however their tasks interleave, as long as none is
accepted between the two steps of a task: no task clears a newer worker, and with no step in
progress the newest worker is current unless it has closed. -/
theorem supersession (actions : List WatchAction) (s : WorkerWatch)
    (hundisturbed : RunMeets step Undisturbed {} actions)
    (hrun : runFrom step {} actions = some s) :
    s.ClearsOnlyOlder ∧ (s.Quiet → s.NewestIsCurrent) := by
  have hs : Ordered s :=
    invariant_of_guardedStep (I := Ordered) (fun _ _ _ hs hguard h => hs.step hguard h)
      Ordered.init hundisturbed hrun
  exact ⟨hs.clearsOnlyOlder, fun hquiet => hs.newestIsCurrent hquiet.1⟩

/-- Two workers; the task of the first wakes after the second was accepted. -/
def sampleReplacement : List WatchAction :=
  [.accept, .publish, .spawn, .accept, .publish, .spawn, .close 0, .wake 0, .load 0]

theorem supersession_sampleReplacement :
    ∃ s, runFrom step {} sampleReplacement = some s ∧ s.Quiet ∧ s.NewestIsCurrent := by
  have h := supersession sampleReplacement _ (by decide) rfl
  refine ⟨_, rfl, ?_, h.2 ?_⟩ <;> decide

/-- The first worker closes, and its task has read the generation when the second worker is
accepted. -/
def sampleRace : List WatchAction :=
  [.accept, .publish, .spawn, .close 0, .wake 0, .load 0, .accept, .publish, .spawn]

/-- The task of the first worker then clears the second, and no worker is current although the
newest has not closed. -/
theorem newer_worker_cleared :
    ∃ s t, runFrom step {} sampleRace = some s ∧ ¬ s.ClearsOnlyOlder ∧
      s.step (.clear 0) = some t ∧ t.Quiet ∧ ¬ t.NewestIsCurrent := by
  refine ⟨_, _, rfl, fun h => ?_, rfl, ?_, fun h => ?_⟩
  · exact absurd (h 0 _ rfl 1 rfl) (by decide)
  · decide
  · obtain h | h := h 1 _ rfl rfl <;> cases h

end WorkerWatch

end RivetLink.Agent
