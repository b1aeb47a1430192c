import RivetLink.Agent.ConsoleIpc

/-!
# Responses reach the call they answer

`request` pairs the next response with the call that waits for one. This is right as long as there
is at most one response to come and the call that asked for it is still there. `Paired` says so: the
calls that the worker still has to answer, or whose response is under way, are none, or only the one
call that holds the request lock and has written its packet.

A call that is dropped after it has written its packet leaves its response behind, and the next call
receives it (`dropped_call_shifts`). A call that is dropped in the middle of its packet spoils the
framing for all later ones. If calls are dropped only before the first byte of their packet is
written, every call that completes has received the response to its own request
(`response_matches`).
-/

namespace RivetLink.Agent

open List Option RivetLink.Foundation

variable {ρ β : Type}

def Segment.call? : Segment ρ → Option Nat
  | .packet i _ => some i
  | .cut _ => none
  | .keyframe => none

def WorkerState.call? : WorkerState ρ → Option Nat
  | .busy i _ => some i
  | _ => none

def Item.call? : Item β → Option Nat
  | .response i _ => some i
  | .notice => none

/-- The framing on the wire is intact. -/
def Segment.whole : Segment ρ → Bool
  | .cut _ => false
  | _ => true

/-- No byte of the packet is written. -/
def CallPc.unsent : CallPc β → Bool
  | .queued => true
  | .locked => true
  | .writing .nothing => true
  | _ => false

namespace Ipc

variable {s t : Ipc ρ β} {a : IpcAction ρ β} {i : Nat} {c : Call ρ β} {pc p : CallPc β}

/-- What the worker still has to answer. -/
def unanswered (s : Ipc ρ β) : List Nat :=
  if s.worker.isEnded then [] else s.worker.call?.toList ++ s.wire.filterMap Segment.call?

/-- The calls whose response is under way, or still to come, in order. -/
def pending (s : Ipc ρ β) : List Nat :=
  s.responses.map Prod.fst ++ (s.output.filterMap Item.call? ++ s.unanswered)

def pcOf (s : Ipc ρ β) (i : Nat) : Option (CallPc β) := s.calls[i]?.map (·.pc)

structure Paired (s : Ipc ρ β) : Prop where
  one : ∀ i j p q, s.pcOf i = some p → s.pcOf j = some q → p.holdsRequest = true →
    q.holdsRequest = true → i = j
  whole : s.worker.isEnded = false → ∀ seg ∈ s.wire, seg.whole = true
  pending : s.pending = [] ∨ ∃ i p, s.pending = [i] ∧ s.pcOf i = some p ∧ p.awaiting = true
  drained : s.readerEnded = true → s.worker.isEnded = true ∧ s.output = []
  matched : ∀ i j r, s.pcOf i = some (.done j r) → j = i

theorem Paired.new : Paired (Ipc.new : Ipc ρ β) where
  one := nofun
  whole := fun _ _ h => absurd h not_mem_nil
  pending := .inl rfl
  drained := nofun
  matched := nofun

theorem CallPc.holdsRequest_of_awaiting (h : p.awaiting = true) : p.holdsRequest = true := by
  cases p <;> first | rfl | cases h

theorem CallPc.awaiting_eq_false_of_unsent (h : p.unsent = true) : p.awaiting = false := by
  rcases p with _ | _ | (_ | _ | _) | _ | _ | _ | _ | _ <;> first | rfl | cases h

theorem pcOf_goTo (hc : s.calls[i]? = some c) (ht : t.calls = (s.goTo i c pc).calls) (j : Nat) :
    t.pcOf j = if j = i then some pc else s.pcOf j := by
  obtain ⟨hlt, -⟩ := List.getElem?_eq_some_iff.1 hc
  rw [pcOf, ht, goTo, List.getElem?_set]
  by_cases hji : j = i
  · simp [hji, hlt]
  · simp [hji, Ne.symm hji, pcOf]

theorem not_holds_of_free {holds : CallPc β → Bool} (h : s.free holds = true)
    (hp : s.pcOf i = some p) : holds p = false := by
  obtain ⟨c, hc, rfl⟩ := map_eq_some_iff.1 hp
  simpa using all_eq_true.1 h c (mem_of_getElem? hc)

/-- A call moves on. It holds the request lock afterwards only if it did before or nobody did, and
it completes only with its own response; what is pending is given. -/
theorem Paired.of_move (h : Paired s) (hc : s.calls[i]? = some c)
    (ht : t.calls = (s.goTo i c pc).calls)
    (hholds : pc.holdsRequest = true →
      c.pc.holdsRequest = true ∨ s.free CallPc.holdsRequest = true)
    (hdone : ∀ j r, pc = .done j r → j = i)
    (hpending : t.pending = [] ∨ ∃ j p, t.pending = [j] ∧ t.pcOf j = some p ∧ p.awaiting = true)
    (hwhole : t.worker.isEnded = false → ∀ seg ∈ t.wire, seg.whole = true)
    (hdrained : t.readerEnded = true → t.worker.isEnded = true ∧ t.output = []) : Paired t := by
  have hget := pcOf_goTo hc ht
  have hi : s.pcOf i = some c.pc := by rw [pcOf, hc]; rfl
  -- no call other than `i` holds the lock
  have hother : ∀ {j q}, j ≠ i → s.pcOf j = some q → q.holdsRequest = true →
      pc.holdsRequest = true → False := by
    intro j q hji hq hheld hpc
    rcases hholds hpc with hc' | hfree
    · exact hji (h.one j i q c.pc hq hi hheld hc')
    · rw [not_holds_of_free hfree hq] at hheld
      cases hheld
  refine ⟨?_, hwhole, hpending, hdrained, ?_⟩
  · intro j k p q hj hk hp hq
    rw [hget] at hj hk
    split at hj <;> split at hk
    · simp_all
    · cases hj
      exact (hother ‹_› hk hq hp).elim
    · cases hk
      exact (hother ‹_› hj hp hq).elim
    · exact h.one j k p q hj hk hp hq
  · intro j k r hj
    rw [hget] at hj
    split at hj
    · rename_i hji
      rw [hji]
      exact hdone k r (some.inj hj)
    · exact h.matched j k r hj

/-- A call moves on, and nothing enters or leaves the pipeline. -/
theorem Paired.of_goTo (h : Paired s) (hc : s.calls[i]? = some c)
    (hholds : pc.holdsRequest = true →
      c.pc.holdsRequest = true ∨ s.free CallPc.holdsRequest = true)
    (hawaiting : c.pc.awaiting = true → pc.awaiting = true ∨ s.pending = [])
    (hdone : ∀ j r, pc = .done j r → j = i) : Paired (s.goTo i c pc) := by
  refine h.of_move hc rfl hholds hdone ?_ h.whole h.drained
  have hget := pcOf_goTo (t := s.goTo i c pc) hc rfl
  have hi : s.pcOf i = some c.pc := by rw [pcOf, hc]; rfl
  rcases h.pending with hnil | ⟨j, p, hone, hp, hawait⟩
  · exact .inl hnil
  · by_cases hji : j = i
    · subst hji
      cases hi.symm.trans hp
      rcases hawaiting hawait with hawait' | hnil
      · exact .inr ⟨j, pc, hone, by rw [hget, if_pos rfl], hawait'⟩
      · exact .inl hnil
    · exact .inr ⟨j, p, hone, by rw [hget, if_neg hji, hp], hawait⟩

/-- The calls stay where they are, and the pipeline moves or loses what it holds. -/
theorem Paired.of_calls_eq (h : Paired s) (hcalls : t.calls = s.calls)
    (hpending : t.pending.Sublist s.pending)
    (hwhole : t.worker.isEnded = false → ∀ seg ∈ t.wire, seg.whole = true)
    (hdrained : t.readerEnded = true → t.worker.isEnded = true ∧ t.output = []) : Paired t := by
  have hget : ∀ j, t.pcOf j = s.pcOf j := fun j => by rw [pcOf, hcalls]; rfl
  refine ⟨?_, hwhole, ?_, hdrained, ?_⟩
  · intro j k p q hj hk
    exact h.one j k p q (hget j ▸ hj) (hget k ▸ hk)
  · rcases h.pending with hnil | ⟨j, p, hone, hp, hawait⟩
    · exact .inl (sublist_nil.1 (hnil ▸ hpending))
    · rcases sublist_cons_iff.1 (hone ▸ hpending) with hnil | ⟨rest, hrest, hnil⟩
      · exact .inl (sublist_nil.1 hnil)
      · rw [sublist_nil.1 hnil] at hrest
        exact .inr ⟨j, p, hrest, (hget j).trans hp, hawait⟩
  · intro j k r hj
    exact h.matched j k r (hget j ▸ hj)

/-- Nothing is pending while the call that holds the request lock has not written its packet. -/
theorem Paired.pending_eq_nil (h : Paired s) (hc : s.calls[i]? = some c)
    (hholds : c.pc.holdsRequest = true) (hawaiting : c.pc.awaiting = false) : s.pending = [] := by
  have hi : s.pcOf i = some c.pc := by rw [pcOf, hc]; rfl
  rcases h.pending with hnil | ⟨j, q, -, hq, hawait⟩
  · exact hnil
  · obtain rfl := h.one j i q c.pc hq hi (CallPc.holdsRequest_of_awaiting hawait) hholds
    cases hq.symm.trans hi
    rw [hawaiting] at hawait
    cases hawait

/-- The packet is on the wire: its call is the one that is pending. -/
theorem Paired.sendPacket (h : Paired s) (hc : s.calls[i]? = some c)
    (hholds : c.pc.holdsRequest = true) (hawaiting : c.pc.awaiting = false) :
    Paired (s.sendPacket i c) := by
  have hnil := h.pending_eq_nil hc hholds hawaiting
  refine h.of_move hc rfl (fun _ => .inl hholds) (fun j r hpc => by cases hpc) ?_ ?_ h.drained
  · by_cases hended : s.worker.isEnded = true
    · left
      simpa [Ipc.pending, unanswered, Ipc.sendPacket, goTo, hended] using hnil
    · right
      refine ⟨i, .writing .all, ?_, (pcOf_goTo hc rfl i).trans (if_pos rfl), rfl⟩
      calc (s.sendPacket i c).pending = s.pending ++ [i] := by
            simp [Ipc.pending, unanswered, Ipc.sendPacket, goTo, hended, Segment.call?]
        _ = [i] := by rw [hnil, nil_append]
  · intro hended seg hseg
    rcases mem_append.1 hseg with hseg | hseg
    · exact h.whole hended seg hseg
    · rw [mem_singleton.1 hseg]
      rfl

/-- The call that waits receives its own response. -/
theorem Paired.receive (h : Paired s) (hc : s.calls[i]? = some c) (hpc : c.pc = .receiving)
    {j : Nat} {r : β} {rest : List (Nat × β)} (hresponses : s.responses = (j, r) :: rest) :
    Paired { s.goTo i c (.done j r) with responses := rest } := by
  have hi : s.pcOf i = some .receiving := by rw [pcOf, hc, ← hpc]; rfl
  -- the response at hand is all that is pending, and its call holds the lock
  obtain ⟨hji, hnil⟩ : j = i ∧
      rest.map Prod.fst ++ (s.output.filterMap Item.call? ++ s.unanswered) = [] := by
    rcases h.pending with hnil | ⟨k, p, hone, hp, hawait⟩
    · simp [Ipc.pending, hresponses] at hnil
    · simp only [Ipc.pending, hresponses, map_cons, cons_append, List.cons.injEq] at hone
      obtain ⟨rfl, hnil⟩ := hone
      exact ⟨h.one j i p _ hp hi (CallPc.holdsRequest_of_awaiting hawait) rfl, hnil⟩
  refine h.of_move hc rfl (nofun) (fun k r' hdone => ?_) (.inl hnil) h.whole
    h.drained
  cases hdone
  exact hji

/-- The reader task has ended before the response came: there is none to come. -/
theorem Paired.pending_eq_nil_of_readerEnded (h : Paired s) (hended : s.readerEnded = true)
    (hresponses : s.responses = []) : s.pending = [] := by
  obtain ⟨hworker, houtput⟩ := h.drained hended
  simp [Ipc.pending, unanswered, hworker, houtput, hresponses]

/-- Calls are dropped only before the first byte of their packet is written. -/
def EarlyDrop (s : Ipc ρ β) : IpcAction ρ β → Prop
  | .drop i => ∀ c ∈ s.calls[i]?, c.pc.unsent = true
  | _ => True

instance (s : Ipc ρ β) (a : IpcAction ρ β) : Decidable (s.EarlyDrop a) := by
  unfold EarlyDrop
  split <;> infer_instance

theorem Paired.drop (h : Paired s) (hc : s.calls[i]? = some c) (hunsent : c.pc.unsent = true) :
    Paired (s.abandon i c .dropped) := by
  have habandon : s.abandon i c .dropped = s.goTo i c .dropped := by
    rw [abandon]
    split
    · rename_i hpc
      rw [hpc] at hunsent
      cases hunsent
    · rfl
  rw [habandon]
  refine h.of_goTo hc (nofun) (fun hawait => ?_) (nofun)
  rw [CallPc.awaiting_eq_false_of_unsent hunsent] at hawait
  cases hawait

/-- The worker is gone: a call that fails to write may leave anything on the wire. -/
theorem Paired.writeFails (h : Paired s) (hc : s.calls[i]? = some c)
    (hawaiting : c.pc.awaiting = false) (hended : s.worker.isEnded = true) :
    Paired (s.abandon i c .failed) := by
  have hgo : Paired (s.goTo i c .failed) := by
    refine h.of_goTo hc (nofun) (fun hawait => ?_)
      (nofun)
    rw [hawaiting] at hawait
    cases hawait
  rw [abandon]
  split
  · refine hgo.of_calls_eq rfl ?_ (fun hwork => ?_) hgo.drained
    · simp [Ipc.pending, unanswered, goTo, hended]
    · cases hended.symm.trans hwork
  · exact hgo

/-- A call that holds the request lock takes its next step. -/
theorem Paired.advance (h : Paired s) (hc : s.calls[i]? = some c) (hpc : c.pc = p)
    (hholds : p.holdsRequest = true) (hawaiting : p.awaiting = true → pc.awaiting = true)
    (hactive : pc.active = true) : Paired (s.goTo i c pc) := by
  subst hpc
  refine h.of_goTo hc (fun _ => .inl hholds) (fun hawait => .inl (hawaiting hawait)) ?_
  rintro j r rfl
  cases hactive

/-- Every step of a call keeps the pairing. -/
theorem Paired.stepCall (h : Paired s) (hc : s.calls[i]? = some c)
    (hdrop : ∀ j, a = .drop j → c.pc.unsent = true) (hstep : s.stepCall i c a = some t) :
    Paired t := by
  rw [Ipc.stepCall.eq_def] at hstep
  split at hstep
  case h_1 hpc =>
    split at hstep <;> cases hstep
    exact h.of_goTo hc (fun _ => .inr ‹_›) (fun hawait => by rw [hpc] at hawait; cases hawait)
      (nofun)
  case h_2 hpc =>
    split at hstep <;> cases hstep
    exact h.advance hc hpc rfl (nofun) rfl
  case h_3 hpc =>
    cases hstep
    exact h.advance hc hpc rfl (nofun) rfl
  case h_4 hpc | h_5 hpc =>
    cases hstep
    exact h.sendPacket hc (by rw [hpc]; rfl) (by rw [hpc]; rfl)
  case h_6 hpc | h_7 hpc =>
    split at hstep <;> cases hstep
    exact h.writeFails hc (by rw [hpc]; rfl) ‹_›
  case h_8 hpc =>
    cases hstep
    exact h.advance hc hpc rfl (fun _ => rfl) rfl
  case h_9 hpc =>
    split at hstep <;> cases hstep
    exact h.advance hc hpc rfl (fun _ => rfl) rfl
  case h_10 hpc =>
    split at hstep
    · cases hstep
      exact h.receive hc hpc ‹_›
    · split at hstep <;> cases hstep
      exact h.of_goTo hc (nofun)
        (fun _ => .inr (h.pending_eq_nil_of_readerEnded ‹_› ‹_›)) (nofun)
  case h_11 =>
    split at hstep <;> cases hstep
    exact h.drop hc (hdrop _ rfl)
  case h_12 => cases hstep

theorem Paired.call (h : Paired s) (request : ρ) :
    Paired { s with calls := s.calls ++ [⟨request, .queued⟩] } := by
  -- the new call is queued, the others are where they were
  have hget : ∀ {j p}, p ≠ .queued →
      ({ s with calls := s.calls ++ [⟨request, .queued⟩] } : Ipc ρ β).pcOf j = some p →
      s.pcOf j = some p := by
    intro j p hp hj
    rw [pcOf, getElem?_append] at hj
    split at hj
    · exact hj
    · obtain ⟨c, hc, rfl⟩ := map_eq_some_iff.1 hj
      rw [mem_singleton.1 (mem_of_getElem? hc)] at hp
      exact absurd rfl hp
  refine ⟨?_, h.whole, ?_, h.drained, ?_⟩
  · intro j k p q hj hk hp hq
    have hj' := hget (by rintro rfl; cases hp) hj
    have hk' := hget (by rintro rfl; cases hq) hk
    exact h.one j k p q hj' hk' hp hq
  · refine h.pending.imp_right ?_
    rintro ⟨j, p, hone, hp, hawait⟩
    refine ⟨j, p, hone, ?_, hawait⟩
    obtain ⟨c, hc, rfl⟩ := map_eq_some_iff.1 hp
    rw [pcOf, getElem?_append_left (lt_of_slot hc), hc]
    rfl
  · intro j k r hj
    exact h.matched j k r (hget (nofun) hj)

/-- The worker is there and moves what it has to answer along. -/
theorem Paired.of_running (h : Paired s) (hworker : s.worker.isEnded = false)
    (hcalls : t.calls = s.calls) (hreader : t.readerEnded = s.readerEnded)
    (hpending : t.pending = s.pending) (hwire : ∀ seg ∈ t.wire, seg ∈ s.wire) : Paired t := by
  refine h.of_calls_eq hcalls (hpending ▸ List.Sublist.refl _)
    (fun _ seg hseg => h.whole hworker seg (hwire seg hseg)) (fun hended => ?_)
  rw [hreader] at hended
  cases (h.drained hended).1.symm.trans hworker

theorem Paired.stepWorkerReads (h : Paired s) (hstep : s.stepWorkerReads = some t) : Paired t := by
  rw [Ipc.stepWorkerReads] at hstep
  split at hstep
  case h_1 hworker hwire =>
    cases hstep
    refine h.of_running (by rw [hworker]; rfl) rfl rfl ?_
      (fun seg hseg => hwire ▸ mem_cons_of_mem _ hseg)
    simp [Ipc.pending, unanswered, hworker, hwire, WorkerState.isEnded, WorkerState.call?,
      Segment.call?]
  case h_2 hworker hwire =>
    cases hstep
    refine h.of_running (by rw [hworker]; rfl) rfl rfl ?_
      (fun seg hseg => hwire ▸ mem_cons_of_mem _ hseg)
    simp [Ipc.pending, unanswered, hworker, hwire, filterMap_cons, Segment.call?]
  case h_3 hworker hwire =>
    -- the framing is intact
    cases h.whole (by rw [hworker]; rfl) (.cut _) (hwire ▸ mem_cons_self)
  case h_4 => cases hstep

theorem Paired.workerAnswers (h : Paired s) {request : ρ} (hworker : s.worker = .busy i request)
    (r : β) : Paired { s with worker := .idle, output := s.output ++ [.response i r] } := by
  refine h.of_running (by rw [hworker]; rfl) rfl rfl ?_ (fun _ hseg => hseg)
  simp [Ipc.pending, unanswered, hworker, WorkerState.isEnded, WorkerState.call?, Item.call?]

theorem Paired.workerNotice (h : Paired s) (hworker : s.worker.isEnded = false) :
    Paired { s with output := s.output ++ [.notice] } :=
  h.of_running hworker rfl rfl (by simp [Ipc.pending, unanswered, Item.call?]) (fun _ hseg => hseg)

theorem Paired.workerEnds (h : Paired s) : Paired { s with worker := .ended } := by
  refine h.of_calls_eq rfl ?_ (nofun)
    (fun hended => ⟨rfl, (h.drained hended).2⟩)
  exact ((nil_sublist _).append_left _).append_left _

theorem Paired.keyframe (h : Paired s) : Paired { s with wire := s.wire ++ [.keyframe] } := by
  refine h.of_calls_eq rfl ?_ (fun hwork seg hseg => ?_) h.drained
  · simp [Ipc.pending, unanswered, filterMap_cons, Segment.call?]
  · rcases mem_append.1 hseg with hseg | hseg
    · exact h.whole hwork seg hseg
    · rw [mem_singleton.1 hseg]
      rfl

theorem Paired.stepReaderReads (h : Paired s) (hstep : s.stepReaderReads = some t) : Paired t := by
  rw [Ipc.stepReaderReads] at hstep
  split at hstep
  case isTrue => cases hstep
  case isFalse hreader =>
    split at hstep
    case h_1 houtput =>
      split at hstep <;> cases hstep
      refine h.of_calls_eq rfl ?_ h.whole (fun hended => absurd hended hreader)
      simp [Ipc.pending, unanswered, houtput, Item.call?]
    case h_2 houtput =>
      cases hstep
      refine h.of_calls_eq rfl ?_ h.whole (fun hended => absurd hended hreader)
      simp [Ipc.pending, unanswered, houtput, filterMap_cons, Item.call?]
    case h_3 houtput hworker =>
      cases hstep
      exact h.of_calls_eq rfl (List.Sublist.refl _) h.whole
        (fun _ => ⟨by rw [hworker]; rfl, houtput⟩)
    case h_4 => cases hstep

theorem Paired.step (h : Paired s) (hguard : s.EarlyDrop a) (hstep : s.step a = some t) :
    Paired t := by
  cases a
  case call request =>
    cases hstep
    exact h.call request
  case drop i =>
    obtain ⟨c, hc, hstep⟩ := bind_eq_some_iff.1 hstep
    exact h.stepCall hc (fun _ _ => hguard c hc) hstep
  case keyframe =>
    simp only [Ipc.step] at hstep
    split at hstep <;> cases hstep
    exact h.keyframe
  case workerReads => exact h.stepWorkerReads hstep
  case workerAnswers r =>
    simp only [Ipc.step] at hstep
    split at hstep <;> cases hstep
    exact h.workerAnswers ‹_› r
  case workerNotice =>
    simp only [Ipc.step] at hstep
    split at hstep <;> cases hstep
    refine h.workerNotice ?_
    cases hworker : s.worker <;> first | rfl | exact absurd hworker ‹_›
  case workerEnds =>
    cases hstep
    exact h.workerEnds
  case readerReads => exact h.stepReaderReads hstep
  all_goals
    obtain ⟨c, hc, hstep⟩ := bind_eq_some_iff.1 hstep
    exact h.stepCall hc (fun _ hdrop => by cases hdrop) hstep

/-- For every number of calls and every interleaving of their steps with the keyframe tasks, the
worker and the reader task: if calls are dropped only before the first byte of their packet is
written, each call that completes has received the response to its own request. -/
theorem response_matches {acts : List (IpcAction ρ β)}
    (hmeets : RunMeets step EarlyDrop (new : Ipc ρ β) acts)
    (hrun : runFrom step (new : Ipc ρ β) acts = some s) :
    ∀ (i : Nat) (c : Call ρ β) (j : Nat) (r : β),
      s.calls[i]? = some c → c.pc = .done j r → j = i := by
  intro i c j r hc hdone
  have hpaired : Paired s := invariant_of_guardedStep (I := Paired)
    (fun _ _ _ h hguard hstep => h.step hguard hstep) .new hmeets hrun
  exact hpaired.matched i j r (by rw [pcOf, hc, ← hdone]; rfl)

/-- Call `i` sends its packet and waits for the response. -/
def sampleSend (i : Nat) : List (IpcAction String String) :=
  [.lock i, .lockWriter i, .write i true, .flush i, .lockResponses i]

/-- The capture is dropped by its timeout while the worker is at it; two more requests follow. -/
def droppedRun : List (IpcAction String String) :=
  [.call "Capture", .call "Input", .call "Ping"] ++ sampleSend 0 ++ [.workerReads, .drop 0] ++
    sampleSend 1 ++ [.workerAnswers "Capture", .readerReads, .receive 1] ++
    sampleSend 2 ++ [.workerReads, .workerAnswers "InputAccepted", .readerReads, .receive 2]

/-- The worker answers each request in order with one response, but the call after the dropped
capture receives the capture, and the one after that receives the response meant for its
predecessor. -/
theorem dropped_call_shifts :
    (runFrom step (new : Ipc String String) droppedRun).map (·.calls) =
      some [⟨"Capture", .dropped⟩, ⟨"Input", .done 0 "Capture"⟩,
        ⟨"Ping", .done 1 "InputAccepted"⟩] := by
  decide +kernel

/-- The capture is dropped while it waits for its turn. -/
def earlyRun : List (IpcAction String String) :=
  [.call "Capture", .call "Input", .lock 1, .drop 0, .lockWriter 1, .write 1 true, .flush 1,
    .lockResponses 1, .workerReads, .workerNotice, .workerAnswers "InputAccepted", .readerReads,
    .readerReads, .receive 1]

def earlyOutcome : Ipc String String :=
  (runFrom step (new : Ipc String String) earlyRun).get (by decide +kernel)

theorem response_matches_earlyRun :
    RunMeets step EarlyDrop (new : Ipc String String) earlyRun ∧
      earlyOutcome.calls = [⟨"Capture", .dropped⟩, ⟨"Input", .done 1 "InputAccepted"⟩] ∧
      ∀ (i : Nat) (c : Call String String) (j : Nat) (r : String),
        earlyOutcome.calls[i]? = some c → c.pc = .done j r → j = i := by
  have hmeets : RunMeets step EarlyDrop (new : Ipc String String) earlyRun := by decide +kernel
  exact ⟨hmeets, by decide +kernel, response_matches hmeets (some_get _).symm⟩

end Ipc

end RivetLink.Agent
