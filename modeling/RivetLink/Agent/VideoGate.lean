import Mathlib.Data.List.Basic
import RivetLink.Agent.DesktopFrames

/-!
# Video deltas wait for a keyframe

A video delta is of no use without the frame before it. `next` holds deltas back from the start and
from every lag on until a keyframe comes, and asks the worker for one. Between a keyframe that was
returned and the next lag nothing is held back, so a delta that is returned comes right behind
everything that was published since a keyframe (`Intact`).

`VideoGate` is one stream of one worker: the channel of frames, the handle from which the viewer
takes them, and the keyframe requests. Frames are counted by their places in the channel. The arm of
`next` for the end of a stream changes none of this and is left out.
-/

namespace RivetLink.Agent

open List Option RivetLink.Foundation RivetLink.Sdk

/-- The keyframe request that the arm of `next` for frames makes, and whether it says that frames
were lost. -/
def ConsoleDesktopStream.asks (d : ConsoleDesktopStream) :
    Received (Nat × StreamFrame) → Option Bool
  | .lagged _ => if d.video then some true else none
  | .value (_, .video video) =>
    if video.keyframe then none
    else if d.awaitingKeyframe && !d.keyframeRequested then some d.lagged
    else none
  | _ => none

/-- The least time between two keyframe requests of a viewer, in milliseconds. -/
def minGap : Nat := 500

structure VideoGate where
  channel : Broadcast (Nat × StreamFrame)
  stream : ConsoleDesktopStream
  lastViewerKeyframe : Option Nat := none
  /-- The request that is being written to the worker. -/
  keyframeInFlight : Option Bool := none
  /-- The requests that were written. -/
  sent : List Bool := []
  /-- What `next` has returned, with the places in the channel. -/
  returned : List (Nat × Returned) := []

inductive GateAction where
  | publish (f : StreamFrame)
  /-- One turn of the loop of `next`. -/
  | poll
  /-- The viewer could not decode a frame. -/
  | requestKeyframe (now : Nat)
  | write (ok : Bool)
  deriving DecidableEq

namespace VideoGate

/-- A worker starts a stream; the channel has served other streams before. -/
def start (channel : Broadcast (Nat × StreamFrame)) (worker number : Nat) (ended : Receiver) :
    VideoGate where
  channel := channel
  stream := { worker := worker, frames := channel.subscribe, ended := ended, number := number }

/-- `ConsoleWorkerClient::request_keyframe`. -/
def ask (s : VideoGate) (congested : Bool) : VideoGate :=
  if s.keyframeInFlight.isSome then s else { s with keyframeInFlight := some congested }

/-- The frame channel has `got` for the handle, whose place is `frames` afterwards. -/
def onFrame (s : VideoGate) (got : Received (Nat × StreamFrame)) (frames : Receiver) : VideoGate :=
  let next := { s.stream with frames := frames }.onFrame got
  let s' := { s with
    stream := next.1
    returned := s.returned ++ (next.2.map (s.stream.frames.next, ·)).toList }
  match s.stream.asks got with
  | some congested => s'.ask congested
  | none => s'

def requestKeyframe (s : VideoGate) (now : Nat) : VideoGate :=
  if !s.stream.video || s.lastViewerKeyframe.any (now - · < minGap) then s
  else { s with lastViewerKeyframe := some now }.ask false

def step (s : VideoGate) : GateAction → Option VideoGate
  | .publish f => some { s with channel := s.channel.send (s.stream.number, f) }
  | .poll =>
    let r := s.channel.recv s.stream.frames
    some (s.onFrame r.1 r.2)
  | .requestKeyframe now => some (s.requestKeyframe now)
  | .write ok =>
    s.keyframeInFlight.map fun congested =>
      { s with
        keyframeInFlight := none
        sent := if ok then s.sent ++ [congested] else s.sent }

/-- The frame at this place is a keyframe of a video. -/
def KeyframeAt (log : List (Nat × StreamFrame)) (k : Nat) : Prop :=
  ∃ n v, log[k]? = some (n, .video v) ∧ v.keyframe = true

/-- Everything from a keyframe up to place `i` is what was returned last. -/
def Intact (log : List (Nat × StreamFrame)) (returned : List (Nat × Returned)) (i : Nat) : Prop :=
  ∃ k, k < i ∧ KeyframeAt log k ∧ List.range' k (i - k) <:+ returned.map Prod.fst

variable {log : List (Nat × StreamFrame)} {returned : List (Nat × Returned)} {i : Nat}
  {s t : VideoGate} {a : GateAction} {x : Returned}

theorem KeyframeAt.append (h : KeyframeAt log i) (l : List (Nat × StreamFrame)) :
    KeyframeAt (log ++ l) i := by
  obtain ⟨n, v, hlog, hkey⟩ := h
  refine ⟨n, v, ?_, hkey⟩
  rw [getElem?_append_left (lt_of_slot hlog), hlog]

theorem Intact.append (h : Intact log returned i) (l : List (Nat × StreamFrame)) :
    Intact (log ++ l) returned i := by
  obtain ⟨k, hk, hkey, hsuffix⟩ := h
  exact ⟨k, hk, hkey.append l, hsuffix⟩

/-- The next frame is returned as well. -/
theorem Intact.snoc (h : Intact log returned i) (x : Returned) :
    Intact log (returned ++ [(i, x)]) (i + 1) := by
  obtain ⟨k, hk, hkey, pre, hpre⟩ := h
  refine ⟨k, Nat.lt_succ_of_lt hk, hkey, pre, ?_⟩
  have hlen : i + 1 - k = (i - k) + 1 := by omega
  have hlast : k + 1 * (i - k) = i := by omega
  rw [hlen, range'_concat, hlast, ← append_assoc, hpre, map_append]
  rfl

theorem intact_keyframe (hkey : KeyframeAt log i) (x : Returned) :
    Intact log (returned ++ [(i, x)]) (i + 1) := by
  refine ⟨i, Nat.lt_succ_self i, hkey, returned.map Prod.fst, ?_⟩
  rw [Nat.add_sub_cancel_left, map_append]
  rfl

/-! ## The gate -/

/-- Every delta among what was returned comes right behind all that was published since a
keyframe. -/
def DeltasIntact (log : List (Nat × StreamFrame)) (returned : List (Nat × Returned)) : Prop :=
  ∀ before i n v after, returned = before ++ (i, .frame n (.video v)) :: after →
    v.keyframe = false → Intact log before i

/-- What a stream that began at place `first` has returned. -/
structure Ok (first : Nat) (s : VideoGate) : Prop where
  next : first ≤ s.stream.frames.next
  values : ∀ p ∈ s.returned, ∃ n f, p.2 = .frame n f ∧ s.channel.log[p.1]? = some (n, f)
  deltas : DeltasIntact s.channel.log s.returned
  gate : s.stream.awaitingKeyframe = false →
    Intact s.channel.log s.returned s.stream.frames.next
  video : s.stream.video = true →
    ∃ j n v, first ≤ j ∧ s.channel.log[j]? = some (n, .video v)
  asked : s.keyframeInFlight.isSome = true ∨ s.sent ≠ [] → s.stream.video = true

theorem DeltasIntact.append (h : DeltasIntact log returned) (l : List (Nat × StreamFrame)) :
    DeltasIntact (log ++ l) returned := by
  intro before i n v after heq hdelta
  exact (h before i n v after heq hdelta).append l

/-- One more frame is returned; if it is a delta, the gate was open. -/
theorem DeltasIntact.snoc (h : DeltasIntact log returned)
    (hx : ∀ n v, x = .frame n (.video v) → v.keyframe = false → Intact log returned i) :
    DeltasIntact log (returned ++ [(i, x)]) := by
  intro before j n v after heq hdelta
  obtain ⟨rest, rfl, hrest⟩ | ⟨rest, hbefore, hrest⟩ := append_eq_append_iff.1 heq
  · -- the frame is the last one
    cases rest with
    | nil =>
      rw [append_nil]
      cases hrest
      exact hx n v rfl hdelta
    | cons p rest => cases rest <;> cases hrest
  · cases rest with
    | nil =>
      cases hrest
      rw [append_nil] at hbefore
      rw [← hbefore]
      exact hx n v rfl hdelta
    | cons p rest =>
      cases hrest
      exact h before j n v rest hbefore hdelta

namespace Ok

variable {first : Nat} {d : ConsoleDesktopStream}

theorem publish (hs : Ok first s) (p : Nat × StreamFrame) :
    Ok first { s with channel := s.channel.send p } := by
  have hold : ∀ (j : Nat) (q : Nat × StreamFrame), s.channel.log[j]? = some q →
      (s.channel.log ++ [p])[j]? = some q := by
    intro j q hq
    rw [getElem?_append_left (lt_of_slot hq), hq]
  refine ⟨hs.next, fun q hq => ?_, hs.deltas.append [p], fun h => (hs.gate h).append [p],
    fun h => ?_, hs.asked⟩
  · obtain ⟨n, f, hframe, hlog⟩ := hs.values q hq
    exact ⟨n, f, hframe, hold q.1 _ hlog⟩
  · obtain ⟨j, n, v, hj, hlog⟩ := hs.video h
    exact ⟨j, n, v, hj, hold j _ hlog⟩

theorem ask (hs : Ok first s) (hvideo : s.stream.video = true) (congested : Bool) :
    Ok first (s.ask congested) := by
  unfold VideoGate.ask
  split
  · exact hs
  · exact { hs with asked := fun _ => hvideo }

/-- The handle moves on without a frame to return; the gate does not open. -/
theorem skip (hs : Ok first s) (hnext : s.stream.frames.next ≤ d.frames.next)
    (hgate : d.awaitingKeyframe = false →
      s.stream.awaitingKeyframe = false ∧ d.frames = s.stream.frames)
    (hvideo : d.video = true → ∃ j n v, first ≤ j ∧ s.channel.log[j]? = some (n, .video v))
    (hstill : s.stream.video = true → d.video = true) : Ok first { s with stream := d } where
  next := hs.next.trans hnext
  values := hs.values
  deltas := hs.deltas
  gate h := by
    obtain ⟨hopen, hframes⟩ := hgate h
    dsimp only
    rw [hframes]
    exact hs.gate hopen
  video := hvideo
  asked h := hstill (hs.asked h)

/-- The frame at the place of the handle is returned. -/
theorem give (hs : Ok first s) {n : Nat} {f : StreamFrame}
    (hlog : s.channel.log[s.stream.frames.next]? = some (n, f))
    (hnext : d.frames = ⟨s.stream.frames.next + 1⟩) (hgate : d.awaitingKeyframe = false →
      s.stream.awaitingKeyframe = false ∨ ∃ v, f = .video v ∧ v.keyframe = true)
    (hdelta : ∀ v, f = .video v → v.keyframe = false → s.stream.awaitingKeyframe = false)
    (hvideo : d.video = true → s.stream.video = true ∨ ∃ v, f = .video v)
    (hstill : s.stream.video = true → d.video = true) :
    Ok first { s with
      stream := d
      returned := s.returned ++ [(s.stream.frames.next, .frame n f)] } where
  next := by
    dsimp only
    rw [hnext]
    exact hs.next.trans (Nat.le_succ _)
  values p hp := by
    obtain hp | hp := mem_append.1 hp
    · exact hs.values p hp
    · rw [mem_singleton.1 hp]
      exact ⟨n, f, rfl, hlog⟩
  deltas := by
    refine hs.deltas.snoc fun m v hf hkey => hs.gate ?_
    cases hf
    exact hdelta v rfl hkey
  gate h := by
    dsimp only
    rw [hnext]
    obtain hopen | ⟨v, rfl, hkey⟩ := hgate h
    · exact (hs.gate hopen).snoc _
    · exact intact_keyframe ⟨n, v, hlog, hkey⟩ _
  video h := by
    obtain hold | ⟨v, rfl⟩ := hvideo h
    · exact hs.video hold
    · exact ⟨s.stream.frames.next, n, v, hs.next, hlog⟩
  asked h := hstill (hs.asked h)

/-- The handle has lagged behind: deltas have to wait again. -/
theorem lagged (hs : Ok first s) (missed : Nat) {r : Receiver}
    (hr : s.stream.frames.next ≤ r.next) : Ok first (s.onFrame (.lagged missed) r) := by
  simp only [VideoGate.onFrame, ConsoleDesktopStream.asks, ConsoleDesktopStream.onFrame]
  cases hvideo : s.stream.video with
  | true =>
    simp only [if_true, map_none, toList_none, append_nil]
    refine ask ?_ rfl true
    refine hs.skip hr (fun h => ?_) (fun _ => hs.video hvideo) fun _ => rfl
    cases h
  | false =>
    simp only [Bool.false_eq_true, if_false, map_none, toList_none, append_nil]
    refine hs.skip hr (fun h => ?_) (fun h => ?_) fun h => ?_
    · cases h
    · cases h
    · cases hvideo.symm.trans h

/-- A video frame comes. -/
theorem value_video (hs : Ok first s) {n : Nat} {v : VideoFrame}
    (hlog : s.channel.log[s.stream.frames.next]? = some (n, .video v)) :
    Ok first (s.onFrame (.value (n, .video v)) ⟨s.stream.frames.next + 1⟩) := by
  have hpublished : ∃ j n v, first ≤ j ∧ s.channel.log[j]? = some (n, .video v) :=
    ⟨s.stream.frames.next, n, v, hs.next, hlog⟩
  simp only [VideoGate.onFrame, ConsoleDesktopStream.asks, ConsoleDesktopStream.onFrame]
  cases hkey : v.keyframe with
  | true =>
    simp only [if_true]
    refine hs.give hlog rfl (fun _ => .inr ⟨v, rfl, hkey⟩) (fun w hw hdelta => ?_)
      (fun _ => .inr ⟨v, rfl⟩) fun _ => rfl
    cases hw
    rw [hkey] at hdelta
    cases hdelta
  | false =>
    simp only [Bool.false_eq_true, if_false]
    cases hawaiting : s.stream.awaitingKeyframe with
    | false =>
      simp only [Bool.false_and, Bool.false_eq_true, if_false]
      exact hs.give hlog rfl (fun _ => .inl hawaiting) (fun _ _ _ => hawaiting)
        (fun _ => .inr ⟨v, rfl⟩) fun _ => rfl
    | true =>
      -- the delta is held back
      cases hrequested : s.stream.keyframeRequested with
      | true =>
        simp only [Bool.not_true, Bool.and_false, Bool.false_eq_true, if_false, if_true,
          map_none, toList_none, append_nil]
        refine hs.skip (Nat.le_succ _) (fun h => ?_) (fun _ => hpublished) fun _ => rfl
        cases h
      | false =>
        simp only [Bool.not_false, Bool.and_self, Bool.false_eq_true, if_false, if_true,
          map_none, toList_none, append_nil]
        refine ask ?_ rfl _
        refine hs.skip (Nat.le_succ _) (fun h => ?_) (fun _ => hpublished) fun _ => rfl
        cases h

theorem poll (hs : Ok first s) :
    Ok first (s.onFrame (s.channel.recv s.stream.frames).1
      (s.channel.recv s.stream.frames).2) := by
  obtain ⟨missed, oldest, hle, hrecv⟩ | hrecv | ⟨⟨n, f⟩, hlog, hrecv⟩ :=
    s.channel.recv_cases s.stream.frames
  · rw [hrecv]
    exact hs.lagged missed hle
  · rw [hrecv]
    simp only [VideoGate.onFrame, ConsoleDesktopStream.asks, ConsoleDesktopStream.onFrame,
      map_none, toList_none, append_nil]
    exact hs
  · rw [hrecv]
    cases f with
    | video v => exact hs.value_video hlog
    | tiles delta =>
      simp only [VideoGate.onFrame, ConsoleDesktopStream.asks, ConsoleDesktopStream.onFrame]
      refine hs.give hlog rfl (fun h => .inl h) (fun v hv => ?_) (fun h => .inl h) fun h => h
      cases hv

theorem step (hs : Ok first s) (h : s.step a = some t) : Ok first t := by
  cases a with
  | publish f =>
    cases h
    exact hs.publish _
  | poll =>
    cases h
    exact hs.poll
  | requestKeyframe now =>
    cases h
    unfold VideoGate.requestKeyframe
    split
    · exact hs
    · rename_i hcond
      simp only [Bool.or_eq_true, Bool.not_eq_true', not_or, Bool.not_eq_false] at hcond
      have hs' : Ok first { s with lastViewerKeyframe := some now } := { hs with }
      exact hs'.ask hcond.1 false
  | write ok =>
    obtain ⟨congested, hflight, rfl⟩ := map_eq_some_iff.1 h
    refine { hs with asked := fun _ => hs.asked (.inl ?_) }
    rw [hflight]
    rfl

theorem start (channel : Broadcast (Nat × StreamFrame)) (worker number : Nat) (ended : Receiver) :
    Ok channel.log.length (.start channel worker number ended) where
  next := Nat.le_refl _
  values _ hp := by cases hp
  deltas before i n v after heq := by simp [VideoGate.start] at heq
  gate h := by cases h
  video h := by cases h
  asked h := by simp [VideoGate.start] at h

end Ok

/-- For all frames that a worker publishes and however the viewer lags behind: what `next` returns
was published, and a delta is returned only right behind all that was published since a keyframe,
in order. A keyframe is asked for only after the worker has published a video frame. -/
theorem video_gate (channel : Broadcast (Nat × StreamFrame)) (worker number : Nat)
    (ended : Receiver) (acts : List GateAction) (s : VideoGate)
    (hrun : runFrom step (start channel worker number ended) acts = some s) :
    (∀ p ∈ s.returned, ∃ n f, p.2 = .frame n f ∧ s.channel.log[p.1]? = some (n, f)) ∧
      (∀ before i n v after, s.returned = before ++ (i, .frame n (.video v)) :: after →
        v.keyframe = false →
        ∃ k, k < i ∧ KeyframeAt s.channel.log k ∧
          List.range' k (i - k) <:+ before.map Prod.fst) ∧
      (s.keyframeInFlight.isSome = true ∨ s.sent ≠ [] →
        ∃ j n v, channel.log.length ≤ j ∧ s.channel.log[j]? = some (n, .video v)) := by
  have hs : Ok channel.log.length s :=
    invariant_of_step (fun _ _ _ hs h => Ok.step hs h) (Ok.start channel worker number ended) hrun
  exact ⟨hs.values, hs.deltas, fun h => hs.video (hs.asked h)⟩

/-- A delta is held back, a keyframe and a delta are returned; then the viewer lags behind, and
waits for the next keyframe. -/
def sampleLag : List GateAction :=
  [.publish (sampleVideo false), .poll, .write true, .publish (sampleVideo true),
    .publish (sampleVideo false), .poll, .poll] ++
  List.replicate 5 (.publish (sampleVideo false)) ++
  [.publish (sampleVideo true), .publish (sampleVideo false), .poll, .poll, .poll, .poll, .poll]

/-- What the viewer was given in the run. -/
def gaveSample (s : VideoGate) : Bool :=
  s.returned = [(1, .frame 1 (sampleVideo true)), (2, .frame 1 (sampleVideo false)),
    (8, .frame 1 (sampleVideo true)), (9, .frame 1 (sampleVideo false))]

theorem video_gate_sampleLag :
    ∃ s, runFrom step (start (.channel 4) 0 1 ⟨0⟩) sampleLag = some s ∧ s.sent = [false] ∧
      s.returned.map Prod.fst = [1, 2, 8, 9] ∧
      ∃ k, k < 9 ∧ KeyframeAt s.channel.log k ∧ List.range' k (9 - k) <:+ [1, 2, 8] := by
  have hany : (runFrom step (start (.channel 4) 0 1 ⟨0⟩) sampleLag).any
      (fun s => gaveSample s && s.sent == [false]) = true := by decide +kernel
  obtain ⟨s, hrun, hs⟩ := any_eq_true _ _ |>.1 hany
  obtain ⟨hgave, hsent⟩ := Bool.and_eq_true_iff.1 hs
  have hreturned := of_decide_eq_true hgave
  refine ⟨s, hrun, eq_of_beq hsent, by rw [hreturned]; rfl, ?_⟩
  exact (video_gate (.channel 4) 0 1 ⟨0⟩ sampleLag s hrun).2.1
    [(1, .frame 1 (sampleVideo true)), (2, .frame 1 (sampleVideo false)),
      (8, .frame 1 (sampleVideo true))] 9 1 _ [] hreturned rfl

end VideoGate

end RivetLink.Agent
