import RivetLink.Foundation.Fifo
import RivetLink.Foundation.Transition
import RivetLink.Sdk.LanMessages

/-!
# The H.264 encoder of a stream

`push` and `heartbeat` of `H264Encoder`, cut at the points between which the consumer and the
viewers can act: the check for room, the change of the bitrate, the forced keyframe, the encoding,
the queueing. The codec is an oracle: what it returns for a frame, and whether it can be built for a
new bitrate, are inputs of the steps. So is the time that passes before each look at the clock.

A unit that the codec has put out cannot be encoded again, so none may be lost. The check for room
comes first, and as there is no other producer the room is still there when the unit is queued.
`Queueing` is the invariant behind this; `Clocked` is the one for the bitrate.
-/

namespace RivetLink.Agent

open List Option RivetLink.Foundation RivetLink.Sdk

def maxBps : Nat := 10000000

def minBps : Nat := 1000000

/-- Durations and instants are in nanoseconds. -/
def heartbeatGap : Nat := 1000 * 1000000

def raiseAfter : Nat := 10 * 1000000000

def lowerHoldoff : Nat := 1 * 1000000000

def minKeyframeGap : Nat := 500 * 1000000

/-- The number of bytes of a tightly packed frame. -/
def i420Len (w h : Nat) : Nat := w * h + 2 * ((w / 2) * (h / 2))

structure VideoControl where
  keyframe : Bool := false
  congested : Bool := false

structure H264Encoder where
  w : Nat
  h : Nat
  bitrate : Nat
  control : VideoControl
  /-- The newest frame. -/
  last : Option Bytes
  /-- `last` has not reached the consumer yet. -/
  pending : Bool
  lastSent : Nat
  lastRateChange : Nat
  lastCongestion : Nat
  lastForcedKeyframe : Option Nat

inductive FrameType where
  | idr
  | i
  | p
  | ipMixed
  | skip
  | invalid
  deriving DecidableEq

namespace H264Encoder

/-- A new encoder. `built` is the outcome of `build_encoder`; the clock is read three times, first
at `now`. -/
def new (w h : Nat) (control : VideoControl) (built : Except String Unit) (now d₁ d₂ : Nat) :
    Except String H264Encoder :=
  if w = 0 ∨ h = 0 ∨ w % 2 ≠ 0 ∨ h % 2 ≠ 0 then
    .error ("h264: unsupported frame size " ++ toString w ++ "x" ++ toString h)
  else
    match built with
    | .error e => .error ("h264 encoder: " ++ e)
    | .ok () => .ok
        { w := w, h := h, bitrate := maxBps, control := control, last := none, pending := false
          lastSent := now, lastRateChange := now + d₁, lastCongestion := now + d₁ + d₂
          lastForcedKeyframe := none }

def sizeField (n : Nat) : UInt32 := if n < 2 ^ 32 then UInt32.ofNat n else 0

/-- What becomes of the codec's result for a frame; `none` if it has put out nothing. -/
def encode (B : Base64) (e : H264Encoder) :
    Except String (FrameType × Bytes) → Except String (Option VideoFrame)
  | .error message => .error ("h264 encode: " ++ message)
  | .ok (frameType, bytes) =>
    if frameType = .skip ∨ frameType = .invalid then .ok none
    else if bytes = [] then .ok none
    else .ok (some
      { w := sizeField e.w, h := sizeField e.h
        keyframe := frameType = .idr ∨ frameType = .i, dataB64 := B.encode bytes })

def requestKeyframe (e : H264Encoder) : H264Encoder :=
  { e with control := { e.control with keyframe := true } }

/-- The frame waits for the next call. -/
def hold (e : H264Encoder) (data : Bytes) : H264Encoder :=
  { e with last := some data, pending := true }

/-- Rebuild the codec for another bitrate. -/
def setBitrate (e : H264Encoder) (bps now : Nat) (built : Bool) : H264Encoder :=
  if bps = e.bitrate then e
  else
    let e := { e with lastRateChange := now }
    -- a codec that cannot be built leaves the bitrate as it is
    if built then { e with bitrate := bps, control := { e.control with keyframe := false } } else e

def noteCongestion (e : H264Encoder) (now : Nat) : H264Encoder :=
  { e with control := { e.control with congested := false }, lastCongestion := now }

/-- The first half of `adapt`. The three looks at the clock are at `t₁`, `t₂` and `t₃`. -/
def adaptRate (e : H264Encoder) (fresh : Bool) (t₁ t₂ t₃ : Nat) (built : Bool) : H264Encoder :=
  if e.control.congested then
    if lowerHoldoff ≤ t₂ - e.lastRateChange then
      (e.noteCongestion t₁).setBitrate (max (e.bitrate / 3 * 2) minBps) t₃ built
    else e.noteCongestion t₁
  else if fresh ∧ raiseAfter ≤ t₁ - e.lastCongestion ∧ raiseAfter ≤ t₂ - e.lastRateChange then
    e.setBitrate (min (e.bitrate / 4 * 5) maxBps) t₃ built
  else e

/-- The second half of `adapt`: a requested keyframe is forced unless the last one is too recent. -/
def forceKeyframe (e : H264Encoder) (t₁ t₂ : Nat) : H264Encoder :=
  if e.lastForcedKeyframe.all (fun t => minKeyframeGap ≤ t₁ - t) ∧ e.control.keyframe then
    { e with control := { e.control with keyframe := false }, lastForcedKeyframe := some t₂ }
  else e

end H264Encoder

structure FrameQueue where
  capacity : Nat
  frames : Fifo VideoFrame := {}
  closed : Bool := false

inductive SendPhase where
  | returned (ok : Bool)
  | adapting (data : Bytes) (fresh : Bool)
  | forcing (data : Bytes)
  | encoding (data : Bytes)
  | queueing (data : Bytes) (frame : VideoFrame)
  deriving DecidableEq

structure Capture where
  encoder : H264Encoder
  tx : FrameQueue
  now : Nat
  phase : SendPhase

inductive CaptureAction where
  | push (data : Bytes)
  | heartbeat (d : Nat)
  | adapt (d₁ d₂ d₃ : Nat) (built : Bool)
  | force (d₁ d₂ : Nat)
  | encode (result : Except String (FrameType × Bytes))
  | trySend (d : Nat)
  /-- The consumer takes a frame. -/
  | recv
  /-- The consumer goes away. -/
  | close
  /-- Another thread sets a flag of the control. -/
  | requestKeyframe
  | congest

/-- A call of the capture thread, not a step of one. -/
def CaptureAction.isCall : CaptureAction → Bool
  | .push _ | .heartbeat _ => true
  | _ => false

namespace Capture

def start (encoder : H264Encoder) (capacity now : Nat) : Capture :=
  { encoder := encoder, tx := { capacity := capacity }, now := now, phase := .returned true }

/-- `send` up to the check for room. -/
def send (s : Capture) (data : Bytes) (fresh : Bool) : Capture :=
  if data.length ≠ i420Len s.encoder.w s.encoder.h then { s with phase := .returned true }
  else if s.tx.closed then { s with phase := .returned false }
  else if s.tx.capacity ≤ s.tx.frames.waiting.length then
    let e := s.encoder.hold data
    { s with
      encoder := { e with control := { e.control with congested := true } }
      phase := .returned true }
  else { s with phase := .adapting data fresh }

def heartbeat (s : Capture) : Capture :=
  if s.encoder.pending = false ∧ s.now - s.encoder.lastSent < heartbeatGap then
    { s with phase := .returned true }
  else
    match s.encoder.last with
    | some data => { s with encoder := { s.encoder with last := none } }.send data false
    | none => { s with phase := .returned !s.tx.closed }

/-- `send` after the codec has been called. -/
def afterEncode (s : Capture) (data : Bytes) : Except String (Option VideoFrame) → Capture
  | .ok (some frame) =>
    { s with
      encoder := { s.encoder with last := some data, pending := false }
      phase := .queueing data frame }
  | .ok none => { s with encoder := s.encoder.hold data, phase := .returned true }
  -- the next call tries again, with a keyframe
  | .error _ =>
    { s with encoder := (s.encoder.hold data).requestKeyframe, phase := .returned true }

def trySend (s : Capture) (frame : VideoFrame) : Capture :=
  if s.tx.closed then { s with phase := .returned false }
  else if s.tx.capacity ≤ s.tx.frames.waiting.length then
    { s with
      encoder := { s.encoder with pending := true }.requestKeyframe
      phase := .returned true }
  else
    { s with
      encoder := { s.encoder with lastSent := s.now }
      tx := { s.tx with frames := s.tx.frames.push [frame] }
      phase := .returned true }

def after (s : Capture) (d : Nat) : Capture := { s with now := s.now + d }

def step (B : Base64) (s : Capture) : CaptureAction → Option Capture
  | .push data =>
    match s.phase with
    | .returned _ => some (s.send data true)
    | _ => none
  | .heartbeat d =>
    match s.phase with
    | .returned _ => some (s.after d).heartbeat
    | _ => none
  | .adapt d₁ d₂ d₃ built =>
    match s.phase with
    | .adapting data fresh =>
      some { s.after (d₁ + d₂ + d₃) with
        encoder := s.encoder.adaptRate fresh (s.now + d₁) (s.now + d₁ + d₂)
          (s.now + (d₁ + d₂ + d₃)) built
        phase := .forcing data }
    | _ => none
  | .force d₁ d₂ =>
    match s.phase with
    | .forcing data =>
      some { s.after (d₁ + d₂) with
        encoder := s.encoder.forceKeyframe (s.now + d₁) (s.now + (d₁ + d₂))
        phase := .encoding data }
    | _ => none
  | .encode result =>
    match s.phase with
    | .encoding data => some (s.afterEncode data (s.encoder.encode B result))
    | _ => none
  | .trySend d =>
    match s.phase with
    | .queueing _ frame => some ((s.after d).trySend frame)
    | _ => none
  | .recv =>
    if s.tx.frames.waiting = [] ∨ s.tx.closed = true then none
    else some { s with tx := { s.tx with frames := s.tx.frames.pull 1 } }
  | .close => some { s with tx := { s.tx with closed := true } }
  | .requestKeyframe => some { s with encoder := s.encoder.requestKeyframe }
  | .congest =>
    some { s with
      encoder := { s.encoder with control := { s.encoder.control with congested := true } } }

/-! ## What a run is about -/

/-- The unit that a step makes the codec put out, with the frame it shows. -/
def unit (B : Base64) (s : Capture) : CaptureAction → List (Bytes × VideoFrame)
  | .encode result =>
    match s.phase, s.encoder.encode B result with
    | .encoding data, .ok (some frame) => [(data, frame)]
    | _, _ => []
  | _ => []

/-- All units of a run, in order. -/
def units (B : Base64) (s : Capture) (acts : List CaptureAction) : List (Bytes × VideoFrame) :=
  runOutputs (step B) (unit B) s acts

/-- A well-formed frame that is pushed. -/
def pushed (w h : Nat) : CaptureAction → Option Bytes
  | .push data => if data.length = i420Len w h then some data else none
  | _ => none

/-- The newest well-formed frame of a run. -/
def newest (w h : Nat) (acts : List CaptureAction) : Option Bytes :=
  (acts.filterMap (pushed w h)).getLast?

/-- The call that is running or was the last to return. -/
def lastCall (acts : List CaptureAction) : Option CaptureAction :=
  (acts.filter CaptureAction.isCall).getLast?

/-! ## Turns -/

section Turns

variable {B : Base64} {s t : Capture} {a : CaptureAction}

/-- The consumer is as before, and the bitrate is not touched. A fresh frame in hand was there
before, or it has just been pushed. -/
structure Steady (a : CaptureAction) (s t : Capture) : Prop where
  closed : t.tx.closed = s.tx.closed
  bitrate : t.encoder.bitrate = s.encoder.bitrate
  lastRateChange : t.encoder.lastRateChange = s.encoder.lastRateChange
  now : s.now ≤ t.now
  fresh : ∀ data, t.phase = .adapting data true →
    a = .push data ∨ s.phase = .adapting data true ∧ a.isCall = false

/-- What a step does to the consumer and the bitrate. -/
inductive Turn (a : CaptureAction) (s t : Capture) : Prop where
  | steady (h : Steady a s t)
  | closes (ha : a = .close) (ht : t = { s with tx := { s.tx with closed := true } })
  | adapts (data : Bytes) (fresh : Bool) (t₁ t₂ : Nat) (built : Bool)
      (hphase : s.phase = .adapting data fresh) (h₁ : s.now ≤ t₁) (h₂ : t₁ ≤ t₂) (h₃ : t₂ ≤ t.now)
      (hclosed : t.tx.closed = s.tx.closed)
      (hencoder : t.encoder = s.encoder.adaptRate fresh t₁ t₂ t.now built)
      (hforcing : t.phase = .forcing data)

theorem steady_push (data : Bytes) : Steady (.push data) s (s.send data true) := by
  unfold send
  split
  · exact ⟨rfl, rfl, rfl, le_rfl, nofun⟩
  · split
    · exact ⟨rfl, rfl, rfl, le_rfl, nofun⟩
    · split
      · exact ⟨rfl, rfl, rfl, le_rfl, nofun⟩
      · refine ⟨rfl, rfl, rfl, le_rfl, ?_⟩
        rintro data' ⟨⟩
        exact .inl rfl

theorem steady_heartbeat (d : Nat) : Steady (.heartbeat d) s (s.after d).heartbeat := by
  have hnow : s.now ≤ s.now + d := Nat.le_add_right _ _
  unfold heartbeat
  split
  · exact ⟨rfl, rfl, rfl, hnow, nofun⟩
  · split
    · -- a frame that is sent again is not fresh
      unfold send
      split
      · exact ⟨rfl, rfl, rfl, hnow, nofun⟩
      · split
        · exact ⟨rfl, rfl, rfl, hnow, nofun⟩
        · split <;> exact ⟨rfl, rfl, rfl, hnow, nofun⟩
    · exact ⟨rfl, rfl, rfl, hnow, nofun⟩

theorem steady_forceKeyframe (e : H264Encoder) (t₁ t₂ : Nat) :
    (e.forceKeyframe t₁ t₂).bitrate = e.bitrate ∧
      (e.forceKeyframe t₁ t₂).lastRateChange = e.lastRateChange := by
  unfold H264Encoder.forceKeyframe
  split <;> exact ⟨rfl, rfl⟩

theorem steady_trySend (d : Nat) (frame : VideoFrame) :
    Steady (.trySend d) s ((s.after d).trySend frame) := by
  have hnow : s.now ≤ s.now + d := Nat.le_add_right _ _
  unfold trySend
  split
  · exact ⟨rfl, rfl, rfl, hnow, nofun⟩
  · split <;> exact ⟨rfl, rfl, rfl, hnow, nofun⟩

theorem turn_of_step (hstep : s.step B a = some t) : Turn a s t := by
  cases a with
  | push data =>
    simp only [step] at hstep
    split at hstep <;> cases hstep
    exact .steady (steady_push data)
  | heartbeat d =>
    simp only [step] at hstep
    split at hstep <;> cases hstep
    exact .steady (steady_heartbeat d)
  | adapt d₁ d₂ d₃ built =>
    simp only [step] at hstep
    split at hstep <;> cases hstep
    rename_i data fresh hphase
    have h₃ : s.now + d₁ + d₂ ≤ s.now + (d₁ + d₂ + d₃) := by omega
    exact .adapts data fresh (s.now + d₁) (s.now + d₁ + d₂) built hphase
      (Nat.le_add_right _ _) (Nat.le_add_right _ _) h₃ rfl rfl rfl
  | force d₁ d₂ =>
    simp only [step] at hstep
    split at hstep <;> cases hstep
    obtain ⟨hbitrate, hchange⟩ :=
      steady_forceKeyframe s.encoder (s.now + d₁) (s.now + (d₁ + d₂))
    exact .steady ⟨rfl, hbitrate, hchange, Nat.le_add_right _ _, nofun⟩
  | encode result =>
    simp only [step] at hstep
    split at hstep <;> cases hstep
    unfold afterEncode
    split <;> exact .steady ⟨rfl, rfl, rfl, le_rfl, nofun⟩
  | trySend d =>
    simp only [step] at hstep
    split at hstep <;> cases hstep
    exact .steady (steady_trySend d _)
  | recv =>
    obtain ⟨-, ⟨⟩⟩ := ite_none_left_eq_some.1 hstep
    exact .steady ⟨rfl, rfl, rfl, le_rfl, fun _ h => .inr ⟨h, rfl⟩⟩
  | close =>
    cases hstep
    exact .closes rfl rfl
  | requestKeyframe | congest =>
    cases hstep
    exact .steady ⟨rfl, rfl, rfl, le_rfl, fun _ h => .inr ⟨h, rfl⟩⟩

/-- An open consumer has been open before. -/
theorem open_of_step (hstep : s.step B a = some t) (hopen : t.tx.closed = false) :
    s.tx.closed = false := by
  cases turn_of_step hstep with
  | steady h => rw [← h.closed, hopen]
  | closes ha ht =>
    subst ht
    cases hopen
  | adapts data fresh t₁ t₂ built hphase h₁ h₂ h₃ hclosed hencoder hforcing =>
    rw [← hclosed, hopen]

end Turns

/-! ## Queueing -/

/-- The unit that is put out and not yet queued. -/
def inFlight (s : Capture) : List VideoFrame :=
  match s.phase with
  | .queueing _ frame => [frame]
  | _ => []

/-- A call that has passed the check for room has not returned yet. -/
def busy (s : Capture) : Prop :=
  match s.phase with
  | .returned _ => False
  | _ => True

/-- Where the newest frame is: between calls it is held pending or the source of the last unit;
during a call it is the frame in hand. -/
def Holds (newest lastSource : Option Bytes) (s : Capture) : Prop :=
  match s.phase with
  | .returned _ =>
    s.encoder.last = newest ∧
      (newest = none ∨ s.encoder.pending = true ∨ lastSource = newest)
  | .adapting data _ | .forcing data | .encoding data => newest = some data
  | .queueing data _ =>
    newest = some data ∧ s.encoder.last = some data ∧ lastSource = some data

/-- The invariant of an encoder with an open consumer that has put out `output`. -/
structure Queueing (w h : Nat) (output : List (Bytes × VideoFrame)) (newest : Option Bytes)
    (s : Capture) : Prop where
  width : s.encoder.w = w
  height : s.encoder.h = h
  formed : ∀ data, newest = some data → data.length = i420Len w h
  queued : output.map Prod.snd = s.tx.frames.put ++ s.inFlight
  room : s.busy → s.tx.frames.waiting.length < s.tx.capacity
  holds : s.Holds newest (output.getLast?.map Prod.fst)

section Steps

variable {B : Base64} {w h : Nat} {output : List (Bytes × VideoFrame)} {newest : Option Bytes}
  {s t : Capture} {data : Bytes} {fresh ok : Bool}

/-- What `send` needs: the frame in hand is the newest one and well formed. -/
theorem queueing_send (hwidth : s.encoder.w = w) (hheight : s.encoder.h = h)
    (hformed : data.length = i420Len w h) (hopen : s.tx.closed = false)
    (hqueued : output.map Prod.snd = s.tx.frames.put) :
    Queueing w h output (some data) (s.send data fresh) := by
  have hdata : ∀ d, some data = some d → d.length = i420Len w h := by
    rintro d ⟨⟩
    exact hformed
  subst hwidth hheight
  unfold send
  rw [if_neg (not_not.2 hformed), hopen, if_neg Bool.false_ne_true]
  split
  · -- no room: the frame is held
    refine ⟨rfl, rfl, hdata, ?_, fun hbusy => hbusy.elim, rfl, .inr (.inl rfl)⟩
    rw [hqueued]
    exact (append_nil _).symm
  · rename_i hroom
    refine ⟨rfl, rfl, hdata, ?_, fun _ => Nat.lt_of_not_le hroom, rfl⟩
    rw [hqueued]
    exact (append_nil _).symm

/-- Between calls everything that was put out is queued. -/
theorem Queueing.put_eq (hq : Queueing w h output newest s) (hphase : s.phase = .returned ok) :
    output.map Prod.snd = s.tx.frames.put := by
  rw [hq.queued, inFlight, hphase]
  exact append_nil _

theorem Queueing.push (hq : Queueing w h output newest s) (hphase : s.phase = .returned ok)
    (hopen : s.tx.closed = false) (data : Bytes) :
    Queueing w h output ((pushed w h (.push data)).or newest) (s.send data true) := by
  by_cases hformed : data.length = i420Len w h
  · rw [pushed, if_pos hformed]
    exact queueing_send hq.width hq.height hformed hopen (hq.put_eq hphase)
  · -- a malformed frame is skipped
    rw [pushed, if_neg hformed]
    have hsend : s.send data true = { s with phase := .returned true } := by
      unfold send
      rw [hq.width, hq.height, if_pos hformed]
    have hholds := hq.holds
    rw [Holds, hphase] at hholds
    rw [hsend, none_or]
    refine ⟨hq.width, hq.height, hq.formed, ?_, fun hbusy => hbusy.elim, hholds⟩
    rw [hq.put_eq hphase]
    exact (append_nil _).symm

theorem Queueing.heartbeat (hq : Queueing w h output newest s) (hphase : s.phase = .returned ok)
    (hopen : s.tx.closed = false) : Queueing w h output newest s.heartbeat := by
  have hholds := hq.holds
  rw [Holds, hphase] at hholds
  have hput := hq.put_eq hphase
  -- a call that does nothing
  have hidle : ∀ ok, Queueing w h output newest { s with phase := .returned ok } := by
    intro ok
    refine ⟨hq.width, hq.height, hq.formed, ?_, fun hbusy => hbusy.elim, hholds⟩
    rw [hput]
    exact (append_nil _).symm
  unfold Capture.heartbeat
  split
  · exact hidle true
  · split
    · -- the frame that is sent again is the newest one
      rename_i data hlast
      have hnewest : newest = some data := hholds.1.symm.trans hlast
      rw [hnewest]
      exact queueing_send hq.width hq.height (hq.formed data hnewest) hopen hput
    · exact hidle _

theorem Queueing.afterEncode (hq : Queueing w h output newest s) (hphase : s.phase = .encoding data)
    (result : Except String (FrameType × Bytes)) :
    Queueing w h (output ++ unit B s (.encode result)) newest
      (s.afterEncode data (s.encoder.encode B result)) := by
  have hnewest : newest = some data := by
    have hholds := hq.holds
    rwa [Holds, hphase] at hholds
  have hput : output.map Prod.snd = s.tx.frames.put := by
    rw [hq.queued, inFlight, hphase]
    exact append_nil _
  have hroom : s.tx.frames.waiting.length < s.tx.capacity := by
    apply hq.room
    rw [busy, hphase]
    trivial
  cases hresult : s.encoder.encode B result with
  | error message =>
    have hunit : unit B s (.encode result) = [] := by simp only [unit, hphase, hresult]
    rw [hunit, append_nil]
    refine ⟨hq.width, hq.height, hq.formed, ?_, fun hbusy => hbusy.elim, hnewest.symm,
      .inr (.inl rfl)⟩
    rw [hput]
    exact (append_nil _).symm
  | ok frame =>
    cases frame with
    | none =>
      have hunit : unit B s (.encode result) = [] := by simp only [unit, hphase, hresult]
      rw [hunit, append_nil]
      refine ⟨hq.width, hq.height, hq.formed, ?_, fun hbusy => hbusy.elim, hnewest.symm,
        .inr (.inl rfl)⟩
      rw [hput]
      exact (append_nil _).symm
    | some frame =>
      have hunit : unit B s (.encode result) = [(data, frame)] := by
        simp only [unit, hphase, hresult]
      rw [hunit]
      refine ⟨hq.width, hq.height, hq.formed, ?_, fun _ => hroom, hnewest, rfl, ?_⟩
      · rw [map_append, hput]
        rfl
      · rw [getLast?_append]
        rfl

/-- The room that was found is still there. -/
theorem Queueing.trySend (hq : Queueing w h output newest s) {frame : VideoFrame}
    (hphase : s.phase = .queueing data frame) (hopen : s.tx.closed = false) :
    Queueing w h output newest (s.trySend frame) := by
  have hholds := hq.holds
  rw [Holds, hphase] at hholds
  obtain ⟨hnewest, hlast, hsource⟩ := hholds
  have hroom : s.tx.frames.waiting.length < s.tx.capacity := by
    apply hq.room
    rw [busy, hphase]
    trivial
  have hqueued := hq.queued
  rw [inFlight, hphase] at hqueued
  unfold Capture.trySend
  rw [hopen, if_neg Bool.false_ne_true, if_neg (Nat.not_le.2 hroom)]
  refine ⟨hq.width, hq.height, hq.formed, ?_, fun hbusy => hbusy.elim, hlast.trans hnewest.symm,
    .inr (.inr (hsource.trans hnewest.symm))⟩
  rw [hqueued]
  exact (Fifo.put_push _ _).symm.trans (append_nil _).symm

/-- The consumer takes a frame. -/
theorem Queueing.recv (hq : Queueing w h output newest s) :
    Queueing w h output newest { s with tx := { s.tx with frames := s.tx.frames.pull 1 } } := by
  refine ⟨hq.width, hq.height, hq.formed, ?_, ?_, hq.holds⟩
  · rw [hq.queued]
    exact congrArg (· ++ s.inFlight) (Fifo.put_pull _ _).symm
  · intro hbusy
    have hroom := hq.room hbusy
    have hless : (s.tx.frames.pull 1).waiting.length ≤ s.tx.frames.waiting.length := by
      simp [Fifo.pull]
    exact Nat.lt_of_le_of_lt hless hroom

/-- The frame in hand is kept while the encoder is adapted. -/
theorem Queueing.adapted (hq : Queueing w h output newest s) {e : H264Encoder} {now : Nat}
    {phase : SendPhase} (hwidth : e.w = s.encoder.w) (hheight : e.h = s.encoder.h)
    (hphase : (∃ fresh, s.phase = .adapting data fresh) ∧ phase = .forcing data ∨
      s.phase = .forcing data ∧ phase = .encoding data) :
    Queueing w h output newest { s with encoder := e, now := now, phase := phase } := by
  have hholds := hq.holds
  have hroom := hq.room
  have hqueued := hq.queued
  rcases hphase with ⟨⟨fresh, hphase⟩, rfl⟩ | ⟨hphase, rfl⟩
  all_goals
    rw [Holds, hphase] at hholds
    rw [busy, hphase] at hroom
    rw [inFlight, hphase] at hqueued
    exact ⟨hwidth.trans hq.width, hheight.trans hq.height, hq.formed, hqueued, hroom, hholds⟩

theorem w_setBitrate (e : H264Encoder) (bps now : Nat) (built : Bool) :
    (e.setBitrate bps now built).w = e.w ∧ (e.setBitrate bps now built).h = e.h := by
  unfold H264Encoder.setBitrate
  split
  · exact ⟨rfl, rfl⟩
  · cases built <;> exact ⟨rfl, rfl⟩

theorem w_adaptRate (e : H264Encoder) (fresh : Bool) (t₁ t₂ t₃ : Nat) (built : Bool) :
    (e.adaptRate fresh t₁ t₂ t₃ built).w = e.w ∧ (e.adaptRate fresh t₁ t₂ t₃ built).h = e.h := by
  unfold H264Encoder.adaptRate
  split
  · split
    · exact w_setBitrate _ _ _ _
    · exact ⟨rfl, rfl⟩
  · split
    · exact w_setBitrate _ _ _ _
    · exact ⟨rfl, rfl⟩

theorem w_forceKeyframe (e : H264Encoder) (t₁ t₂ : Nat) :
    (e.forceKeyframe t₁ t₂).w = e.w ∧ (e.forceKeyframe t₁ t₂).h = e.h := by
  unfold H264Encoder.forceKeyframe
  split <;> exact ⟨rfl, rfl⟩

theorem Queueing.step {a : CaptureAction} (hq : Queueing w h output newest s)
    (hstep : s.step B a = some t) (hopen : t.tx.closed = false) :
    Queueing w h (output ++ unit B s a) ((pushed w h a).or newest) t := by
  have hs := open_of_step hstep hopen
  -- all steps but one leave the codec alone
  have hnone : ∀ {newest' t'}, Queueing w h output newest' t' →
      Queueing w h (output ++ []) newest' t' := by
    intro newest' t' hq'
    rwa [append_nil]
  cases a with
  | push data =>
    simp only [Capture.step] at hstep
    split at hstep <;> cases hstep
    rename_i ok hphase
    exact hnone (hq.push hphase hs data)
  | heartbeat d =>
    simp only [Capture.step] at hstep
    split at hstep <;> cases hstep
    rename_i ok hphase
    have hafter : Queueing w h output newest (s.after d) :=
      ⟨hq.width, hq.height, hq.formed, hq.queued, hq.room, hq.holds⟩
    exact hnone (hafter.heartbeat hphase hs)
  | adapt d₁ d₂ d₃ built =>
    simp only [Capture.step] at hstep
    split at hstep <;> cases hstep
    rename_i data fresh hphase
    obtain ⟨hw, hh⟩ := w_adaptRate s.encoder fresh (s.now + d₁) (s.now + d₁ + d₂)
      (s.now + (d₁ + d₂ + d₃)) built
    exact hnone (hq.adapted hw hh (.inl ⟨⟨fresh, hphase⟩, rfl⟩))
  | force d₁ d₂ =>
    simp only [Capture.step] at hstep
    split at hstep <;> cases hstep
    rename_i data hphase
    obtain ⟨hw, hh⟩ := w_forceKeyframe s.encoder (s.now + d₁) (s.now + (d₁ + d₂))
    exact hnone (hq.adapted hw hh (.inr ⟨hphase, rfl⟩))
  | encode result =>
    simp only [Capture.step] at hstep
    split at hstep <;> cases hstep
    rename_i data hphase
    exact hq.afterEncode hphase result
  | trySend d =>
    simp only [Capture.step] at hstep
    split at hstep <;> cases hstep
    rename_i data frame hphase
    have hafter : Queueing w h output newest (s.after d) :=
      ⟨hq.width, hq.height, hq.formed, hq.queued, hq.room, hq.holds⟩
    exact hnone (hafter.trySend hphase hs)
  | recv =>
    obtain ⟨-, ⟨⟩⟩ := ite_none_left_eq_some.1 hstep
    exact hnone hq.recv
  | close =>
    cases hstep
    cases hopen
  | requestKeyframe | congest =>
    cases hstep
    exact hnone ⟨hq.width, hq.height, hq.formed, hq.queued, hq.room, hq.holds⟩

end Steps

/-! ## The bitrate -/

section Bitrate

variable {B : Base64} {s t : Capture} {a : CaptureAction}

/-- The bitrate is kept, also when the codec cannot be built, or set at the last look at the
clock. -/
theorem setBitrate_cases (e : H264Encoder) (bps now : Nat) (built : Bool) :
    ((e.setBitrate bps now built).bitrate = e.bitrate ∧
      ((e.setBitrate bps now built).lastRateChange = e.lastRateChange ∨
        (e.setBitrate bps now built).lastRateChange = now)) ∨
    ((e.setBitrate bps now built).bitrate = bps ∧
      (e.setBitrate bps now built).lastRateChange = now) := by
  unfold H264Encoder.setBitrate
  split
  · exact .inl ⟨rfl, .inl rfl⟩
  · cases built with
    | false => exact .inl ⟨rfl, .inr rfl⟩
    | true => exact .inr ⟨rfl, rfl⟩

/-- The bitrate is changed only after the hold-off, and raised only for a fresh frame. -/
theorem adaptRate_cases (e : H264Encoder) (fresh : Bool) (t₁ t₂ t₃ : Nat) (built : Bool) :
    ((e.adaptRate fresh t₁ t₂ t₃ built).bitrate = e.bitrate ∧
      ((e.adaptRate fresh t₁ t₂ t₃ built).lastRateChange = e.lastRateChange ∨
        (e.adaptRate fresh t₁ t₂ t₃ built).lastRateChange = t₃)) ∨
    ((e.adaptRate fresh t₁ t₂ t₃ built).lastRateChange = t₃ ∧ e.lastRateChange + lowerHoldoff ≤ t₂ ∧
      ((e.adaptRate fresh t₁ t₂ t₃ built).bitrate = max (e.bitrate / 3 * 2) minBps ∨
        fresh = true ∧
          (e.adaptRate fresh t₁ t₂ t₃ built).bitrate = min (e.bitrate / 4 * 5) maxBps)) := by
  unfold H264Encoder.adaptRate
  split
  · split
    · rename_i hholdoff
      have hafter : e.lastRateChange + lowerHoldoff ≤ t₂ := by
        unfold lowerHoldoff at hholdoff ⊢
        omega
      rcases setBitrate_cases (e.noteCongestion t₁) (max (e.bitrate / 3 * 2) minBps) t₃ built with
        hkept | ⟨hbitrate, hchange⟩
      · exact .inl hkept
      · exact .inr ⟨hchange, hafter, .inl hbitrate⟩
    · exact .inl ⟨rfl, .inl rfl⟩
  · split
    · rename_i hraise
      have hafter : e.lastRateChange + lowerHoldoff ≤ t₂ := by
        have hlong := hraise.2.2
        unfold raiseAfter at hlong
        unfold lowerHoldoff
        omega
      rcases setBitrate_cases e (min (e.bitrate / 4 * 5) maxBps) t₃ built with
        hkept | ⟨hbitrate, hchange⟩
      · exact .inl hkept
      · exact .inr ⟨hchange, hafter, .inr ⟨hraise.1, hbitrate⟩⟩
    · exact .inl ⟨rfl, .inl rfl⟩

theorem lowered_bounds {b : Nat} (hupper : b ≤ maxBps) :
    minBps ≤ max (b / 3 * 2) minBps ∧ max (b / 3 * 2) minBps ≤ maxBps := by
  unfold minBps maxBps at *
  omega

theorem raised_bounds {b : Nat} (hlower : minBps ≤ b) :
    minBps ≤ min (b / 4 * 5) maxBps ∧ min (b / 4 * 5) maxBps ≤ maxBps := by
  unfold minBps maxBps at *
  omega

/-- The bitrate is within its bounds, and its last change is not in the future. -/
structure Clocked (s : Capture) : Prop where
  lower : minBps ≤ s.encoder.bitrate
  upper : s.encoder.bitrate ≤ maxBps
  past : s.encoder.lastRateChange ≤ s.now

theorem Clocked.step (hs : s.Clocked) (hstep : s.step B a = some t) : t.Clocked := by
  obtain ⟨hlower, hupper, hpast⟩ := hs
  cases turn_of_step hstep with
  | steady h =>
    refine ⟨?_, ?_, ?_⟩
    · rwa [h.bitrate]
    · rwa [h.bitrate]
    · rw [h.lastRateChange]
      exact hpast.trans h.now
  | closes ha ht =>
    subst ht
    exact ⟨hlower, hupper, hpast⟩
  | adapts data fresh t₁ t₂ built hphase h₁ h₂ h₃ hclosed hencoder hforcing =>
    have hnow : s.now ≤ t.now := h₁.trans (h₂.trans h₃)
    rcases adaptRate_cases s.encoder fresh t₁ t₂ t.now built with
      ⟨hbitrate, hchange⟩ | ⟨hchange, -, hbitrate⟩
    · rw [← hencoder] at hbitrate hchange
      refine ⟨?_, ?_, ?_⟩
      · rwa [hbitrate]
      · rwa [hbitrate]
      · rcases hchange with hchange | hchange <;> omega
    · rw [← hencoder] at hbitrate hchange
      have hbounds : minBps ≤ t.encoder.bitrate ∧ t.encoder.bitrate ≤ maxBps := by
        rcases hbitrate with hbitrate | ⟨-, hbitrate⟩
        · rw [hbitrate]
          exact lowered_bounds hupper
        · rw [hbitrate]
          exact raised_bounds hlower
      exact ⟨hbounds.1, hbounds.2, hchange.le⟩

/-- The bitrate goes up only while a fresh frame is in hand. -/
theorem Clocked.raised (hs : s.Clocked) (hstep : s.step B a = some t)
    (hraised : s.encoder.bitrate < t.encoder.bitrate) :
    ∃ data, s.phase = .adapting data true := by
  cases turn_of_step hstep with
  | steady h =>
    rw [h.bitrate] at hraised
    exact absurd hraised (Nat.lt_irrefl _)
  | closes ha ht =>
    subst ht
    exact absurd hraised (Nat.lt_irrefl _)
  | adapts data fresh t₁ t₂ built hphase h₁ h₂ h₃ hclosed hencoder hforcing =>
    rcases adaptRate_cases s.encoder fresh t₁ t₂ t.now built with
      ⟨hbitrate, -⟩ | ⟨-, -, hbitrate | ⟨rfl, -⟩⟩
    · rw [← hencoder] at hbitrate
      omega
    · -- lowering does not raise
      rw [← hencoder] at hbitrate
      have hlower := hs.lower
      omega
    · exact ⟨data, hphase⟩

theorem Clocked.mono (hs : s.Clocked) (hstep : s.step B a = some t) :
    s.encoder.lastRateChange ≤ t.encoder.lastRateChange := by
  have hpast := hs.past
  cases turn_of_step hstep with
  | steady h => rw [h.lastRateChange]
  | closes ha ht =>
    subst ht
    exact le_rfl
  | adapts data fresh t₁ t₂ built hphase h₁ h₂ h₃ hclosed hencoder hforcing =>
    have hnow : s.now ≤ t.now := h₁.trans (h₂.trans h₃)
    rcases adaptRate_cases s.encoder fresh t₁ t₂ t.now built with
      ⟨-, hchange⟩ | ⟨hchange, -, -⟩
    · rw [← hencoder] at hchange
      rcases hchange with hchange | hchange <;> omega
    · rw [← hencoder] at hchange
      omega

/-- A step that changes the bitrate does so at its last look at the clock, after the hold-off. -/
theorem changed_at (hstep : s.step B a = some t)
    (hchanged : t.encoder.bitrate ≠ s.encoder.bitrate) :
    t.encoder.lastRateChange = t.now ∧ s.encoder.lastRateChange + lowerHoldoff ≤ t.now := by
  cases turn_of_step hstep with
  | steady h => exact absurd h.bitrate hchanged
  | closes ha ht =>
    subst ht
    exact absurd rfl hchanged
  | adapts data fresh t₁ t₂ built hphase h₁ h₂ h₃ hclosed hencoder hforcing =>
    rcases adaptRate_cases s.encoder fresh t₁ t₂ t.now built with
      ⟨hbitrate, -⟩ | ⟨hchange, hafter, -⟩
    · rw [← hencoder] at hbitrate
      exact absurd hbitrate hchanged
    · rw [← hencoder] at hchange
      exact ⟨hchange, hafter.trans h₃⟩

end Bitrate

/-! ## Runs -/

section Runs

variable {B : Base64} {w h later : Nat} {control : VideoControl} {built : Except String Unit}
  {now d₁ d₂ d₃ : Nat} {encoder : H264Encoder} {capacity : Nat} {acts : List CaptureAction}
  {s : Capture}

theorem newest_concat (w h : Nat) (acts : List CaptureAction) (a : CaptureAction) :
    newest w h (acts ++ [a]) = (pushed w h a).or (newest w h acts) := by
  unfold newest
  rw [filterMap_append, getLast?_append]
  cases hpushed : pushed w h a <;> simp [hpushed]

theorem queueing_start (hnew : H264Encoder.new w h control built now d₁ d₂ = .ok encoder)
    (later : Nat) : Queueing w h [] none (start encoder capacity later) := by
  unfold H264Encoder.new at hnew
  split at hnew
  · cases hnew
  · split at hnew <;> cases hnew
    exact ⟨rfl, rfl, nofun, rfl, fun hbusy => hbusy.elim, rfl, .inl rfl⟩

theorem clocked_start (hnew : H264Encoder.new w h control built now d₁ d₂ = .ok encoder)
    (hlater : now + d₁ ≤ later) : (start encoder capacity later).Clocked := by
  unfold H264Encoder.new at hnew
  split at hnew
  · cases hnew
  · split at hnew <;> cases hnew
    exact ⟨show minBps ≤ maxBps by decide, le_rfl, hlater⟩

/-- With an open consumer the invariant holds of every run. -/
theorem queueing_of_run (hnew : H264Encoder.new w h control built now d₁ d₂ = .ok encoder)
    (hrun : runFrom (step B) (start encoder capacity later) acts = some s)
    (hopen : s.tx.closed = false) :
    Queueing w h (units B (start encoder capacity later) acts) (newest w h acts) s := by
  have hinv : s.tx.closed = false →
      Queueing w h (units B (start encoder capacity later) acts) (newest w h acts) s := by
    apply invariant_of_past (I := fun past s => s.tx.closed = false →
      Queueing w h (units B (start encoder capacity later) past) (newest w h past) s) _ _ hrun
    · intro _
      exact queueing_start hnew later
    · intro past s a t hpast hi hstep hopen
      rw [newest_concat, units, runOutputs_concat hpast]
      exact (hi (open_of_step hstep hopen)).step hstep hopen
  exact hinv hopen

/-- A fresh frame in hand was pushed by the call that is running. -/
theorem lastCall_of_fresh (hrun : runFrom (step B) (start encoder capacity later) acts = some s)
    {data : Bytes} (hphase : s.phase = .adapting data true) :
    lastCall acts = some (.push data) := by
  have hinv : ∀ data, s.phase = .adapting data true → lastCall acts = some (.push data) := by
    apply invariant_of_past (I := fun past s => ∀ data, s.phase = .adapting data true →
      lastCall past = some (.push data)) _ _ hrun
    · nofun
    · intro past s a t _ hi hstep data hphase
      unfold lastCall
      rw [filter_append, getLast?_append]
      cases turn_of_step hstep with
      | steady h =>
        rcases h.fresh data hphase with rfl | ⟨hbefore, hcall⟩
        · rfl
        · rw [filter_singleton, hcall]
          exact hi data hbefore
      | closes ha ht =>
        subst ha ht
        exact hi data hphase
      | adapts data' fresh t₁ t₂ built hbefore h₁ h₂ h₃ hclosed hencoder hforcing =>
        rw [hforcing] at hphase
        cases hphase
  exact hinv data hphase

/-- Every run of an encoder. While the consumer is open: between calls every unit that the codec has
put out was queued exactly once and in order, and the newest well-formed frame is the source of the
last unit or held pending. Always: the bitrate is within its bounds; it goes up only in a push,
before its frame is encoded; two changes are at least the hold-off apart. -/
theorem h264_queueing (hnew : H264Encoder.new w h control built now d₁ d₂ = .ok encoder)
    (hrun : runFrom (step B) (start encoder capacity (now + d₁ + d₂ + d₃)) acts = some s) :
    (s.tx.closed = false → ∀ ok, s.phase = .returned ok →
      (units B (start encoder capacity (now + d₁ + d₂ + d₃)) acts).map Prod.snd =
          s.tx.frames.taken ++ s.tx.frames.waiting ∧
        ∀ data, newest w h acts = some data →
          (units B (start encoder capacity (now + d₁ + d₂ + d₃)) acts).getLast?.map Prod.fst =
              some data ∨
            s.encoder.pending = true ∧ s.encoder.last = some data) ∧
    (minBps ≤ s.encoder.bitrate ∧ s.encoder.bitrate ≤ maxBps) ∧
    (∀ a t, s.step B a = some t → s.encoder.bitrate < t.encoder.bitrate →
      ∃ data, s.phase = .adapting data true ∧ lastCall acts = some (.push data)) ∧
    (∀ a t more u b v, s.step B a = some t → t.encoder.bitrate ≠ s.encoder.bitrate →
      runFrom (step B) t more = some u → u.step B b = some v →
        v.encoder.bitrate ≠ u.encoder.bitrate → t.now + lowerHoldoff ≤ v.now) := by
  have hclocked : s.Clocked := by
    apply invariant_of_step _ (clocked_start hnew (by omega)) hrun
    intro s a t hs hstep
    exact hs.step hstep
  refine ⟨?_, ⟨hclocked.lower, hclocked.upper⟩, ?_, ?_⟩
  · intro hopen ok hphase
    have hq := queueing_of_run hnew hrun hopen
    have hholds := hq.holds
    rw [Holds, hphase] at hholds
    refine ⟨hq.put_eq hphase, ?_⟩
    intro data hdata
    rw [hdata] at hholds
    rcases hholds.2 with hnone | hpending | hsource
    · cases hnone
    · exact .inr ⟨hpending, hholds.1⟩
    · exact .inl hsource
  · intro a t hstep hraised
    obtain ⟨data, hphase⟩ := hclocked.raised hstep hraised
    exact ⟨data, hphase, lastCall_of_fresh hrun hphase⟩
  · intro a t more u b v hstep hchanged hmore hstep' hchanged'
    obtain ⟨hat, -⟩ := changed_at hstep hchanged
    obtain ⟨-, hafter⟩ := changed_at hstep' hchanged'
    have hmono : t.encoder.lastRateChange ≤ u.encoder.lastRateChange := by
      apply relation_of_step (I := Clocked)
        (R := fun s t => s.encoder.lastRateChange ≤ t.encoder.lastRateChange) _ _ _ _
        (hclocked.step hstep) hmore
      · intro s
        exact le_rfl
      · intro s t u
        exact le_trans
      · intro s a t hs hstep
        exact hs.step hstep
      · intro s a t hs hstep
        exact hs.mono hstep
    omega

end Runs

def sampleEncoder : H264Encoder :=
  { w := 2, h := 2, bitrate := maxBps, control := {}, last := none, pending := false, lastSent := 0
    lastRateChange := 0, lastCongestion := 0, lastForcedKeyframe := none }

/-- Three frames for a queue of one: the second is held until the consumer takes the first, and is
then replaced by the third, which is encoded at a lower bitrate. -/
def sampleCapture : List CaptureAction :=
  [.push [1, 1, 1, 1, 1, 1], .adapt 0 0 0 true, .force 0 0, .encode (.ok (.idr, [7])), .trySend 0,
    .push [2, 2, 2, 2, 2, 2], .recv, .push [3, 3, 3, 3, 3, 3], .adapt lowerHoldoff 0 0 true,
    .force 0 0, .encode (.ok (.idr, [8, 9])), .trySend 0]

theorem h264_queueing_sampleCapture :
    ∃ s, runFrom (step .standard) (start sampleEncoder 1 0) sampleCapture = some s ∧
      s.encoder.bitrate < maxBps ∧
      (units .standard (start sampleEncoder 1 0) sampleCapture).map Prod.snd =
        s.tx.frames.taken ++ s.tx.frames.waiting ∧
      ∀ data, newest 2 2 sampleCapture = some data →
        (units .standard (start sampleEncoder 1 0) sampleCapture).getLast?.map Prod.fst =
            some data ∨
          s.encoder.pending = true ∧ s.encoder.last = some data := by
  have hsample : (runFrom (step .standard) (start sampleEncoder 1 0) sampleCapture).any
      (fun s => s.encoder.bitrate < maxBps ∧ s.tx.closed = false ∧ s.phase = .returned true) =
        true := by
    decide +kernel
  obtain ⟨s, hrun, hs⟩ := (any_eq_true _ _).1 hsample
  obtain ⟨hlower, hopen, hphase⟩ := of_decide_eq_true hs
  have hnew : H264Encoder.new 2 2 {} (.ok ()) 0 0 0 = .ok sampleEncoder := rfl
  have hrun' : runFrom (step .standard) (start sampleEncoder 1 (0 + 0 + 0 + 0)) sampleCapture =
      some s := hrun
  exact ⟨s, hrun, hlower, (h264_queueing hnew hrun').1 hopen true hphase⟩

end Capture

end RivetLink.Agent
