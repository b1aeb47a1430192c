import Mathlib.Data.Fintype.Sum
import RivetLink.Agent.HeldInput
import RivetLink.Agent.LanSession

/-!
# What the host takes back during a stream

While a stream runs, the host may withdraw remote control and the sharing of all displays. `Turn`
says once what an action does to the stream, to the watch channels and to the injected input; both
results below go by cases on it.

Withdrawing control stops later input and does nothing about earlier input. The release of a key
that is down is dropped like any other input, so the key stays down (`key_stays_down`). Input is
queued for an injection thread, whose session holds keys down until it is stopped; what becomes of
them then is up to the compositor. `control_off_releases` is about runs in which the viewer has
released what it pressed when control is withdrawn.

Withdrawing the other displays moves the stream back to the first display that the host lists. If
the listing fails it is empty, and the stream stays where it is (`failed_listing_keeps_display`).
`frames_pinned_after_revoke` is about runs in which these listings do not fail.
-/

namespace RivetLink.Agent

open List Option RivetLink.Foundation RivetLink.Sdk

instance : Fintype PtrButton where
  elems := {.left, .right, .middle}
  complete b := by cases b <;> decide

namespace LanSession

variable {S : SignatureScheme} {B : Base64} {s t : LanSession} {a : Action} {st : Stream}

/-- The variables of a running stream. -/
def stream (s : LanSession) : Option Stream :=
  match s.phase with
  | .streaming st => some st
  | _ => none

theorem stream_of_phase (h : s.phase = .streaming st) : s.stream = some st := by
  rw [stream, h]

/-! ## Turns -/

/-- The permissions and the injected input are as before. -/
structure Kept (s t : LanSession) : Prop where
  control : t.control = s.control
  shareAll : t.shareAll = s.shareAll
  injected : t.injected = s.injected

/-- What an action does during a stream. -/
inductive Turn (s t : LanSession) : Action → Prop where
  | host (change : HostChange) (ht : t = s.onHost change) : Turn s t (.host change)
  /-- There is no stream yet, or it begins. -/
  | outside {a : Action} (hs : s.stream = none) (hopen : s.phase ≠ .ended) (hkept : Kept s t)
      (hinjector : ∀ st, t.stream = some st → st.injector = none) : Turn s t a
  | ends {a : Action} (hkept : Kept s t) (ht : t.phase = .ended) : Turn s t a
  /-- The stream goes on with its display and its injector. -/
  | goesOn {a : Action} (st st' : Stream) (hkept : Kept s t) (hs : s.stream = some st)
      (ht : t.stream = some st') (hdisplay : st'.display = st.display)
      (hinjector : st'.injector = st.injector)
      (hwait : st.wait = .select ∧ (st'.wait = .select ∨ ∃ on, st'.wait = .listing on) ∨
        (∃ on, st.wait = .listing on) ∧ st'.wait = .select) : Turn s t a
  | input {r : LanRequest} (st : Stream) (i : InputAction) (hs : s.stream = some st)
      (hwait : st.wait = .select) (hcontrol : controlNow s.control = true)
      (ht : t = s.applyInput st i) : Turn s t (.control (some r))
  | switches {display : UInt32} (st : Stream) (hs : s.stream = some st)
      (hshared : shareAllNow s.shareAll = true)
      (ht : t = s.streamOn { st with wait := .switching display }) :
      Turn s t (.control (some (.switchDisplay display)))
  | toggled (st : Stream) (hs : s.stream = some st)
      (ht : t = { s with shareAll := s.shareAll.map Watch.seen }.streamOn
        { st with wait := .toggled (shareAllNow s.shareAll) }) : Turn s t .shareChanged
  | listed {displays : List DisplayInfo} {sendOk : Bool} (st : Stream) (on : Bool)
      (hs : s.stream = some st) (hwait : st.wait = .toggled on)
      (ht : t = s.onToggled st on (allowedDisplays on displays)) :
      Turn s t (.displays displays sendOk)
  | restarts (st : Stream) (display : UInt32) (hs : s.stream = some st)
      (hwait : st.wait = .switching display) (ht : t = s.restart st display) :
      Turn s t .captureStopped

theorem kept_report (e : HostEvent) : Kept s (s.report e) := by
  unfold report
  split <;> exact ⟨rfl, rfl, rfl⟩

/-- The session is over: the stream has ended. -/
theorem turn_disconnect : Turn s s.disconnect a :=
  .ends ⟨(kept_report _).control, (kept_report _).shareAll, (kept_report _).injected⟩ rfl

/-- A response before the stream. -/
theorem turn_respond (hs : s.stream = none) (hopen : s.phase ≠ .ended) (r : LanResponse)
    (sendOk : Bool) : Turn s (s.respond r sendOk) a := by
  refine .outside hs hopen ⟨rfl, rfl, rfl⟩ ?_
  intro st hst
  cases sendOk <;> cases hst

theorem turn_onRequest (hphase : s.phase = .serving) (r : Option LanRequest) :
    Turn s (s.onRequest S B r) (.request r) := by
  have hs : s.stream = none := by rw [stream, hphase]
  have hopen : s.phase ≠ .ended := by rw [hphase]; intro h; cases h
  -- a request keeps the session outside a stream unless it starts one
  have hstays : ∀ t, Kept s t → t.stream = none → Turn s t (.request r) := by
    intro t hkept ht
    exact .outside hs hopen hkept fun st hst => by rw [ht] at hst; cases hst
  match r with
  | none => exact .ends ⟨rfl, rfl, rfl⟩ rfl
  | some (.startStream fps display name identityKey identitySig codecs) =>
    rw [onRequest, requestStream]
    split
    · exact hstays _ ⟨rfl, rfl, rfl⟩ rfl
    · refine .outside hs hopen
        ⟨(kept_report _).control, (kept_report _).shareAll, (kept_report _).injected⟩ ?_
      intro st hst
      cases hst
      rfl
  | some .screenshot => exact hstays _ ⟨rfl, rfl, rfl⟩ rfl
  | some .listDisplays => exact hstays _ ⟨rfl, rfl, rfl⟩ rfl
  | some (.switchDisplay _) | some (.pointerMove _ _) | some (.pointerButton _ _)
  | some (.scroll _ _) | some (.key _ _) | some (.consoleCapture _) | some .enableSharing
  | some (.clipboardSet _) | some (.fileUploadStart _ _ _) | some (.fileUploadChunk _ _)
  | some (.fileUploadEnd _) | some .listSharedFiles | some (.fileDownload _ _)
  | some .requestKeyframe => exact hstays _ ⟨rfl, rfl, rfl⟩ hs

theorem turn_onDecided {start : StreamStart} (hphase : s.phase = .asking start)
    (reply : ConsentReply) : Turn s (s.onDecided start reply) (.decided reply) := by
  have hs : s.stream = none := by rw [stream, hphase]
  have hopen : s.phase ≠ .ended := by rw [hphase]; intro h; cases h
  unfold onDecided
  split
  · have hkept := kept_report (s := { s with granted := true })
      (.clientConnected start.who start.key)
    refine .outside hs hopen ⟨hkept.control, hkept.shareAll, hkept.injected⟩ ?_
    intro st hst
    cases hst
    rfl
  · exact .ends ⟨rfl, rfl, rfl⟩ rfl

/-- Nothing happens to a stream that waits for the next event. -/
theorem turn_of_select {s' : LanSession} (hs : s.stream = some st) (hwait : st.wait = .select)
    (hkept : Kept s s') (hs' : s'.stream = some st) : Turn s s' a :=
  .goesOn st st hkept hs hs' rfl rfl (.inl ⟨hwait, .inl hwait⟩)

/-- Input is injected while control is granted and dropped otherwise. -/
theorem turn_input {r : LanRequest} {i : InputAction} (hs : s.stream = some st)
    (hwait : st.wait = .select) :
    Turn s (if controlNow s.control then s.applyInput st i else s) (.control (some r)) := by
  split
  · rename_i hcontrol
    exact .input st i hs hwait hcontrol rfl
  · exact turn_of_select hs hwait ⟨rfl, rfl, rfl⟩ hs

theorem turn_onControl (hs : s.stream = some st) (hwait : st.wait = .select)
    (r : Option LanRequest) : Turn s (s.onControl st r) (.control r) := by
  cases r with
  | none => exact turn_disconnect
  | some r =>
    cases r with
    | switchDisplay display =>
      by_cases hshared : shareAllNow s.shareAll = true
      · exact .switches st hs hshared (if_pos hshared)
      · have hsame : s.onControl st (some (.switchDisplay display)) = s := if_neg hshared
        rw [hsame]
        exact turn_of_select hs hwait ⟨rfl, rfl, rfl⟩ hs
    | listDisplays =>
      exact .goesOn st _ ⟨rfl, rfl, rfl⟩ hs rfl rfl rfl (.inl ⟨hwait, .inr ⟨_, rfl⟩⟩)
    | requestKeyframe =>
      exact .goesOn st _ ⟨rfl, rfl, rfl⟩ hs rfl rfl rfl (.inl ⟨hwait, .inl hwait⟩)
    | pointerMove | pointerButton | scroll | key => exact turn_input hs hwait
    | screenshot | startStream | consoleCapture | enableSharing | clipboardSet | fileUploadStart
    | fileUploadChunk | fileUploadEnd | listSharedFiles | fileDownload =>
      exact turn_of_select hs hwait ⟨rfl, rfl, rfl⟩ hs

theorem turn_stepSelect (hs : s.stream = some st) (hwait : st.wait = .select)
    (h : s.stepSelect st a = some t) : Turn s t a := by
  unfold stepSelect at h
  split at h
  · rename_i f sendOk
    cases sendOk <;> cases h
    · exact .ends ⟨(kept_report _).control, (kept_report _).shareAll, (kept_report _).injected⟩ rfl
    · exact turn_of_select hs hwait ⟨rfl, rfl, rfl⟩ hs
  · cases h
    exact .ends ⟨(kept_report _).control, (kept_report _).shareAll, (kept_report _).injected⟩ rfl
  · cases h
    exact turn_onControl hs hwait _
  · obtain ⟨-, ⟨⟩⟩ := ite_none_right_eq_some.1 h
    exact turn_disconnect
  · obtain ⟨-, ⟨⟩⟩ := ite_none_right_eq_some.1 h
    exact .toggled st hs rfl
  · cases h

/-- Every action is one of the turns. -/
theorem turn_of_step (h : s.step S B a = some t) : Turn s t a := by
  unfold step at h
  split at h
  · split at h <;> cases h
    rename_i hphase
    exact turn_onRequest hphase _
  · split at h <;> cases h
    rename_i hphase
    exact turn_respond (by rw [stream, hphase]) (by rw [hphase]; intro h; cases h) _ _
  · split at h
    · rename_i hphase
      cases h
      exact turn_respond (by rw [stream, hphase]) (by rw [hphase]; intro h; cases h) _ _
    · rename_i st hphase
      have hs := stream_of_phase hphase
      split at h
      · rename_i on hwait
        cases h
        exact .goesOn st _ ⟨rfl, rfl, rfl⟩ hs rfl rfl rfl (.inr ⟨⟨on, hwait⟩, rfl⟩)
      · rename_i on hwait
        cases h
        exact .listed st on hs hwait rfl
      · cases h
    · cases h
  · split at h <;> cases h
    rename_i hphase
    exact turn_onDecided hphase _
  · cases h
    exact .host _ rfl
  · split at h
    · rename_i st hphase
      split at h <;> cases h
      rename_i display hwait
      exact .restarts st display (stream_of_phase hphase) hwait rfl
    · cases h
  · split at h
    · rename_i st hphase
      obtain ⟨hwait, h⟩ := ite_none_right_eq_some.1 h
      exact turn_stepSelect (stream_of_phase hphase) hwait h
    · cases h

end LanSession

def sampleConfig : SessionConfig :=
  { needsConsent := false, consent := false, label := .empty, events := false }

/-- The client starts a stream of the second display. -/
def sampleStart : Action := .request (some (.startStream 30 (some 2) none none none []))

/-! ## Remote control -/

/-- What an injected action presses or releases. -/
def inputEvent : InputAction → Option ((Str ⊕ PtrButton) × Bool)
  | .key code down => some (.inl code, down)
  | .button button down => some (.inr button, down)
  | .move _ _ | .scroll _ _ => none

section Host

variable {κ : Type} [DecidableEq κ] (keyOf : Str → Option κ)

/-- What some actions press and release on the host. -/
def hostEvents (actions : List InputAction) : List ((κ ⊕ PtrButton) × Bool) :=
  Switches.throughMap (hostSwitch keyOf) (actions.filterMap inputEvent)

/-- Everything that was pressed was released after it. -/
def AllReleased (actions : List InputAction) : Prop :=
  ∀ y, Switches.last y (hostEvents keyOf actions) ≠ some true

end Host

/-- An injection thread with its input session: the actions that were sent to it, those that it has
not taken, and what its session holds down on the host. -/
structure Injector (κ : Type) where
  sent : List InputAction := []
  queue : List InputAction := []
  down : κ ⊕ PtrButton → Bool := fun _ => false

/-- A session with its injection threads. A thread whose handle was dropped first takes what is in
its queue and then stops its input session. -/
structure Desk (κ : Type) where
  session : LanSession
  injector : Option (Injector κ) := none
  dropped : List (Injector κ) := []
  /-- What was still down when input sessions had been stopped. -/
  left : κ ⊕ PtrButton → Bool := fun _ => false

inductive DeskAction where
  | session (a : Action)
  /-- The injection thread takes the next action; if the call to the compositor fails, the action is
  lost. -/
  | inject (ok : Bool)
  /-- The same of a thread whose handle was dropped. -/
  | drain (i : Nat) (ok : Bool)
  /-- A thread whose handle was dropped stops its input session. -/
  | stop (i : Nat)

namespace Desk

section Step

variable {κ : Type} [DecidableEq κ] (S : SignatureScheme) (B : Base64) (keyOf : Str → Option κ)
  (released : (κ ⊕ PtrButton → Bool) → κ ⊕ PtrButton → Bool)

/-- The session has gone on to `t`. What it injects is queued; the first action spawns the
injector. -/
def onSession (d : Desk κ) (t : LanSession) : Desk κ :=
  if t.stream.any (·.injector.isSome) then
    let actions := (t.injected.drop d.session.injected.length).map (·.2)
    let j := d.injector.getD {}
    { d with
      session := t
      injector := some { j with sent := j.sent ++ actions, queue := j.queue ++ actions } }
  else { d with session := t, injector := none, dropped := d.dropped ++ d.injector.toList }

def inject (ok : Bool) (j : Injector κ) : Option (Injector κ) :=
  match j.queue with
  | [] => none
  | action :: rest =>
    some { j with
      queue := rest
      down := if ok then Switches.run j.down (hostEvents keyOf [action]) else j.down }

/-- `released` says what the compositor leaves down of what a stopped session held down. -/
def step (d : Desk κ) : DeskAction → Option (Desk κ)
  | .session a => (d.session.step S B a).map d.onSession
  | .inject ok => d.injector.bind fun j => (inject keyOf ok j).map fun j' =>
      { d with injector := some j' }
  | .drain i ok => d.dropped[i]?.bind fun j => (inject keyOf ok j).map fun j' =>
      { d with dropped := d.dropped.set i j' }
  | .stop i => d.dropped[i]?.bind fun j =>
      if j.queue = [] then
        some { d with
          dropped := d.dropped.eraseIdx i, left := fun y => d.left y || released j.down y }
      else none

/-- The viewer has released what it pressed when control is withdrawn, and no injection fails. -/
def Handled (d : Desk κ) : DeskAction → Prop
  | .session (.host (.control false)) => ∀ j ∈ d.injector, AllReleased keyOf j.sent
  | .inject ok => ok = true
  | _ => True

instance [Fintype κ] (d : Desk κ) (a : DeskAction) : Decidable (d.Handled keyOf a) := by
  unfold Handled AllReleased
  split <;> infer_instance

end Step

variable {κ : Type} {d d' : Desk κ}

/-- What is down on the host. -/
def down (d : Desk κ) (y : κ ⊕ PtrButton) : Bool :=
  d.injector.any (·.down y) || d.dropped.any (·.down y) || d.left y

variable [DecidableEq κ] {S : SignatureScheme} {B : Base64} {keyOf : Str → Option κ}
  {released : (κ ⊕ PtrButton → Bool) → κ ⊕ PtrButton → Bool} {a : DeskAction}

theorem run_append (down : κ ⊕ PtrButton → Bool) (xs ys : List InputAction) :
    Switches.run down (hostEvents keyOf (xs ++ ys)) =
      Switches.run (Switches.run down (hostEvents keyOf xs)) (hostEvents keyOf ys) := by
  rw [hostEvents, filterMap_append, Switches.throughMap_append]
  exact foldl_append

/-- Once its queue is empty, a session holds down what the actions sent to it leave pressed. -/
def Follows (keyOf : Str → Option κ) (j : Injector κ) : Prop :=
  Switches.run j.down (hostEvents keyOf j.queue) =
    Switches.run (fun _ => false) (hostEvents keyOf j.sent)

theorem Follows.inject {j j' : Injector κ} (h : Follows keyOf j)
    (hstep : inject keyOf true j = some j') : Follows keyOf j' ∧ j'.sent = j.sent := by
  unfold Desk.inject at hstep
  split at hstep <;> cases hstep
  rename_i action rest hqueue
  refine ⟨?_, rfl⟩
  rw [Follows, hqueue, ← singleton_append, run_append] at h
  exact h

/-- While control is off, whatever was pressed has been released. -/
structure Quiet (keyOf : Str → Option κ) (d : Desk κ) : Prop where
  left : ∀ y, d.left y = false
  follows : ∀ j ∈ d.injector, Follows keyOf j
  released : controlNow d.session.control = false → ∀ j ∈ d.injector, AllReleased keyOf j.sent

theorem controlNow_onHost {s : LanSession} {change : HostChange}
    (h : controlNow (s.onHost change).control = false) :
    controlNow s.control = false ∨ change = .control false := by
  cases change with
  | control on =>
    cases on with
    | false => exact .inr rfl
    | true =>
      left
      cases hc : s.control with
      | none =>
        rw [LanSession.onHost, hc] at h
        cases h
      | some w =>
        rw [LanSession.onHost, hc] at h
        -- a channel whose sender is gone keeps its value
        cases hclosed : w.closed with
        | true => simpa [controlNow, Watch.send, hclosed] using h
        | false => simp [controlNow, Watch.send, hclosed] at h
  | kick | shareAll on | kickGone | shareAllGone => exact .inl h

/-- If control is off after an action, nothing was injected, and control was off before or is
withdrawn. -/
theorem turn_off {s t : LanSession} {a : Action} (h : s.step S B a = some t)
    (hoff : controlNow t.control = false) : t.injected = s.injected ∧
      (controlNow s.control = false ∨ a = .host (.control false)) := by
  cases LanSession.turn_of_step h with
  | host change heq =>
    subst heq
    refine ⟨by cases change <;> rfl, (controlNow_onHost hoff).imp_right fun h => by rw [h]⟩
  | outside _ _ hkept | ends hkept | goesOn _ _ hkept =>
    exact ⟨hkept.injected, .inl (hkept.control ▸ hoff)⟩
  | input st i hs hwait hcontrol heq =>
    subst heq
    cases hcontrol.symm.trans hoff
  | switches st hs hshared heq | toggled st hs heq | listed st on hs hwait heq
  | restarts st display hs hwait heq =>
    subst heq
    exact ⟨rfl, .inl hoff⟩

theorem Quiet.session {t : LanSession} {a : Action} (h : d.Quiet keyOf)
    (hguard : d.Handled keyOf (.session a)) (hstep : d.session.step S B a = some t) :
    (d.onSession t).Quiet keyOf := by
  unfold onSession
  split
  · have hgetD : ∀ P : Injector κ → Prop, P {} → (∀ j ∈ d.injector, P j) →
        P (d.injector.getD {}) := by
      intro P hnew hall
      cases hj : d.injector with
      | none => exact hnew
      | some j => exact hall j hj
    refine ⟨h.left, fun j hj => ?_, fun hoff j hj => ?_⟩
    · cases hj
      have hfollows := hgetD (Follows keyOf) rfl h.follows
      rw [Follows] at hfollows ⊢
      rw [run_append, run_append, hfollows]
    · cases hj
      obtain ⟨hinjected, hbefore⟩ := turn_off hstep hoff
      rw [hinjected, drop_length, map_nil, append_nil]
      refine hgetD (fun j => AllReleased keyOf j.sent) nofun ?_
      rcases hbefore with hbefore | rfl
      · exact h.released hbefore
      · exact hguard
  · exact ⟨h.left, nofun, fun _ => nofun⟩

theorem Quiet.step (hstop : ∀ down y, released down y = false) (h : d.Quiet keyOf)
    (hguard : d.Handled keyOf a) (hstep : d.step S B keyOf released a = some d') :
    d'.Quiet keyOf := by
  cases a with
  | session a =>
    obtain ⟨t, ht, rfl⟩ := map_eq_some_iff.1 hstep
    exact h.session hguard ht
  | inject ok =>
    obtain ⟨j, hj, hstep⟩ := bind_eq_some_iff.1 hstep
    obtain ⟨j', hj', rfl⟩ := map_eq_some_iff.1 hstep
    obtain rfl : ok = true := hguard
    obtain ⟨hfollows, hsent⟩ := (h.follows j hj).inject hj'
    refine ⟨h.left, fun i hi => ?_, fun hoff i hi => ?_⟩ <;> cases hi
    · exact hfollows
    · exact hsent ▸ h.released hoff j hj
  | drain i ok =>
    obtain ⟨j, hj, hstep⟩ := bind_eq_some_iff.1 hstep
    obtain ⟨j', hj', rfl⟩ := map_eq_some_iff.1 hstep
    exact ⟨h.left, h.follows, h.released⟩
  | stop i =>
    obtain ⟨j, hj, hstep⟩ := bind_eq_some_iff.1 hstep
    obtain ⟨-, ⟨⟩⟩ := ite_none_right_eq_some.1 hstep
    refine ⟨fun y => ?_, h.follows, h.released⟩
    simp [h.left y, hstop]

section Runs

variable {config : SessionConfig} {kick : Option (Watch Unit)}
  {shareAll control : Option (Watch Bool)} {acts : List DeskAction}

def start (κ : Type) (config : SessionConfig) (kick : Option (Watch Unit))
    (shareAll control : Option (Watch Bool)) : Desk κ :=
  { session := .new config kick shareAll control }

/-- Suppose that the compositor lets go of what a stopped session held down. In every run in which
no injection fails and the viewer has released what it pressed whenever control is withdrawn: if
control is off and the injection threads have done all their work, no key and no button is down. -/
theorem control_off_releases (hstop : ∀ down y, released down y = false)
    (hmeets : RunMeets (step S B keyOf released) (Handled keyOf)
      (start κ config kick shareAll control) acts)
    (hrun : runFrom (step S B keyOf released) (start κ config kick shareAll control) acts = some d)
    (hoff : controlNow d.session.control = false) (hqueue : ∀ j ∈ d.injector, j.queue = [])
    (hdropped : d.dropped = []) : ∀ y, d.down y = false := by
  have hquiet : d.Quiet keyOf := by
    apply invariant_of_guardedStep _ _ hmeets hrun
    · intro d a d' hquiet hguard h
      exact hquiet.step hstop hguard h
    · exact ⟨fun _ => rfl, nofun, fun _ => nofun⟩
  intro y
  rw [down, hdropped, hquiet.left y]
  cases hj : d.injector with
  | none => rfl
  | some j =>
    have hfollows := hquiet.follows j hj
    rw [Follows, hqueue j hj] at hfollows
    have hdown : j.down y = (Switches.last y (hostEvents keyOf j.sent)).getD false :=
      (congrFun hfollows y).trans Switches.run_eq
    have hlast := hquiet.released hoff j hj y
    cases hset : Switches.last y (hostEvents keyOf j.sent) with
    | none => simp [hdown, hset]
    | some set =>
      cases set with
      | false => simp [hdown, hset]
      | true => exact absurd hset hlast

end Runs

/-- A host that asks for no consent, has granted control and shares all displays. -/
def sampleDesk : Desk Unit :=
  start Unit sampleConfig none (some ⟨true, false, false⟩) (some ⟨true, false, false⟩)

def sampleKey (down : Bool) : DeskAction := .session (.control (some (.key .empty down)))

def sampleStep : Desk Unit → DeskAction → Option (Desk Unit) :=
  step .transparent .standard (fun _ => some ()) fun _ _ => false

/-- A key is pressed and released, then control is withdrawn; the release is injected after that. -/
def sampleReleased : List DeskAction :=
  [.session sampleStart, sampleKey true, .inject true, sampleKey false,
    .session (.host (.control false)), sampleKey true, .inject true]

def sampleReleasedDesk : Desk Unit :=
  (runFrom sampleStep sampleDesk sampleReleased).get (by decide +kernel)

theorem control_off_releases_sampleReleased :
    sampleReleasedDesk.session.injected.length = 2 ∧
      controlNow sampleReleasedDesk.session.control = false ∧
        ∀ y, sampleReleasedDesk.down y = false := by
  have hmeets : RunMeets sampleStep (Handled fun _ => some ()) sampleDesk sampleReleased := by
    decide +kernel
  have hoff : controlNow sampleReleasedDesk.session.control = false := by decide +kernel
  exact ⟨by decide +kernel, hoff, control_off_releases (fun _ _ => rfl) hmeets (some_get _).symm
    hoff (by decide +kernel) (by decide +kernel)⟩

/-- Control is withdrawn while a key is down. The viewer lets go of the key, but its release is
dropped, and the key stays down. -/
theorem key_stays_down :
    (runFrom sampleStep sampleDesk
      [.session sampleStart, sampleKey true, .inject true, .session (.host (.control false)),
        sampleKey false]).map
        (fun d => (controlNow d.session.control, d.injector.map (·.queue.length),
          d.down (.inl ()))) = some (false, some 0, true) := by
  decide +kernel

end Desk

/-! ## Displays -/

namespace LanSession

variable {S : SignatureScheme} {B : Base64} {s t : LanSession} {a : Action} {st : Stream}
  {primary : UInt32}

/-- The stream captures the primary display, or will do so before it sends the next frame. -/
def pinned (primary : UInt32) (st : Stream) : Prop :=
  match st.wait with
  | .toggled on => on = false
  | .switching display => display = primary
  | .select | .listing _ => st.display = none ∨ st.display = some primary

/-- All displays but the primary one are withdrawn, and the stream is over or pinned. -/
structure Pinned (primary : UInt32) (s : LanSession) : Prop where
  withdrawn : shareAllNow s.shareAll = false
  stream : s.phase = .ended ∨ ∃ st, s.stream = some st ∧ pinned primary st

/-- The listing made for a withdrawal does not fail; its first display is the primary one. -/
def ListsPrimary (primary : UInt32) (s : LanSession) : Action → Prop
  | .displays displays _ =>
    s.stream.any (·.wait = .toggled false) = true → displays.head?.map (·.id) = some primary
  | _ => True

instance (s : LanSession) (a : Action) : Decidable (s.ListsPrimary primary a) := by
  unfold ListsPrimary
  split <;> infer_instance

theorem shareAllNow_onHost {change : HostChange} (h : shareAllNow s.shareAll = false)
    (hchange : change ≠ .shareAll true) : shareAllNow (s.onHost change).shareAll = false := by
  cases hs : s.shareAll with
  | none =>
    rw [hs] at h
    cases h
  | some w =>
    rw [hs] at h
    have hvalue : w.value = false := h
    cases change with
    | shareAll on =>
      cases on with
      | true => exact absurd rfl hchange
      | false =>
        rw [onHost, hs]
        cases hclosed : w.closed <;> simp [shareAllNow, Watch.send, hclosed, hvalue]
    | shareAllGone =>
      rw [onHost, hs]
      exact hvalue
    | kick | control on | kickGone => rw [onHost, hs]; exact hvalue

theorem shareAllNow_seen (shareAll : Option (Watch Bool)) :
    shareAllNow (shareAll.map Watch.seen) = shareAllNow shareAll := by
  cases shareAll <;> rfl

/-- After a listing that starts with the primary display the stream is pinned to it. -/
theorem pinned_afterToggle {displays : List DisplayInfo}
    (hfirst : displays.head?.map (·.id) = some primary) :
    pinned primary { st with wait := afterToggle st false (allowedDisplays false displays) } := by
  cases displays with
  | nil => cases hfirst
  | cons first rest =>
    obtain rfl : first.id = primary := some.inj hfirst
    have hlisted : allowedDisplays false (first :: rest) = [first] := rfl
    by_cases hprimary : st.display = none ∨ st.display = some first.id
    · have hwait : afterToggle st false [first] = .select :=
        if_neg fun h => h.2 hprimary
      rw [hlisted, hwait]
      exact hprimary
    · have hwait : afterToggle st false [first] = .switching first.id :=
        if_pos ⟨rfl, hprimary⟩
      rw [hlisted, hwait]
      rfl

theorem Pinned.step (hs : s.Pinned primary) (hguard : s.ListsPrimary primary a)
    (hgrant : a ≠ .host (.shareAll true)) (h : s.step S B a = some t) : t.Pinned primary := by
  -- a turn of the stream finds it pinned
  have hpinned : ∀ st, s.stream = some st → pinned primary st := by
    intro st hst
    rcases hs.stream with hended | ⟨st', hst', hp⟩
    · rw [LanSession.stream, hended] at hst
      cases hst
    · rw [hst'] at hst
      cases hst
      exact hp
  cases turn_of_step h with
  | host change heq =>
    subst heq
    refine ⟨shareAllNow_onHost hs.withdrawn fun heq => hgrant (by rw [heq]), ?_⟩
    have hphase : (s.onHost change).phase = s.phase := by cases change <;> rfl
    rw [hphase, LanSession.stream, hphase]
    exact hs.stream
  | outside hnone hopen hkept hinjector =>
    -- there is no way back from a stream to the requests before it
    rcases hs.stream with hended | ⟨st, hst, -⟩
    · exact absurd hended hopen
    · rw [hnone] at hst
      cases hst
  | ends hkept hended => exact ⟨hkept.shareAll ▸ hs.withdrawn, .inl hended⟩
  | goesOn st st' hkept hst ht hdisplay hinjector hwait =>
    refine ⟨hkept.shareAll ▸ hs.withdrawn, .inr ⟨st', ht, ?_⟩⟩
    have hp := hpinned st hst
    have hnone : st.display = none ∨ st.display = some primary := by
      rcases hwait with ⟨hwait, -⟩ | ⟨⟨on, hwait⟩, -⟩
      · simpa only [pinned, hwait] using hp
      · simpa only [pinned, hwait] using hp
    rcases hwait with ⟨-, hwait | ⟨on, hwait⟩⟩ | ⟨-, hwait⟩
    · simpa only [pinned, hwait, hdisplay] using hnone
    · simpa only [pinned, hwait, hdisplay] using hnone
    · simpa only [pinned, hwait, hdisplay] using hnone
  | input st i hst hwait hcontrol heq =>
    subst heq
    refine ⟨hs.withdrawn, .inr ⟨_, rfl, ?_⟩⟩
    simpa only [pinned, hwait] using hpinned st hst
  | switches st hst hshared heq =>
    rw [hs.withdrawn] at hshared
    cases hshared
  | toggled st hst heq =>
    subst heq
    refine ⟨(shareAllNow_seen _).trans hs.withdrawn, .inr ⟨_, rfl, ?_⟩⟩
    exact hs.withdrawn
  | listed st on hst hwait heq =>
    subst heq
    have hp := hpinned st hst
    rw [pinned, hwait] at hp
    obtain rfl : on = false := hp
    refine ⟨hs.withdrawn, .inr ⟨_, rfl, pinned_afterToggle (hguard ?_)⟩⟩
    simp [hst, hwait]
  | restarts st display hst hwait heq =>
    subst heq
    have hp := hpinned st hst
    rw [pinned, hwait] at hp
    refine ⟨hs.withdrawn, .inr ⟨_, rfl, ?_⟩⟩
    exact .inr (congrArg some hp)

section Revoke

variable {s₁ u : LanSession} {acts : List Action} {frame : StreamFrame} {sendOk : Bool}

/-- Frames and changed permissions are handled by the loop that waits for the next event. -/
theorem select_of_step (ha : a = .shareChanged ∨ ∃ frame sendOk, a = .frame frame sendOk)
    (h : s.step S B a = some t) :
    ∃ st, s.stream = some st ∧ st.wait = .select ∧ s.stepSelect st a = some t := by
  have hloop : (match s.phase with
      | .streaming st => if st.wait = .select then s.stepSelect st a else none
      | _ => none) = some t := by
    rcases ha with rfl | ⟨frame, sendOk, rfl⟩ <;> exact h
  split at hloop
  · rename_i st hphase
    obtain ⟨hwait, hloop⟩ := ite_none_right_eq_some.1 hloop
    exact ⟨st, stream_of_phase hphase, hwait, hloop⟩
  · cases hloop

/-- When the stream notices the withdrawal it is about to list the displays. -/
theorem Pinned.of_shareChanged (hrevoked : shareAllNow s.shareAll = false)
    (h : s.step S B .shareChanged = some s₁) : s₁.Pinned primary := by
  obtain ⟨st, hst, hwait, hselect⟩ := select_of_step (.inl rfl) h
  unfold stepSelect at hselect
  simp only at hselect
  obtain ⟨-, ⟨⟩⟩ := ite_none_right_eq_some.1 hselect
  exact ⟨(shareAllNow_seen _).trans hrevoked, .inr ⟨_, rfl, hrevoked⟩⟩

/-- Once the stream has noticed that the other displays are withdrawn, and until they are shared
again: if the listings for it do not fail, every frame shows the primary display. -/
theorem frames_pinned_after_revoke (hnoticed : s.step S B .shareChanged = some s₁)
    (hrevoked : shareAllNow s.shareAll = false)
    (hrun : runFrom (step S B) s₁ acts = some t)
    (hgrant : ∀ a ∈ acts, a ≠ .host (.shareAll true))
    (hmeets : RunMeets (step S B) (ListsPrimary primary) s₁ acts)
    (hframe : t.step S B (.frame frame sendOk) = some u) :
    ∃ st, t.stream = some st ∧ (st.display = none ∨ st.display = some primary) := by
  have hpinned : t.Pinned primary := by
    apply invariant_of_guardedStep _ (.of_shareChanged hrevoked hnoticed)
      (hmeets.and (runMeets_of_forall_mem hgrant)) hrun
    intro s a t hs hguard h
    exact hs.step hguard.1 hguard.2 h
  obtain ⟨st, hst, hwait, -⟩ := select_of_step (.inr ⟨_, _, rfl⟩) hframe
  rcases hpinned.stream with hended | ⟨st', hst', hp⟩
  · rw [LanSession.stream, hended] at hst
    cases hst
  · rw [hst'] at hst
    cases hst
    rw [pinned, hwait] at hp
    exact ⟨st, hst', hp⟩

end Revoke

/-- A client streams the second display when the other displays are withdrawn. -/
def sampleRevoked : LanSession :=
  { LanSession.new sampleConfig none (some ⟨false, true, false⟩) none with
    phase := .streaming
      { fps := 30, display := some 2, h264 := false, video := none, injector := none
        wait := .select } }

/-- The displays are listed, and the old capture stops. -/
def sampleListed : List Action :=
  [.displays [⟨1, .empty⟩, ⟨2, .empty⟩] true, .captureStopped]

def sampleFrame : Action := .frame (.tiles ⟨0, 0, 0, false, []⟩) true

theorem frames_pinned_after_revoke_sampleRevoked :
    ∃ s₁ t u, sampleRevoked.step .transparent .standard .shareChanged = some s₁ ∧
      runFrom (step .transparent .standard) s₁ sampleListed = some t ∧
        t.step .transparent .standard sampleFrame = some u ∧
          ∃ st, t.stream = some st ∧ (st.display = none ∨ st.display = some 1) := by
  refine ⟨_, _, _, rfl, rfl, rfl, ?_⟩
  have hgrant : ∀ a ∈ sampleListed, a ≠ .host (.shareAll true) := by
    intro a ha
    rcases mem_pair.1 ha with rfl | rfl <;> intro h <;> cases h
  exact frames_pinned_after_revoke (S := .transparent) (B := .standard) (s := sampleRevoked)
    rfl rfl rfl hgrant (by decide +kernel)
    (rfl : step .transparent .standard _ sampleFrame = some _)

/-- The listing fails when the other displays are withdrawn. The next frame is still one of the
second display. -/
theorem failed_listing_keeps_display :
    ((runFrom (step .transparent .standard)
      (.new sampleConfig none (some ⟨true, false, false⟩) none)
      [sampleStart, .host (.shareAll false), .shareChanged, .displays [] true, sampleFrame]).map
        fun t => (shareAllNow t.shareAll, t.stream.map (·.display), t.sent.length)) =
      some (false, some (some 2), 2) := by
  decide +kernel

end LanSession

end RivetLink.Agent
