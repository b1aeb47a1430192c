import RivetLink.Agent.TileEncoder
import RivetLink.Foundation.Transition

/-!
# The stream of tile deltas

A run of the encoder is any sequence of pushes and heartbeats, each with the answer of the queue.
`stream` is what was queued, each delta with the frame that the encoder keeps as the last one sent.

The main result is about runs whose frames fit 32 bits: a client that applies the deltas shows after
each one the frame that goes with it; every index is that of a tile, and the tiles partition the
frame; the first delta and every change of size is a keyframe; and of 160 pushes in a row one
attempts a keyframe. A wider frame is announced with width zero (`wide_frame_not_shown`).
-/

namespace RivetLink.Agent

open List Option RivetLink.Foundation RivetLink.Sdk

inductive TileAction where
  | push (f : RawFrame) (quality : UInt8) (now : Nat) (outcome : SendOutcome)
  | heartbeat (now : Nat) (outcome : SendOutcome)

def TileAction.wellFormed : TileAction → Bool
  | .push f _ _ _ => !f.malformed
  | .heartbeat _ _ => false

/-- A frame that is not skipped fits 32 bits. -/
def TileAction.Sized : TileAction → Prop
  | .push f _ _ _ => f.malformed = false → f.Sized
  | .heartbeat _ _ => True

namespace TileEncoder

variable (C : TileCodec)

def act (s : TileEncoder) : TileAction → TileEncoder × Option FrameDelta × Bool
  | .push f quality now outcome => s.push C f quality now outcome
  | .heartbeat now outcome => s.heartbeat now outcome

def step (s : TileEncoder) (a : TileAction) : Option TileEncoder := some (s.act C a).1

/-- What a step queues, with the frame that the encoder keeps then. -/
def queued (s : TileEncoder) (a : TileAction) : List (FrameDelta × RawFrame) :=
  ((s.act C a).2.1.bind fun delta => (s.act C a).1.prev.map fun f => (delta, f)).toList

/-- All that was queued. -/
def stream (now : Nat) (acts : List TileAction) : List (FrameDelta × RawFrame) :=
  runOutputs (step C) (queued C) (new now) acts

def attemptsKeyframe (s : TileEncoder) : TileAction → Bool
  | .push f quality now _ => (s.compose C f quality now).2.any (·.keyframe)
  | .heartbeat _ _ => false

/-! ## One step -/

variable {C} {s t : TileEncoder} {a : TileAction} {now : Nat} {f : RawFrame}

/-- A frame that is not skipped counts, and its delta is to be queued unless nothing changed. -/
theorem compose_eq (hwell : f.malformed = false) (quality : UInt8) (now : Nat) :
    s.compose C f quality now = ({ s with counter := s.counter + 1 }, none) ∨
    s.compose C f quality now = ({ s with counter := s.counter + 1 },
      some (frameDelta (s.keyframe f) f (patches C (s.keyframe f) s.prev f quality))) := by
  unfold compose
  rw [if_neg (by rw [hwell]; decide)]
  dsimp only
  split_ifs
  · exact .inl rfl
  · exact .inr rfl

/-- A step queues nothing, or the delta of a frame, or a heartbeat. -/
theorem act_cases (s : TileEncoder) (a : TileAction) :
    ((s.act C a).2.1 = none ∧ (s.act C a).1.prev = s.prev) ∨
    (∃ f quality now, a = .push f quality now .ok ∧ f.malformed = false ∧
      (s.act C a).2.1 = some (frameDelta (s.keyframe f) f
        (patches C (s.keyframe f) s.prev f quality)) ∧ (s.act C a).1.prev = some f) ∨
    (∃ p, s.prev = some p ∧ (s.act C a).2.1 = some (frameDelta false p []) ∧
      (s.act C a).1.prev = some p) := by
  cases a with
  | push f quality now outcome =>
    cases hmal : f.malformed with
    | true => simp [act, push, compose, hmal]
    | false =>
      rcases compose_eq (C := C) (s := s) hmal quality now with hnone | hsome
      · left
        simp only [act, push, hnone, and_self]
      · cases outcome with
        | ok =>
          refine .inr (.inl ⟨f, quality, now, rfl, hmal, ?_⟩)
          simp only [act, push, hsome, and_self]
        | full | closed =>
          left
          simp only [act, push, hsome, and_self]
  | heartbeat now outcome =>
    cases hprev : s.prev with
    | none => simp [act, heartbeat, hprev]
    | some p =>
      simp only [act, heartbeat, hprev]
      split_ifs
      · exact .inl ⟨rfl, hprev⟩
      · cases outcome with
        | ok => exact .inr (.inr ⟨p, rfl, rfl, rfl⟩)
        | full | closed => exact .inl ⟨rfl, hprev⟩

/-- Every well-formed push counts, whether it is queued or not. -/
theorem counter_act (s : TileEncoder) (a : TileAction) :
    (s.act C a).1.counter = if a.wellFormed then s.counter + 1 else s.counter := by
  cases a with
  | push f quality now outcome =>
    cases hmal : f.malformed with
    | true => simp [act, push, compose, hmal, TileAction.wellFormed]
    | false =>
      simp only [TileAction.wellFormed, hmal, Bool.not_false, if_true]
      rcases compose_eq (C := C) (s := s) hmal quality now with hnone | hsome
      · simp only [act, push, hnone]
      · cases outcome <;> simp only [act, push, hsome]
  | heartbeat now outcome =>
    simp only [act, heartbeat, TileAction.wellFormed, Bool.false_eq_true, if_false]
    split
    · rfl
    · split_ifs
      · rfl
      · cases outcome <;> rfl

theorem attemptsKeyframe_of_counter (hwell : a.wellFormed = true)
    (h : s.counter.toNat % keyframeInterval = 0) : s.attemptsKeyframe C a = true := by
  cases a with
  | heartbeat now outcome => cases hwell
  | push f quality now outcome =>
    have hmal : f.malformed = false := by simpa [TileAction.wellFormed] using hwell
    have hkey : s.keyframe f = true := by simp [keyframe, h]
    simp [attemptsKeyframe, compose, hmal, hkey, frameDelta]

/-! ## What was queued -/

/-- A delta goes with its frame: its size, its indices, and the tiles they stand for. -/
structure Tiled (delta : FrameDelta) (f : RawFrame) : Prop where
  width : delta.w.toNat = f.w
  height : delta.h.toNat = f.h
  valid : ∀ t ∈ delta.tiles, t.i.toNat < f.columns * f.rows
  ordered : (delta.tiles.map fun t => t.i.toNat).Pairwise (· < ·)
  complete : delta.keyframe = true →
    (delta.tiles.map fun t => t.i.toNat) = List.range (f.columns * f.rows)
  partition : ∀ x y, x < f.w → y < f.h → ∃ i, (i < f.columns * f.rows ∧
    (tileAt delta.tile.toNat delta.w.toNat delta.h.toNat i).Covers x y) ∧
      ∀ j, (tileAt delta.tile.toNat delta.w.toNat delta.h.toNat j).Covers x y → j = i

theorem tiled_frameDelta (hsized : f.Sized) {keyframe : Bool} {tiles : List TilePatch}
    (hsub : (tiles.map fun t => t.i.toNat).Sublist (List.range (f.columns * f.rows)))
    (hall : keyframe = true →
      (tiles.map fun t => t.i.toNat) = List.range (f.columns * f.rows)) :
    Tiled (frameDelta keyframe f tiles) f := by
  obtain ⟨hw, hh, hedge⟩ := toNat_frameDelta keyframe hsized tiles
  refine ⟨hw, hh, ?_, pairwise_lt_range.sublist hsub, hall, ?_⟩
  · intro t ht
    exact mem_range.1 (hsub.subset (mem_map.2 ⟨t, ht, rfl⟩))
  · intro x y hx hy
    rw [hw, hh, hedge]
    exact tile_partition (by decide) hx hy

/-- What holds of the deltas that were queued so far. -/
structure InSync (C : TileCodec) (q : List (FrameDelta × RawFrame)) (s : TileEncoder) : Prop where
  last : s.prev = q.getLast?.map Prod.snd
  sized : ∀ e ∈ q, e.2.malformed = false ∧ e.2.Sized
  tiled : ∀ e ∈ q, Tiled e.1 e.2
  shown : ∀ n e, q[n]? = some e →
    ∃ canvas, applyAll C ((q.take (n + 1)).map Prod.fst) = some canvas ∧ canvas.Shows e.2
  first : ∀ e, q[0]? = some e → e.1.keyframe = true
  resized : ∀ n e e', q[n]? = some e → q[n + 1]? = some e' →
    (e'.1.w, e'.1.h) ≠ (e.1.w, e.1.h) → e'.1.keyframe = true

theorem inSync_nil (now : Nat) : InSync C [] (new now) :=
  ⟨rfl, by simp, by simp, by simp, by simp, by simp⟩

variable {q : List (FrameDelta × RawFrame)} {p : RawFrame}

/-- The client shows the frame that the encoder keeps. -/
theorem InSync.shows_prev (h : InSync C q s) (hprev : s.prev = some p) :
    ∃ canvas, applyAll C (q.map Prod.fst) = some canvas ∧ canvas.Shows p := by
  rw [h.last] at hprev
  obtain ⟨e, he, rfl⟩ := map_eq_some_iff.1 hprev
  obtain ⟨canvas, happly, hshows⟩ :=
    h.shown (q.length - 1) e (by rw [← he, getLast?_eq_getElem?])
  have hlen : q.length - 1 + 1 = q.length := by
    have hne : q ≠ [] := by
      rintro rfl
      cases he
    have hpos := length_pos_of_ne_nil hne
    omega
  rw [hlen, take_length] at happly
  exact ⟨canvas, happly, hshows⟩

/-- One more delta. -/
theorem InSync.concat (h : InSync C q s) {delta : FrameDelta} (hprev : t.prev = some f)
    (hsized : f.malformed = false ∧ f.Sized) (htiled : Tiled delta f)
    (hshows : (applyDelta C (applyAll C (q.map Prod.fst)) delta).Shows f)
    (hfirst : q = [] → delta.keyframe = true)
    (hresized : ∀ e, q.getLast? = some e → (delta.w, delta.h) ≠ (e.1.w, e.1.h) →
      delta.keyframe = true) : InSync C (q ++ [(delta, f)]) t where
  last := by rw [hprev, getLast?_concat]; rfl
  sized := by
    intro e he
    rcases mem_append.1 he with he | he
    · exact h.sized e he
    · obtain rfl := mem_singleton.1 he
      exact hsized
  tiled := by
    intro e he
    rcases mem_append.1 he with he | he
    · exact h.tiled e he
    · obtain rfl := mem_singleton.1 he
      exact htiled
  shown := by
    intro n e he
    rcases Nat.lt_or_ge n q.length with hlt | hge
    · rw [getElem?_append_left hlt] at he
      rw [take_append_of_le_length hlt]
      exact h.shown n e he
    · rw [getElem?_append_right hge, getElem?_singleton] at he
      split_ifs at he with hzero
      cases he
      rw [take_of_length_le (by rw [length_append, length_singleton]; omega),
        map_append, map_singleton, applyAll_concat]
      exact ⟨_, rfl, hshows⟩
  first := by
    intro e he
    cases q with
    | nil =>
      cases he
      exact hfirst rfl
    | cons e' q => exact h.first e he
  resized := by
    intro n e e' he he' hsize
    rcases Nat.lt_or_ge (n + 1) q.length with hlt | hge
    · rw [getElem?_append_left (by omega)] at he
      rw [getElem?_append_left hlt] at he'
      exact h.resized n e e' he he' hsize
    · rw [getElem?_append_right hge, getElem?_singleton] at he'
      split_ifs at he' with hzero
      cases he'
      rw [getElem?_append_left (by omega)] at he
      refine hresized e ?_ hsize
      rw [getLast?_eq_getElem?, ← he]
      congr 1
      omega

/-- A heartbeat leaves the picture as it is. -/
theorem shows_heartbeat (hsized : p.Sized) {canvas : Canvas} (hshows : canvas.Shows p) :
    (applyDelta C (some canvas) (frameDelta false p [])).Shows p := by
  obtain ⟨hw, hh, -⟩ := toNat_frameDelta false hsized []
  obtain ⟨hcw, hch, hpixels⟩ := hshows
  refine ⟨hw, hh, fun x y hx hy => ?_⟩
  have hground : ground (some canvas) (frameDelta false p []) = canvas.picture :=
    if_pos ⟨hcw.trans hw.symm, hch.trans hh.symm⟩
  exact (congrFun (congrFun hground x) y).trans (hpixels x y hx hy)

/-- Without a keyframe the size is that of the frame the encoder keeps. -/
theorem same_dims_of_not_keyframe (h : s.keyframe f = false) :
    ∃ p, s.prev = some p ∧ p.w = f.w ∧ p.h = f.h := by
  obtain ⟨hdims, -⟩ := Bool.or_eq_false_iff.1 h
  unfold dimsChanged at hdims
  cases hprev : s.prev with
  | none =>
    rw [hprev] at hdims
    cases hdims
  | some p =>
    rw [hprev] at hdims
    refine ⟨p, rfl, ?_⟩
    simpa using hdims

/-- The delta of a frame that was pushed. -/
theorem InSync.push (h : InSync C q s) (hwell : f.malformed = false) (hsized : f.Sized)
    (quality : UInt8) (hprev : t.prev = some f) :
    InSync C (q ++ [(frameDelta (s.keyframe f) f
      (patches C (s.keyframe f) s.prev f quality), f)]) t := by
  obtain ⟨hsub, hall⟩ := indices_sublist C (s.keyframe f) s.prev quality hsized
  obtain ⟨hw, hh, -⟩ := toNat_frameDelta (s.keyframe f) hsized
    (patches C (s.keyframe f) s.prev f quality)
  refine h.concat hprev ⟨hwell, hsized⟩ (tiled_frameDelta hsized hsub hall) ?_ ?_ ?_
  · refine shows_applyDelta hwell hsized ?_
    cases hkey : s.keyframe f with
    | true => exact .inl rfl
    | false =>
      obtain ⟨p, hp, hpw, hph⟩ := same_dims_of_not_keyframe hkey
      obtain ⟨canvas, hcanvas, hshows⟩ := h.shows_prev hp
      exact .inr ⟨p, canvas, hp, hcanvas, hshows, hpw, hph⟩
  · rintro rfl
    have hnone : s.prev = none := h.last
    simp [frameDelta, keyframe, dimsChanged, hnone]
  · intro e he hsize
    by_contra hkey
    obtain ⟨p, hp, hpw, hph⟩ := same_dims_of_not_keyframe (eq_false_of_ne_true hkey)
    have hlast : s.prev = some e.2 := by rw [h.last, he]; rfl
    obtain rfl : e.2 = p := some.inj (hlast.symm.trans hp)
    have htiled := h.tiled e (mem_of_getLast? he)
    refine hsize (Prod.ext (UInt32.toNat_inj.1 ?_) (UInt32.toNat_inj.1 ?_))
    · rw [hw, htiled.width, hpw]
    · rw [hh, htiled.height, hph]

theorem InSync.heartbeat (h : InSync C q s) (hprev : s.prev = some p) (hprev' : t.prev = some p) :
    InSync C (q ++ [(frameDelta false p [], p)]) t := by
  have hlast := hprev
  rw [h.last] at hlast
  obtain ⟨e, he, rfl⟩ := map_eq_some_iff.1 hlast
  have hmem := mem_of_getLast? he
  obtain ⟨hwell, hsized⟩ := h.sized e hmem
  obtain ⟨hw, hh, -⟩ := toNat_frameDelta false hsized []
  obtain ⟨canvas, hcanvas, hshows⟩ := h.shows_prev hprev
  refine h.concat hprev' ⟨hwell, hsized⟩ (tiled_frameDelta hsized (nil_sublist _) ?_) ?_ ?_ ?_
  · intro hkey
    cases hkey
  · rw [hcanvas]
    exact shows_heartbeat hsized hshows
  · rintro rfl
    cases he
  · intro e' he' hsize
    obtain rfl := some.inj (he'.symm.trans he)
    have htiled := h.tiled e' hmem
    refine absurd (Prod.ext (UInt32.toNat_inj.1 ?_) (UInt32.toNat_inj.1 ?_)) hsize
    · rw [hw, htiled.width]
    · rw [hh, htiled.height]

/-- A step keeps the client in sync. -/
theorem InSync.act (h : InSync C q s) (ha : a.Sized) :
    InSync C (q ++ s.queued C a) (s.act C a).1 := by
  unfold queued
  rcases act_cases (C := C) s a with ⟨hnone, hprev⟩ | ⟨f, quality, now, rfl, hwell, hsome, hprev⟩ |
    ⟨p, hp, hsome, hprev⟩
  · rw [hnone, bind_none, toList_none, append_nil]
    exact { h with last := hprev.trans h.last }
  · rw [hsome, hprev]
    exact h.push hwell (ha hwell) quality hprev
  · rw [hsome, hprev]
    exact h.heartbeat hp hprev

/-! ## Keyframes in time -/

/-- The counter reaches a multiple of the interval in time, also where it wraps. -/
theorem exists_multiple (c : UInt32) :
    ∃ j < keyframeInterval, (c.toNat + j) % 2 ^ 32 % keyframeInterval = 0 := by
  have hlt := c.toNat_lt
  have hinterval : keyframeInterval = 160 := rfl
  rw [hinterval]
  by_cases hwrap : c.toNat + (159 - (c.toNat + 159) % 160) < 2 ^ 32
  · refine ⟨159 - (c.toNat + 159) % 160, by omega, ?_⟩
    rw [Nat.mod_eq_of_lt hwrap]
    omega
  · refine ⟨2 ^ 32 - c.toNat, by omega, ?_⟩
    rw [Nat.add_sub_cancel' (Nat.le_of_lt hlt), Nat.mod_self, Nat.zero_mod]

/-- From a state whose counter is `j` pushes before a multiple, more than `j` pushes attempt a
keyframe. -/
theorem exists_keyframe {mid : List TileAction} {j : Nat}
    (hj : (s.counter.toNat + j) % 2 ^ 32 % keyframeInterval = 0)
    (hcount : j < mid.countP (·.wellFormed)) :
    ∃ l a r m, mid = l ++ a :: r ∧ runFrom (step C) s l = some m ∧
      m.attemptsKeyframe C a = true := by
  induction mid generalizing s j with
  | nil => cases hcount
  | cons b mid ih =>
    have hcounter := counter_act (C := C) s b
    -- the step, and then what the rest of the run does
    have hrest : ∀ i, ((s.act C b).1.counter.toNat + i) % 2 ^ 32 % keyframeInterval = 0 →
        i < mid.countP (·.wellFormed) → ∃ l a r m, b :: mid = l ++ a :: r ∧
          runFrom (step C) s l = some m ∧ m.attemptsKeyframe C a = true := by
      intro i hi hlt
      obtain ⟨l, a, r, m, rfl, hrun, hkey⟩ := ih hi hlt
      exact ⟨b :: l, a, r, m, rfl, runFrom_cons_eq_some.2 ⟨_, rfl, hrun⟩, hkey⟩
    cases hwell : b.wellFormed with
    | false =>
      rw [hwell, if_neg Bool.false_ne_true] at hcounter
      rw [countP_cons_of_neg (by rw [hwell]; decide)] at hcount
      exact hrest j (by rw [hcounter]; exact hj) hcount
    | true =>
      rw [hwell, if_pos rfl] at hcounter
      rw [countP_cons_of_pos hwell] at hcount
      cases j with
      | zero =>
        have hnow : s.counter.toNat % keyframeInterval = 0 := by
          rwa [Nat.add_zero, Nat.mod_eq_of_lt s.counter.toNat_lt] at hj
        exact ⟨[], b, mid, s, rfl, rfl, attemptsKeyframe_of_counter hwell hnow⟩
      | succ j =>
        refine hrest j ?_ (Nat.lt_of_succ_lt_succ hcount)
        have hone : (1 : UInt32).toNat = 1 := rfl
        rw [hcounter, UInt32.toNat_add, hone, Nat.mod_add_mod, Nat.add_assoc,
          Nat.add_comm 1 j]
        exact hj

/-! ## Whole runs -/

/-- A client that applies the deltas of a run shows after each one the frame that the encoder keeps
then; every index is that of a tile, and the tiles partition the frame; the first delta and every
delta of another size than the one before is a keyframe; and among 160 well-formed pushes in a row
one attempts a keyframe. -/
theorem tile_stream_correct {acts : List TileAction} (hsized : ∀ a ∈ acts, a.Sized)
    (hrun : runFrom (step C) (new now) acts = some s) :
    s.prev = (stream C now acts).getLast?.map Prod.snd ∧
    (∀ n delta f, (stream C now acts)[n]? = some (delta, f) →
      (∃ canvas, applyAll C (((stream C now acts).take (n + 1)).map Prod.fst) = some canvas ∧
        canvas.Shows f) ∧ Tiled delta f ∧ (n = 0 → delta.keyframe = true)) ∧
    (∀ n e e', (stream C now acts)[n]? = some e → (stream C now acts)[n + 1]? = some e' →
      (e'.1.w, e'.1.h) ≠ (e.1.w, e.1.h) → e'.1.keyframe = true) ∧
    ∀ pre mid post, acts = pre ++ mid ++ post → 160 ≤ mid.countP (·.wellFormed) →
      ∃ l a r m, mid = l ++ a :: r ∧ runFrom (step C) (new now) (pre ++ l) = some m ∧
        m.attemptsKeyframe C a = true := by
  have hsync : (∀ a ∈ acts, a.Sized) → InSync C (stream C now acts) s := by
    refine invariant_of_past (I := fun past s => (∀ a ∈ past, a.Sized) →
      InSync C (stream C now past) s) (fun _ => inSync_nil now) ?_ hrun
    intro past s a t hpast ih hstep hall
    cases hstep
    have hnow := ih fun b hb => hall b (mem_append_left _ hb)
    rw [stream, runOutputs_concat hpast a]
    exact hnow.act (hall a (mem_append_right _ mem_cons_self))
  have hinv := hsync hsized
  refine ⟨hinv.last, ?_, hinv.resized, ?_⟩
  · intro n delta f hn
    refine ⟨hinv.shown n _ hn, hinv.tiled _ (mem_of_getElem? hn), ?_⟩
    rintro rfl
    exact hinv.first _ hn
  · rintro pre mid post rfl hcount
    rw [append_assoc, runFrom_append] at hrun
    obtain ⟨m, hm, -⟩ := bind_eq_some_iff.1 hrun
    obtain ⟨j, hj, hmultiple⟩ := exists_multiple m.counter
    obtain ⟨l, a, r, m', rfl, hl, hkey⟩ :=
      exists_keyframe (C := C) hmultiple (Nat.lt_of_lt_of_le hj hcount)
    exact ⟨l, a, r, m', rfl, by rw [runFrom_append, hm, bind_some, hl], hkey⟩

/-- Tiles as base64 of their pixels. -/
def plainCodec : TileCodec where
  encode _ _ _ b := Base64.standard.encode b
  decode s := (Base64.standard.decode s).toOption.map Buffer.bytes
  decode_encode := by
    intro quality w h b hb
    have hlimit : tileEdge * (tileEdge * 4) < 2 ^ 32 := by decide
    obtain ⟨v, hv, rfl⟩ := Base64.standard.decode_encode b (by omega)
    rw [hv]
    rfl

/-- A first frame, a heartbeat, a change that is dropped, a malformed frame, the change again, and
another size. -/
def sampleActs : List TileAction :=
  [.push ⟨1, 1, [1, 2, 3, 4]⟩ 80 0 .ok, .heartbeat 1000 .ok,
    .push ⟨1, 1, [5, 6, 7, 8]⟩ 80 1010 .full, .push ⟨1, 1, [9]⟩ 80 1020 .ok,
    .push ⟨1, 1, [5, 6, 7, 8]⟩ 80 1030 .ok,
    .push ⟨2, 1, [5, 6, 7, 8, 1, 2, 3, 4]⟩ 80 1040 .ok]

theorem tile_stream_correct_sampleActs :
    (stream plainCodec 0 sampleActs).map (fun e => (e.1.keyframe, e.1.tiles.length)) =
      [(true, 1), (false, 0), (false, 1), (true, 1)] ∧
    ∃ s, runFrom (step plainCodec) (new 0) sampleActs = some s ∧
      s.prev = (stream plainCodec 0 sampleActs).getLast?.map Prod.snd ∧
      ∀ n delta f, (stream plainCodec 0 sampleActs)[n]? = some (delta, f) →
        (∃ canvas, applyAll plainCodec
          (((stream plainCodec 0 sampleActs).take (n + 1)).map Prod.fst) = some canvas ∧
            canvas.Shows f) ∧ Tiled delta f ∧ (n = 0 → delta.keyframe = true) := by
  have hsized : ∀ a ∈ sampleActs, a.Sized := by
    intro a ha
    simp only [sampleActs, mem_cons, not_mem_nil, or_false] at ha
    rcases ha with rfl | rfl | rfl | rfl | rfl | rfl
    · exact fun _ => by decide
    · trivial
    · exact fun _ => by decide
    · exact fun _ => by decide
    · exact fun _ => by decide
    · exact fun _ => by decide
  have hcorrect := tile_stream_correct hsized
    (show runFrom (step plainCodec) (new 0) sampleActs = some _ from rfl)
  exact ⟨by decide +kernel, _, rfl, hcorrect.1, hcorrect.2.1⟩

/-- A first frame that is too wide for 32 bits is announced with width zero. -/
theorem not_shown_of_wide (hwell : f.malformed = false) (hwide : 2 ^ 32 ≤ f.w) :
    ∃ delta, stream C 0 [.push f 80 0 .ok] = [(delta, f)] ∧ delta.w = 0 ∧
      ∀ canvas, applyAll C [delta] = some canvas → ¬ canvas.Shows f := by
  have hkey : (new 0).keyframe f = true := rfl
  have hcompose : (new 0).compose C f 80 0 =
      (⟨none, 1, 0⟩, some (frameDelta true f (patches C true none f 80))) := by
    unfold compose
    rw [if_neg (by rw [hwell]; decide), hkey]
    simp only [Bool.not_true, Bool.and_false, Bool.false_and, Bool.false_eq_true, if_false]
    rfl
  have hzero : (frameDelta true f (patches C true none f 80)).w = 0 :=
    if_neg (Nat.not_lt.2 hwide)
  refine ⟨frameDelta true f (patches C true none f 80), ?_, hzero, ?_⟩
  · simp only [stream, runOutputs, step, queued, act, push, hcompose]
    rfl
  · rintro canvas happly ⟨hw, -⟩
    have hcanvas : canvas.w = (frameDelta true f (patches C true none f 80)).w.toNat :=
      congrArg Canvas.w (some.inj happly).symm
    rw [hcanvas, hzero] at hw
    have hnone : (0 : UInt32).toNat = 0 := rfl
    omega

/-- A frame of one row, as wide as 32 bits do not hold. -/
def wideFrame : RawFrame := ⟨2 ^ 32, 1, List.replicate (2 ^ 34) 0⟩

/-- The wide frame has few enough tiles, but its delta says that the frame has no width, and a
client that applies it does not show the frame. -/
theorem wide_frame_not_shown :
    wideFrame.columns * wideFrame.rows ≤ 2 ^ 32 - 1 ∧ wideFrame.malformed = false ∧
    ∃ delta, stream plainCodec 0 [.push wideFrame 80 0 .ok] = [(delta, wideFrame)] ∧
      delta.w = 0 ∧
      ∀ canvas, applyAll plainCodec [delta] = some canvas → ¬ canvas.Shows wideFrame := by
  have hwell : wideFrame.malformed = false := by
    have hlen : wideFrame.data.length = 2 ^ 34 := length_replicate
    have hw : wideFrame.w = 2 ^ 32 := rfl
    have hh : wideFrame.h = 1 := rfl
    unfold RawFrame.malformed
    rw [hlen, hw, hh]
    decide
  exact ⟨by decide, hwell, not_shown_of_wide hwell (Nat.le_refl _)⟩

end TileEncoder

end RivetLink.Agent
