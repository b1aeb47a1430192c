import RivetLink.Foundation.Raster
import RivetLink.Sdk.LanMessages

/-!
# The tile-delta encoder

`TileEncoder.push` cuts a captured frame into tiles, compares them with the frame that was queued
last and queues the tiles that changed, or all of them in a keyframe; `TileEncoder.heartbeat` queues
a delta without tiles when nothing was queued for a while. What the queue answers is an argument.

A client keeps a `Canvas` and paints the tiles of each delta it gets (`applyDelta`). The main lemma
is `shows_applyDelta`: if a delta is a keyframe, or the client shows the frame that the encoder
compared with, then the client shows the new frame afterwards.

A `TileCodec` turns the pixels of a tile into a text and back without loss.
-/

namespace RivetLink.Agent

open List RivetLink.Foundation RivetLink.Sdk

def tileEdge : Nat := 128

def keyframeInterval : Nat := 160

def heartbeatMillis : Nat := 1000

/-- Lossless encoding of tiles that does not fail. -/
structure TileCodec where
  encode : (quality : UInt8) → (w h : Nat) → Bytes → Str
  decode : Str → Option Bytes
  decode_encode : ∀ quality w h b, b.length ≤ tileEdge * (tileEdge * 4) →
    decode (encode quality w h b) = some b

/-- A captured frame, four bytes a pixel. -/
structure RawFrame where
  w : Nat
  h : Nat
  data : Bytes
  deriving DecidableEq

namespace RawFrame

def malformed (f : RawFrame) : Bool := f.w = 0 || f.h = 0 || f.data.length < f.w * f.h * 4

def columns (f : RawFrame) : Nat := divCeil f.w tileEdge

def rows (f : RawFrame) : Nat := divCeil f.h tileEdge

def pixel (f : RawFrame) (x y : Nat) : Bytes := cell 4 f.w f.data x y

/-- Both sides fit 32 bits, and so does the number of tiles. -/
def Sized (f : RawFrame) : Prop := f.w < 2 ^ 32 ∧ f.h < 2 ^ 32 ∧ f.columns * f.rows ≤ 2 ^ 32 - 1

instance (f : RawFrame) : Decidable f.Sized := by
  unfold Sized
  infer_instance

end RawFrame

/-- A number that does not fit is sent as zero. -/
def u32OrZero (n : Nat) : UInt32 := if n < 2 ^ 32 then UInt32.ofNat n else 0

/-- Whether a rectangle of two frames of one width differs. -/
def tileDiffers (cur prev : Bytes) (fw : Nat) (r : Rect) : Bool :=
  (List.range r.h).any fun row => rowIn 4 fw r cur row ≠ rowIn 4 fw r prev row

/-- Whether a tile is sent. -/
def tileChanged (keyframe : Bool) (prev : Option RawFrame) (f : RawFrame) (r : Rect) : Bool :=
  keyframe || prev.all fun p => tileDiffers f.data p.data f.w r

inductive SendOutcome where
  | ok
  | full
  | closed
  deriving DecidableEq, Repr

structure TileEncoder where
  prev : Option RawFrame
  counter : UInt32
  /-- When the last delta was queued, in milliseconds. -/
  lastSent : Nat

namespace TileEncoder

variable (C : TileCodec)

def new (now : Nat) : TileEncoder := ⟨none, 0, now⟩

def dimsChanged (s : TileEncoder) (f : RawFrame) : Bool :=
  s.prev.all fun p => p.w ≠ f.w || p.h ≠ f.h

def keyframe (s : TileEncoder) (f : RawFrame) : Bool :=
  s.dimsChanged f || s.counter.toNat % keyframeInterval = 0

def patch (keyframe : Bool) (prev : Option RawFrame) (f : RawFrame) (quality : UInt8)
    (p : Nat × Nat) : Option TilePatch :=
  if tileChanged keyframe prev f (tileIn tileEdge f.w f.h p.1 p.2) then
    some ⟨u32OrZero (p.2 * f.columns + p.1),
      C.encode quality (tileIn tileEdge f.w f.h p.1 p.2).w (tileIn tileEdge f.w f.h p.1 p.2).h
        (crop 4 f.w (tileIn tileEdge f.w f.h p.1 p.2) f.data)⟩
  else none

/-- The tiles of a frame that are sent, row by row. -/
def patches (keyframe : Bool) (prev : Option RawFrame) (f : RawFrame) (quality : UInt8) :
    List TilePatch :=
  (grid f.columns f.rows).filterMap (patch C keyframe prev f quality)

def frameDelta (keyframe : Bool) (f : RawFrame) (tiles : List TilePatch) : FrameDelta :=
  ⟨u32OrZero f.w, u32OrZero f.h, u32OrZero tileEdge, keyframe, tiles⟩

/-- `push` up to the attempt to queue: the delta that is to be queued, if any. -/
def compose (s : TileEncoder) (f : RawFrame) (quality : UInt8) (now : Nat) :
    TileEncoder × Option FrameDelta :=
  if f.malformed then (s, none)
  else
    let tiles := patches C (s.keyframe f) s.prev f quality
    ({ s with counter := s.counter + 1 },
      if tiles.isEmpty && !s.keyframe f && now - s.lastSent < heartbeatMillis then none
      else some (frameDelta (s.keyframe f) f tiles))

/-- The encoder, the delta that was queued, and whether to go on. -/
def push (s : TileEncoder) (f : RawFrame) (quality : UInt8) (now : Nat) (outcome : SendOutcome) :
    TileEncoder × Option FrameDelta × Bool :=
  match s.compose C f quality now with
  | (s, none) => (s, none, true)
  | (s, some delta) =>
    match outcome with
    | .ok => ({ s with lastSent := now, prev := some f }, some delta, true)
    | .full => (s, none, true)
    | .closed => (s, none, false)

def heartbeat (s : TileEncoder) (now : Nat) (outcome : SendOutcome) :
    TileEncoder × Option FrameDelta × Bool :=
  match s.prev with
  | none => (s, none, true)
  | some p =>
    if now - s.lastSent < heartbeatMillis then (s, none, true)
    else
      match outcome with
      | .ok => ({ s with lastSent := now }, some (frameDelta false p []), true)
      | .full => (s, none, true)
      | .closed => (s, none, false)

end TileEncoder

/-! ## The client -/

structure Canvas where
  w : Nat
  h : Nat
  picture : Picture Bytes

def Canvas.Shows (c : Canvas) (f : RawFrame) : Prop :=
  c.w = f.w ∧ c.h = f.h ∧ ∀ x y, x < f.w → y < f.h → c.picture x y = f.pixel x y

section Client

variable (C : TileCodec)

/-- The painting of a patch. A tile that cannot be decoded is not painted. -/
def painting (delta : FrameDelta) (t : TilePatch) : Option (Rect × Picture Bytes) :=
  (C.decode t.jpegB64).map fun buf =>
    (tileAt delta.tile.toNat delta.w.toNat delta.h.toNat t.i.toNat, fun x y =>
      cell 4 (tileAt delta.tile.toNat delta.w.toNat delta.h.toNat t.i.toNat).w buf
        (x - (tileAt delta.tile.toNat delta.w.toNat delta.h.toNat t.i.toNat).x)
        (y - (tileAt delta.tile.toNat delta.w.toNat delta.h.toNat t.i.toNat).y))

/-- What is painted over: the picture of the same size, or nothing. -/
def ground (c : Option Canvas) (delta : FrameDelta) : Picture Bytes :=
  match c with
  | none => fun _ _ => []
  | some c => if c.w = delta.w.toNat ∧ c.h = delta.h.toNat then c.picture else fun _ _ => []

def applyDelta (c : Option Canvas) (delta : FrameDelta) : Canvas :=
  ⟨delta.w.toNat, delta.h.toNat,
    (delta.tiles.filterMap (painting C delta)).foldl paint (ground c delta)⟩

def applyAll (deltas : List FrameDelta) : Option Canvas :=
  deltas.foldl (fun c delta => some (applyDelta C c delta)) none

theorem applyAll_concat (deltas : List FrameDelta) (delta : FrameDelta) :
    applyAll C (deltas ++ [delta]) = some (applyDelta C (applyAll C deltas) delta) := by
  simp [applyAll]

end Client

/-! ## One delta -/

section Delta

variable {C : TileCodec} {f p : RawFrame} {keyframe : Bool} {prev : Option RawFrame}
  {quality : UInt8} {r : Rect} {x y : Nat} {t : TilePatch}

theorem toNat_u32OrZero {n : Nat} (h : n < 2 ^ 32) : (u32OrZero n).toNat = n := by
  unfold u32OrZero
  rw [if_pos h]
  exact UInt32.toNat_ofNat_of_lt' h

theorem le_length_of_wellFormed (h : f.malformed = false) : f.w * f.h * 4 ≤ f.data.length := by
  simp only [RawFrame.malformed, Bool.or_eq_false_iff, decide_eq_false_iff_not] at h
  exact Nat.le_of_not_lt h.2

/-- A rectangle without a difference has the same pixels in both frames. -/
theorem pixel_eq_of_not_differs (hwidth : p.w = f.w) (h : tileDiffers f.data p.data f.w r = false)
    (hcovers : r.Covers x y) : p.pixel x y = f.pixel x y := by
  obtain ⟨⟨hx, hx'⟩, hy, hy'⟩ := hcovers
  obtain ⟨dx, rfl⟩ := Nat.exists_eq_add_of_le hx
  obtain ⟨dy, rfl⟩ := Nat.exists_eq_add_of_le hy
  have hdx : dx < r.w := by omega
  have hdy : dy < r.h := by omega
  have hrow : rowIn 4 f.w r f.data dy = rowIn 4 f.w r p.data dy := by
    have hall := any_eq_false.1 h dy (mem_range.2 hdy)
    simpa using hall
  unfold RawFrame.pixel
  rw [hwidth, cell_eq_rowIn hdx, cell_eq_rowIn hdx, hrow]

/-- What the patches of a frame are. -/
theorem mem_patches (h : t ∈ TileEncoder.patches C keyframe prev f quality) :
    ∃ column row, column < f.columns ∧ row < f.rows ∧
      tileChanged keyframe prev f (tileIn tileEdge f.w f.h column row) = true ∧
      TileEncoder.patch C keyframe prev f quality (column, row) = some t := by
  obtain ⟨⟨column, row⟩, hmem, ht⟩ := mem_filterMap.1 h
  obtain ⟨hcolumn, hrow⟩ := mem_grid.1 hmem
  refine ⟨column, row, hcolumn, hrow, ?_, ht⟩
  unfold TileEncoder.patch at ht
  split_ifs at ht with hchanged
  exact hchanged

/-- The size of a delta is that of its frame. -/
theorem toNat_frameDelta (keyframe : Bool) (hsized : f.Sized) (tiles : List TilePatch) :
    (TileEncoder.frameDelta keyframe f tiles).w.toNat = f.w ∧
      (TileEncoder.frameDelta keyframe f tiles).h.toNat = f.h ∧
      (TileEncoder.frameDelta keyframe f tiles).tile.toNat = tileEdge :=
  ⟨toNat_u32OrZero hsized.1, toNat_u32OrZero hsized.2.1, rfl⟩

theorem index_lt {column row : Nat} (hcolumn : column < f.columns) (hrow : row < f.rows) :
    row * f.columns + column < f.columns * f.rows := by
  calc row * f.columns + column < (row + 1) * f.columns := by
        rw [Nat.succ_mul]
        omega
    _ ≤ f.rows * f.columns := Nat.mul_le_mul_right _ hrow
    _ = f.columns * f.rows := Nat.mul_comm _ _

/-- The index of a patch is the place of its tile. -/
theorem toNat_index (hsized : f.Sized) {column row : Nat} (hcolumn : column < f.columns)
    (hrow : row < f.rows)
    (ht : TileEncoder.patch C keyframe prev f quality (column, row) = some t) :
    t.i.toNat = row * f.columns + column := by
  unfold TileEncoder.patch at ht
  split_ifs at ht
  cases ht
  have hlt : row * f.columns + column < 2 ^ 32 := by
    have hcount := hsized.2.2
    have hindex := index_lt hcolumn hrow
    omega
  exact toNat_u32OrZero hlt

/-- A client that paints a patch paints the pixels of the frame. -/
theorem painting_patch (hwell : f.malformed = false) (hsized : f.Sized) {column row : Nat}
    (hcolumn : column < f.columns) (hrow : row < f.rows) (tiles : List TilePatch)
    (ht : TileEncoder.patch C keyframe prev f quality (column, row) = some t) :
    ∃ g, painting C (TileEncoder.frameDelta keyframe f tiles) t =
        some (tileIn tileEdge f.w f.h column row, g) ∧
      ∀ x y, (tileIn tileEdge f.w f.h column row).Covers x y → g x y = f.pixel x y := by
  obtain ⟨hw, hh, hedge⟩ := toNat_frameDelta keyframe hsized tiles
  have hindex := toNat_index hsized hcolumn hrow ht
  have hpos : 0 < tileEdge := by decide
  obtain ⟨hright, hbottom⟩ := tileIn_bounds (mul_lt_of_lt_divCeil hpos hcolumn)
    (mul_lt_of_lt_divCeil hpos hrow)
  have hdecode : C.decode t.jpegB64 =
      some (crop 4 f.w (tileIn tileEdge f.w f.h column row) f.data) := by
    unfold TileEncoder.patch at ht
    split_ifs at ht
    cases ht
    refine C.decode_encode _ _ _ _ ((length_crop_le _ _).trans ?_)
    exact Nat.mul_le_mul (Nat.min_le_left _ _) (Nat.mul_le_mul_right _ (Nat.min_le_left _ _))
  refine ⟨fun x y => cell 4 (tileIn tileEdge f.w f.h column row).w
    (crop 4 f.w (tileIn tileEdge f.w f.h column row) f.data)
    (x - (tileIn tileEdge f.w f.h column row).x) (y - (tileIn tileEdge f.w f.h column row).y),
    ?_, ?_⟩
  · unfold painting
    rw [hdecode, hw, hh, hedge, hindex, RawFrame.columns, tileAt_eq hcolumn]
    rfl
  · rintro x y ⟨⟨hx, hx'⟩, hy, hy'⟩
    have hdx : x - (tileIn tileEdge f.w f.h column row).x <
        (tileIn tileEdge f.w f.h column row).w := by omega
    have hdy : y - (tileIn tileEdge f.w f.h column row).y <
        (tileIn tileEdge f.w f.h column row).h := by omega
    have hcell := cell_crop hright hbottom (le_length_of_wellFormed hwell) hdx hdy
    rw [Nat.add_sub_cancel' hx, Nat.add_sub_cancel' hy] at hcell
    exact hcell

/-- A client that gets all tiles, or shows the frame that the encoder compared with, shows the new
frame afterwards. -/
theorem shows_applyDelta (hwell : f.malformed = false) (hsized : f.Sized) {c : Option Canvas}
    (hknown : keyframe = true ∨ ∃ p canvas, prev = some p ∧ c = some canvas ∧ canvas.Shows p ∧
      p.w = f.w ∧ p.h = f.h) :
    (applyDelta C c (TileEncoder.frameDelta keyframe f
      (TileEncoder.patches C keyframe prev f quality))).Shows f := by
  obtain ⟨hw, hh, -⟩ := toNat_frameDelta keyframe hsized
    (TileEncoder.patches C keyframe prev f quality)
  have hpos : 0 < tileEdge := by decide
  refine ⟨hw, hh, fun x y hx hy => foldl_paint_eq ?_ ?_⟩
  · -- every painting that covers the pixel is right
    intro q hq hcovers
    obtain ⟨t, ht, hpaint⟩ := mem_filterMap.1 hq
    obtain ⟨column, row, hcolumn, hrow, -, hpatch⟩ := mem_patches ht
    obtain ⟨g, hg, hright⟩ := painting_patch hwell hsized hcolumn hrow _ hpatch
    cases hpaint.symm.trans hg
    exact hright x y hcovers
  · -- the tile of the pixel was painted, or did not have to be
    have hcolumn : x / tileEdge < f.columns := div_lt_divCeil hpos hx
    have hrow : y / tileEdge < f.rows := div_lt_divCeil hpos hy
    have hcovers : (tileIn tileEdge f.w f.h (x / tileEdge) (y / tileEdge)).Covers x y :=
      (covers_tileIn hpos hx hy).2 ⟨rfl, rfl⟩
    cases hchanged : tileChanged keyframe prev f
        (tileIn tileEdge f.w f.h (x / tileEdge) (y / tileEdge)) with
    | true =>
      right
      obtain ⟨t, ht⟩ : ∃ t, TileEncoder.patch C keyframe prev f quality
          (x / tileEdge, y / tileEdge) = some t := ⟨_, if_pos hchanged⟩
      obtain ⟨g, hg, -⟩ := painting_patch hwell hsized hcolumn hrow _ ht
      exact ⟨_, mem_filterMap.2 ⟨t, mem_filterMap.2
        ⟨(x / tileEdge, y / tileEdge), mem_grid.2 ⟨hcolumn, hrow⟩, ht⟩, hg⟩, hcovers⟩
    | false =>
      left
      obtain ⟨hkey, hsame⟩ := Bool.or_eq_false_iff.1 hchanged
      obtain hkey' | ⟨p, canvas, rfl, rfl, ⟨hcw, hch, hshows⟩, hpw, hph⟩ := hknown
      · rw [hkey'] at hkey
        cases hkey
      · have hground : ground (some canvas) (TileEncoder.frameDelta keyframe f
            (TileEncoder.patches C keyframe (some p) f quality)) = canvas.picture :=
          if_pos ⟨by rw [hcw, hpw, hw], by rw [hch, hph, hh]⟩
        rw [hground, hshows x y (by omega) (by omega)]
        exact pixel_eq_of_not_differs hpw hsame hcovers

/-- The indices of a delta, in order. -/
theorem indices_sublist (C : TileCodec) (keyframe : Bool) (prev : Option RawFrame)
    (quality : UInt8) (hsized : f.Sized) :
    ((TileEncoder.patches C keyframe prev f quality).map fun t => t.i.toNat).Sublist
        (List.range (f.columns * f.rows)) ∧
      (keyframe = true → ((TileEncoder.patches C keyframe prev f quality).map fun t => t.i.toNat) =
        List.range (f.columns * f.rows)) := by
  have hmap : ∀ l : List (Nat × Nat), (∀ p ∈ l, p.1 < f.columns ∧ p.2 < f.rows) →
      ((l.filterMap (TileEncoder.patch C keyframe prev f quality)).map fun t => t.i.toNat) =
        (l.filter fun p => tileChanged keyframe prev f (tileIn tileEdge f.w f.h p.1 p.2)).map
          fun p => p.2 * f.columns + p.1 := by
    intro l hl
    induction l with
    | nil => rfl
    | cons p l ih =>
      have hp := hl p mem_cons_self
      have hrest := ih fun q hq => hl q (mem_cons_of_mem p hq)
      cases hchanged : tileChanged keyframe prev f (tileIn tileEdge f.w f.h p.1 p.2) with
      | true =>
        obtain ⟨t, ht⟩ : ∃ t, TileEncoder.patch C keyframe prev f quality p = some t :=
          ⟨_, if_pos hchanged⟩
        have hindex := toNat_index hsized hp.1 hp.2 ht
        rw [filterMap_cons_some ht, filter_cons, if_pos hchanged, map_cons,
          map_cons, hrest, hindex]
      | false =>
        have hnot : ¬ tileChanged keyframe prev f (tileIn tileEdge f.w f.h p.1 p.2) = true := by
          rw [hchanged]
          decide
        have ht : TileEncoder.patch C keyframe prev f quality p = none := if_neg hnot
        rw [filterMap_cons_none ht, filter_cons, if_neg hnot, hrest]
  have hrange : (grid f.columns f.rows).map (fun p => p.2 * f.columns + p.1) =
      List.range (f.columns * f.rows) := by
    rw [map_grid, Nat.mul_comm]
  unfold TileEncoder.patches
  rw [hmap _ fun p hp => mem_grid.1 hp, ← hrange]
  refine ⟨List.Sublist.map _ filter_sublist, ?_⟩
  rintro rfl
  exact congrArg _ (filter_eq_self.2 fun p _ => rfl)

end Delta

end RivetLink.Agent
