import Mathlib.Data.List.Basic

/-!
# Tiles of a raster

A frame of `w` by `h` cells is cut into square tiles of edge `e`, row by row; the last tile of a row
or column may be smaller. `tile_partition` says that every cell lies in exactly one tile.

A picture gives a value to every cell. `paint` copies a rectangle from one picture to another;
`foldl_paint_eq` says what a cell shows after a list of paintings.

A raster is a picture stored as a list, `size` entries a cell, row after row. `crop` copies the rows
of a rectangle into a raster of their own, and `cell_crop` says that it has the cells of the
rectangle.
-/

namespace RivetLink.Foundation

open List

/-! ## Tiles -/

structure Rect where
  x : Nat
  y : Nat
  w : Nat
  h : Nat
  deriving DecidableEq, Repr

/-- The cell lies in the rectangle. -/
def Rect.Covers (r : Rect) (x y : Nat) : Prop :=
  (r.x ≤ x ∧ x < r.x + r.w) ∧ r.y ≤ y ∧ y < r.y + r.h

instance (r : Rect) (x y : Nat) : Decidable (r.Covers x y) := by
  unfold Rect.Covers
  infer_instance

/-- The number of tiles of edge `e` that cover a length. -/
def divCeil (n e : Nat) : Nat := (n + e - 1) / e

def tileIn (e w h column row : Nat) : Rect :=
  ⟨column * e, row * e, min e (w - column * e), min e (h - row * e)⟩

/-- The tile of an index, row by row. -/
def tileAt (e w h i : Nat) : Rect := tileIn e w h (i % divCeil w e) (i / divCeil w e)

/-- The columns of all tiles, row by row. -/
def grid (columns rows : Nat) : List (Nat × Nat) :=
  (List.range rows).flatMap fun row => (List.range columns).map fun column => (column, row)

section Tiles

variable {e w h x y column row i : Nat}

theorem div_lt_divCeil (he : 0 < e) (hx : x < w) : x / e < divCeil w e := by
  unfold divCeil
  rw [Nat.div_lt_iff_lt_mul he]
  have hround := Nat.div_add_mod (w + e - 1) e
  have hmod := Nat.mod_lt (w + e - 1) he
  rw [Nat.mul_comm]
  omega

theorem mul_lt_of_lt_divCeil (he : 0 < e) (h : column < divCeil w e) : column * e < w := by
  unfold divCeil at h
  have hle : (column + 1) * e ≤ w + e - 1 := (Nat.le_div_iff_mul_le he).1 h
  rw [Nat.add_mul] at hle
  omega

/-- A cell of the frame lies in the tile of its quotients. -/
theorem covers_tileIn (he : 0 < e) (hx : x < w) (hy : y < h) :
    (tileIn e w h column row).Covers x y ↔ x / e = column ∧ y / e = row := by
  have haxis : ∀ {n z k : Nat}, z < n →
      (k * e ≤ z ∧ z < k * e + min e (n - k * e) ↔ z / e = k) := by
    intro n z k hz
    rw [Nat.div_eq_iff he]
    omega
  exact and_congr (haxis hx) (haxis hy)

theorem tileAt_eq (hcolumn : column < divCeil w e) :
    tileAt e w h (row * divCeil w e + column) = tileIn e w h column row := by
  have hpos : 0 < divCeil w e := by omega
  unfold tileAt
  rw [Nat.add_comm, Nat.add_mul_mod_self_right, Nat.mod_eq_of_lt hcolumn,
    Nat.add_mul_div_right _ _ hpos, Nat.div_eq_of_lt hcolumn, Nat.zero_add]

/-- Every cell lies in exactly one tile. -/
theorem tile_partition (he : 0 < e) (hx : x < w) (hy : y < h) :
    ∃ i, (i < divCeil w e * divCeil h e ∧ (tileAt e w h i).Covers x y) ∧
      ∀ j, (tileAt e w h j).Covers x y → j = i := by
  have hcolumn := div_lt_divCeil he hx
  have hrow := div_lt_divCeil he hy
  refine ⟨y / e * divCeil w e + x / e, ⟨?_, ?_⟩, ?_⟩
  · calc y / e * divCeil w e + x / e < (y / e + 1) * divCeil w e := by
          rw [Nat.add_mul]
          omega
      _ ≤ divCeil h e * divCeil w e := Nat.mul_le_mul_right _ hrow
      _ = divCeil w e * divCeil h e := Nat.mul_comm _ _
  · rw [tileAt_eq hcolumn, covers_tileIn he hx hy]
    exact ⟨rfl, rfl⟩
  · intro j hj
    obtain ⟨hmod, hdiv⟩ := (covers_tileIn he hx hy).1 hj
    rw [hmod, hdiv, Nat.mul_comm, Nat.div_add_mod]

/-- The tile of an index lies in the frame. -/
theorem tileIn_bounds (hcolumn : column * e < w) (hrow : row * e < h) :
    (tileIn e w h column row).x + (tileIn e w h column row).w ≤ w ∧
      (tileIn e w h column row).y + (tileIn e w h column row).h ≤ h := by
  simp only [tileIn]
  omega

/-- Row by row, the tiles are counted without a gap. -/
theorem map_grid (columns rows : Nat) :
    (grid columns rows).map (fun p => p.2 * columns + p.1) = List.range (rows * columns) := by
  induction rows with
  | zero => simp [grid]
  | succ rows ih =>
    unfold grid at ih ⊢
    rw [range_succ, flatMap_append, map_append, ih, Nat.add_mul, Nat.one_mul,
      range_add]
    simp [Function.comp_def]

theorem mem_grid {columns rows : Nat} {p : Nat × Nat} :
    p ∈ grid columns rows ↔ p.1 < columns ∧ p.2 < rows := by
  obtain ⟨column, row⟩ := p
  simp only [grid, mem_flatMap, mem_map, mem_range, Prod.mk.injEq]
  constructor
  · rintro ⟨_, hrow, _, hcolumn, rfl, rfl⟩
    exact ⟨hcolumn, hrow⟩
  · rintro ⟨hcolumn, hrow⟩
    exact ⟨row, hrow, column, hcolumn, rfl, rfl⟩

end Tiles

/-! ## Pictures -/

/-- A value for every cell. -/
abbrev Picture (α : Type) := Nat → Nat → α

/-- Copy a rectangle from one picture to another. -/
def paint {α : Type} (onto : Picture α) (p : Rect × Picture α) : Picture α := fun x y =>
  if p.1.Covers x y then p.2 x y else onto x y

/-- A cell that has a value, or gets it from one painting and no other from any, has it in the
end. -/
theorem foldl_paint_eq {α : Type} {v : α} {x y : Nat} {ps : List (Rect × Picture α)}
    {onto : Picture α} (hall : ∀ p ∈ ps, p.1.Covers x y → p.2 x y = v)
    (hsome : onto x y = v ∨ ∃ p ∈ ps, p.1.Covers x y) : ps.foldl paint onto x y = v := by
  induction ps generalizing onto with
  | nil => exact hsome.resolve_right (by simp)
  | cons p ps ih =>
    have hp := hall p mem_cons_self
    refine ih (fun q hq => hall q (mem_cons_of_mem p hq)) ?_
    by_cases hcovers : p.1.Covers x y
    · exact .inl ((if_pos hcovers).trans (hp hcovers))
    · rcases hsome with honto | ⟨q, hq, hcover⟩
      · exact .inl ((if_neg hcovers).trans honto)
      · rcases mem_cons.1 hq with rfl | hq
        · exact absurd hcover hcovers
        · exact .inr ⟨q, hq, hcover⟩

/-! ## Rasters -/

section Rasters

variable {α : Type} (size width : Nat)

def cell (data : List α) (x y : Nat) : List α := (data.drop ((y * width + x) * size)).take size

def rowIn (r : Rect) (data : List α) (row : Nat) : List α :=
  (data.drop (((r.y + row) * width + r.x) * size)).take (r.w * size)

def crop (r : Rect) (data : List α) : List α := (List.range r.h).flatMap (rowIn size width r data)

variable {size width} {r : Rect} {data : List α} {dx dy height : Nat}

/-- The cells of a row. -/
theorem cell_eq_rowIn (hdx : dx < r.w) : cell size width data (r.x + dx) (r.y + dy) =
    ((rowIn size width r data dy).drop (dx * size)).take size := by
  have hfit : size ≤ r.w * size - dx * size := by
    rw [← Nat.sub_mul]
    exact Nat.le_mul_of_pos_left size (by omega)
  have hstart : ((r.y + dy) * width + r.x) * size + dx * size =
      ((r.y + dy) * width + (r.x + dx)) * size := by
    rw [← Nat.add_mul, Nat.add_assoc]
  unfold cell rowIn
  rw [drop_take, take_take, drop_drop, hstart, Nat.min_eq_left hfit]

theorem length_rowIn (hw : r.x + r.w ≤ width) (hrow : r.y + dy < height)
    (hdata : width * height * size ≤ data.length) :
    (rowIn size width r data dy).length = r.w * size := by
  have hend : ((r.y + dy) * width + r.x) * size + r.w * size ≤ data.length := by
    calc ((r.y + dy) * width + r.x) * size + r.w * size
        = ((r.y + dy) * width + (r.x + r.w)) * size := by rw [← Nat.add_mul, Nat.add_assoc]
      _ ≤ ((r.y + dy + 1) * width) * size := by
          refine Nat.mul_le_mul_right _ ?_
          rw [Nat.succ_mul]
          omega
      _ ≤ (height * width) * size := Nat.mul_le_mul_right _ (Nat.mul_le_mul_right _ hrow)
      _ ≤ data.length := by rwa [Nat.mul_comm height]
  unfold rowIn
  rw [length_take, length_drop]
  omega

theorem length_crop_le (r : Rect) (data : List α) :
    (crop size width r data).length ≤ r.h * (r.w * size) := by
  have hrows : ∀ l : List Nat,
      (l.flatMap (rowIn size width r data)).length ≤ l.length * (r.w * size) := by
    intro l
    induction l with
    | nil => simp
    | cons row l ih =>
      have hrow : (rowIn size width r data row).length ≤ r.w * size := length_take_le _ _
      rw [flatMap_cons, length_append, length_cons, Nat.succ_mul]
      omega
  have h := hrows (List.range r.h)
  rwa [length_range] at h

/-- Blocks of one length: the blocks after the first `k`. -/
theorem drop_flatMap_mul {β : Type} {f : β → List α} {l : List β} {len : Nat}
    (h : ∀ b ∈ l, (f b).length = len) (k : Nat) :
    (l.flatMap f).drop (k * len) = (l.drop k).flatMap f := by
  induction l generalizing k with
  | nil => simp
  | cons b l ih =>
    cases k with
    | zero => simp
    | succ k =>
      have hb := h b mem_cons_self
      rw [flatMap_cons, Nat.add_mul, Nat.one_mul, Nat.add_comm, ← drop_drop,
        drop_left' hb, ih fun c hc => h c (mem_cons_of_mem b hc),
        drop_succ_cons]

/-- The cells of a rectangle that was cut out. -/
theorem cell_crop (hw : r.x + r.w ≤ width) (hh : r.y + r.h ≤ height)
    (hdata : width * height * size ≤ data.length) (hdx : dx < r.w) (hdy : dy < r.h) :
    cell size r.w (crop size width r data) dx dy =
      cell size width data (r.x + dx) (r.y + dy) := by
  have hrows : ∀ row ∈ List.range r.h, (rowIn size width r data row).length = r.w * size := by
    intro row hrow
    have hlt := mem_range.1 hrow
    exact length_rowIn hw (by omega) hdata
  have hrow := hrows dy (mem_range.2 hdy)
  have hfit : size ≤ (rowIn size width r data dy).length - dx * size := by
    rw [hrow, ← Nat.sub_mul]
    exact Nat.le_mul_of_pos_left size (by omega)
  have hstart : (dy * r.w + dx) * size = dy * (r.w * size) + dx * size := by
    rw [Nat.add_mul, Nat.mul_assoc]
  have hdrop : (List.range r.h).drop dy = dy :: (List.range r.h).drop (dy + 1) := by
    rw [drop_eq_getElem_cons (by simpa using hdy), getElem_range]
  rw [cell_eq_rowIn hdx]
  unfold cell crop
  rw [hstart, ← drop_drop, drop_flatMap_mul hrows, hdrop, flatMap_cons,
    drop_append_of_le_length (by rw [hrow]; exact Nat.mul_le_mul_right _ (Nat.le_of_lt hdx)),
    take_append_of_le_length (by rw [length_drop]; exact hfit)]

end Rasters

end RivetLink.Foundation
