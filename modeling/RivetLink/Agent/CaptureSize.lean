import Mathlib.Algebra.Order.Field.Rat
import Mathlib.Tactic.FieldSimp
import Mathlib.Tactic.Linarith
import RivetLink.Agent.H264Encoder

/-!
# The size of a captured screen

`fit_output` scales a monitor into the 1920x1080 box, turned upright for a portrait screen, first to
the width and then to the height, in integers. The two divisions round down one after the other, and
then each side is made even. `Near` says how far a side is from a fraction before it is made even;
`near_fitBox` compares both sides with the monitor scaled by the exact ratio.
-/

namespace RivetLink.Agent

def maxW : Nat := 1920

def maxH : Nat := 1080

/-- The size for a monitor whose resolution is unknown. -/
def fallbackW : Nat := 1280

def fallbackH : Nat := 720

/-- The box for a monitor of this size. -/
def outputBox (srcW srcH : Nat) : Nat × Nat :=
  if srcW < srcH then (maxH, maxW) else (maxW, maxH)

/-- A side scaled by `m / n`, in `u64`. -/
def scaledSide (side m n : Nat) : Nat := side * m % 2 ^ 64 / n

/-- Shrink a side to its bound, and the other side by the same ratio; `spare` stands in for a value
that is no `u32`. -/
def shrinkSide (bound side other spare : Nat) : Nat × Nat :=
  if bound < side then
    let scaled := scaledSide other bound side
    (bound, if scaled < 2 ^ 32 then scaled else spare)
  else (side, other)

/-- `(v & !1).max(2)`. -/
def evenSide (v : Nat) : Nat := max (v / 2 * 2) 2

/-- The size in the box, before the sides are made even. -/
def fitBox (box : Nat × Nat) (srcW srcH : Nat) : Nat × Nat :=
  let (w, h) := shrinkSide box.1 srcW srcH box.2
  (shrinkSide box.2 h w box.1).swap

def fitOutput (srcW srcH : Nat) : Nat × Nat :=
  if srcW = 0 ∨ srcH = 0 then (fallbackW, fallbackH)
  else
    let size := fitBox (outputBox srcW srcH) srcW srcH
    (evenSide size.1, evenSide size.2)

/-- `(w & !7).max(8)`. -/
def i420Width (w : Nat) : Nat := max (w / 8 * 8) 8

/-! ## The exact size -/

/-- The ratio by which a monitor has to be scaled to fit the box. -/
def fitRatio (box : Nat × Nat) (srcW srcH : Nat) : ℚ := min 1 (min (box.1 / srcW) (box.2 / srcH))

/-- A row of `n` bytes, padded to 4 bytes. -/
def paddedRow (n : Nat) : Nat := (n + 3) / 4 * 4

/-- The bytes of an I420 frame with padded rows: one plane of full size and two of half the size. -/
def i420PaddedLen (w h : Nat) : Nat :=
  paddedRow w * h + 2 * (paddedRow ((w + 1) / 2) * ((h + 1) / 2))

/-- `v` is more than `n / d - 1` and less than `n / d + 2`. -/
def Near (v n d : Nat) : Prop := n < (v + 1) * d ∧ v * d < n + 2 * d

theorem near_self {v d : Nat} (hd : 0 < d) : Near v (v * d) d := by
  constructor <;> nlinarith

theorem near_div {n d : Nat} (hd : 0 < d) : Near (n / d) n d := by
  have hle := Nat.div_mul_le_self n d
  have hlt := Nat.lt_div_mul_add (a := n) hd
  constructor <;> nlinarith

/-- Made even, a side that is near the exact one is less than two pixels away. -/
theorem Near.abs_evenSide {v n d : Nat} (h : Near v n d) (hn : 0 < n) (hd : 0 < d) :
    |(evenSide v : ℚ) - n / d| < 2 := by
  have hd' : (0 : ℚ) < d := by exact_mod_cast hd
  have hlow : n < (2 + evenSide v) * d := by
    have hle : v + 1 ≤ 2 + evenSide v := by unfold evenSide; omega
    exact Nat.lt_of_lt_of_le h.1 (Nat.mul_le_mul_right d hle)
  have hup : evenSide v * d < n + 2 * d := by
    by_cases hv : v < 2
    · have htwo : evenSide v = 2 := by unfold evenSide; omega
      rw [htwo]
      omega
    · have hle : evenSide v ≤ v := by unfold evenSide; omega
      exact Nat.lt_of_le_of_lt (Nat.mul_le_mul_right d hle) h.2
  have hup' : (evenSide v : ℚ) * d < n + 2 * d := by exact_mod_cast hup
  have hbelow : (evenSide v - 2 : ℚ) < n / d := by
    rw [lt_div_iff₀ hd']
    linarith
  have habove : (n / d : ℚ) < 2 + evenSide v := by
    rw [div_lt_iff₀ hd']
    exact_mod_cast hlow
  exact abs_sub_lt_iff.2 ⟨by linarith, by linarith⟩

/-! ## Shrinking -/

section Shrink

variable {bound side other spare : Nat}

theorem scaledSide_eq (hother : other < 2 ^ 32) (hbound : bound < 2 ^ 32) :
    scaledSide other bound side = other * bound / side := by
  have hlt : other * bound < 2 ^ 64 := by nlinarith
  rw [scaledSide, Nat.mod_eq_of_lt hlt]

/-- A side that is shrunk stays a `u32`. -/
theorem scaledSide_lt (hother : other < 2 ^ 32) (hbound : bound < 2 ^ 32) (hlt : bound < side) :
    scaledSide other bound side < 2 ^ 32 := by
  rw [scaledSide_eq hother hbound]
  refine Nat.lt_of_le_of_lt (Nat.div_le_of_le_mul ?_) hother
  rw [Nat.mul_comm side]
  exact Nat.mul_le_mul_left other hlt.le

theorem shrinkSide_eq (hother : other < 2 ^ 32) (hbound : bound < 2 ^ 32) :
    shrinkSide bound side other spare =
      if bound < side then (bound, other * bound / side) else (side, other) := by
  unfold shrinkSide
  split
  · rename_i hlt
    dsimp only
    rw [if_pos (scaledSide_lt hother hbound hlt), scaledSide_eq hother hbound]
  · rfl

end Shrink

section Box

variable {a b w h : Nat} (hw : 0 < w) (hw' : w < 2 ^ 32) (hh : 0 < h) (hh' : h < 2 ^ 32)
    (ha : 0 < a)
  (ha' : a < 2 ^ 32) (hb : 0 < b) (hb' : b < 2 ^ 32)

include hw' hh' ha' hb' in
theorem fitBox_eq : fitBox (a, b) w h =
    if a < w then
      if b < h * a / w then (a * b / (h * a / w), b) else (a, h * a / w)
    else if b < h then (w * b / h, b) else (w, h) := by
  unfold fitBox
  dsimp only
  rw [shrinkSide_eq hh' ha']
  by_cases hlt : a < w
  · rw [if_pos hlt, if_pos hlt]
    dsimp only
    rw [shrinkSide_eq ha' hb']
    split <;> rfl
  · rw [if_neg hlt, if_neg hlt]
    dsimp only
    rw [shrinkSide_eq hw' hb']
    split <;> rfl

include hw hh in
/-- The height decides. -/
theorem fitRatio_height (hle : b ≤ h) (hcross : b * w ≤ a * h) : fitRatio (a, b) w h = b / h := by
  have hw₀ : (0 : ℚ) < w := by exact_mod_cast hw
  have hh₀ : (0 : ℚ) < h := by exact_mod_cast hh
  have hone : (b / h : ℚ) ≤ 1 := by
    rw [div_le_one₀ hh₀]
    exact_mod_cast hle
  have hless : (b / h : ℚ) ≤ a / w := by
    rw [div_le_div_iff₀ hh₀ hw₀]
    exact_mod_cast hcross
  rw [fitRatio, min_eq_right hless, min_eq_right hone]

include hw hh in
/-- The width decides. -/
theorem fitRatio_width (hle : a ≤ w) (hcross : a * h ≤ b * w) : fitRatio (a, b) w h = a / w := by
  rw [← fitRatio_height hh hw hle hcross, fitRatio, fitRatio]
  exact congrArg (min 1) (min_comm _ _)

include hw hw' hh hh' ha ha' hb hb' in
/-- Both sides are near the sides of the monitor scaled by the exact ratio, in a box that is at most
twice as wide as high. -/
theorem near_fitBox (hab : a ≤ 2 * b) :
    ∃ p q : Nat, 0 < p ∧ 0 < q ∧ fitRatio (a, b) w h = p / q ∧
      Near (fitBox (a, b) w h).1 (w * p) q ∧ Near (fitBox (a, b) w h).2 (h * p) q := by
  rw [fitBox_eq hw' hh' ha' hb']
  have hself : Near b (h * b) h := by
    rw [Nat.mul_comm h]
    exact near_self hh
  by_cases haw : a < w
  · -- the height that goes with the width of the box, rounded down
    have hlow := Nat.div_mul_le_self (h * a) w
    have hup := Nat.lt_div_mul_add (a := h * a) hw
    rw [if_pos haw]
    generalize h * a / w = h₁ at hlow hup
    by_cases hbh : b < h₁
    · rw [if_pos hbh]
      have hcross : b * w ≤ a * h := by nlinarith
      have hbh' : b ≤ h := by nlinarith
      refine ⟨b, h, hb, hh, fitRatio_height hw hh hbh' hcross, ?_, hself⟩
      have hlow' := Nat.div_mul_le_self (a * b) h₁
      have hup' := Nat.lt_div_mul_add (a := a * b) (Nat.lt_of_le_of_lt (Nat.zero_le b) hbh)
      dsimp only
      generalize a * b / h₁ = w₁ at hlow' hup'
      constructor <;> refine Nat.lt_of_mul_lt_mul_right (a := h₁) ?_
      · have hbelow := Nat.mul_le_mul_left b hlow
        have habove := Nat.mul_lt_mul_of_pos_left hup' hh
        linarith
      · -- the second division makes up for what the first has cut off, by less than two
        have hcut : b * w < 2 * h * h₁ := by
          refine Nat.lt_of_mul_lt_mul_right (a := h₁) ?_
          have hbelow := Nat.mul_le_mul_left b hlow
          have hwide := Nat.mul_le_mul_left (b * h) hab
          have hsquare := Nat.mul_lt_mul_of_pos_left (Nat.mul_self_lt_mul_self hbh) hh
          linarith
        have hbelow := Nat.mul_le_mul_left h hlow'
        have habove := Nat.mul_lt_mul_of_pos_left hup hb
        linarith
    · rw [if_neg hbh]
      by_cases hcross : a * h ≤ b * w
      · refine ⟨a, w, ha, hw, fitRatio_width hw hh haw.le hcross, ?_, ?_⟩
        · rw [Nat.mul_comm w]
          exact near_self hw
        · constructor <;> dsimp only <;> nlinarith
      · -- the exact height is above the box by less than one pixel
        have hcross' : b * w < a * h := Nat.not_le.1 hcross
        have hbh₁ : h₁ = b := by nlinarith
        have hwh : w < 2 * h := by nlinarith
        have hle : b ≤ h := by nlinarith
        refine ⟨b, h, hb, hh, fitRatio_height hw hh hle hcross'.le, ?_, hbh₁ ▸ hself⟩
        constructor <;> dsimp only <;> nlinarith
  · rw [if_neg haw]
    by_cases hbh : b < h
    · rw [if_pos hbh]
      have hcross : b * w ≤ a * h := by nlinarith
      exact ⟨b, h, hb, hh, fitRatio_height hw hh hbh.le hcross, near_div hh, hself⟩
    · rw [if_neg hbh]
      refine ⟨1, 1, Nat.one_pos, Nat.one_pos, ?_, near_self Nat.one_pos, near_self Nat.one_pos⟩
      have haw' : (1 : ℚ) ≤ a / w := by
        rw [one_le_div₀ (by exact_mod_cast hw)]
        exact_mod_cast Nat.not_lt.1 haw
      have hbh' : (1 : ℚ) ≤ b / h := by
        rw [one_le_div₀ (by exact_mod_cast hh)]
        exact_mod_cast Nat.not_lt.1 hbh
      rw [fitRatio, min_eq_left (le_min haw' hbh'), Nat.cast_one, div_one]

include hw hw' hh hh' ha' hb' in
/-- The size stays inside the monitor and the box. -/
theorem fitBox_le : (fitBox (a, b) w h).1 ≤ min w a ∧ (fitBox (a, b) w h).2 ≤ min h b := by
  rw [fitBox_eq hw' hh' ha' hb']
  split
  · rename_i haw
    have hle : h * a / w ≤ h := Nat.div_le_of_le_mul (by nlinarith)
    split
    · rename_i hbh
      have hle' : a * b / (h * a / w) ≤ a := Nat.div_le_of_le_mul (by nlinarith)
      dsimp only
      omega
    · dsimp only
      omega
  · split
    · rename_i hbh
      have hle : w * b / h ≤ w := Nat.div_le_of_le_mul (by nlinarith)
      dsimp only
      omega
    · dsimp only
      omega

end Box

/-! ## The output -/

theorem evenSide_spec (v : Nat) :
    evenSide v % 2 = 0 ∧ 2 ≤ evenSide v ∧ evenSide v ≤ max v 2 := by
  unfold evenSide
  omega

theorem i420Width_spec (w : Nat) : ∃ m, 0 < m ∧ i420Width w = 8 * m :=
  ⟨max (w / 8) 1, by omega, by unfold i420Width; omega⟩

/-- With a width that is a multiple of 8 no row needs padding. -/
theorem i420Len_eq (w : Nat) {h : Nat} (hh : h % 2 = 0) :
    i420Len (i420Width w) h = i420PaddedLen (i420Width w) h := by
  obtain ⟨m, -, hm⟩ := i420Width_spec w
  have hrow : paddedRow (8 * m) = 8 * m := by unfold paddedRow; omega
  have hhalf : paddedRow ((8 * m + 1) / 2) = 8 * m / 2 := by unfold paddedRow; omega
  have hrows : (h + 1) / 2 = h / 2 := by omega
  rw [i420Len, i420PaddedLen, hm, hrow, hhalf, hrows]

theorem new_eq_ok {w h : Nat} (hw : 0 < w ∧ w % 2 = 0) (hh : 0 < h ∧ h % 2 = 0)
    (control : VideoControl) (now d₁ d₂ : Nat) :
    ∃ e, H264Encoder.new w h control (.ok ()) now d₁ d₂ = .ok e ∧ e.w = w ∧ e.h = h := by
  rw [H264Encoder.new, if_neg (by omega)]
  exact ⟨_, rfl, rfl, rfl⟩

/-- For every monitor of at least 2x2: the sides of the output are even and at least 2, within the
monitor and within the box turned its way; no scaled side is too large for a `u32`; each side is
less than two pixels from the exact one; with the width for I420 the encoder takes the size, and its
frames are as long as those with padded rows. -/
theorem capture_geometry {srcW srcH w h : Nat} (hw : 2 ≤ srcW ∧ srcW < 2 ^ 32)
    (hh : 2 ≤ srcH ∧ srcH < 2 ^ 32) (hfit : fitOutput srcW srcH = (w, h)) {boxW boxH : Nat}
    (hbox : (boxW, boxH) = if srcW < srcH then (1080, 1920) else (1920, 1080)) :
    w % 2 = 0 ∧ h % 2 = 0 ∧ 2 ≤ w ∧ 2 ≤ h ∧ w ≤ srcW ∧ h ≤ srcH ∧ w ≤ boxW ∧ h ≤ boxH ∧
      (boxW < srcW → scaledSide srcH boxW srcW < 2 ^ 32) ∧
      (∀ w₁ h₁, shrinkSide boxW srcW srcH boxH = (w₁, h₁) → boxH < h₁ →
        scaledSide w₁ boxH h₁ < 2 ^ 32) ∧
      |(w : ℚ) - srcW * fitRatio (boxW, boxH) srcW srcH| < 2 ∧
      |(h : ℚ) - srcH * fitRatio (boxW, boxH) srcW srcH| < 2 ∧
      (∀ control now d₁ d₂, ∃ e,
        H264Encoder.new (i420Width w) h control (.ok ()) now d₁ d₂ = .ok e ∧
        e.w = i420Width w ∧ e.h = h) ∧
      i420Len (i420Width w) h = i420PaddedLen (i420Width w) h := by
  obtain ⟨hbox', hsides⟩ : outputBox srcW srcH = (boxW, boxH) ∧
      (boxW = 1080 ∧ boxH = 1920 ∨ boxW = 1920 ∧ boxH = 1080) := by
    split at hbox <;> cases hbox <;> simp [outputBox, maxW, maxH, *]
  obtain ⟨p, q, hp, hq, hratio, hnear₁, hnear₂⟩ := near_fitBox (a := boxW) (b := boxH) (w := srcW)
    (h := srcH) (by omega) hw.2 (by omega) hh.2 (by omega) (by omega) (by omega) (by omega)
    (by omega)
  obtain ⟨hle₁, hle₂⟩ := fitBox_le (a := boxW) (b := boxH) (w := srcW) (h := srcH) (by omega) hw.2
    (by omega) hh.2 (by omega) (by omega)
  rw [fitOutput, if_neg (by omega), hbox'] at hfit
  obtain ⟨rfl, rfl⟩ := Prod.mk.inj hfit
  obtain ⟨heven₁, htwo₁, hmax₁⟩ := evenSide_spec (fitBox (boxW, boxH) srcW srcH).1
  obtain ⟨heven₂, htwo₂, hmax₂⟩ := evenSide_spec (fitBox (boxW, boxH) srcW srcH).2
  obtain ⟨m, hm, hwidth⟩ := i420Width_spec (evenSide (fitBox (boxW, boxH) srcW srcH).1)
  have habs₁ := hnear₁.abs_evenSide (Nat.mul_pos (by omega) hp) hq
  have habs₂ := hnear₂.abs_evenSide (Nat.mul_pos (by omega) hp) hq
  rw [Nat.cast_mul, mul_div_assoc, ← hratio] at habs₁ habs₂
  refine ⟨heven₁, heven₂, htwo₁, htwo₂, by omega, by omega, by omega, by omega,
    scaledSide_lt hh.2 (by omega), fun w₁ h₁ hshrink => ?_, habs₁, habs₂, ?_, i420Len_eq _ heven₂⟩
  · rw [shrinkSide_eq hh.2 (by omega)] at hshrink
    have hw₁ : w₁ < 2 ^ 32 := by
      split at hshrink <;> cases hshrink <;> omega
    exact scaledSide_lt hw₁ (by omega)
  · exact new_eq_ok (by omega) (by omega)

/-- An ultrawide monitor. -/
theorem capture_geometry_ultrawide :
    fitOutput 3440 1440 = (1920, 802) ∧
      |(802 : ℚ) - (1440 : Nat) * fitRatio (1920, 1080) 3440 1440| < 2 ∧
      i420Len 1920 802 = i420PaddedLen 1920 802 := by
  have hfit : fitOutput 3440 1440 = (1920, 802) := by decide
  have hgeometry := capture_geometry (by decide) (by decide) hfit (by decide : (1920, 1080) = _)
  exact ⟨hfit, hgeometry.2.2.2.2.2.2.2.2.2.2.2.1,
    hgeometry.2.2.2.2.2.2.2.2.2.2.2.2.2⟩

end RivetLink.Agent
