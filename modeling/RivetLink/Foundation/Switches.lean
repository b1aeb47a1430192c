import Mathlib.Logic.Function.Basic

/-!
# Switches

A switch is on or off, and an event sets one switch. After a sequence of events a switch is as the
last event about it has set it (`run_eq`).

`throughMap f` passes events on to other switches along a partial map `f`, which need not be
injective. If an image is on afterwards, then one of its preimages was last turned on
(`exists_of_run_throughMap`); so turning off all switches that were last turned on turns off all
their images (`run_throughMap_released`).
-/

namespace RivetLink.Foundation

open List Option

namespace Switches

variable {σ τ : Type} [DecidableEq σ] [DecidableEq τ]

def run (on : σ → Bool) (events : List (σ × Bool)) : σ → Bool :=
  events.foldl (fun on e => Function.update on e.1 e.2) on

/-- What the last event about a switch has set it to. -/
def last (x : σ) : List (σ × Bool) → Option Bool
  | [] => none
  | e :: events => (last x events).or (if e.1 = x then some e.2 else none)

/-- Events about the images of switches; a switch without an image is passed over. -/
def throughMap (f : σ → Option τ) (events : List (σ × Bool)) : List (τ × Bool) :=
  events.filterMap fun e => (f e.1).map fun y => (y, e.2)

variable {on : σ → Bool} {x : σ} {e : σ × Bool} {events later : List (σ × Bool)} {f : σ → Option τ}
  {y : τ} {set : Bool}

theorem last_append : last x (events ++ later) = (last x later).or (last x events) := by
  induction events with
  | nil => exact (or_none).symm
  | cons e events ih =>
    rw [cons_append, last, last, ih]
    exact or_assoc

theorem run_eq : run on events x = (last x events).getD (on x) := by
  induction events generalizing on with
  | nil => rfl
  | cons e events ih =>
    have hrun : run on (e :: events) = run (Function.update on e.1 e.2) events := rfl
    rw [hrun, ih, last]
    cases last x events with
    | some set => rfl
    | none =>
      by_cases hx : e.1 = x
      · subst hx
        simp
      · simp [hx, Function.update_of_ne (Ne.symm hx)]

/-- A switch was set to what the last event about it says. -/
theorem mem_of_last (h : last x events = some set) : (x, set) ∈ events := by
  induction events with
  | nil => cases h
  | cons e events ih =>
    rw [last] at h
    cases hlater : last x events with
    | some set' =>
      rw [hlater] at h
      cases h
      exact mem_cons_of_mem _ (ih hlater)
    | none =>
      rw [hlater, none_or] at h
      obtain ⟨hx, ⟨⟩⟩ := ite_none_right_eq_some.1 h
      subst hx
      exact mem_cons_self

/-- An event about a switch leaves a last one. -/
theorem last_isSome (h : e ∈ events) : (last e.1 events).isSome = true := by
  induction events with
  | nil => cases h
  | cons e' events ih =>
    rw [last, isSome_or]
    rcases mem_cons.1 h with rfl | h
    · simp
    · simp [ih h]

omit [DecidableEq σ] [DecidableEq τ] in
theorem throughMap_append :
    throughMap f (events ++ later) = throughMap f events ++ throughMap f later :=
  filterMap_append

/-- The last event about an image comes from the last event about one of its preimages. -/
theorem exists_of_last_throughMap (h : last y (throughMap f events) = some set) :
    ∃ x, f x = some y ∧ last x events = some set := by
  induction events with
  | nil => cases h
  | cons e events ih =>
    have hcons : throughMap f ([e] ++ events) = throughMap f [e] ++ throughMap f events :=
      throughMap_append
    rw [singleton_append] at hcons
    rw [hcons, last_append] at h
    cases hlater : last y (throughMap f events) with
    | some set' =>
      rw [hlater] at h
      cases h
      obtain ⟨x, hx, hlast⟩ := ih hlater
      exact ⟨x, hx, by rw [last, hlast]; rfl⟩
    | none =>
      -- the event itself is the last one about the image, so no later one is about its switch
      rw [hlater, none_or] at h
      have hmem := mem_of_last h
      obtain ⟨e', he', hmap⟩ := mem_filterMap.1 hmem
      obtain rfl := mem_singleton.1 he'
      obtain ⟨y', hy, heq⟩ := map_eq_some_iff.1 hmap
      obtain ⟨rfl, rfl⟩ := Prod.mk.inj heq
      refine ⟨e'.1, hy, ?_⟩
      have hnone : last e'.1 events = none := by
        cases hx : last e'.1 events with
        | none => rfl
        | some set' =>
          have himage : (y', set') ∈ throughMap f events :=
            mem_filterMap.2 ⟨_, mem_of_last hx, by rw [hy]; rfl⟩
          have hsome := last_isSome himage
          rw [hlater] at hsome
          cases hsome
      rw [last, hnone, if_pos rfl]
      rfl

/-- An image that was off is on afterwards only if a preimage was last turned on. -/
theorem exists_of_run_throughMap (h : run (fun _ => false) (throughMap f events) y = true) :
    ∃ x, f x = some y ∧ last x events = some true := by
  rw [run_eq] at h
  cases hlast : last y (throughMap f events) with
  | none =>
    rw [hlast] at h
    cases h
  | some set =>
    rw [hlast] at h
    cases h
    exact exists_of_last_throughMap hlast

/-- Turning off every switch that was last turned on turns off all images. -/
theorem run_throughMap_released (hoff : ∀ e ∈ later, e.2 = false)
    (hall : ∀ x, last x events = some true → (x, false) ∈ later) (y : τ) :
    run (fun _ => false) (throughMap f (events ++ later)) y = false := by
  rw [Bool.eq_false_iff]
  intro hon
  obtain ⟨x, -, hlast⟩ := exists_of_run_throughMap hon
  rw [last_append] at hlast
  cases hlater : last x later with
  | some set =>
    rw [hlater] at hlast
    cases hlast
    exact Bool.noConfusion (hoff _ (mem_of_last hlater))
  | none =>
    rw [hlater, none_or] at hlast
    have hsome := last_isSome (hall x hlast)
    rw [hlater] at hsome
    cases hsome

end Switches

end RivetLink.Foundation
