import Mathlib.Data.Char
import Mathlib.Data.List.Lex
import RivetLink.Foundation.SortedSet
import RivetLink.Foundation.Switches
import RivetLink.Sdk.LanMessages

/-!
# What a viewer holds down

The console worker keeps one input session across viewers, so a key that a viewer has left pressed
would stay pressed for the next one. `HeldInput` tracks the input of a viewer by key code and mouse
button, and `releases` is the input that lets go of what is held.

The host knows keys, not codes: a code may have no key, and two codes may have the same one, as
`CommandMod` and `ControlLeft` do on Linux. `held_input_released` holds for every such map. It rests
on two facts: a code is held exactly if it was last pressed (`held_iff`), and a key that is down was
last pressed under one of its codes.
-/

namespace RivetLink.Agent

open List RivetLink.Foundation RivetLink.Sdk

instance : LinearOrder Str := LinearOrder.lift' Str.chars fun _ _ => Str.ext

structure HeldInput where
  keys : SortedSet Str := .empty
  buttons : PtrButton → Bool := fun _ => false

namespace HeldInput

def track (held : HeldInput) : ConsoleInputPacket → HeldInput
  | .key code true => { held with keys := held.keys.insert code }
  | .key code false => { held with keys := held.keys.erase code }
  | .pointerButton button down =>
    { held with buttons := Function.update held.buttons button down }
  | .pointerMove _ _ | .scroll _ _ => held

def releases (held : HeldInput) : List ConsoleInputPacket :=
  held.keys.elems.map (.key · false) ++
    (([.left, .right, .middle] : List PtrButton).filter held.buttons).map (.pointerButton · false)

def trackAll (inputs : List ConsoleInputPacket) : HeldInput := inputs.foldl track {}

end HeldInput

/-! ## Codes and keys -/

/-- What an input presses or releases, as the viewer names it. -/
def codeEvent : ConsoleInputPacket → Option ((Str ⊕ PtrButton) × Bool)
  | .key code down => some (.inl code, down)
  | .pointerButton button down => some (.inr button, down)
  | .pointerMove _ _ | .scroll _ _ => none

/-- The key of the host for a code; buttons are the same on both sides. -/
def hostSwitch {κ : Type} (keyOf : Str → Option κ) : Str ⊕ PtrButton → Option (κ ⊕ PtrButton)
  | .inl code => (keyOf code).map .inl
  | .inr button => some (.inr button)

/-- What is down on the host after some input, if nothing was before. -/
def downAfter {κ : Type} [DecidableEq κ] (keyOf : Str → Option κ)
    (inputs : List ConsoleInputPacket) : κ ⊕ PtrButton → Bool :=
  Switches.run (fun _ => false)
    (Switches.throughMap (hostSwitch keyOf) (inputs.filterMap codeEvent))

namespace HeldInput

variable {held : HeldInput} {inputs : List ConsoleInputPacket} {x : Str ⊕ PtrButton}

/-- The tracker takes this for pressed. -/
def Holds (held : HeldInput) : Str ⊕ PtrButton → Prop
  | .inl code => code ∈ held.keys
  | .inr button => held.buttons button = true

/-- An input changes what is held for the code or button it is about. -/
theorem holds_track (held : HeldInput) (input : ConsoleInputPacket) (x : Str ⊕ PtrButton) :
    (held.track input).Holds x ↔
      Switches.last x (codeEvent input).toList = some true ∨
        Switches.last x (codeEvent input).toList = none ∧ held.Holds x := by
  cases input with
  | pointerMove px py | scroll dx dy => simp [track, codeEvent, Switches.last]
  | pointerButton button down =>
    cases x with
    | inl code => simp [track, codeEvent, Switches.last, Holds]
    | inr button' =>
      by_cases heq : button = button'
      · subst heq
        simp [track, codeEvent, Switches.last, Holds]
      · simp [track, codeEvent, Switches.last, Holds, heq,
          Function.update_of_ne (Ne.symm heq)]
  | key code down =>
    cases x with
    | inr button => cases down <;> simp [track, codeEvent, Switches.last, Holds]
    | inl code' =>
      by_cases heq : code = code'
      · subst heq
        cases down with
        | false => simp [track, codeEvent, Switches.last, Holds, SortedSet.mem_erase]
        | true => simp [track, codeEvent, Switches.last, Holds, SortedSet.mem_insert]
      · cases down with
        | false =>
          simp [track, codeEvent, Switches.last, Holds, SortedSet.mem_erase, heq,
            Ne.symm heq]
        | true =>
          simp [track, codeEvent, Switches.last, Holds, SortedSet.mem_insert, heq,
            Ne.symm heq]

/-- A code or button is held exactly if the last input about it was a press. -/
theorem held_iff (inputs : List ConsoleInputPacket) (x : Str ⊕ PtrButton) :
    (trackAll inputs).Holds x ↔ Switches.last x (inputs.filterMap codeEvent) = some true := by
  induction inputs using List.reverseRecOn with
  | nil => cases x <;> simp [trackAll, Holds, SortedSet.not_mem_empty, Switches.last]
  | append_singleton inputs input ih =>
    have hevents : ([input].filterMap codeEvent) = (codeEvent input).toList := by
      cases h : codeEvent input <;> simp [h]
    rw [trackAll, foldl_append, foldl_cons, foldl_nil, holds_track,
      filterMap_append, hevents, Switches.last_append]
    change _ ∨ _ ∧ (trackAll inputs).Holds x ↔ _
    rw [ih]
    cases Switches.last x (codeEvent input).toList with
    | none | some down => simp

/-- The releases let go of what is held. -/
theorem mem_events_releases {e : (Str ⊕ PtrButton) × Bool} :
    e ∈ held.releases.filterMap codeEvent ↔ held.Holds e.1 ∧ e.2 = false := by
  obtain ⟨x, down⟩ := e
  rw [releases, filterMap_append, mem_append, mem_filterMap, mem_filterMap]
  constructor
  · rintro (⟨input, hinput, hevent⟩ | ⟨input, hinput, hevent⟩)
    · obtain ⟨code, hcode, rfl⟩ := mem_map.1 hinput
      cases hevent
      exact ⟨hcode, rfl⟩
    · obtain ⟨button, hbutton, rfl⟩ := mem_map.1 hinput
      cases hevent
      exact ⟨(mem_filter.1 hbutton).2, rfl⟩
  · rintro ⟨hholds, hdown⟩
    obtain rfl : down = false := hdown
    cases x with
    | inl code => exact .inl ⟨.key code false, mem_map.2 ⟨code, hholds, rfl⟩, rfl⟩
    | inr button =>
      refine .inr ⟨.pointerButton button false, mem_map.2 ⟨button, ?_, rfl⟩, rfl⟩
      refine mem_filter.2 ⟨?_, hholds⟩
      cases button <;> decide

/-- Whatever a viewer has sent and whichever keys its codes stand for: once the releases are
injected as well, no key and no button is down. Each release is of a code or button that was last
pressed. -/
theorem held_input_released {κ : Type} [DecidableEq κ] (keyOf : Str → Option κ)
    (inputs : List ConsoleInputPacket) :
    (∀ y, downAfter keyOf (inputs ++ (trackAll inputs).releases) y = false) ∧
      ∀ input ∈ (trackAll inputs).releases, ∃ x, codeEvent input = some (x, false) ∧
        Switches.last x (inputs.filterMap codeEvent) = some true := by
  constructor
  · intro y
    rw [downAfter, filterMap_append]
    apply Switches.run_throughMap_released
    · intro e he
      exact (mem_events_releases.1 he).2
    · intro x hx
      exact mem_events_releases.2 ⟨(held_iff inputs x).2 hx, rfl⟩
  · intro input hinput
    -- every release is an event of its own
    have hevent : ∃ e, codeEvent input = some e := by
      rcases mem_append.1 hinput with h | h
      · obtain ⟨code, -, rfl⟩ := mem_map.1 h
        exact ⟨_, rfl⟩
      · obtain ⟨button, -, rfl⟩ := mem_map.1 h
        exact ⟨_, rfl⟩
    obtain ⟨⟨x, down⟩, he⟩ := hevent
    obtain ⟨hholds, hdown⟩ := mem_events_releases.1 (mem_filterMap.2 ⟨input, hinput, he⟩)
    obtain rfl : down = false := hdown
    exact ⟨x, he, (held_iff inputs x).1 hholds⟩

end HeldInput

end RivetLink.Agent
