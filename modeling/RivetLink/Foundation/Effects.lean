import Mathlib.Logic.Basic

/-!
# Stateful computations that can fail

A computation of type `EStateM ε σ α` works on a state, which survives a failure.
`Ensures P m Q R` says that from a state in `P` it either returns with `Q` or fails with `R`; the
rules below take a computation apart along its binds. `Keeps I m` is the case of an invariant.
`Yields` also speaks about the error, and `ErrorsIn` about the errors of a computation without a
state.
-/

namespace RivetLink.Foundation

variable {ε ε' σ τ α β : Type}

/-- The computation has returned with `Q` or failed with `R`. -/
def Ends (Q : α → σ → Prop) (R : σ → Prop) : EStateM.Result ε σ α → Prop
  | .ok a t => Q a t
  | .error _ t => R t

/-- From a state in `P` the computation returns with `Q` or fails with `R`. -/
def Ensures (P : σ → Prop) (m : EStateM ε σ α) (Q : α → σ → Prop) (R : σ → Prop) : Prop :=
  ∀ s, P s → Ends Q R (m s)

/-- The outcome of a computation as a value. -/
def attempt (m : EStateM ε σ α) : EStateM ε' σ (Except ε α) := fun s =>
  match m s with
  | .ok a t => .ok (.ok a) t
  | .error e t => .ok (.error e) t

def finalState : EStateM.Result ε σ α → σ
  | .ok _ s => s
  | .error _ s => s

def result? : EStateM.Result ε σ α → Option α
  | .ok a _ => some a
  | .error _ _ => none

theorem eq_ok_of_result? {r : EStateM.Result ε σ α} {a : α} (h : result? r = some a) :
    r = .ok a (finalState r) := by
  cases r with
  | ok b s =>
    cases h
    rfl
  | error e s => cases h

/-- A computation on a part of the state, with its failures translated. -/
def focus (get : σ → τ) (set : σ → τ → σ) (fail : ε → ε') (m : EStateM ε τ α) :
    EStateM ε' σ α := fun s =>
  match m (get s) with
  | .ok a t => .ok a (set s t)
  | .error e t => .error (fail e) (set s t)

variable {f : α → EStateM ε σ β} {m : EStateM ε σ α}

/-- A computation that returns has passed through each of its parts. -/
theorem ok_of_bind {s u : σ} {b : β} (h : (m >>= f) s = .ok b u) :
    ∃ a t, m s = .ok a t ∧ f a t = .ok b u := by
  change EStateM.bind m f s = .ok b u at h
  unfold EStateM.bind at h
  cases hr : m s with
  | ok a t =>
    rw [hr] at h
    exact ⟨a, t, rfl, h⟩
  | error e t =>
    rw [hr] at h
    cases h

/-- A part that returns hands over to the rest. -/
theorem run_bind {s t : σ} {a : α} (h : m s = .ok a t) : (m >>= f) s = f a t := by
  change EStateM.bind m f s = f a t
  unfold EStateM.bind
  rw [h]

/-- A part that fails ends the computation. -/
theorem run_bind_error {s t : σ} {e : ε} (h : m s = .error e t) : (m >>= f) s = .error e t := by
  change EStateM.bind m f s = .error e t
  unfold EStateM.bind
  rw [h]

section Rules

variable {P P' : σ → Prop} {m : EStateM ε σ α} {Q Q' : α → σ → Prop} {R R' : σ → Prop}

variable {s : σ}

theorem ensures_eq_iff : Ensures (· = s) m Q R ↔ Ends Q R (m s) :=
  ⟨fun h => h s rfl, fun h _ ht => ht.symm ▸ h⟩

theorem ensures_pure {a : α} (h : ∀ s, P s → Q a s) :
    Ensures P (pure a : EStateM ε σ α) Q R := h

theorem ensures_throw {e : ε} (h : ∀ s, P s → R s) :
    Ensures P (throw e : EStateM ε σ α) Q R := h

variable {f : α → EStateM ε σ β}

theorem Ensures.bind {Q' : β → σ → Prop} (hm : Ensures P m Q R)
    (hf : ∀ a, Ensures (Q a) (f a) Q' R) :
    Ensures P (m >>= f) Q' R := by
  intro s hs
  have h := hm s hs
  change Ends Q' R (EStateM.bind m f s)
  unfold EStateM.bind
  cases hr : m s with
  | ok a t =>
    rw [hr] at h
    exact hf a t h
  | error e t =>
    rw [hr] at h
    exact h

/-- The rule of consequence. -/
theorem Ensures.mono (hm : Ensures P m Q R) (hP : ∀ s, P' s → P s)
    (hQ : ∀ a s, Q a s → Q' a s) (hR : ∀ s, R s → R' s) : Ensures P' m Q' R' := by
  intro s hs
  have h := hm s (hP s hs)
  cases hr : m s with
  | ok a t =>
    rw [hr] at h
    exact hQ a t h
  | error e t =>
    rw [hr] at h
    exact hR t h

theorem Ensures.and (hm : Ensures P m Q R) (hm' : Ensures P m Q' R') :
    Ensures P m (fun a s => Q a s ∧ Q' a s) (fun s => R s ∧ R' s) := by
  intro s hs
  have h := hm s hs
  have h' := hm' s hs
  cases hr : m s with
  | ok a t | error e t =>
    rw [hr] at h h'
    exact ⟨h, h'⟩

/-- The condition before may be taken one state at a time. -/
theorem ensures_iff_forall : Ensures P m Q R ↔ ∀ s, P s → Ensures (· = s) m Q R := by
  constructor
  · intro h s hs t ht
    exact h t (ht ▸ hs)
  · intro h s hs
    exact h s hs s rfl

theorem Ensures.from_ (h : Ensures P m Q R) (hs : P s) : Ensures (· = s) m Q R :=
  ensures_iff_forall.1 h s hs

/-- The rest of a computation is looked at from every state in which its first part may end. -/
theorem Ensures.andThen {Q' : β → σ → Prop} (hm : Ensures (· = s) m Q R)
    (hok : ∀ a t, Q a t → Ensures (· = t) (f a) Q' R') (herror : ∀ t, R t → R' t) :
    Ensures (· = s) (m >>= f) Q' R' :=
  (hm.mono (fun _ => id) (fun _ _ => id) herror).bind fun a => ensures_iff_forall.2 (hok a)

/-- What the outcomes imply holds in the state in which the computation ends. -/
theorem Ensures.finalState (h : Ensures (· = s) m Q R) (T : σ → Prop) (hok : ∀ a t, Q a t → T t)
    (herror : ∀ t, R t → T t) : T (finalState (m s)) := by
  have hends := ensures_eq_iff.1 h
  cases hr : m s with
  | ok a t =>
    rw [hr] at hends
    exact hok a t hends
  | error e t =>
    rw [hr] at hends
    exact herror t hends

variable {c : Prop}

theorem ensures_ite [Decidable c] {m' : EStateM ε σ α} (hm : c → Ensures P m Q R)
    (hm' : ¬c → Ensures P m' Q R) : Ensures P (if c then m else m') Q R := by
  by_cases hc : c
  · rw [if_pos hc]
    exact hm hc
  · rw [if_neg hc]
    exact hm' hc

theorem ends_ite [Decidable c] {r r' : EStateM.Result ε σ α} (hr : c → Ends Q R r)
    (hr' : ¬c → Ends Q R r') : Ends Q R (if c then r else r') := by
  by_cases hc : c
  · rw [if_pos hc]
    exact hr hc
  · rw [if_neg hc]
    exact hr' hc

theorem ensures_attempt {T : Except ε α → σ → Prop} (hm : Ensures P m Q R)
    (hok : ∀ a s, Q a s → T (.ok a) s) (herror : ∀ e s, R s → T (.error e) s) :
    Ensures P (attempt m : EStateM ε' σ (Except ε α)) T R' := by
  intro s hs
  have h := hm s hs
  unfold attempt
  cases hr : m s with
  | ok a t =>
    rw [hr] at h
    exact hok a t h
  | error e t =>
    rw [hr] at h
    exact herror e t h

theorem ensures_focus {get : σ → τ} {set : σ → τ → σ} {fail : ε → ε'} {m : EStateM ε τ α}
    {P : τ → Prop} {Q : α → τ → Prop} {R : τ → Prop} (hm : Ensures P m Q R) (hs : P (get s))
    (hok : ∀ a t, Q a t → Q' a (set s t)) (herror : ∀ t, R t → R' (set s t)) :
    Ensures (· = s) (focus get set fail m) Q' R' := by
  refine ensures_eq_iff.2 ?_
  have h := hm _ hs
  unfold focus
  cases hr : m (get s) with
  | ok a t =>
    rw [hr] at h
    exact hok a t h
  | error e t =>
    rw [hr] at h
    exact herror t h

end Rules

/-! ## Errors -/

/-- Every error of the computation is in `E`. -/
def ErrorsIn (E : ε → Prop) (x : Except ε α) : Prop := ∀ e, x = .error e → E e

/-- From a state in `P` the computation returns with `Q`, or its error and the state after it are
in `E`. -/
def Yields (P : σ → Prop) (m : EStateM ε σ α) (Q : α → σ → Prop) (E : ε → σ → Prop) : Prop :=
  ∀ s, P s → match m s with
    | .ok a t => Q a t
    | .error e t => E e t

/-- A computation without a state, with its errors translated. -/
def liftExcept (fail : ε → ε') (x : Except ε α) : EStateM ε' σ α := fun s =>
  match x with
  | .ok a => .ok a s
  | .error e => .error (fail e) s

section ErrorRules

variable {E : ε → Prop} {x : Except ε α}

theorem errorsIn_ok {a : α} : ErrorsIn E (.ok a : Except ε α) := by
  intro e h
  cases h

theorem errorsIn_error {e : ε} (h : E e) : ErrorsIn E (.error e : Except ε α) := by
  intro e' he'
  cases he'
  exact h

theorem ErrorsIn.bind {f : α → Except ε β} (hx : ErrorsIn E x) (hf : ∀ a, ErrorsIn E (f a)) :
    ErrorsIn E (x >>= f) := by
  cases x with
  | error e => exact errorsIn_error (hx e rfl)
  | ok a => exact hf a

variable {P P' : σ → Prop} {m : EStateM ε σ α} {Q Q' : α → σ → Prop} {F F' : ε → σ → Prop}

theorem Yields.error {s t : σ} {e : ε} (hm : Yields P m Q F) (hs : P s) (h : m s = .error e t) :
    F e t := by
  have hends := hm s hs
  rw [h] at hends
  exact hends

theorem Yields.bind {Q' : β → σ → Prop} (hm : Yields P m Q F) (hf : ∀ a, Yields (Q a) (f a) Q' F) :
    Yields P (m >>= f) Q' F := by
  intro s hs
  have h := hm s hs
  change match EStateM.bind m f s with
    | .ok a t => Q' a t
    | .error e t => F e t
  unfold EStateM.bind
  cases hr : m s with
  | ok a t =>
    rw [hr] at h
    exact hf a t h
  | error e t =>
    rw [hr] at h
    exact h

theorem Yields.mono (hm : Yields P m Q F) (hP : ∀ s, P' s → P s) (hQ : ∀ a s, Q a s → Q' a s)
    (hF : ∀ e s, F e s → F' e s) : Yields P' m Q' F' := by
  intro s hs
  have h := hm s (hP s hs)
  cases hr : m s with
  | ok a t =>
    rw [hr] at h
    exact hQ a t h
  | error e t =>
    rw [hr] at h
    exact hF e t h

theorem yields_adaptExcept {f : ε → ε'} {F : ε' → σ → Prop}
    (hm : Yields P m Q fun e => F (f e)) : Yields P (EStateM.adaptExcept f m) Q F := by
  intro s hs
  have h := hm s hs
  unfold EStateM.adaptExcept
  cases hr : m s with
  | ok a t | error e t =>
    rw [hr] at h
    exact h

theorem yields_liftExcept {fail : ε → ε'} {F : ε' → σ → Prop} (hx : ErrorsIn E x)
    (hF : ∀ e s, P s → E e → F (fail e) s) :
    Yields P (liftExcept fail x) (fun a s => x = .ok a ∧ P s) F := by
  intro s hs
  cases hr : x with
  | ok a => exact ⟨rfl, hs⟩
  | error e => exact hF e s hs (hx e hr)

end ErrorRules

end RivetLink.Foundation
