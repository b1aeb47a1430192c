import RivetLink.Foundation.Transition

/-!
# Non-interference by a view

`view` shows what one party sees of a state, as a state of the same system; `keep` tells which
actions are for this party. If every kept action does in the view what it does in the state, and
every other action leaves the view as it is, then the kept actions of a run are a run of their own,
and it ends in the view of the state in which the run ends (`runFrom_purge`). So two runs with the
same kept actions end in the same view (`view_eq_of_purge_eq`).
-/

namespace RivetLink.Foundation

universe u v

variable {σ : Type u} {α : Type v}

/-- The kept actions of a run. -/
def purge (step : σ → α → Option σ) (keep : σ → α → Bool) : σ → List α → List α
  | _, [] => []
  | s, a :: as =>
    match step s a with
    | none => []
    | some t => if keep s a then a :: purge step keep t as else purge step keep t as

/-- The view simulates the kept actions and does not see the others. -/
structure Unwinds (step : σ → α → Option σ) (I : σ → Prop) (keep : σ → α → Bool)
    (view : σ → σ) : Prop where
  invariant : ∀ s a t, I s → step s a = some t → I t
  kept : ∀ s a t, I s → keep s a = true → step s a = some t → step (view s) a = some (view t)
  dropped : ∀ s a t, I s → keep s a = false → step s a = some t → view t = view s

section Rules

variable {step : σ → α → Option σ} {I : σ → Prop} {keep : σ → α → Bool} {view : σ → σ}
  {s t t' : σ} {as bs : List α}

/-- The kept actions run in the view. -/
theorem Unwinds.runFrom_purge (h : Unwinds step I keep view) (hs : I s)
    (hrun : runFrom step s as = some t) :
    runFrom step (view s) (purge step keep s as) = some (view t) := by
  induction as generalizing s with
  | nil =>
    simp only [runFrom_nil, Option.some.injEq] at hrun
    rw [hrun]
    rfl
  | cons a as ih =>
    obtain ⟨m, hm, hrest⟩ := runFrom_cons_eq_some.1 hrun
    have htail := ih (h.invariant s a m hs hm) hrest
    simp only [purge, hm]
    cases hkeep : keep s a with
    | true =>
      rw [if_pos rfl]
      exact runFrom_cons_eq_some.2 ⟨view m, h.kept s a m hs hkeep hm, htail⟩
    | false =>
      rw [if_neg Bool.false_ne_true, ← h.dropped s a m hs hkeep hm]
      exact htail

/-- Two runs with the same kept actions end in the same view. -/
theorem Unwinds.view_eq_of_purge_eq (h : Unwinds step I keep view) (hs : I s)
    (hrun : runFrom step s as = some t) (hrun' : runFrom step s bs = some t')
    (hpurge : purge step keep s as = purge step keep s bs) : view t = view t' := by
  have heq := (h.runFrom_purge hs hrun).symm.trans (hpurge ▸ h.runFrom_purge hs hrun')
  exact Option.some.inj heq

end Rules

end RivetLink.Foundation
