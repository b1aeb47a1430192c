import Mathlib.Order.Basic
import RivetLink.Foundation.Slots

/-!
# Runs of a partial step function

A system is given by a step function `step : σ → α → Option σ`; the value `none` says that the
action is not enabled in the state. `runFrom step s acts` takes the actions in order and fails if
one of them is not enabled, so a statement about `runFrom step s acts = some t` for every list
`acts` is a statement about every run, in particular about every interleaving when the actions
name the party that moves.

`invariant_of_step` is the induction rule for invariants. `RunMeets` says that every action of a
run meets a condition in the state in which it is taken; `invariant_of_guardedStep` is the rule for
runs restricted in this way. `relation_of_step` is the rule for a preorder between the first and the
last state, and `invariant_of_past` for what depends on the steps so far, such as what they have put
out (`runOutputs`).
-/

namespace RivetLink.Foundation

open List Option

universe u v w

variable {σ : Type u} {α : Type v} {β : Type w}

/-- Take the actions in order. -/
def runFrom (step : σ → α → Option σ) : σ → List α → Option σ
  | s, [] => some s
  | s, a :: as => (step s a).bind fun t => runFrom step t as

/-- Every action of the run meets `G` in the state in which it is taken. -/
def RunMeets (step : σ → α → Option σ) (G : σ → α → Prop) : σ → List α → Prop
  | _, [] => True
  | s, a :: as => G s a ∧ ∀ t, step s a = some t → RunMeets step G t as

/-- What the steps of a run put out, in order. -/
def runOutputs (step : σ → α → Option σ) (out : σ → α → List β) : σ → List α → List β
  | _, [] => []
  | s, a :: as => out s a ++ (step s a).elim [] fun t => runOutputs step out t as

/-- The condition of a restricted run can be decided by running it. -/
instance decidableRunMeets (step : σ → α → Option σ) (G : σ → α → Prop)
    [∀ s a, Decidable (G s a)] : ∀ s as, Decidable (RunMeets step G s as)
  | _, [] => isTrue trivial
  | s, a :: as =>
    match h : step s a with
    | none => decidable_of_iff (G s a) (by simp [RunMeets, h])
    | some t =>
      have := decidableRunMeets step G t as
      decidable_of_iff (G s a ∧ RunMeets step G t as) (by simp [RunMeets, h])

section Rules

variable {step : σ → α → Option σ} {s t : σ} {a : α} {as bs : List α} {I : σ → Prop}

@[simp] theorem runFrom_nil : runFrom step s [] = some s := rfl

/-- A run that starts with `a` takes `a` and runs on from the state reached. -/
theorem runFrom_cons_eq_some :
    runFrom step s (a :: as) = some t ↔ ∃ m, step s a = some m ∧ runFrom step m as = some t := by
  simp only [runFrom, bind_eq_some_iff]

theorem runFrom_append :
    runFrom step s (as ++ bs) = (runFrom step s as).bind fun m => runFrom step m bs := by
  induction as generalizing s with
  | nil => rfl
  | cons a as ih =>
    rw [cons_append, runFrom, runFrom, bind_assoc]
    exact congrArg (step s a).bind (funext fun m => ih)

/-- A condition on the actions alone is met by a run all of whose actions meet it. -/
theorem runMeets_of_forall_mem {G : α → Prop} (h : ∀ b ∈ as, G b) :
    RunMeets step (fun _ b => G b) s as := by
  induction as generalizing s with
  | nil => trivial
  | cons b as ih =>
    exact ⟨h b mem_cons_self, fun t _ => ih fun c hc => h c (mem_cons_of_mem b hc)⟩

theorem RunMeets.and {G H : σ → α → Prop} (hG : RunMeets step G s as) (hH : RunMeets step H s as) :
    RunMeets step (fun s a => G s a ∧ H s a) s as := by
  induction as generalizing s with
  | nil => trivial
  | cons a as ih => exact ⟨⟨hG.1, hH.1⟩, fun t ht => ih (hG.2 t ht) (hH.2 t ht)⟩

/-- The invariant rule for runs whose steps all meet `G`. -/
theorem invariant_of_guardedStep {G : σ → α → Prop}
    (hstep : ∀ s a t, I s → G s a → step s a = some t → I t) (hs : I s)
    (hmeets : RunMeets step G s as) (hrun : runFrom step s as = some t) : I t := by
  induction as generalizing s with
  | nil =>
    simp only [runFrom_nil, some.injEq] at hrun
    exact hrun ▸ hs
  | cons a as ih =>
    obtain ⟨m, hm, hrest⟩ := runFrom_cons_eq_some.1 hrun
    exact ih (hstep s a m hs hmeets.1 hm) (hmeets.2 m hm) hrest

/-- The invariant rule: what holds at the start and is kept by every step holds in every state
that a run reaches. -/
theorem invariant_of_step (hstep : ∀ s a t, I s → step s a = some t → I t) (hs : I s)
    (hrun : runFrom step s as = some t) : I t :=
  invariant_of_guardedStep (G := fun _ _ => True) (fun s a t hi _ h => hstep s a t hi h) hs
    (runMeets_of_forall_mem fun _ _ => trivial) hrun

/-- A reflexive and transitive relation that holds along every step holds between the first and
the last state of every run, provided it may assume an invariant of the states. -/
theorem relation_of_step {R : σ → σ → Prop} (hrefl : ∀ s, R s s)
    (htrans : ∀ s t u, R s t → R t u → R s u) (hinv : ∀ s a t, I s → step s a = some t → I t)
    (hstep : ∀ s a t, I s → step s a = some t → R s t) (hs : I s)
    (hrun : runFrom step s as = some t) : R s t := by
  induction as generalizing s with
  | nil =>
    simp only [runFrom_nil, some.injEq] at hrun
    exact hrun ▸ hrefl s
  | cons a as ih =>
    obtain ⟨m, hm, hrest⟩ := runFrom_cons_eq_some.1 hrun
    exact htrans s m t (hstep s a m hs hm) (ih (hinv s a m hs hm) hrest)

theorem runOutputs_concat {out : σ → α → List β} (hrun : runFrom step s as = some t) (a : α) :
    runOutputs step out s (as ++ [a]) = runOutputs step out s as ++ out t a := by
  induction as generalizing s with
  | nil =>
    cases hrun
    simp only [nil_append, runOutputs]
    cases step t a <;> simp
  | cons b as ih =>
    obtain ⟨m, hm, hrest⟩ := runFrom_cons_eq_some.1 hrun
    simp only [cons_append, runOutputs, hm, elim_some, ih hrest, append_assoc]

/-- The invariant rule for what depends on the past of a run. -/
theorem invariant_of_past {s₀ : σ} {I : List α → σ → Prop} (hs : I [] s₀)
    (hstep : ∀ past s a t, runFrom step s₀ past = some s → I past s → step s a = some t →
      I (past ++ [a]) t)
    (hrun : runFrom step s₀ as = some t) : I as t := by
  -- the run goes on from any state that a past leads to
  have hrest : ∀ as past s, runFrom step s₀ past = some s → I past s →
      runFrom step s as = some t → I (past ++ as) t := by
    intro as
    induction as with
    | nil =>
      intro past s _ hi h
      cases h
      rwa [append_nil]
    | cons a as ih =>
      intro past s hpast hi h
      obtain ⟨m, hm, hrest⟩ := runFrom_cons_eq_some.1 h
      have hnext : runFrom step s₀ (past ++ [a]) = some m := by
        simp [runFrom_append, hpast, runFrom, hm]
      have hall := ih (past ++ [a]) m hnext (hstep past s a m hpast hi hm) hrest
      rwa [append_assoc] at hall
  exact hrest as [] s₀ rfl hs hrun

end Rules

end RivetLink.Foundation
