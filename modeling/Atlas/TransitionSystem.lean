/-
**Labelled transition systems: runs, reachable states and invariants.**

A system is given by its initial states and its labelled steps.  A run is a finite sequence of
steps; a state is reachable when a run leads to it from an initial state.  Everything a later
module proves about *all* interleavings goes through the two rules of this one: what every step
preserves, every run preserves, and what holds initially besides, holds in every reachable state.

Main definitions:

* `Lts` — a labelled transition system;
* `Lts.Run` — the runs, by their list of labels;
* `Lts.Reachable` — the reachable states;
* `Lts.Preserved` — what every step preserves;
* `Lts.restrict` — the same system with the steps that meet a condition only.

Main results:

* `Lts.Run.preserves`, `Lts.Reachable.invariant` — **the invariant rules**;
* `Lts.Run.of_restrict` — the runs of the restricted system are runs of the system.
-/

import Mathlib.Init

set_option relaxedAutoImplicit false
set_option autoImplicit false

/-- A labelled transition system: its initial states and its labelled steps. -/
structure Lts (σ ℓ : Type*) where
  /-- The states a run may start from. -/
  init : σ → Prop
  /-- `step s l s'`: the system can move from `s` to `s'` by `l`. -/
  step : σ → ℓ → σ → Prop

namespace Lts

variable {σ ℓ : Type*} {M : Lts σ ℓ}

/-! ### Runs -/

/-- `M.Run s ls s'`: the steps labelled `ls`, taken in order, lead from `s` to `s'`. -/
inductive Run (M : Lts σ ℓ) (s : σ) : List ℓ → σ → Prop
  | nil : Run M s [] s
  | snoc {t u : σ} {ls : List ℓ} {l : ℓ} :
      Run M s ls t → M.step t l u → Run M s (ls ++ [l]) u

theorem Run.single {s t : σ} {l : ℓ} (h : M.step s l t) : M.Run s [l] t :=
  Run.snoc Run.nil h

theorem Run.append {s t u : σ} {ls ms : List ℓ} (h : M.Run s ls t) (h' : M.Run t ms u) :
    M.Run s (ls ++ ms) u := by
  induction h' with
  | nil => simpa using h
  | snoc _ hstep ih => rw [← List.append_assoc]; exact ih.snoc hstep

theorem Run.cons {s t u : σ} {l : ℓ} {ls : List ℓ} (h : M.step s l t) (h' : M.Run t ls u) :
    M.Run s (l :: ls) u :=
  (Run.single h).append h'

/-- The property `I` is preserved by every step. -/
def Preserved (M : Lts σ ℓ) (I : σ → Prop) : Prop :=
  ∀ s l s', I s → M.step s l s' → I s'

/-- **What every step preserves, every run preserves.** -/
theorem Run.preserves {I : σ → Prop} (hI : M.Preserved I) {s s' : σ} {ls : List ℓ}
    (h : M.Run s ls s') (hs : I s) : I s' := by
  induction h with
  | nil => exact hs
  | snoc _ hstep ih => exact hI _ _ _ ih hstep

/-! ### Reachable states -/

/-- The states some run leads to from an initial state. -/
def Reachable (M : Lts σ ℓ) (s : σ) : Prop :=
  ∃ s₀ ls, M.init s₀ ∧ M.Run s₀ ls s

theorem Reachable.of_init {s : σ} (h : M.init s) : M.Reachable s :=
  ⟨s, [], h, Run.nil⟩

theorem Reachable.run {s s' : σ} {ls : List ℓ} (h : M.Reachable s) (hr : M.Run s ls s') :
    M.Reachable s' := by
  obtain ⟨s₀, ms, h₀, hms⟩ := h
  exact ⟨s₀, ms ++ ls, h₀, hms.append hr⟩

theorem Reachable.step {s s' : σ} {l : ℓ} (h : M.Reachable s) (hstep : M.step s l s') :
    M.Reachable s' :=
  h.run (Run.single hstep)

/-- **What holds initially and is preserved by every step holds in every reachable state.** -/
theorem Reachable.invariant {I : σ → Prop} (h₀ : ∀ s, M.init s → I s) (hI : M.Preserved I)
    {s : σ} (h : M.Reachable s) : I s := by
  obtain ⟨s₀, ls, hs₀, hr⟩ := h
  exact hr.preserves hI (h₀ s₀ hs₀)

/-! ### Restricted systems -/

/-- The system with the steps that meet `P` only. -/
def restrict (M : Lts σ ℓ) (P : σ → ℓ → σ → Prop) : Lts σ ℓ where
  init := M.init
  step s l s' := M.step s l s' ∧ P s l s'

theorem Run.of_restrict {P : σ → ℓ → σ → Prop} {s s' : σ} {ls : List ℓ}
    (h : (M.restrict P).Run s ls s') : M.Run s ls s' := by
  induction h with
  | nil => exact Run.nil
  | snoc _ hstep ih => exact ih.snoc hstep.1

end Lts
