/-
**Machines that keep a journal.**

A machine moves from state to state, and a move may write one entry into a journal.  The journal is
only ever appended to, so that the entries and the state it has come to tell of one history: what is
counted in the journal is counted by the state.

A larger system is seen through such a machine when every step of it, looked at from the outside, is
no move or one move, and writes what the move writes.  Then whatever the machine's histories have,
the system's have.

Main definitions:

* `Lts.Journal` — the journals of a machine, with the states they lead to;
* `Lts.Observes` — a step that is no move or one move of the machine.

Main results:

* `Lts.Journal.of_reachable` — **the reachable states of a system that is seen through a machine have
  journals of the machine**;
* `Lts.trace_of_run` — **a run of such a system is a run of the machine**, and appends what its
  moves write.
-/

import Atlas.TransitionSystem
import Mathlib.Data.List.ReduceOption

set_option relaxedAutoImplicit false
set_option autoImplicit false

namespace Lts

variable {σ ε τ ℓ : Type*} {M : Lts σ (Option ε)}

/-! ### Journals -/

/-- `M.Journal es s`: the machine has come to `s`, and has written `es` on its way. -/
inductive Journal (M : Lts σ (Option ε)) : List ε → σ → Prop
  | init {s : σ} (h : M.init s) : Journal M [] s
  | silent {es : List ε} {s s' : σ} (h : Journal M es s) (hmove : M.step s none s') :
      Journal M es s'
  | entry {es : List ε} {s s' : σ} {e : ε} (h : Journal M es s) (hmove : M.step s (some e) s') :
      Journal M (es ++ [e]) s'

/-! ### Systems seen through a machine -/

/-- From `s` with the journal `es` to `s'` with the journal `es'`, by no move or by one. -/
inductive Observes (M : Lts σ (Option ε)) (s : σ) (es : List ε) (s' : σ) (es' : List ε) : Prop
  | same (hs : s' = s) (hes : es' = es)
  | silent (hmove : M.step s none s') (hes : es' = es)
  | entry (e : ε) (hmove : M.step s (some e) s') (hes : es' = es ++ [e])

theorem Journal.observes {es es' : List ε} {s s' : σ} (h : M.Journal es s)
    (hstep : M.Observes s es s' es') : M.Journal es' s' := by
  cases hstep with
  | same hs hes => exact hs ▸ hes ▸ h
  | silent hmove hes => exact hes ▸ h.silent hmove
  | entry e hmove hes => exact hes ▸ h.entry hmove

variable {L : Lts τ ℓ}

/-- **A system whose steps are seen through a machine has the machine's journals.** -/
theorem Journal.of_reachable (view : τ → σ) (journal : τ → List ε)
    (h₀ : ∀ t, L.init t → M.init (view t) ∧ journal t = [])
    (hstep : ∀ t l t', L.Reachable t → L.step t l t' →
      M.Observes (view t) (journal t) (view t') (journal t'))
    {t : τ} (h : L.Reachable t) : M.Journal (journal t) (view t) := by
  have hpreserved : L.Preserved fun t => L.Reachable t ∧ M.Journal (journal t) (view t) := by
    rintro t l t' ⟨hreach, ht⟩ hl
    exact ⟨hreach.step hl, ht.observes (hstep t l t' hreach hl)⟩
  refine (h.invariant ?_ hpreserved).2
  intro t ht
  obtain ⟨hinit, hnil⟩ := h₀ t ht
  refine ⟨.of_init ht, ?_⟩
  rw [hnil]
  exact .init hinit

theorem Observes.trace {es es' : List ε} {s s' : σ} (h : M.Observes s es s' es') :
    ∃ moves, M.Run s moves s' ∧ es' = es ++ moves.reduceOption := by
  cases h with
  | same hs hes =>
      subst hs hes
      exact ⟨[], .nil, by simp⟩
  | silent hmove hes =>
      subst hes
      exact ⟨[none], .single hmove, by simp⟩
  | entry e hmove hes =>
      subst hes
      exact ⟨[some e], .single hmove, by simp⟩

/-- **A run of the system is a run of the machine, and appends what its moves write.** -/
theorem trace_of_run (view : τ → σ) (journal : τ → List ε)
    (hstep : ∀ t l t', L.Reachable t → L.step t l t' →
      M.Observes (view t) (journal t) (view t') (journal t'))
    {t t' : τ} {ls : List ℓ} (hreach : L.Reachable t) (h : L.Run t ls t') :
    ∃ moves, M.Run (view t) moves (view t') ∧ journal t' = journal t ++ moves.reduceOption := by
  induction h with
  | nil => exact ⟨[], .nil, by simp⟩
  | snoc hrun hl ih =>
      obtain ⟨moves, hmoves, hjournal⟩ := ih
      obtain ⟨more, hmore, hjournal'⟩ := (hstep _ _ _ (hreach.run hrun) hl).trace
      refine ⟨moves ++ more, hmoves.append hmore, ?_⟩
      rw [hjournal', hjournal, List.reduceOption_append, List.append_assoc]

end Lts
