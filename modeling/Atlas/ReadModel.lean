/-
**Read models.**

A read model keeps one row a key and is written by a stream of entries: an entry replaces the row of
its key, unless the row there is closed, and then the entry is refused.  What the rows are is a fold
of the stream.  A closed row stays as it is; so the stream of a key is a number of accepted entries,
of which the last alone may close the row, and then refused ones only.

Main definitions:

* `ReadModel`, `ReadModel.accepts`, `ReadModel.apply`, `ReadModel.replay` — the rows of a stream;
* `ReadModel.Judged` — every entry of a stream has the verdict the fold gives.

Main results:

* `ReadModel.replay_closed` — **a closed row stays**;
* `ReadModel.Judged.replay_eq` — **a row is that of the last accepted entry of its key**;
* `ReadModel.Judged.closes` — the entry that closes a row is the last that is accepted.
-/

import Atlas.HeadOfLine
import Mathlib.Data.List.Induction
import Mathlib.Logic.Function.Basic

set_option relaxedAutoImplicit false
set_option autoImplicit false

/-- The key of an entry, the row it writes, and the rows that are closed. -/
structure ReadModel (ι κ ρ : Type) where
  key : ι → κ
  row : ι → ρ
  closed : ρ → Bool

namespace ReadModel

variable {ι κ ρ : Type} [DecidableEq κ] (M : ReadModel ι κ ρ)

/-- The row of the entry's key is not closed. -/
def accepts (rows : κ → Option ρ) (entry : ι) : Bool := !(rows (M.key entry)).any M.closed

/-- The rows after an entry. -/
def apply (rows : κ → Option ρ) (entry : ι) : κ → Option ρ :=
  if M.accepts rows entry then Function.update rows (M.key entry) (some (M.row entry)) else rows

/-- The rows a stream writes. -/
def replay (entries : List ι) : κ → Option ρ := entries.foldl M.apply fun _ => none

variable {M} {entries more : List ι} {entry : ι} {k : κ} {r : ρ}

@[simp] theorem replay_nil : M.replay [] = fun _ => none := rfl

@[simp] theorem replay_snoc : M.replay (entries ++ [entry]) = M.apply (M.replay entries) entry := by
  simp [replay]

theorem apply_of_accepts {rows : κ → Option ρ} (h : M.accepts rows entry = true) :
    M.apply rows entry = Function.update rows (M.key entry) (some (M.row entry)) := by
  rw [apply, if_pos h]

theorem apply_of_refused {rows : κ → Option ρ} (h : M.accepts rows entry = false) :
    M.apply rows entry = rows := by
  simp [apply, h]

/-- An entry writes no row that is closed. -/
theorem apply_closed {rows : κ → Option ρ} (hrow : rows k = some r) (hclosed : M.closed r = true) :
    M.apply rows entry k = some r := by
  by_cases hkey : k = M.key entry
  · subst hkey
    have hrefused : M.accepts rows entry = false := by simp [accepts, hrow, hclosed]
    rw [apply_of_refused hrefused, hrow]
  · cases haccepts : M.accepts rows entry with
    | true => rw [apply_of_accepts haccepts, Function.update_of_ne hkey, hrow]
    | false => rw [apply_of_refused haccepts, hrow]

/-- **A closed row stays**, whatever comes after. -/
theorem replay_closed (hrow : M.replay entries k = some r) (hclosed : M.closed r = true) :
    M.replay (entries ++ more) k = some r := by
  induction more using List.reverseRecOn with
  | nil => rwa [List.append_nil]
  | append_singleton more entry ih =>
      rw [← List.append_assoc, replay_snoc]
      exact apply_closed ih hclosed

/-! ### Verdicts -/

/-- Every entry of the stream has the verdict the rows before it give. -/
def Judged (M : ReadModel ι κ ρ) (verdict : ι → Bool) (entries : List ι) : Prop :=
  ∀ before entry after, entries = before ++ entry :: after →
    verdict entry = M.accepts (M.replay before) entry

namespace Judged

variable {verdict : ι → Bool}

theorem nil : Judged M verdict [] := by
  intro before entry after h
  simp at h

/-- A stream goes on with an entry of the right verdict. -/
theorem snoc (h : Judged M verdict entries)
    (hentry : verdict entry = M.accepts (M.replay entries) entry) :
    Judged M verdict (entries ++ [entry]) := by
  intro before other after hsplit
  rcases HeadOfLine.eq_or_mem_of_snoc hsplit with ⟨rfl, rfl⟩ | ⟨after', hsplit'⟩
  · exact hentry
  · exact h before other after' hsplit'

theorem of_append (h : Judged M verdict (entries ++ more)) : Judged M verdict entries := by
  intro before entry after hsplit
  exact h before entry (after ++ more) (by rw [hsplit, List.append_assoc, List.cons_append])

/-- The last entry of a stream. -/
theorem last (h : Judged M verdict (entries ++ [entry])) :
    verdict entry = M.accepts (M.replay entries) entry :=
  h entries entry [] rfl

/-- **A row is that of the last accepted entry of its key.** -/
theorem replay_eq (h : Judged M verdict entries) (k : κ) :
    M.replay entries k
      = ((entries.filter fun entry => verdict entry && M.key entry = k).getLast?).map M.row := by
  induction entries using List.reverseRecOn with
  | nil => rfl
  | append_singleton entries entry ih =>
      rw [replay_snoc, List.filter_append]
      have hverdict := h.last
      cases haccepts : M.accepts (M.replay entries) entry with
      | false =>
          rw [apply_of_refused haccepts, ih h.of_append]
          simp [hverdict, haccepts]
      | true =>
          rw [apply_of_accepts haccepts, Function.update_apply]
          by_cases hkey : k = M.key entry
          · simp [hverdict, haccepts, hkey]
          · have hother : ¬ M.key entry = k := fun heq => hkey heq.symm
            simp [hkey, hother, ih h.of_append]

/-- **The entry that closes a row is the last that is accepted** for its key. -/
theorem closes (h : Judged M verdict (entries ++ entry :: more)) (haccepted : verdict entry = true)
    (hclosed : M.closed (M.row entry) = true) {other : ι} (hother : other ∈ more)
    (hkey : M.key other = M.key entry) : verdict other = false := by
  have hwritten : M.replay (entries ++ [entry]) (M.key entry) = some (M.row entry) := by
    have hverdict := h entries entry more rfl
    rw [haccepted] at hverdict
    rw [replay_snoc, apply_of_accepts hverdict.symm, Function.update_self]
  obtain ⟨between, after, rfl⟩ := List.append_of_mem hother
  have hsplit : entries ++ entry :: (between ++ other :: after)
      = (entries ++ [entry] ++ between) ++ other :: after := by simp
  rw [h _ _ _ hsplit, accepts, hkey, replay_closed hwritten hclosed, Option.any_some, hclosed]
  rfl

end Judged

end ReadModel
