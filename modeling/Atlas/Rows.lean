/-
**Rows of a table, and conditional updates.**

A table as the list of its rows, in the order of their insertion.  An `UPDATE … SET … WHERE …`
rewrites the rows that match and reports how many they were; a caller that fences its write goes on
only when it was exactly one.  A column that the rewriting leaves alone keeps its values, and the
rows selected by such columns are updated where they stand.

Main definitions:

* `Rows.update` — the rows after an update;
* `Rows.updateOne` — an update that has to match exactly one row.

Main results:

* `Rows.eq_of_key`, `Rows.find?_key` — in a table with a unique column a row is known by its key;
* `Rows.exists_of_countP_eq_one` — an update that matched one row found it;
* `Rows.filter_update` — **an update acts on a selection as on the table**.
-/

import Mathlib.Data.List.Basic
import Mathlib.Data.List.Nodup

set_option relaxedAutoImplicit false
set_option autoImplicit false

namespace Rows

variable {α κ : Type} {p q : α → Bool} {set : α → α} {rows rows' : List α} {r r' : α}

/-- `UPDATE … SET … WHERE …`: the rows, those that match rewritten. -/
def update (p : α → Bool) (set : α → α) (rows : List α) : List α :=
  rows.map fun r => if p r then set r else r

/-- An update that has to match exactly one row. -/
def updateOne (p : α → Bool) (set : α → α) (rows : List α) : Option (List α) :=
  if rows.countP p = 1 then some (update p set rows) else none

theorem updateOne_eq_some :
    updateOne p set rows = some rows' ↔ rows.countP p = 1 ∧ update p set rows = rows' := by
  rw [updateOne]
  split
  · next h => simp [h]
  · next h => simp [h]

/-! ### Unique columns -/

section Keys

variable {f : α → κ}

theorem eq_of_key (hkeys : (rows.map f).Nodup) (hr : r ∈ rows) (hr' : r' ∈ rows)
    (h : f r = f r') : r = r' :=
  List.inj_on_of_nodup_map hkeys hr hr' h

/-- In a table with a unique column a row is found by its key. -/
theorem find?_key [DecidableEq κ] (hkeys : (rows.map f).Nodup) (hr : r ∈ rows) :
    (rows.find? fun r' => f r' == f r) = some r := by
  cases hfind : rows.find? fun r' => f r' == f r with
  | none =>
      have hno := List.find?_eq_none.1 hfind r hr
      simp at hno
  | some found =>
      have hmem := List.mem_of_find?_eq_some hfind
      have hkey : f found = f r := by simpa using List.find?_some hfind
      rw [eq_of_key hkeys hmem hr hkey]

theorem exists_of_countP_eq_one (h : rows.countP p = 1) : ∃ r ∈ rows, p r = true := by
  have hpos : 0 < rows.countP p := by omega
  exact List.countP_pos_iff.1 hpos

end Keys

/-! ### Updated rows -/

@[simp] theorem update_nil : update p set [] = [] := rfl

theorem update_append (rows rows' : List α) :
    update p set (rows ++ rows') = update p set rows ++ update p set rows' :=
  List.map_append

theorem update_singleton (hp : p r = true) : update p set [r] = [set r] := by
  simp [update, hp]

/-- An update that matches no row changes none. -/
theorem update_eq_self (h : ∀ r ∈ rows, p r ≠ true) : update p set rows = rows := by
  induction rows with
  | nil => rfl
  | cons a rows ih =>
      have hrest := ih fun r hr => h r (List.mem_cons_of_mem a hr)
      have hfirst := h a List.mem_cons_self
      rw [update, List.map_cons, if_neg hfirst]
      exact congrArg (a :: ·) hrest

/-- Conditions that agree on the rows match the same ones. -/
theorem update_congr (h : ∀ r ∈ rows, p r = q r) : update p set rows = update q set rows := by
  apply List.map_congr_left
  intro r hr
  rw [h r hr]

theorem mem_update : r' ∈ update p set rows ↔
    (∃ r ∈ rows, p r = true ∧ r' = set r) ∨ (r' ∈ rows ∧ p r' ≠ true) := by
  rw [update, List.mem_map]
  constructor
  · rintro ⟨r, hr, rfl⟩
    by_cases hp : p r = true
    · exact .inl ⟨r, hr, hp, if_pos hp⟩
    · rw [if_neg hp]
      exact .inr ⟨hr, hp⟩
  · rintro (⟨r, hr, hp, rfl⟩ | ⟨hr, hp⟩)
    · exact ⟨r, hr, if_pos hp⟩
    · exact ⟨r', hr, if_neg hp⟩

/-- A column that the rewriting leaves alone keeps its values. -/
theorem map_update {f : α → κ} (hset : ∀ r, f (set r) = f r) :
    (update p set rows).map f = rows.map f := by
  rw [update, List.map_map]
  apply List.map_congr_left
  intro r _
  by_cases hp : p r = true
  · simp only [Function.comp_apply, if_pos hp, hset]
  · simp only [Function.comp_apply, if_neg hp]

/-- **An update acts on a selection as on the table**, when the selecting columns are left alone. -/
theorem filter_update (hset : ∀ r, q (set r) = q r) :
    (update p set rows).filter q = update p set (rows.filter q) := by
  induction rows with
  | nil => rfl
  | cons a rows ih =>
      have hsame : q (if p a then set a else a) = q a := by
        by_cases hp : p a = true
        · rw [if_pos hp, hset]
        · rw [if_neg hp]
      simp only [update, List.map_cons, List.filter_cons, hsame] at ih ⊢
      by_cases hq : q a = true
      · rw [if_pos hq, if_pos hq, List.map_cons, ih]
      · rw [if_neg hq, if_neg hq, ih]

end Rows
