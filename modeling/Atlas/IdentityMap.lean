/-
**Sessions with an identity map.**

An object-relational session keeps one instance for each row it has loaded.  A later query of the
same session that finds the row again, even one that locks it, returns the instance as it is: the
row is locked, and the attributes are those of the first read.  What the session flushes are the
columns whose attributes it has changed since; every other column of the row keeps what other
transactions committed there in the meantime.

So a guard that is evaluated after the lock still looks at the first read.  If nothing was
committed to the row in between, the two are the same, and the write is the one a fresh session
would make.

Main definitions:

* `IdentityMap.column`, `IdentityMap.Columns` — what flushing makes of a column, and of a row;
* `IdentityMap.view` — the attributes a locking query returns;
* `IdentityMap.write` — a guarded write through the identity map.

Main results:

* `IdentityMap.write_fresh` — **on a row nobody has written, it is the write of a fresh session**.
-/

import Mathlib.Data.Option.Defs

set_option relaxedAutoImplicit false
set_option autoImplicit false

namespace IdentityMap

/-- A column after a flush: the changed attribute, or what is committed there. -/
def column {α : Type} [DecidableEq α] (loaded changed committed : α) : α :=
  if changed = loaded then committed else changed

section Column

variable {α : Type} [DecidableEq α] (loaded changed committed : α)

/-- An attribute that was not changed leaves the column alone. -/
@[simp] theorem column_self : column loaded loaded committed = committed := by
  simp [column]

/-- A column nobody else has written takes the attribute. -/
@[simp] theorem column_fresh : column loaded changed loaded = changed := by
  unfold column
  split
  · rename_i h
    exact h.symm
  · rfl

theorem column_of_ne (h : changed ≠ loaded) : column loaded changed committed = changed := by
  rw [column, if_neg h]

end Column

/-- Rows whose flush is column by column. -/
class Columns (ρ : Type) where
  /-- The row after the flush of an instance that was loaded and changed, over the committed row. -/
  merge : (loaded changed committed : ρ) → ρ
  merge_self : ∀ loaded committed, merge loaded loaded committed = committed
  merge_fresh : ∀ loaded changed, merge loaded changed loaded = changed

attribute [simp] Columns.merge_self Columns.merge_fresh

section Session

variable {ρ ε : Type}

/-- What a query that locks the committed row returns: the instance the session has, or the row. -/
def view (loaded : Option ρ) (committed : ρ) : ρ := loaded.getD committed

@[simp] theorem view_none (committed : ρ) : view none committed = committed := rfl

@[simp] theorem view_some (loaded committed : ρ) : view (some loaded) committed = loaded := rfl

/-- A guarded write through the identity map: the guard and the change look at the instance, and
the database checks the row its changed columns make of the committed one. -/
def write [Columns ρ] (guard : ρ → Bool) (change : ρ → Except ε (Option ρ))
    (flush : ρ → Except ε ρ) (loaded : Option ρ) (committed : ρ) : Except ε (Option ρ) :=
  let row := view loaded committed
  if guard row then
    match change row with
    | .error e => .error e
    | .ok none => .ok none
    | .ok (some changed) => (flush (Columns.merge row changed committed)).map some
  else .ok none

variable [Columns ρ] {guard : ρ → Bool} {change : ρ → Except ε (Option ρ)}
  {flush : ρ → Except ε ρ} {loaded : Option ρ} {committed written : ρ}

/-- The guard of a write that succeeds held of the instance. -/
theorem guard_of_write (h : write guard change flush loaded committed = .ok (some written)) :
    guard (view loaded committed) = true := by
  cases hguard : guard (view loaded committed) with
  | true => rfl
  | false =>
      simp only [write, hguard] at h
      cases h

/-- A write that succeeds flushes the changed columns of the instance over the committed row. -/
theorem flush_of_write (h : write guard change flush loaded committed = .ok (some written)) :
    ∃ changed, change (view loaded committed) = .ok (some changed) ∧
      flush (Columns.merge (view loaded committed) changed committed) = .ok written := by
  simp only [write, if_pos (guard_of_write h)] at h
  cases hchange : change (view loaded committed) with
  | error e =>
      rw [hchange] at h
      cases h
  | ok result =>
      rw [hchange] at h
      cases result with
      | none => cases h
      | some changed =>
          refine ⟨changed, rfl, ?_⟩
          simp only at h
          cases hflush : flush (Columns.merge (view loaded committed) changed committed) with
          | error e =>
              rw [hflush] at h
              cases h
          | ok row =>
              rw [hflush] at h
              cases h
              rfl

/-- The write of a fresh session: the guard, the change and the flush of the committed row. -/
theorem write_none : write guard change flush none committed
    = if guard committed then
        match change committed with
        | .error e => .error e
        | .ok none => .ok none
        | .ok (some changed) => (flush changed).map some
      else .ok none := by
  simp only [write, view_none, Columns.merge_fresh]

/-- **On a row nobody has written since the session read it, the write is that of a fresh
session.** -/
theorem write_fresh : write guard change flush (some committed) committed
    = write guard change flush none committed :=
  rfl

end Session

end IdentityMap
