/-
**Tables with a primary key.**

A table is an association list whose keys are distinct, which is Mathlib's `AList`: the distinct
keys are part of the value, so no table has two rows of one key.  An `INSERT` or an `UPDATE` of one
row is `AList.insert`; the module adds what SQL has besides: the `UPDATE` of every row, and the
`CHECK` constraints a written row has to meet.

Main definitions:

* `Table`, `Table.mapRows` — tables, and the update of every row;
* `Table.count` — the number of rows with a property;
* `CheckConstraint`, `CheckConstraint.firstViolated` — the constraints of a table's rows.

Main results:

* `Table.lookup_insert_eq`, `Table.lookup_mapRows` — what a row is after an update;
* `Table.lookup_of_find`, `Table.find_eq_none` — what a search by other columns says;
* `Table.count_insert_new`, `Table.count_insert` — how a write changes a count;
* `CheckConstraint.firstViolated_eq_none` — a row is accepted exactly when it meets every
  constraint.
-/

import Mathlib.Data.List.AList

set_option relaxedAutoImplicit false
set_option autoImplicit false

/-- A table of rows `ρ` by primary key `κ`. -/
abbrev Table (κ ρ : Type) := AList fun _ : κ => ρ

namespace Table

variable {κ ρ : Type} [DecidableEq κ]

/-- The row of a key after one row was written. -/
theorem lookup_insert_eq (t : Table κ ρ) (k k' : κ) (r : ρ) :
    (t.insert k r).lookup k' = if k' = k then some r else t.lookup k' := by
  by_cases h : k' = k
  · subst h
    rw [AList.lookup_insert, if_pos rfl]
  · rw [AList.lookup_insert_ne h, if_neg h]

/-- Write the row of a key; without a row the table stays as it is. -/
def write (t : Table κ ρ) (k : κ) : Option ρ → Table κ ρ
  | none => t
  | some r => t.insert k r

@[simp] theorem write_none (t : Table κ ρ) (k : κ) : t.write k none = t := rfl

@[simp] theorem write_some (t : Table κ ρ) (k : κ) (r : ρ) : t.write k (some r) = t.insert k r :=
  rfl

/-- Rewrite the row of every key. -/
def mapRows (f : κ → ρ → ρ) (t : Table κ ρ) : Table κ ρ where
  entries := t.entries.map (Sigma.map id f)
  nodupKeys := by
    have h := t.nodupKeys
    rw [List.NodupKeys, List.keys] at h ⊢
    rw [List.map_map]
    exact h

@[simp] theorem lookup_mapRows (f : κ → ρ → ρ) (t : Table κ ρ) (k : κ) :
    (t.mapRows f).lookup k = (t.lookup k).map (f k) :=
  List.dlookup_map₂ k

/-! ### Searching -/

/-- A row that is found is the row of its key, and what was looked for. -/
theorem lookup_of_find {t : Table κ ρ} {p : (Sigma fun _ : κ => ρ) → Bool} {k : κ} {r : ρ}
    (h : t.entries.find? p = some ⟨k, r⟩) : t.lookup k = some r ∧ p ⟨k, r⟩ = true :=
  ⟨AList.mem_lookup_iff.2 (List.mem_of_find?_eq_some h), List.find?_some h⟩

/-- Nothing is found exactly when no row is what was looked for. -/
theorem find_eq_none {t : Table κ ρ} {p : (Sigma fun _ : κ => ρ) → Bool} :
    t.entries.find? p = none ↔ ∀ k r, t.lookup k = some r → p ⟨k, r⟩ = false := by
  rw [List.find?_eq_none]
  constructor
  · intro h k r hr
    exact Bool.eq_false_iff.2 (h ⟨k, r⟩ (AList.mem_lookup_iff.1 hr))
  · rintro h ⟨k, r⟩ hmem
    exact Bool.eq_false_iff.1 (h k r (AList.mem_lookup_iff.2 hmem))

/-! ### Counting -/

section Count

variable (p : ρ → Bool)

/-- The number of rows with a property. -/
def count (t : Table κ ρ) : ℕ := t.entries.countP fun entry => p entry.2

omit [DecidableEq κ] in
@[simp] theorem count_empty : count p (∅ : Table κ ρ) = 0 := rfl

/-- A row under a new key is counted if it has the property. -/
theorem count_insert_new {t : Table κ ρ} {k : κ} (h : t.lookup k = none) (r : ρ) :
    count p (t.insert k r) = count p t + if p r then 1 else 0 := by
  have hk : k ∉ t := AList.lookup_eq_none.1 h
  rw [count, AList.entries_insert_of_notMem hk, List.countP_cons]
  rfl

/-- The rows besides that of a key, and that row. -/
theorem count_eq_of_lookup {t : Table κ ρ} {k : κ} {r : ρ} (h : t.lookup k = some r) :
    count p t = (t.entries.kerase k).countP (fun entry => p entry.2) + if p r then 1 else 0 := by
  have hmem : k ∈ t.entries.keys := List.dlookup_isSome.1 (Option.isSome_iff_exists.2 ⟨r, h⟩)
  obtain ⟨r', before, after, hnot, hentries, herase⟩ := List.exists_of_kerase hmem
  have hr : r' = r := by
    have hentry : (⟨k, r'⟩ : Sigma fun _ : κ => ρ) ∈ t.entries := by simp [hentries]
    have hfirst : t.lookup k = some r' := AList.mem_lookup_iff.2 hentry
    exact Option.some.inj (hfirst.symm.trans h)
  subst hr
  have hsplit : count p t = (before ++ ⟨k, r'⟩ :: after).countP (fun entry => p entry.2) := by
    rw [count, hentries]
  rw [hsplit, herase, List.countP_append, List.countP_append, List.countP_cons, Nat.add_assoc]

/-- A row written over another one is counted in its place. -/
theorem count_insert {t : Table κ ρ} {k : κ} {old : ρ} (h : t.lookup k = some old) (r : ρ) :
    count p (t.insert k r) + (if p old then 1 else 0) = count p t + if p r then 1 else 0 := by
  have hnew : count p (t.insert k r)
      = (t.entries.kerase k).countP (fun entry => p entry.2) + if p r then 1 else 0 := by
    rw [count, AList.entries_insert, List.countP_cons]
  have hold := count_eq_of_lookup p h
  omega

/-- A write that keeps the property keeps the count. -/
theorem count_insert_same {t : Table κ ρ} {k : κ} {old : ρ} (h : t.lookup k = some old) {r : ρ}
    (hr : p r = p old) : count p (t.insert k r) = count p t := by
  have hcount := count_insert p h r
  rw [hr] at hcount
  omega

omit [DecidableEq κ] in
theorem count_mapRows {f : κ → ρ → ρ} (h : ∀ k r, p (f k r) = p r) (t : Table κ ρ) :
    count p (t.mapRows f) = count p t := by
  have hcomp : (fun entry : Sigma fun _ : κ => ρ => p entry.2) ∘ Sigma.map id f
      = fun entry => p entry.2 := funext fun entry => h entry.1 entry.2
  rw [count, mapRows, List.countP_map, hcomp, count]

end Count

end Table

/-- A named condition on the rows of a table. -/
structure CheckConstraint (ρ : Type) where
  name : String
  holds : ρ → Bool

namespace CheckConstraint

variable {ρ : Type}

/-- The first constraint a row does not meet. -/
def firstViolated (checks : List (CheckConstraint ρ)) (r : ρ) : Option (CheckConstraint ρ) :=
  checks.find? fun c => !c.holds r

/-- The row meets every constraint. -/
def AllHold (checks : List (CheckConstraint ρ)) (r : ρ) : Prop :=
  ∀ c ∈ checks, c.holds r = true

instance (checks : List (CheckConstraint ρ)) (r : ρ) : Decidable (AllHold checks r) :=
  inferInstanceAs (Decidable (∀ c ∈ checks, c.holds r = true))

/-- A row is accepted exactly when it meets every constraint. -/
theorem firstViolated_eq_none {checks : List (CheckConstraint ρ)} {r : ρ} :
    firstViolated checks r = none ↔ AllHold checks r := by
  simp [firstViolated, AllHold, List.find?_eq_none]

end CheckConstraint
