/-
**Batches behind a head of line.**

A queue is drained in batches, and the items of a batch are taken care of one after the other.  A
batch is *covered* when every item that precedes one of its items is done, or stands before it in
the batch: then whoever reaches an item has left nothing behind.  The log of what was done is in
order when no item enters it for the first time after an item it precedes.

Main definitions:

* `HeadOfLine.Covered` — nothing is left behind by a batch;
* `HeadOfLine.InOrder` — a log whose first entries are in order.

Main results:

* `HeadOfLine.Covered.head`, `HeadOfLine.Covered.tail`, `HeadOfLine.Covered.snoc` — the first item
  of a batch, the rest of it, and a longer batch;
* `HeadOfLine.InOrder.snoc` — **how a log stays in order**;
* `HeadOfLine.InOrder.earlier` — what precedes an item is found before it.
-/

import Mathlib.Data.List.Basic

set_option relaxedAutoImplicit false
set_option autoImplicit false

namespace HeadOfLine

variable {α : Type*} {done done' : α → Prop} {precedes precedes' : α → α → Prop}
  {a b : α} {batch rest log : List α}

/-- An item of a list that was lengthened is the new one, or one of the list. -/
theorem eq_or_mem_of_snoc {before after : List α} (h : batch ++ [a] = before ++ b :: after) :
    (before = batch ∧ b = a) ∨ ∃ rest, batch = before ++ b :: rest := by
  rcases List.eq_nil_or_concat after with rfl | ⟨rest, d, rfl⟩
  · obtain ⟨hbatch, hlast⟩ := List.append_inj' h rfl
    exact .inl ⟨hbatch.symm, (List.singleton_inj.1 hlast).symm⟩
  · rw [List.concat_eq_append, ← List.cons_append, ← List.append_assoc] at h
    obtain ⟨hbatch, -⟩ := List.append_inj' h rfl
    exact .inr ⟨rest, hbatch⟩

/-! ### Batches -/

/-- Every predecessor of an item of the batch is done, or stands before it in the batch. -/
def Covered (done : α → Prop) (precedes : α → α → Prop) (batch : List α) : Prop :=
  ∀ before a after, batch = before ++ a :: after → ∀ b, precedes b a → done b ∨ b ∈ before

theorem Covered.nil : Covered done precedes [] := by
  intro before a after h
  simp at h

/-- Nothing is left behind by the first item of a batch. -/
theorem Covered.head (h : Covered done precedes (a :: rest)) (hb : precedes b a) : done b := by
  rcases h [] a rest rfl b hb with hdone | hmem
  · exact hdone
  · exact absurd hmem List.not_mem_nil

/-- When the first item is done, the rest of the batch is covered. -/
theorem Covered.tail (h : Covered done precedes (a :: rest)) (ha : done a) :
    Covered done precedes rest := by
  intro before c after hrest b hb
  have hbatch : a :: rest = (a :: before) ++ c :: after := by rw [hrest, List.cons_append]
  rcases h (a :: before) c after hbatch b hb with hdone | hmem
  · exact .inl hdone
  · rcases List.mem_cons.1 hmem with rfl | hmem
    · exact .inl ha
    · exact .inr hmem

/-- An item whose predecessors are done or in the batch may follow it. -/
theorem Covered.snoc (h : Covered done precedes batch)
    (ha : ∀ b, precedes b a → done b ∨ b ∈ batch) : Covered done precedes (batch ++ [a]) := by
  intro before c after hbatch b hb
  rcases eq_or_mem_of_snoc hbatch with ⟨rfl, rfl⟩ | ⟨rest, hrest⟩
  · exact ha b hb
  · exact h before c rest hrest b hb

/-- A batch stays covered when what was done stays done and new predecessors are done. -/
theorem Covered.mono (h : Covered done precedes batch) (hdone : ∀ b, done b → done' b)
    (hprecedes : ∀ a ∈ batch, ∀ b, precedes' b a → precedes b a ∨ done' b) :
    Covered done' precedes' batch := by
  intro before a after hbatch b hb
  have ha : a ∈ batch := by
    rw [hbatch]
    exact List.mem_append_right before List.mem_cons_self
  rcases hprecedes a ha b hb with hb | hb
  · rcases h before a after hbatch b hb with hdone' | hmem
    · exact .inl (hdone b hdone')
    · exact .inr hmem
  · exact .inl hb

/-! ### Logs -/

/-- No item enters the log for the first time after an item it precedes. -/
def InOrder (precedes : α → α → Prop) (log : List α) : Prop :=
  ∀ before a after, log = before ++ a :: after → a ∉ before → ∀ b ∈ before, ¬ precedes a b

theorem InOrder.nil : InOrder precedes [] := by
  intro before a after h
  simp at h

/-- **A log stays in order** when nothing in it is preceded by a new item that is appended. -/
theorem InOrder.snoc (h : InOrder precedes log)
    (ha : a ∉ log → ∀ b ∈ log, ¬ precedes a b) : InOrder precedes (log ++ [a]) := by
  intro before c after hlog hc b hb
  rcases eq_or_mem_of_snoc hlog with ⟨rfl, rfl⟩ | ⟨rest, hrest⟩
  · exact ha hc b hb
  · exact h before c rest hrest hc b hb

/-- **What precedes an item of the log, and is found in it, is found before the item.** -/
theorem InOrder.earlier (h : InOrder precedes log) {offset : ℕ} (hb : log[offset]? = some b)
    (ha : a ∈ log) (hne : a ≠ b) (hprecedes : precedes a b) :
    ∃ earlier < offset, log[earlier]? = some a := by
  -- where the item that precedes is found first
  obtain ⟨before, after, hlog, hfirst⟩ := List.eq_append_cons_of_mem ha
  subst hlog
  refine ⟨before.length, ?_, by simp⟩
  rcases Nat.lt_trichotomy offset before.length with hlt | heq | hlt
  · rw [List.getElem?_append_left hlt] at hb
    exact absurd hprecedes (h before a after rfl hfirst b (List.mem_of_getElem? hb))
  · subst heq
    rw [List.getElem?_append_right (Nat.le_refl _), Nat.sub_self, List.getElem?_cons_zero] at hb
    exact absurd (Option.some.inj hb) hne
  · exact hlt

/-! ### Prefixes -/

/-- **What is taken from a list in turn is a prefix of it**: an item follows what was taken when all
items before it were taken, and it was not. -/
theorem prefix_snoc {taken before after : List α} (hnodup : (before ++ a :: after).Nodup)
    (h : taken <+: before ++ a :: after) (hnew : a ∉ taken) (hbefore : ∀ b ∈ before, b ∈ taken) :
    taken ++ [a] <+: before ++ a :: after := by
  have htaken : taken = before := by
    rcases List.prefix_or_prefix_of_prefix h (List.prefix_append before (a :: after)) with
      ⟨rest, rfl⟩ | ⟨more, rfl⟩
    · -- nothing of what comes before is missing
      cases rest with
      | nil => rw [List.append_nil]
      | cons b rest =>
          have hb := hbefore b (by simp)
          rw [List.append_assoc, List.nodup_append] at hnodup
          exact absurd rfl (hnodup.2.2 b hb b (by simp))
    · cases more with
      | nil => rw [List.append_nil]
      | cons c more =>
          have hmore := (List.prefix_append_right_inj before).1 h
          rw [(List.cons_prefix_cons.1 hmore).1] at hnew
          exact absurd (by simp) hnew
  rw [htaken]
  exact ⟨after, by simp⟩

end HeadOfLine
