/-
**Checked computations.**

A computation that may raise is a value of `Except`.  This module has the guard of such
computations and the rules that take one apart: a successful sequence is a successful first part
followed by a successful rest, and a guard succeeds exactly when its condition holds.  With them
the inversion of a checked function is a `simp only` and no case split.

Main definitions:

* `Checked.ensure` — raise an error unless a condition holds.

Main results:

* `Checked.bind_eq_ok` — **a sequence succeeds exactly when both of its parts do**;
* `Checked.ensure_eq_ok` — a guard succeeds exactly when its condition holds.
-/

import Mathlib.Init

set_option relaxedAutoImplicit false
set_option autoImplicit false

namespace Checked

variable {ε α β : Type}

/-- Raise `e` unless `p` holds. -/
def ensure (p : Prop) [Decidable p] (e : ε) : Except ε Unit :=
  if p then .ok () else .error e

/-- **A sequence succeeds exactly when both of its parts do.** -/
@[simp] theorem bind_eq_ok {x : Except ε α} {k : α → Except ε β} {b : β} :
    (x >>= k) = .ok b ↔ ∃ a, x = .ok a ∧ k a = .ok b := by
  cases x with
  | error e =>
      constructor
      · intro h
        cases h
      · rintro ⟨_, h, -⟩
        cases h
  | ok a =>
      constructor
      · intro h
        exact ⟨a, rfl, h⟩
      · rintro ⟨_, h, hk⟩
        cases h
        exact hk

@[simp] theorem map_eq_ok {f : α → β} {x : Except ε α} {b : β} :
    (f <$> x) = .ok b ↔ ∃ a, x = .ok a ∧ f a = b := by
  cases x with
  | error e =>
      constructor
      · intro h
        cases h
      · rintro ⟨_, h, -⟩
        cases h
  | ok a =>
      constructor
      · intro h
        cases h
        exact ⟨a, rfl, rfl⟩
      · rintro ⟨_, h, rfl⟩
        cases h
        rfl

@[simp] theorem pure_eq_ok {a b : α} : (pure a : Except ε α) = .ok b ↔ a = b := by
  constructor
  · intro h
    cases h
    rfl
  · rintro rfl
    rfl

@[simp] theorem ensure_eq_ok {p : Prop} [Decidable p] {e : ε} {u : Unit} :
    ensure p e = .ok u ↔ p := by
  by_cases hp : p <;> simp [ensure, hp]

@[simp] theorem throw_ne_ok {e : ε} {a : α} : (throw e : Except ε α) ≠ .ok a :=
  fun h => nomatch h

/-! What raised, when a sequence raises. -/

theorem bind_eq_error {x : Except ε α} {k : α → Except ε β} {e : ε} :
    (x >>= k) = .error e ↔ x = .error e ∨ ∃ a, x = .ok a ∧ k a = .error e := by
  cases x with
  | error e' =>
      change (Except.error e' = Except.error e) ↔ _
      simp
  | ok a =>
      change k a = .error e ↔ _
      simp

theorem ensure_eq_error {p : Prop} [Decidable p] {e e' : ε} :
    ensure p e = .error e' ↔ ¬ p ∧ e = e' := by
  by_cases hp : p <;> simp [ensure, hp]

theorem pure_ne_error {a : α} {e : ε} : (pure a : Except ε α) ≠ .error e := nofun

/-- A sequence whose first part is known runs its rest. -/
@[simp] theorem ok_bind (a : α) (k : α → Except ε β) : (Except.ok a >>= k) = k a := rfl

@[simp] theorem error_bind (e : ε) (k : α → Except ε β) : (Except.error e >>= k) = .error e := rfl

/-- A checked function that succeeds on every item of a list, and is `g` where it succeeds. -/
theorem mapM_eq_ok {f : α → Except ε β} {g : α → β} (hg : ∀ a b, f a = .ok b → b = g a)
    {l : List α} {l' : List β} (h : l.mapM f = .ok l') :
    l' = l.map g ∧ ∀ a ∈ l, f a = .ok (g a) := by
  induction l generalizing l' with
  | nil =>
      simp only [List.mapM_nil, pure_eq_ok] at h
      subst h
      exact ⟨rfl, fun a ha => absurd ha List.not_mem_nil⟩
  | cons a l ih =>
      simp only [List.mapM_cons, bind_eq_ok, pure_eq_ok] at h
      obtain ⟨b, hb, bs, hbs, rfl⟩ := h
      obtain ⟨rfl, hl⟩ := ih hbs
      have hba := hg a b hb
      subst hba
      refine ⟨rfl, ?_⟩
      intro c hc
      rcases List.mem_cons.1 hc with rfl | hc
      · exact hb
      · exact hl c hc

/-- A checked function that succeeds on every item of a list succeeds on the list. -/
theorem mapM_of_forall {f : α → Except ε β} {g : α → β} {l : List α}
    (h : ∀ a ∈ l, f a = .ok (g a)) : l.mapM f = .ok (l.map g) := by
  induction l with
  | nil => rfl
  | cons a l ih =>
      have hrest := ih fun b hb => h b (List.mem_cons_of_mem a hb)
      rw [List.mapM_cons, h a List.mem_cons_self, hrest]
      rfl

end Checked
