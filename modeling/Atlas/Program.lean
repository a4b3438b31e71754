/-
**Programs of transactions.**

A program works on a state it shares with others.  All it can do to the state are atomic *acts*;
between two acts anything else may happen to the state, and the program may be stopped for good.
An act reads the state and an environment (a clock, fresh identifiers, the answers of services
outside), updates the state, and decides how the program goes on.  A database transaction is an act
that either updates the state or, when its body raises, leaves it alone.

There are two ways to reason about a program.  Run alone it is a function: `Program.run` gives the
result and the final state, and the rules for `bind` and `tryCatch` compute it.  Among others it
complies with a guarantee: `Program.Complies` says that every act, performed in any state the others
may have left since the one before, changes the state as the guarantee allows.  What the others may
do is a preorder on states, so that what a program has seen and nobody takes back it still knows.

Main definitions:

* `Program`, `Program.bind`, `Program.tryCatch` — programs with exceptions;
* `Tx`, `Program.atomically` — transactions, and the program that performs one;
* `Tx.Leaves` — what a transaction does not touch;
* `Program.run` — the run of a program that is left alone;
* `Program.perform` — its next act;
* `Program.Complies`, `Program.Triple` — rely and guarantee;
* `Program.Acts` — what the acts of a program do, whatever the others have done before;
* `Program.Adds` — what they add to an amount, all together;
* `Program.Returns` — what its results have, whatever it meets;
* `Program.Hoare` — the promises of a program that runs alone;
* `Program.focus` — a program on a part of the state.

Main results:

* `Program.run_bind`, `Program.run_tryCatch`, `Program.run_atomically` — the sequential rules;
* `Program.Triple.bind`, `Program.Triple.tryCatch`, `Program.Triple.atomically` — **the rules for
  programs among others**;
* `Program.Complies.later` — compliance survives what the others do;
* `Program.Acts.triple` — acts that keep an assertion comply with it;
* `Program.Triple.run_ok`, `Program.Triple.run_error` — what is promised among others holds alone.
-/

import Mathlib.Data.Nat.Notation

set_option relaxedAutoImplicit false
set_option autoImplicit false

/-- A program over environments `ε`, states `σ` and exceptions `χ`, with results in `α`. -/
inductive Program (ε σ χ α : Type) : Type where
  /-- Return a result. -/
  | ret (a : α)
  /-- Raise an exception. -/
  | raise (x : χ)
  /-- Perform an atomic act, and go on as its environment and the state before it say. -/
  | act (update : ε → σ → σ) (next : ε → σ → Program ε σ χ α)

/-- The body of a transaction: from the environment and the state, an exception or a result and
the new state. -/
def Tx (ε σ χ α : Type) := ε → σ → Except χ (α × σ)

namespace Tx

variable {ε σ χ α β : Type}

instance : Monad (Tx ε σ χ) where
  pure a := fun _ s => .ok (a, s)
  bind t k := fun e s =>
    match t e s with
    | .error x => .error x
    | .ok (a, s') => k a e s'

/-- Read the environment. -/
def reading (f : ε → α) : Tx ε σ χ α := fun e s => .ok (f e, s)

/-- Read the state. -/
def read (f : σ → α) : Tx ε σ χ α := fun _ s => .ok (f s, s)

/-- Update the state. -/
def modify (f : σ → σ) : Tx ε σ χ Unit := fun _ s => .ok ((), f s)

/-- Raise an exception; the transaction will be rolled back. -/
def throw (x : χ) : Tx ε σ χ α := fun _ _ => .error x

/-- A pure computation that may raise. -/
def lift (r : Except χ α) : Tx ε σ χ α := fun _ s => r.map fun a => (a, s)

/-- A computation on the state that may raise. -/
def compute (f : σ → Except χ α) : Tx ε σ χ α := fun _ s => (f s).map fun a => (a, s)

/-- The state a transaction leaves: its own when it commits, the one before when it raises. -/
def commit (t : Tx ε σ χ α) (e : ε) (s : σ) : σ :=
  match t e s with
  | .ok (_, s') => s'
  | .error _ => s

variable {e : ε} {s s' s'' : σ} {a a' : α} {b : β} {x : χ}

theorem commit_of_ok {t : Tx ε σ χ α} (h : t e s = .ok (a, s')) : t.commit e s = s' := by
  rw [commit, h]

theorem commit_of_error {t : Tx ε σ χ α} (h : t e s = .error x) : t.commit e s = s := by
  rw [commit, h]

@[simp] theorem pure_eq_ok : (pure a : Tx ε σ χ α) e s = .ok (a', s') ↔ a = a' ∧ s = s' := by
  change (Except.ok (a, s) = Except.ok (a', s')) ↔ _
  simp

/-- A sequence commits exactly when both of its parts do. -/
@[simp] theorem bind_eq_ok {t : Tx ε σ χ α} {k : α → Tx ε σ χ β} :
    (t >>= k) e s = .ok (b, s'') ↔ ∃ a s', t e s = .ok (a, s') ∧ k a e s' = .ok (b, s'') := by
  change (match t e s with
    | .error x => Except.error x
    | .ok (a, s') => k a e s') = _ ↔ _
  cases t e s with
  | error x => simp
  | ok r =>
      obtain ⟨a, s'⟩ := r
      constructor
      · intro h
        exact ⟨a, s', rfl, h⟩
      · rintro ⟨_, _, h, hk⟩
        cases h
        exact hk

/-- A sequence goes on with the result of its first part. -/
theorem bind_of_ok {t : Tx ε σ χ α} {k : α → Tx ε σ χ β} (h : t e s = .ok (a, s')) :
    (t >>= k) e s = k a e s' := by
  change (match t e s with
    | .error x => Except.error x
    | .ok (a, s') => k a e s') = _
  rw [h]

/-- A sequence raises what its first part raises. -/
theorem bind_of_error {t : Tx ε σ χ α} {k : α → Tx ε σ χ β} (h : t e s = .error x) :
    (t >>= k) e s = .error x := by
  change (match t e s with
    | .error x => Except.error x
    | .ok (a, s') => k a e s') = _
  rw [h]

@[simp] theorem reading_eq_ok {f : ε → α} :
    (reading f : Tx ε σ χ α) e s = .ok (a, s') ↔ f e = a ∧ s = s' := by
  simp [reading]

@[simp] theorem read_eq_ok {f : σ → α} :
    (read f : Tx ε σ χ α) e s = .ok (a, s') ↔ f s = a ∧ s = s' := by
  simp [read]

@[simp] theorem modify_eq_ok {f : σ → σ} {u : Unit} :
    (modify f : Tx ε σ χ Unit) e s = .ok (u, s') ↔ f s = s' := by
  simp [modify]

@[simp] theorem throw_ne_ok : ¬ (throw x : Tx ε σ χ α) e s = .ok (a, s') := by
  simp [throw]

@[simp] theorem lift_eq_ok {r : Except χ α} :
    (lift r : Tx ε σ χ α) e s = .ok (a, s') ↔ r = .ok a ∧ s = s' := by
  cases r <;> simp [lift, Except.map]

@[simp] theorem compute_eq_ok {f : σ → Except χ α} :
    (compute f : Tx ε σ χ α) e s = .ok (a, s') ↔ f s = .ok a ∧ s = s' := by
  cases h : f s <;> simp [compute, Except.map, h]

/-! What raised, when a transaction raises. -/

theorem bind_eq_error {t : Tx ε σ χ α} {k : α → Tx ε σ χ β} :
    (t >>= k) e s = .error x ↔
      t e s = .error x ∨ ∃ a s', t e s = .ok (a, s') ∧ k a e s' = .error x := by
  change (match t e s with
    | .error x => Except.error x
    | .ok (a, s') => k a e s') = _ ↔ _
  cases t e s with
  | error y => simp
  | ok r =>
      obtain ⟨a, s'⟩ := r
      constructor
      · intro h
        exact .inr ⟨a, s', rfl, h⟩
      · rintro (h | ⟨_, _, h, hk⟩)
        · cases h
        · cases h
          exact hk

theorem pure_ne_error : (pure a : Tx ε σ χ α) e s ≠ .error x := nofun

theorem reading_ne_error {f : ε → α} : (reading f : Tx ε σ χ α) e s ≠ .error x := nofun

theorem read_ne_error {f : σ → α} : (read f : Tx ε σ χ α) e s ≠ .error x := nofun

theorem modify_ne_error {f : σ → σ} : (modify f : Tx ε σ χ Unit) e s ≠ .error x := nofun

theorem lift_eq_error {r : Except χ α} :
    (lift r : Tx ε σ χ α) e s = .error x ↔ r = .error x := by
  cases r <;> simp [lift, Except.map]

theorem compute_eq_error {f : σ → Except χ α} :
    (compute f : Tx ε σ χ α) e s = .error x ↔ f s = .error x := by
  cases h : f s <;> simp [compute, Except.map, h]

/-! ### Frames -/

/-- A transaction that commits leaves what the view shows of the state. -/
def Leaves (view : σ → β) (t : Tx ε σ χ α) : Prop :=
  ∀ e s a s', t e s = .ok (a, s') → view s' = view s

namespace Leaves

variable {γ : Type} {view : σ → β} {condition : Prop} [Decidable condition] {t t' : Tx ε σ χ α}

theorem pure (a : α) : Leaves view (pure a : Tx ε σ χ α) := by
  intro e s a' s' h
  rw [(pure_eq_ok.1 h).2]

theorem reading (f : ε → α) : Leaves view (reading f : Tx ε σ χ α) := by
  intro e s a s' h
  rw [(reading_eq_ok.1 h).2]

theorem read (f : σ → α) : Leaves view (read f : Tx ε σ χ α) := by
  intro e s a s' h
  rw [(read_eq_ok.1 h).2]

theorem lift (r : Except χ α) : Leaves view (lift r : Tx ε σ χ α) := by
  intro e s a s' h
  rw [(lift_eq_ok.1 h).2]

theorem compute (f : σ → Except χ α) : Leaves view (compute f : Tx ε σ χ α) := by
  intro e s a s' h
  rw [(compute_eq_ok.1 h).2]

theorem throw (x : χ) : Leaves view (throw x : Tx ε σ χ α) :=
  fun _ _ _ _ h => absurd h throw_ne_ok

theorem modify {f : σ → σ} (h : ∀ s, view (f s) = view s) :
    Leaves view (modify f : Tx ε σ χ Unit) := by
  intro e s a s' hs
  rw [← modify_eq_ok.1 hs, h]

theorem bind {k : α → Tx ε σ χ γ} (ht : Leaves view t) (hk : ∀ a, Leaves view (k a)) :
    Leaves view (t >>= k) := by
  intro e s c s'' h
  obtain ⟨a, s', hs', hs''⟩ := bind_eq_ok.1 h
  exact (hk a e s' c s'' hs'').trans (ht e s a s' hs')

theorem ite (ht : condition → Leaves view t) (ht' : ¬ condition → Leaves view t') :
    Leaves view (if condition then t else t') := by
  split
  · exact ht ‹_›
  · exact ht' ‹_›

end Leaves

end Tx

namespace Program

variable {ε σ χ α β : Type}

/-! ### Sequencing and handlers -/

protected def bind : Program ε σ χ α → (α → Program ε σ χ β) → Program ε σ χ β
  | ret a, k => k a
  | raise x, _ => raise x
  | act update next, k => act update fun e s => (next e s).bind k

instance : Monad (Program ε σ χ) where
  pure := ret
  bind := Program.bind

/-- Run `handler` on the exception of a program that raises one. -/
protected def tryCatch :
    Program ε σ χ α → (χ → Program ε σ χ α) → Program ε σ χ α
  | ret a, _ => ret a
  | raise x, handler => handler x
  | act update next, handler => act update fun e s => (next e s).tryCatch handler

instance : MonadExcept χ (Program ε σ χ) where
  throw := raise
  tryCatch := Program.tryCatch

/-- A pure computation that may raise. -/
def lift : Except χ α → Program ε σ χ α
  | .ok a => ret a
  | .error x => raise x

/-- The outcome of a program as a value: its result, or the exception it raised. -/
def attempt : Program ε σ χ α → Program ε σ χ (Except χ α)
  | ret a => ret (.ok a)
  | raise x => ret (.error x)
  | act update next => act update fun e s => (next e s).attempt

/-- Perform a transaction: its update is committed, or it raises and nothing happened. -/
def atomically (t : Tx ε σ χ α) : Program ε σ χ α :=
  act t.commit fun e s => lift ((t e s).map Prod.fst)

/-- Read the environment, outside any transaction. -/
def reading (f : ε → α) : Program ε σ χ α := act (fun _ s => s) fun e _ => ret (f e)

@[simp] theorem ret_bind (a : α) (k : α → Program ε σ χ β) : (ret a >>= k) = k a := rfl

@[simp] theorem pure_bind (a : α) (k : α → Program ε σ χ β) :
    ((pure a : Program ε σ χ α) >>= k) = k a := rfl

@[simp] theorem raise_bind (x : χ) (k : α → Program ε σ χ β) :
    ((raise x : Program ε σ χ α) >>= k) = raise x := rfl

theorem act_bind (update : ε → σ → σ) (next : ε → σ → Program ε σ χ α)
    (k : α → Program ε σ χ β) :
    (act update next >>= k) = act update fun e s => next e s >>= k := rfl

theorem bind_assoc {γ : Type} (p : Program ε σ χ α) (k : α → Program ε σ χ β)
    (k' : β → Program ε σ χ γ) : (p >>= k >>= k') = p >>= fun a => k a >>= k' := by
  induction p with
  | ret a => rfl
  | raise x => rfl
  | act update next ih =>
      simp only [act_bind]
      congr
      funext e s
      exact ih e s

/-- What a program goes on with after its result, it goes on with after an attempt that raises
again what was raised. -/
theorem bind_eq_attempt_bind (p : Program ε σ χ α) (k : α → Program ε σ χ β) :
    (p >>= k) = p.attempt >>= fun outcome => lift outcome >>= k := by
  induction p with
  | ret a => rfl
  | raise x => rfl
  | act update next ih =>
      simp only [act_bind, attempt]
      congr
      funext e s
      exact ih e s

/-! ### Running alone -/

/-- The run of a program that is left alone, with the environments `env i`, `env (i + 1)`, …: its
outcome, the number of the next environment, and the final state. -/
def run : Program ε σ χ α → (ℕ → ε) → ℕ → σ → Except χ α × ℕ × σ
  | ret a, _, i, s => (.ok a, i, s)
  | raise x, _, i, s => (.error x, i, s)
  | act update next, env, i, s => (next (env i) s).run env (i + 1) (update (env i) s)

variable {env : ℕ → ε} {i : ℕ} {s : σ}

@[simp] theorem run_ret (a : α) : (ret a : Program ε σ χ α).run env i s = (.ok a, i, s) := rfl

@[simp] theorem run_pure (a : α) : (pure a : Program ε σ χ α).run env i s = (.ok a, i, s) := rfl

@[simp] theorem run_raise (x : χ) : (raise x : Program ε σ χ α).run env i s = (.error x, i, s) :=
  rfl

@[simp] theorem run_throw (x : χ) :
    (throw x : Program ε σ χ α).run env i s = (.error x, i, s) := rfl

theorem run_eta (p : Program ε σ χ α) :
    p.run env i s = ((p.run env i s).1, (p.run env i s).2.1, (p.run env i s).2.2) := rfl

/-- A sequence runs its first part and, unless that raises, its rest. -/
theorem run_bind (p : Program ε σ χ α) (k : α → Program ε σ χ β) :
    (p >>= k).run env i s =
      match p.run env i s with
      | (.ok a, j, s') => (k a).run env j s'
      | (.error x, j, s') => (.error x, j, s') := by
  induction p generalizing i s with
  | ret a => rfl
  | raise x => rfl
  | act update next ih => exact ih (env i) s

/-- A handler runs after an exception. -/
theorem run_tryCatch (p : Program ε σ χ α) (handler : χ → Program ε σ χ α) :
    (tryCatch p handler).run env i s =
      match p.run env i s with
      | (.ok a, j, s') => (.ok a, j, s')
      | (.error x, j, s') => (handler x).run env j s' := by
  induction p generalizing i s with
  | ret a => rfl
  | raise x => rfl
  | act update next ih => exact ih (env i) s

theorem run_attempt (p : Program ε σ χ α) :
    p.attempt.run env i s = (.ok (p.run env i s).1, (p.run env i s).2) := by
  induction p generalizing i s with
  | ret a => rfl
  | raise x => rfl
  | act update next ih => exact ih (env i) s

/-- A transaction commits its result and state, or is rolled back with its exception. -/
theorem run_atomically (t : Tx ε σ χ α) :
    (atomically t).run env i s =
      match t (env i) s with
      | .ok (a, s') => (.ok a, i + 1, s')
      | .error x => (.error x, i + 1, s) := by
  cases h : t (env i) s with
  | ok r => simp [atomically, run, h, Tx.commit_of_ok h, lift, Except.map]
  | error x => simp [atomically, run, h, Tx.commit_of_error h, lift, Except.map]

@[simp] theorem run_read (f : σ → α) :
    (atomically (Tx.read f) : Program ε σ χ α).run env i s = (.ok (f s), i + 1, s) := rfl

@[simp] theorem run_reading (f : ε → α) :
    (reading f : Program ε σ χ α).run env i s = (.ok (f (env i)), i + 1, s) := rfl

@[simp] theorem run_lift (r : Except χ α) :
    (lift r : Program ε σ χ α).run env i s = (r, i, s) := by
  cases r <;> rfl

/-! ### Interference -/

/-- The program complies with the guarantee `G` from the state `s` on.  Before each act the others
may have moved the state to any later one; the act itself then changes the state as `G` allows, and
what the program returns or raises in the end has the property `Q` or `X` of the state it leaves. -/
def Complies (le G : σ → σ → Prop) (Q : α → σ → Prop) (X : χ → σ → Prop) :
    σ → Program ε σ χ α → Prop
  | s, ret a => Q a s
  | s, raise x => X x s
  | s, act update next => ∀ e s', le s s' →
      G s' (update e s') ∧ Complies le G Q X (update e s') (next e s')

section Rules

variable {le G : σ → σ → Prop} {Q Q' : α → σ → Prop} {X X' : χ → σ → Prop} {P : β → σ → Prop}
  {s' : σ}

/-- A program that complies still does when others have moved the state. -/
theorem Complies.later (htrans : ∀ s t u, le s t → le t u → le s u)
    (hQ : ∀ a s t, le s t → Q a s → Q a t) (hX : ∀ x s t, le s t → X x s → X x t)
    {p : Program ε σ χ α} (hle : le s s') (hp : p.Complies le G Q X s) :
    p.Complies le G Q X s' := by
  cases p with
  | ret a => exact hQ a s s' hle hp
  | raise x => exact hX x s s' hle hp
  | act update next => exact fun e t hst => hp e t (htrans s s' t hle hst)

/-- A program that complies with two guarantees complies with both at once. -/
theorem Complies.and {le' G' : σ → σ → Prop} {p : Program ε σ χ α} (h : p.Complies le G Q X s)
    (h' : p.Complies le' G' Q' X' s) :
    p.Complies (fun s t => le s t ∧ le' s t) (fun s t => G s t ∧ G' s t)
      (fun a s => Q a s ∧ Q' a s) (fun x s => X x s ∧ X' x s) s := by
  induction p generalizing s with
  | ret a => exact ⟨h, h'⟩
  | raise x => exact ⟨h, h'⟩
  | act update next ih =>
      intro e t hle
      obtain ⟨hG, hrest⟩ := h e t hle.1
      obtain ⟨hG', hrest'⟩ := h' e t hle.2
      exact ⟨⟨hG, hG'⟩, ih e t hrest hrest'⟩

/-- From every state where `A` holds the program complies with the guarantee. -/
def Triple (le G : σ → σ → Prop) (A : σ → Prop) (p : Program ε σ χ α) (Q : α → σ → Prop)
    (X : χ → σ → Prop) : Prop :=
  ∀ s, A s → p.Complies le G Q X s

/-- What holds after an attempt, by what it came to. -/
def Answered (Q : α → σ → Prop) (X : χ → σ → Prop) : Except χ α → σ → Prop
  | .ok a => Q a
  | .error x => X x

namespace Triple

variable {A A' : σ → Prop} {p : Program ε σ χ α}

theorem ret {a : α} (h : ∀ s, A s → Q a s) : Triple le G A (ret a : Program ε σ χ α) Q X := h

theorem raise {x : χ} (h : ∀ s, A s → X x s) : Triple le G A (raise x : Program ε σ χ α) Q X := h

theorem lift {r : Except χ α} (hok : ∀ a s, r = .ok a → A s → Q a s)
    (herror : ∀ x s, r = .error x → A s → X x s) :
    Triple le G A (lift r : Program ε σ χ α) Q X := by
  intro s hs
  cases r with
  | ok a => exact hok a s rfl hs
  | error x => exact herror x s rfl hs

theorem consequence (h : Triple le G A p Q X) (hA : ∀ s, A' s → A s) (hQ : ∀ a s, Q a s → Q' a s)
    (hX : ∀ x s, X x s → X' x s) : Triple le G A' p Q' X' := by
  intro s hs
  have hp := h s (hA s hs)
  clear h hs
  induction p generalizing s with
  | ret a => exact hQ a s hp
  | raise x => exact hX x s hp
  | act update next ih =>
      intro e t hle
      exact ⟨(hp e t hle).1, ih e t _ (hp e t hle).2⟩

/-- Assertions about the start may be strengthened. -/
theorem pre (h : Triple le G A p Q X) (hA : ∀ s, A' s → A s) : Triple le G A' p Q X :=
  fun s hs => h s (hA s hs)

theorem bind {k : α → Program ε σ χ β} (hp : Triple le G A p Q X)
    (hk : ∀ a, Triple le G (Q a) (k a) P X) : Triple le G A (p >>= k) P X := by
  intro s hs
  have hp' := hp s hs
  clear hp hs
  induction p generalizing s with
  | ret a => exact hk a s hp'
  | raise x => exact hp'
  | act update next ih =>
      intro e t hle
      exact ⟨(hp' e t hle).1, ih e t _ (hp' e t hle).2⟩

theorem tryCatch {handler : χ → Program ε σ χ α} (hp : Triple le G A p Q X)
    (hx : ∀ x, Triple le G (X x) (handler x) Q X') :
    Triple le G A (tryCatch p handler) Q X' := by
  intro s hs
  have hp' := hp s hs
  clear hp hs
  induction p generalizing s with
  | ret a => exact hp'
  | raise x => exact hx x s hp'
  | act update next ih =>
      intro e t hle
      exact ⟨(hp' e t hle).1, ih e t _ (hp' e t hle).2⟩

theorem attempt {R : Except χ α → σ → Prop} (hp : Triple le G A p Q X)
    (hQ : ∀ a s, Q a s → R (.ok a) s) (hX : ∀ x s, X x s → R (.error x) s) :
    Triple le G A p.attempt R X' := by
  intro s hs
  have hp' := hp s hs
  clear hp hs
  induction p generalizing s with
  | ret a => exact hQ a s hp'
  | raise x => exact hX x s hp'
  | act update next ih =>
      intro e t hle
      exact ⟨(hp' e t hle).1, ih e t _ (hp' e t hle).2⟩

theorem answered (hp : Triple le G A p Q X) : Triple le G A p.attempt (Answered Q X) X' :=
  attempt hp (fun _ _ h => h) fun _ _ h => h

/-- A transaction complies when its commits do, and its rollbacks change nothing.  The assertion
it starts from has to be one the others keep. -/
theorem atomically {t : Tx ε σ χ α} (hA : ∀ s s', le s s' → A s → A s')
    (hok : ∀ e s a s', A s → t e s = .ok (a, s') → G s s' ∧ Q a s')
    (herror : ∀ e s x, A s → t e s = .error x → G s s ∧ X x s) :
    Triple le G A (atomically t) Q X := by
  intro s hs e s' hle
  have hs' := hA s s' hle hs
  change G s' (t.commit e s') ∧
    (Program.lift ((t e s').map Prod.fst)).Complies le G Q X (t.commit e s')
  cases h : t e s' with
  | error x =>
      rw [Tx.commit_of_error h]
      exact herror e s' x hs' h
  | ok r =>
      rw [Tx.commit_of_ok h]
      exact hok e s' r.1 r.2 hs' h

theorem reading {f : ε → α} (hA : ∀ s s', le s s' → A s → A s') (hG : ∀ s, A s → G s s)
    (hQ : ∀ e s, A s → Q (f e) s) :
    Triple le G A (reading f : Program ε σ χ α) Q X :=
  fun s hs e s' hle => ⟨hG s' (hA s s' hle hs), hQ e s' (hA s s' hle hs)⟩

/-- A program that complies among others gives the same promise when it runs alone. -/
theorem run_ok (hle : ∀ s, le s s) (h : Triple le G A p Q X) {env : ℕ → ε} {i j : ℕ} {s s' : σ}
    {a : α} (hs : A s) (hrun : p.run env i s = (.ok a, j, s')) : Q a s' := by
  have hp := h s hs
  clear h hs
  induction p generalizing i s with
  | ret b =>
      cases hrun
      exact hp
  | raise x => cases hrun
  | act update next ih => exact ih (env i) s hrun (hp (env i) s (hle s)).2

theorem run_error (hle : ∀ s, le s s) (h : Triple le G A p Q X) {env : ℕ → ε} {i j : ℕ}
    {s s' : σ} {x : χ} (hs : A s) (hrun : p.run env i s = (.error x, j, s')) : X x s' := by
  have hp := h s hs
  clear h hs
  induction p generalizing i s with
  | ret b => cases hrun
  | raise y =>
      cases hrun
      exact hp
  | act update next ih => exact ih (env i) s hrun (hp (env i) s (hle s)).2

end Triple

/-! ### Acts -/

/-- Every act of the program, from any state at all, is one that `R` allows in its environment. -/
def Acts (R : ε → σ → σ → Prop) : Program ε σ χ α → Prop
  | ret _ => True
  | raise _ => True
  | act update next => ∀ e s, R e s (update e s) ∧ (next e s).Acts R

namespace Acts

variable {R R' : ε → σ → σ → Prop} {p : Program ε σ χ α}

theorem ret (a : α) : (ret a : Program ε σ χ α).Acts R := trivial

theorem raise (x : χ) : (raise x : Program ε σ χ α).Acts R := trivial

theorem lift (r : Except χ α) : (lift r : Program ε σ χ α).Acts R := by
  cases r <;> exact trivial

theorem mono (h : p.Acts R) (hR : ∀ e s s', R e s s' → R' e s s') : p.Acts R' := by
  induction p with
  | ret a => exact trivial
  | raise x => exact trivial
  | act update next ih =>
      intro e s
      exact ⟨hR _ _ _ (h e s).1, ih e s (h e s).2⟩

theorem bind {k : α → Program ε σ χ β} (hp : p.Acts R) (hk : ∀ a, (k a).Acts R) :
    (p >>= k).Acts R := by
  induction p with
  | ret a => exact hk a
  | raise x => exact trivial
  | act update next ih =>
      intro e s
      exact ⟨(hp e s).1, ih e s (hp e s).2⟩

theorem tryCatch {handler : χ → Program ε σ χ α} (hp : p.Acts R) (hx : ∀ x, (handler x).Acts R) :
    (tryCatch p handler).Acts R := by
  induction p with
  | ret a => exact trivial
  | raise x => exact hx x
  | act update next ih =>
      intro e s
      exact ⟨(hp e s).1, ih e s (hp e s).2⟩

theorem attempt (hp : p.Acts R) : p.attempt.Acts R := by
  induction p with
  | ret a => exact trivial
  | raise x => exact trivial
  | act update next ih =>
      intro e s
      exact ⟨(hp e s).1, ih e s (hp e s).2⟩

/-- A transaction acts by its commits; a rollback changes nothing. -/
theorem atomically {t : Tx ε σ χ α} (hrefl : ∀ e s, R e s s)
    (hok : ∀ e s a s', t e s = .ok (a, s') → R e s s') : (atomically t).Acts R := by
  intro e s
  refine ⟨?_, lift _⟩
  cases h : t e s with
  | error x =>
      rw [Tx.commit_of_error h]
      exact hrefl e s
  | ok r =>
      rw [Tx.commit_of_ok h]
      exact hok e s r.1 r.2 h

theorem read {f : σ → α} (hrefl : ∀ e s, R e s s) :
    (Program.atomically (Tx.read f) : Program ε σ χ α).Acts R := by
  refine atomically hrefl ?_
  intro e s a s' h
  obtain ⟨-, rfl⟩ := Tx.read_eq_ok.1 h
  exact hrefl e s

theorem reading {f : ε → α} (hrefl : ∀ e s, R e s s) :
    (Program.reading f : Program ε σ χ α).Acts R :=
  fun e s => ⟨hrefl e s, trivial⟩

/-- **Acts that keep an assertion comply with it**, whatever the program returns or raises. -/
theorem triple {K : σ → Prop} (h : p.Acts R) (hle : ∀ s s', le s s' → K s → K s')
    (hR : ∀ e s s', K s → R e s s' → G s s' ∧ K s') :
    Triple le G K p (fun _ => K) (fun _ => K) := by
  intro s hs
  induction p generalizing s with
  | ret a => exact hs
  | raise x => exact hs
  | act update next ih =>
      intro e s' hs'
      obtain ⟨hG, hK⟩ := hR e s' (update e s') (hle s s' hs' hs) (h e s').1
      exact ⟨hG, ih e s' (h e s').2 _ hK⟩

end Acts

/-! ### Alone -/

/-- What a program promises when it runs alone: nobody moves the state between two acts, and an act
may change it in any way. -/
abbrev Hoare (A : σ → Prop) (p : Program ε σ χ α) (Q : α → σ → Prop) (X : χ → σ → Prop) : Prop :=
  Triple Eq (fun _ _ => True) A p Q X

namespace Hoare

variable {A : σ → Prop} {p : Program ε σ χ α}

/-- What holds among others holds alone. -/
theorem of_triple (hle : ∀ s, le s s) (h : Triple le G A p Q X) : Hoare A p Q X := by
  intro s hs
  have hp := h s hs
  clear h hs
  induction p generalizing s with
  | ret a => exact hp
  | raise x => exact hp
  | act update next ih =>
      rintro e _ rfl
      exact ⟨True.intro, ih e s _ (hp e s (hle s)).2⟩

theorem atomically {t : Tx ε σ χ α} (hok : ∀ e s a s', A s → t e s = .ok (a, s') → Q a s')
    (herror : ∀ e s x, A s → t e s = .error x → X x s) : Hoare A (Program.atomically t) Q X := by
  refine Triple.atomically ?_ ?_ ?_
  · rintro s _ rfl hs
    exact hs
  · intro e s a s' hs h
    exact ⟨trivial, hok e s a s' hs h⟩
  · intro e s x hs h
    exact ⟨trivial, herror e s x hs h⟩

/-- Every program promises nothing. -/
theorem trivial (p : Program ε σ χ α) :
    Hoare A p (fun _ _ => True) (fun _ _ => True) := by
  intro s hs
  clear hs
  induction p generalizing s with
  | ret a => exact True.intro
  | raise x => exact True.intro
  | act update next ih =>
      rintro e _ rfl
      exact ⟨True.intro, ih e s (update e s)⟩

/-- What a program reads is a fact about the state it leaves as it is. -/
theorem read {f : σ → α} (h : ∀ s, A s → Q (f s) s) :
    Hoare A (Program.atomically (Tx.read f) : Program ε σ χ α) Q X := by
  refine atomically ?_ ?_
  · intro e s a s' hs hread
    obtain ⟨rfl, rfl⟩ := Tx.read_eq_ok.1 hread
    exact h s hs
  · intro e s x _ hread
    cases hread

theorem run_result (h : Hoare A p Q X) {env : ℕ → ε} {i : ℕ} {s : σ} {a : α} (hs : A s)
    (hrun : (p.run env i s).1 = .ok a) : Q a (p.run env i s).2.2 :=
  Triple.run_ok (fun _ => rfl) h hs (Prod.ext hrun rfl)

end Hoare

end Rules

/-! The rules are all later modules use of compliance. -/

section Compliance

variable {le G : σ → σ → Prop} {Q : α → σ → Prop} {X : χ → σ → Prop} {s : σ}

theorem complies_ret {a : α} : (ret a : Program ε σ χ α).Complies le G Q X s ↔ Q a s := Iff.rfl

theorem complies_raise {x : χ} : (raise x : Program ε σ χ α).Complies le G Q X s ↔ X x s := Iff.rfl

theorem complies_act {update : ε → σ → σ} {next : ε → σ → Program ε σ χ α} :
    (act update next).Complies le G Q X s ↔ ∀ e s', le s s' →
      G s' (update e s') ∧ (next e s').Complies le G Q X (update e s') := Iff.rfl

/-! ### One act at a time -/

/-- Perform the next act of a program, if it has not ended: the state and the rest it leaves. -/
def perform : Program ε σ χ α → ε → σ → σ × Program ε σ χ α
  | ret a, _, s => (s, ret a)
  | raise x, _, s => (s, raise x)
  | act update next, e, s => (update e s, next e s)

/-! A transaction is one act: it commits and goes on, or raises and leaves the state. -/

section Transactions

variable {t : Tx ε σ χ α} {k : α → Program ε σ χ β} {e : ε} {s' : σ} {a : α} {x : χ}

theorem perform_atomically_of_ok (h : t e s = .ok (a, s')) :
    (atomically t).perform e s = (s', ret a) := by
  change (t.commit e s, lift ((t e s).map Prod.fst)) = _
  rw [Tx.commit_of_ok h, h]
  rfl

theorem perform_atomically_of_error (h : t e s = .error x) :
    (atomically t).perform e s = (s, raise x) := by
  change (t.commit e s, lift ((t e s).map Prod.fst)) = _
  rw [Tx.commit_of_error h, h]
  rfl

theorem perform_atomically_bind_of_ok (h : t e s = .ok (a, s')) :
    (atomically t >>= k).perform e s = (s', k a) := by
  change (t.commit e s, lift ((t e s).map Prod.fst) >>= k) = _
  rw [Tx.commit_of_ok h, h]
  rfl

theorem perform_atomically_bind_of_error (h : t e s = .error x) :
    (atomically t >>= k).perform e s = (s, raise x) := by
  change (t.commit e s, lift ((t e s).map Prod.fst) >>= k) = _
  rw [Tx.commit_of_error h, h]
  rfl

end Transactions

/-- A program that complies performs an act of the guarantee, and its rest complies. -/
theorem Complies.perform {p : Program ε σ χ α} (hle : le s s) (hG : G s s)
    (h : p.Complies le G Q X s) (e : ε) :
    G s (p.perform e s).1 ∧ (p.perform e s).2.Complies le G Q X (p.perform e s).1 := by
  cases p with
  | ret a => exact ⟨hG, h⟩
  | raise x => exact ⟨hG, h⟩
  | act update next => exact h e s hle

theorem Acts.perform {R : ε → σ → σ → Prop} {p : Program ε σ χ α} {e : ε} (hrefl : R e s s)
    (h : p.Acts R) : R e s (p.perform e s).1 ∧ (p.perform e s).2.Acts R := by
  cases p with
  | ret a => exact ⟨hrefl, h⟩
  | raise x => exact ⟨hrefl, h⟩
  | act update next => exact h e s

theorem acts_act {R : ε → σ → σ → Prop} {update : ε → σ → σ} {next : ε → σ → Program ε σ χ α} :
    (act update next).Acts R ↔ ∀ e s, R e s (update e s) ∧ (next e s).Acts R := Iff.rfl

end Compliance

/-! ### Amounts -/

/-- The program adds at most `n` to the amount, all its acts together, whatever happens between
them. -/
def Adds (amount : σ → ℕ) : Program ε σ χ α → ℕ → Prop
  | ret _, _ => True
  | raise _, _ => True
  | act update next, n => ∀ e s, ∃ now later, now + later = n ∧
      amount (update e s) ≤ amount s + now ∧ (next e s).Adds amount later

namespace Adds

variable {amount : σ → ℕ} {p : Program ε σ χ α} {n m : ℕ}

theorem ret (a : α) : (ret a : Program ε σ χ α).Adds amount n := trivial

theorem raise (x : χ) : (raise x : Program ε σ χ α).Adds amount n := trivial

theorem lift (r : Except χ α) : (lift r : Program ε σ χ α).Adds amount n := by
  cases r <;> exact trivial

theorem mono (h : p.Adds amount n) (hle : n ≤ m) : p.Adds amount m := by
  induction p generalizing n m with
  | ret a => exact trivial
  | raise x => exact trivial
  | act update next ih =>
      intro e s
      obtain ⟨now, later, rfl, hnow, hlater⟩ := h e s
      exact ⟨now, m - now, by omega, hnow, ih e s hlater (by omega)⟩

/-- Acts that add nothing. -/
theorem of_acts {R : ε → σ → σ → Prop} (h : p.Acts R)
    (hR : ∀ e s s', R e s s' → amount s' ≤ amount s) : p.Adds amount 0 := by
  induction p with
  | ret a => exact trivial
  | raise x => exact trivial
  | act update next ih =>
      intro e s
      exact ⟨0, 0, rfl, hR e s _ (h e s).1, ih e s (h e s).2⟩

theorem bind {k : α → Program ε σ χ β} (hp : p.Adds amount n) (hk : ∀ a, (k a).Adds amount m) :
    (p >>= k).Adds amount (n + m) := by
  induction p generalizing n with
  | ret a => exact (hk a).mono (Nat.le_add_left m n)
  | raise x => exact trivial
  | act update next ih =>
      intro e s
      obtain ⟨now, later, rfl, hnow, hlater⟩ := hp e s
      exact ⟨now, later + m, by omega, hnow, ih e s hlater⟩

theorem attempt (hp : p.Adds amount n) : p.attempt.Adds amount n := by
  induction p generalizing n with
  | ret a => exact trivial
  | raise x => exact trivial
  | act update next ih =>
      intro e s
      obtain ⟨now, later, rfl, hnow, hlater⟩ := hp e s
      exact ⟨now, later, rfl, hnow, ih e s hlater⟩

/-- A transaction adds what its commits add. -/
theorem atomically {t : Tx ε σ χ α}
    (hok : ∀ e s a s', t e s = .ok (a, s') → amount s' ≤ amount s + n) :
    (atomically t).Adds amount n := by
  intro e s
  refine ⟨n, 0, rfl, ?_, ?_⟩
  · cases h : t e s with
    | error x =>
        rw [Tx.commit_of_error h]
        exact Nat.le_add_right _ _
    | ok r =>
        rw [Tx.commit_of_ok h]
        exact hok e s r.1 r.2 h
  · exact lift _

theorem perform (h : p.Adds amount n) (e : ε) (s : σ) : ∃ now later, now + later = n ∧
    amount (p.perform e s).1 ≤ amount s + now ∧ (p.perform e s).2.Adds amount later := by
  cases p with
  | ret a => exact ⟨0, n, Nat.zero_add n, Nat.le_refl _, trivial⟩
  | raise x => exact ⟨0, n, Nat.zero_add n, Nat.le_refl _, trivial⟩
  | act update next => exact h e s

/-- A program that adds nothing goes on adding nothing. -/
theorem perform_zero (h : p.Adds amount 0) (e : ε) (s : σ) :
    amount (p.perform e s).1 ≤ amount s ∧ (p.perform e s).2.Adds amount 0 := by
  obtain ⟨now, later, hsum, hnow, hlater⟩ := h.perform e s
  obtain ⟨rfl, rfl⟩ : now = 0 ∧ later = 0 := by omega
  exact ⟨hnow, hlater⟩

end Adds

theorem adds_act {amount : σ → ℕ} {update : ε → σ → σ} {next : ε → σ → Program ε σ χ α} {n : ℕ} :
    (act update next).Adds amount n ↔ ∀ e s, ∃ now later, now + later = n ∧
      amount (update e s) ≤ amount s + now ∧ (next e s).Adds amount later := Iff.rfl

/-! ### Results -/

/-- Whatever the acts of the program meet, a result of it has the property. -/
def Returns (P : α → Prop) : Program ε σ χ α → Prop
  | ret a => P a
  | raise _ => True
  | act _ next => ∀ e s, (next e s).Returns P

namespace Returns

variable {P : α → Prop} {Q : β → Prop} {p : Program ε σ χ α}

theorem ret {a : α} (h : P a) : (ret a : Program ε σ χ α).Returns P := h

theorem raise (x : χ) : (raise x : Program ε σ χ α).Returns P := trivial

theorem lift {r : Except χ α} (h : ∀ a, r = .ok a → P a) :
    (lift r : Program ε σ χ α).Returns P := by
  cases r with
  | ok a => exact h a rfl
  | error x => exact trivial

theorem trivial (p : Program ε σ χ α) : p.Returns fun _ => True := by
  induction p with
  | ret a => exact True.intro
  | raise x => exact True.intro
  | act update next ih => exact ih

theorem bind {k : α → Program ε σ χ β} (hp : p.Returns P) (hk : ∀ a, P a → (k a).Returns Q) :
    (p >>= k).Returns Q := by
  induction p with
  | ret a => exact hk a hp
  | raise x => exact True.intro
  | act update next ih => exact fun e s => ih e s (hp e s)

theorem tryCatch {handler : χ → Program ε σ χ α} (hp : p.Returns P)
    (hx : ∀ x, (handler x).Returns P) : (tryCatch p handler).Returns P := by
  induction p with
  | ret a => exact hp
  | raise x => exact hx x
  | act update next ih => exact fun e s => ih e s (hp e s)

/-- What follows adds for the results only. -/
theorem adds_bind {amount : σ → ℕ} {n m : ℕ} {k : α → Program ε σ χ β} (hp : p.Returns P)
    (hn : p.Adds amount n) (hk : ∀ a, P a → (k a).Adds amount m) :
    (p >>= k).Adds amount (n + m) := by
  induction p generalizing n with
  | ret a => exact (hk a hp).mono (Nat.le_add_left m n)
  | raise x => exact True.intro
  | act update next ih =>
      intro e s
      obtain ⟨now, later, rfl, hnow, hlater⟩ := hn e s
      exact ⟨now, later + m, by omega, hnow, ih e s (hp e s) hlater⟩

/-- What follows matters for the results only. -/
theorem bind_congr {k k' : α → Program ε σ χ β} (hp : p.Returns P)
    (h : ∀ a, P a → k a = k' a) : (p >>= k) = (p >>= k') := by
  induction p with
  | ret a => exact h a hp
  | raise x => rfl
  | act update next ih =>
      simp only [act_bind]
      congr
      funext e s
      exact ih e s (hp e s)

end Returns

/-! ### Programs on a part of the state -/

section Focus

variable {ε' σ' : Type} {view : σ' → σ} {put : σ → σ' → σ'} {env : ε' → ε}

/-- A program on a part of a larger state: `view` reads the part, `put` writes it. -/
def focus (view : σ' → σ) (put : σ → σ' → σ') (env : ε' → ε) :
    Program ε σ χ α → Program ε' σ' χ α
  | ret a => ret a
  | raise x => raise x
  | act update next =>
      act (fun e s => put (update (env e) (view s)) s) fun e s =>
        (next (env e) (view s)).focus view put env

/-- It writes nothing but the part. -/
theorem acts_focus (p : Program ε σ χ α) :
    (p.focus view put env).Acts fun _ s s' => ∃ t, s' = put t s := by
  induction p with
  | ret a => exact trivial
  | raise x => exact trivial
  | act update next ih =>
      intro e s
      exact ⟨⟨_, rfl⟩, ih (env e) (view s)⟩

/-- Left alone it does to the part what the program itself does. -/
theorem run_focus (hview : ∀ t s, view (put t s) = t) (hput : ∀ t t' s, put t' (put t s) = put t' s)
    (hsame : ∀ s, put (view s) s = s) (p : Program ε σ χ α) {envs : ℕ → ε'} {i : ℕ} {s : σ'} :
    (p.focus view put env).run envs i s =
      ((p.run (fun j => env (envs j)) i (view s)).1,
        (p.run (fun j => env (envs j)) i (view s)).2.1,
        put (p.run (fun j => env (envs j)) i (view s)).2.2 s) := by
  induction p generalizing i s with
  | ret a => simp [focus, hsame]
  | raise x => simp [focus, hsame]
  | act update next ih =>
      have h := ih (env (envs i)) (view s) (i := i + 1)
        (s := put (update (env (envs i)) (view s)) s)
      rw [hview, hput] at h
      exact h

end Focus

attribute [irreducible] Complies Acts Adds

end Program
