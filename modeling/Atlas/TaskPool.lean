/-
**Pools of programs.**

Any number of programs work on one state.  A task is a program under way with a tag that says what
kind of task it is; a step of the pool starts a task, performs one act of a task in an environment,
or stops a task for good, in any order.  Two ways to reason about the acts of a single program carry
over to the pool.  When every act of every program that may start is one that `R` allows, every step
of the pool is.  When the programs comply with guarantees the others rely on, all tasks do in every
reachable state: a task that acts keeps its own promises, and the guarantee of its act is what the
others rely on.

Main definitions:

* `Pool`, `PoolAction`, `Pool.apply` — a pool and its steps;
* `PoolSpec`, `PoolSpec.lts` — what may start and which environments there are, and the transition
  system of a pool;
* `Pool.All` — a property of all tasks.

Main results:

* `PoolSpec.acts_of_reachable`, `PoolSpec.world_of_step` — **acts**: a step changes the state as the
  acts of the programs may;
* `PoolSpec.complies_of_reachable`, `PoolSpec.guarantee_of_step` — **rely and guarantee**: all tasks
  comply, and every step keeps the guarantee of its task.
-/

import Atlas.Program
import Atlas.TransitionSystem
import Mathlib.Logic.Function.Basic

set_option relaxedAutoImplicit false
set_option autoImplicit false

/-- A state and the tasks under way, each at a place of its own. -/
structure Pool (ε σ χ α τ : Type) where
  world : σ
  tasks : ℕ → Option (τ × Program ε σ χ α) := fun _ => none

/-- A step of a pool. -/
inductive PoolAction (ε σ χ α τ : Type) where
  /-- A task starts at a place. -/
  | start (place : ℕ) (tag : τ) (program : Program ε σ χ α)
  /-- The task at a place performs its next act. -/
  | act (place : ℕ) (e : ε)
  /-- The task at a place is stopped: it has ended, or it crashes. -/
  | stop (place : ℕ)

namespace Pool

variable {ε σ χ α τ : Type}

/-- The pool after a step. -/
def apply (s : Pool ε σ χ α τ) : PoolAction ε σ χ α τ → Pool ε σ χ α τ
  | .start place tag program =>
      { s with tasks := Function.update s.tasks place (some (tag, program)) }
  | .act place e =>
      match s.tasks place with
      | none => s
      | some (tag, program) =>
          { world := (program.perform e s.world).1
            tasks := Function.update s.tasks place
              (some (tag, (program.perform e s.world).2)) }
  | .stop place => { s with tasks := Function.update s.tasks place none }

/-- Every task has the property. -/
def All (s : Pool ε σ χ α τ) (P : τ → Program ε σ χ α → Prop) : Prop :=
  ∀ place tag program, s.tasks place = some (tag, program) → P tag program

/-- What holds of a new entry and of the entries there were holds after the entry is written. -/
theorem all_update {tasks : ℕ → Option (τ × Program ε σ χ α)} {place : ℕ}
    {task : Option (τ × Program ε σ χ α)} {P Q : τ → Program ε σ χ α → Prop}
    (h : ∀ other tag program, tasks other = some (tag, program) → P tag program)
    (hnew : ∀ tag program, task = some (tag, program) → Q tag program)
    (hold : ∀ other tag program, other ≠ place → tasks other = some (tag, program) →
      P tag program → Q tag program) :
    ∀ other tag program, Function.update tasks place task other = some (tag, program) →
      Q tag program := by
  intro other tag program hlookup
  by_cases heq : other = place
  · subst heq
    rw [Function.update_self] at hlookup
    exact hnew tag program hlookup
  · rw [Function.update_of_ne heq] at hlookup
    exact hold other tag program heq hlookup (h other tag program hlookup)

end Pool

/-- The pools with a start, the tasks that may start and the environments of the acts. -/
structure PoolSpec (ε σ χ α τ : Type) where
  init : σ → Prop
  starts : Pool ε σ χ α τ → τ → Program ε σ χ α → Prop
  allows : ε → σ → Prop

namespace PoolSpec

variable {ε σ χ α τ : Type} (spec : PoolSpec ε σ χ α τ)

/-- The steps of a pool that are possible. -/
def Allows (s : Pool ε σ χ α τ) : PoolAction ε σ χ α τ → Prop
  | .start place tag program => s.tasks place = none ∧ spec.starts s tag program
  | .act _ e => spec.allows e s.world
  | .stop _ => True

/-- The transition system of a pool. -/
def lts : Lts (Pool ε σ χ α τ) (PoolAction ε σ χ α τ) where
  init s := spec.init s.world ∧ s.tasks = fun _ => none
  step s action s' := spec.Allows s action ∧ s' = s.apply action

variable {spec} {s s' : Pool ε σ χ α τ} {action : PoolAction ε σ χ α τ}

/-- A task may be run alone, where all environments are possible. -/
theorem reachable_run (hallows : ∀ e w, spec.allows e w) (h : spec.lts.Reachable s) (place : ℕ)
    (envs : List ε) :
    spec.lts.Reachable (envs.foldl (fun s e => s.apply (.act place e)) s) := by
  induction envs generalizing s with
  | nil => exact h
  | cons e envs ih =>
      have hstep : spec.lts.step s (.act place e) (s.apply (.act place e)) :=
        ⟨hallows e s.world, rfl⟩
      exact ih (h.step hstep)

/-! ### Acts -/

section Acts

variable {R : ε → σ → σ → Prop}

theorem acts_preserved (hrefl : ∀ e w, R e w w)
    (hstart : ∀ s tag program, spec.starts s tag program → program.Acts R) :
    spec.lts.Preserved fun s => s.All fun _ program => program.Acts R := by
  rintro s action _ hs ⟨hallows, rfl⟩
  cases action with
  | start place tag program =>
      refine Pool.all_update hs ?_ fun _ _ _ _ _ h => h
      rintro _ _ ⟨⟩
      exact hstart s tag program hallows.2
  | act place e =>
      rw [Pool.apply]
      split
      · exact hs
      · rename_i tag program htask
        refine Pool.all_update hs ?_ fun _ _ _ _ _ h => h
        rintro _ _ ⟨⟩
        exact ((hs place tag program htask).perform (hrefl e s.world)).2
  | stop place => exact Pool.all_update hs nofun fun _ _ _ _ _ h => h

/-- Every task of a reachable state acts as the programs may. -/
theorem acts_of_reachable (hrefl : ∀ e w, R e w w)
    (hstart : ∀ s tag program, spec.starts s tag program → program.Acts R)
    (h : spec.lts.Reachable s) : s.All fun _ program => program.Acts R := by
  refine h.invariant ?_ (acts_preserved hrefl hstart)
  rintro s ⟨-, htasks⟩ place tag program htask
  rw [htasks] at htask
  cases htask

/-- **A step changes the state as the acts of the programs may**, or leaves it. -/
theorem world_of_step (hrefl : ∀ e w, R e w w) (hs : s.All fun _ program => program.Acts R)
    (h : spec.lts.step s action s') :
    s'.world = s.world ∨ ∃ place e, action = .act place e ∧ spec.allows e s.world ∧
      R e s.world s'.world := by
  obtain ⟨hallows, rfl⟩ := h
  cases action with
  | start place tag program => exact .inl rfl
  | act place e =>
      rw [Pool.apply]
      split
      · exact .inl rfl
      · rename_i tag program htask
        exact .inr ⟨place, e, rfl, hallows,
          ((hs place tag program htask).perform (hrefl e s.world)).1⟩
  | stop place => exact .inl rfl

end Acts

/-! ### Rely and guarantee -/

section Guarantees

variable {K : σ → Prop} {le G : τ → σ → σ → Prop} {Q : τ → α → σ → Prop} {X : τ → χ → σ → Prop}
  {Compatible : τ → τ → Prop}

/-- What the rules for guarantees ask of the programs that start, of what the tasks rely on, and of
what they guarantee.  `K` is an invariant of the state; two tasks are compatible when what the one
guarantees the other may rely on. -/
structure Conduct (spec : PoolSpec ε σ χ α τ) (K : σ → Prop) (le G : τ → σ → σ → Prop)
    (Q : τ → α → σ → Prop) (X : τ → χ → σ → Prop) (Compatible : τ → τ → Prop) : Prop where
  init : ∀ w, spec.init w → K w
  starts : ∀ s tag program, spec.starts s tag program → K s.world →
    program.Complies (le tag) (G tag) (Q tag) (X tag) s.world
  compatible : ∀ s tag program, spec.starts s tag program →
    ∀ place other program', s.tasks place = some (other, program') →
      Compatible tag other ∧ Compatible other tag
  refl : ∀ tag w, K w → le tag w w ∧ G tag w w
  trans : ∀ tag w w' w'', le tag w w' → le tag w' w'' → le tag w w''
  invariant : ∀ tag w w', K w → G tag w w' → K w'
  others : ∀ tag other w w', Compatible tag other → K w → G tag w w' → le other w w'
  returned : ∀ tag a w w', le tag w w' → Q tag a w → Q tag a w'
  raised : ∀ tag x w w', le tag w w' → X tag x w → X tag x w'

/-- Everything the rules keep: the invariant, and that all tasks comply and are compatible. -/
structure Orderly (s : Pool ε σ χ α τ) (K : σ → Prop) (le G : τ → σ → σ → Prop)
    (Q : τ → α → σ → Prop) (X : τ → χ → σ → Prop) (Compatible : τ → τ → Prop) : Prop where
  world : K s.world
  tasks : s.All fun tag program =>
    program.Complies (le tag) (G tag) (Q tag) (X tag) s.world
  compatible : ∀ place place' tag tag' program program', place ≠ place' →
    s.tasks place = some (tag, program) → s.tasks place' = some (tag', program') →
      Compatible tag tag'

/-- The act of a task keeps its guarantee, and leaves a rest that complies. -/
theorem Orderly.act (hc : Conduct spec K le G Q X Compatible)
    (hs : Orderly s K le G Q X Compatible) {place : ℕ} {tag : τ} {program : Program ε σ χ α}
    (htask : s.tasks place = some (tag, program)) (e : ε) :
    G tag s.world (program.perform e s.world).1 ∧
      (program.perform e s.world).2.Complies (le tag) (G tag) (Q tag) (X tag)
        (program.perform e s.world).1 :=
  (hs.tasks place tag program htask).perform (hc.refl tag s.world hs.world).1
    (hc.refl tag s.world hs.world).2 e

theorem orderly_preserved (hc : Conduct spec K le G Q X Compatible) :
    spec.lts.Preserved fun s => Orderly s K le G Q X Compatible := by
  rintro s action _ hs ⟨hallows, rfl⟩
  cases action with
  | start place tag program =>
      refine ⟨hs.world, ?_, ?_⟩
      · refine Pool.all_update hs.tasks ?_ fun _ _ _ _ _ h => h
        rintro _ _ ⟨⟩
        exact hc.starts s tag program hallows.2 hs.world
      · intro place₁ place₂ tag₁ tag₂ program₁ program₂ hne h₁ h₂
        simp only [Pool.apply] at h₁ h₂
        by_cases heq₁ : place₁ = place
        · subst heq₁
          rw [Function.update_self] at h₁
          rw [Function.update_of_ne (Ne.symm hne)] at h₂
          cases h₁
          exact (hc.compatible s tag program hallows.2 place₂ tag₂ program₂ h₂).1
        · rw [Function.update_of_ne heq₁] at h₁
          by_cases heq₂ : place₂ = place
          · subst heq₂
            rw [Function.update_self] at h₂
            cases h₂
            exact (hc.compatible s tag program hallows.2 place₁ tag₁ program₁ h₁).2
          · rw [Function.update_of_ne heq₂] at h₂
            exact hs.compatible place₁ place₂ tag₁ tag₂ program₁ program₂ hne h₁ h₂
  | act place e =>
      cases htask : s.tasks place with
      | none =>
          simp only [Pool.apply, htask]
          exact hs
      | some task =>
          obtain ⟨tag, program⟩ := task
          obtain ⟨hG, hrest⟩ := hs.act hc htask e
          simp only [Pool.apply, htask]
          refine ⟨hc.invariant tag _ _ hs.world hG, ?_, ?_⟩
          · refine Pool.all_update hs.tasks ?_ ?_
            · rintro _ _ ⟨⟩
              exact hrest
            · intro other tag' program' hne hother hp
              have hle := hc.others tag tag' _ _
                (hs.compatible place other tag tag' program program' (Ne.symm hne) htask hother)
                hs.world hG
              exact hp.later (hc.trans tag') (fun a w w' => hc.returned tag' a w w')
                (fun x w w' => hc.raised tag' x w w') hle
          · intro place₁ place₂ tag₁ tag₂ program₁ program₂ hne h₁ h₂
            have hkept : ∀ {p t q}, Function.update s.tasks place
                (some (tag, (program.perform e s.world).2)) p = some (t, q) →
                ∃ q', s.tasks p = some (t, q') := by
              intro p t q h
              by_cases heq : p = place
              · subst heq
                rw [Function.update_self] at h
                cases h
                exact ⟨program, htask⟩
              · rw [Function.update_of_ne heq] at h
                exact ⟨q, h⟩
            obtain ⟨q₁, hq₁⟩ := hkept h₁
            obtain ⟨q₂, hq₂⟩ := hkept h₂
            exact hs.compatible place₁ place₂ tag₁ tag₂ q₁ q₂ hne hq₁ hq₂
  | stop place =>
      refine ⟨hs.world, Pool.all_update hs.tasks nofun fun _ _ _ _ _ h => h, ?_⟩
      intro place₁ place₂ tag₁ tag₂ program₁ program₂ hne h₁ h₂
      have hkept : ∀ {p t q}, Function.update s.tasks place none p = some (t, q) →
          s.tasks p = some (t, q) := by
        intro p t q h
        by_cases heq : p = place
        · subst heq
          rw [Function.update_self] at h
          cases h
        · rw [Function.update_of_ne heq] at h
          exact h
      exact hs.compatible place₁ place₂ tag₁ tag₂ program₁ program₂ hne (hkept h₁) (hkept h₂)

/-- **Every reachable pool is orderly.** -/
theorem complies_of_reachable (hc : Conduct spec K le G Q X Compatible)
    (h : spec.lts.Reachable s) : Orderly s K le G Q X Compatible := by
  refine h.invariant ?_ (orderly_preserved hc)
  rintro s ⟨hinit, htasks⟩
  have hnone : ∀ place, s.tasks place = none := fun place => by rw [htasks]
  refine ⟨hc.init _ hinit, ?_, ?_⟩
  · intro place tag program htask
    rw [hnone] at htask
    cases htask
  · intro place place' tag tag' program program' _ htask
    rw [hnone] at htask
    cases htask

/-- **Every step keeps the guarantee of its task**, or leaves the state. -/
theorem guarantee_of_step (hc : Conduct spec K le G Q X Compatible)
    (hs : Orderly s K le G Q X Compatible) (h : spec.lts.step s action s') :
    s'.world = s.world ∨ ∃ place e tag program, action = .act place e ∧
      s.tasks place = some (tag, program) ∧ G tag s.world s'.world := by
  obtain ⟨-, rfl⟩ := h
  cases action with
  | start place tag program => exact .inl rfl
  | act place e =>
      cases htask : s.tasks place with
      | none => exact .inl (by simp only [Pool.apply, htask])
      | some task =>
          obtain ⟨tag, program⟩ := task
          refine .inr ⟨place, e, tag, program, rfl, htask, ?_⟩
          simp only [Pool.apply, htask]
          exact (hs.act hc htask e).1
  | stop place => exact .inl rfl

end Guarantees

end PoolSpec
