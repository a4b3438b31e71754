/-
**The fencing of invocations.**

The system of a ledger: any number of workers run the transactions of its service, in any order and
with any readings, also for results that arrive long after their attempt was taken over.  A result
is presented with the id of its attempt, which is the token of ownership.

Main definitions:

* `Atlas.LedgerCall`, `Atlas.LedgerService.system` — the transactions and the system;
* `Atlas.Ledger.Superseded` — a token whose attempt is closed or has a successor;
* `Atlas.LedgerFenced` — what fencing promises.

Main results:

* `Atlas.LedgerService.changes_of_step` — **every transaction is a sequence of changes**;
* `Atlas.LedgerService.execute_complies` — every act of a call is a step of the system;
* `Atlas.LedgerService.fenced` — **the ledger of every such service is fenced**;
* `Atlas.invocation_ledger_fencing` — the ledgers of model calls and of tool calls.
-/

import Atlas.InvocationHistory
import Atlas.TransitionSystem
import Mathlib.Logic.Relation

set_option relaxedAutoImplicit false
set_option autoImplicit false

namespace Atlas

open Checked

variable {C : LedgerColumns}

/-! ### The system -/

/-- The transactions of a ledger, with what they read. -/
inductive LedgerCall (C : LedgerColumns) where
  | begin (call : C.Call) (place : C.Place) (look : Look) (e : LedgerEnv C)
  | succeed (invocationId attemptId : String) (output : C.Output) (result : C.Result)
      (e : LedgerEnv C)
  | fail (invocationId attemptId errorClass retryClass : String) (e : LedgerEnv C)

/-- The call a transaction begins an attempt for. -/
def LedgerCall.asks : LedgerCall C → C.Call → Prop
  | .begin call _ _ _, asked => call = asked
  | .succeed .., _ | .fail .., _ => False

namespace LedgerService

variable (S : LedgerService C)

def perform (l : Ledger C) : LedgerCall C → Ledger C
  | .begin call place look e => (S.beginCall call place look).commit e l
  | .succeed invocationId attemptId output result e =>
      (S.succeed invocationId attemptId output result).commit e l
  | .fail invocationId attemptId errorClass retryClass e =>
      (S.fail invocationId attemptId errorClass retryClass).commit e l

/-- The transition system of a ledger, which is empty at first. -/
def system : Lts (Ledger C) (LedgerCall C) where
  init l := l = {}
  step l a l' := l' = S.perform l a

/-! ### What the transactions write -/

section Spec

variable {S} {A : C.Call → Prop} {l l' : Ledger C} {e : LedgerEnv C} {x : Exc}

theorem conditionally_eq_ok {write : Ledger C → Option (Ledger C)} {u : Unit} :
    conditionally write x e l = .ok (u, l') ↔ write l = some l' := by
  simp only [conditionally, Tx.bind_eq_ok, Tx.compute_eq_ok, Tx.modify_eq_ok]
  constructor
  · rintro ⟨written, _, ⟨hwrite, rfl⟩, rfl⟩
    cases hw : write l with
    | none =>
        rw [hw] at hwrite
        cases hwrite
    | some l'' =>
        rw [hw] at hwrite
        cases hwrite
        rfl
  · intro hwrite
    exact ⟨l', l, ⟨by rw [hwrite]; rfl, rfl⟩, rfl⟩

theorem conditionally_eq_error {write : Ledger C → Option (Ledger C)} (h : write l = none) :
    conditionally write x e l = .error x := by
  apply Tx.bind_of_error
  simp [Tx.compute, h, Except.map]

/-- **Closing an attempt and its invocation**, when both conditional updates match. -/
theorem closed_of_writes {invocationId attemptId : String} {status : AttemptStatus}
    {setRow : InvocationRow C → InvocationRow C} {setAttempt : AttemptRow C → AttemptRow C}
    {p q : InvocationRow C → Bool} {attempts' : List (AttemptRow C)}
    {invocations' : List (InvocationRow C)} (hl : l.Valid) (hstatus : status ≠ .started)
    (hsetRow : ∀ row, (setRow row).id = row.id ∧ (setRow row).invocationKey = row.invocationKey ∧
      (setRow row).status = .ofAttempt status ∧
      (status = .succeeded → (setRow row).output.isSome))
    (hsetAttempt : ∀ attempt, (setAttempt attempt).id = attempt.id ∧
      (setAttempt attempt).invocationId = attempt.invocationId ∧
      (setAttempt attempt).attempt = attempt.attempt ∧ (setAttempt attempt).status = status)
    (hcalled : ∀ row, (setRow row).call = row.call)
    (hattempts : Rows.updateOne (fun a => a.id == attemptId && a.status == .started) setAttempt
      l.attempts = some attempts')
    (hp : ∀ row, p row = (row.id == invocationId &&
      ({ l with attempts := attempts' } : Ledger C).ownership invocationId attemptId status &&
        q row))
    (hrows : Rows.updateOne p setRow l.invocations = some invocations') :
    LedgerChange S A l { invocations := invocations', attempts := attempts' } ∧
      ∃ row ∈ l.invocations, row.id = invocationId ∧ row.status = .inProgress ∧
        setRow row ∈ invocations' := by
  obtain rfl := funext hp
  obtain ⟨hone, rfl⟩ := Rows.updateOne_eq_some.1 hattempts
  obtain ⟨hrowOne, rfl⟩ := Rows.updateOne_eq_some.1 hrows
  obtain ⟨attempt, hattempt, hmatch⟩ := Rows.exists_of_countP_eq_one hone
  simp only [Bool.and_eq_true, beq_iff_eq] at hmatch
  obtain ⟨rfl, hstarted⟩ := hmatch
  obtain ⟨row, hrow, hrowMatch⟩ := Rows.exists_of_countP_eq_one hrowOne
  simp only [Bool.and_eq_true, beq_iff_eq] at hrowMatch
  obtain ⟨⟨rfl, howns⟩, hextra⟩ := hrowMatch
  -- the owner the second update asks for is the attempt the first one closed
  have hid : attempt.invocationId = row.id := by
    obtain ⟨owner, howner, hownerMatch⟩ := List.any_eq_true.1 howns
    simp only [Bool.and_eq_true, beq_iff_eq] at hownerMatch
    obtain ⟨⟨⟨hownerId, hownerOf⟩, -⟩, -⟩ := hownerMatch
    rcases Rows.mem_update.1 howner with ⟨old, hold, hmatch, rfl⟩ | ⟨hold, -⟩
    · rw [(hsetAttempt old).1] at hownerId
      rw [(hsetAttempt old).2.1] at hownerOf
      rwa [Rows.eq_of_key hl.attemptIds hold hattempt hownerId] at hownerOf
    · rwa [Rows.eq_of_key hl.attemptIds hold hattempt hownerId] at hownerOf
  have hattemptsEq : Rows.update (fun a => a.id == attempt.id && a.status == .started) setAttempt
      l.attempts = Rows.update (fun a => a.id == attempt.id) setAttempt l.attempts := by
    apply Rows.update_congr
    intro a ha
    by_cases hsame : a.id = attempt.id
    · rw [Rows.eq_of_key hl.attemptIds ha hattempt hsame]
      simp [hstarted]
    · simp [hsame]
  rw [hattemptsEq] at howns ⊢
  have hrowsEq : Rows.update (fun r => r.id == row.id &&
      ({ l with attempts := Rows.update (fun a => a.id == attempt.id) setAttempt l.attempts } :
        Ledger C).ownership row.id attempt.id status && q r) setRow l.invocations =
      Rows.update (fun r => r.id == row.id) setRow l.invocations := by
    apply Rows.update_congr
    intro r hr
    by_cases hsame : r.id = row.id
    · rw [Rows.eq_of_key hl.ids hr hrow hsame, howns, hextra, Bool.and_true, Bool.and_true]
    · have hne : (r.id == row.id) = false := by simpa using hsame
      rw [hne, Bool.false_and, Bool.false_and]
  rw [hrowsEq]
  refine ⟨LedgerChange.closed row attempt status setRow setAttempt hrow hattempt hid hstarted
    hstatus hsetRow hsetAttempt hcalled, row, hrow, rfl, ?_, ?_⟩
  · obtain ⟨owner, howner, hownerId, hprogress, -⟩ := hl.open_attempt hattempt hstarted
    rwa [Rows.eq_of_key hl.ids howner hrow (hownerId.trans hid)] at hprogress
  · exact Rows.mem_update.2 (.inl ⟨row, hrow, by simp, rfl⟩)

theorem closeAttempt_eq_ok {invocationId attemptId errorClass retryClass : String} {u : Unit}
    (hl : l.Valid)
    (h : closeAttempt x invocationId attemptId errorClass retryClass e l = .ok (u, l')) :
    LedgerChange S A l l' ∧ ∃ row ∈ l.invocations, row.id = invocationId ∧
      row.status = .inProgress ∧ row.fail errorClass retryClass e.now ∈ l'.invocations := by
  simp only [closeAttempt, Tx.bind_eq_ok, Tx.reading_eq_ok, conditionally_eq_ok] at h
  obtain ⟨_, _, ⟨rfl, rfl⟩, _, l₁, hfail, hmark⟩ := h
  obtain ⟨attempts', hattempts, rfl⟩ := Option.map_eq_some_iff.1 hfail
  obtain ⟨invocations', hrows, rfl⟩ := Option.map_eq_some_iff.1 hmark
  refine closed_of_writes hl (by decide) ?_ ?_ (fun _ => rfl) hattempts (fun _ => rfl) hrows
  · intro row
    refine ⟨rfl, rfl, rfl, ?_⟩
    intro h
    cases h
  · exact fun attempt => ⟨rfl, rfl, rfl, rfl⟩

theorem succeed_eq_ok {invocationId attemptId : String} {output : C.Output} {result : C.Result}
    {u : Unit} (hl : l.Valid) (h : S.succeed invocationId attemptId output result e l = .ok (u, l')) :
    LedgerChange S A l l' ∧ ∃ row ∈ l.invocations, row.id = invocationId ∧
      row.status = .inProgress ∧ row.complete output result e.now ∈ l'.invocations := by
  simp only [succeed, Tx.bind_eq_ok, Tx.reading_eq_ok, conditionally_eq_ok] at h
  obtain ⟨_, _, ⟨rfl, rfl⟩, _, l₁, hcomplete, hinvocation⟩ := h
  obtain ⟨attempts', hattempts, rfl⟩ := Option.map_eq_some_iff.1 hcomplete
  obtain ⟨invocations', hrows, rfl⟩ := Option.map_eq_some_iff.1 hinvocation
  have hclosed : AttemptStatus.succeeded ≠ .started := by decide
  refine closed_of_writes (q := fun _ => true) hl hclosed ?_ ?_ (fun _ => rfl) hattempts ?_ hrows
  · exact fun row => ⟨rfl, rfl, rfl, fun _ => rfl⟩
  · exact fun attempt => ⟨rfl, rfl, rfl, rfl⟩
  · intro row
    rw [Bool.and_true]

theorem startAttempt_eq_ok {call : C.Call} {invocationId : String} {opened : Opened C call}
    (h : S.startAttempt call invocationId e l = .ok (opened, l')) :
    (∀ attempt ∈ l.attempts, attempt.id ≠ e.attemptId) ∧
      opened = .attempt invocationId e.attemptId ∧
      l' = { l with attempts := l.attempts ++ [{
        id := e.attemptId, invocationId := invocationId
        attempt := l.maxAttempt invocationId + 1, status := .started
        deadlineAt := e.now + S.timeout, startedAt := e.now }] } := by
  simp only [startAttempt, Tx.bind_eq_ok, Tx.reading_eq_ok, conditionally_eq_ok,
    Tx.pure_eq_ok] at h
  obtain ⟨_, _, ⟨rfl, rfl⟩, _, l₁, hbegin, rfl, rfl⟩ := h
  rw [Ledger.beginAttempt] at hbegin
  split at hbegin
  · cases hbegin
  · next hfree =>
      simp only [Bool.or_eq_true, not_or, List.any_eq_true, not_exists, not_and, id] at hfree
      cases hbegin
      refine ⟨?_, rfl, rfl⟩
      intro attempt hattempt
      simpa using hfree.1 attempt hattempt

theorem takeOver_eq_ok {row : InvocationRow C} {u : Unit} (hl : l.Valid)
    (hrow : row ∈ l.invocations) (hprogress : row.status = .inProgress)
    (h : S.takeOver row e l = .ok (u, l')) :
    S.canReclaim l row e.jobs e.now = true ∧ LedgerChange S A l l' ∧
      ∃ row' ∈ l'.invocations, row'.id = row.id ∧ row'.invocationKey = row.invocationKey ∧
        row'.status = .failed := by
  simp only [takeOver, Tx.bind_eq_ok, Tx.reading_eq_ok, Tx.read_eq_ok, Tx.lift_eq_ok,
    ensure_eq_ok] at h
  obtain ⟨_, _, ⟨rfl, rfl⟩, _, _, ⟨rfl, rfl⟩, _, _, ⟨hcan, rfl⟩, h⟩ := h
  obtain ⟨latest, -, hlatest, hstarted, -⟩ := hl.latest_started hrow hprogress
  simp only [id, hlatest, if_pos hstarted] at h
  obtain ⟨hchange, row', hrow', hid, -, hmem⟩ := closeAttempt_eq_ok hl h
  obtain rfl : row' = row := Rows.eq_of_key hl.ids hrow' hrow hid
  exact ⟨hcan, hchange, _, hmem, rfl, rfl, rfl⟩

/-- What reclaiming leaves: the row, which did not succeed, has failed. -/
theorem reclaim_eq_ok {row : InvocationRow C} {u : Unit} (hl : l.Valid)
    (hrow : row ∈ l.invocations) (hnot : row.status ≠ .succeeded)
    (h : S.reclaim row e l = .ok (u, l')) :
    Relation.ReflTransGen (LedgerChange S A) l l' ∧ l'.Valid ∧
      ∃ row' ∈ l'.invocations, row'.id = row.id ∧ row'.invocationKey = row.invocationKey ∧
        row'.status = .failed := by
  rw [reclaim] at h
  cases hstatus : row.status with
  | inProgress =>
      rw [if_pos hstatus] at h
      obtain ⟨-, hchange, hfailed⟩ := takeOver_eq_ok (A := A) hl hrow hstatus h
      exact ⟨.single hchange, hchange.valid hl, hfailed⟩
  | succeeded => exact absurd hstatus hnot
  | failed =>
      rw [if_neg (by simp [hstatus])] at h
      obtain ⟨-, rfl⟩ := Tx.pure_eq_ok.1 h
      exact ⟨.refl, hl, row, hrow, rfl, rfl, hstatus⟩

theorem reopenInvocation_eq_ok {replace : C.Call → C.Place → C.Place → C.Place}
    {invocationId : String} {place : C.Place} {now : Instant}
    (h : l.reopenInvocation replace invocationId place now = .ok l') :
    l' = { l with
      invocations := Rows.update (fun row => row.id == invocationId)
        (fun row => row.reopen replace place now) l.invocations } := by
  rw [Ledger.reopenInvocation] at h
  split at h
  · cases h
    rfl
  · cases h

theorem reopen_eq_ok {call : C.Call} {place : C.Place} {row : InvocationRow C}
    {opened : Opened C call} (hl : l.Valid) (hrow : row ∈ l.invocations)
    (hkey : S.key call = row.invocationKey) (hnot : row.status ≠ .succeeded) (hasked : A call)
    (h : S.reopen call place row e l = .ok (opened, l')) :
    Relation.ReflTransGen (LedgerChange S A) l l' ∧
      opened = .attempt row.id e.attemptId := by
  simp only [reopen, Tx.bind_eq_ok, Tx.reading_eq_ok, Tx.compute_eq_ok, Tx.modify_eq_ok] at h
  obtain ⟨_, _, ⟨rfl, rfl⟩, _, l₁, hreclaim, _, _, ⟨hpermits, rfl⟩, l₂, _, ⟨hreopen, rfl⟩, _, _, rfl,
    hstart⟩ := h
  obtain ⟨hchanges, -, row', hrow', hid, hkey', hfailed⟩ :=
    reclaim_eq_ok (A := A) hl hrow hnot hreclaim
  obtain rfl := reopenInvocation_eq_ok hreopen
  obtain ⟨hfresh, rfl, rfl⟩ := startAttempt_eq_ok hstart
  refine ⟨hchanges.tail ?_, rfl⟩
  rw [← hid]
  exact LedgerChange.reopened row' _ _ call row hrow' hfailed hasked (hkey.trans hkey'.symm)
    hid.symm hpermits (fun _ => ⟨rfl, rfl, rfl⟩) hfresh rfl rfl rfl fun _ => rfl

theorem createInvocation_eq_some {invocationId invocationKey : String} {call : C.Call}
    {place : C.Place} {now : Instant}
    (h : l.createInvocation invocationId invocationKey call place now = some l') :
    (∀ row ∈ l.invocations, row.id ≠ invocationId ∧ row.invocationKey ≠ invocationKey) ∧
      l' = { l with
        invocations := l.invocations ++ [{
          id := invocationId, invocationKey := invocationKey, call := call, place := place
          status := .inProgress, startedAt := now }] } := by
  rw [Ledger.createInvocation] at h
  split at h
  · cases h
  · next hfree =>
      simp only [List.any_eq_true, Bool.or_eq_true, beq_iff_eq, not_exists, not_and, not_or]
        at hfree
      cases h
      exact ⟨hfree, rfl⟩

theorem beginCall_eq_ok {call : C.Call} {place : C.Place} {look : Look} {opened : Opened C call}
    (hl : l.Valid) (hasked : A call)
    (h : S.beginCall call place look e l = .ok (opened, l')) :
    Relation.ReflTransGen (LedgerChange S A) l l' := by
  simp only [beginCall, Tx.bind_eq_ok, Tx.reading_eq_ok, Tx.read_eq_ok] at h
  obtain ⟨_, _, ⟨rfl, rfl⟩, existing, _, ⟨hlook, rfl⟩, h⟩ := h
  cases existing with
  | none =>
      simp only [Tx.bind_eq_ok, conditionally_eq_ok] at h
      obtain ⟨_, l₁, hcreate, hstart⟩ := h
      obtain ⟨hnew, rfl⟩ := createInvocation_eq_some hcreate
      obtain ⟨hfresh, -, rfl⟩ := startAttempt_eq_ok hstart
      exact .single (LedgerChange.opened _ _ hnew hfresh rfl rfl rfl)
  | some row =>
      have hrow : row ∈ l.invocations ∧ row.invocationKey = S.key call := by
        cases look with
        | current => exact Ledger.getByKey_some hlook
        | before => cases hlook
      by_cases hsucceeded : row.status = .succeeded
      · simp only [if_pos hsucceeded, Tx.bind_eq_ok, Tx.lift_eq_ok, Tx.pure_eq_ok] at h
        obtain ⟨_, _, ⟨-, rfl⟩, -, rfl⟩ := h
        exact .refl
      · simp only [if_neg hsucceeded] at h
        exact (reopen_eq_ok hl hrow.1 hrow.2.symm hsucceeded hasked h).1

/-- **Every transaction is a sequence of changes.** -/
theorem changes_of_step {a : LedgerCall C} (hl : l.Valid) (h : S.system.step l a l') :
    Relation.ReflTransGen (LedgerChange S a.asks) l l' := by
  obtain rfl : l' = S.perform l a := h
  cases a with
  | begin call place look e =>
      cases hrun : S.beginCall call place look e l with
      | error x =>
          rw [perform, Tx.commit_of_error hrun]
      | ok r =>
          rw [perform, Tx.commit_of_ok hrun]
          exact beginCall_eq_ok hl rfl hrun
  | succeed invocationId attemptId output result e =>
      cases hrun : S.succeed invocationId attemptId output result e l with
      | error x =>
          rw [perform, Tx.commit_of_error hrun]
      | ok r =>
          rw [perform, Tx.commit_of_ok hrun]
          exact .single (succeed_eq_ok hl hrun).1
  | fail invocationId attemptId errorClass retryClass e =>
      cases hrun : S.fail invocationId attemptId errorClass retryClass e l with
      | error x =>
          rw [perform, Tx.commit_of_error hrun]
      | ok r =>
          rw [perform, Tx.commit_of_ok hrun]
          exact .single (closeAttempt_eq_ok hl hrun).1

/-- What every change preserves, every sequence of changes preserves. -/
theorem changes_preserve {I : Ledger C → Prop}
    (hI : ∀ l l', l.Valid → LedgerChange S A l l' → I l → I l') (hl : l.Valid)
    (h : Relation.ReflTransGen (LedgerChange S A) l l') (hi : I l) : l'.Valid ∧ I l' := by
  induction h with
  | refl => exact ⟨hl, hi⟩
  | tail _ hchange ih => exact ⟨hchange.valid ih.1, hI _ _ ih.1 hchange ih.2⟩

/-- What every change preserves, every run preserves. -/
theorem preserved_of_changes {I : Ledger C → Prop}
    (hI : ∀ A l l', l.Valid → LedgerChange S A l l' → I l → I l') :
    S.system.Preserved fun l => l.Valid ∧ I l :=
  fun _ a _ hl hstep => changes_preserve (hI a.asks) hl.1 (changes_of_step hl.1 hstep) hl.2

theorem valid_of_reachable (h : S.system.Reachable l) : l.Valid := by
  have hpreserved := preserved_of_changes (S := S) (I := fun _ => True) fun _ _ _ _ _ _ => trivial
  have hvalid : l.Valid ∧ True := by
    apply h.invariant (I := fun l => l.Valid ∧ True) ?_ hpreserved
    rintro _ rfl
    exact ⟨Ledger.empty_valid, trivial⟩
  exact hvalid.1

end Spec

end LedgerService

/-! ### Superseded tokens -/

/-- A token of which the attempt is closed, or has a successor. -/
def Ledger.Superseded (l : Ledger C) (attemptId : String) : Prop :=
  ∃ attempt ∈ l.attempts, attempt.id = attemptId ∧
    (attempt.status ≠ .started ∨
      ∃ later ∈ l.attempts, later.invocationId = attempt.invocationId ∧
        attempt.attempt < later.attempt)

namespace LedgerService

section Tokens

variable {S : LedgerService C} {l l' : Ledger C} {e : LedgerEnv C} {attemptId : String}

theorem superseded_change {A : C.Call → Prop} (h : LedgerChange S A l l')
    (hold : l.Superseded attemptId) : l'.Superseded attemptId := by
  obtain ⟨attempt, hattempt, rfl, hwhy⟩ := hold
  obtain ⟨attempt', hattempt', hid, hof, hnumber, hclosed⟩ := h.keeps_attempt hattempt
  refine ⟨attempt', hattempt', hid, ?_⟩
  rcases hwhy with hstatus | ⟨later, hlater, hsame, hlt⟩
  · exact .inl (hclosed hstatus)
  · obtain ⟨later', hlater', -, hof', hnumber', -⟩ := h.keeps_attempt hlater
    refine .inr ⟨later', hlater', ?_, ?_⟩
    · rw [hof', hof, hsame]
    · rw [hnumber', hnumber]
      exact hlt

/-- No attempt under way has a superseded token. -/
theorem not_started_of_superseded (hl : l.Valid) (h : l.Superseded attemptId) :
    ∀ attempt ∈ l.attempts, attempt.id = attemptId → attempt.status ≠ .started := by
  intro attempt hattempt hid hstarted
  obtain ⟨attempt', hattempt', hid', hwhy⟩ := h
  obtain rfl : attempt' = attempt :=
    Rows.eq_of_key hl.attemptIds hattempt' hattempt (hid'.trans hid.symm)
  rcases hwhy with hstatus | ⟨later, hlater, hof, hlt⟩
  · exact hstatus hstarted
  · obtain ⟨row, -, hrow, -, earlier, hattempts, horder⟩ := hl.open_attempt hattempt hstarted
    have hmem : later ∈ l.attemptsOf row.id :=
      Ledger.mem_attemptsOf.2 ⟨hlater, hof.trans hrow.symm⟩
    rw [hattempts] at hmem
    rcases List.mem_append.1 hmem with hearlier | hlast
    · have hlt' := horder.earlier_lt later hearlier
      omega
    · rw [List.mem_singleton.1 hlast] at hlt
      omega

/-- The conditional update of a closed attempt matches no row. -/
theorem updateOne_closed {set : AttemptRow C → AttemptRow C}
    (h : ∀ attempt ∈ l.attempts, attempt.id = attemptId → attempt.status ≠ .started) :
    Rows.updateOne (fun a => a.id == attemptId && a.status == .started) set l.attempts = none := by
  have hnone : l.attempts.countP (fun a => a.id == attemptId && a.status == .started) = 0 := by
    rw [List.countP_eq_zero]
    intro attempt hattempt hmatch
    simp only [Bool.and_eq_true, beq_iff_eq] at hmatch
    exact h attempt hattempt hmatch.1 hmatch.2
  rw [Rows.updateOne, hnone, if_neg (by decide)]

/-- **A result with a superseded token is refused.** -/
theorem refuses_superseded (hl : l.Valid) (h : l.Superseded attemptId)
    (invocationId : String) (output : C.Output) (result : C.Result)
    (errorClass retryClass : String) (e : LedgerEnv C) :
    S.succeed invocationId attemptId output result e l = .error S.ownershipLost ∧
      S.fail invocationId attemptId errorClass retryClass e l = .error S.ownershipLost := by
  have hclosed := not_started_of_superseded hl h
  constructor
  · rw [succeed, Tx.bind_of_ok (Tx.reading_eq_ok.2 ⟨rfl, rfl⟩)]
    apply Tx.bind_of_error
    apply conditionally_eq_error
    rw [Ledger.completeAttempt, updateOne_closed hclosed]
    rfl
  · rw [fail, closeAttempt, Tx.bind_of_ok (Tx.reading_eq_ok.2 ⟨rfl, rfl⟩)]
    apply Tx.bind_of_error
    apply conditionally_eq_error
    rw [Ledger.failAttempt, updateOne_closed hclosed]
    rfl

end Tokens

/-! ### Stored successes -/

section Replay

variable {S : LedgerService C} {l : Ledger C}

/-- A call of what succeeded returns the stored answer in its first act; the provider is not
called. -/
theorem execute_replays {row : InvocationRow C} (hl : l.Valid) (hrow : row ∈ l.invocations)
    (hsucceeded : row.status = .succeeded) (call : C.Call) (hkey : S.key call = row.invocationKey)
    (place : C.Place) (env : ℕ → LedgerEnv C) (i : ℕ) :
    (S.execute call place .current).run env i l = (S.replay call row, i + 1, l) := by
  have hbegin : S.beginCall call place .current (env i) l =
      (S.replay call row).map fun answer => (.replayed answer, l) := by
    have hlook : Look.current.row (S.key call) l = some row := by
      rw [hkey]
      exact hl.getByKey_eq hrow
    rw [beginCall, Tx.bind_of_ok (Tx.reading_eq_ok.2 ⟨rfl, rfl⟩),
      Tx.bind_of_ok (Tx.read_eq_ok.2 ⟨hlook, rfl⟩)]
    simp only [if_pos hsucceeded]
    cases hreplay : S.replay call row with
    | error x =>
        apply Tx.bind_of_error
        rw [Tx.lift]
        rfl
    | ok answer => rw [Tx.bind_of_ok (Tx.lift_eq_ok.2 ⟨rfl, rfl⟩)]; rfl
  rw [execute, Program.run_bind, Program.run_atomically, hbegin]
  cases S.replay call row with
  | error x => rfl
  | ok answer => rfl

end Replay

/-! ### Calls as steps of the system -/

/-- **Every act of a call is a step of the system**, or reads only. -/
theorem execute_complies (S : LedgerService C) (call : C.Call) (place : C.Place) (look : Look) :
    Program.Triple (fun _ _ => True) (fun l l' => l' = l ∨ ∃ a, S.system.step l a l')
      (fun _ => True) (S.execute call place look) (fun _ _ => True) (fun _ _ => True) := by
  have hatomic : ∀ {α : Type} (t : LedgerTx C α) (a : LedgerEnv C → LedgerCall C),
      (∀ e l, S.perform l (a e) = t.commit e l) →
      Program.Triple (fun _ _ => True) (fun l l' => l' = l ∨ ∃ a, S.system.step l a l')
        (fun _ => True) (Program.atomically t) (fun _ _ => True) (fun _ _ => True) := by
    intro α t a ha
    refine Program.Triple.atomically (fun _ _ _ h => h) ?_ ?_
    · intro e l r l' _ h
      refine ⟨.inr ⟨a e, ?_⟩, trivial⟩
      change l' = S.perform l (a e)
      rw [ha, Tx.commit_of_ok h]
    · exact fun _ _ _ _ _ => ⟨.inl rfl, trivial⟩
  refine Program.Triple.bind (hatomic _ (LedgerCall.begin call place look) fun _ _ => rfl) ?_
  intro opened
  cases opened with
  | replayed answer => exact Program.Triple.ret fun _ _ => trivial
  | attempt invocationId attemptId =>
      refine Program.Triple.bind (Program.Triple.reading (Q := fun _ _ => True) (fun _ _ _ h => h)
        (fun _ _ => .inl rfl) fun _ _ _ => trivial) ?_
      intro response
      cases response with
      | ok answer =>
          refine Program.Triple.bind (hatomic _ (LedgerCall.succeed invocationId attemptId
            (S.store call answer).1 (S.store call answer).2) fun _ _ => rfl) ?_
          exact fun _ => Program.Triple.ret fun _ _ => trivial
      | error x =>
          cases hrecorded : S.recorded x with
          | none =>
              simp only [hrecorded]
              exact Program.Triple.raise fun _ _ => trivial
          | some recorded =>
              simp only [hrecorded]
              refine Program.Triple.bind (hatomic _ (LedgerCall.fail invocationId attemptId
                recorded.1 recorded.2.1) fun _ _ => rfl) ?_
              exact fun _ => Program.Triple.raise fun _ _ => trivial

end LedgerService

/-! ### What fencing promises -/

/-- What the fencing of a ledger promises, in every reachable state and over every run from it. -/
structure LedgerFenced (S : LedgerService C) : Prop where
  /-- At most one attempt of an invocation is under way, and it has the greatest number. -/
  one_open : ∀ l, S.system.Reachable l → ∀ attempt ∈ l.attempts, attempt.status = .started →
    ∀ other ∈ l.attempts, other.invocationId = attempt.invocationId → other ≠ attempt →
      other.status ≠ .started ∧ other.attempt < attempt.attempt
  /-- The row of an invocation agrees with its latest attempt. -/
  agrees : ∀ l, S.system.Reachable l → ∀ row ∈ l.invocations,
    ∃ latest, l.latestAttempt row.id = some latest ∧ row.status = .ofAttempt latest.status
  /-- The row of a success is never written again. -/
  kept : ∀ l, S.system.Reachable l → ∀ calls l', S.system.Run l calls l' →
    ∀ row ∈ l.invocations, row.status = .succeeded → row ∈ l'.invocations
  /-- What was recorded as a success stays stored. -/
  stored : ∀ l, S.system.Reachable l → ∀ invocationId attemptId output result e l',
    S.succeed invocationId attemptId output result e l = .ok ((), l') →
    ∀ calls l'', S.system.Run l' calls l'' → ∃ row ∈ l''.invocations, row.id = invocationId ∧
      row.status = .succeeded ∧ row.output = some output ∧ row.result = some result
  /-- A later call of a success returns what is stored, in its first act: no provider is called. -/
  replayed : ∀ l, S.system.Reachable l → ∀ row ∈ l.invocations, row.status = .succeeded →
    ∀ call, S.key call = row.invocationKey → ∀ place env i,
      (S.execute call place .current).run env i l = (S.replay call row, i + 1, l)
  /-- A result with a superseded token is rejected, and changes neither table. -/
  refused : ∀ l, S.system.Reachable l → ∀ attemptId, l.Superseded attemptId →
    ∀ calls l', S.system.Run l calls l' → ∀ invocationId output result errorClass retryClass e,
      S.succeed invocationId attemptId output result e l' = .error S.ownershipLost ∧
      S.fail invocationId attemptId errorClass retryClass e l' = .error S.ownershipLost ∧
      S.perform l' (.succeed invocationId attemptId output result e) = l' ∧
      S.perform l' (.fail invocationId attemptId errorClass retryClass e) = l'

namespace LedgerService

/-- **The ledger of every such service is fenced.** -/
theorem fenced (S : LedgerService C) : LedgerFenced S where
  one_open := by
    intro l hl attempt hattempt hstarted other hother hof hne
    have hvalid := valid_of_reachable hl
    obtain ⟨row, -, hid, -, earlier, hattempts, horder⟩ :=
      hvalid.open_attempt hattempt hstarted
    have hmem : other ∈ l.attemptsOf row.id :=
      Ledger.mem_attemptsOf.2 ⟨hother, hof.trans hid.symm⟩
    rw [hattempts] at hmem
    rcases List.mem_append.1 hmem with hearlier | hlast
    · refine ⟨?_, horder.earlier_lt other hearlier⟩
      rw [horder.earlier_failed other hearlier]
      decide
    · exact absurd (List.mem_singleton.1 hlast) hne
  agrees := by
    intro l hl row hrow
    obtain ⟨earlier, latest, hattempts, horder⟩ := (valid_of_reachable hl).history row hrow
    exact ⟨latest, Ledger.latestAttempt_of_order hattempts horder, horder.agrees⟩
  kept := by
    intro l hl calls l' hrun row hrow hsucceeded
    have hpreserved := preserved_of_changes (S := S) (I := fun l => row ∈ l.invocations)
      fun _ _ _ hvalid hchange hmem => hchange.keeps_succeeded hvalid hmem hsucceeded
    exact (hrun.preserves hpreserved ⟨valid_of_reachable hl, hrow⟩).2
  stored := by
    intro l hl invocationId attemptId output result e l' hsucceed calls l'' hrun
    have hvalid := valid_of_reachable hl
    obtain ⟨hchange, row, -, hid, -, hrow⟩ :=
      succeed_eq_ok (A := fun _ => False) hvalid hsucceed
    have hpreserved := preserved_of_changes (S := S)
      (I := fun l => row.complete output result e.now ∈ l.invocations)
      fun _ _ _ hvalid hchange hmem => hchange.keeps_succeeded hvalid hmem rfl
    have hkept := hrun.preserves hpreserved ⟨hchange.valid hvalid, hrow⟩
    exact ⟨row.complete output result e.now, hkept.2, hid, rfl, rfl, rfl⟩
  replayed := by
    intro l hl row hrow hsucceeded call hkey place env i
    exact execute_replays (valid_of_reachable hl) hrow hsucceeded call hkey place env i
  refused := by
    intro l hl attemptId hold calls l' hrun invocationId output result errorClass retryClass e
    have hpreserved := preserved_of_changes (S := S) (I := fun l => l.Superseded attemptId)
      fun _ _ _ _ hchange h => superseded_change hchange h
    obtain ⟨hvalid, hnow⟩ := hrun.preserves hpreserved ⟨valid_of_reachable hl, hold⟩
    obtain ⟨hsucceed, hfail⟩ :=
      refuses_superseded (S := S) hvalid hnow invocationId output result errorClass retryClass e
    exact ⟨hsucceed, hfail, Tx.commit_of_error hsucceed, Tx.commit_of_error hfail⟩

end LedgerService

/-! ### Malformed outputs -/

namespace ModelInvocationService

variable {J : Type} {V : ModelNode → Type} {sha256 : String → String}
  {schema : (node : ModelNode) → Schema J (V node)} {callTimeout : Instant}
  {l l' : Ledger (modelColumns J V)}

/-- The attempt is under way, or came to a malformed output. -/
def spends (attempt : AttemptRow (modelColumns J V)) : Bool :=
  attempt.status == .started ||
    (attempt.status == .failed && attempt.errorClass == some malformedError)

/-- The attempts of an invocation that count against the cap of malformed outputs. -/
def spent (l : Ledger (modelColumns J V)) (invocationId : String) : ℕ :=
  (l.attemptsOf invocationId).countP spends

theorem countFailed_le_spent (l : Ledger (modelColumns J V)) (invocationId : String) :
    l.countFailedAttemptsWithErrorClass invocationId malformedError ≤ spent l invocationId := by
  apply List.countP_mono_left
  intro attempt _ h
  rw [spends, h, Bool.or_true]

/-- Of an invocation that failed no attempt is under way. -/
theorem spent_of_failed {row : InvocationRow (modelColumns J V)} (hl : l.Valid)
    (hrow : row ∈ l.invocations) (hfailed : row.status = .failed) :
    spent l row.id ≤ l.countFailedAttemptsWithErrorClass row.id malformedError := by
  apply List.countP_mono_left
  intro attempt hmem h
  have hnot : attempt.status ≠ .started := by
    intro hstarted
    obtain ⟨hattempt, hof⟩ := Ledger.mem_attemptsOf.1 hmem
    obtain ⟨owner, howner, hid, hprogress, -⟩ := hl.open_attempt hattempt hstarted
    rw [Rows.eq_of_key hl.ids howner hrow (hid.trans hof), hfailed] at hprogress
    cases hprogress
  simpa [spends, hnot] using h

/-- Closing an attempt spends nothing. -/
theorem spent_update {attempt : AttemptRow (modelColumns J V)}
    {set : AttemptRow (modelColumns J V) → AttemptRow (modelColumns J V)} (hl : l.Valid)
    (hattempt : attempt ∈ l.attempts) (hstarted : attempt.status = .started)
    (hset : ∀ a, (set a).invocationId = a.invocationId) (invocationId : String)
    (rows : List (InvocationRow (modelColumns J V))) :
    spent { invocations := rows
            attempts := Rows.update (fun a => a.id == attempt.id) set l.attempts } invocationId ≤
      spent l invocationId := by
  have hselect : ∀ a, ((set a).invocationId == invocationId) = (a.invocationId == invocationId) := by
    intro a
    rw [hset a]
  rw [spent, Ledger.attemptsOf, Rows.filter_update hselect, Rows.update, List.countP_map]
  apply List.countP_mono_left
  intro a ha h
  by_cases hsame : a.id = attempt.id
  · rw [Rows.eq_of_key hl.attemptIds (Ledger.mem_attemptsOf.1 ha).1 hattempt hsame]
    simp [spends, hstarted]
  · simpa [hsame] using h

theorem below_of_assert {call : ModelCall} {row : InvocationRow (modelColumns J V)} {cap : ℕ}
    (hcap : malformedAttemptCap call.nodeName = some cap) (h : assertBelowCap call l row = .ok ()) :
    l.countFailedAttemptsWithErrorClass row.id malformedError < cap := by
  unfold assertBelowCap at h
  rw [hcap] at h
  exact ensure_eq_ok.1 h

/-- **What one change spends is below the cap**, when the calls under the key have one. -/
theorem spent_change {invocationKey : String} {cap : ℕ} {A : ModelCall → Prop}
    (hcap : malformedAttemptCap .evaluate = some cap)
    (hasked : ∀ call, A call → buildInvocationKey sha256 call = invocationKey →
      call.nodeName = .evaluate)
    (hl : l.Valid) (h : LedgerChange (modelInvocations sha256 schema callTimeout) A l l')
    (hi : ∀ row ∈ l.invocations, row.invocationKey = invocationKey → spent l row.id ≤ cap) :
    ∀ row ∈ l'.invocations, row.invocationKey = invocationKey → spent l' row.id ≤ cap := by
  have hpos : 1 ≤ cap := by
    cases hcap
    decide
  cases h with
  | opened new attempt hnew hfresh hprogress hstarted hid =>
      intro row hrow hkey
      rcases List.mem_append.1 hrow with hold | hlast
      · have hne : attempt.invocationId ≠ row.id := by
          rw [hid]
          exact fun h => (hnew row hold).1 h.symm
        rw [spent, Ledger.attemptsOf, LedgerChange.attemptsOf_append_of_ne hne]
        exact hi row hold hkey
      · rw [List.mem_singleton.1 hlast, spent, Ledger.attemptsOf,
          LedgerChange.attemptsOf_append_of_eq hid]
        have hnone : l.attempts.filter (fun a => a.invocationId == new.id) = [] := by
          rw [List.filter_eq_nil_iff]
          intro a ha
          obtain ⟨owner, howner, hof⟩ := hl.owned a ha
          have hne := (hnew owner howner).1
          rw [hof] at hne
          simpa using hne
        rw [hnone, List.nil_append]
        exact le_trans List.countP_le_length hpos
  | reopened old attempt set call seen hold hfailed hcall hkey hseen hpermits hset hfresh hstarted hid
      hnumber _ =>
      intro row hrow hrowKey
      rcases LedgerChange.mem_update_id hl hold hrow with rfl | ⟨hmem, hne⟩
      · rw [(hset old).2.1] at hrowKey
        have hnode : call.nodeName = .evaluate := hasked call hcall (hkey.trans hrowKey)
        have hbelow : l.countFailedAttemptsWithErrorClass old.id malformedError < cap := by
          rw [← hseen]
          exact below_of_assert (by rw [hnode, hcap]) hpermits
        have hspent := spent_of_failed hl hold hfailed
        rw [(hset old).1, spent, Ledger.attemptsOf, LedgerChange.attemptsOf_append_of_eq hid,
          List.countP_append]
        have hone : List.countP spends [attempt] ≤ 1 := List.countP_le_length
        rw [spent, Ledger.attemptsOf] at hspent
        omega
      · have hne' : attempt.invocationId ≠ row.id := by
          rw [hid]
          exact fun h => hne h.symm
        rw [spent, Ledger.attemptsOf, LedgerChange.attemptsOf_append_of_ne hne']
        exact hi row hmem hrowKey
  | closed old attempt status setRow setAttempt hold hattempt hid hstarted hstatus hsetRow
      hsetAttempt _ =>
      intro row hrow hrowKey
      have hle := spent_update hl hattempt hstarted (fun a => (hsetAttempt a).2.1) row.id
        (Rows.update (fun r => r.id == old.id) setRow l.invocations)
      have hbefore : spent l row.id ≤ cap := by
        rcases LedgerChange.mem_update_id hl hold hrow with rfl | ⟨hmem, -⟩
        · rw [(hsetRow old).1]
          rw [(hsetRow old).2.1] at hrowKey
          exact hi old hold hrowKey
        · exact hi row hmem hrowKey
      omega

/-- **A semantic invocation has no more malformed outputs than its cap**: one of which all calls
are made for the evaluation. -/
theorem malformed_le_cap {invocationKey : String} {cap : ℕ}
    (hcap : malformedAttemptCap .evaluate = some cap)
    (h : ((modelInvocations sha256 schema callTimeout).system.restrict fun _ a _ =>
      ∀ call, a.asks call → buildInvocationKey sha256 call = invocationKey →
        ModelCall.nodeName call = .evaluate).Reachable l) :
    ∀ row ∈ l.invocations, row.invocationKey = invocationKey →
      l.countFailedAttemptsWithErrorClass row.id malformedError ≤ cap := by
  have hinv : l.Valid ∧
      ∀ row ∈ l.invocations, row.invocationKey = invocationKey → spent l row.id ≤ cap := by
    refine h.invariant (I := fun l => l.Valid ∧
      ∀ row ∈ l.invocations, row.invocationKey = invocationKey → spent l row.id ≤ cap) ?_ ?_
    · rintro _ rfl
      exact ⟨Ledger.empty_valid, fun _ hrow => absurd hrow List.not_mem_nil⟩
    · rintro l a l' ⟨hvalid, hi⟩ ⟨hstep, hasked⟩
      exact LedgerService.changes_preserve (fun _ _ hvalid hchange hi =>
        spent_change hcap hasked hvalid hchange hi) hvalid
        (LedgerService.changes_of_step hvalid hstep) hi
  intro row hrow hkey
  exact le_trans (countFailed_le_spent l row.id) (hinv.2 row hrow hkey)

/-- What was stored of an answer is returned again. -/
theorem replay_stored (call : ModelCall) (answer : V call.nodeName × ModelCallMeta)
    (row : InvocationRow (modelColumns J V))
    (houtput : row.output = some ((schema call.nodeName).modelDump answer.1))
    (hresult : row.result = some answer.2.toModelResult) :
    replay schema call row = .ok (answer.1, { answer.2 with
      provider := call.provider, model := call.model, promptVersion := call.promptVersion }) := by
  simp only [replay, houtput, (schema call.nodeName).validate_dump, metaFromRecord, hresult]
  rfl

end ModelInvocationService

namespace ToolInvocationService

variable {D : Type}

/-- What was stored of a result is returned again. -/
theorem replay_stored (call : ToolCall) (answer : ToolInvocationResult D)
    (row : InvocationRow (toolColumns D))
    (houtput : row.output = some (⟨answer.output, answer.findingText⟩ : ToolSummary D))
    (hresult : row.result = some answer.metadata.toToolResult) :
    ∃ result, replay call row = .ok result ∧ result.output = answer.output ∧
      result.findingText = answer.findingText ∧
      result.metadata.toToolResult = answer.metadata.toToolResult := by
  rw [replay, houtput, hresult]
  exact ⟨_, rfl, rfl, rfl, rfl⟩

end ToolInvocationService

/-- **Invocation ledger fencing.**  The ledgers of model calls and of tool calls are fenced; what a
later call of a success returns is the output that was recorded; and a semantic invocation has no
more malformed outputs than its cap. -/
theorem invocation_ledger_fencing {J D : Type} {V : ModelNode → Type} (sha256 : String → String)
    (schema : (node : ModelNode) → Schema J (V node)) (callTimeout attemptTimeout : Instant) :
    LedgerFenced (modelInvocations sha256 schema callTimeout) ∧
    LedgerFenced (toolInvocations (D := D) sha256 attemptTimeout) ∧
    (∀ (call : ModelCall) (answer : V call.nodeName × ModelCallMeta)
      (row : InvocationRow (modelColumns J V)),
      row.output = some ((modelInvocations sha256 schema callTimeout).store call answer).1 →
      row.result = some ((modelInvocations sha256 schema callTimeout).store call answer).2 →
      (modelInvocations sha256 schema callTimeout).replay call row =
        .ok (answer.1, { answer.2 with
          provider := call.provider, model := call.model, promptVersion := call.promptVersion })) ∧
    (∀ (call : ToolCall) (answer : ToolInvocationResult D) (row : InvocationRow (toolColumns D)),
      row.output = some ((toolInvocations sha256 attemptTimeout).store call answer).1 →
      row.result = some ((toolInvocations sha256 attemptTimeout).store call answer).2 →
      ∃ result, (toolInvocations sha256 attemptTimeout).replay call row = .ok result ∧
        ToolInvocationResult.output result = answer.output ∧
        ToolInvocationResult.findingText result = answer.findingText) ∧
    ∀ (invocationKey : String) (l : Ledger (modelColumns J V)),
      ((modelInvocations sha256 schema callTimeout).system.restrict fun _ a _ =>
        ∀ call, a.asks call →
          (modelInvocations sha256 schema callTimeout).key call = invocationKey →
            ModelCall.nodeName call = .evaluate).Reachable l →
      ∀ row ∈ l.invocations, row.invocationKey = invocationKey →
        ∀ cap, ModelInvocationService.malformedAttemptCap .evaluate = some cap →
          l.countFailedAttemptsWithErrorClass row.id ModelInvocationService.malformedError ≤
            cap := by
  refine ⟨LedgerService.fenced _, LedgerService.fenced _, ?_, ?_, ?_⟩
  · exact fun call answer row houtput hresult =>
      ModelInvocationService.replay_stored call answer row houtput hresult
  · intro call answer row houtput hresult
    obtain ⟨result, hreplay, hsame, hfinding, -⟩ :=
      ToolInvocationService.replay_stored call answer row houtput hresult
    exact ⟨result, hreplay, hsame, hfinding⟩
  · intro invocationKey l hl row hrow hkey cap hcap
    exact ModelInvocationService.malformed_le_cap hcap hl row hrow hkey

/-- A late result: the attempt `a` is taken over after its deadline, and both the failure and the
success of it that arrive then are refused. -/
example :
    let S := toolInvocations (D := String) id 10
    let call : ToolCall := ⟨.mcp "actor", "web_search", "tools.v1", "fake", "policy", "input"⟩
    let e : Instant → String → LedgerEnv (toolColumns String) := fun now attemptId =>
      { now := now, invocationId := "i", attemptId := attemptId, jobs := ∅
        response := fun _ => .error (.tool .temporary) }
    let place : ToolPlace := ⟨none, none⟩
    let summary : String → ToolSummary String := fun output => ⟨output, "finding"⟩
    let result : ToolResult := {}
    let ledger := [LedgerCall.begin call place .current (e 0 "a"),
      .begin call place .current (e 11 "b"),
      .succeed "i" "a" (summary "late") result (e 12 "c"),
      .fail "i" "a" "ToolTimeoutError" "timeout" (e 12 "c"),
      .succeed "i" "b" (summary "output") result (e 13 "c")].foldl S.perform {}
    ledger.attempts.map (fun attempt => (attempt.id, attempt.attempt, attempt.status)) =
        [("a", 1, .failed), ("b", 2, .succeeded)] ∧
      ledger.invocations.map (fun row => (row.status, row.output.map ToolSummary.output)) =
        [(.succeeded, some "output")] := by
  decide +kernel

end Atlas
