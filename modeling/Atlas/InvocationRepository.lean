/-
**The invocation ledgers.**

A logical invocation is recorded under the key of what it calls, and each physical call of the
provider as an attempt of it, numbered from one.  Two ledgers are kept this way, for model calls
and for tool calls; they differ in some of their columns, so that the rows and the repository
functions are stated here once, over the columns.  What repository functions write is conditional:
an attempt leaves `STARTED` only while it is `STARTED`, and the row of the invocation follows an
attempt only while that is the one with the greatest number.

Main definitions:

* `Atlas.LedgerColumns` — the columns in which the ledgers differ;
* `Atlas.InvocationRow`, `Atlas.AttemptRow`, `Atlas.Ledger` — the two tables of a ledger;
* `Atlas.Ledger.getByKey`, `Atlas.Ledger.latestAttempt`,
  `Atlas.Ledger.countFailedAttemptsWithErrorClass` — what is read;
* `Atlas.Ledger.createInvocation`, `Atlas.Ledger.reopenInvocation`, `Atlas.Ledger.beginAttempt` —
  what starts an attempt;
* `Atlas.Ledger.completeAttempt`, `Atlas.Ledger.completeInvocationForAttempt`,
  `Atlas.Ledger.failAttempt`, `Atlas.Ledger.markInvocationFailedForAttempt` — what ends one;
* `Atlas.jobHasValidClaim` — the claim on the job of an invocation.
-/

import Atlas.Rows
import Atlas.RecoveryPolicy
import Mathlib.Data.List.MinMax

set_option relaxedAutoImplicit false
set_option autoImplicit false

namespace Atlas

inductive InvocationStatus where
  | inProgress
  | succeeded
  | failed
  deriving DecidableEq, Repr

inductive AttemptStatus where
  | started
  | succeeded
  | failed
  deriving DecidableEq, Repr

/-- The columns in which the ledgers differ. -/
structure LedgerColumns where
  /-- What is called: written once, when the invocation is created. -/
  Call : Type
  /-- From where it is called: rewritten when the invocation is reopened. -/
  Place : Type
  /-- The stored output. -/
  Output : Type
  /-- What is stored about the output with the invocation. -/
  Result : Type
  /-- What is stored about the output with the attempt. -/
  AttemptResult : Type
  /-- What a call returns. -/
  Answer : Call → Type

/-- A logical invocation, with the output of its success. -/
structure InvocationRow (C : LedgerColumns) where
  id : String
  invocationKey : String
  call : C.Call
  place : C.Place
  status : InvocationStatus
  output : Option C.Output := none
  result : Option C.Result := none
  errorClass : Option String := none
  retryClass : Option String := none
  startedAt : Instant
  finishedAt : Option Instant := none

/-- A physical attempt of an invocation. -/
structure AttemptRow (C : LedgerColumns) where
  id : String
  invocationId : String
  attempt : ℕ
  status : AttemptStatus
  deadlineAt : Instant
  result : Option C.AttemptResult := none
  errorClass : Option String := none
  retryClass : Option String := none
  startedAt : Instant
  finishedAt : Option Instant := none

/-- `reopen_invocation`: the row of an invocation that is called again; `replace` says which columns
of the place are rewritten. -/
def InvocationRow.reopen {C : LedgerColumns} (row : InvocationRow C)
    (replace : C.Call → C.Place → C.Place → C.Place) (place : C.Place) (now : Instant) :
    InvocationRow C :=
  { row with
    place := replace row.call row.place place
    status := .inProgress, output := none, result := none, errorClass := none, retryClass := none
    startedAt := now, finishedAt := none }

def InvocationRow.complete {C : LedgerColumns} (row : InvocationRow C) (output : C.Output)
    (result : C.Result) (now : Instant) : InvocationRow C :=
  { row with
    status := .succeeded, output := some output, result := some result
    errorClass := none, retryClass := none, finishedAt := some now }

def InvocationRow.fail {C : LedgerColumns} (row : InvocationRow C) (errorClass retryClass : String)
    (now : Instant) : InvocationRow C :=
  { row with
    status := .failed, output := none
    errorClass := some errorClass, retryClass := some retryClass, finishedAt := some now }

def AttemptRow.complete {C : LedgerColumns} (attempt : AttemptRow C) (result : C.AttemptResult)
    (now : Instant) : AttemptRow C :=
  { attempt with
    status := .succeeded, result := some result
    errorClass := none, retryClass := none, finishedAt := some now }

def AttemptRow.fail {C : LedgerColumns} (attempt : AttemptRow C) (errorClass retryClass : String)
    (now : Instant) : AttemptRow C :=
  { attempt with
    status := .failed
    errorClass := some errorClass, retryClass := some retryClass, finishedAt := some now }

/-- The tables of a ledger. -/
structure Ledger (C : LedgerColumns) where
  invocations : List (InvocationRow C) := []
  attempts : List (AttemptRow C) := []

/-- The job is running under a claim whose lease has not ended. -/
def jobHasValidClaim (jobs : Jobs) (researchJobId : String) (now : Instant) : Bool :=
  match jobs.lookup researchJobId with
  | none => false
  | some row =>
      row.status = .running && row.claimToken.isSome && row.leaseExpiresAt.any fun lease => now < lease

namespace Ledger

variable {C : LedgerColumns} (l : Ledger C)

/-! ### What is read -/

def getByKey (invocationKey : String) : Option (InvocationRow C) :=
  l.invocations.find? fun row => row.invocationKey == invocationKey

def attemptsOf (invocationId : String) : List (AttemptRow C) :=
  l.attempts.filter fun attempt => attempt.invocationId == invocationId

/-- `coalesce(max(attempt), 0)`. -/
def maxAttempt (invocationId : String) : ℕ :=
  ((l.attemptsOf invocationId).map AttemptRow.attempt).foldr max 0

/-- `ORDER BY attempt DESC LIMIT 1`. -/
def latestAttempt (invocationId : String) : Option (AttemptRow C) :=
  (l.attemptsOf invocationId).argmax AttemptRow.attempt

/-- Count `FAILED` physical attempts with an exact error class. -/
def countFailedAttemptsWithErrorClass (invocationId errorClass : String) : ℕ :=
  (l.attemptsOf invocationId).countP fun attempt =>
    attempt.status == .failed && attempt.errorClass == some errorClass

/-- The attempt is of this invocation and status, and has the greatest number of the invocation. -/
def ownership (invocationId attemptId : String) (status : AttemptStatus) : Bool :=
  l.attempts.any fun attempt =>
    attempt.id == attemptId && attempt.invocationId == invocationId &&
      attempt.status == status && attempt.attempt == l.maxAttempt invocationId

/-! ### What starts an attempt -/

/-- Insert an invocation in progress; there is none when its id or its key is taken. -/
def createInvocation (invocationId invocationKey : String) (call : C.Call) (place : C.Place)
    (now : Instant) : Option (Ledger C) :=
  if l.invocations.any fun row => row.id == invocationId || row.invocationKey == invocationKey then
    none
  else
    some { l with invocations := l.invocations ++ [{
      id := invocationId, invocationKey := invocationKey, call := call, place := place
      status := .inProgress, startedAt := now }] }

/-- Reopen an invocation; there is a `LookupError` when it does not exist. -/
def reopenInvocation (replace : C.Call → C.Place → C.Place → C.Place) (invocationId : String)
    (place : C.Place) (now : Instant) : Except Exc (Ledger C) :=
  if l.invocations.any fun row => row.id == invocationId then
    .ok { l with
      invocations := Rows.update (fun row => row.id == invocationId)
        (fun row => row.reopen replace place now) l.invocations }
  else
    .error (.other "LookupError" false)

/-- Insert the next attempt of an invocation; there is none when its id is taken or the invocation
does not exist. -/
def beginAttempt (attemptId invocationId : String) (deadlineAt now : Instant) :
    Option (Ledger C) :=
  if (l.attempts.any fun attempt => attempt.id == attemptId) ||
      !(l.invocations.any fun row => row.id == invocationId) then
    none
  else
    some { l with attempts := l.attempts ++ [{
      id := attemptId, invocationId := invocationId, attempt := l.maxAttempt invocationId + 1
      status := .started, deadlineAt := deadlineAt, startedAt := now }] }

/-! ### What ends an attempt -/

/-- `STARTED → SUCCEEDED`; there is none if ownership was lost. -/
def completeAttempt (attemptId : String) (result : C.AttemptResult) (now : Instant) :
    Option (Ledger C) :=
  (Rows.updateOne (fun attempt => attempt.id == attemptId && attempt.status == .started)
    (fun attempt => attempt.complete result now) l.attempts).map fun attempts =>
      { l with attempts := attempts }

/-- `STARTED → FAILED`; there is none if ownership was lost. -/
def failAttempt (attemptId errorClass retryClass : String) (now : Instant) : Option (Ledger C) :=
  (Rows.updateOne (fun attempt => attempt.id == attemptId && attempt.status == .started)
    (fun attempt => attempt.fail errorClass retryClass now) l.attempts).map fun attempts =>
      { l with attempts := attempts }

/-- Complete the logical invocation only if the attempt is still active. -/
def completeInvocationForAttempt (invocationId attemptId : String) (output : C.Output)
    (result : C.Result) (now : Instant) : Option (Ledger C) :=
  (Rows.updateOne
    (fun row => row.id == invocationId && l.ownership invocationId attemptId .succeeded)
    (fun row => row.complete output result now) l.invocations).map fun invocations =>
      { l with invocations := invocations }

/-- Fail the logical invocation only if the attempt is still active. -/
def markInvocationFailedForAttempt (invocationId attemptId errorClass retryClass : String)
    (now : Instant) : Option (Ledger C) :=
  (Rows.updateOne
    (fun row => row.id == invocationId && l.ownership invocationId attemptId .failed &&
      (row.status == .inProgress || row.status == .failed))
    (fun row => row.fail errorClass retryClass now) l.invocations).map fun invocations =>
      { l with invocations := invocations }

end Ledger

end Atlas
