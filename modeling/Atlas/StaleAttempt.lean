/-
**Attempts that a crashed worker left.**

The system of jobs and a ledger: workers claim jobs and write them, and the transactions of the
ledger read the jobs as they are.  A worker crashes with an attempt under way; its lease ends, the
deadline of the attempt passes, and another worker claims the job and repeats the call.

The attempt may be reclaimed only while the job has no valid claim.  But the worker that repeats the
call holds one: it is refused for as long as its claim is valid, and the exception it gets is
terminal under the recovery policy.

Main definitions:

* `Atlas.LedgerService.governed` — jobs and a ledger together;
* `Atlas.StaleReclaim` — the situation above;
* `Atlas.ReclaimProgresses` — the stale attempt can be closed and another one started.

Main results:

* `Atlas.LedgerService.beginCall_blocked` — no attempt is reclaimed under a valid claim;
* `Atlas.stale_attempt_blocks` — **the worker that claimed the job is refused, and the job fails**;
* `Atlas.staleReclaim_of_crash` — the situation is reached.
-/

import Atlas.InvocationFencing
import Atlas.ClaimFencing

set_option relaxedAutoImplicit false
set_option autoImplicit false

namespace Atlas

open Checked

variable {C : LedgerColumns}

/-! ### Jobs and a ledger -/

structure GovernedState (C : LedgerColumns) where
  queue : QueueState
  ledger : Ledger C

inductive GovernedCall (C : LedgerColumns) where
  | queue (call : QueueCall)
  | ledger (a : LedgerCall C)

def LedgerCall.env : LedgerCall C → LedgerEnv C
  | .begin _ _ _ e | .succeed _ _ _ _ e | .fail _ _ _ _ e => e

/-- The transition system of jobs and a ledger: a transaction of the ledger sees the jobs there
are. -/
def LedgerService.governed (S : LedgerService C) : Lts (GovernedState C) (GovernedCall C) where
  init s := Atlas.queue.init s.queue ∧ S.system.init s.ledger
  step s call s' :=
    match call with
    | .queue call => Atlas.queue.step s.queue call s'.queue ∧ s'.ledger = s.ledger
    | .ledger a => a.env.jobs = s.queue.jobs ∧ S.system.step s.ledger a s'.ledger ∧
        s'.queue = s.queue

/-- A worker crashed with the attempt under way: its deadline has passed and the lease of its job
has ended when another worker claims the job with `token` at the instant `now`.  In the later state
`s'` the attempt is still there. -/
structure StaleReclaim (S : LedgerService C) (jobOf : C.Call → Option String)
    (s : GovernedState C) (row : InvocationRow C) (attempt : AttemptRow C) (jobId token : String)
    (now : Instant) (s' : GovernedState C) : Prop where
  reachable : S.governed.Reachable s
  invocation : row ∈ s.ledger.invocations
  job : jobOf row.call = some jobId
  under_way : attempt ∈ s.ledger.attempts ∧ attempt.invocationId = row.id ∧
    attempt.status = .started
  deadline : attempt.deadlineAt ≤ now
  expired : ∃ job ∈ s.queue.jobs.lookup jobId, job.status = .running ∧
    ∃ lease ∈ job.leaseExpiresAt, lease < now
  reclaimed : ∃ locked lease profile s₁ calls,
    CommitsClaim s.queue (.claimNext locked now lease token profile (some jobId)) jobId token ∧
    S.governed.step s (.queue (.claimNext locked now lease token profile (some jobId))) s₁ ∧
    S.governed.Run s₁ calls s'
  left : attempt ∈ s'.ledger.attempts

/-- The worker holds the claim of the job with its token, under a lease that has not ended. -/
def HoldsJobClaim (jobs : Jobs) (jobId token : String) (now : Instant) : Prop :=
  ∃ job ∈ jobs.lookup jobId, ownsRunningClaim job token now = true

/-- Whenever another worker has reclaimed the job and repeats the call under its claim, the stale
attempt is closed and another one started. -/
def ReclaimProgresses (S : LedgerService C) (jobOf : C.Call → Option String) : Prop :=
  ∀ s row attempt jobId token now s', StaleReclaim S jobOf s row attempt jobId token now s' →
    ∀ e : LedgerEnv C, e.jobs = s'.queue.jobs → HoldsJobClaim e.jobs jobId token e.now →
    ∀ call, S.key call = row.invocationKey → ∀ place,
      ∃ invocationId attemptId l',
        S.beginCall call place .current e s'.ledger = .ok (.attempt invocationId attemptId, l')

/-- The job on whose claim the reclaim of a model call depends. -/
def ModelCall.job (call : ModelCall) : Option String := some call.researchJobId

/-- The job on whose claim the reclaim of a tool call depends; a call over MCP has none. -/
def ToolCall.job (call : ToolCall) : Option String :=
  match call.origin with
  | .workflow researchJobId _ => some researchJobId
  | .mcp _ => none

/-! ### The claim blocks the reclaim -/

theorem jobHasValidClaim_of_holds {jobs : Jobs} {jobId token : String} {now : Instant}
    (h : HoldsJobClaim jobs jobId token now) : jobHasValidClaim jobs jobId now = true := by
  obtain ⟨job, hjob, howns⟩ := h
  obtain ⟨hstatus, htoken, lease, hlease, hlt⟩ := ownsRunningClaim_eq_true.1 howns
  simp only [Option.mem_def] at hjob
  simp [jobHasValidClaim, hjob, hstatus, htoken, hlease, hlt]

/-- A service that reclaims no attempt while the job of the call has a valid claim. -/
def LedgerService.RespectsClaims (S : LedgerService C) (jobOf : C.Call → Option String) : Prop :=
  ∀ l row latest jobs now jobId, l.latestAttempt row.id = some latest →
    jobOf row.call = some jobId → jobHasValidClaim jobs jobId now = true →
    S.canReclaim l row jobs now = false

theorem modelInvocations_respectsClaims {J : Type} {V : ModelNode → Type}
    (sha256 : String → String) (schema : (node : ModelNode) → Schema J (V node))
    (callTimeout : Instant) :
    (modelInvocations sha256 schema callTimeout).RespectsClaims ModelCall.job := by
  intro l row latest jobs now jobId hlatest hjob hclaim
  change ModelInvocationService.canReclaim l row jobs now = false
  have hid : ModelCall.researchJobId row.call = jobId := Option.some.inj hjob
  rw [ModelInvocationService.canReclaim, hlatest]
  simp only [hid, hclaim]
  split <;> rfl

theorem toolInvocations_respectsClaims {D : Type} (sha256 : String → String)
    (attemptTimeout : Instant) :
    (toolInvocations (D := D) sha256 attemptTimeout).RespectsClaims ToolCall.job := by
  intro l row latest jobs now jobId hlatest hjob hclaim
  change ToolInvocationService.canReclaim l row jobs now = false
  rw [ToolInvocationService.canReclaim, hlatest]
  have horigin : ∃ nodeName, ToolCall.origin row.call = .workflow jobId nodeName := by
    unfold ToolCall.job at hjob
    cases h : ToolCall.origin row.call with
    | workflow researchJobId nodeName =>
        rw [h] at hjob
        cases hjob
        exact ⟨nodeName, rfl⟩
    | mcp actorId =>
        rw [h] at hjob
        cases hjob
  obtain ⟨nodeName, horigin⟩ := horigin
  simp only [horigin, hclaim]
  split <;> rfl

namespace LedgerService

variable {S : LedgerService C} {jobOf : C.Call → Option String}

/-- **No attempt is reclaimed under a valid claim**: the call raises that it is in progress. -/
theorem beginCall_blocked {l : Ledger C} {e : LedgerEnv C} {row : InvocationRow C}
    {jobId : String} (hS : S.RespectsClaims jobOf) (hl : l.Valid) (hrow : row ∈ l.invocations)
    (hprogress : row.status = .inProgress) (hjob : jobOf row.call = some jobId)
    (hclaim : jobHasValidClaim e.jobs jobId e.now = true) {call : C.Call}
    (hkey : S.key call = row.invocationKey) (place : C.Place) :
    S.beginCall call place .current e l = .error S.inProgress := by
  have hlook : Look.current.row (S.key call) l = some row := by
    rw [hkey]
    exact hl.getByKey_eq hrow
  obtain ⟨latest, -, hlatest, -⟩ := hl.latest_started hrow hprogress
  have hcan := hS l row latest e.jobs e.now jobId hlatest hjob hclaim
  have hnot : row.status ≠ .succeeded := by
    rw [hprogress]
    decide
  have htake : S.takeOver row e l = .error S.inProgress := by
    rw [takeOver, Tx.bind_of_ok (Tx.reading_eq_ok.2 ⟨rfl, rfl⟩),
      Tx.bind_of_ok (Tx.read_eq_ok.2 ⟨rfl, rfl⟩)]
    apply Tx.bind_of_error
    simp [Tx.lift, ensure, hcan, Except.map]
  rw [beginCall, Tx.bind_of_ok (Tx.reading_eq_ok.2 ⟨rfl, rfl⟩),
    Tx.bind_of_ok (Tx.read_eq_ok.2 ⟨hlook, rfl⟩)]
  simp only [if_neg hnot]
  rw [reopen, Tx.bind_of_ok (Tx.reading_eq_ok.2 ⟨rfl, rfl⟩), reclaim, if_pos hprogress]
  exact Tx.bind_of_error htake

/-- What the steps of the ledger preserve, the steps of both preserve. -/
theorem governed_preserves {I : Ledger C → Prop} (hI : S.system.Preserved I) :
    S.governed.Preserved fun s => I s.ledger := by
  intro s call s' hs hstep
  cases call with
  | queue call =>
      rw [hstep.2]
      exact hs
  | ledger a => exact hI s.ledger a s'.ledger hs hstep.2.1

theorem valid_of_governed {s : GovernedState C} (h : S.governed.Reachable s) : s.ledger.Valid := by
  have hpreserved := preserved_of_changes (S := S) (I := fun _ => True) fun _ _ _ _ _ _ => trivial
  have hvalid := h.invariant (I := fun s => s.ledger.Valid ∧ True)
    (fun s hs => by rw [hs.2]; exact ⟨Ledger.empty_valid, trivial⟩) (governed_preserves hpreserved)
  exact hvalid.1

/-- The invocation of a stale attempt stays that of its call, and in progress. -/
theorem invocation_of_stale {s s' : GovernedState C} {row : InvocationRow C}
    {attempt : AttemptRow C} {jobId token : String} {now : Instant}
    (h : StaleReclaim S jobOf s row attempt jobId token now s') :
    s'.ledger.Valid ∧ ∃ row' ∈ s'.ledger.invocations, row'.invocationKey = row.invocationKey ∧
      row'.call = row.call ∧ row'.status = .inProgress := by
  obtain ⟨locked, lease, profile, s₁, calls, -, hclaim, hrun⟩ := h.reclaimed
  have hvalid := valid_of_governed h.reachable
  have hpreserved := preserved_of_changes (S := S)
    (I := fun l => ∃ row' ∈ l.invocations, row'.id = row.id ∧
      row'.invocationKey = row.invocationKey ∧ row'.call = row.call) fun _ l l' _ hchange hmem => by
        obtain ⟨row', hrow', hid, hkey, hcall⟩ := hmem
        obtain ⟨row'', hrow'', hid', hkey', hcall'⟩ := hchange.keeps_invocation hrow'
        exact ⟨row'', hrow'', hid'.trans hid, hkey'.trans hkey, hcall'.trans hcall⟩
  have hall : S.governed.Run s (.queue (.claimNext locked now lease token profile (some jobId)) ::
      calls) s' := by
    have hboth := (Lts.Run.single hclaim).append hrun
    simpa using hboth
  obtain ⟨hvalid', row', hrow', hid, hkey, hcall⟩ := hall.preserves (governed_preserves hpreserved)
    ⟨hvalid, row, h.invocation, rfl, rfl, rfl⟩
  obtain ⟨owner, howner, hownerId, hprogress, -⟩ := hvalid'.open_attempt h.left h.under_way.2.2
  have hsame : owner = row' :=
    Rows.eq_of_key hvalid'.ids howner hrow' (hownerId.trans (h.under_way.2.1.trans hid.symm))
  rw [hsame] at hprogress
  exact ⟨hvalid', row', hrow', hkey, hcall, hprogress⟩

/-- **Whoever holds the job's claim is refused.** -/
theorem beginCall_of_stale (hS : S.RespectsClaims jobOf) {s s' : GovernedState C}
    {row : InvocationRow C} {attempt : AttemptRow C} {jobId token : String} {now : Instant}
    (h : StaleReclaim S jobOf s row attempt jobId token now s') {e : LedgerEnv C}
    (hclaim : HoldsJobClaim e.jobs jobId token e.now) {call : C.Call}
    (hkey : S.key call = row.invocationKey) (place : C.Place) :
    S.beginCall call place .current e s'.ledger = .error S.inProgress := by
  obtain ⟨hvalid, row', hrow', hkey', hcall', hprogress⟩ := invocation_of_stale h
  have hjob : jobOf row'.call = some jobId := by
    rw [hcall']
    exact h.job
  exact beginCall_blocked hS hvalid hrow' hprogress hjob (jobHasValidClaim_of_holds hclaim)
    (hkey.trans hkey'.symm) place

/-- Where the situation is reached, reclaiming does not always make progress. -/
theorem not_progresses (hS : S.RespectsClaims jobOf) {s s' : GovernedState C}
    {row : InvocationRow C} {attempt : AttemptRow C} {jobId token : String} {now : Instant}
    (h : StaleReclaim S jobOf s row attempt jobId token now s') (e : LedgerEnv C)
    (hjobs : e.jobs = s'.queue.jobs) (hclaim : HoldsJobClaim e.jobs jobId token e.now)
    (call : C.Call) (hkey : S.key call = row.invocationKey) (place : C.Place) :
    ¬ ReclaimProgresses S jobOf := by
  intro hprogress
  obtain ⟨_, _, _, hok⟩ :=
    hprogress s row attempt jobId token now s' h e hjobs hclaim call hkey place
  rw [beginCall_of_stale hS h hclaim hkey place] at hok
  cases hok

end LedgerService

/-- **The worker that reclaimed the job cannot go on.**  In every run, of model calls as of tool
calls: whoever reclaimed the job of a stale attempt and repeats its call under the claim gets the
exception that the invocation is in progress, starts no attempt, and for that exception the
recovery policy decides that the job is terminal. -/
theorem stale_attempt_blocks {J D : Type} {V : ModelNode → Type} (sha256 : String → String)
    (schema : (node : ModelNode) → Schema J (V node)) (callTimeout attemptTimeout : Instant) :
    (∀ s row attempt jobId token now s',
      StaleReclaim (modelInvocations sha256 schema callTimeout) ModelCall.job s row attempt jobId
        token now s' →
      ∀ e, e.jobs = s'.queue.jobs → HoldsJobClaim e.jobs jobId token e.now →
      ∀ call, (modelInvocations sha256 schema callTimeout).key call = row.invocationKey → ∀ place,
        (¬ ∃ invocationId attemptId l',
          (modelInvocations sha256 schema callTimeout).beginCall call place .current e s'.ledger =
            .ok (.attempt invocationId attemptId, l')) ∧
        (modelInvocations sha256 schema callTimeout).beginCall call place .current e s'.ledger =
          .error (.model .invocationInProgress)) ∧
    (∀ s row attempt jobId token now s',
      StaleReclaim (toolInvocations (D := D) sha256 attemptTimeout) ToolCall.job s row attempt
        jobId token now s' →
      ∀ e, e.jobs = s'.queue.jobs → HoldsJobClaim e.jobs jobId token e.now →
      ∀ call, (toolInvocations (D := D) sha256 attemptTimeout).key call = row.invocationKey →
      ∀ place,
        (¬ ∃ invocationId attemptId l',
          (toolInvocations sha256 attemptTimeout).beginCall call place .current e s'.ledger =
            .ok (.attempt invocationId attemptId, l')) ∧
        (toolInvocations sha256 attemptTimeout).beginCall call place .current e s'.ledger =
          .error (.tool .invocationInProgress)) ∧
    ∀ counts,
      (decideForException (.model .invocationInProgress) counts).action = .terminal ∧
      (decideForException (.tool .invocationInProgress) counts).action = .terminal := by
  refine ⟨?_, ?_, fun _ => ⟨rfl, rfl⟩⟩
  · intro s row attempt jobId token now s' h e _ hclaim call hkey place
    have herror := LedgerService.beginCall_of_stale
      (modelInvocations_respectsClaims sha256 schema callTimeout) h hclaim hkey place
    refine ⟨?_, herror⟩
    rintro ⟨_, _, _, hok⟩
    rw [herror] at hok
    cases hok
  · intro s row attempt jobId token now s' h e _ hclaim call hkey place
    have herror := LedgerService.beginCall_of_stale
      (toolInvocations_respectsClaims sha256 attemptTimeout) h hclaim hkey place
    refine ⟨?_, herror⟩
    rintro ⟨_, _, _, hok⟩
    rw [herror] at hok
    cases hok

/-! ### The situation is reached -/

def submission : QueueCall := .add
  { id := "job-1", question := "why?", status := .pending, createdAt := 0, updatedAt := 0
    startedAt := none, finishedAt := none, result := none, failureReason := none }
  "key-1" (String.ofList (List.replicate 64 'f')) none

def firstToken : String := String.ofList (List.replicate 64 'a')

def secondToken : String := String.ofList (List.replicate 64 'b')

def submittedJob : QueueState := (⟨∅, []⟩ : QueueState).apply submission

/-- The job of a worker that crashed under a lease until 20. -/
def crashedJob : QueueState :=
  submittedJob.apply (.claimNext [] 10 20 firstToken none (some "job-1"))

/-- The job after another worker claimed it at 30. -/
def reclaimedJob : QueueState :=
  crashedJob.apply (.claimNext [] 30 40 secondToken none (some "job-1"))

theorem claims_crashedJob : queue.step submittedJob
    (.claimNext [] 10 20 firstToken none (some "job-1")) crashedJob :=
  ⟨by decide, rfl⟩

theorem claims_reclaimedJob : queue.step crashedJob
    (.claimNext [] 30 40 secondToken none (some "job-1")) reclaimedJob :=
  ⟨by decide, rfl⟩

theorem commits_reclaimedJob : CommitsClaim crashedJob
    (.claimNext [] 30 40 secondToken none (some "job-1")) "job-1" secondToken :=
  ⟨[], 30, 40, none, _, rfl, Option.eq_some_of_isSome (by decide)⟩

theorem crashedJob_expired : ∃ job ∈ crashedJob.jobs.lookup "job-1", job.status = .running ∧
    ∃ lease ∈ job.leaseExpiresAt, lease < 30 := by
  decide

/-- The call of the first worker. -/
def crashedInvocation (S : LedgerService C) (call : C.Call) (place : C.Place) : InvocationRow C :=
  { id := "i", invocationKey := S.key call, call := call, place := place, status := .inProgress
    startedAt := 11 }

/-- The attempt the first worker left. -/
def crashedAttempt (S : LedgerService C) : AttemptRow C :=
  { id := "a", invocationId := "i", attempt := 1, status := .started
    deadlineAt := 11 + S.timeout, startedAt := 11 }

def crashedLedger (S : LedgerService C) (call : C.Call) (place : C.Place) : Ledger C :=
  { invocations := [crashedInvocation S call place], attempts := [crashedAttempt S] }

/-- **The situation is reached**, for every service whose attempts have five units of time and
every call for the job. -/
theorem staleReclaim_of_crash (S : LedgerService C) (jobOf : C.Call → Option String) (call : C.Call)
    (place : C.Place) (response : (call : C.Call) → Except Exc (C.Answer call))
    (htimeout : S.timeout = 5) (hjob : jobOf call = some "job-1") :
    StaleReclaim S jobOf ⟨crashedJob, crashedLedger S call place⟩ (crashedInvocation S call place)
      (crashedAttempt S) "job-1" secondToken 30
      ⟨reclaimedJob, crashedLedger S call place⟩ := by
  let e : LedgerEnv C := { now := 11, invocationId := "i", attemptId := "a"
                           jobs := crashedJob.jobs, response := response }
  have hbegin : S.perform {} (.begin call place .current e) = crashedLedger S call place := rfl
  have hbegins : S.governed.step ⟨crashedJob, {}⟩ (.ledger (.begin call place .current e))
      ⟨crashedJob, crashedLedger S call place⟩ := ⟨rfl, hbegin.symm, rfl⟩
  have hclaims : S.governed.step ⟨submittedJob, {}⟩
      (.queue (.claimNext [] 10 20 firstToken none (some "job-1"))) ⟨crashedJob, {}⟩ :=
    ⟨claims_crashedJob, rfl⟩
  have hsubmits : S.governed.step ⟨⟨∅, []⟩, {}⟩ (.queue submission) ⟨submittedJob, {}⟩ :=
    ⟨⟨trivial, rfl⟩, rfl⟩
  have hreclaims : S.governed.step ⟨crashedJob, crashedLedger S call place⟩
      (.queue (.claimNext [] 30 40 secondToken none (some "job-1")))
      ⟨reclaimedJob, crashedLedger S call place⟩ := ⟨claims_reclaimedJob, rfl⟩
  have hinit : S.governed.Reachable ⟨⟨∅, []⟩, {}⟩ := Lts.Reachable.of_init ⟨⟨rfl, rfl⟩, rfl⟩
  constructor
  · exact ((hinit.step hsubmits).step hclaims).step hbegins
  · exact List.mem_singleton_self _
  · exact hjob
  · exact ⟨List.mem_singleton_self _, rfl, rfl⟩
  · change 11 + S.timeout ≤ 30
    rw [htimeout]
    decide
  · exact crashedJob_expired
  · exact ⟨[], 40, none, _, [], commits_reclaimedJob, hreclaims, .nil⟩
  · exact List.mem_singleton_self _

def sampleSchema (_ : ModelNode) : Schema String String := ⟨some, id, fun _ => rfl⟩

def samplePlan : ModelCall := ⟨"job-1", .plan, "prompt.v1", "openai", "gpt-4o-mini", "input"⟩

def sampleSearch : ToolCall :=
  ⟨.workflow "job-1" "research", "web_search", "tools.v1", "fake", "policy", "input"⟩

/-- The second worker repeats the call at 31, under its lease until 40. -/
def repeatedAt31 (response : (call : C.Call) → Except Exc (C.Answer call)) : LedgerEnv C :=
  { now := 31, invocationId := "i-2", attemptId := "b", jobs := reclaimedJob.jobs
    response := response }

theorem holds_reclaimedJob : HoldsJobClaim reclaimedJob.jobs "job-1" secondToken 31 := by
  unfold HoldsJobClaim
  decide

/-- The second worker is refused its own job's calls. -/
theorem stale_attempt_blocks_second_worker :
    (modelInvocations id sampleSchema 5).beginCall samplePlan "execution-1" .current
        (repeatedAt31 fun _ => .error (.model .temporary))
        (crashedLedger (modelInvocations id sampleSchema 5) samplePlan "execution-1") =
      .error (.model .invocationInProgress) ∧
    (toolInvocations (D := String) id 5).beginCall sampleSearch ⟨some "execution-1", some 1⟩
        .current (repeatedAt31 fun _ => .error (.tool .temporary))
        (crashedLedger (toolInvocations id 5) sampleSearch ⟨some "execution-1", some 1⟩) =
      .error (.tool .invocationInProgress) := by
  obtain ⟨hmodel, htool, -⟩ := stale_attempt_blocks (D := String) id sampleSchema 5 5
  constructor
  · have hstale := staleReclaim_of_crash (modelInvocations id sampleSchema 5) ModelCall.job
      samplePlan "execution-1" (fun _ => .error (.model .temporary)) rfl rfl
    exact (hmodel _ _ _ _ _ _ _ hstale (repeatedAt31 fun _ => .error (.model .temporary)) rfl
      holds_reclaimedJob samplePlan rfl "execution-1").2
  · have hstale := staleReclaim_of_crash (toolInvocations (D := String) id 5) ToolCall.job
      sampleSearch ⟨some "execution-1", some 1⟩ (fun _ => .error (.tool .temporary)) rfl rfl
    exact (htool _ _ _ _ _ _ _ hstale (repeatedAt31 fun _ => .error (.tool .temporary)) rfl
      holds_reclaimedJob sampleSearch rfl ⟨some "execution-1", some 1⟩).2

/-- A stale attempt is not always reclaimed by the worker that claimed its job. -/
theorem stale_attempt_left_open :
    ¬ ReclaimProgresses (modelInvocations id sampleSchema 5) ModelCall.job ∧
      ¬ ReclaimProgresses (toolInvocations (D := String) id 5) ToolCall.job := by
  constructor
  · exact LedgerService.not_progresses (modelInvocations_respectsClaims id sampleSchema 5)
      (staleReclaim_of_crash (modelInvocations id sampleSchema 5) ModelCall.job samplePlan
        "execution-1" (fun _ => .error (.model .temporary)) rfl rfl)
      (repeatedAt31 fun _ => .error (.model .temporary)) rfl holds_reclaimedJob samplePlan rfl
      "execution-1"
  · exact LedgerService.not_progresses (toolInvocations_respectsClaims id 5)
      (staleReclaim_of_crash (toolInvocations (D := String) id 5) ToolCall.job sampleSearch
        ⟨some "execution-1", some 1⟩ (fun _ => .error (.tool .temporary)) rfl rfl)
      (repeatedAt31 fun _ => .error (.tool .temporary)) rfl holds_reclaimedJob sampleSearch rfl
      ⟨some "execution-1", some 1⟩

end Atlas
