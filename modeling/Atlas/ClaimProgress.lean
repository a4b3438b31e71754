/-
**Whether a claim can be blocked.**

`claim_next` locks one row, an oldest of those its query matches, and the domain object then
refuses a start or a resumption before the last change of the job.  The query does not look at that
change, so a job whose submitter's clock is ahead is selected, and the attempt raises instead of
answering that nothing can be claimed.  This is the only way: on the rows the system builds a
selected row is claimed in every other case, and a claim in the making is not refused by the
database.

Main definitions:

* `Atlas.QueueHead` — a row `claim_next` may lock;
* `Atlas.claimNextAnswer` — what `claim_next` answers or raises;
* `Atlas.NeverBlocked` — it answers, and with a claim when some job can be claimed.

Main results:

* `Atlas.exists_selects` — the query always has an answer;
* `Atlas.claimRow_ok`, `Atlas.claimRow_ahead` — when a selected row is claimed;
* `Atlas.claim_never_blocked_iff` — **a claim is blocked exactly when a head of the queue is PENDING
  and was changed after the instant of the claim**;
* `Atlas.claim_blocked_by_clock` — a job submitted by a clock that is ahead.
-/

import Atlas.SystemSound
import Mathlib.Data.List.MinMax

set_option relaxedAutoImplicit false
set_option autoImplicit false

namespace Atlas

open Checked

/-! ### The head of the queue -/

section Queue

variable {jobs : Jobs} {locked : List String} {now lease : Instant} {token profile : String}

/-- An oldest of the unlocked rows the query matches. -/
structure QueueHead (jobs : Jobs) (locked : List String) (now : Instant) (profile jobId : String)
    (row : ResearchJobRow) : Prop where
  lookup : jobs.lookup jobId = some row
  unlocked : jobId ∉ locked
  claimable : claimable row now profile = true
  oldest : ∀ other row', jobs.lookup other = some row' → other ∉ locked →
    Atlas.claimable row' now profile = true → row.createdAt ≤ row'.createdAt

theorem selects_some_iff {jobId : String} :
    Selects jobs locked now profile (some jobId) ↔
      ∃ row, QueueHead jobs locked now profile jobId row := by
  constructor
  · rintro ⟨row, hrow, hunlocked, hclaimable, holdest⟩
    refine ⟨row, hrow, hunlocked, hclaimable, ?_⟩
    intro other row' hrow' hother hclaimable'
    exact holdest ⟨other, row'⟩ (AList.mem_lookup_iff.1 hrow') hother hclaimable'
  · rintro ⟨row, h⟩
    refine ⟨row, h.lookup, h.unlocked, h.claimable, ?_⟩
    rintro ⟨other, row'⟩ hentry hother hclaimable'
    exact h.oldest other row' (AList.mem_lookup_iff.2 hentry) hother hclaimable'

theorem not_claimable_of_selects_none (h : Selects jobs locked now profile none) {jobId : String}
    {row : ResearchJobRow} (hrow : jobs.lookup jobId = some row) (hunlocked : jobId ∉ locked) :
    claimable row now profile = false :=
  h ⟨jobId, row⟩ (AList.mem_lookup_iff.1 hrow) hunlocked

/-- **The query always has an answer.** -/
theorem exists_selects (jobs : Jobs) (locked : List String) (now : Instant) (profile : String) :
    ∃ selected, Selects jobs locked now profile selected := by
  have hmatch (entry : Sigma fun _ : String => ResearchJobRow) :
      entry ∈ jobs.entries.filter (fun entry => entry.1 ∉ locked ∧
        claimable entry.2 now profile = true) ↔
        entry ∈ jobs.entries ∧ entry.1 ∉ locked ∧ claimable entry.2 now profile = true := by
    rw [List.mem_filter, decide_eq_true_eq]
  cases hfirst : (jobs.entries.filter fun entry => entry.1 ∉ locked ∧
      claimable entry.2 now profile = true).argmin (·.2.createdAt) with
  | none =>
      rw [List.argmin_eq_none] at hfirst
      refine ⟨none, ?_⟩
      intro entry hentry hunlocked
      by_contra hclaimable
      rw [Bool.not_eq_false] at hclaimable
      have hmem := (hmatch entry).2 ⟨hentry, hunlocked, hclaimable⟩
      rw [hfirst] at hmem
      cases hmem
  | some entry =>
      obtain ⟨hentry, hunlocked, hclaimable⟩ := (hmatch entry).1 (List.argmin_mem hfirst)
      refine ⟨some entry.1, entry.2, AList.mem_lookup_iff.2 hentry, hunlocked, hclaimable, ?_⟩
      intro other hother hunlocked' hclaimable'
      have hmem := (hmatch other).2 ⟨hother, hunlocked', hclaimable'⟩
      exact List.le_of_mem_argmin (f := fun entry => entry.2.createdAt) hmem hfirst

/-! ### Claiming the selected row -/

/-- What `claim_next` answers or raises: nothing when its query selects no row. -/
def claimNextAnswer (jobs : Jobs) (now leaseExpiresAt : Instant) (claimToken : String)
    (evaluationProfile : Option String) (selected : Option String) :
    Except PersistenceError (Option (ResearchJobRow × ClaimedResearchJob)) :=
  match selected.bind (jobs.lookup ·) with
  | none => .ok none
  | some row => claimRow row now leaseExpiresAt claimToken (workerProfile evaluationProfile)

variable {row : ResearchJobRow}

theorem claimNextAnswer_of_lookup {jobId : String} (h : jobs.lookup jobId = some row)
    (evaluationProfile : Option String) :
    claimNextAnswer jobs now lease token evaluationProfile (some jobId)
      = claimRow row now lease token (workerProfile evaluationProfile) := by
  rw [claimNextAnswer, Option.bind_some, h]

theorem claimable_eq_true :
    claimable row now profile = true ↔
      (row.status = .pending ∧ (∀ next ∈ row.nextAttemptAt, next ≤ now) ∨
        row.status = .running ∧ ∃ lease, row.leaseExpiresAt = some lease ∧ lease < now) ∧
      (row.evaluationProfile = none ∨ row.evaluationProfile = some profile) := by
  cases hnext : row.nextAttemptAt <;> cases hlease : row.leaseExpiresAt <;>
    cases hprofile : row.evaluationProfile <;>
    simp [claimable, hnext, hlease, hprofile]

/-- The profile filter of the query lets the row be bound. -/
theorem bindEvaluationProfile_of_claimable (h : claimable row now profile = true) :
    bindEvaluationProfile row profile = some { row with evaluationProfile := some profile } := by
  rcases (claimable_eq_true.1 h).2 with hnone | hsame
  · rw [bindEvaluationProfile, hnone]
  · rw [bindEvaluationProfile, hsame]
    simp only [ne_eq, not_true_eq_false, if_false]
    rw [← hsame]

/-- A RUNNING row that meets the constraints is claimed to its end. -/
theorem finishClaim_ok (now lease : Instant) (mode : ContinuationMode) (profile : String)
    (hfits : row.Fits) (hvalid : row.Valid) (hs : row.status = .running)
    (htoken : IsTokenHex token) :
    ∃ claim, finishClaim row now lease token mode profile = .ok claim := by
  have hfits' : (maybeConsumeInitialTraceparent
      { row with claimToken := some token, leaseExpiresAt := some lease } now).Fits := by
    rw [maybeConsumeInitialTraceparent]
    split
    · rename_i hconsumes
      rw [consumesTraceparent, Bool.and_eq_true] at hconsumes
      exact fits_finishClaim hfits hs htoken (.inr hconsumes.1)
    · exact fits_finishClaim hfits hs htoken hfits.consumed_pair
  have hvalid' : (maybeConsumeInitialTraceparent
      { row with claimToken := some token, leaseExpiresAt := some lease } now).Valid := by
    rw [maybeConsumeInitialTraceparent]
    split <;> exact hvalid
  cases hclaim : finishClaim row now lease token mode profile with
  | ok claim => exact ⟨claim, rfl⟩
  | error e =>
      rw [finishClaim, flush_of_fits hfits', ok_bind, toDomain_of_valid hvalid'] at hclaim
      cases hclaim

theorem startOrResume_ok {job : ResearchJob} (hs : job.status = .pending)
    (htime : job.updatedAt ≤ now) : ∃ job', startOrResume now job = .ok job' := by
  by_cases hstarted : job.startedAt = none
  · refine ⟨{ job with status := .running, startedAt := some now, updatedAt := now }, ?_⟩
    rw [startOrResume, if_pos hstarted]
    exact ResearchJob.start_eq_ok.2 ⟨hs, hstarted, htime, rfl⟩
  · refine ⟨{ job with status := .running, updatedAt := now }, ?_⟩
    rw [startOrResume, if_neg hstarted]
    exact ResearchJob.resumeFromPending_eq_ok.2 ⟨hs, hstarted, htime, rfl⟩

/-- A PENDING row that was not changed after the instant is brought to run. -/
theorem transition_startOrResume_ok (hfits : row.Fits) (hvalid : row.Valid)
    (hs : row.status = .pending) (hbound : row.evaluationProfile = some profile)
    (htime : row.updatedAt ≤ now) :
    ∃ row₁ : ResearchJobRow, transition (startOrResume now)
        { row with claimedContinuationMode := row.continuationMode, continuationMode := .none }
          = .ok row₁ ∧
      { row₁ with nextAttemptAt := none : ResearchJobRow }.Fits ∧ row₁.Valid ∧
        row₁.status = .running := by
  obtain ⟨job', hjob'⟩ := startOrResume_ok hs htime
  have hdomain : toDomain
      { row with claimedContinuationMode := row.continuationMode, continuationMode := .none }
        = .ok row.toResearchJob := toDomain_of_valid hvalid
  have htransition := transition_eq_ok.2 ⟨row.toResearchJob, hdomain, job', hjob', rfl⟩
  exact ⟨_, htransition, fits_startOrResume hfits hs hbound htransition,
    valid_transition valid_startOrResume htransition hvalid,
    (transition_status .running startOrResume_status htransition).1⟩

/-- **A selected row is claimed**, unless it is PENDING and was changed after the instant. -/
theorem claimRow_ok (lease : Instant) (hfits : row.Fits) (hvalid : row.Valid)
    (htoken : IsTokenHex token) (hprofile : profile ∈ evaluationProfilesAllowed) (h : claimable row now profile = true)
    (htime : row.status = .pending → row.updatedAt ≤ now) :
    ∃ claim, claimRow row now lease token profile = .ok (some claim) := by
  have hbind := bindEvaluationProfile_of_claimable h
  obtain ⟨hfits', hbound⟩ := fits_bindEvaluationProfile hfits hprofile hbind
  have hvalid' : { row with evaluationProfile := some profile : ResearchJobRow }.Valid := hvalid
  rcases (claimable_eq_true.1 h).1 with ⟨hs, -⟩ | ⟨hs, -⟩
  · obtain ⟨row₁, htransition, hfits₁, hvalid₁, hrunning⟩ :=
      transition_startOrResume_ok hfits' hvalid' hs hbound (htime hs)
    obtain ⟨claim, hclaim⟩ := finishClaim_ok now lease row.continuationMode profile hfits₁ hvalid₁
      hrunning htoken
    refine ⟨claim, ?_⟩
    simp only [claimRow, hbind, hs]
    rw [htransition, ok_bind, hclaim]
    rfl
  · have htransition : transition pure { row with evaluationProfile := some profile }
        = .ok { row with evaluationProfile := some profile } :=
      transition_eq_ok.2 ⟨row.toResearchJob, toDomain_of_valid hvalid', _, rfl, rfl⟩
    obtain ⟨claim, hclaim⟩ := finishClaim_ok now lease row.claimedContinuationMode profile hfits'
      hvalid' hs htoken
    refine ⟨claim, ?_⟩
    simp only [claimRow, hbind, hs]
    rw [htransition, ok_bind, hclaim]
    rfl

/-- **A PENDING row that was changed after the instant makes the claim raise.** -/
theorem claimRow_ahead (hvalid : row.Valid) (h : claimable row now profile = true)
    (hs : row.status = .pending) (htime : now < row.updatedAt) :
    claimRow row now lease token profile = .error (.domain (.invalidResearchJob
      "Timestamp must not be earlier than the job's updated_at.")) := by
  have hbind := bindEvaluationProfile_of_claimable h
  have hlate : ¬ row.updatedAt ≤ now := not_le.2 htime
  have hrefused : startOrResume now row.toResearchJob = .error (.invalidResearchJob
      "Timestamp must not be earlier than the job's updated_at.") := by
    by_cases hstarted : row.startedAt = none
    · simp [startOrResume, ResearchJob.start, ResearchJob.requireStatus,
        ResearchJob.transitionTime, resolveTimestamp, ensureNotBefore, ensure, hs, hstarted, hlate]
    · simp [startOrResume, ResearchJob.resumeFromPending, ResearchJob.requireStatus,
        ResearchJob.transitionTime, resolveTimestamp, ensureNotBefore, ensure, hs, hstarted, hlate]
  have hdomain : toDomain { row with
      evaluationProfile := some profile, claimedContinuationMode := row.continuationMode
      continuationMode := .none } = .ok row.toResearchJob := toDomain_of_valid hvalid
  simp only [claimRow, hbind, hs, transition]
  rw [hdomain, ok_bind, hrefused]
  rfl

end Queue

/-! ### Blocked claims -/

/-- `claim_next` answers without raising, whichever row it locks, and with a claim whenever an
unlocked job that was not changed after the instant can be claimed. -/
def NeverBlocked (jobs : Jobs) (locked : List String) (now leaseExpiresAt : Instant)
    (claimToken : String) (evaluationProfile : Option String) : Prop :=
  ∀ selected, Selects jobs locked now (workerProfile evaluationProfile) selected →
    ∃ answer, claimNextAnswer jobs now leaseExpiresAt claimToken evaluationProfile selected
        = .ok answer ∧
      ((∃ jobId row, jobs.lookup jobId = some row ∧ jobId ∉ locked ∧
        claimable row now (workerProfile evaluationProfile) = true ∧ row.updatedAt ≤ now) →
        answer.isSome = true)

/-- **A claim is blocked exactly by a head of the queue that is ahead of its clock.**  In every
reachable state, for every instant, `claim_next` never raises and claims what can be claimed if and
only if no oldest row among the unlocked ones it may claim is PENDING and changed after the
instant. -/
theorem claim_never_blocked_iff {s : SystemState} (h : system.Reachable s) (locked : List String)
    (now lease : Instant) {token : String} (htoken : IsTokenHex token) {profile : Option String}
    (hprofile : workerProfile profile ∈ evaluationProfilesAllowed) :
    NeverBlocked s.world.jobs locked now lease token profile ↔
      ∀ jobId row, QueueHead s.world.jobs locked now (workerProfile profile) jobId row →
        row.status = .pending → row.updatedAt ≤ now := by
  have hsound := (systemSound_of_reachable h).world
  constructor
  · intro hnever jobId row hhead hs
    by_contra hahead
    obtain ⟨answer, hanswer, -⟩ := hnever (some jobId) (selects_some_iff.2 ⟨row, hhead⟩)
    rw [claimNextAnswer_of_lookup hhead.lookup, claimRow_ahead (hsound.valid jobId row hhead.lookup)
      hhead.claimable hs (not_le.1 hahead)] at hanswer
    cases hanswer
  · intro hheads selected hselected
    cases selected with
    | none =>
        refine ⟨none, rfl, ?_⟩
        rintro ⟨jobId, row, hrow, hunlocked, hclaimable, -⟩
        rw [not_claimable_of_selects_none hselected hrow hunlocked] at hclaimable
        cases hclaimable
    | some jobId =>
        obtain ⟨row, hhead⟩ := selects_some_iff.1 hselected
        have hfits := ResearchJobRow.fits_iff.1 (hsound.checks jobId row hhead.lookup)
        obtain ⟨claim, hclaim⟩ := claimRow_ok lease hfits (hsound.valid jobId row hhead.lookup)
          htoken hprofile hhead.claimable (hheads jobId row hhead)
        refine ⟨some claim, ?_, fun _ => rfl⟩
        rw [claimNextAnswer_of_lookup hhead.lookup]
        exact hclaim

/-! ### A clock that is ahead -/

/-- A submission by an API host whose clock shows 20. -/
def submissionEnv : Env where
  now := 20
  uuid i := if i = 0 then "5a1c0000-0000-4000-8000-000000000001"
    else "5a1c0000-0000-4000-8000-000000000002"
  tokenHex := ""
  jitter := 0
  traceparent := none
  outside := .unavailable

/-- One job was submitted. -/
def submittedSystem : SystemState :=
  (({} : SystemState).apply (.submit "request-1" (fun _ => repeatedToken 'f') "why?" "key-1")).apply
    (.act "request-1" submissionEnv)

theorem submittedSystem_reachable : system.Reachable submittedSystem := by
  refine Lts.Reachable.step (Lts.Reachable.step (.of_init rfl) ⟨?_, rfl⟩) ⟨?_, rfl⟩
  · exact List.not_mem_nil
  · refine ⟨by decide +kernel, ?_⟩
    intro decision hdecision
    cases hdecision

/-- **A worker whose clock shows 10 polls after the submission**: the job is selected, and the
attempt raises. -/
theorem claim_blocked_by_clock :
    system.Reachable submittedSystem ∧
      Selects submittedSystem.world.jobs [] 10 (workerProfile none)
        (some "5a1c0000-0000-4000-8000-000000000001") ∧
      claimNextAnswer submittedSystem.world.jobs 10 100 (repeatedToken 'a') none
          (some "5a1c0000-0000-4000-8000-000000000001")
        = .error (.domain (.invalidResearchJob
          "Timestamp must not be earlier than the job's updated_at.")) ∧
      ¬ NeverBlocked submittedSystem.world.jobs [] 10 100 (repeatedToken 'a') none := by
  have hselects : Selects submittedSystem.world.jobs [] 10 (workerProfile none)
      (some "5a1c0000-0000-4000-8000-000000000001") := by
    decide +kernel
  have hraises : claimNextAnswer submittedSystem.world.jobs 10 100 (repeatedToken 'a') none
      (some "5a1c0000-0000-4000-8000-000000000001") = .error (.domain (.invalidResearchJob
        "Timestamp must not be earlier than the job's updated_at.")) := by
    decide +kernel
  refine ⟨submittedSystem_reachable, hselects, hraises, ?_⟩
  intro hnever
  obtain ⟨answer, hanswer, -⟩ := hnever _ hselects
  rw [hraises] at hanswer
  cases hanswer

/-- A worker whose clock shows 30 is not blocked. -/
theorem claim_not_blocked_later :
    NeverBlocked submittedSystem.world.jobs [] 30 100 (repeatedToken 'a') none := by
  refine (claim_never_blocked_iff submittedSystem_reachable [] 30 100
    (by decide +kernel) (by decide +kernel)).2 ?_
  intro jobId row hhead _
  have hentries : ∀ entry ∈ submittedSystem.world.jobs.entries, entry.2.updatedAt ≤ 30 := by
    decide +kernel
  exact hentries ⟨jobId, row⟩ (AList.mem_lookup_iff.1 hhead.lookup)

end Atlas
