/-
**Columns that are written once, over whole runs.**

A claim is the only step that touches the evaluation profile of a job or the mark of its trace
context.  It binds a job without a profile to the worker's, and its query passes over a job with
another; it hands the trace context on as a parent when it writes the mark.  So the committed claims
of a job, taken in the order of the run, tell its columns: the first one binds the profile, all have
it, and one at most was given the parent.

Main definitions:

* `Atlas.RowsKept` — a step that keeps the columns of every job;
* `Atlas.SystemState.claims` — the committed claims of a job along a run.

Main results:

* `Atlas.WorkerEffect.rowsKept`, `Atlas.Reviewed.rowsKept` — no step but a claim writes the columns;
* `Atlas.write_once_columns` — **the columns of a job are those of its first claim**.
-/

import Atlas.ClaimProgress
import Atlas.ReviewGate

set_option relaxedAutoImplicit false
set_option autoImplicit false

namespace Atlas

/-! ### Steps that keep the columns -/

section Kept

variable {w w' : World}

/-- Every job is still there, no job is new, and the columns are kept. -/
structure RowsKept (w w' : World) : Prop where
  forth : ∀ jobId row, w.jobs.lookup jobId = some row →
    ∃ row', w'.jobs.lookup jobId = some row' ∧ Kept row row'
  back : ∀ jobId row', w'.jobs.lookup jobId = some row' →
    ∃ row, w.jobs.lookup jobId = some row ∧ Kept row row'

theorem rowsKept_of_eq (h : w'.jobs = w.jobs) : RowsKept w w' := by
  constructor
  · intro jobId row hrow
    exact ⟨row, by rw [h, hrow], .refl row⟩
  · intro jobId row hrow
    rw [h] at hrow
    exact ⟨row, hrow, .refl row⟩

theorem rowsKept_insert {target : String} {row row' : ResearchJobRow}
    (hrow : w.jobs.lookup target = some row) (hkept : Kept row row')
    (h : w'.jobs = w.jobs.insert target row') : RowsKept w w' := by
  constructor
  · intro jobId other hother
    rw [h, Table.lookup_insert_eq]
    split
    · rename_i heq
      subst heq
      obtain rfl := Option.some.inj (hrow.symm.trans hother)
      exact ⟨row', rfl, hkept⟩
    · exact ⟨other, hother, .refl other⟩
  · intro jobId other hother
    rw [h, Table.lookup_insert_eq] at hother
    split at hother
    · rename_i heq
      subst heq
      cases hother
      exact ⟨row, hrow, hkept⟩
    · exact ⟨other, hother, .refl other⟩

theorem RowWrite.rowsKept {jobId token : String} {row row' : ResearchJobRow}
    (hwrite : RowWrite jobId token w row row') (h : w'.jobs = w.jobs.insert jobId row') :
    RowsKept w w' :=
  rowsKept_insert hwrite.owned.1 hwrite.kept h

/-- **No worker writes the columns.** -/
theorem WorkerEffect.rowsKept {jobId token : String} (h : WorkerEffect jobId token w w') :
    RowsKept w w' := by
  cases h with
  | aside h => exact rowsKept_of_eq h.jobs
  | decided _ _ _ h | reran _ _ _ h | closed _ _ _ _ _ _ _ _ _ _ _ h =>
      subst h
      exact rowsKept_of_eq rfl
  | repaired row row' decision hwrite hrow hjob hrepair h =>
      subst h
      exact hwrite.rowsKept rfl
  | evaluated target row row' run hrecounted hnew hplace h =>
      subst h
      exact rowsKept_insert hrecounted.lookup hrecounted.kept rfl
  | created row row' executionId execution time hwrite hrow huuid hnew hjob hrunning h =>
      subst h
      exact hwrite.rowsKept rfl
  | paused row row' decision event outbox hwrite hstatus hactive hcounts hdecision htype hrows h =>
      subst h
      exact hwrite.rowsKept rfl
  | retried row row' decision event outbox executions attempts abandon count next time hwrite
      hstatus hmode hactive hretries hrepairs hevaluations hjob hretry hexecution haggregate
      hpayload hrows habandon h =>
      subst h
      exact hwrite.rowsKept rfl
  | ended row row' event outbox hwrite hstatus hactive hcounts htype hrows h =>
      subst h
      exact hwrite.rowsKept rfl

/-- **No review writes the columns.** -/
theorem Reviewed.rowsKept {request : ReviewRequest} {fingerprint : String}
    {answer : String × Bool} (h : Reviewed request fingerprint answer w w') : RowsKept w w' := by
  cases h with
  | replayed _ _ _ _ h => exact rowsKept_of_eq (congrArg World.jobs h)
  | approved row row' executionId now decision hverdict hrecords hrow hstatus hactive happrove h =>
      subst h
      exact rowsKept_insert hrow (kept_of_approve happrove) rfl
  | rejected row row' executionId now executions decision hverdict hrecords hrow hstatus hactive
      hfail hreject h =>
      subst h
      exact rowsKept_insert hrow (kept_of_reject hreject) rfl

end Kept

/-! ### The claims of a run -/

namespace SystemState

/-- The claim of the job that an action commits, with the profile of its worker. -/
def committedClaim (s : SystemState) (jobId : String) :
    SystemAction → Option (String × ClaimedResearchJob)
  | .claim settings _ now lease token selected =>
      if selected = some jobId then
        (claimNext settings s.world now lease token jobId).map fun claim =>
          (settings.evaluationProfile, claim.2)
      else none
  | _ => none

/-- The committed claims of the job along the actions, the first one first. -/
def claims (jobId : String) : SystemState → List SystemAction → List (String × ClaimedResearchJob)
  | _, [] => []
  | s, action :: actions =>
      (s.committedClaim jobId action).toList ++ claims jobId (s.apply action) actions

theorem claims_append (jobId : String) (actions actions' : List SystemAction) (s : SystemState) :
    claims jobId s (actions ++ actions')
      = claims jobId s actions ++ claims jobId (actions.foldl apply s) actions' := by
  induction actions generalizing s with
  | nil => rfl
  | cons action actions ih => simp [claims, ih]

/-- The state at the end of a run is determined by its actions. -/
theorem eq_foldl_of_run {s t : SystemState} {actions : List SystemAction}
    (h : system.Run s actions t) : t = actions.foldl apply s := by
  induction h with
  | nil => rfl
  | snoc _ hstep ih => rw [List.foldl_concat, ← ih, hstep.2]

theorem claims_snoc (jobId : String) {s t : SystemState} {actions : List SystemAction}
    {action : SystemAction} (h : system.Run s actions t) :
    claims jobId s (actions ++ [action])
      = claims jobId s actions ++ (t.committedClaim jobId action).toList := by
  rw [claims_append, ← eq_foldl_of_run h]
  simp [claims]

end SystemState

/-! ### One step -/

section Step

variable {s s' : SystemState} {action : SystemAction} {jobId : String}

/-- What a step does to the columns of a job. -/
inductive ColumnChange (s s' : SystemState) (action : SystemAction) (jobId : String) : Prop
  /-- The job is there neither before nor after. -/
  | absent (hclaim : s.committedClaim jobId action = none) (h : s.world.jobs.lookup jobId = none)
      (h' : s'.world.jobs.lookup jobId = none)
  /-- The job is submitted. -/
  | fresh (row' : ResearchJobRow) (hclaim : s.committedClaim jobId action = none)
      (h : s.world.jobs.lookup jobId = none) (h' : s'.world.jobs.lookup jobId = some row')
      (hfresh : FreshRow row')
  /-- The columns are kept. -/
  | kept (row row' : ResearchJobRow) (hclaim : s.committedClaim jobId action = none)
      (h : s.world.jobs.lookup jobId = some row) (h' : s'.world.jobs.lookup jobId = some row')
      (hkept : Kept row row')
  /-- The job is claimed. -/
  | claimed (profile : String) (claimed : ClaimedResearchJob) (row row' : ResearchJobRow)
      (hclaim : s.committedClaim jobId action = some (profile, claimed))
      (h : s.world.jobs.lookup jobId = some row) (h' : s'.world.jobs.lookup jobId = some row')
      (hclaims : Claims row row' claimed profile) (hprofile : row'.evaluationProfile = some profile)
      (hanswer : claimed.evaluationProfile = profile)

theorem ColumnChange.of_rowsKept (hclaim : s.committedClaim jobId action = none)
    (h : RowsKept s.world s'.world) : ColumnChange s s' action jobId := by
  cases hrow : s.world.jobs.lookup jobId with
  | none =>
      cases hrow' : s'.world.jobs.lookup jobId with
      | none => exact .absent hclaim hrow hrow'
      | some row' =>
          obtain ⟨row, hsome, -⟩ := h.back jobId row' hrow'
          rw [hrow] at hsome
          cases hsome
  | some row =>
      obtain ⟨row', hrow', hkept⟩ := h.forth jobId row hrow
      exact .kept row row' hclaim hrow hrow' hkept

/-- A step that draws no name is no claim: it keeps the columns or inserts a fresh row. -/
theorem columnChange_of_change (hclaim : s.committedClaim jobId action = none)
    (hissued : s'.issued = s.issued)
    (h : WorldChange s.issued s'.issued s.world s'.world) : ColumnChange s s' action jobId := by
  cases h with
  | worked target token heffect => exact .of_rowsKept hclaim heffect.rowsKept
  | submitted key fingerprint row event hsubmitted =>
      obtain ⟨outbox, -, hworld⟩ := hsubmitted.world
      have hjobs : s'.world.jobs = s.world.jobs.insert row.id row := by rw [hworld]
      by_cases heq : jobId = row.id
      · refine .fresh row hclaim ?_ ?_ hsubmitted.fresh
        · rw [heq]
          exact hsubmitted.new
        · rw [hjobs, heq, AList.lookup_insert]
      · have hsame : s'.world.jobs.lookup jobId = s.world.jobs.lookup jobId := by
          rw [hjobs, AList.lookup_insert_ne heq]
        cases hrow : s.world.jobs.lookup jobId with
        | none => exact .absent hclaim hrow (hsame.trans hrow)
        | some other => exact .kept other other hclaim hrow (hsame.trans hrow) (.refl other)
  | claimed target token profile lease row row' claimed hnew htoken =>
      rw [hissued] at htoken
      exact absurd htoken hnew
  | reviewed request fingerprint answer hreviewed => exact .of_rowsKept hclaim hreviewed.rowsKept
  | relayed outbox hevents hworld => exact .of_rowsKept hclaim (rowsKept_of_eq (by rw [hworld]))

theorem proceed_issued (s : SystemState) (name : String) (step : World → Task → World × Task) :
    (s.proceed name step).issued = s.issued := by
  rw [SystemState.proceed]
  split <;> rfl

/-- **What a step does to the columns of a job.** -/
theorem columnChange_of_step (hreach : system.Reachable s) (hstep : system.step s action s')
    (jobId : String) : ColumnChange s s' action jobId := by
  have hchange := change_of_reachable hreach hstep
  obtain ⟨hallows, rfl⟩ := hstep
  cases action with
  | submit | review => exact .of_rowsKept rfl (rowsKept_of_eq rfl)
  | act name e | abandon name e | timeOut name =>
      exact columnChange_of_change rfl (proceed_issued s name _) hchange
  | crash name => exact columnChange_of_change rfl rfl hchange
  | relay outbox => exact columnChange_of_change rfl rfl hchange
  | claim settings locked now lease token selected =>
      by_cases hselected : selected = some jobId
      · subst hselected
        cases hnext : claimNext settings s.world now lease token jobId with
        | none =>
            refine .of_rowsKept ?_ (rowsKept_of_eq ?_)
            · simp [SystemState.committedClaim, hnext]
            · simp only [SystemState.apply, Option.bind_some, hnext]
        | some claim =>
            obtain ⟨w, claimed⟩ := claim
            obtain ⟨row, row', hrow, hfrom, hhanded, hclaims, rfl⟩ := claimNext_claims hnext
            refine .claimed settings.evaluationProfile claimed row row' ?_ hrow ?_ hclaims
              hfrom.profile hhanded.profile
            · simp [SystemState.committedClaim, hnext]
            · simp only [SystemState.apply, Option.bind_some, hnext]
              exact AList.lookup_insert _
      · have hclaim : s.committedClaim jobId (.claim settings locked now lease token selected)
            = none := by
          simp [SystemState.committedClaim, hselected]
        rcases apply_claim s settings locked now lease token selected with
          heq | ⟨other, w, claimed, rfl, hnext, heq⟩
        · rw [heq]
          exact .of_rowsKept hclaim (rowsKept_of_eq rfl)
        · -- another job is claimed
          have hne : jobId ≠ other := fun h => hselected (by rw [h])
          obtain ⟨row, row', -, -, -, rfl⟩ := claimNext_eq_some hnext
          have hsame :
              (s.apply (.claim settings locked now lease token (some other))).world.jobs.lookup jobId
                = s.world.jobs.lookup jobId := by
            rw [heq]
            exact AList.lookup_insert_ne hne
          cases hrow : s.world.jobs.lookup jobId with
          | none => exact .absent hclaim hrow (hsame.trans hrow)
          | some row => exact .kept row row hclaim hrow (hsame.trans hrow) (.refl row)

end Step

/-! ### Whole runs -/

/-- The columns of a job are those its committed claims tell. -/
structure ToldBy (claims : List (String × ClaimedResearchJob)) (model : Option ResearchJobRow) :
    Prop where
  absent : model = none → claims = []
  profile : ∀ row ∈ model, row.evaluationProfile = claims.head?.map Prod.fst
  same : ∀ claim ∈ claims, claims.head?.map Prod.fst = some claim.1
  answer : ∀ claim ∈ claims, claim.2.evaluationProfile = claim.1
  unused : ∀ row ∈ model, row.initialTraceparentConsumedAt = none →
    claims.countP (·.2.useTraceparentAsParent) = 0
  parent : claims.countP (·.2.useTraceparentAsParent) ≤ 1

/-- Nothing is told of a job that is not there, or of one just submitted. -/
theorem toldBy_none : ToldBy [] none where
  absent _ := rfl
  profile _ hrow := absurd hrow (Option.not_mem_none _)
  same _ hclaim := absurd hclaim List.not_mem_nil
  answer _ hclaim := absurd hclaim List.not_mem_nil
  unused _ hrow := absurd hrow (Option.not_mem_none _)
  parent := Nat.zero_le 1

theorem toldBy_fresh {row : ResearchJobRow} (h : FreshRow row) : ToldBy [] (some row) where
  absent hnone := absurd hnone (Option.some_ne_none row)
  profile := by
    rintro _ ⟨⟩
    exact h.profile
  same _ hclaim := absurd hclaim List.not_mem_nil
  answer _ hclaim := absurd hclaim List.not_mem_nil
  unused _ _ _ := rfl
  parent := Nat.zero_le 1

/-- A step that does not claim the job adds nothing to its claims. -/
theorem ToldBy.kept {claims : List (String × ClaimedResearchJob)} {row row' : ResearchJobRow}
    (h : ToldBy claims (some row)) (hkept : Kept row row') : ToldBy claims (some row') where
  absent hnone := absurd hnone (Option.some_ne_none row')
  profile := by
    rintro _ ⟨⟩
    rw [hkept.profile]
    exact h.profile row rfl
  same := h.same
  answer := h.answer
  unused := by
    rintro _ ⟨⟩ hnone
    exact h.unused row rfl (hkept.consumed.symm.trans hnone)
  parent := h.parent

/-- A claim binds the profile or has the one that is bound, and is given the parent only when no
claim before it was. -/
theorem ToldBy.claimed {claims : List (String × ClaimedResearchJob)} {row row' : ResearchJobRow}
    {profile : String} {claimed : ClaimedResearchJob} (h : ToldBy claims (some row))
    (hclaims : Claims row row' claimed profile) (hprofile : row'.evaluationProfile = some profile)
    (hanswer : claimed.evaluationProfile = profile) :
    ToldBy (claims ++ [(profile, claimed)]) (some row') := by
  -- the profile of the first claim, now or before
  have hhead : (claims ++ [(profile, claimed)]).head?.map Prod.fst = some profile := by
    have hbefore := h.profile row rfl
    cases claims with
    | nil => rfl
    | cons first rest =>
        rcases hclaims.profile with hnone | hsome
        · rw [hnone] at hbefore
          cases hbefore
        · rw [hsome] at hbefore
          exact hbefore.symm
  have hcount : (claims ++ [(profile, claimed)]).countP (·.2.useTraceparentAsParent)
      = claims.countP (·.2.useTraceparentAsParent)
        + if claimed.useTraceparentAsParent then 1 else 0 := by
    rw [List.countP_append, List.countP_singleton]
  refine ⟨fun hnone => absurd hnone (Option.some_ne_none row'), ?_, ?_, ?_, ?_, ?_⟩
  · rintro _ ⟨⟩
    rw [hhead, hprofile]
  · intro claim hclaim
    rw [hhead]
    rcases List.mem_append.1 hclaim with hold | hnew
    · -- the claims before this one, if there are any, have its profile
      have hfirst := h.same claim hold
      cases claims with
      | nil => cases hold
      | cons first rest => exact hhead.symm.trans hfirst
    · rw [List.mem_singleton.1 hnew]
  · intro claim hclaim
    rcases List.mem_append.1 hclaim with hold | hnew
    · exact h.answer claim hold
    · rw [List.mem_singleton.1 hnew]
      exact hanswer
  · rintro _ ⟨⟩ hnone
    rw [hcount]
    by_cases hparent : claimed.useTraceparentAsParent = true
    · have hsome := hclaims.consumes hparent
      rw [hnone] at hsome
      cases hsome
    · have hbefore : row.initialTraceparentConsumedAt = none := by
        by_contra hsome
        rw [← ne_eq, Option.ne_none_iff_isSome] at hsome
        have hsame := hclaims.consumed hsome
        rw [hnone] at hsame
        rw [← hsame] at hsome
        cases hsome
      have hzero := h.unused row rfl hbefore
      rw [if_neg hparent]
      omega
  · rw [hcount]
    by_cases hparent : claimed.useTraceparentAsParent = true
    · have hzero := h.unused row rfl (hclaims.parent hparent)
      rw [if_pos hparent]
      omega
    · have hbefore := h.parent
      rw [if_neg hparent]
      omega

/-- The claims of a run tell the columns of the job at its end. -/
theorem toldBy_of_run {s : SystemState} {actions : List SystemAction}
    (h : system.Run {} actions s) (jobId : String) :
    ToldBy (SystemState.claims jobId {} actions) (s.world.jobs.lookup jobId) := by
  induction h with
  | nil =>
      have hnone : ({} : SystemState).world.jobs.lookup jobId = none := AList.lookup_empty jobId
      rw [hnone, SystemState.claims]
      exact toldBy_none
  | @snoc t u actions action hrun hstep ih =>
      have hreach : system.Reachable t := ⟨{}, actions, rfl, hrun⟩
      rw [SystemState.claims_snoc jobId hrun]
      cases columnChange_of_step hreach hstep jobId with
      | absent hclaim hrow hrow' =>
          rw [hclaim, Option.toList_none, List.append_nil, hrow']
          rw [hrow] at ih
          exact ih
      | fresh row' hclaim hrow hrow' hfresh =>
          rw [hclaim, Option.toList_none, List.append_nil, hrow']
          rw [hrow] at ih
          rw [ih.absent rfl]
          exact toldBy_fresh hfresh
      | kept row row' hclaim hrow hrow' hkept =>
          rw [hclaim, Option.toList_none, List.append_nil, hrow']
          rw [hrow] at ih
          exact ih.kept hkept
      | claimed profile claimed row row' hclaim hrow hrow' hclaims hprofile hanswer =>
          rw [hclaim, Option.toList_some, hrow']
          rw [hrow] at ih
          exact ih.claimed hclaims hprofile hanswer

/-- **Columns written once.**  Along every run from the empty database, whatever claims, reclaims,
retries, reviews and rollbacks it has: the profile of a job is the one of the worker whose claim of
it was committed first, and none before; every committed claim of the job is by a worker of that
profile and says so; once bound the profile is the same in every later state; and one committed
claim of the job at most is to use the stored trace context as its parent. -/
theorem write_once_columns {s : SystemState} {actions : List SystemAction}
    (hrun : system.Run {} actions s) (jobId : String) :
    (∀ row, s.world.jobs.lookup jobId = some row →
      row.evaluationProfile = (SystemState.claims jobId {} actions).head?.map Prod.fst) ∧
    (∀ claim ∈ SystemState.claims jobId {} actions,
      (SystemState.claims jobId {} actions).head?.map Prod.fst = some claim.1 ∧
        claim.2.evaluationProfile = claim.1) ∧
    (∀ row profile actions' s' row', s.world.jobs.lookup jobId = some row →
      row.evaluationProfile = some profile → system.Run s actions' s' →
        s'.world.jobs.lookup jobId = some row' → row'.evaluationProfile = some profile) ∧
    (SystemState.claims jobId {} actions).countP (·.2.useTraceparentAsParent) ≤ 1 := by
  have htold := toldBy_of_run hrun jobId
  refine ⟨htold.profile, fun claim hclaim => ⟨htold.same claim hclaim, htold.answer claim hclaim⟩,
    ?_, htold.parent⟩
  intro row profile actions' s' row' hrow hprofile hrun' hrow'
  have hlater := (toldBy_of_run (hrun.append hrun') jobId).profile row' hrow'
  have hnow := htold.profile row hrow
  rw [hlater, SystemState.claims_append]
  cases hclaims : SystemState.claims jobId {} actions with
  | nil =>
      rw [hclaims, hprofile] at hnow
      cases hnow
  | cons first rest =>
      rw [hclaims, hprofile] at hnow
      exact hnow.symm

/-! ### A reclaimed job -/

/-- A submission under a span. -/
def tracedEnv : Env :=
  { submissionEnv with
    traceparent := some "00-0af7651916cd43dd8448eb211c80319c-b7ad6b7169203331-01" }

/-- The job it creates. -/
def tracedJobId : String := "5a1c0000-0000-4000-8000-000000000001"

/-- The job is submitted, claimed by one worker, and reclaimed by another after its lease. -/
def reclaimActions : List SystemAction := [
  .submit "request-1" (fun _ => repeatedToken 'f') "why?" "key-1",
  .act "request-1" tracedEnv,
  .claim sampleSettings [] 30 40 (repeatedToken 'a') (some tracedJobId),
  .claim sampleSettings [] 50 60 (repeatedToken 'b') (some tracedJobId)]

theorem reclaimActions_run :
    system.Run {} reclaimActions (reclaimActions.foldl SystemState.apply {}) := by
  refine .cons ⟨List.not_mem_nil, rfl⟩ (.cons ⟨⟨by decide +kernel, ?_⟩, rfl⟩ (.cons
    ⟨⟨by decide +kernel, by decide +kernel⟩, rfl⟩ (.cons
    ⟨⟨by decide +kernel, by decide +kernel⟩, rfl⟩ .nil)))
  intro decision hdecision
  cases hdecision

theorem reclaimActions_claims :
    ((SystemState.claims tracedJobId {} reclaimActions).map fun claim =>
      (claim.1, claim.2.useTraceparentAsParent)) =
        [("evaluation.candidate.v1", true), ("evaluation.candidate.v1", false)] ∧
    ((reclaimActions.foldl SystemState.apply {}).world.jobs.lookup tracedJobId).isSome = true := by
  decide +kernel

/-- Both claims are committed; the job has the profile of the first, which alone is told to use the
context of the request. -/
theorem write_once_columns_reclaim :
    (∃ row, (reclaimActions.foldl SystemState.apply {}).world.jobs.lookup tracedJobId = some row ∧
      row.evaluationProfile = some "evaluation.candidate.v1") ∧
    (SystemState.claims tracedJobId {} reclaimActions).countP (·.2.useTraceparentAsParent) = 1 := by
  obtain ⟨hprofile, -, -, hcount⟩ := write_once_columns reclaimActions_run tracedJobId
  obtain ⟨hclaims, hsome⟩ := reclaimActions_claims
  constructor
  · obtain ⟨row, hrow⟩ := Option.isSome_iff_exists.1 hsome
    have hfirst := congrArg (fun claims => claims.head?.map Prod.fst) hclaims
    simp only [List.head?_map, Option.map_map, List.head?_cons, Option.map_some] at hfirst
    exact ⟨row, hrow, (hprofile row hrow).trans hfirst⟩
  · have hmem := hclaims ▸ List.mem_cons_self
    obtain ⟨claim, hclaim, heq⟩ := List.mem_map.1 hmem
    have hparent : claim.2.useTraceparentAsParent = true := congrArg Prod.snd heq
    exact le_antisymm hcount (List.countP_pos_iff.2 ⟨claim, hclaim, hparent⟩)

end Atlas
