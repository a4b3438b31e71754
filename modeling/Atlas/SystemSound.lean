/-
**What holds of the database in every reachable state.**

Rows are stored under their ids and meet their constraints, their jobs are valid, a bound execution
exists and is the job's, and a claim token was drawn by a claim and stands on one row only.  A step
writes the row of one job at most, and no execution disappears; so that all of this is preserved is
a matter of the one row that is written.

Main definitions:

* `Atlas.World.Sound` — the invariant of the database;
* `Atlas.Grows` — what a step does to the executions;
* `Atlas.Written` — a step that writes the row of one job.

Main results:

* `Atlas.World.Sound.change` — **every change keeps the database sound**;
* `Atlas.systemSound_of_reachable` — every reachable state is sound, and its tasks are honest.
-/

import Atlas.System

set_option relaxedAutoImplicit false
set_option autoImplicit false

namespace Atlas

/-! ### The invariant -/

/-- The database is sound; `issued` are the names used so far. -/
structure World.Sound (issued : List String) (w : World) : Prop where
  key : ∀ jobId row, w.jobs.lookup jobId = some row → row.id = jobId
  checks : ∀ jobId row, w.jobs.lookup jobId = some row →
    CheckConstraint.AllHold researchJobChecks row
  valid : ∀ jobId row, w.jobs.lookup jobId = some row → row.Valid
  bound : ∀ jobId row executionId, w.jobs.lookup jobId = some row →
    row.activeWorkflowExecutionId = some executionId →
      ∃ execution, w.executions.lookup executionId = some execution ∧
        execution.researchJobId = jobId
  uuids : ∀ executionId execution, w.executions.lookup executionId = some execution →
    IsUuid executionId
  tokens : ∀ jobId row token, w.jobs.lookup jobId = some row → row.claimToken = some token →
    token ∈ issued
  single : ∀ jobId jobId' row row' token, w.jobs.lookup jobId = some row →
    w.jobs.lookup jobId' = some row' → row.claimToken = some token →
      row'.claimToken = some token → jobId = jobId'
  runs : RunTable w.evaluationRuns

theorem sound_empty : World.Sound [] {} := by
  have hnone {ρ : Type} (key : String) : (∅ : Table String ρ).lookup key = none :=
    AList.lookup_empty key
  refine ⟨?_, ?_, ?_, ?_, ?_, ?_, ?_, ⟨?_, ?_⟩⟩ <;>
    · intros
      simp_all only [reduceCtorEq]

/-! ### Executions -/

/-- Executions are created and updated, never deleted, and never given to another job. -/
structure Grows (executions executions' : Executions) : Prop where
  kept : ∀ executionId execution, executions.lookup executionId = some execution →
    ∃ execution', executions'.lookup executionId = some execution' ∧
      execution'.researchJobId = execution.researchJobId
  new : ∀ executionId execution, executions'.lookup executionId = some execution →
    (executions.lookup executionId).isSome = true ∨ IsUuid executionId

theorem Grows.refl (executions : Executions) : Grows executions executions :=
  ⟨fun _ execution h => ⟨execution, h, rfl⟩, fun _ _ h => .inl (Option.isSome_of_eq_some h)⟩

theorem Grows.trans {executions executions₁ executions' : Executions}
    (h : Grows executions executions₁) (h' : Grows executions₁ executions') :
    Grows executions executions' := by
  constructor
  · intro executionId execution hlookup
    obtain ⟨execution₁, hlookup₁, hjob₁⟩ := h.kept executionId execution hlookup
    obtain ⟨execution', hlookup', hjob'⟩ := h'.kept executionId execution₁ hlookup₁
    exact ⟨execution', hlookup', hjob'.trans hjob₁⟩
  · intro executionId execution hlookup
    rcases h'.new executionId execution hlookup with hsome | huuid
    · obtain ⟨execution₁, hlookup₁⟩ := Option.isSome_iff_exists.1 hsome
      exact h.new executionId execution₁ hlookup₁
    · exact .inr huuid

/-- An execution that is closed stays the job's. -/
theorem grows_close {executions : Executions} {executionId : String}
    {execution : WorkflowExecutionRow} (h : executions.lookup executionId = some execution)
    (target : ExecutionStatus) (time : Instant) :
    Grows executions (executions.insert executionId (execution.close target time)) := by
  constructor
  · intro other before hbefore
    rw [Table.lookup_insert_eq]
    split
    · rename_i heq
      subst heq
      obtain rfl := Option.some.inj (h.symm.trans hbefore)
      exact ⟨_, rfl, rfl⟩
    · exact ⟨before, hbefore, rfl⟩
  · intro other after hafter
    rw [Table.lookup_insert_eq] at hafter
    split at hafter
    · rename_i heq
      rw [heq, h]
      exact .inl rfl
    · exact .inl (Option.isSome_of_eq_some hafter)

theorem grows_mapRows {executions : Executions}
    {f : String → WorkflowExecutionRow → WorkflowExecutionRow}
    (hf : ∀ id row, (f id row).researchJobId = row.researchJobId) :
    Grows executions (executions.mapRows f) := by
  constructor
  · intro executionId execution h
    exact ⟨f executionId execution, by rw [Table.lookup_mapRows, h, Option.map_some], hf _ _⟩
  · intro executionId execution h
    rw [Table.lookup_mapRows] at h
    obtain ⟨before, hbefore, -⟩ := Option.map_eq_some_iff.1 h
    exact .inl (Option.isSome_of_eq_some hbefore)

theorem grows_insert {executions : Executions} {executionId : String}
    (hnew : executions.lookup executionId = none) (huuid : IsUuid executionId)
    (execution : WorkflowExecutionRow) :
    Grows executions (executions.insert executionId execution) := by
  constructor
  · intro other before hbefore
    refine ⟨before, ?_, rfl⟩
    rw [Table.lookup_insert_eq, if_neg]
    · exact hbefore
    · rintro rfl
      rw [hnew] at hbefore
      cases hbefore
  · intro other after hafter
    rw [Table.lookup_insert_eq] at hafter
    split at hafter
    · rename_i heq
      exact .inr (heq ▸ huuid)
    · exact .inl (Option.isSome_of_eq_some hafter)

theorem World.Sound.uuids_of_grows {issued : List String} {w : World} {executions : Executions}
    (h : w.Sound issued) (hgrows : Grows w.executions executions) :
    ∀ executionId execution, executions.lookup executionId = some execution →
      IsUuid executionId := by
  intro executionId execution hlookup
  rcases hgrows.new executionId execution hlookup with hsome | huuid
  · obtain ⟨before, hbefore⟩ := Option.isSome_iff_exists.1 hsome
    exact h.uuids executionId before hbefore
  · exact huuid

theorem World.Sound.bound_of_grows {issued : List String} {w : World} {executions : Executions}
    (h : w.Sound issued) (hgrows : Grows w.executions executions) {jobId executionId : String}
    {row : ResearchJobRow} (hrow : w.jobs.lookup jobId = some row)
    (hactive : row.activeWorkflowExecutionId = some executionId) :
    ∃ execution, executions.lookup executionId = some execution ∧
      execution.researchJobId = jobId := by
  obtain ⟨execution, hlookup, hjob⟩ := h.bound jobId row executionId hrow hactive
  obtain ⟨execution', hlookup', hjob'⟩ := hgrows.kept executionId execution hlookup
  exact ⟨execution', hlookup', hjob'.trans hjob⟩

/-! ### Changes of one row -/

section Changes

variable {issued issued' : List String} {w w' : World}

/-- A change that leaves the jobs alone. -/
theorem World.Sound.keep (h : w.Sound issued) (hissued : issued ⊆ issued')
    (hjobs : w'.jobs = w.jobs) (hgrows : Grows w.executions w'.executions)
    (hruns : RunTable w'.evaluationRuns) : w'.Sound issued' where
  key := hjobs ▸ h.key
  checks := hjobs ▸ h.checks
  valid := hjobs ▸ h.valid
  bound jobId row executionId hrow hactive :=
    h.bound_of_grows hgrows (by rw [← hjobs]; exact hrow) hactive
  uuids := h.uuids_of_grows hgrows
  tokens jobId row token hrow htoken := by
    rw [hjobs] at hrow
    exact hissued (h.tokens jobId row token hrow htoken)
  single := hjobs ▸ h.single
  runs := hruns

/-- The row of the job `target` is written, with a token no other job carries. -/
structure Written (issued' : List String) (w w' : World) (target : String)
    (row' : ResearchJobRow) : Prop where
  jobs : w'.jobs = w.jobs.insert target row'
  key : row'.id = target
  checks : CheckConstraint.AllHold researchJobChecks row'
  valid : row'.Valid
  bound : ∀ executionId, row'.activeWorkflowExecutionId = some executionId →
    ∃ execution, w'.executions.lookup executionId = some execution ∧
      execution.researchJobId = target
  token : ∀ token, row'.claimToken = some token → token ∈ issued' ∧
    ∀ jobId row, w.jobs.lookup jobId = some row → row.claimToken = some token → jobId = target

/-- **A sound database in which one row is written is sound.** -/
theorem World.Sound.write {target : String} {row' : ResearchJobRow} (h : w.Sound issued)
    (hissued : issued ⊆ issued') (hwritten : Written issued' w w' target row')
    (hgrows : Grows w.executions w'.executions) (hruns : RunTable w'.evaluationRuns) :
    w'.Sound issued' := by
  -- a row of the new table is the written one or an old one of another job
  have hrows (jobId : String) (row : ResearchJobRow) (hrow : w'.jobs.lookup jobId = some row) :
      jobId = target ∧ row = row' ∨ jobId ≠ target ∧ w.jobs.lookup jobId = some row := by
    rw [hwritten.jobs, Table.lookup_insert_eq] at hrow
    split at hrow
    · rename_i heq
      exact .inl ⟨heq, (Option.some.inj hrow).symm⟩
    · rename_i hne
      exact .inr ⟨hne, hrow⟩
  refine ⟨?_, ?_, ?_, ?_, h.uuids_of_grows hgrows, ?_, ?_, hruns⟩
  · intro jobId row hrow
    rcases hrows jobId row hrow with ⟨rfl, rfl⟩ | ⟨-, hold⟩
    · exact hwritten.key
    · exact h.key jobId row hold
  · intro jobId row hrow
    rcases hrows jobId row hrow with ⟨rfl, rfl⟩ | ⟨-, hold⟩
    · exact hwritten.checks
    · exact h.checks jobId row hold
  · intro jobId row hrow
    rcases hrows jobId row hrow with ⟨rfl, rfl⟩ | ⟨-, hold⟩
    · exact hwritten.valid
    · exact h.valid jobId row hold
  · intro jobId row executionId hrow hactive
    rcases hrows jobId row hrow with ⟨rfl, rfl⟩ | ⟨-, hold⟩
    · exact hwritten.bound executionId hactive
    · exact h.bound_of_grows hgrows hold hactive
  · intro jobId row token hrow htoken
    rcases hrows jobId row hrow with ⟨rfl, rfl⟩ | ⟨-, hold⟩
    · exact (hwritten.token token htoken).1
    · exact hissued (h.tokens jobId row token hold htoken)
  · intro jobId jobId' row₁ row₂ token hrow₁ hrow₂ htoken₁ htoken₂
    rcases hrows jobId row₁ hrow₁ with ⟨rfl, rfl⟩ | ⟨hne, hold₁⟩
    · rcases hrows jobId' row₂ hrow₂ with ⟨rfl, rfl⟩ | ⟨hne', hold₂⟩
      · rfl
      · exact absurd ((hwritten.token token htoken₁).2 jobId' row₂ hold₂ htoken₂) hne'
    · rcases hrows jobId' row₂ hrow₂ with ⟨rfl, rfl⟩ | ⟨hne', hold₂⟩
      · exact absurd ((hwritten.token token htoken₂).2 jobId row₁ hold₁ htoken₁) hne
      · exact h.single jobId jobId' row₁ row₂ token hold₁ hold₂ htoken₁ htoken₂

/-- A worker's write, or a reviewer's, of the row it found: the token it leaves is the old one. -/
theorem World.Sound.written {jobId : String} {row row' : ResearchJobRow} (h : w.Sound issued)
    (hissued : issued ⊆ issued') (hrow : w.jobs.lookup jobId = some row)
    (hchecks : CheckConstraint.AllHold researchJobChecks row') (hkept : Kept row row')
    (htoken : row'.claimToken = row.claimToken ∨ row'.claimToken = none)
    (hjobs : w'.jobs = w.jobs.insert jobId row') (hgrows : Grows w.executions w'.executions)
    (hactive : row'.activeWorkflowExecutionId = row.activeWorkflowExecutionId ∨
      row'.activeWorkflowExecutionId = none) : Written issued' w w' jobId row' := by
  refine ⟨hjobs, ?_, hchecks, hkept.valid (h.valid jobId row hrow), ?_, ?_⟩
  · rw [hkept.id]
    exact h.key jobId row hrow
  · intro executionId hsome
    rcases hactive with hsame | hnone
    · exact h.bound_of_grows hgrows hrow (hsame.symm.trans hsome)
    · rw [hnone] at hsome
      cases hsome
  · intro token hsome
    rcases htoken with hsame | hnone
    · have hold : row.claimToken = some token := hsame.symm.trans hsome
      refine ⟨hissued (h.tokens jobId row token hrow hold), ?_⟩
      intro jobId' other hother hother'
      exact h.single jobId' jobId other row token hother hrow hother' hold
    · rw [hnone] at hsome
      cases hsome

theorem RowWrite.token_kept {jobId token : String} {row row' : ResearchJobRow}
    (h : RowWrite jobId token w row row') :
    row'.claimToken = row.claimToken ∨ row'.claimToken = none := by
  obtain ⟨-, -, hold⟩ := h.owned
  rcases h.token with hsame | hnone
  · exact .inl (hsame.trans hold.symm)
  · exact .inr hnone

/-- A write under the claim that leaves the runs and grows the executions. -/
theorem World.Sound.rowWrite {jobId token : String} {row row' : ResearchJobRow}
    (h : w.Sound issued) (hissued : issued ⊆ issued') (hwrite : RowWrite jobId token w row row')
    (hjobs : w'.jobs = w.jobs.insert jobId row') (hgrows : Grows w.executions w'.executions)
    (hactive : row'.activeWorkflowExecutionId = row.activeWorkflowExecutionId ∨
      row'.activeWorkflowExecutionId = none)
    (hruns : RunTable w'.evaluationRuns) : w'.Sound issued' :=
  h.write hissued (h.written hissued hwrite.owned.1 hwrite.checks hwrite.kept hwrite.token_kept
    hjobs hgrows hactive) hgrows hruns

/-! ### Evaluation runs -/

/-- A run stored under its id, in a place no other run has. -/
theorem RunTable.write {runs : EvaluationRuns} (h : RunTable runs) {run : EvaluationRunRow}
    {runId : String} (hid : run.id = runId)
    (hplace : ∀ other row, other ≠ runId → runs.lookup other = some row → row.key ≠ run.key) :
    RunTable (runs.insert runId run) := by
  constructor
  · intro other row hrow
    rw [Table.lookup_insert_eq] at hrow
    split at hrow
    · rename_i heq
      cases hrow
      exact hid.trans heq.symm
    · exact h.key other row hrow
  · intro first second row row' hrow hrow' hsame
    rw [Table.lookup_insert_eq] at hrow hrow'
    split at hrow
    · rename_i heq
      cases hrow
      split at hrow'
      · rename_i heq'
        exact heq.trans heq'.symm
      · rename_i hne
        exact absurd hsame.symm (hplace second row' hne hrow')
    · rename_i hne
      split at hrow'
      · cases hrow'
        exact absurd hsame (hplace first row hne hrow)
      · exact h.place first second row row' hrow hrow' hsame

/-! ### Every change -/

/-- **What a worker does keeps the database sound.** -/
theorem World.Sound.effect {jobId token : String} (h : w.Sound issued) (hissued : issued ⊆ issued')
    (heffect : WorkerEffect jobId token w w') : w'.Sound issued' := by
  cases heffect with
  | aside h' =>
      refine h.keep hissued h'.jobs ?_ ?_
      · rw [h'.executions]
        exact .refl _
      · rw [h'.evaluationRuns]
        exact h.runs
  | decided decision hrepair hretry heq =>
      subst heq
      exact h.keep hissued rfl (.refl _) h.runs
  | repaired row row' decision hwrite hrow hjob hrepair heq =>
      subst heq hrow
      exact h.rowWrite hissued hwrite rfl (.refl _) (.inl rfl) h.runs
  | reran run run' hlookup heq hid hkey hjob =>
      subst heq
      refine h.keep hissued rfl (.refl _) (h.runs.write hid ?_)
      intro other row hne hrow hsame
      exact hne (h.runs.place other run.id row run hrow hlookup (hsame.trans hkey))
  | evaluated target row row' run hrecounted hnew hplace heq =>
      subst heq
      obtain ⟨count, hcolumns⟩ := hrecounted.columns
      have htoken : row'.claimToken = row.claimToken := by rw [hcolumns]
      have hactive : row'.activeWorkflowExecutionId = row.activeWorkflowExecutionId := by
        rw [hcolumns]
      refine h.write hissued (h.written hissued hrecounted.lookup hrecounted.checks hrecounted.kept
        (.inl htoken) rfl (.refl _) (.inl hactive)) (.refl _) (h.runs.write rfl ?_)
      intro other other' _ hother hsame
      exact key_ne_of_runByExecutionKey_eq_none hplace hother hsame
  | closed row executionId execution target time howned hactive hlookup hrunning hjob htarget heq =>
      subst heq
      exact h.keep hissued rfl (grows_close hlookup target time) h.runs
  | created row row' executionId execution time hwrite hrow huuid hnew hjob hrunning heq =>
      subst heq hrow
      have hgrows : Grows w.executions ((w.executions.mapRows fun _ row =>
          if row.Unfinished jobId then row.close .abandoned time else row).insert
            executionId execution) := by
        refine (grows_mapRows ?_).trans (grows_insert ?_ huuid execution)
        · intro id row
          split <;> rfl
        · rw [Table.lookup_mapRows, hnew, Option.map_none]
      refine h.write hissued ⟨rfl, ?_, hwrite.checks, ?_, ?_, ?_⟩ hgrows h.runs
      · rw [hwrite.kept.id]
        exact h.key jobId row hwrite.owned.1
      · exact hwrite.kept.valid (h.valid jobId row hwrite.owned.1)
      · intro other hother
        obtain rfl : executionId = other := Option.some.inj hother
        exact ⟨execution, AList.lookup_insert _, hjob⟩
      · intro other hother
        have htoken : row.claimToken = some other := hother
        refine ⟨hissued (h.tokens jobId row other hwrite.owned.1 htoken), ?_⟩
        intro jobId' row' hrow' htoken'
        exact h.single jobId' jobId row' row other hrow' hwrite.owned.1 htoken' htoken
  | paused row row' decision event outbox hwrite hstatus hactive hcounts hdecision htype hrows heq =>
      subst heq
      exact h.rowWrite hissued hwrite rfl (.refl _) (.inl hactive) h.runs
  | retried row row' decision event outbox executions attempts abandon count next time hwrite
      hstatus hmode hactive hretries hrepairs hevaluations hjob hretry hexecution haggregate
      hpayload hrows habandon heq =>
      subst heq
      refine h.rowWrite hissued hwrite rfl ?_ (.inr hactive) h.runs
      cases abandon with
      | none =>
          subst habandon
          exact .refl _
      | some executionId =>
          obtain ⟨-, execution, hlookup, -, -, rfl⟩ := habandon
          exact grows_close hlookup _ _
  | ended row row' event outbox hwrite hstatus hactive hcounts htype hrows heq =>
      subst heq
      exact h.rowWrite hissued hwrite rfl (.refl _) (.inr hactive) h.runs

/-- A claim keeps the database sound: its token is new. -/
theorem World.Sound.claimed {jobId token profile : String} {lease : Instant}
    {row row' : ResearchJobRow} {claimed : ClaimedResearchJob} (h : w.Sound issued)
    (hissued : issued ⊆ issued') (hnew : token ∉ issued) (htoken : token ∈ issued')
    (hrow : w.jobs.lookup jobId = some row) (hfrom : ClaimedFrom row row' token lease profile)
    (hclaims : Claims row row' claimed profile) :
    World.Sound issued' { w with jobs := w.jobs.insert jobId row' } := by
  refine h.write hissued ⟨rfl, ?_, hfrom.checks, ?_, ?_, ?_⟩ (.refl _) h.runs
  · rw [hfrom.id]
    exact h.key jobId row hrow
  · exact hclaims.valid (h.valid jobId row hrow)
  · intro executionId hactive
    exact h.bound jobId row executionId hrow (hfrom.active.symm.trans hactive)
  · intro other hother
    obtain rfl : token = other := Option.some.inj (hfrom.token.symm.trans hother)
    refine ⟨htoken, ?_⟩
    intro jobId' row₁ hrow₁ htoken₁
    exact absurd (h.tokens jobId' row₁ token hrow₁ htoken₁) hnew

/-- A review keeps the database sound. -/
theorem World.Sound.reviewed {request : ReviewRequest} {fingerprint : String}
    {answer : String × Bool} (h : w.Sound issued) (hissued : issued ⊆ issued')
    (hreviewed : Reviewed request fingerprint answer w w') : w'.Sound issued' := by
  cases hreviewed with
  | replayed decision hfound hsame hanswer heq =>
      subst heq
      exact h.keep hissued rfl (.refl _) h.runs
  | approved row row' executionId now decision hverdict hrecords hrow hstatus hactive happrove heq =>
      subst heq
      have hkept := kept_of_approve happrove
      obtain ⟨_, hsome, -, row₁, htransition, hflush⟩ := approveReviewToPending_eq_some.1 happrove
      cases hsome
      obtain ⟨hchecks, -, rfl⟩ := flushBinding_eq_ok.1 hflush
      obtain ⟨_, -, rfl⟩ := transition_columns htransition
      exact h.write hissued (h.written hissued hrow hchecks hkept (.inl rfl) rfl (.refl _)
        (.inl hactive.symm)) (.refl _) h.runs
  | rejected row row' executionId now executions decision hverdict hrecords hrow hstatus hactive
      hfail hreject heq =>
      subst heq
      have hkept := kept_of_reject hreject
      obtain ⟨_, hsome, -, row₁, htransition, hchecks, rfl⟩ := failFromReview_eq_some.1 hreject
      cases hsome
      have hgrows : Grows w.executions executions := by
        rcases closeRunning_eq_ok.1 hfail with ⟨execution, hlookup, -, -, -, -, rfl⟩ | ⟨-, hno, -⟩
        · exact grows_close hlookup _ _
        · cases hno
      exact h.write hissued (h.written hissued hrow hchecks hkept (.inr rfl) rfl hgrows (.inr rfl))
        hgrows h.runs

/-- A submission keeps the database sound. -/
theorem World.Sound.submitted {key fingerprint : String} {row : ResearchJobRow} {event : OutboxRow}
    (h : w.Sound issued) (hissued : issued ⊆ issued')
    (hsubmitted : Submitted key fingerprint row event w w') : w'.Sound issued' := by
  obtain ⟨outbox, -, rfl⟩ := hsubmitted.world
  have hfresh := hsubmitted.fresh
  refine h.write hissued ⟨rfl, rfl, hfresh.checks, hfresh.valid, ?_, ?_⟩ (.refl _) h.runs
  · intro executionId hactive
    rw [hfresh.active] at hactive
    cases hactive
  · intro token htoken
    rw [hfresh.token] at htoken
    cases htoken

/-- **Every change keeps the database sound.** -/
theorem World.Sound.change (h : w.Sound issued) (hissued : issued ⊆ issued')
    (hchange : WorldChange issued issued' w w') : w'.Sound issued' := by
  cases hchange with
  | worked jobId token heffect => exact h.effect hissued heffect
  | submitted key fingerprint row event hsubmitted => exact h.submitted hissued hsubmitted
  | claimed jobId token profile lease row row' claimed hnew htoken hrow hfrom hclaims heq =>
      subst heq
      exact h.claimed hissued hnew htoken hrow hfrom hclaims
  | reviewed request fingerprint answer hreviewed => exact h.reviewed hissued hreviewed
  | relayed outbox hevents heq =>
      subst heq
      exact h.keep hissued rfl (.refl _) h.runs

end Changes

/-! ### Reachable states -/

/-- The database is sound, and the tasks are honest. -/
structure SystemState.Sound (s : SystemState) : Prop where
  world : s.world.Sound s.issued
  tasks : s.Tasks fun name task => task.Honest name

theorem SystemState.issued_subset (s : SystemState) (action : SystemAction) :
    s.issued ⊆ (s.apply action).issued := by
  cases action with
  | submit | review => exact List.subset_cons_self _ _
  | claim settings locked now lease token selected =>
      simp only [SystemState.apply]
      split
      · exact fun _ h => h
      · exact List.subset_cons_self _ _
  | act name e | abandon name e | timeOut name =>
      simp only [SystemState.apply, SystemState.proceed]
      split <;> exact fun _ h => h
  | crash name => exact fun _ h => h
  | relay outbox => exact fun _ h => h

theorem systemSound_preserved : system.Preserved SystemState.Sound := by
  intro s action s' hs hstep
  have hchange := change_of_step hs.tasks hs.world.runs hstep
  refine ⟨hs.world.change ?_ hchange, honest_preserved s action s' hs.tasks hstep⟩
  rw [hstep.2]
  exact SystemState.issued_subset s action

/-- **Every reachable state is sound.** -/
theorem systemSound_of_reachable {s : SystemState} (h : system.Reachable s) : s.Sound := by
  refine h.invariant ?_ systemSound_preserved
  rintro s rfl
  refine ⟨sound_empty, ?_⟩
  intro name task hlookup
  rw [AList.lookup_empty] at hlookup
  cases hlookup

/-- A step of a reachable state changes the database in one of the ways. -/
theorem change_of_reachable {s s' : SystemState} {action : SystemAction} (h : system.Reachable s)
    (hstep : system.step s action s') : WorldChange s.issued s'.issued s.world s'.world :=
  change_of_step (systemSound_of_reachable h).tasks (systemSound_of_reachable h).world.runs hstep

/-! ### Properties of the tasks -/

/-- The task that proceeds has the property, and the others have it already. -/
theorem SystemState.Tasks.proceeded {s : SystemState} {P : String → Task → Prop} {name : String}
    {step : World → Task → World × Task} (h : s.Tasks P)
    (hown : ∀ task, s.tasks.lookup name = some task → P name (step s.world task).2) :
    (s.proceed name step).Tasks P := by
  intro other task' hlookup
  cases hname : s.tasks.lookup name with
  | none =>
      simp only [SystemState.proceed, hname] at hlookup
      exact h other task' hlookup
  | some task =>
      simp only [SystemState.proceed, hname, Table.lookup_insert_eq] at hlookup
      split at hlookup
      · rename_i heq
        cases hlookup
        exact heq ▸ hown task hname
      · exact h other task' hlookup

theorem proceed_world {s : SystemState} {name : String} {task : Task}
    {step : World → Task → World × Task} (h : s.tasks.lookup name = some task) :
    (s.proceed name step).world = (step s.world task).1 := by
  rw [SystemState.proceed, h]

/-- **What holds of a task when it is started, and is kept by its acts and by every step of the
others, holds of it in every reachable state.** -/
theorem tasks_of_reachable {P : World → Task → Prop}
    (hlater : ∀ s s' action, system.Reachable s → system.step s action s' →
      ∀ task, P s.world task → P s'.world task)
    (hsubmit : ∀ w sha256 question key,
      P w (.submitting sha256 question key (submit sha256 question key)))
    (hreview : ∀ w sha256 request, P w (.reviewing sha256 request (submitDecision sha256 request)))
    (hclaim : ∀ w settings claimed, P w (.processing settings claimed (process settings claimed)))
    (hact : ∀ s e, system.Reachable s → ∀ task, P s.world task →
      P (task.act e s.world).1 (task.act e s.world).2)
    (habandon : ∀ s e, system.Reachable s → ∀ task, P s.world task →
      P (task.abandon e s.world).1 (task.abandon e s.world).2)
    (htimeOut : ∀ w task, P w task → P w task.timeOut)
    {s : SystemState} (h : system.Reachable s) : s.Tasks fun _ task => P s.world task := by
  have hpreserved : system.Preserved fun s => system.Reachable s ∧
      s.Tasks fun _ task => P s.world task := by
    rintro s action s' ⟨hreach, hs⟩ hstep
    refine ⟨hreach.step hstep, ?_⟩
    have hothers : s.Tasks fun _ task => P s'.world task := fun name task hlookup =>
      hlater s s' action hreach hstep task (hs name task hlookup)
    obtain ⟨-, rfl⟩ := hstep
    cases action with
    | submit name sha256 question key => exact hothers.start (hsubmit _ _ _ _)
    | review name sha256 request => exact hothers.start (hreview _ _ _)
    | claim settings locked now lease token selected =>
        rcases apply_claim s settings locked now lease token selected with
          heq | ⟨jobId, w, claimed, -, -, heq⟩
        · rw [heq] at hothers ⊢
          exact hothers
        · rw [heq] at hothers ⊢
          exact SystemState.Tasks.start (s := { s with world := w }) hothers (hclaim _ _ _)
    | act name e =>
        refine hothers.proceeded fun task hname => ?_
        simp only [SystemState.apply, proceed_world hname]
        exact hact s e hreach task (hs name task hname)
    | abandon name e =>
        refine hothers.proceeded fun task hname => ?_
        simp only [SystemState.apply, proceed_world hname]
        exact habandon s e hreach task (hs name task hname)
    | timeOut name =>
        refine hothers.proceeded fun task hname => ?_
        simp only [SystemState.apply, proceed_world hname]
        exact htimeOut s.world task (hs name task hname)
    | crash name => exact hs.crash
    | relay outbox => exact hothers
  refine (h.invariant ?_ hpreserved).2
  rintro s rfl
  refine ⟨.of_init rfl, ?_⟩
  intro name task hlookup
  rw [AList.lookup_empty] at hlookup
  cases hlookup

end Atlas
