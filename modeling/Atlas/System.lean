/-
**The system.**

Any number of workers and requests work on one database.  A worker claims a job under a fresh token
and starts a call of the processor; when the call does not return in time the worker gives it up,
but cannot stop it, and fails the job itself.  A worker may crash at any moment, and the relay
publishes events all the time.  One step of the system is one transaction of one party, in any order
and with any readings of the clocks.

Main definitions:

* `Atlas.Task` — a party that is under way, and what it still does;
* `Atlas.SystemState`, `Atlas.SystemAction`, `Atlas.system` — the transition system;
* `Atlas.Task.Honest` — what a task still does are transactions of its kind;
* `Atlas.WorldChange` — the ways a step changes the database.

Main results:

* `Atlas.honest_preserved` — every task is honest;
* `Atlas.change_of_step` — **every step changes the database in one of these ways**.
-/

import Atlas.Requests
import Atlas.TransitionSystem
import Atlas.WorkerEffects

set_option relaxedAutoImplicit false
set_option autoImplicit false

namespace Atlas

/-! ### Tasks -/

/-- A party under way. -/
inductive Task where
  /-- A worker waits for its call of the processor. -/
  | processing (settings : Settings) (claimed : ClaimedResearchJob)
      (call : Activity ProcessingOutcome)
  /-- A worker has given its call up, and fails the job; the call still runs. -/
  | timedOut (settings : Settings) (claimed : ClaimedResearchJob)
      (call : Activity ProcessingOutcome) (rest : Activity Unit)
  /-- A worker turns the outcome of its call into the end of the job. -/
  | settling (settings : Settings) (claimed : ClaimedResearchJob) (rest : Activity Unit)
  /-- A submission. -/
  | submitting (sha256 : String → String) (question idempotencyKey : String)
      (call : Activity ResearchJob)
  /-- A review. -/
  | reviewing (sha256 : String → String) (request : ReviewRequest) (call : Activity (String × Bool))

namespace Task

/-- The next act of the task: of the call, where there is one.  A call that has returned is
settled. -/
def act (e : Env) (w : World) : Task → World × Task
  | processing settings claimed call =>
      match call with
      | .ret outcome => (w, settling settings claimed (settle claimed (.ok outcome)))
      | .raise x => (w, settling settings claimed (settle claimed (.error x)))
      | .act update next => (update e w, processing settings claimed (next e w))
  | timedOut settings claimed call rest =>
      let (w', call) := call.perform e w
      (w', timedOut settings claimed call rest)
  | settling settings claimed rest =>
      let (w', rest) := rest.perform e w
      (w', settling settings claimed rest)
  | submitting sha256 question idempotencyKey call =>
      let (w', call) := call.perform e w
      (w', submitting sha256 question idempotencyKey call)
  | reviewing sha256 request call =>
      let (w', call) := call.perform e w
      (w', reviewing sha256 request call)

/-- The next act of a worker that has given its call up. -/
def abandon (e : Env) (w : World) : Task → World × Task
  | timedOut settings claimed call rest =>
      let (w', rest) := rest.perform e w
      (w', timedOut settings claimed call rest)
  | task => (w, task)

/-- The worker gives its call up. -/
def timeOut : Task → Task
  | processing settings claimed call =>
      timedOut settings claimed call (failTimedOut claimed)
  | task => task

end Task

/-! ### The transition system -/

/-- The database, the tasks by name, and the names used so far.  The name of a worker's task is its
claim token. -/
structure SystemState where
  world : World := {}
  tasks : Table String Task := ∅
  issued : List String := []

inductive SystemAction where
  | submit (name : String) (sha256 : String → String) (question idempotencyKey : String)
  | review (name : String) (sha256 : String → String) (request : ReviewRequest)
  | claim (settings : Settings) (locked : List String) (now lease : Instant) (token : String)
      (selected : Option String)
  | act (name : String) (e : Env)
  | abandon (name : String) (e : Env)
  | timeOut (name : String)
  | crash (name : String)
  | relay (outbox : Outbox)

namespace SystemState

/-- Start a task. -/
def start (s : SystemState) (name : String) (task : Task) : SystemState :=
  { s with tasks := s.tasks.insert name task, issued := name :: s.issued }

/-- Go on with a task. -/
def proceed (s : SystemState) (name : String) (step : World → Task → World × Task) :
    SystemState :=
  match s.tasks.lookup name with
  | none => s
  | some task =>
      { s with
        world := (step s.world task).1, tasks := s.tasks.insert name (step s.world task).2 }

def apply (s : SystemState) : SystemAction → SystemState
  | .submit name sha256 question idempotencyKey =>
      s.start name (.submitting sha256 question idempotencyKey
        (submit sha256 question idempotencyKey))
  | .review name sha256 request =>
      s.start name (.reviewing sha256 request (submitDecision sha256 request))
  | .claim settings _ now lease token selected =>
      match selected.bind (claimNext settings s.world now lease token) with
      | none => s
      | some (w, claimed) =>
          { s with world := w }.start token
            (.processing settings claimed (process settings claimed))
  | .act name e => s.proceed name (Task.act e)
  | .abandon name e => s.proceed name (Task.abandon e)
  | .timeOut name => s.proceed name fun w task => (w, task.timeOut)
  | .crash name => { s with tasks := s.tasks.erase name }
  | .relay outbox => { s with world := { s.world with outbox := outbox } }

/-- The actions of a state.  Names are fresh, a claim locks a row the queue selects, the identifiers
of a transaction are new, and the relay changes no event. -/
def Allows (s : SystemState) : SystemAction → Prop
  | .submit name _ _ _ | .review name _ _ => name ∉ s.issued
  | .claim settings locked now _ token selected => token ∉ s.issued ∧
      Selects s.world.jobs locked now (workerProfile (some settings.evaluationProfile)) selected
  | .act _ e | .abandon _ e => e.DrawsNew s.world
  | .timeOut _ | .crash _ => True
  | .relay outbox => outbox.rows.map (·.event) = s.world.outbox.rows.map (·.event)

end SystemState

/-- The system, from an empty database on. -/
def system : Lts SystemState SystemAction where
  init s := s = {}
  step s action s' := s.Allows action ∧ s' = s.apply action

instance (e : Env) (w : World) : Decidable (e.DrawsNew w) :=
  decidable_of_iff (IsUuid (e.uuid 0) ∧ ∀ decision ∈ w.policyDecisions, decision.id ≠ e.uuid 0)
    ⟨fun h => ⟨h.1, h.2⟩, fun h => ⟨h.uuid, h.new⟩⟩

instance (s : SystemState) : (action : SystemAction) → Decidable (s.Allows action)
  | .submit name _ _ _ | .review name _ _ => inferInstanceAs (Decidable (name ∉ s.issued))
  | .claim _ _ _ _ _ _ => inferInstanceAs (Decidable (_ ∧ _))
  | .act _ e | .abandon _ e => inferInstanceAs (Decidable (e.DrawsNew s.world))
  | .timeOut _ | .crash _ => .isTrue trivial
  | .relay outbox =>
      inferInstanceAs (Decidable (outbox.rows.map (·.event) = s.world.outbox.rows.map (·.event)))

/-- The state after the actions, if the system allows them all. -/
def SystemState.replay : SystemState → List SystemAction → Option SystemState
  | s, [] => some s
  | s, action :: actions => if s.Allows action then (s.apply action).replay actions else none

/-- Actions that can be replayed are a run. -/
theorem run_of_replay {s s' : SystemState} {actions : List SystemAction}
    (h : s.replay actions = some s') : system.Run s actions s' := by
  induction actions generalizing s with
  | nil =>
      cases h
      exact .nil
  | cons action actions ih =>
      rw [SystemState.replay] at h
      split at h
      · rename_i hallows
        exact .cons ⟨hallows, rfl⟩ (ih h)
      · cases h

/-! ### What requests commit -/

/-- What a request commits. -/
inductive RequestCommit (e : Env) (w w' : World) : Prop
  | same (h : w' = w)
  | submitted (question idempotencyKey requestFingerprint : String) (job : ResearchJob)
      (h : insertJob question idempotencyKey requestFingerprint e w = .ok (job, w'))
  | reviewed (request : ReviewRequest) (fingerprint : String) (target : ReviewTarget)
      (answer : String × Bool)
      (h : recordReview request fingerprint target e w = .ok (answer, w'))

theorem RequestCommit.refl (e : Env) (w : World) : RequestCommit e w w := .same rfl

theorem acts_submit (sha256 : String → String) (question idempotencyKey : String) :
    (submit sha256 question idempotencyKey).Acts RequestCommit := by
  refine .bind (.lift _) fun cleaned => ?_
  refine .tryCatch (.atomically RequestCommit.refl fun e w job w' h => ?_) fun x => ?_
  · exact .submitted question idempotencyKey _ job h
  · split
    · refine .bind (.atomically RequestCommit.refl fun e w record w' h => ?_) fun record => ?_
      · exact .same (Tx.compute_eq_ok.1 h).2.symm
      · match record with
        | none => exact .raise _
        | some (job, fingerprint) =>
            dsimp only
            split
            · exact .raise _
            · exact .ret _
    · exact .raise _

theorem acts_submitDecision (sha256 : String → String) (request : ReviewRequest) :
    (submitDecision sha256 request).Acts RequestCommit := by
  refine .bind (.lift _) fun _ => ?_
  refine .bind (.atomically RequestCommit.refl fun e w target w' h => ?_) fun target => ?_
  · exact .same (reviewTarget_eq_ok h)
  cases target with
  | inl decisionId => exact .ret _
  | inr target =>
      refine .bind (.read RequestCommit.refl) fun snapshot => ?_
      split
      · refine .atomically RequestCommit.refl fun e w answer w' h => ?_
        exact .reviewed request _ target answer h
      · exact .raise _

/-! ### Honest tasks -/

/-- What the task still does are transactions of its kind, under the token that is its name. -/
def Task.Honest (name : String) : Task → Prop
  | processing settings claimed call =>
      claimed.claimToken = name ∧ WorkerActs settings claimed call
  | timedOut settings claimed call rest =>
      claimed.claimToken = name ∧ WorkerActs settings claimed call ∧
        BoundActs settings claimed.job.id claimed.claimToken rest
  | settling settings claimed rest =>
      claimed.claimToken = name ∧ BoundActs settings claimed.job.id claimed.claimToken rest
  | submitting _ _ _ call => call.Acts RequestCommit
  | reviewing _ _ call => call.Acts RequestCommit

/-- Every task has the property. -/
def SystemState.Tasks (s : SystemState) (P : String → Task → Prop) : Prop :=
  ∀ name task, s.tasks.lookup name = some task → P name task

/-- An act of a task named `name`. -/
inductive TaskCommit (name : String) (e : Env) (w w' : World) : Prop
  | worker (settings : Settings) (jobId : String)
      (h : WorkerCommit settings jobId name e w w')
  | request (h : RequestCommit e w w')

section Honest

variable {name : String} {e : Env} {w : World} {task : Task}

/-- A task that is honest performs one of its transactions, and stays honest. -/
theorem Task.Honest.act (h : task.Honest name) :
    TaskCommit name e w (task.act e w).1 ∧ (task.act e w).2.Honest name := by
  cases task with
  | processing settings claimed call =>
      obtain ⟨rfl, hcall⟩ := h
      cases call with
      | ret outcome => exact ⟨.request (.refl e w), rfl, acts_settle _⟩
      | raise x => exact ⟨.request (.refl e w), rfl, acts_settle _⟩
      | act update next =>
          obtain ⟨hcommit, hnext⟩ := Program.acts_act.1 hcall e w
          exact ⟨.worker settings claimed.job.id hcommit, rfl, hnext⟩
  | timedOut settings claimed call rest =>
      obtain ⟨rfl, hcall, hrest⟩ := h
      obtain ⟨hcommit, hcall⟩ := hcall.perform (WorkerCommit.refl e w)
      exact ⟨.worker settings claimed.job.id hcommit, rfl, hcall, hrest⟩
  | settling settings claimed rest =>
      obtain ⟨rfl, hrest⟩ := h
      obtain ⟨hcommit, hrest⟩ := hrest.perform (BoundCommit.refl e w)
      exact ⟨.worker settings claimed.job.id (.bound hcommit), rfl, hrest⟩
  | submitting sha256 question idempotencyKey call =>
      obtain ⟨hcommit, hcall⟩ := Program.Acts.perform (RequestCommit.refl e w) h
      exact ⟨.request hcommit, hcall⟩
  | reviewing sha256 request call =>
      obtain ⟨hcommit, hcall⟩ := Program.Acts.perform (RequestCommit.refl e w) h
      exact ⟨.request hcommit, hcall⟩

theorem Task.Honest.abandon (h : task.Honest name) :
    TaskCommit name e w (task.abandon e w).1 ∧ (task.abandon e w).2.Honest name := by
  cases task with
  | timedOut settings claimed call rest =>
      obtain ⟨rfl, hcall, hrest⟩ := h
      obtain ⟨hcommit, hrest⟩ := hrest.perform (BoundCommit.refl e w)
      exact ⟨.worker settings claimed.job.id (.bound hcommit), rfl, hcall, hrest⟩
  | processing | settling | submitting | reviewing => exact ⟨.request (.refl e w), h⟩

theorem Task.Honest.timeOut (h : task.Honest name) : task.timeOut.Honest name := by
  cases task with
  | processing settings claimed call => exact ⟨h.1, h.2, boundActs_failClaimed _ _⟩
  | timedOut | settling | submitting | reviewing => exact h

end Honest

/-! ### Steps -/

section Steps

variable {s s' : SystemState} {action : SystemAction} {P : String → Task → Prop}

/-- A started task has the property, and the others keep it. -/
theorem SystemState.Tasks.start {name : String} {task : Task} (h : s.Tasks P) (hP : P name task) :
    (s.start name task).Tasks P := by
  intro other task' hlookup
  rw [SystemState.start, Table.lookup_insert_eq] at hlookup
  split at hlookup
  · rename_i heq
    cases hlookup
    exact heq ▸ hP
  · exact h other task' hlookup

/-- A task that proceeds keeps the property, and so do the others. -/
theorem SystemState.Tasks.proceed {Q : String → Task → Prop} {name : String}
    {step : World → Task → World × Task} (h : s.Tasks P)
    (hown : ∀ task, P name task → Q name (step s.world task).2)
    (hothers : ∀ other task, other ≠ name → P other task → Q other task)
    (hnone : s.tasks.lookup name = none → ∀ other task, P other task → Q other task) :
    (s.proceed name step).Tasks Q := by
  intro other task' hlookup
  cases hname : s.tasks.lookup name with
  | none =>
      simp only [SystemState.proceed, hname] at hlookup
      exact hnone hname other task' (h other task' hlookup)
  | some task =>
      simp only [SystemState.proceed, hname, Table.lookup_insert_eq] at hlookup
      split at hlookup
      · rename_i heq
        cases hlookup
        exact heq ▸ hown task (h name task hname)
      · rename_i hne
        exact hothers other task' hne (h other task' hlookup)

theorem SystemState.Tasks.crash {name : String} (h : s.Tasks P) :
    ({ s with tasks := s.tasks.erase name } : SystemState).Tasks P := by
  intro other task hlookup
  by_cases heq : other = name
  · rw [heq, AList.lookup_erase] at hlookup
    cases hlookup
  · rw [AList.lookup_erase_ne heq] at hlookup
    exact h other task hlookup

/-- A committed claim, with the columns it writes. -/
theorem claimNext_claims {settings : Settings} {w w' : World} {now lease : Instant}
    {token jobId : String} {claimed : ClaimedResearchJob}
    (h : claimNext settings w now lease token jobId = some (w', claimed)) :
    ∃ row row', w.jobs.lookup jobId = some row ∧
      ClaimedFrom row row' token lease settings.evaluationProfile ∧
      Handed row' claimed token settings.evaluationProfile ∧
      Claims row row' claimed settings.evaluationProfile ∧
      w' = { w with jobs := w.jobs.insert jobId row' } := by
  obtain ⟨⟨row', _⟩, hselected, h⟩ := Option.map_eq_some_iff.1 h
  cases h
  obtain ⟨row, hrow, hwritten⟩ := Option.bind_eq_some_iff.1 hselected
  have hclaim := written_eq_some.1 hwritten
  rw [settings.workerProfile_eq] at hclaim
  obtain ⟨hfrom, hhanded⟩ := claimRow_eq_some hclaim
  exact ⟨row, row', hrow, hfrom, hhanded, claims_of_claimRow hclaim, rfl⟩

/-- What a claim does to the system: nothing, or it claims a row and starts a task. -/
theorem apply_claim (s : SystemState) (settings : Settings) (locked : List String)
    (now lease : Instant) (token : String) (selected : Option String) :
    s.apply (.claim settings locked now lease token selected) = s ∨
      ∃ jobId w claimed, selected = some jobId ∧
        claimNext settings s.world now lease token jobId = some (w, claimed) ∧
        s.apply (.claim settings locked now lease token selected)
          = { s with world := w }.start token
              (.processing settings claimed (process settings claimed)) := by
  cases hclaim : selected.bind (claimNext settings s.world now lease token) with
  | none => exact .inl (by simp only [SystemState.apply, hclaim])
  | some claim =>
      obtain ⟨w, claimed⟩ := claim
      obtain ⟨jobId, rfl, hnext⟩ := Option.bind_eq_some_iff.1 hclaim
      exact .inr ⟨jobId, w, claimed, rfl, hnext, by simp only [SystemState.apply, hclaim]⟩

/-- **Every task stays honest.** -/
theorem honest_preserved : system.Preserved fun s => s.Tasks fun name task => task.Honest name := by
  rintro s action _ hs ⟨-, rfl⟩
  cases action with
  | submit name sha256 question idempotencyKey => exact hs.start (acts_submit _ _ _)
  | review name sha256 request => exact hs.start (acts_submitDecision _ _)
  | claim settings locked now lease token selected =>
      rcases apply_claim s settings locked now lease token selected with
        heq | ⟨jobId, w, claimed, -, hnext, heq⟩
      · rw [heq]
        exact hs
      · rw [heq]
        obtain ⟨_, _, -, -, hhanded, -⟩ := claimNext_eq_some hnext
        exact SystemState.Tasks.start (s := { s with world := w }) hs
          ⟨hhanded.token, acts_process settings claimed⟩
  | act name e =>
      exact hs.proceed (fun task h => h.act.2) (fun _ _ _ h => h) fun _ _ _ h => h
  | abandon name e =>
      exact hs.proceed (fun task h => h.abandon.2) (fun _ _ _ h => h) fun _ _ _ h => h
  | timeOut name =>
      exact hs.proceed (fun task h => h.timeOut) (fun _ _ _ h => h) fun _ _ _ h => h
  | crash name => exact hs.crash
  | relay outbox => exact hs

/-! ### What a step changes -/

/-- The ways a step changes the database; the names used before and after it are `issued` and
`issued'`. -/
inductive WorldChange (issued issued' : List String) (w w' : World) : Prop
  | worked (jobId token : String) (h : WorkerEffect jobId token w w')
  | submitted (key fingerprint : String) (row : ResearchJobRow) (event : OutboxRow)
      (h : Submitted key fingerprint row event w w')
  | claimed (jobId token profile : String) (lease : Instant) (row row' : ResearchJobRow)
      (claimed : ClaimedResearchJob) (hnew : token ∉ issued) (hissued : token ∈ issued')
      (hrow : w.jobs.lookup jobId = some row)
      (hfrom : ClaimedFrom row row' token lease profile)
      (hclaims : Claims row row' claimed profile)
      (h : w' = { w with jobs := w.jobs.insert jobId row' })
  | reviewed (request : ReviewRequest) (fingerprint : String) (answer : String × Bool)
      (h : Reviewed request fingerprint answer w w')
  | relayed (outbox : Outbox) (hevents : outbox.rows.map (·.event) = w.outbox.rows.map (·.event))
      (h : w' = { w with outbox := outbox })

theorem WorldChange.refl (issued issued' : List String) (w : World) :
    WorldChange issued issued' w w :=
  .relayed w.outbox rfl rfl

theorem RequestCommit.change {issued issued' : List String} {e : Env} {w w' : World}
    (h : RequestCommit e w w') : WorldChange issued issued' w w' := by
  cases h with
  | same h => exact h ▸ .refl issued issued' w
  | submitted question idempotencyKey requestFingerprint job h =>
      obtain ⟨row, event, -, hsubmitted⟩ := insertJob_eq_ok h
      exact .submitted idempotencyKey requestFingerprint row event hsubmitted
  | reviewed request fingerprint target answer h =>
      exact .reviewed request fingerprint answer (recordReview_eq_ok h)

theorem TaskCommit.change {issued issued' : List String} {name : String} {e : Env} {w w' : World}
    (he : e.DrawsNew w) (htable : RunTable w.evaluationRuns) (h : TaskCommit name e w w') :
    WorldChange issued issued' w w' := by
  cases h with
  | worker settings jobId h => exact .worked jobId name (h.effect he htable)
  | request h => exact h.change

/-- A task that proceeds changes the database by its commit. -/
theorem proceed_change {issued issued' : List String} {name : String} {e : Env}
    {step : World → Task → World × Task} (hs : s.Tasks fun name task => task.Honest name)
    (htable : RunTable s.world.evaluationRuns) (he : e.DrawsNew s.world)
    (hstep : ∀ task : Task, task.Honest name →
      TaskCommit name e s.world (step s.world task).1) :
    WorldChange issued issued' s.world (s.proceed name step).world := by
  cases hname : s.tasks.lookup name with
  | none =>
      simp only [SystemState.proceed, hname]
      exact .refl issued issued' s.world
  | some task =>
      simp only [SystemState.proceed, hname]
      exact (hstep task (hs name task hname)).change he htable

/-- **Every step changes the database in one of these ways.** -/
theorem change_of_step (hs : s.Tasks fun name task => task.Honest name)
    (htable : RunTable s.world.evaluationRuns) (h : system.step s action s') :
    WorldChange s.issued s'.issued s.world s'.world := by
  obtain ⟨hallows, rfl⟩ := h
  cases action with
  | submit | review | crash => exact .refl _ _ s.world
  | claim settings locked now lease token selected =>
      rcases apply_claim s settings locked now lease token selected with
        heq | ⟨jobId, w, claimed, -, hnext, heq⟩
      · rw [heq]
        exact .refl _ _ s.world
      · rw [heq]
        obtain ⟨row, row', hrow, hfrom, -, hclaims, rfl⟩ := claimNext_claims hnext
        exact .claimed jobId token _ lease row row' claimed hallows.1 List.mem_cons_self hrow hfrom
          hclaims rfl
  | act name e => exact proceed_change hs htable hallows fun task h => h.act.1
  | abandon name e => exact proceed_change hs htable hallows fun task h => h.abandon.1
  | timeOut name =>
      cases hname : s.tasks.lookup name with
      | none =>
          simp only [SystemState.apply, SystemState.proceed, hname]
          exact .refl _ _ s.world
      | some task =>
          simp only [SystemState.apply, SystemState.proceed, hname]
          exact .refl _ _ s.world
  | relay outbox => exact .relayed outbox hallows rfl

end Steps

end Atlas
