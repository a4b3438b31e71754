/-
**Submissions under one key.**

A submission inserts its job and the created event in one transaction, without a lookup before it.
When the unique constraint on the key rejects the insert, a second transaction reads the job that
has the key and compares fingerprints.  Between the two anything may happen; but a key that a job has
is never taken from it, so what the constraint has found the second transaction still finds.

Main definitions:

* `Atlas.Accepted` — a job was submitted under a key, with a fingerprint;
* `Atlas.OnePerKey` — one job and one created event for each key;
* `Atlas.SubmissionStage` — how far a submission is, and what it may have answered.

Main results:

* `Atlas.accepted_of_run` — **an accepted key stays accepted**;
* `Atlas.submit_perform_accepted`, `Atlas.replayOrConflict_perform` — what a submission under an
  accepted key does;
* `Atlas.submission_idempotency` — **submissions are idempotent, in every interleaving**.
-/

import Atlas.ExecutionBinding

set_option relaxedAutoImplicit false
set_option autoImplicit false

namespace Atlas

open Checked

/-! ### Keys, jobs and created events -/

/-- The job was submitted under the key, and this is the fingerprint of its request. -/
def Accepted (key fingerprint jobId : String) (w : World) : Prop :=
  ∃ row, w.jobs.lookup jobId = some row ∧ row.idempotencyKey = some key ∧
    row.requestFingerprint = some fingerprint

/-- The number of created events of a job. -/
def createdEvents (w : World) (jobId : String) : ℕ :=
  (w.outbox.rows.map (·.event)).countP fun event =>
    event.type = .created ∧ event.aggregateId = jobId

/-- One job for each key, every job under a key, and one created event for each job. -/
structure OnePerKey (w : World) : Prop where
  unique : ∀ key fingerprint fingerprint' jobId jobId', Accepted key fingerprint jobId w →
    Accepted key fingerprint' jobId' w → jobId = jobId' ∧ fingerprint = fingerprint'
  keyed : ∀ jobId row, w.jobs.lookup jobId = some row →
    ∃ key fingerprint, Accepted key fingerprint jobId w
  created : ∀ jobId row, w.jobs.lookup jobId = some row → createdEvents w jobId = 1
  absent : ∀ jobId, w.jobs.lookup jobId = none → createdEvents w jobId = 0

section Changes

variable {w w' : World} {jobId : String}

theorem createdEvents_of_rows {rows : List OutboxRow} {event : OutboxRow}
    (h : w'.outbox.rows = rows ++ [event]) (hrows : rows = w.outbox.rows) :
    createdEvents w' jobId = createdEvents w jobId +
      if event.event.type = .created ∧ event.event.aggregateId = jobId then 1 else 0 := by
  subst hrows
  simp only [createdEvents, h, List.map_append, List.map_cons, List.map_nil, List.countP_append,
    List.countP_singleton, decide_eq_true_eq]

/-- An event of another type is not counted. -/
theorem createdEvents_of_type {event : OutboxRow} (h : w'.outbox.rows = w.outbox.rows ++ [event])
    (htype : event.event.type ≠ .created) : createdEvents w' jobId = createdEvents w jobId := by
  rw [createdEvents_of_rows h rfl, if_neg]
  · rfl
  · exact fun hboth => htype hboth.1

/-- No worker creates an event of a submission. -/
theorem WorkerEffect.createdEvents_eq {target token : String}
    (h : WorkerEffect target token w w') : createdEvents w' jobId = createdEvents w jobId := by
  cases h with
  | aside h => rw [createdEvents, h.outbox, createdEvents]
  | decided _ _ _ h | repaired _ _ _ _ _ _ _ h | reran _ _ _ h | evaluated _ _ _ _ _ _ _ h
  | closed _ _ _ _ _ _ _ _ _ _ _ h | created _ _ _ _ _ _ _ _ _ _ _ h =>
      subst h
      rfl
  | paused row row' decision event outbox hwrite hstatus hactive hcounts hdecision htype hrows h =>
      subst h
      refine createdEvents_of_type hrows ?_
      rw [htype]
      decide
  | retried row row' decision event outbox executions attempts abandon count next time hwrite
      hstatus hmode hactive hretries hrepairs hevaluations hjob hretry hexecution haggregate
      hpayload hrows habandon h =>
      subst h
      refine createdEvents_of_type hrows ?_
      rw [DomainEvent.type, hpayload]
      change EventType.retryScheduled ≠ .created
      decide
  | ended row row' event outbox hwrite hstatus hactive hcounts htype hrows h =>
      subst h
      refine createdEvents_of_type hrows ?_
      intro hcreated
      rw [hcreated] at htype
      revert htype
      decide

theorem Reviewed.createdEvents_eq {request : ReviewRequest} {fingerprint : String}
    {answer : String × Bool} (h : Reviewed request fingerprint answer w w') :
    createdEvents w' jobId = createdEvents w jobId := by
  cases h with
  | replayed _ _ _ _ h | approved _ _ _ _ _ _ _ _ _ _ _ h
  | rejected _ _ _ _ _ _ _ _ _ _ _ _ _ h =>
      subst h
      rfl

/-- A step that submits nothing: the keys are those of the same jobs, and no created event is
added. -/
structure KeysKept (w w' : World) : Prop where
  accepted : ∀ key fingerprint jobId,
    Accepted key fingerprint jobId w' ↔ Accepted key fingerprint jobId w
  jobs : ∀ jobId, w'.jobs.lookup jobId = none ↔ w.jobs.lookup jobId = none
  events : ∀ jobId, createdEvents w' jobId = createdEvents w jobId

theorem RowsKept.keysKept (h : RowsKept w w')
    (hevents : ∀ jobId, createdEvents w' jobId = createdEvents w jobId) : KeysKept w w' := by
  refine ⟨?_, ?_, hevents⟩
  · intro key fingerprint jobId
    constructor
    · rintro ⟨row', hrow', hkey, hfingerprint⟩
      obtain ⟨row, hrow, hkept⟩ := h.back jobId row' hrow'
      exact ⟨row, hrow, hkept.key.symm.trans hkey, hkept.fingerprint.symm.trans hfingerprint⟩
    · rintro ⟨row, hrow, hkey, hfingerprint⟩
      obtain ⟨row', hrow', hkept⟩ := h.forth jobId row hrow
      exact ⟨row', hrow', hkept.key.trans hkey, hkept.fingerprint.trans hfingerprint⟩
  · intro jobId
    constructor
    · intro hnone
      by_contra hsome
      obtain ⟨row, hrow⟩ := Option.ne_none_iff_exists'.1 hsome
      obtain ⟨row', hrow', -⟩ := h.forth jobId row hrow
      rw [hnone] at hrow'
      cases hrow'
    · intro hnone
      by_contra hsome
      obtain ⟨row', hrow'⟩ := Option.ne_none_iff_exists'.1 hsome
      obtain ⟨row, hrow, -⟩ := h.back jobId row' hrow'
      rw [hnone] at hrow
      cases hrow

/-- A claim submits nothing. -/
theorem Claims.keysKept {target profile : String} {row row' : ResearchJobRow}
    {claimed : ClaimedResearchJob} (h : Claims row row' claimed profile)
    (hrow : w.jobs.lookup target = some row) :
    KeysKept w { w with jobs := w.jobs.insert target row' } := by
  refine ⟨?_, ?_, fun _ => rfl⟩
  · intro key fingerprint jobId
    by_cases heq : jobId = target
    · subst heq
      simp only [Accepted, AList.lookup_insert, Option.some.injEq, exists_eq_left', hrow, h.key,
        h.fingerprint]
    · simp only [Accepted, AList.lookup_insert_ne heq]
  · intro jobId
    by_cases heq : jobId = target
    · subst heq
      simp [hrow]
    · rw [AList.lookup_insert_ne heq]

/-- A step that submits nothing keeps what holds of each key. -/
theorem OnePerKey.kept (h : OnePerKey w) (hkept : KeysKept w w') : OnePerKey w' := by
  constructor
  · intro key fingerprint fingerprint' jobId jobId' hjob hjob'
    exact h.unique key fingerprint fingerprint' jobId jobId' ((hkept.accepted _ _ _).1 hjob)
      ((hkept.accepted _ _ _).1 hjob')
  · intro jobId row' hrow'
    cases hrow : w.jobs.lookup jobId with
    | none =>
        rw [(hkept.jobs jobId).2 hrow] at hrow'
        cases hrow'
    | some row =>
        obtain ⟨key, fingerprint, haccepted⟩ := h.keyed jobId row hrow
        exact ⟨key, fingerprint, (hkept.accepted _ _ _).2 haccepted⟩
  · intro jobId row' hrow'
    cases hrow : w.jobs.lookup jobId with
    | none =>
        rw [(hkept.jobs jobId).2 hrow] at hrow'
        cases hrow'
    | some row => rw [hkept.events, h.created jobId row hrow]
  · intro jobId hnone
    rw [hkept.events, h.absent jobId ((hkept.jobs jobId).1 hnone)]

/-! ### A submission that is accepted -/

section Submitted

variable {key fingerprint : String} {row : ResearchJobRow} {event : OutboxRow}

theorem Submitted.lookup_eq (h : Submitted key fingerprint row event w w') (jobId : String) :
    w'.jobs.lookup jobId = if jobId = row.id then some row else w.jobs.lookup jobId := by
  obtain ⟨outbox, -, rfl⟩ := h.world
  exact Table.lookup_insert_eq w.jobs row.id jobId row

/-- The accepted keys after a submission: its own, and those before. -/
theorem Submitted.accepted_iff (h : Submitted key fingerprint row event w w')
    {key' fingerprint' : String} :
    Accepted key' fingerprint' jobId w' ↔
      jobId = row.id ∧ key' = key ∧ fingerprint' = fingerprint ∨
        Accepted key' fingerprint' jobId w := by
  by_cases heq : jobId = row.id
  · subst heq
    have hno : ¬ Accepted key' fingerprint' row.id w := by
      rintro ⟨row', hrow', -, -⟩
      rw [h.new] at hrow'
      cases hrow'
    simp only [Accepted, h.lookup_eq, if_true, Option.some.injEq, exists_eq_left', h.key,
      h.fingerprint, true_and]
    constructor
    · rintro ⟨rfl, rfl⟩
      exact .inl ⟨rfl, rfl⟩
    · rintro (⟨rfl, rfl⟩ | haccepted)
      · exact ⟨rfl, rfl⟩
      · exact absurd haccepted hno
  · simp only [Accepted, h.lookup_eq, heq, if_false, false_and, false_or]

theorem Submitted.not_accepted (h : Submitted key fingerprint row event w w')
    {fingerprint' : String} : ¬ Accepted key fingerprint' jobId w := by
  rintro ⟨row', hrow', hkey, -⟩
  exact h.unused jobId row' hrow' hkey

theorem Submitted.createdEvents_eq (h : Submitted key fingerprint row event w w') :
    createdEvents w' jobId = createdEvents w jobId + if jobId = row.id then 1 else 0 := by
  obtain ⟨outbox, hrows, hworld⟩ := h.world
  have hadded : w'.outbox.rows = w.outbox.rows ++ [event] := by rw [hworld, ← hrows]
  rw [createdEvents_of_rows hadded rfl, h.type, h.aggregate]
  simp only [true_and, eq_comm]

/-- **A submission adds one job, under a key no job had, and its created event.** -/
theorem OnePerKey.submitted (hone : OnePerKey w) (h : Submitted key fingerprint row event w w') :
    OnePerKey w' := by
  constructor
  · intro key₁ fingerprint₁ fingerprint₂ jobId₁ jobId₂ h₁ h₂
    rcases h.accepted_iff.1 h₁ with ⟨rfl, rfl, rfl⟩ | hold₁
    · rcases h.accepted_iff.1 h₂ with ⟨rfl, -, rfl⟩ | hold₂
      · exact ⟨rfl, rfl⟩
      · exact absurd hold₂ h.not_accepted
    · rcases h.accepted_iff.1 h₂ with ⟨rfl, rfl, rfl⟩ | hold₂
      · exact absurd hold₁ h.not_accepted
      · exact hone.unique key₁ fingerprint₁ fingerprint₂ jobId₁ jobId₂ hold₁ hold₂
  · intro jobId row' hrow'
    rw [h.lookup_eq] at hrow'
    split at hrow'
    · rename_i heq
      exact ⟨key, fingerprint, h.accepted_iff.2 (.inl ⟨heq, rfl, rfl⟩)⟩
    · obtain ⟨key', fingerprint', hold⟩ := hone.keyed jobId row' hrow'
      exact ⟨key', fingerprint', h.accepted_iff.2 (.inr hold)⟩
  · intro jobId row' hrow'
    rw [h.lookup_eq] at hrow'
    rw [h.createdEvents_eq]
    split at hrow'
    · rename_i heq
      rw [if_pos heq, hone.absent jobId (heq ▸ h.new)]
    · rename_i hne
      rw [if_neg hne, hone.created jobId row' hrow']
  · intro jobId hnone
    rw [h.lookup_eq] at hnone
    rw [h.createdEvents_eq]
    split at hnone
    · cases hnone
    · rename_i hne
      rw [if_neg hne, hone.absent jobId hnone]

end Submitted

/-! ### Every change -/

variable {issued issued' : List String}

/-- A change submits nothing, or is a submission. -/
theorem WorldChange.keys (h : WorldChange issued issued' w w') :
    KeysKept w w' ∨ ∃ key fingerprint row event, Submitted key fingerprint row event w w' := by
  cases h with
  | worked target token heffect =>
      exact .inl (heffect.rowsKept.keysKept fun _ => heffect.createdEvents_eq)
  | submitted key fingerprint row event hsubmitted =>
      exact .inr ⟨key, fingerprint, row, event, hsubmitted⟩
  | claimed target token profile lease row row' claimed hnew htoken hrow hfrom hclaims heq =>
      subst heq
      exact .inl (hclaims.keysKept hrow)
  | reviewed request fingerprint answer hreviewed =>
      exact .inl (hreviewed.rowsKept.keysKept fun _ => hreviewed.createdEvents_eq)
  | relayed outbox hevents heq =>
      subst heq
      have hrows : RowsKept w { w with outbox := outbox } := rowsKept_of_eq rfl
      refine .inl (hrows.keysKept fun jobId => ?_)
      rw [createdEvents, hevents, createdEvents]

theorem OnePerKey.change (hone : OnePerKey w) (h : WorldChange issued issued' w w') :
    OnePerKey w' := by
  rcases h.keys with hkept | ⟨key, fingerprint, row, event, hsubmitted⟩
  · exact hone.kept hkept
  · exact hone.submitted hsubmitted

theorem accepted_of_change (h : WorldChange issued issued' w w') {key fingerprint : String}
    (haccepted : Accepted key fingerprint jobId w) : Accepted key fingerprint jobId w' := by
  rcases h.keys with hkept | ⟨_, _, _, _, hsubmitted⟩
  · exact (hkept.accepted _ _ _).2 haccepted
  · exact hsubmitted.accepted_iff.2 (.inr haccepted)

end Changes

theorem onePerKey_preserved :
    system.Preserved fun s => system.Reachable s ∧ OnePerKey s.world := by
  rintro s action s' ⟨hreach, hone⟩ hstep
  exact ⟨hreach.step hstep, hone.change (change_of_reachable hreach hstep)⟩

theorem onePerKey_empty : OnePerKey {} := by
  have hnone (jobId : String) : ({} : World).jobs.lookup jobId = none := AList.lookup_empty jobId
  constructor
  · rintro key fingerprint fingerprint' jobId jobId' ⟨row, hrow, -⟩
    rw [hnone] at hrow
    cases hrow
  · intro jobId row hrow
    rw [hnone] at hrow
    cases hrow
  · intro jobId row hrow
    rw [hnone] at hrow
    cases hrow
  · intro jobId _
    rfl

/-- **In every reachable state there is one job and one created event for each key.** -/
theorem onePerKey_of_reachable {s : SystemState} (h : system.Reachable s) : OnePerKey s.world := by
  refine (h.invariant ?_ onePerKey_preserved).2
  rintro s rfl
  exact ⟨.of_init rfl, onePerKey_empty⟩

/-- **An accepted key stays accepted.** -/
theorem accepted_of_run {s s' : SystemState} {actions : List SystemAction}
    (hreach : system.Reachable s) (h : system.Run s actions s') {key fingerprint jobId : String}
    (haccepted : Accepted key fingerprint jobId s.world) :
    Accepted key fingerprint jobId s'.world := by
  induction h with
  | nil => exact haccepted
  | snoc hrun hstep ih => exact accepted_of_change (change_of_reachable (hreach.run hrun) hstep) ih

/-! ### One call -/

section Call

variable {e : Env} {w w' : World} {sha256 : String → String}
  {question cleaned key fingerprint : String}

/-- The fingerprint of a submission: of its question, without the blanks around it. -/
def requestFingerprint (sha256 : String → String) (question : String) : String :=
  createRequestFingerprint sha256 (Python.strip question)

theorem requireNonEmpty_of_strip {value : String} (fieldName : String)
    (h : Python.strip value ≠ "") : requireNonEmpty value fieldName = .ok (Python.strip value) := by
  simp [requireNonEmpty, h]

/-- A blank question is refused before anything is read. -/
theorem submit_of_blank (sha256 : String → String) (key : String)
    (h : Python.strip question = "") :
    ∃ x, submit sha256 question key = .raise x ∧ x ≠ idempotencyConflict := by
  refine ⟨.persistence (.domain (.invalidResearchJob
    "question must be a non-empty string.")), ?_, by decide⟩
  simp [submit, requireNonEmpty, ensure, h, Except.mapError, Program.lift]

/-- A submission first inserts, and looks at the exception of an insert that raises. -/
theorem submit_perform (h : Python.strip question ≠ "") :
    (submit sha256 question key).perform e w
      = match insertJob question key (requestFingerprint sha256 question) e w with
        | .ok (job, w') => (w', .ret job)
        | .error x => (w, if x = .persistence .idempotencyKeyConflict then
            replayOrConflict key (requestFingerprint sha256 question) else .raise x) := by
  have hsubmit : submit sha256 question key = tryCatch
      (Program.atomically (insertJob question key (requestFingerprint sha256 question)))
      fun x => if x = .persistence .idempotencyKeyConflict then
        replayOrConflict key (requestFingerprint sha256 question) else .raise x := by
    rw [submit, requireNonEmpty_of_strip "question" h]
    rfl
  rw [hsubmit]
  change (Tx.commit _ e w, Program.tryCatch (Program.lift (Except.map Prod.fst _)) _) = _
  cases hinsert : insertJob question key (requestFingerprint sha256 question) e w with
  | ok r =>
      rw [Tx.commit_of_ok hinsert]
      rfl
  | error x =>
      rw [Tx.commit_of_error hinsert]
      rfl

/-! ### The insert -/

/-- An insert meets a conflict of keys only if a row has the key. -/
theorem addJob_conflict {jobs : Jobs} {job : ResearchJob} {traceparent : Option String}
    (h : addJob jobs job key fingerprint traceparent = .error .idempotencyKeyConflict) :
    ∃ jobId row, jobs.lookup jobId = some row ∧ row.idempotencyKey = some key := by
  simp only [addJob, bind_eq_error, ensure_eq_error, pure_ne_error, flush_eq_ok, reduceCtorEq,
    and_false, false_or, exists_false, or_false] at h
  rcases h with hflush | ⟨_, -, _, -, hconflict, -⟩
  · rw [ResearchJobRow.flush] at hflush
    split at hflush <;> cases hflush
  · push Not at hconflict
    obtain ⟨entry, hentry, hkey⟩ := hconflict
    exact ⟨entry.1, entry.2, AList.mem_lookup_iff.2 hentry, hkey⟩

/-- The event of a submission is refused with one of two errors. -/
theorem enqueueEvent_error {x : Exc} {eventId jobId : String} {time : Instant}
    (h : enqueueEvent (buildResearchJobCreated eventId jobId time) e w = .error x) :
    x = validationError ∨ x = outboxEnqueueError := by
  simp only [enqueueEvent, Tx.bind_eq_error, Tx.reading_ne_error, Tx.read_ne_error,
    Tx.modify_ne_error, Tx.lift_eq_error, false_or, and_false, exists_false, or_false] at h
  rcases h with hbuild | ⟨_, _, -, _, _, -, _, _, -, henqueue⟩
  · rw [buildResearchJobCreated, buildEvent] at hbuild
    split at hbuild
    · cases hbuild
    · cases hbuild
      exact .inl rfl
  · simp only [Outbox.enqueue, bind_eq_error, ensure_eq_error, pure_ne_error, and_false,
      exists_false, or_false] at henqueue
    rcases henqueue with ⟨-, rfl⟩ | ⟨_, -, -, rfl⟩ <;> exact .inr rfl

/-- What an insert raises: a conflict of keys only if a job has the key, and never the conflict of
requests. -/
theorem insertJob_eq_error {x : Exc} (h : insertJob question key fingerprint e w = .error x) :
    x ≠ idempotencyConflict ∧ (x = .persistence .idempotencyKeyConflict →
      ∃ jobId row, w.jobs.lookup jobId = some row ∧ row.idempotencyKey = some key) := by
  simp only [insertJob, Tx.bind_eq_error, Tx.reading_ne_error, Tx.reading_eq_ok, Tx.lift_eq_error,
    Tx.lift_eq_ok, Tx.compute_eq_error, Tx.compute_eq_ok, Tx.modify_ne_error, Tx.modify_eq_ok,
    Tx.pure_ne_error, mapError_eq_error, mapError_eq_ok, false_or, Function.comp] at h
  obtain ⟨_, _, ⟨rfl, rfl⟩, _, _, ⟨rfl, rfl⟩, _, _, ⟨rfl, rfl⟩, _, _, ⟨rfl, rfl⟩, h⟩ := h
  rcases h with ⟨_, -, rfl⟩ | ⟨job, _, ⟨-, rfl⟩, ⟨error, hadd, rfl⟩ | ⟨jobs, _, -, _, _, -, h⟩⟩
  · constructor
    · intro heq
      cases heq
    · intro heq
      cases heq
  · constructor
    · intro heq
      cases heq
    · intro heq
      cases heq
      exact addJob_conflict hadd
  · rcases h with henqueue | ⟨_, _, -, hpure⟩
    · rcases enqueueEvent_error henqueue with rfl | rfl
      all_goals
        refine ⟨by decide, ?_⟩
        intro heq
        cases heq
    · exact absurd hpure not_false

/-- What a submission draws fits its row: the identifier of `uuid4` is new, and the trace context is
one of W3C. -/
structure Env.Submits (e : Env) (w : World) : Prop where
  uuid : IsUuid (e.uuid 0)
  new : w.jobs.lookup (e.uuid 0) = none
  traceparent : e.traceparent.all traceparentFormat = true

theorem isSpace_uuid {c : Char} (h : (isLowerHex c || c == '-') = true) :
    Python.isSpace c = false := by
  have hrange : c.toNat = 45 ∨ 48 ≤ c.toNat ∧ c.toNat ≤ 57 ∨ 97 ≤ c.toNat ∧ c.toNat ≤ 102 := by
    simp only [isLowerHex, Char.isDigit, Bool.or_eq_true, Bool.and_eq_true, decide_eq_true_eq,
      beq_iff_eq] at h
    rcases h with (⟨hlow, hhigh⟩ | ⟨hlow, hhigh⟩) | rfl
    · exact .inr (.inl ⟨UInt32.le_iff_toNat_le.1 hlow, UInt32.le_iff_toNat_le.1 hhigh⟩)
    · exact .inr (.inr ⟨UInt32.le_iff_toNat_le.1 hlow, UInt32.le_iff_toNat_le.1 hhigh⟩)
    · exact .inl rfl
  cases hspace : Python.isSpace c with
  | false => rfl
  | true =>
      simp only [Python.isSpace, Bool.or_eq_true, Bool.and_eq_true, decide_eq_true_eq,
        List.contains_eq_mem, List.mem_cons, List.not_mem_nil, or_false] at hspace
      omega

/-- An identifier of `uuid4` has no blanks. -/
theorem clean_of_isUuid {text : String} (h : IsUuid text) : Clean text := by
  constructor
  · refine Python.strip_eq_self fun c hc => ?_
    exact isSpace_uuid (List.all_eq_true.1 h.2 c hc)
  · rintro rfl
    cases h.1

/-- An identifier of `uuid4` is storable. -/
theorem storable_of_isUuid {text : String} (h : IsUuid text) : storable text = true := by
  simp only [storable, Bool.not_eq_true', List.contains_eq_mem, decide_eq_false_iff_not]
  intro hmem
  have hchar := List.all_eq_true.1 h.2 _ hmem
  revert hchar
  decide

/-- A key that a row holds fits the next row. -/
theorem key_of_fits {row : ResearchJobRow} (hfits : row.Fits) (hkey : row.idempotencyKey = some key)
    (hfingerprint : row.requestFingerprint = some fingerprint) :
    sqlNonBlank key = true ∧ key.length ≤ 128 ∧ storable key = true := by
  have hpair := hfits.idempotency_pair
  have hwidth := hfits.key_width
  have htext := hfits.key_text
  simp only [ResearchJobRow.idempotencyPair, hkey, hfingerprint, Bool.and_eq_true] at hpair
  simp only [hkey, Option.all_some, decide_eq_true_eq] at hwidth htext
  exact ⟨hpair.1, hwidth, htext⟩

/-- The insert, after what it reads of its environment. -/
theorem insertJob_apply : insertJob question key fingerprint e w
    = (do
        let job ← Tx.lift ((ResearchJob.create (e.uuid 0) question (.aware e.now)).mapError
          (Exc.persistence ∘ .domain))
        let jobs ← Tx.compute fun w =>
          (addJob w.jobs job key fingerprint e.traceparent).mapError Exc.persistence
        Tx.modify fun w => { w with jobs := jobs }
        enqueueEvent (buildResearchJobCreated (e.uuid 1) job.id job.createdAt)
        return job : Transaction ResearchJob) e w := rfl

/-- The database refuses the row of a question it cannot store. -/
theorem addJob_of_unstorable (jobs : Jobs) {job : ResearchJob} (key fingerprint : String)
    (traceparent : Option String) (h : storable job.question = false) :
    ∃ name, addJob jobs job key fingerprint traceparent = .error (.integrity name) := by
  rw [addJob, ResearchJobRow.flush]
  split
  · rename_i hnone
    have hfits := ResearchJobRow.fits_iff.1 (CheckConstraint.firstViolated_eq_none.1 hnone)
    exact absurd (h.symm.trans hfits.texts.question) Bool.false_ne_true
  · rename_i check _
    exact ⟨check.name, rfl⟩

/-- **A question the database cannot store is refused**, whatever its key. -/
theorem insertJob_of_unstorable (key fingerprint : String) (e : Env) (w : World)
    (h : storable question = false) :
    ∃ x, insertJob question key fingerprint e w = .error x ∧ x ≠ idempotencyConflict ∧
      x ≠ .persistence .idempotencyKeyConflict := by
  rw [insertJob_apply]
  cases hcreate : ResearchJob.create (e.uuid 0) question (.aware e.now) with
  | error error =>
      refine ⟨.persistence (.domain error), Tx.bind_of_error rfl, ?_, ?_⟩ <;>
        · intro heq
          cases heq
  | ok job =>
      have hquestion : storable job.question = false := by
        simp only [ResearchJob.create, bind_eq_ok, pure_eq_ok, requireNonEmpty_eq_ok] at hcreate
        obtain ⟨_, -, _, ⟨rfl, -⟩, _, -, rfl⟩ := hcreate
        rw [← Bool.not_eq_true, storable_strip_iff, h]
        exact Bool.false_ne_true
      obtain ⟨name, hadd⟩ :=
        addJob_of_unstorable w.jobs key fingerprint e.traceparent hquestion
      have hlift : (Tx.lift ((Except.ok job).mapError (Exc.persistence ∘ .domain)) :
          Transaction ResearchJob) e w = .ok (job, w) := rfl
      refine ⟨.persistence (.integrity name),
        (Tx.bind_of_ok hlift).trans (Tx.bind_of_error ?_), ?_, ?_⟩
      · rw [Tx.compute_eq_error, hadd]
        rfl
      all_goals
        intro heq
        cases heq

/-- **Under an accepted key the insert meets the conflict of keys.** -/
theorem insertJob_of_accepted {issued : List String} {jobId fingerprint' : String}
    (fingerprint : String) (hsound : w.Sound issued) (haccepted : Accepted key fingerprint' jobId w)
    (he : e.Submits w) (hquestion : Python.strip question ≠ "") (htext : storable question = true)
    (hfingerprint : fingerprint.length = 64) :
    insertJob question key fingerprint e w = .error (.persistence .idempotencyKeyConflict) := by
  obtain ⟨taken, htaken, hkey, hfingerprint'⟩ := haccepted
  have hheld := key_of_fits (ResearchJobRow.fits_iff.1 (hsound.checks jobId taken htaken)) hkey
    hfingerprint'
  have hid : requireJobId (e.uuid 0) = .ok (e.uuid 0) := by
    refine ResearchJob.requireJobId_of_clean (clean_of_isUuid he.uuid) ?_
    rw [he.uuid.1]
    decide
  obtain ⟨job, hcreate, hjob, htexts⟩ : ∃ job,
      ResearchJob.create (e.uuid 0) question (.aware e.now) = .ok job ∧ job.id = e.uuid 0 ∧
        storable job.id = true ∧ storable job.question = true := by
    refine ⟨{ id := e.uuid 0, question := Python.strip question, status := .pending
              createdAt := e.now, updatedAt := e.now
              startedAt := none, finishedAt := none, result := none, failureReason := none }, ?_,
      rfl, storable_of_isUuid he.uuid, storable_strip htext⟩
    simp only [ResearchJob.create, hid, requireNonEmpty_of_strip "question" hquestion]
    rfl
  have hnew : w.jobs.lookup job.id = none := by rw [hjob, he.new]
  have htaken' : ¬ ∀ entry ∈ w.jobs.entries, entry.2.idempotencyKey ≠ some key :=
    fun hfree => hfree ⟨jobId, taken⟩ (AList.mem_lookup_iff.1 htaken) hkey
  have hadd : addJob w.jobs job key fingerprint e.traceparent = .error .idempotencyKeyConflict := by
    rw [addJob, flush_of_fits
      (fits_submission hcreate htexts hheld hfingerprint he.traceparent), ok_bind]
    simp only [toOrm, ensure, hnew, htaken', if_true, if_false, ok_bind, error_bind]
  have hlift : (Tx.lift ((ResearchJob.create (e.uuid 0) question (.aware e.now)).mapError
      (Exc.persistence ∘ .domain)) : Transaction ResearchJob) e w = .ok (job, w) := by
    rw [hcreate]
    rfl
  rw [insertJob_apply]
  refine (Tx.bind_of_ok hlift).trans (Tx.bind_of_error ?_)
  rw [Tx.compute_eq_error, hadd]
  rfl

/-! ### The replay -/

/-- **The lookup by an accepted key finds its job and its fingerprint.** -/
theorem getByIdempotencyKey_of_accepted {issued : List String} {jobId : String}
    (hsound : w.Sound issued) (hone : OnePerKey w) (haccepted : Accepted key fingerprint jobId w) :
    ∃ row, w.jobs.lookup jobId = some row ∧ row.id = jobId ∧
      getByIdempotencyKey w.jobs key = .ok (some (row.toResearchJob, fingerprint)) := by
  obtain ⟨row, hrow, hkey, hfingerprint⟩ := id haccepted
  refine ⟨row, hrow, hsound.key jobId row hrow, ?_⟩
  -- the row that is found first is the row of the job, since no other has the key
  have hfind : (w.jobs.entries.map (·.2)).find? (·.idempotencyKey = some key) = some row := by
    cases hfound : (w.jobs.entries.map (·.2)).find? (·.idempotencyKey = some key) with
    | none =>
        have hmem : row ∈ w.jobs.entries.map (·.2) :=
          List.mem_map.2 ⟨⟨jobId, row⟩, AList.mem_lookup_iff.1 hrow, rfl⟩
        exact absurd (decide_eq_true hkey) (List.find?_eq_none.1 hfound row hmem)
    | some found =>
        have hsame : found.idempotencyKey = some key := by simpa using List.find?_some hfound
        obtain ⟨⟨jobId', other⟩, hentry, rfl⟩ :=
          List.mem_map.1 (List.mem_of_find?_eq_some hfound)
        have hlookup : w.jobs.lookup jobId' = some other := AList.mem_lookup_iff.2 hentry
        obtain ⟨key', fingerprint', row', hrow', hkey', hfingerprint''⟩ :=
          hone.keyed jobId' other hlookup
        obtain rfl := Option.some.inj (hlookup.symm.trans hrow')
        obtain rfl := Option.some.inj (hsame.symm.trans hkey')
        obtain ⟨rfl, -⟩ := hone.unique key fingerprint fingerprint' jobId jobId' haccepted
          ⟨_, hlookup, hkey', hfingerprint''⟩
        exact hlookup.symm.trans hrow
  rw [getByIdempotencyKey, hfind]
  simp only [hfingerprint, toDomain_of_valid (hsound.valid jobId row hrow), ok_bind]
  rfl

/-- **The replay of an accepted key** answers with its job, or with the conflict. -/
theorem replayOrConflict_perform {issued : List String} {jobId fingerprint' : String}
    (fingerprint : String) (e : Env) (hsound : w.Sound issued) (hone : OnePerKey w)
    (haccepted : Accepted key fingerprint' jobId w) :
    ∃ row, w.jobs.lookup jobId = some row ∧ row.id = jobId ∧
      (replayOrConflict key fingerprint).perform e w
        = (w, if fingerprint' = fingerprint then .ret row.toResearchJob
            else .raise idempotencyConflict) := by
  obtain ⟨row, hrow, hid, hget⟩ := getByIdempotencyKey_of_accepted hsound hone haccepted
  refine ⟨row, hrow, hid, ?_⟩
  have hread : (Tx.compute fun w : World =>
      (getByIdempotencyKey w.jobs key).mapError Exc.persistence : Transaction _) e w
        = .ok (some (row.toResearchJob, fingerprint'), w) :=
    Tx.compute_eq_ok.2 ⟨by rw [hget]; rfl, rfl⟩
  rw [replayOrConflict, Program.perform_atomically_bind_of_ok hread]
  by_cases hsame : fingerprint' = fingerprint
  · simp only [hsame, ne_eq, not_true_eq_false, if_true, if_false]
  · simp only [hsame, ne_eq, not_false_eq_true, if_true, if_false]

/-! ### Stages -/

/-- How far a submission is, and what it may have answered. -/
inductive SubmissionStage (sha256 : String → String) (question key : String) (w : World) :
    Activity ResearchJob → Prop
  /-- It has not begun. -/
  | begun : SubmissionStage sha256 question key w (submit sha256 question key)
  /-- It has found its key taken. -/
  | replaying (fingerprint jobId : String) (h : Accepted key fingerprint jobId w) :
      SubmissionStage sha256 question key w
        (replayOrConflict key (requestFingerprint sha256 question))
  /-- It has returned the job its request belongs to. -/
  | returned (job : ResearchJob)
      (h : Accepted key (requestFingerprint sha256 question) job.id w) :
      SubmissionStage sha256 question key w (.ret job)
  /-- It has met the key of another request. -/
  | conflicted (fingerprint jobId : String) (h : Accepted key fingerprint jobId w)
      (hne : fingerprint ≠ requestFingerprint sha256 question) :
      SubmissionStage sha256 question key w (.raise idempotencyConflict)
  /-- It was refused for another reason. -/
  | refused (x : Exc) (h : x ≠ idempotencyConflict) :
      SubmissionStage sha256 question key w (.raise x)

variable {call : Activity ResearchJob}

/-- What a submission has found still holds later. -/
theorem SubmissionStage.later (h : SubmissionStage sha256 question key w call)
    (hlater : ∀ fingerprint jobId, Accepted key fingerprint jobId w →
      Accepted key fingerprint jobId w') : SubmissionStage sha256 question key w' call := by
  cases h with
  | begun => exact .begun
  | replaying fingerprint jobId h => exact .replaying fingerprint jobId (hlater _ _ h)
  | returned job h => exact .returned job (hlater _ _ h)
  | conflicted fingerprint jobId h hne => exact .conflicted fingerprint jobId (hlater _ _ h) hne
  | refused x h => exact .refused x h

/-- **One act of a submission**: it changes nothing, or it inserts the job it returns. -/
theorem SubmissionStage.perform {issued : List String} (hsound : w.Sound issued)
    (hone : OnePerKey w) (h : SubmissionStage sha256 question key w call) (e : Env) :
    SubmissionStage sha256 question key (call.perform e w).1 (call.perform e w).2 ∧
      ((call.perform e w).1 = w ∨ ∃ row event, (call.perform e w).2 = .ret row.toResearchJob ∧
        Submitted key (requestFingerprint sha256 question) row event w (call.perform e w).1) := by
  cases h with
  | begun =>
      by_cases hblank : Python.strip question = ""
      · obtain ⟨x, hsubmit, hx⟩ := submit_of_blank sha256 key hblank
        rw [hsubmit]
        exact ⟨.refused x hx, .inl rfl⟩
      rw [submit_perform hblank]
      cases hinsert : insertJob question key (requestFingerprint sha256 question) e w with
      | ok r =>
          obtain ⟨job, w'⟩ := r
          obtain ⟨row, event, rfl, hsubmitted⟩ := insertJob_eq_ok hinsert
          exact ⟨.returned _ (hsubmitted.accepted_iff.2 (.inl ⟨rfl, rfl, rfl⟩)),
            .inr ⟨row, event, rfl, hsubmitted⟩⟩
      | error x =>
          obtain ⟨hx, htaken⟩ := insertJob_eq_error hinsert
          refine ⟨?_, .inl rfl⟩
          dsimp only
          split
          · rename_i hconflict
            obtain ⟨jobId, row, hrow, hkey⟩ := htaken hconflict
            obtain ⟨key', fingerprint, row', hrow', hkey', hfingerprint⟩ := hone.keyed jobId row hrow
            obtain rfl := Option.some.inj (hrow.symm.trans hrow')
            exact .replaying fingerprint jobId ⟨row, hrow, hkey, hfingerprint⟩
          · exact .refused x hx
  | replaying fingerprint jobId haccepted =>
      obtain ⟨row, hrow, hid, hperform⟩ :=
        replayOrConflict_perform (requestFingerprint sha256 question) e hsound hone haccepted
      rw [hperform]
      refine ⟨?_, .inl rfl⟩
      by_cases hsame : fingerprint = requestFingerprint sha256 question
      · rw [if_pos hsame]
        refine .returned _ ?_
        change Accepted key (requestFingerprint sha256 question) row.id w
        rw [hid, ← hsame]
        exact haccepted
      · rw [if_neg hsame]
        exact .conflicted fingerprint jobId haccepted hsame
  | returned job h => exact ⟨.returned job h, .inl rfl⟩
  | conflicted fingerprint jobId h hne => exact ⟨.conflicted fingerprint jobId h hne, .inl rfl⟩
  | refused x h => exact ⟨.refused x h, .inl rfl⟩

end Call

/-! ### Every submission of the system -/

/-- A task that is a submission is at one of the stages. -/
def Task.Submission (w : World) : Task → Prop
  | submitting sha256 question idempotencyKey call =>
      SubmissionStage sha256 question idempotencyKey w call
  | _ => True

theorem Task.Submission.later {w w' : World} {task : Task} (h : task.Submission w)
    (hlater : ∀ key fingerprint jobId, Accepted key fingerprint jobId w →
      Accepted key fingerprint jobId w') : task.Submission w' := by
  cases task with
  | submitting sha256 question key call => exact SubmissionStage.later h (hlater key)
  | processing | timedOut | settling | reviewing => trivial

/-- **Every submission is at one of the stages.** -/
theorem submissions_of_reachable {s : SystemState} (h : system.Reachable s) :
    s.Tasks fun _ task => task.Submission s.world := by
  refine tasks_of_reachable ?_ ?_ ?_ ?_ ?_ ?_ ?_ h
  · intro s s' action hreach hstep task htask
    exact htask.later fun _ _ _ => accepted_of_change (change_of_reachable hreach hstep)
  · intro w sha256 question key
    exact .begun
  · intros
    trivial
  · intros
    trivial
  · intro s e hreach task htask
    cases task with
    | submitting sha256 question key call =>
        exact (SubmissionStage.perform (systemSound_of_reachable hreach).world
          (onePerKey_of_reachable hreach) htask e).1
    | processing settings claimed call => cases call <;> exact trivial
    | timedOut | settling | reviewing => exact trivial
  · intro s e _ task htask
    cases task with
    | submitting sha256 question key call => exact htask
    | processing | timedOut | settling | reviewing => exact trivial
  · intro w task htask
    cases task with
    | submitting sha256 question key call => exact htask
    | processing | timedOut | settling | reviewing => exact trivial

/-! ### Idempotency -/

/-- What a submission is doing, what it has answered, and what its next act does. -/
structure SubmissionCall (sha256 : String → String) (question key : String) (w : World)
    (call : Activity ResearchJob) : Prop where
  /-- It is about to insert, about to replay, or has ended. -/
  phase : call = submit sha256 question key ∨
    call = replayOrConflict key (requestFingerprint sha256 question) ∨
    (∃ job, call = .ret job) ∨ ∃ x, call = .raise x
  /-- What it has returned is the job of its request. -/
  returned : ∀ job, call = .ret job → Accepted key (requestFingerprint sha256 question) job.id w
  /-- It has raised the conflict only over another request. -/
  conflicted : call = .raise idempotencyConflict → ∃ fingerprint jobId,
    Accepted key fingerprint jobId w ∧ fingerprint ≠ requestFingerprint sha256 question
  /-- Its next act changes nothing, or inserts the job it returns with the created event. -/
  commits : ∀ e, (call.perform e w).1 = w ∨ ∃ row event,
    (call.perform e w).2 = .ret row.toResearchJob ∧
      Submitted key (requestFingerprint sha256 question) row event w (call.perform e w).1
  /-- A failed insert, of the job or of the event, leaves neither, and is raised unless it was the
  key that was taken. -/
  rollback : ∀ e x, Python.strip question ≠ "" → call = submit sha256 question key →
    insertJob question key (requestFingerprint sha256 question) e w = .error x →
      (call.perform e w).1 = w ∧
        (x ≠ .persistence .idempotencyKeyConflict → (call.perform e w).2 = .raise x)
  /-- Under an accepted key the insert of a question that can be stored goes over to the replay. -/
  replays : ∀ e fingerprint jobId, Accepted key fingerprint jobId w → e.Submits w →
    (∀ text, (sha256 text).length = 64) → Python.strip question ≠ "" → storable question = true →
      call = submit sha256 question key →
        call.perform e w = (w, replayOrConflict key (requestFingerprint sha256 question))
  /-- A question that cannot be stored is refused by the database, whatever its key. -/
  refuses : ∀ e, storable question = false → Python.strip question ≠ "" →
    call = submit sha256 question key →
      ∃ x, x ≠ idempotencyConflict ∧ call.perform e w = (w, .raise x)
  /-- The replay answers with the job of the key, or with the conflict. -/
  answers : ∀ e fingerprint jobId, Accepted key fingerprint jobId w →
    call = replayOrConflict key (requestFingerprint sha256 question) →
      ∃ row, w.jobs.lookup jobId = some row ∧ row.id = jobId ∧
        call.perform e w = (w, if fingerprint = requestFingerprint sha256 question then
          .ret row.toResearchJob else .raise idempotencyConflict)

section Calls

variable {w : World} {sha256 : String → String} {question key : String}
  {call : Activity ResearchJob}

/-- A submission that has not begun is refused, or has an act to perform. -/
theorem submit_cases (sha256 : String → String) (question key : String) :
    (∃ x, submit sha256 question key = .raise x ∧ x ≠ idempotencyConflict) ∨
      ∃ update next, submit sha256 question key = .act update next := by
  by_cases hblank : Python.strip question = ""
  · exact .inl (submit_of_blank sha256 key hblank)
  · rw [submit, requireNonEmpty_of_strip "question" hblank]
    exact .inr ⟨_, _, rfl⟩

theorem SubmissionStage.returned_accepted {job : ResearchJob}
    (h : SubmissionStage sha256 question key w call) (hcall : call = .ret job) :
    Accepted key (requestFingerprint sha256 question) job.id w := by
  cases h with
  | begun =>
      rcases submit_cases sha256 question key with ⟨x, hsubmit, -⟩ | ⟨update, next, hsubmit⟩ <;>
        · rw [hsubmit] at hcall
          cases hcall
  | replaying => cases hcall
  | returned job' h =>
      cases hcall
      exact h
  | conflicted | refused => cases hcall

theorem SubmissionStage.conflict_accepted (h : SubmissionStage sha256 question key w call)
    (hcall : call = .raise idempotencyConflict) : ∃ fingerprint jobId,
      Accepted key fingerprint jobId w ∧ fingerprint ≠ requestFingerprint sha256 question := by
  cases h with
  | begun =>
      rcases submit_cases sha256 question key with ⟨x, hsubmit, hx⟩ | ⟨update, next, hsubmit⟩
      · rw [hsubmit] at hcall
        exact absurd (Program.raise.inj hcall) hx
      · rw [hsubmit] at hcall
        cases hcall
  | replaying | returned => cases hcall
  | conflicted fingerprint jobId h hne => exact ⟨fingerprint, jobId, h, hne⟩
  | refused x hx => exact absurd (Program.raise.inj hcall) hx

theorem SubmissionStage.phase (h : SubmissionStage sha256 question key w call) :
    call = submit sha256 question key ∨
      call = replayOrConflict key (requestFingerprint sha256 question) ∨
      (∃ job, call = .ret job) ∨ ∃ x, call = .raise x := by
  cases h with
  | begun => exact .inl rfl
  | replaying => exact .inr (.inl rfl)
  | returned job => exact .inr (.inr (.inl ⟨job, rfl⟩))
  | conflicted => exact .inr (.inr (.inr ⟨_, rfl⟩))
  | refused x => exact .inr (.inr (.inr ⟨x, rfl⟩))

/-- What holds of a submission at one of the stages. -/
theorem SubmissionStage.submissionCall {issued : List String} (hsound : w.Sound issued) (hone : OnePerKey w)
    (h : SubmissionStage sha256 question key w call) : SubmissionCall sha256 question key w call where
  phase := h.phase
  returned _ hcall := h.returned_accepted hcall
  conflicted hcall := h.conflict_accepted hcall
  commits e := (h.perform hsound hone e).2
  rollback e x hquestion hcall hinsert := by
    rw [hcall, submit_perform hquestion, hinsert]
    exact ⟨rfl, fun hx => if_neg hx⟩
  replays e fingerprint jobId haccepted he hsha256 hquestion htext hcall := by
    have hinsert := insertJob_of_accepted (requestFingerprint sha256 question) hsound haccepted he
      hquestion htext (hsha256 _)
    rw [hcall, submit_perform hquestion, hinsert]
    exact congrArg _ (if_pos rfl)
  refuses e htext hquestion hcall := by
    obtain ⟨x, hinsert, hconflict, hkey⟩ :=
      insertJob_of_unstorable key (requestFingerprint sha256 question) e w htext
    refine ⟨x, hconflict, ?_⟩
    rw [hcall, submit_perform hquestion, hinsert]
    exact congrArg _ (if_neg hkey)
  answers e fingerprint jobId haccepted hcall := by
    rw [hcall]
    exact replayOrConflict_perform _ e hsound hone haccepted

end Calls

/-- **Submissions are idempotent.**  Whatever the interleaving, there is one job and one created
event for each key; a key that is accepted stays accepted; and each submission answers as its key
and its request tell. -/
theorem submission_idempotency {s : SystemState} (h : system.Reachable s) :
    OnePerKey s.world ∧
      (∀ actions s' key fingerprint jobId, system.Run s actions s' →
        Accepted key fingerprint jobId s.world → Accepted key fingerprint jobId s'.world) ∧
      ∀ name sha256 question key call,
        s.tasks.lookup name = some (.submitting sha256 question key call) →
          SubmissionCall sha256 question key s.world call := by
  refine ⟨onePerKey_of_reachable h, ?_, ?_⟩
  · intro actions s' key fingerprint jobId hrun
    exact accepted_of_run h hrun
  · intro name sha256 question key call hname
    have hstage := submissions_of_reachable h name _ hname
    exact SubmissionStage.submissionCall (systemSound_of_reachable h).world (onePerKey_of_reachable h) hstage

/-! ### One key, and three questions -/

/-- SHA-256 tells the texts of the runs apart; so do their lengths. -/
def lengthDigest (text : String) : String :=
  String.ofList (List.replicate 47 '0' ++ Nat.toDigits 16 (16 ^ 16 + text.utf8ByteSize))

/-- A later submission draws identifiers of its own. -/
def laterSubmissionEnv : Env :=
  { submissionEnv with
    uuid := fun i => if i = 0 then "5a1c0000-0000-4000-8000-000000000003"
      else "5a1c0000-0000-4000-8000-000000000004" }

/-- A first submission is accepted. -/
def firstSubmission : List SystemAction :=
  [.submit "request-1" lengthDigest "why?" "key-1", .act "request-1" submissionEnv]

/-- A submission under the same key inserts, and looks for the job of the key. -/
def laterSubmission (name question : String) : List SystemAction :=
  [.submit name lengthDigest question "key-1", .act name laterSubmissionEnv,
    .act name laterSubmissionEnv]

/-- What a submission has answered. -/
def SystemState.submissionAnswer (s : SystemState) (name : String) :
    Option (Except Exc ResearchJob) :=
  match s.tasks.lookup name with
  | some (.submitting _ _ _ (.ret job)) => some (.ok job)
  | some (.submitting _ _ _ (.raise x)) => some (.error x)
  | _ => none

theorem repeatedSubmissions_replay :
    ((SystemState.replay {} (firstSubmission ++ laterSubmission "request-2" " why?" ++
        laterSubmission "request-3" "why not?")).any fun s =>
      s.world.jobs.entries.any fun entry => decide
        (s.submissionAnswer "request-1" = some (.ok entry.2.toResearchJob) ∧
          s.submissionAnswer "request-2" = some (.ok entry.2.toResearchJob) ∧
          s.submissionAnswer "request-3" = some (.error idempotencyConflict))) = true := by
  decide +kernel

/-- A request is submitted and repeated, and its key is used for another question: the repeated
request returns the job, the other meets the conflict, and there is one job with one created
event. -/
theorem submission_idempotency_repeated :
    ∃ s jobId row, system.Reachable s ∧ OnePerKey s.world ∧ s.world.jobs.lookup jobId = some row ∧
      s.submissionAnswer "request-1" = some (.ok row.toResearchJob) ∧
      s.submissionAnswer "request-2" = some (.ok row.toResearchJob) ∧
      s.submissionAnswer "request-3" = some (.error idempotencyConflict) ∧
      createdEvents s.world jobId = 1 := by
  obtain ⟨s, hreplay, hanswers⟩ := (Option.any_eq_true _ _).1 repeatedSubmissions_replay
  obtain ⟨⟨jobId, row⟩, hentry, hdecided⟩ := List.any_eq_true.1 hanswers
  obtain ⟨hfirst, hsecond, hthird⟩ := of_decide_eq_true hdecided
  have hreach : system.Reachable s := ⟨{}, _, rfl, run_of_replay hreplay⟩
  have hrow : s.world.jobs.lookup jobId = some row := AList.mem_lookup_iff.2 hentry
  obtain ⟨hone, -, -⟩ := submission_idempotency hreach
  exact ⟨s, jobId, row, hreach, hone, hrow, hfirst, hsecond, hthird, hone.created jobId row hrow⟩

/-- A question with a NUL character. -/
def unstorableQuestion : String := "why\x00not?"

theorem refusedSubmission_replay :
    ((SystemState.replay {} (firstSubmission ++
        laterSubmission "request-2" unstorableQuestion)).any fun s =>
      s.world.jobs.entries.any fun entry => decide
        (entry.2.idempotencyKey = some "key-1" ∧
          entry.2.requestFingerprint = some (requestFingerprint lengthDigest "why?") ∧
          s.submissionAnswer "request-2"
            = some (.error (.persistence (.integrity "question text"))))) = true := by
  decide +kernel

/-- **A question with NUL**: under an accepted key, and with another fingerprint, the submission does
not meet the conflict; the database refuses its row. -/
theorem submission_unstorable :
    ∃ s jobId, system.Reachable s ∧
      Accepted "key-1" (requestFingerprint lengthDigest "why?") jobId s.world ∧
      requestFingerprint lengthDigest unstorableQuestion ≠ requestFingerprint lengthDigest "why?" ∧
      s.submissionAnswer "request-2"
        = some (.error (.persistence (.integrity "question text"))) ∧
      Exc.persistence (.integrity "question text") ≠ idempotencyConflict := by
  obtain ⟨s, hreplay, hanswers⟩ := (Option.any_eq_true _ _).1 refusedSubmission_replay
  obtain ⟨⟨jobId, row⟩, hentry, hdecided⟩ := List.any_eq_true.1 hanswers
  obtain ⟨hkey, hfingerprint, hanswer⟩ := of_decide_eq_true hdecided
  exact ⟨s, jobId, ⟨{}, _, rfl, run_of_replay hreplay⟩,
    ⟨row, AList.mem_lookup_iff.2 hentry, hkey, hfingerprint⟩, by decide +kernel, hanswer,
    by decide⟩

end Atlas
