/-
**The order of the publications of a job.**

An event is enqueued by the transaction that holds the lock on its job's row, so the transaction of
an event is over when the next event of the job draws its position.  Positions of different jobs may
still be seen late.  A claim looks for one row after the other, each look sees what is committed by
then, and a look behind the last row of the batch does not come back for a row that was seen late:
so a claim of several rows can take an event of a job and leave an earlier one behind.  If no look
finds a row whose job has an earlier event that the first look did not see, then the publications of
each job are in the order of its events.  A claim of one row has only a first look, and the relay's
executable gives its relay a batch size of one.

Main definitions:

* `Atlas.Before` — an earlier event of the same job;
* `Atlas.RowLocked` — an event is enqueued when none of its job is open;
* `Atlas.SeesJob` — a look finds a row whose job was seen;
* `Atlas.SingleRow` — claims of one row.

Main results:

* `Atlas.jobOrdered_of_step` — a step keeps the order of the jobs;
* `Atlas.RelayState.JobOrdered.log_earlier` — the log has the earlier events of a job first;
* `Atlas.job_order` — **the publications of each job are in the order of its events**;
* `Atlas.job_order_single` — **they are with claims of one row**, whatever the looks see;
* `Atlas.job_order_late` — a run of a single relay in which they are not.
-/

import Atlas.PublicationOrder

set_option relaxedAutoImplicit false
set_option autoImplicit false

namespace Atlas

open HeadOfLine

/-- An earlier event of the same job. -/
def Before (a b : EventKey) : Prop := a.1.aggregateId = b.1.aggregateId ∧ a.2 < b.2

instance (a b : EventKey) : Decidable (Before a b) := inferInstanceAs (Decidable (_ ∧ _))

/-- An earlier event of the same job that has drawn its position, and was not rolled back. -/
def RelayState.BeforeIn (s : RelayState) (a b : EventKey) : Prop :=
  a ∈ s.drawn.rows.map (·.key) ∧ Before a b

/-- An event is enqueued under the lock on its job's row: no other event of the job is open. -/
def RowLocked (s : RelayState) (action : RelayAction) : Prop :=
  ∀ event traceparent, action = .insert event traceparent → ∀ row ∈ s.inserted,
    row.event.aggregateId ≠ event.aggregateId

/-- A look finds a row only if the first look of its claim has seen the committed events of its job
before it. -/
def SeesJob (s : RelayState) (action : RelayAction) : Prop :=
  ∀ tx, action = .look tx → ∀ found ∈ (s.lookOf tx).point.pending, ∀ row ∈ s.outbox.rows,
    Before row.key found.key → row.position ∈ (s.lookOf tx).visible

/-- A claim of one row. -/
def SingleRow (_ : RelayState) (action : RelayAction) : Prop :=
  ∀ args, action = .begin args → args.batchSize = 1

/-- The jobs are in order: the events of a job are committed in the order of their positions, an
open event is the newest of its job, claims and runs have seen the earlier events of their rows'
jobs, and the log has them acknowledged, in order. -/
structure RelayState.JobOrdered (s : RelayState) : Prop where
  rows : s.outbox.rows.Pairwise fun row later =>
    row.event.aggregateId = later.event.aggregateId → row.position < later.position
  newest : ∀ row ∈ s.inserted, ∀ other ∈ s.drawn.rows,
    other.event.aggregateId = row.event.aggregateId → other.position ≤ row.position
  claims : ∀ tx ∈ s.claims, ∀ row ∈ tx.point.instances, ∀ a, s.BeforeIn a row.key →
    a.2 ∈ tx.visible
  runs : ∀ run ∈ s.runs, ∀ record ∈ run.point.todo, ∀ a, s.BeforeIn a record.key →
    a.2 ∈ run.visible
  closed : ∀ delivery ∈ s.log, ∀ a, s.BeforeIn a delivery.key → s.Acknowledged a
  ordered : InOrder Before (s.log.map (·.key))

section Step

variable {s s' : RelayState} {action : RelayAction}

/-- The earlier events of a committed one are not new. -/
theorem beforeIn_of_step (hseq : s.Sequenced) (h : relay.step s action s') {a b : EventKey}
    (hb : ∃ row ∈ s.outbox.rows, row.key = b) (ha : s'.BeforeIn a b) : s.BeforeIn a b := by
  obtain ⟨hmem, hjob, hlt⟩ := ha
  exact ⟨(precedesIn_of_step hseq h hb ⟨hmem, hlt⟩).1, hjob, hlt⟩

/-- **An open event is the newest of its job**: it was drawn last, and until it is over no other is
drawn. -/
theorem newest_of_step (hseq : s.Sequenced) (hs : s.JobOrdered) (h : relay.step s action s')
    (hlocked : RowLocked s action) {row other : OutboxRow} (hrow : row ∈ s'.inserted)
    (hother : other ∈ s'.drawn.rows)
    (hjob : other.event.aggregateId = row.event.aggregateId) : other.position ≤ row.position := by
  rcases drawn_of_step h with ⟨new, ⟨traceparent, haction⟩, hrows, hinserted, -, hposition, -⟩ |
    ⟨-, hinserted, hkeys⟩
  · have hdrawn : s'.drawn.rows = s.drawn.rows ++ [new] := by
      simp only [RelayState.drawn, hrows, hinserted, List.append_assoc]
    rw [hdrawn, List.mem_append, List.mem_singleton] at hother
    rw [hinserted, List.mem_append, List.mem_singleton] at hrow
    rcases hother with hother | rfl
    · rcases hrow with hrow | rfl
      · exact hs.newest row hrow other hother hjob
      · have hbelow := hseq.below other hother
        omega
    · rcases hrow with hrow | rfl
      · exact absurd hjob.symm (hlocked other.event traceparent haction row hrow)
      · exact le_refl _
  · have hkey : other.key ∈ s.drawn.rows.map (·.key) :=
      hkeys.subset (List.mem_map_of_mem hother)
    obtain ⟨known, hknown, hsame⟩ := List.mem_map.1 hkey
    have hevent : known.event = other.event := congrArg Prod.fst hsame
    have hposition : known.position = other.position := congrArg Prod.snd hsame
    rw [← hposition]
    exact hs.newest row (hinserted hrow) known hknown (by rw [hevent, hjob])

/-- **The events of a job are committed in the order of their positions.** -/
theorem rows_jobOrdered_of_step (hseq : s.Sequenced) (hs : s.JobOrdered)
    (h : relay.step s action s') : s'.outbox.rows.Pairwise fun row later =>
      row.event.aggregateId = later.event.aggregateId → row.position < later.position := by
  rcases rows_of_step h with ⟨new, hnew, -, hrows⟩ | ⟨change, hrows, hchange⟩
  · rw [hrows, List.pairwise_append]
    refine ⟨hs.rows, List.pairwise_singleton _ _, ?_⟩
    intro row hrow later hlater hjob
    obtain rfl := List.mem_singleton.1 hlater
    have hle := hs.newest later hnew row (mem_drawn hrow) hjob
    have hne : row.position ≠ later.position := by
      -- a committed row is no open one
      have hpositions := hseq.positions
      rw [RelayState.drawn, List.map_append, List.nodup_append] at hpositions
      exact hpositions.2.2 _ (List.mem_map_of_mem hrow) _ (List.mem_map_of_mem hnew)
    omega
  · rw [hrows, List.pairwise_map]
    refine hs.rows.imp_of_mem ?_
    intro row later hrow hlater hlt hjob
    obtain ⟨hevent, hposition, -⟩ := (hchange row hrow).fixed
    obtain ⟨hevent', hposition', -⟩ := (hchange later hlater).fixed
    rw [hevent, hevent'] at hjob
    rw [hposition, hposition']
    exact hlt hjob

/-- A look that sees the job of its row. -/
theorem seen_of_look (hs : s.JobOrdered) {tx : ClaimTx}
    (hsees : SeesJob s (.look tx)) {found : OutboxRow}
    (hfound : found ∈ (s.lookOf tx).point.pending) (hknown : found ∈ s.outbox.rows) {a : EventKey}
    (ha : s.BeforeIn a found.key) : a.2 ∈ (s.lookOf tx).visible := by
  obtain ⟨hmem, hbefore⟩ := ha
  obtain ⟨row, hrow, rfl⟩ := List.mem_map.1 hmem
  rcases List.mem_append.1 hrow with hrow | hrow
  · exact hsees tx rfl found hfound row hrow hbefore
  · -- an open event has no later one
    have hle := hs.newest row hrow found (mem_drawn hknown) hbefore.1.symm
    have hlt : row.position < found.position := hbefore.2
    omega

/-- What a step makes of one claim transaction. -/
theorem claim_jobOrdered_of_step (hvalid : s.Valid) (hs : s.JobOrdered)
    (h : relay.step s action s') (hsees : SeesJob s action) {tx' : ClaimTx}
    (htx' : tx' ∈ s'.claims) {row : OutboxRow} (hrow : row ∈ tx'.point.instances) {a : EventKey}
    (ha : s'.BeforeIn a row.key) : a.2 ∈ tx'.visible := by
  have hkeep : ∀ tx ∈ s.claims, row ∈ tx.point.instances → a.2 ∈ tx.visible := by
    intro tx htx hrow
    have hknown := (hvalid.sound.2.instances tx htx row hrow).2
    exact hs.claims tx htx row hrow a (beforeIn_of_step hvalid.sound.1 h hknown ha)
  cases claims_of_step h htx' with
  | kept _ hmem hother => exact hkeep tx' hmem hrow
  | begun args haction hfresh =>
      rcases List.mem_append.1 hrow with hrow | hrow <;> exact absurd hrow List.not_mem_nil
  | looked tx haction hmem hpending =>
      subst haction
      rcases List.mem_append.1 hrow with hrow | hrow
      · -- a row of the batch was there before, and this is not the first look
        have htoClaim : row ∈ tx.point.toClaim := by
          simpa only [RelayState.lookOf, ClaimPoint.look_toClaim] using hrow
        have hlater : tx.point ≠ .headPeek := by
          intro hhead
          rw [hhead] at htoClaim
          exact absurd htoClaim List.not_mem_nil
        rw [RelayState.lookOf, if_neg hlater]
        exact hkeep tx hmem (ClaimPoint.mem_instances_of_toClaim htoClaim)
      · have hfound := Option.mem_toList.1 hrow
        have hknown : row ∈ s.outbox.rows := by
          rcases ClaimPoint.look_pending hpending hfound with ⟨-, hfirst⟩ | ⟨_, -, -, hfirst⟩
          · exact (firstUnpublished_eq_some hfirst).1
          · exact (firstUnpublished_eq_some hfirst).1
        exact seen_of_look hs hsees hfound hknown
          (beforeIn_of_step hvalid.sound.1 h ⟨row, hknown, rfl⟩ ha)
  | locked tx locked peeked haction hmem hpending hlocked =>
      obtain ⟨hnone, htoClaim⟩ := ClaimPoint.lock_cases hpending tx.args.time locked
      refine hkeep tx hmem ?_
      rcases List.mem_append.1 hrow with hrow | hrow
      · rcases htoClaim with hsame | ⟨hjoined, -⟩
        · simp only [hsame] at hrow
          exact ClaimPoint.mem_instances_of_toClaim hrow
        · simp only [hjoined, List.mem_append, List.mem_singleton] at hrow
          rcases hrow with hrow | rfl
          · exact ClaimPoint.mem_instances_of_toClaim hrow
          · exact ClaimPoint.mem_instances_of_pending hpending
      · simp only [hnone] at hrow
        exact absurd hrow List.not_mem_nil

/-- What a step makes of one run. -/
theorem run_jobOrdered_of_step (hvalid : s.Valid) (hs : s.JobOrdered) (h : relay.step s action s')
    {run' : RelayRun} (hrun' : run' ∈ s'.runs) {record : ClaimedOutboxRecord}
    (hrecord : record ∈ run'.point.todo) {a : EventKey} (ha : s'.BeforeIn a record.key) :
    a.2 ∈ run'.visible := by
  have hkeep : ∀ run ∈ s.runs, record ∈ run.point.todo → a.2 ∈ run.visible := by
    intro run hrun hrecord
    have hknown := hvalid.sound.2.records run hrun record hrecord
    exact hs.runs run hrun record hrecord a (beforeIn_of_step hvalid.sound.1 h hknown ha)
  cases runs_of_step h hrun' with
  | kept _ hmem => exact hkeep run' hmem hrecord
  | begun tx rows haction hmem hpoint hflush =>
      obtain ⟨row, hrow, rfl⟩ := List.mem_map.1 hrecord
      have hinstance := ClaimPoint.mem_instances_of_toClaim hrow
      have hknown := (hvalid.sound.2.instances tx hmem row hinstance).2
      exact hs.claims tx hmem row hinstance a (beforeIn_of_step hvalid.sound.1 h hknown ha)
  | published run outcome stored next rest haction hmem hpoint hstored =>
      have hvisible : (run.afterPublish outcome).visible = run.visible :=
        (run.afterPublish_fixed outcome).2
      rw [hvisible]
      refine hkeep run hmem ?_
      simp only [RelayRun.afterPublish, hpoint] at hrecord
      split at hrecord
      · rw [hpoint]
        exact hrecord
      · exact absurd hrecord List.not_mem_nil
  | marked run time next rest haction hmem hpoint =>
      rw [(run.afterMark_fixed _).2]
      refine hkeep run hmem ?_
      rw [hpoint]
      simp only [RelayRun.afterMark, hpoint] at hrecord
      split at hrecord
      · exact List.mem_cons_of_mem next hrecord
      · exact absurd hrecord List.not_mem_nil
  | released run time todo outcome haction hmem hpoint =>
      obtain ⟨todo', hreleased⟩ := RelayRun.afterRelease_point hpoint
      rw [hreleased] at hrecord
      exact absurd hrecord List.not_mem_nil

/-- The earlier events of a run's next record are acknowledged: the run has seen them, and leaves
nothing of what it has seen behind. -/
theorem acknowledged_of_next (hvalid : s.Valid) (hs : s.JobOrdered) {run : RelayRun}
    (hrun : run ∈ s.runs) {record : ClaimedOutboxRecord} {rest : List ClaimedOutboxRecord}
    (hpoint : run.point = .publish (record :: rest)) {a : EventKey}
    (ha : s.BeforeIn a record.key) : s.Acknowledged a := by
  have hseen : a.2 ∈ run.visible := by
    refine hs.runs run hrun record ?_ a ha
    rw [hpoint]
    exact List.mem_cons_self
  have hbatch := hvalid.ordered.runs run hrun
  rw [hpoint] at hbatch
  obtain ⟨row, hrow, hposition, hpublished⟩ := hbatch.head ⟨hseen, ha.2.2⟩
  obtain ⟨known, hknown, rfl⟩ := List.mem_map.1 ha.1
  have hsame : row = known :=
    hvalid.sound.1.eq_of_position (mem_drawn hrow) hknown hposition
  rw [← hsame]
  exact hvalid.logged.marked row hrow hpublished

/-- The log keeps the earlier events of its messages, and their order. -/
theorem log_jobOrdered_of_step (hvalid : s.Valid) (hs : s.JobOrdered) (h : relay.step s action s') :
    (∀ delivery ∈ s'.log, ∀ a, s'.BeforeIn a delivery.key → s'.Acknowledged a) ∧
      InOrder Before (s'.log.map (·.key)) := by
  have hold : ∀ delivery ∈ s.log, ∀ a, s'.BeforeIn a delivery.key → s'.Acknowledged a := by
    intro delivery hdelivery a ha
    refine acknowledged_of_step h (hs.closed delivery hdelivery a ?_)
    exact beforeIn_of_step hvalid.sound.1 h (hvalid.logged.known delivery hdelivery) ha
  rcases log_of_step h with hlog | ⟨run, outcome, record, rest, -, hmem, hpoint, hlog⟩
  · rw [hlog]
    exact ⟨hold, hs.ordered⟩
  · have hknown : ∃ row ∈ s.outbox.rows, row.key = record.key :=
      todo_known hvalid.sound.2 hmem record.key (by rw [hpoint]; exact List.mem_cons_self)
    rw [hlog]
    refine ⟨?_, ?_⟩
    · intro delivery hdelivery a ha
      rcases List.mem_append.1 hdelivery with hdelivery | hnew
      · exact hold delivery hdelivery a ha
      · rw [List.mem_singleton.1 hnew] at ha
        exact acknowledged_of_step h (acknowledged_of_next hvalid hs hmem hpoint
          (beforeIn_of_step hvalid.sound.1 h hknown ha))
    · rw [List.map_append, List.map_singleton]
      refine hs.ordered.snoc ?_
      intro hnew b hb hbefore
      obtain ⟨delivery, hdelivery, rfl⟩ := List.mem_map.1 hb
      obtain ⟨row, hrow, hkey⟩ := hknown
      have hin : record.key ∈ s.drawn.rows.map (·.key) := by
        rw [← hkey]
        exact List.mem_map_of_mem (mem_drawn hrow)
      obtain ⟨earlier, hearlier, hsame, -⟩ :=
        hs.closed delivery hdelivery record.key ⟨hin, hbefore⟩
      refine hnew (List.mem_map.2 ⟨earlier, hearlier, hsame⟩)

/-- **A step that sees the jobs of its rows keeps their order.** -/
theorem jobOrdered_of_step (hvalid : s.Valid) (hs : s.JobOrdered) (h : relay.step s action s')
    (hlocked : RowLocked s action) (hsees : SeesJob s action) : s'.JobOrdered where
  rows := rows_jobOrdered_of_step hvalid.sound.1 hs h
  newest _ hrow _ hother hjob := newest_of_step hvalid.sound.1 hs h hlocked hrow hother hjob
  claims _ htx _ hrow _ ha := claim_jobOrdered_of_step hvalid hs h hsees htx hrow ha
  runs _ hrun _ hrecord _ ha := run_jobOrdered_of_step hvalid hs h hrun hrecord ha
  closed := (log_jobOrdered_of_step hvalid hs h).1
  ordered := (log_jobOrdered_of_step hvalid hs h).2

/-! ### Claims of one row -/

/-- Claims of one row that have nothing of it behind them to look for the next. -/
def RelayState.Narrow (s : RelayState) : Prop :=
  ∀ tx ∈ s.claims, tx.args.batchSize = 1 ∧ tx.point ≠ .nextPeek []

/-- A lock adds the row to the batch, or ends the claim. -/
theorem ClaimPoint.lock_ne_nextPeek_nil {point : ClaimPoint} {peeked : OutboxRow}
    (hpending : point.pending = some peeked) (time : Instant) (locked : Option OutboxRow) :
    point.lock time locked ≠ .nextPeek [] := by
  intro hnone
  cases point with
  | lockHead head =>
      cases locked with
      | none => cases hnone
      | some committed =>
          simp only [lock] at hnone
          split at hnone
          · cases hnone
          · split at hnone <;> cases hnone
  | lockNext toClaim next =>
      cases locked with
      | none => cases hnone
      | some committed =>
          simp only [lock] at hnone
          split at hnone
          · cases hnone
          · split at hnone
            · cases hnone
            · rw [nextPeek.injEq] at hnone
              exact List.append_ne_nil_of_right_ne_nil _ (List.cons_ne_nil _ _) hnone
  | headPeek => cases hpending
  | nextPeek toClaim => cases hpending
  | assign toClaim => cases hpending
  | returned => cases hpending

/-- Claims of one row stay so: a claim looks for a next row only after it has locked one. -/
theorem narrow_of_step (hs : s.Narrow) (h : relay.step s action s') (hsingle : SingleRow s action) :
    s'.Narrow := by
  intro tx' htx'
  cases claims_of_step h htx' with
  | kept _ hmem hother => exact hs tx' hmem
  | begun args haction hfresh => exact ⟨hsingle args haction, by simp⟩
  | looked tx haction hmem hpending =>
      refine ⟨(hs tx hmem).1, fun hnone => (hs tx hmem).2 ?_⟩
      simp only [RelayState.lookOf] at hnone
      cases hpoint : tx.point with
      | headPeek =>
          rw [hpoint, ClaimPoint.look] at hnone
          split at hnone <;> cases hnone
      | nextPeek toClaim =>
          rw [hpoint, ClaimPoint.look] at hnone
          split at hnone
          · split at hnone <;> cases hnone
          · cases hnone
      | lockHead peeked => rw [hpoint] at hpending; cases hpending
      | lockNext toClaim peeked => rw [hpoint] at hpending; cases hpending
      | assign toClaim => rw [hpoint] at hnone; cases hnone
      | returned => rw [hpoint] at hnone; cases hnone
  | locked tx locked peeked haction hmem hpending hlocked =>
      exact ⟨(hs tx hmem).1, ClaimPoint.lock_ne_nextPeek_nil hpending tx.args.time locked⟩

/-- **The only look of a claim of one row is its first**, which sees every committed event. -/
theorem seesJob_of_narrow (hs : s.Narrow) (h : relay.step s action s') : SeesJob s action := by
  rintro tx rfl found hfound row hrow -
  obtain ⟨hmem, hpending⟩ := h.1
  obtain ⟨hsingle, hnonempty⟩ := hs tx hmem
  rcases ClaimPoint.look_pending hpending hfound with ⟨hhead, -⟩ | ⟨toClaim, hnext, hlt, -⟩
  · rw [RelayState.lookOf, if_pos hhead]
    exact List.mem_map_of_mem hrow
  · have hempty : toClaim = [] := by
      rw [hsingle, Nat.lt_one_iff] at hlt
      exact List.eq_nil_of_length_eq_zero hlt
    rw [hempty] at hnext
    exact absurd hnext hnonempty

/-! ### The order of publications -/

theorem jobOrdered_of_reachable
    (h : (relay.restrict fun s action _ => RowLocked s action ∧ SeesJob s action).Reachable s) :
    s.Valid ∧ s.JobOrdered := by
  refine h.invariant (I := fun s => s.Valid ∧ s.JobOrdered) ?_ ?_
  · rintro s₀ rfl
    refine ⟨valid_init, ?_⟩
    constructor <;> simp [InOrder.nil]
  · rintro s action s' ⟨hvalid, hs⟩ ⟨hstep, hlocked, hsees⟩
    exact ⟨valid_of_step hvalid hstep, jobOrdered_of_step hvalid hs hstep hlocked hsees⟩

theorem jobOrdered_of_single
    (h : (relay.restrict fun s action _ => RowLocked s action ∧ SingleRow s action).Reachable s) :
    s.Valid ∧ s.JobOrdered := by
  have hall : (s.Valid ∧ s.JobOrdered) ∧ s.Narrow := by
    refine h.invariant (I := fun s => (s.Valid ∧ s.JobOrdered) ∧ s.Narrow) ?_ ?_
    · rintro s₀ rfl
      refine ⟨⟨valid_init, ?_⟩, ?_⟩
      · constructor <;> simp [InOrder.nil]
      · intro tx htx
        cases htx
    · rintro s action s' ⟨⟨hvalid, hs⟩, hnarrow⟩ ⟨hstep, hlocked, hsingle⟩
      have hsees := seesJob_of_narrow hnarrow hstep
      exact ⟨⟨valid_of_step hvalid hstep, jobOrdered_of_step hvalid hs hstep hlocked hsees⟩,
        narrow_of_step hnarrow hstep hsingle⟩
  exact hall.1

/-- **The earlier events of a message's job are found before it in the log.** -/
theorem RelayState.JobOrdered.log_earlier (hs : s.JobOrdered) {offset : ℕ} {delivery : Delivery}
    (hdelivery : s.log[offset]? = some delivery) {row : OutboxRow} (hrow : row ∈ s.outbox.rows)
    (hbefore : Before row.key delivery.key) :
    ∃ earlier < offset, ∃ other, s.log[earlier]? = some other ∧ other.key = row.key := by
  obtain ⟨stored, hstored, hkey, -⟩ := hs.closed delivery (List.mem_of_getElem? hdelivery) row.key
    ⟨List.mem_map_of_mem (mem_drawn hrow), hbefore⟩
  have hin : row.key ∈ s.log.map (·.key) := List.mem_map.2 ⟨stored, hstored, hkey⟩
  have hne : row.key ≠ delivery.key := by
    intro heq
    have hlt := hbefore.2
    rw [heq] at hlt
    exact lt_irrefl _ hlt
  have hat : (s.log.map (·.key))[offset]? = some delivery.key := by
    rw [List.getElem?_map, hdelivery, Option.map_some]
  obtain ⟨earlier, hlt, hearlier⟩ := hs.ordered.earlier hat hin hne hbefore
  rw [List.getElem?_map, Option.map_eq_some_iff] at hearlier
  obtain ⟨other, hother, hsame⟩ := hearlier
  exact ⟨earlier, hlt, other, hother, hsame⟩

/-- What the order of the jobs says of the log. -/
theorem RelayState.JobOrdered.log_order (hs : s.JobOrdered) :
    InOrder Before (s.log.map (·.key)) ∧
      ∀ delivery ∈ s.log, ∀ row ∈ s.outbox.rows, Before row.key delivery.key →
        s.Acknowledged row.key := by
  refine ⟨hs.ordered, fun delivery hdelivery row hrow hbefore => ?_⟩
  exact hs.closed delivery hdelivery row.key ⟨List.mem_map_of_mem (mem_drawn hrow), hbefore⟩

/-- **The first publications of each job are in the order of its events.**  In every run in which
events are enqueued under the locks of their jobs, and every look finds a row whose job's earlier
events the first look of its claim has seen: no event is stored for the first time after a later one
of its job, and when one is stored, every earlier event of its job is acknowledged. -/
theorem job_order
    (h : (relay.restrict fun s action _ => RowLocked s action ∧ SeesJob s action).Reachable s) :
    InOrder Before (s.log.map (·.key)) ∧
      ∀ delivery ∈ s.log, ∀ row ∈ s.outbox.rows, Before row.key delivery.key →
        s.Acknowledged row.key :=
  (jobOrdered_of_reachable h).2.log_order

/-- **The first publications of each job are in the order of its events, with claims of one row**:
however many relays there are, and whatever is open when they look. -/
theorem job_order_single
    (h : (relay.restrict fun s action _ => RowLocked s action ∧ SingleRow s action).Reachable s) :
    InOrder Before (s.log.map (·.key)) ∧
      ∀ delivery ∈ s.log, ∀ row ∈ s.outbox.rows, Before row.key delivery.key →
        s.Acknowledged row.key :=
  (jobOrdered_of_single h).2.log_order

end Step

/-! ### Instances -/

instance (s : RelayState) (action : RelayAction) : Decidable (RowLocked s action) :=
  match action with
  | .insert event traceparent =>
      decidable_of_iff (∀ row ∈ s.inserted, row.event.aggregateId ≠ event.aggregateId)
        ⟨fun h _ _ heq => (RelayAction.insert.inj heq).1 ▸ h, fun h => h event traceparent rfl⟩
  | .commit .. | .rollback .. | .begin .. | .look .. | .lock .. | .claim .. | .abort ..
  | .publish .. | .mark .. | .release .. | .crash .. => .isTrue (fun _ _ h => by cases h)

instance (s : RelayState) (action : RelayAction) : Decidable (SeesJob s action) :=
  match action with
  | .look tx =>
      decidable_of_iff (∀ found ∈ (s.lookOf tx).point.pending, ∀ row ∈ s.outbox.rows,
          Before row.key found.key → row.position ∈ (s.lookOf tx).visible)
        ⟨fun h _ htx => RelayAction.look.inj htx ▸ h, fun h => h tx rfl⟩
  | .insert .. | .commit .. | .rollback .. | .begin .. | .lock .. | .claim .. | .abort ..
  | .publish .. | .mark .. | .release .. | .crash .. => .isTrue (fun _ h => by cases h)

instance (s : RelayState) (action : RelayAction) : Decidable (SingleRow s action) :=
  match action with
  | .begin args =>
      decidable_of_iff (args.batchSize = 1)
        ⟨fun h _ heq => RelayAction.begin.inj heq ▸ h, fun h => h args rfl⟩
  | .insert .. | .commit .. | .rollback .. | .look .. | .lock .. | .claim .. | .abort ..
  | .publish .. | .mark .. | .release .. | .crash .. => .isTrue (fun _ h => by cases h)

/-- The events of a job are published one after the other. -/
theorem job_order_sequential :
    let s := orderedRun.foldl RelayState.apply {}
    s.log.map (·.position) = [1, 2] ∧ InOrder Before (s.log.map (·.key)) := by
  intro s
  have hrun :
      (relay.restrict fun s action _ => RowLocked s action ∧ SeesJob s action).Reachable s :=
    RelayState.reachable_of_allowsAll (P := fun s action => RowLocked s action ∧ SeesJob s action)
      (.of_init rfl) (by decide)
  exact ⟨by decide, (job_order hrun).1⟩

/-- They are with claims of one row. -/
theorem job_order_single_sequential :
    let s := orderedRun.foldl RelayState.apply {}
    s.log.map (·.position) = [1, 2] ∧ InOrder Before (s.log.map (·.key)) := by
  intro s
  have hrun :
      (relay.restrict fun s action _ => RowLocked s action ∧ SingleRow s action).Reachable s :=
    RelayState.reachable_of_allowsAll (P := fun s action => RowLocked s action ∧ SingleRow s action)
      (.of_init rfl) (by decide)
  exact ⟨by decide, (job_order_single hrun).1⟩

/-- An event of another job. -/
def otherEvent : DomainEvent where
  eventId := "event-2"
  aggregateId := "job-2"
  occurredAt := 0
  payload := .created
  valid := ⟨by decide, trivial⟩

/-- A claim of two rows takes the event of another job, and before it looks again, an event of a job
is committed late and the next one of its job after it. -/
def lateRun : List RelayAction :=
  let late := sampleOutboxRow "event-1" 1
  let other : OutboxRow := { event := otherEvent, position := 2, createdAt := 0 }
  let next := sampleOutboxRow "event-3" 3
  let args : ClaimArgs := { sampleClaim "first" 10 with batchSize := 2, batchSize_pos := by decide }
  let run : RelayRun :=
    { claimToken := "first", point := .publish [args.record other, args.record next]
      visible := [2] }
  let marked := (run.afterPublish .returned).afterMark true
  [.insert late.event none, .insert other.event none, .commit other,
    .begin args, .look ⟨args, .headPeek, []⟩, .lock ⟨args, .lockHead other, [2]⟩ (some other),
    .commit late, .insert next.event none, .commit next,
    .look ⟨args, .nextPeek [other], [2]⟩, .lock ⟨args, .lockNext [other] next, [2]⟩ (some next),
    .look ⟨args, .nextPeek [other, next], [2]⟩, .claim ⟨args, .assign [other, next], [2]⟩,
    .publish run .returned true, .mark (run.afterPublish .returned) 11,
    .publish marked .returned true, .mark (marked.afterPublish .returned) 12,
    .crash ((marked.afterPublish .returned).afterMark true)] ++
    publishOne (sampleClaim "second" 20) late [2, 1, 3] 21

/-- **Locks on the jobs do not suffice**: a single relay publishes the second event of a job before
its first. -/
theorem job_order_late :
    let s := lateRun.foldl RelayState.apply {}
    (relay.restrict fun s action _ => OneRun s action ∧ RowLocked s action).Reachable s ∧
      s.log.map (·.position) = [2, 3, 1] ∧ ¬ InOrder Before (s.log.map (·.key)) := by
  intro s
  refine ⟨RelayState.reachable_of_allowsAll
    (P := fun s action => OneRun s action ∧ RowLocked s action) (.of_init rfl) (by decide),
    by decide, ?_⟩
  intro hordered
  have hlog : s.log.map (·.key) =
      [(otherEvent, 2), (sampleEvent "event-3", 3), (sampleEvent "event-1", 1)] := by
    decide
  rw [hlog] at hordered
  refine hordered [(otherEvent, 2), (sampleEvent "event-3", 3)] (sampleEvent "event-1", 1) [] rfl
    (by decide) (sampleEvent "event-3", 3) (by simp) ⟨rfl, by decide⟩

end Atlas
