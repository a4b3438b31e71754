/-
**The order of publications.**

Positions are drawn when a row is inserted, and rows are seen when their transactions commit, so a
relay can look past a row that is still open.  If no look finds a row while a smaller position is
open, then the batches leave nothing behind, and the first entries of the broker's log are in the
order of the positions.

Main definitions:

* `Atlas.Precedes`, `Atlas.NoGap` — a smaller position; no look finds a row while a predecessor is
  open;
* `Atlas.RelayState.InSequence` — the invariant;
* `Atlas.OneRun` — a single relay, which begins a run when the last one has ended.

Main results:

* `Atlas.insequence_of_step` — a step without a gap preserves the invariant;
* `Atlas.publication_order` — **without gaps, the first publications are in the order of the
  positions**;
* `Atlas.publication_order_gap` — a run of a single relay in which they are not.
-/

import Atlas.OutboxDelivery

set_option relaxedAutoImplicit false
set_option autoImplicit false

namespace Atlas

open HeadOfLine

/-- A smaller position. -/
def Precedes (a b : EventKey) : Prop := a.2 < b.2

/-- A predecessor that has drawn its position, and whose transaction was not rolled back. -/
def RelayState.PrecedesIn (s : RelayState) (a b : EventKey) : Prop :=
  a ∈ s.drawn.rows.map (·.key) ∧ Precedes a b

/-- The broker has acknowledged the message of a row. -/
def RelayState.Acknowledged (s : RelayState) (a : EventKey) : Prop :=
  ∃ delivery ∈ s.log, delivery.key = a ∧ delivery.acknowledged = true

/-- No look finds a row while the transaction of a predecessor is open. -/
def NoGap (s : RelayState) (action : RelayAction) : Prop :=
  ∀ tx, action = .look tx → ∀ found ∈ (s.lookOf tx).point.pending, ∀ row ∈ s.inserted,
    ¬ Precedes row.key found.key

/-- Marked rows were published, and what is in the log is of committed rows. -/
structure RelayState.Logged (s : RelayState) : Prop where
  marked : ∀ row ∈ s.outbox.rows, row.publishedAt ≠ none → s.Acknowledged row.key
  known : ∀ delivery ∈ s.log, ∃ row ∈ s.outbox.rows, row.key = delivery.key

/-- The batches of claims and runs leave no predecessor behind, and the log has the predecessors of
its messages, in order. -/
structure RelayState.InSequence (s : RelayState) : Prop where
  claims : ∀ tx ∈ s.claims, Covered s.Acknowledged s.PrecedesIn (tx.point.toClaim.map (·.key))
  pending : ∀ tx ∈ s.claims, ∀ peeked ∈ tx.point.pending, ∀ a, s.PrecedesIn a peeked.key →
    s.Acknowledged a ∨ a ∈ tx.point.toClaim.map (·.key)
  runs : ∀ run ∈ s.runs, Covered s.Acknowledged s.PrecedesIn (run.point.todo.map (·.key))
  closed : ∀ delivery ∈ s.log, ∀ a, s.PrecedesIn a delivery.key → s.Acknowledged a
  ordered : InOrder Precedes (s.log.map (·.key))

section Step

variable {s s' : RelayState} {action : RelayAction}

/-! ### The log -/

/-- What the broker acknowledged stays acknowledged. -/
theorem acknowledged_of_step (h : relay.step s action s') {a : EventKey}
    (ha : s.Acknowledged a) : s'.Acknowledged a := by
  obtain ⟨delivery, hdelivery, hacked⟩ := ha
  exact ⟨delivery, log_subset h hdelivery, hacked⟩

/-- A row that is marked was published: the mark is that of the run's record. -/
theorem marked_logged_of_step (hsound : s.Sequenced ∧ s.Sound) (hacked : s.Acked)
    (hs : s.Logged) (h : relay.step s action s') {row' : OutboxRow}
    (hrow' : row' ∈ s'.outbox.rows) (hpublished : row'.publishedAt ≠ none) :
    s'.Acknowledged row'.key := by
  rcases row_before_step h hrow' with ⟨hinserted, -⟩ | ⟨row, hrow, hchange⟩
  · exact absurd (hsound.1.fresh row' hinserted).1 hpublished
  have hkey : row'.key = row.key := by
    obtain ⟨hevent, hposition, -⟩ := hchange.fixed
    rw [OutboxRow.key, OutboxRow.key, hevent, hposition]
  rw [hkey]
  refine acknowledged_of_step h ?_
  cases hchange with
  | same => exact hs.marked row' hrow hpublished
  | claimed tx loaded haction hloaded =>
      rw [(ClaimArgs.flushed_fixed tx.args tx.point.toClaim row).2.2] at hpublished
      exact hs.marked row hrow hpublished
  | released run record time errorClass haction hpoint howns =>
      exact hs.marked row hrow hpublished
  | marked run record rest time haction hpoint howns =>
      subst haction
      obtain ⟨known, hknown, hknownKey⟩ := hsound.2.records run h.1.1 record
        (by rw [hpoint]; exact List.mem_cons_self)
      have hsame : row = known := by
        refine hsound.1.eq_of_event hrow hknown ?_
        rw [(ownsPublishLease_eq_true.1 howns).1]
        exact congrArg DomainEvent.eventId (congrArg Prod.fst hknownKey).symm
      obtain ⟨delivery, hdelivery, hdeliveryKey, -, hack⟩ := hacked run h.1.1 record rest hpoint
      rw [hsame, hknownKey]
      exact ⟨delivery, hdelivery, hdeliveryKey, hack⟩

theorem logged_of_step (hsound : s.Sequenced ∧ s.Sound) (hacked : s.Acked) (hs : s.Logged)
    (h : relay.step s action s') : s'.Logged where
  marked _ hrow hpublished := marked_logged_of_step hsound hacked hs h hrow hpublished
  known := by
    intro delivery hdelivery
    refine key_of_step h ?_
    rcases log_of_step h with hlog | ⟨run, outcome, record, rest, -, hmem, hpoint, hlog⟩
    · rw [hlog] at hdelivery
      exact hs.known delivery hdelivery
    · rw [hlog, List.mem_append, List.mem_singleton] at hdelivery
      rcases hdelivery with hdelivery | rfl
      · exact hs.known delivery hdelivery
      · refine hsound.2.records run hmem record ?_
        rw [hpoint]
        exact List.mem_cons_self

/-- What holds of rows, claims, runs and the log in every reachable state. -/
structure RelayState.Valid (s : RelayState) : Prop where
  sound : s.Sequenced ∧ s.Sound
  acked : s.Acked
  ordered : s.Ordered
  logged : s.Logged

theorem valid_of_step (hs : s.Valid) (h : relay.step s action s') : s'.Valid where
  sound := ⟨sequenced_preserved s action s' hs.sound.1 h, sound_of_step hs.sound.2 hs.sound.1 h⟩
  acked := acked_of_step hs.acked h
  ordered := ordered_of_step hs.ordered hs.sound h
  logged := logged_of_step hs.sound hs.acked hs.logged h

theorem valid_init : ({} : RelayState).Valid where
  sound := sound_of_relay (.of_init rfl)
  acked := (ordered_of_relay (.of_init rfl)).1
  ordered := (ordered_of_relay (.of_init rfl)).2
  logged := by constructor <;> simp

/-! ### Batches without gaps -/

/-- **The predecessors of a committed row are not new ones**: a position that is drawn now is
larger. -/
theorem precedesIn_of_step (hseq : s.Sequenced) (h : relay.step s action s') {a b : EventKey}
    (hb : ∃ row ∈ s.outbox.rows, row.key = b) (ha : s'.PrecedesIn a b) : s.PrecedesIn a b := by
  obtain ⟨hmem, hprecedes⟩ := ha
  refine ⟨?_, hprecedes⟩
  rcases drawn_of_step h with ⟨row, -, hrows, hinserted, -, hposition, -⟩ | ⟨-, -, hkeys⟩
  · have hdrawn : s'.drawn.rows = s.drawn.rows ++ [row] := by
      simp only [RelayState.drawn, hrows, hinserted, List.append_assoc]
    rw [hdrawn, List.map_append, List.mem_append, List.map_singleton, List.mem_singleton] at hmem
    rcases hmem with hmem | rfl
    · exact hmem
    · obtain ⟨known, hknown, rfl⟩ := hb
      have hbelow := hseq.below known (mem_drawn hknown)
      have hlt : row.position < known.position := hprecedes
      omega
  · exact hkeys.subset hmem

/-- A batch of committed rows stays covered. -/
theorem covered_of_step (hseq : s.Sequenced) (h : relay.step s action s') {batch : List EventKey}
    (hknown : ∀ a ∈ batch, ∃ row ∈ s.outbox.rows, row.key = a)
    (hbatch : Covered s.Acknowledged s.PrecedesIn batch) :
    Covered s'.Acknowledged s'.PrecedesIn batch := by
  refine hbatch.mono (fun a ha => acknowledged_of_step h ha) ?_
  intro a ha b hb
  exact .inl (precedesIn_of_step hseq h (hknown a ha) hb)

/-- The rows a claim has locked, and the records of a run, are those of committed rows. -/
theorem toClaim_known (hs : s.Sound) {tx : ClaimTx} (htx : tx ∈ s.claims) :
    ∀ a ∈ tx.point.toClaim.map (·.key), ∃ row ∈ s.outbox.rows, row.key = a := by
  intro a ha
  obtain ⟨loaded, hloaded, rfl⟩ := List.mem_map.1 ha
  exact (hs.instances tx htx loaded (ClaimPoint.mem_instances_of_toClaim hloaded)).2

theorem todo_known (hs : s.Sound) {run : RelayRun} (hrun : run ∈ s.runs) :
    ∀ a ∈ run.point.todo.map (·.key), ∃ row ∈ s.outbox.rows, row.key = a := by
  intro a ha
  obtain ⟨record, hrecord, rfl⟩ := List.mem_map.1 ha
  exact hs.records run hrun record hrecord

/-- A look without a gap finds a row whose predecessors are acknowledged, or in the batch. -/
theorem insequence_of_look (hvalid : s.Valid) (hs : s.InSequence) {tx : ClaimTx}
    (htx : tx ∈ s.claims) (hpending : tx.point.pending = none) {found : OutboxRow}
    (hfound : (tx.point.look tx.args.batchSize s.outbox.rows).pending = some found)
    (hgap : ∀ row ∈ s.inserted, ¬ Precedes row.key found.key) (a : EventKey)
    (ha : s.PrecedesIn a found.key) :
    s.Acknowledged a ∨ a ∈ tx.point.toClaim.map (·.key) := by
  obtain ⟨hmem, hlt⟩ := ha
  obtain ⟨row, hrow, rfl⟩ := List.mem_map.1 hmem
  rcases List.mem_append.1 hrow with hrow | hrow
  · rcases ClaimPoint.look_behind hpending hfound hrow hlt with hdone | ⟨front, last, hbatch, hle⟩
    · exact .inl (hvalid.logged.marked row hrow hdone)
    · have hcovered := hs.claims tx htx
      have hlast : last ∈ tx.point.toClaim := by
        rw [hbatch]
        exact List.mem_append_right _ (List.mem_singleton_self last)
      rcases Nat.lt_or_eq_of_le hle with hbefore | heq
      · -- before the last row of the batch: the batch is covered so far
        rw [hbatch, List.map_append, List.map_singleton] at hcovered ⊢
        rcases hcovered _ last.key [] rfl row.key ⟨hmem, hbefore⟩ with hdone | hin
        · exact .inl hdone
        · exact .inr (List.mem_append_left _ hin)
      · -- the last row itself: a position identifies its row
        obtain ⟨known, hknown, hkey⟩ := toClaim_known hvalid.sound.2 htx last.key
          (List.mem_map_of_mem hlast)
        have hsame : row = known := by
          refine hvalid.sound.1.eq_of_position (mem_drawn hrow) (mem_drawn hknown) ?_
          rw [heq]
          exact (congrArg Prod.snd hkey).symm
        rw [hsame, hkey]
        exact .inr (List.mem_map_of_mem hlast)
  · exact absurd hlt (hgap row hrow)

/-- What a step without a gap makes of one claim transaction. -/
theorem claim_insequence_of_step (hvalid : s.Valid) (hs : s.InSequence)
    (h : relay.step s action s') (hgap : NoGap s action) {tx' : ClaimTx}
    (htx' : tx' ∈ s'.claims) :
    Covered s'.Acknowledged s'.PrecedesIn (tx'.point.toClaim.map (·.key)) ∧
      ∀ peeked ∈ tx'.point.pending, ∀ a, s'.PrecedesIn a peeked.key →
        s'.Acknowledged a ∨ a ∈ tx'.point.toClaim.map (·.key) := by
  have hkeep : ∀ tx ∈ s.claims, tx'.point.toClaim = tx.point.toClaim →
      (∀ peeked ∈ tx'.point.pending, (∃ row ∈ s.outbox.rows, row.key = peeked.key) ∧
        ∀ a, s.PrecedesIn a peeked.key →
          s.Acknowledged a ∨ a ∈ tx.point.toClaim.map (·.key)) →
      Covered s'.Acknowledged s'.PrecedesIn (tx'.point.toClaim.map (·.key)) ∧
        ∀ peeked ∈ tx'.point.pending, ∀ a, s'.PrecedesIn a peeked.key →
          s'.Acknowledged a ∨ a ∈ tx'.point.toClaim.map (·.key) := by
    intro tx htx hbatch hpending
    rw [hbatch]
    refine ⟨covered_of_step hvalid.sound.1 h (toClaim_known hvalid.sound.2 htx)
      (hs.claims tx htx), ?_⟩
    intro peeked hpeeked a ha
    obtain ⟨hknown, hbefore⟩ := hpending peeked hpeeked
    rcases hbefore a (precedesIn_of_step hvalid.sound.1 h hknown ha) with hdone | hin
    · exact .inl (acknowledged_of_step h hdone)
    · exact .inr hin
  have hinstance : ∀ tx ∈ s.claims, ∀ peeked ∈ tx.point.pending,
      ∃ row ∈ s.outbox.rows, row.key = peeked.key := fun tx htx peeked hpeeked =>
    (hvalid.sound.2.instances tx htx peeked (ClaimPoint.mem_instances_of_pending hpeeked)).2
  cases claims_of_step h htx' with
  | kept _ hmem hother =>
      refine hkeep tx' hmem rfl ?_
      intro peeked hpeeked
      exact ⟨hinstance tx' hmem peeked hpeeked, hs.pending tx' hmem peeked hpeeked⟩
  | begun args haction hfresh =>
      refine ⟨Covered.nil, ?_⟩
      intro peeked hpeeked
      cases hpeeked
  | looked tx haction hmem hpending =>
      refine hkeep tx hmem ClaimPoint.look_toClaim ?_
      intro found hfound
      refine ⟨?_, insequence_of_look hvalid hs hmem hpending hfound (hgap tx haction found hfound)⟩
      rcases ClaimPoint.look_pending hpending hfound with ⟨-, hfirst⟩ | ⟨_, -, -, hfirst⟩
      · exact ⟨found, (firstUnpublished_eq_some hfirst).1, rfl⟩
      · exact ⟨found, (firstUnpublished_eq_some hfirst).1, rfl⟩
  | locked tx locked peeked haction hmem hpending hlocked =>
      obtain ⟨hnone, htoClaim⟩ := ClaimPoint.lock_cases hpending tx.args.time locked
      have hno : ∀ row ∈ (tx.point.lock tx.args.time locked).pending,
          (∃ known ∈ s.outbox.rows, known.key = row.key) ∧ ∀ a, s.PrecedesIn a row.key →
            s.Acknowledged a ∨ a ∈ tx.point.toClaim.map (·.key) := by
        rw [hnone]
        intro row hrow
        cases hrow
      rcases htoClaim with htoClaim | ⟨htoClaim, -⟩
      · exact hkeep tx hmem htoClaim hno
      · -- the row that was looked at joins the batch
        have hbatch : Covered s.Acknowledged s.PrecedesIn
            ((tx.point.toClaim ++ [peeked]).map (·.key)) := by
          rw [List.map_append, List.map_singleton]
          exact (hs.claims tx hmem).snoc (hs.pending tx hmem peeked hpending)
        refine ⟨?_, ?_⟩
        · simp only [htoClaim]
          refine covered_of_step hvalid.sound.1 h ?_ hbatch
          intro a ha
          rw [List.map_append, List.mem_append, List.map_singleton, List.mem_singleton] at ha
          rcases ha with ha | rfl
          · exact toClaim_known hvalid.sound.2 hmem a ha
          · exact hinstance tx hmem peeked hpending
        · intro row hrow
          simp only [hnone] at hrow
          cases hrow

/-- A run leaves no predecessor behind: it goes on to the next record only after its message was
acknowledged. -/
theorem run_insequence_of_step (hvalid : s.Valid) (hs : s.InSequence) (h : relay.step s action s')
    {run' : RelayRun} (hrun' : run' ∈ s'.runs) :
    Covered s'.Acknowledged s'.PrecedesIn (run'.point.todo.map (·.key)) := by
  cases runs_of_step h hrun' with
  | kept _ hmem =>
      exact covered_of_step hvalid.sound.1 h (todo_known hvalid.sound.2 hmem) (hs.runs run' hmem)
  | begun tx rows haction hmem hpoint hflush =>
      have htodo : (RelayState.runOf tx).point.todo.map (·.key)
          = tx.point.toClaim.map (·.key) := by
        simp only [RelayState.runOf, RelayPoint.todo, List.map_map]
        rfl
      rw [htodo]
      exact covered_of_step hvalid.sound.1 h (toClaim_known hvalid.sound.2 hmem)
        (hs.claims tx hmem)
  | published run outcome stored record rest haction hmem hpoint hstored =>
      have hbatch := covered_of_step hvalid.sound.1 h (todo_known hvalid.sound.2 hmem)
        (hs.runs run hmem)
      rw [hpoint] at hbatch
      simp only [RelayRun.afterPublish, hpoint]
      split
      · exact hbatch
      · exact Covered.nil
  | marked run time record rest haction hmem hpoint =>
      have hbatch := covered_of_step hvalid.sound.1 h (todo_known hvalid.sound.2 hmem)
        (hs.runs run hmem)
      rw [hpoint] at hbatch
      obtain ⟨delivery, hdelivery, hkey, -, hack⟩ := hvalid.acked run hmem record rest hpoint
      simp only [RelayRun.afterMark, hpoint]
      split
      · exact hbatch.tail (acknowledged_of_step h ⟨delivery, hdelivery, hkey, hack⟩)
      · exact Covered.nil
  | released run time todo outcome haction hmem hpoint =>
      obtain ⟨todo', hreleased⟩ := RelayRun.afterRelease_point hpoint
      rw [hreleased]
      exact Covered.nil

/-- The log keeps its predecessors, and its order: a message is stored when all its predecessors
are acknowledged. -/
theorem log_insequence_of_step (hvalid : s.Valid) (hs : s.InSequence)
    (h : relay.step s action s') :
    (∀ delivery ∈ s'.log, ∀ a, s'.PrecedesIn a delivery.key → s'.Acknowledged a) ∧
      InOrder Precedes (s'.log.map (·.key)) := by
  have hold : ∀ delivery ∈ s.log, ∀ a, s'.PrecedesIn a delivery.key → s'.Acknowledged a := by
    intro delivery hdelivery a ha
    refine acknowledged_of_step h (hs.closed delivery hdelivery a ?_)
    exact precedesIn_of_step hvalid.sound.1 h (hvalid.logged.known delivery hdelivery) ha
  rcases log_of_step h with hlog | ⟨run, outcome, record, rest, -, hmem, hpoint, hlog⟩
  · rw [hlog]
    exact ⟨hold, hs.ordered⟩
  · have hbatch := hs.runs run hmem
    rw [hpoint] at hbatch
    have hknown : ∃ row ∈ s.outbox.rows, row.key = record.key :=
      todo_known hvalid.sound.2 hmem record.key (by rw [hpoint]; exact List.mem_cons_self)
    rw [hlog]
    refine ⟨?_, ?_⟩
    · intro delivery hdelivery a ha
      rcases List.mem_append.1 hdelivery with hdelivery | hnew
      · exact hold delivery hdelivery a ha
      · rw [List.mem_singleton.1 hnew] at ha
        exact acknowledged_of_step h (hbatch.head (precedesIn_of_step hvalid.sound.1 h hknown ha))
    · rw [List.map_append, List.map_singleton]
      refine hs.ordered.snoc ?_
      intro hnew b hb hprecedes
      obtain ⟨delivery, hdelivery, rfl⟩ := List.mem_map.1 hb
      obtain ⟨row, hrow, hkey⟩ := hknown
      have hin : record.key ∈ s.drawn.rows.map (·.key) := by
        rw [← hkey]
        exact List.mem_map_of_mem (mem_drawn hrow)
      obtain ⟨earlier, hearlier, hsame, -⟩ :=
        hs.closed delivery hdelivery record.key ⟨hin, hprecedes⟩
      refine hnew (List.mem_map.2 ⟨earlier, hearlier, hsame⟩)

/-- **A step without a gap keeps batches and log in sequence.** -/
theorem insequence_of_step (hvalid : s.Valid) (hs : s.InSequence) (h : relay.step s action s')
    (hgap : NoGap s action) : s'.InSequence where
  claims _ htx := (claim_insequence_of_step hvalid hs h hgap htx).1
  pending _ htx := (claim_insequence_of_step hvalid hs h hgap htx).2
  runs _ hrun := run_insequence_of_step hvalid hs h hrun
  closed := (log_insequence_of_step hvalid hs h).1
  ordered := (log_insequence_of_step hvalid hs h).2

/-! ### The order of publications -/

/-- **First publications are in the order of the positions.**  In every run in which no look of a
claim finds a row while an open transaction has drawn a smaller position: no message is stored for
the first time after one with a larger position, and when a message is stored, every smaller
position that has been committed is acknowledged. -/
theorem publication_order (h : (relay.restrict fun s action _ => NoGap s action).Reachable s) :
    InOrder Precedes (s.log.map (·.key)) ∧
      ∀ delivery ∈ s.log, ∀ row ∈ s.outbox.rows, row.position < delivery.position →
        s.Acknowledged row.key := by
  have hall : s.Valid ∧ s.InSequence := by
    refine h.invariant (I := fun s => s.Valid ∧ s.InSequence) ?_ ?_
    · rintro s₀ rfl
      refine ⟨valid_init, ?_⟩
      constructor <;> simp [InOrder.nil]
    · rintro s action s' ⟨hvalid, hs⟩ ⟨hstep, hgap⟩
      exact ⟨valid_of_step hvalid hstep, insequence_of_step hvalid hs hstep hgap⟩
  refine ⟨hall.2.ordered, ?_⟩
  intro delivery hdelivery row hrow hlt
  exact hall.2.closed delivery hdelivery row.key ⟨List.mem_map_of_mem (mem_drawn hrow), hlt⟩

end Step

/-! ### Instances -/

/-- A single relay: a run begins when the last one has ended. -/
def OneRun (s : RelayState) (action : RelayAction) : Prop :=
  ∀ args, action = .begin args → s.claims = [] ∧ s.runs = []

instance (s : RelayState) (action : RelayAction) : Decidable (OneRun s action) :=
  match action with
  | .begin args =>
      decidable_of_iff (s.claims = [] ∧ s.runs = []) ⟨fun h _ _ => h, fun h => h args rfl⟩
  | .insert .. | .commit .. | .rollback .. | .look .. | .lock .. | .claim .. | .abort ..
  | .publish .. | .mark .. | .release .. | .crash .. => .isTrue (fun _ h => by cases h)

instance (s : RelayState) (action : RelayAction) : Decidable (NoGap s action) :=
  match action with
  | .look tx =>
      decidable_of_iff (∀ found ∈ (s.lookOf tx).point.pending, ∀ row ∈ s.inserted,
          ¬ row.key.2 < found.key.2)
        ⟨fun h _ htx => RelayAction.look.inj htx ▸ h, fun h => h tx rfl⟩
  | .insert .. | .commit .. | .rollback .. | .begin .. | .lock .. | .claim .. | .abort ..
  | .publish .. | .mark .. | .release .. | .crash .. => .isTrue (fun _ h => by cases h)

/-- A run that claims, publishes and marks one row, from the look for it to the end. -/
def publishOne (args : ClaimArgs) (row : OutboxRow) (visible : List ℕ) (time : Instant) :
    List RelayAction :=
  let run : RelayRun :=
    { claimToken := args.claimantToken, point := .publish [args.record row], visible := visible }
  let marking := run.afterPublish .returned
  [.begin args, .look ⟨args, .headPeek, []⟩, .lock ⟨args, .lockHead row, visible⟩ (some row),
    .look ⟨args, .nextPeek [row], visible⟩, .claim ⟨args, .assign [row], visible⟩,
    .publish run .returned true, .mark marking time, .crash (marking.afterMark true)]

/-- Two transactions insert their events; the second commits and its row is published, and then
the first commits, and its row is published too. -/
def gapRun : List RelayAction :=
  let row := sampleOutboxRow "event-1" 1
  let next := sampleOutboxRow "event-2" 2
  [.insert row.event none, .insert next.event none, .commit next] ++
    publishOne (sampleClaim "first" 10) next [2] 11 ++ [.commit row] ++
    publishOne (sampleClaim "second" 20) row [2, 1] 21

/-- **Commits out of order**: a single relay publishes the second position before the first. -/
theorem publication_order_gap :
    let s := gapRun.foldl RelayState.apply {}
    (relay.restrict fun s action _ => OneRun s action).Reachable s ∧
      s.log.map (·.position) = [2, 1] ∧ ¬ InOrder Precedes (s.log.map (·.key)) := by
  intro s
  refine ⟨RelayState.reachable_of_allowsAll (P := OneRun) (.of_init rfl) (by decide +kernel),
    by decide +kernel, ?_⟩
  intro hordered
  have hlog : s.log.map (·.key) = [(sampleEvent "event-2", 2), (sampleEvent "event-1", 1)] := by
    decide +kernel
  rw [hlog] at hordered
  refine hordered [(sampleEvent "event-2", 2)] (sampleEvent "event-1", 1) [] rfl ?_ _
    (List.mem_singleton_self _) (Nat.lt_succ_self 1)
  decide +kernel

/-- One event is enqueued and published, and then another one. -/
def orderedRun : List RelayAction :=
  let row := sampleOutboxRow "event-1" 1
  let next := sampleOutboxRow "event-2" 2
  [.insert row.event none, .commit row] ++ publishOne (sampleClaim "first" 10) row [1] 11 ++
    [.insert next.event none, .commit next] ++
    publishOne (sampleClaim "second" 20) next [1, 2] 21

/-- With the commits in the order of the positions, so are the publications. -/
theorem publication_order_sequential :
    let s := orderedRun.foldl RelayState.apply {}
    s.log.map (·.position) = [1, 2] ∧ InOrder Precedes (s.log.map (·.key)) := by
  intro s
  have hrun : (relay.restrict fun s action _ => NoGap s action).Reachable s :=
    RelayState.reachable_of_allowsAll (P := NoGap) (.of_init rfl) (by decide +kernel)
  exact ⟨by decide +kernel, (publication_order hrun).1⟩

end Atlas
