/-
**What a claim could see when it took a row.**

`claim_batch` looks for a row without a lock, and takes it in a statement of its own.  An event with
a smaller position may be committed between the first look of a claim and the statement that takes a
row: it is visible by then, and the claim leaves it behind.  So the order of delivery holds of what
the first look has seen, and of what was visible when the row was taken only in the runs in which
no such event is committed in between.

Main definitions:

* `Atlas.TakesSeen` — a row is taken only if the first look has seen what is not published before
  it;
* `Atlas.RelayState.Recorded` — claims and runs have the takings of their rows;
* `Atlas.RelayState.Foreseen` — they have seen, or others have published, what was visible before
  the rows they took.

Main results:

* `Atlas.takings_of_relay` — takings are recorded in every reachable state;
* `Atlas.relay_delivery_seen` — **what was visible when a row was taken is published before it**,
  where claims take what was seen;
* `Atlas.relay_delivery_late` — a single relay, and an event that is committed late.
-/

import Atlas.PublicationOrder

set_option relaxedAutoImplicit false
set_option autoImplicit false

namespace Atlas

/-- A locking query takes a row only if every committed position before it that is not published was
seen by the first look of its claim. -/
def TakesSeen (s : RelayState) (action : RelayAction) : Prop :=
  ∀ tx committed, action = .lock tx (some committed) → ∀ row ∈ s.outbox.rows,
    row.position < committed.position → row.publishedAt = none → row.position ∈ tx.visible

/-- The row at a position was taken under a token. -/
def RelayState.Took (s : RelayState) (claimToken : String) (position : ℕ) : Prop :=
  ∃ taking ∈ s.taken, taking.claimToken = claimToken ∧ taking.position = position

/-- The rows of claims and runs were taken under their tokens; a run has another token than the
claims under way, and nothing was taken under the token of a claim without rows. -/
structure RelayState.Recorded (s : RelayState) : Prop where
  issued : ∀ taking ∈ s.taken, taking.claimToken ∈ s.issued
  drawn : ∀ run ∈ s.runs, run.claimToken ∈ s.issued
  apart : ∀ run ∈ s.runs, ∀ tx ∈ s.claims, run.claimToken ≠ tx.args.claimantToken
  claims : ∀ tx ∈ s.claims, ∀ row ∈ tx.point.toClaim, s.Took tx.args.claimantToken row.position
  runs : ∀ run ∈ s.runs, ∀ record ∈ run.point.todo, s.Took run.claimToken record.outboxPosition
  none : ∀ tx ∈ s.claims, tx.point.toClaim = [] → ∀ taking ∈ s.taken,
    taking.claimToken ≠ tx.args.claimantToken

/-- What was visible before a row when it was taken under the token. -/
def RelayState.Behind (s : RelayState) (claimToken : String) (p : ℕ) : Prop :=
  ∃ taking ∈ s.taken, taking.claimToken = claimToken ∧ p ∈ taking.visible ∧ p < taking.position

/-- Claims and runs have seen at first what was visible when they took their rows, or it is
published. -/
structure RelayState.Foreseen (s : RelayState) : Prop where
  claims : ∀ tx ∈ s.claims, ∀ p, s.Behind tx.args.claimantToken p →
    p ∈ tx.visible ∨ s.Published p
  runs : ∀ run ∈ s.runs, ∀ p, s.Behind run.claimToken p → p ∈ run.visible ∨ s.Published p

section Step

variable {s s' : RelayState} {action : RelayAction}

/-! ### Takings -/

/-- What a locking query takes: nothing, or the row it was made for. -/
theorem takings_cases {tx : ClaimTx} {peeked : OutboxRow}
    (hpending : tx.point.pending = some peeked) (locked : Option OutboxRow) :
    ((tx.point.lock tx.args.time locked).toClaim = tx.point.toClaim ∧ s.takings tx locked = []) ∨
      (locked.isSome ∧ (tx.point.lock tx.args.time locked).toClaim = tx.point.toClaim ++ [peeked] ∧
        s.takings tx locked = [⟨tx.args.claimantToken, peeked.position,
          s.outbox.rows.map (·.position)⟩]) := by
  rcases (ClaimPoint.lock_cases hpending tx.args.time locked).2 with hsame | ⟨hjoined, hlocked, -⟩
  · exact .inl ⟨hsame, by simp [RelayState.takings, hsame]⟩
  · exact .inr ⟨hlocked, hjoined, by simp [RelayState.takings, hjoined]⟩

/-- **Only a locking query takes a row**, and the row is the last of its claim then. -/
theorem taken_of_step (h : relay.step s action s') :
    s'.taken = s.taken ∨ ∃ tx committed peeked, action = .lock tx (some committed) ∧
      tx ∈ s.claims ∧ tx.point.pending = some peeked ∧ committed ∈ s.outbox.rows ∧
      committed.event.eventId = peeked.event.eventId ∧
      (tx.point.lock tx.args.time (some committed)).toClaim = tx.point.toClaim ++ [peeked] ∧
      s'.taken = s.taken ++ [⟨tx.args.claimantToken, peeked.position,
        s.outbox.rows.map (·.position)⟩] := by
  obtain ⟨hallows, rfl⟩ := h
  cases action with
  | lock tx locked =>
      obtain ⟨hmem, peeked, hpending, hrow⟩ := hallows
      rcases takings_cases (s := s) hpending locked with ⟨-, hnone⟩ | ⟨hlocked, hjoined, hone⟩
      · left
        rw [RelayState.apply, hnone, List.append_nil]
      · obtain ⟨committed, rfl⟩ := Option.isSome_iff_exists.1 hlocked
        obtain ⟨hcommitted, hevent, -⟩ := hrow committed rfl
        refine .inr ⟨tx, committed, peeked, rfl, hmem, hpending, hcommitted, hevent, hjoined, ?_⟩
        rw [RelayState.apply, hone]
  | insert event traceparent =>
      simp only [RelayState.apply]
      split <;> exact .inl rfl
  | claim tx =>
      simp only [RelayState.apply]
      split <;> exact .inl rfl
  | mark run time =>
      obtain ⟨-, record, rest, hpoint, -⟩ := hallows
      left
      simp only [RelayState.apply, hpoint]
  | release run time =>
      obtain ⟨-, record, errorClass, rest, outcome, hpoint, -⟩ := hallows
      left
      simp only [RelayState.apply, hpoint]
  | _ => exact .inl rfl

/-- A taking stays. -/
theorem took_of_step (h : relay.step s action s') {claimToken : String} {position : ℕ}
    (htook : s.Took claimToken position) : s'.Took claimToken position := by
  obtain ⟨taking, hmem, hsame⟩ := htook
  refine ⟨taking, ?_, hsame⟩
  rcases taken_of_step h with heq | ⟨_, _, _, -, -, -, -, -, -, heq⟩
  · rw [heq]
    exact hmem
  · rw [heq]
    exact List.mem_append_left _ hmem

/-- A claim under way with the token of a locking query is that of the query. -/
theorem eq_locked_of_token (hs' : s'.Sound) (h : relay.step s action s') {tx tx' : ClaimTx}
    {locked : Option OutboxRow} (haction : action = .lock tx locked) (htx' : tx' ∈ s'.claims)
    (htoken : tx'.args.claimantToken = tx.args.claimantToken) :
    tx' = { tx with point := tx.point.lock tx.args.time locked } := by
  subst haction
  have hlocked : { tx with point := tx.point.lock tx.args.time locked } ∈ s'.claims := by
    rw [h.2]
    exact List.mem_cons_self
  exact List.inj_on_of_nodup_map hs'.tokens htx' hlocked htoken

/-- A claim under way that does not begin was under way before, with the same arguments; what it
could see at first is the same once it has rows. -/
theorem claim_before_step (h : relay.step s action s') {tx' : ClaimTx} (htx' : tx' ∈ s'.claims) :
    (∃ args, action = .begin args ∧ args.claimantToken ∉ s.issued ∧ tx' = ⟨args, .headPeek, []⟩) ∨
      ∃ tx ∈ s.claims, tx'.args = tx.args ∧
        (tx.point.toClaim = [] ∧ tx'.point.toClaim = [] ∨ tx'.visible = tx.visible) ∧
        ((∃ locked, action = .lock tx locked) ∨ tx'.point.toClaim = tx.point.toClaim) := by
  cases claims_of_step h htx' with
  | kept _ hmem hother => exact .inr ⟨tx', hmem, rfl, .inr rfl, .inr rfl⟩
  | begun args haction hfresh => exact .inl ⟨args, haction, hfresh, rfl⟩
  | looked tx haction hmem hpending =>
      have htoClaim : (s.lookOf tx).point.toClaim = tx.point.toClaim := ClaimPoint.look_toClaim
      refine .inr ⟨tx, hmem, rfl, ?_, .inr htoClaim⟩
      by_cases hhead : tx.point = .headPeek
      · left
        rw [htoClaim, hhead]
        exact ⟨rfl, rfl⟩
      · exact .inr (if_neg hhead)
  | locked tx locked peeked haction hmem hpending hlocked =>
      exact .inr ⟨tx, hmem, rfl, .inr rfl, .inl ⟨locked, haction⟩⟩

/-- A run was under way before, with no other records to publish, or is that of a claim that
commits. -/
theorem run_before_step (h : relay.step s action s') {run' : RelayRun} (hrun' : run' ∈ s'.runs) :
    (∃ tx ∈ s.claims, action = .claim tx ∧ run' = RelayState.runOf tx) ∨
      ∃ run ∈ s.runs, run'.claimToken = run.claimToken ∧ run'.visible = run.visible ∧
        run'.point.todo ⊆ run.point.todo := by
  cases runs_of_step h hrun' with
  | kept _ hmem => exact .inr ⟨run', hmem, rfl, rfl, List.Subset.refl _⟩
  | begun tx rows haction hmem hpoint hflush => exact .inl ⟨tx, hmem, haction, rfl⟩
  | published run outcome stored record rest haction hmem hpoint hstored =>
      obtain ⟨htoken, hvisible⟩ := run.afterPublish_fixed outcome
      refine .inr ⟨run, hmem, htoken, hvisible, ?_⟩
      simp only [RelayRun.afterPublish, hpoint]
      split
      · exact List.Subset.refl _
      · exact List.nil_subset _
  | marked run time record rest haction hmem hpoint =>
      obtain ⟨htoken, hvisible⟩ := run.afterMark_fixed
        (markPublished s.outbox.rows record.event.eventId run.claimToken time).2
      refine .inr ⟨run, hmem, htoken, hvisible, ?_⟩
      simp only [RelayRun.afterMark, hpoint]
      split
      · exact List.subset_cons_self _ _
      · exact List.nil_subset _
  | released run time todo outcome haction hmem hpoint =>
      obtain ⟨todo', hreleased⟩ := RelayRun.afterRelease_point hpoint
      refine .inr ⟨run, hmem, ?_, ?_, ?_⟩
      · rw [RelayRun.afterRelease]
        split <;> rfl
      · rw [RelayRun.afterRelease]
        split <;> rfl
      · rw [hreleased]
        exact List.nil_subset _

/-! ### What is recorded -/

/-- The tokens of runs differ from those of claims. -/
theorem apart_of_step (hsound : s.Sound) (hs : s.Recorded) (h : relay.step s action s') :
    (∀ run ∈ s'.runs, run.claimToken ∈ s.issued) ∧
      ∀ run ∈ s'.runs, ∀ tx ∈ s'.claims, run.claimToken ≠ tx.args.claimantToken := by
  have hissued : ∀ run ∈ s'.runs, run.claimToken ∈ s.issued := by
    intro run' hrun'
    rcases run_before_step h hrun' with ⟨tx, htx, -, rfl⟩ | ⟨run, hrun, htoken, -, -⟩
    · exact hsound.drawn tx htx
    · rw [htoken]
      exact hs.drawn run hrun
  refine ⟨hissued, fun run' hrun' tx' htx' hsame => ?_⟩
  rcases claim_before_step h htx' with ⟨args, -, hfresh, rfl⟩ | ⟨tx, htx, hargs, -, -⟩
  · exact hfresh (hsame ▸ hissued run' hrun')
  · rcases run_before_step h hrun' with ⟨ended, hended, rfl, rfl⟩ | ⟨run, hrun, htoken, -, -⟩
    · -- the claim that commits is under way no more
      have hkept : tx' ∈ s.claims.erase ended := by
        cases claims_of_step h htx' with
        | kept _ hmem hother => exact hother ended (.inl rfl)
        | begun args haction hfresh => cases haction
        | looked tx haction hmem hpending => cases haction
        | locked tx locked peeked haction hmem hpending hlocked => cases haction
      exact (hsound.other hended hkept).2 hsame.symm
    · exact hs.apart run hrun tx htx (by rw [← htoken, hsame, hargs])

theorem takings_of_step (hsound : s.Sound) (hsound' : s'.Sound) (hs : s.Recorded)
    (h : relay.step s action s') : s'.Recorded where
  issued := by
    intro taking htaking
    refine issued_of_step h ?_
    rcases taken_of_step h with heq | ⟨tx, _, _, -, htx, -, -, -, -, heq⟩
    · rw [heq] at htaking
      exact hs.issued taking htaking
    · rw [heq, List.mem_append, List.mem_singleton] at htaking
      rcases htaking with hold | rfl
      · exact hs.issued taking hold
      · exact hsound.drawn tx htx
  drawn run hrun := issued_of_step h ((apart_of_step hsound hs h).1 run hrun)
  apart := (apart_of_step hsound hs h).2
  claims := by
    intro tx' htx' row hrow
    rcases claim_before_step h htx' with ⟨args, -, -, rfl⟩ | ⟨tx, htx, hargs, -, hclaim⟩
    · exact absurd hrow List.not_mem_nil
    · rw [hargs]
      rcases hclaim with ⟨locked, rfl⟩ | hsame
      · obtain ⟨-, peeked, hpending, -⟩ := h.1
        have htx'' := eq_locked_of_token hsound' h rfl htx' (by rw [hargs])
        rw [htx''] at hrow
        rcases takings_cases (s := s) hpending locked with ⟨hsame, -⟩ | ⟨-, hjoined, hone⟩
        · simp only [hsame] at hrow
          exact took_of_step h (hs.claims tx htx row hrow)
        · simp only [hjoined, List.mem_append, List.mem_singleton] at hrow
          rcases hrow with hrow | rfl
          · exact took_of_step h (hs.claims tx htx row hrow)
          · rw [h.2, RelayState.Took, RelayState.apply, hone]
            exact ⟨_, List.mem_append_right _ (List.mem_singleton_self _), rfl, rfl⟩
      · rw [hsame] at hrow
        exact took_of_step h (hs.claims tx htx row hrow)
  runs := by
    intro run' hrun' record hrecord
    refine took_of_step h ?_
    rcases run_before_step h hrun' with ⟨tx, htx, -, rfl⟩ | ⟨run, hrun, htoken, -, htodo⟩
    · obtain ⟨row, hrow, rfl⟩ := List.mem_map.1 hrecord
      exact hs.claims tx htx row hrow
    · rw [htoken]
      exact hs.runs run hrun record (htodo hrecord)
  none := by
    intro tx' htx' hempty taking htaking hsame
    have hold : taking ∈ s.taken → False := by
      intro hold
      rcases claim_before_step h htx' with ⟨args, -, hfresh, rfl⟩ | ⟨tx, htx, hargs, -, hclaim⟩
      · exact hfresh (hsame ▸ hs.issued taking hold)
      · refine hs.none tx htx ?_ taking hold (by rw [hsame, hargs])
        rcases hclaim with ⟨locked, rfl⟩ | hkept
        · obtain ⟨-, peeked, hpending, -⟩ := h.1
          have htx'' := eq_locked_of_token hsound' h rfl htx' (by rw [hargs])
          rw [htx''] at hempty
          rcases takings_cases (s := s) hpending locked with ⟨hkept, -⟩ | ⟨-, hjoined, -⟩
          · rw [← hkept]
            exact hempty
          · simp [hjoined] at hempty
        · rw [← hkept]
          exact hempty
    rcases taken_of_step h with heq | ⟨tx, _, _, haction, -, -, -, -, hjoined, heq⟩
    · rw [heq] at htaking
      exact hold htaking
    · rw [heq, List.mem_append, List.mem_singleton] at htaking
      rcases htaking with htaking | rfl
      · exact hold htaking
      · rw [eq_locked_of_token hsound' h haction htx' hsame.symm, hjoined] at hempty
        simp at hempty

/-- Takings are recorded in every reachable state. -/
theorem takings_of_relay (h : relay.Reachable s) : s.Recorded := by
  have hall : (s.Sequenced ∧ s.Sound) ∧ s.Recorded := by
    refine h.invariant (I := fun s => (s.Sequenced ∧ s.Sound) ∧ s.Recorded) ?_ ?_
    · rintro s₀ rfl
      refine ⟨sound_of_relay (.of_init rfl), ?_⟩
      constructor <;> simp
    · rintro s action s' ⟨hsound, hs⟩ hstep
      have hsound' : s'.Sequenced ∧ s'.Sound :=
        ⟨sequenced_preserved s action s' hsound.1 hstep, sound_of_step hsound.2 hsound.1 hstep⟩
      exact ⟨hsound', takings_of_step hsound.2 hsound'.2 hs hstep⟩
  exact hall.2

/-! ### What was seen -/

/-- What a locking query leaves behind was there before, or is visible now. -/
theorem behind_of_step (h : relay.step s action s') {claimToken : String} {p : ℕ}
    (hbehind : s'.Behind claimToken p) :
    s.Behind claimToken p ∨ ∃ tx committed peeked, action = .lock tx (some committed) ∧
      tx ∈ s.claims ∧ tx.args.claimantToken = claimToken ∧ tx.point.pending = some peeked ∧
      committed ∈ s.outbox.rows ∧ committed.event.eventId = peeked.event.eventId ∧
      p ∈ s.outbox.rows.map (·.position) ∧ p < peeked.position := by
  obtain ⟨taking, htaking, hsame, hvisible, hlt⟩ := hbehind
  rcases taken_of_step h with heq | ⟨tx, committed, peeked, haction, htx, hpending, hcommitted,
    hevent, -, heq⟩
  · rw [heq] at htaking
    exact .inl ⟨taking, htaking, hsame, hvisible, hlt⟩
  · rw [heq, List.mem_append, List.mem_singleton] at htaking
    rcases htaking with hold | rfl
    · exact .inl ⟨taking, hold, hsame, hvisible, hlt⟩
    · exact .inr ⟨tx, committed, peeked, haction, htx, hsame, hpending, hcommitted, hevent,
        hvisible, hlt⟩

/-- **A step that takes what was seen keeps it so.** -/
theorem foreseen_of_step (hseq : s.Sequenced) (hsound : s.Sound) (hsound' : s'.Sound)
    (hrecorded : s.Recorded) (hs : s.Foreseen) (h : relay.step s action s')
    (hseen : TakesSeen s action) : s'.Foreseen where
  claims := by
    intro tx' htx' p hbehind
    rcases behind_of_step h hbehind with hold | ⟨tx, committed, peeked, haction, htx, htoken,
      hpending, hcommitted, hevent, hvisible, hlt⟩
    · rcases claim_before_step h htx' with ⟨args, -, hfresh, rfl⟩ | ⟨tx, htx, hargs, hkept, -⟩
      · obtain ⟨taking, htaking, hsame, -⟩ := hold
        exact absurd (hsame ▸ hrecorded.issued taking htaking) hfresh
      · rw [hargs] at hold
        rcases hkept with ⟨hempty, -⟩ | hkept
        · obtain ⟨taking, htaking, hsame, -⟩ := hold
          exact absurd hsame (hrecorded.none tx htx hempty taking htaking)
        · rw [hkept]
          exact (hs.claims tx htx p hold).imp_right (published_of_step h)
    · -- the row that is taken now is the one that was looked at
      rw [eq_locked_of_token hsound' h haction htx' htoken.symm]
      obtain ⟨row, hrow, rfl⟩ := List.mem_map.1 hvisible
      obtain ⟨known, hknown, hkey⟩ :=
        (hsound.instances tx htx peeked (ClaimPoint.mem_instances_of_pending hpending)).2
      have hsame : committed = known := by
        refine hseq.eq_of_event hcommitted hknown ?_
        rw [hevent]
        exact congrArg DomainEvent.eventId (congrArg Prod.fst hkey).symm
      have hposition : committed.position = peeked.position := by
        rw [hsame]
        exact congrArg Prod.snd hkey
      cases hpublished : row.publishedAt with
      | none => exact .inl (hseen tx committed haction row hrow (hposition ▸ hlt) hpublished)
      | some time =>
          refine .inr (published_of_step h ⟨row, hrow, rfl, ?_⟩)
          rw [hpublished]
          exact Option.some_ne_none time
  runs := by
    intro run' hrun' p hbehind
    rcases behind_of_step h hbehind with hold | ⟨tx, _, _, rfl, htx, htoken, -⟩
    · rcases run_before_step h hrun' with ⟨tx, htx, -, rfl⟩ | ⟨run, hrun, htoken, hvisible, -⟩
      · exact (hs.claims tx htx p hold).imp_right (published_of_step h)
      · rw [hvisible]
        exact (hs.runs run hrun p (htoken ▸ hold)).imp_right (published_of_step h)
    · rcases run_before_step h hrun' with ⟨_, -, haction, -⟩ | ⟨run, hrun, hsame, -, -⟩
      · cases haction
      · exact absurd (hsame.symm.trans htoken.symm) (hrecorded.apart run hrun tx htx)

theorem foreseen_of_reachable
    (h : (relay.restrict fun s action _ => TakesSeen s action).Reachable s) :
    (s.Sequenced ∧ s.Sound) ∧ s.Recorded ∧ s.Foreseen := by
  refine h.invariant (I := fun s => (s.Sequenced ∧ s.Sound) ∧ s.Recorded ∧ s.Foreseen) ?_ ?_
  · rintro s₀ rfl
    refine ⟨sound_of_relay (.of_init rfl), takings_of_relay (.of_init rfl), ?_⟩
    constructor <;> simp [RelayState.Behind]
  · rintro s action s' ⟨hsound, hrecorded, hs⟩ ⟨hstep, hseen⟩
    have hsound' : s'.Sequenced ∧ s'.Sound :=
      ⟨sequenced_preserved s action s' hsound.1 hstep, sound_of_step hsound.2 hsound.1 hstep⟩
    exact ⟨hsound', takings_of_step hsound.2 hsound'.2 hrecorded hstep,
      foreseen_of_step hsound.1 hsound.2 hsound'.2 hrecorded hs hstep hseen⟩

/-! ### Marks -/

/-- The row was taken by the claim of the run, and the smaller positions that were visible then are
published. -/
structure MarkedInOrder (s : RelayState) (run : RelayRun) (row : OutboxRow) : Prop where
  took : s.Took run.claimToken row.position
  ordered : ∀ taking ∈ s.taken, taking.claimToken = run.claimToken →
    taking.position = row.position → ∀ p ∈ taking.visible, p < row.position → s.Published p

/-- A run that marks a row was under way with its record. -/
theorem took_of_mark (hseq : s.Sequenced) (hsound : s.Sound) (hrecorded : s.Recorded)
    {run : RelayRun} {time : Instant} (hstep : relay.step s (.mark run time) s')
    {row row' : OutboxRow} (hrow : row ∈ s.outbox.rows) (hrow' : row' ∈ s'.outbox.rows)
    (hkey : row'.key = row.key) (hunpublished : row.publishedAt = none)
    (hpublished : row'.publishedAt = some time) : s.Took run.claimToken row.position := by
  have hchange : OutboxChange (.mark run time) row row' := by
    rcases row_before_step hstep hrow' with ⟨-, haction⟩ | ⟨old, hold, hchange⟩
    · cases haction
    · have hposition : old.position = row.position :=
        hchange.fixed.2.1.symm.trans (congrArg Prod.snd hkey)
      rw [← hseq.eq_of_position (mem_drawn hold) (mem_drawn hrow) hposition]
      exact hchange
  cases hchange with
  | same =>
      rw [hunpublished] at hpublished
      cases hpublished
  | claimed tx loaded haction hloaded => cases haction
  | released run record time errorClass haction hpoint howns => cases haction
  | marked marking record rest instant haction hpoint howns =>
      cases haction
      obtain ⟨hevent, -⟩ := ownsPublishLease_eq_true.1 howns
      have hrecord : record ∈ run.point.todo := by
        rw [hpoint]
        exact List.mem_cons_self
      obtain ⟨known, hknown, hknownKey⟩ := hsound.records run hstep.1.1 record hrecord
      have hsame : row = known := by
        refine hseq.eq_of_event hrow hknown ?_
        rw [hevent]
        exact congrArg DomainEvent.eventId (congrArg Prod.fst hknownKey).symm
      have hposition : row.position = record.outboxPosition := by
        rw [hsame]
        exact congrArg Prod.snd hknownKey
      rw [hposition]
      exact hrecorded.runs run hstep.1.1 record hrecord

/-- **At-least-once delivery, in the order that was visible when the rows were taken.**  In every
run in which claims take what their first looks have seen, the relay delivers from every state on;
and a row is first marked by a run whose claim took it, when every smaller position that was visible
to the statement that took it is published. -/
theorem relay_delivery_seen
    (h : (relay.restrict fun s action _ => TakesSeen s action).Reachable s) :
    s.Delivers ∧ ∀ action s', relay.step s action s' → ∀ row ∈ s.outbox.rows,
      ∀ row' ∈ s'.outbox.rows, row'.key = row.key → row.publishedAt = none →
        ∀ time, row'.publishedAt = some time →
          ∃ run ∈ s.runs, action = .mark run time ∧ MarkedInOrder s run row := by
  obtain ⟨⟨hseq, hsound⟩, hrecorded, hforeseen⟩ := foreseen_of_reachable h
  have hreachable : relay.Reachable s := by
    obtain ⟨s₀, actions, hinit, hrun⟩ := h
    exact ⟨s₀, actions, hinit, hrun.of_restrict⟩
  refine ⟨relay_delivery hreachable, ?_⟩
  intro action s' hstep row hrow row' hrow' hkey hunpublished time hpublished
  obtain ⟨run, hrun, rfl, hmarked⟩ :=
    marked_of_step hreachable hstep hrow hrow' hkey hunpublished hpublished
  refine ⟨run, hrun, rfl, took_of_mark hseq hsound hrecorded hstep hrow hrow' hkey hunpublished
    hpublished, ?_⟩
  intro taking htaking htoken hposition p hvisible hlt
  have hbehind : s.Behind run.claimToken p :=
    ⟨taking, htaking, htoken, hvisible, hposition ▸ hlt⟩
  rcases hforeseen.runs run hrun p hbehind with hseen | hdone
  · exact hmarked.ordered p hseen hlt
  · exact hdone

end Step

/-! ### Instances -/

instance (s : RelayState) (action : RelayAction) : Decidable (TakesSeen s action) :=
  match action with
  | .lock tx (some committed) =>
      decidable_of_iff (∀ row ∈ s.outbox.rows, row.position < committed.position →
          row.publishedAt = none → row.position ∈ tx.visible)
        ⟨fun h _ _ heq => by cases heq; exact h, fun h => h tx committed rfl⟩
  | .lock _ none | .insert .. | .commit .. | .rollback .. | .begin .. | .look .. | .claim ..
  | .abort .. | .publish .. | .mark .. | .release .. | .crash .. =>
      .isTrue (fun _ _ h => by cases h)

/-- A claim looks for its head, and before it takes the row, an event with a smaller position is
committed. -/
def lateCommit : List RelayAction :=
  let row := sampleOutboxRow "event-1" 1
  let next := sampleOutboxRow "event-2" 2
  let args := sampleClaim "first" 10
  let run : RelayRun :=
    { claimToken := "first", point := .publish [args.record next], visible := [2] }
  [.insert row.event none, .insert next.event none, .commit next,
    .begin args, .look ⟨args, .headPeek, []⟩, .commit row,
    .lock ⟨args, .lockHead next, [2]⟩ (some next), .look ⟨args, .nextPeek [next], [2]⟩,
    .claim ⟨args, .assign [next], [2]⟩, .publish run .returned true]

/-- The mark of the row that was taken. -/
def lateMark : RelayAction :=
  let record := (sampleClaim "first" 10).record (sampleOutboxRow "event-2" 2)
  .mark { claimToken := "first", point := .mark record [], visible := [2] } 11

/-- **What is committed late is left behind**: a single relay marks a row, and a smaller position
that was visible when it was taken is not published. -/
theorem relay_delivery_late :
    let s := lateCommit.foldl RelayState.apply {}
    let row := (sampleClaim "first" 10).assign (sampleOutboxRow "event-2" 2)
    (relay.restrict fun s action _ => OneRun s action).Reachable s ∧
      relay.step s lateMark (s.apply lateMark) ∧ row ∈ s.outbox.rows ∧ row.publishedAt = none ∧
      (∃ row' ∈ (s.apply lateMark).outbox.rows, row'.key = row.key ∧ row'.publishedAt = some 11) ∧
      s.taken = [⟨"first", 2, [2, 1]⟩] ∧ ¬ s.Published 1 := by
  intro s row
  refine ⟨RelayState.reachable_of_allowsAll (P := OneRun) (.of_init rfl) (by decide +kernel),
    ⟨by decide +kernel, rfl⟩, by decide +kernel, rfl, ?_, by decide +kernel, ?_⟩
  · exact ⟨{ row with
      publishedAt := some 11, publishClaimToken := none, publishLeaseExpiresAt := none },
      by decide +kernel, rfl, rfl⟩
  · rintro ⟨row, hrow, hposition, hpublished⟩
    have hnone : ∀ row ∈ s.outbox.rows, row.position = 1 → row.publishedAt = none := by
      decide +kernel
    exact hpublished (hnone row hrow hposition)

/-- An event is published, and the next one is about to be marked. -/
def markingRun : List RelayAction :=
  let row := sampleOutboxRow "event-1" 1
  let next := sampleOutboxRow "event-2" 2
  [.insert row.event none, .commit row] ++ publishOne (sampleClaim "first" 10) row [1] 11 ++
    [.insert next.event none, .commit next] ++
    (publishOne (sampleClaim "second" 20) next [1, 2] 21).take 6

/-- The first event was visible when the next one was taken, and is published before it. -/
theorem relay_delivery_seen_sequential :
    let s := markingRun.foldl RelayState.apply {}
    let row := (sampleClaim "second" 20).assign (sampleOutboxRow "event-2" 2)
    s.Delivers ∧ s.taken = [⟨"first", 1, [1]⟩, ⟨"second", 2, [1, 2]⟩] ∧
      ∃ run ∈ s.runs, MarkedInOrder s run row := by
  intro s row
  have hrun : (relay.restrict fun s action _ => TakesSeen s action).Reachable s :=
    RelayState.reachable_of_allowsAll (P := TakesSeen) (.of_init rfl) (by decide +kernel)
  obtain ⟨hdelivers, hmarks⟩ := relay_delivery_seen hrun
  let record := (sampleClaim "second" 20).record (sampleOutboxRow "event-2" 2)
  let marking : RelayAction :=
    .mark { claimToken := "second", point := .mark record [], visible := [1, 2] } 21
  have hstep : relay.step s marking (s.apply marking) := ⟨by decide +kernel, rfl⟩
  obtain ⟨run, hmem, -, hmarked⟩ := hmarks marking _ hstep row (by decide +kernel)
    { row with publishedAt := some 21, publishClaimToken := none, publishLeaseExpiresAt := none }
    (by decide +kernel) rfl rfl 21 rfl
  exact ⟨hdelivers, by decide +kernel, run, hmem, hmarked⟩

end Atlas
