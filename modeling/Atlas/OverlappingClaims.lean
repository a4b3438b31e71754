/-
**Overlapping claims of the outbox.**

`claim_batch` looks at a row without a lock and checks it again once it is locked.  But the row
that the locking query returns is the instance of the look: when another claim commits between the
two, the check is made on what the row was before, and an unexpired lease is taken over.  A mark
that commits in between is not lost, since a published row with a claim breaks a constraint.

Main definitions:

* `Atlas.NoClaimOfRead` — no claim commits on a row another claim has looked at and not locked.

Main results:

* `Atlas.claims_respect_leases` — **while no such claim commits, a claim leaves every row alone
  that is published, or leased past the claimer's instant**;
* `Atlas.claims_overlap` — a run in which an unexpired lease is taken over.
-/

import Atlas.OutboxRows

set_option relaxedAutoImplicit false
set_option autoImplicit false

namespace Atlas

/-- No claim commits on a row that another claim has looked at and not locked yet. -/
def NoClaimOfRead (s : RelayState) (action : RelayAction) : Prop :=
  ∀ tx, action = .claim tx → ∀ other ∈ s.claims.erase tx, ∀ peeked ∈ other.point.pending,
    ∀ row ∈ tx.point.toClaim, row.event.eventId ≠ peeked.event.eventId

/-- What the claims under way have in their sessions: an instance is the committed row, unless its
claim was released or the row was marked since; a row that is locked was claimable; and no row is
locked twice. -/
structure RelayState.Current (s : RelayState) : Prop where
  fresh : ∀ tx ∈ s.claims, ∀ loaded ∈ tx.point.instances, ∀ row ∈ s.outbox.rows,
    row.event.eventId = loaded.event.eventId → row = loaded ∨ row.publishClaimToken = none
  claimable : ∀ tx ∈ s.claims, ∀ loaded ∈ tx.point.toClaim, isClaimable loaded tx.args.time = true
  exclusive : ∀ tx ∈ s.claims, ∀ other ∈ s.claims, tx ≠ other → ∀ row ∈ tx.point.toClaim,
    ∀ row' ∈ other.point.toClaim, row.event.eventId ≠ row'.event.eventId

section Step

variable {s s' : RelayState} {action : RelayAction}

/-- A row a claim has locked was locked before, or is locked by this step. -/
theorem toClaim_of_step (h : relay.step s action s') {tx' : ClaimTx} (htx' : tx' ∈ s'.claims)
    {row : OutboxRow} (hrow : row ∈ tx'.point.toClaim) :
    ∃ tx ∈ s.claims, tx.args = tx'.args ∧ (row ∈ tx.point.toClaim ∨
      ((∃ locked, action = .lock tx locked) ∧ isClaimable row tx.args.time = true ∧
        ¬ RelayState.Held (s.claims.erase tx) row.event.eventId)) := by
  cases claims_of_step h htx' with
  | kept _ hmem hother => exact ⟨tx', hmem, rfl, .inl hrow⟩
  | begun args haction hfresh => exact absurd hrow List.not_mem_nil
  | looked tx haction hmem hpending =>
      refine ⟨tx, hmem, rfl, .inl ?_⟩
      simp only [RelayState.lookOf] at hrow
      rw [ClaimPoint.look_toClaim] at hrow
      exact hrow
  | locked tx locked peeked haction hmem hpending hlocked =>
      refine ⟨tx, hmem, rfl, ?_⟩
      rcases (ClaimPoint.lock_cases hpending tx.args.time locked).2 with
        heq | ⟨heq, hsome, hclaimable⟩
      · simp only [heq] at hrow
        exact .inl hrow
      · simp only [heq, List.mem_append, List.mem_singleton] at hrow
        rcases hrow with hrow | rfl
        · exact .inl hrow
        · obtain ⟨committed, hcommitted⟩ := Option.isSome_iff_exists.1 hsome
          exact .inr ⟨⟨locked, haction⟩, hclaimable, (hlocked committed hcommitted).2.2⟩

/-- No row is locked twice: a locking query does not return a row another claim has. -/
theorem exclusive_of_step (hs : s.Current) (hsound : s'.Sound) (h : relay.step s action s')
    {tx' other' : ClaimTx} (htx' : tx' ∈ s'.claims) (hother' : other' ∈ s'.claims)
    (hne : tx' ≠ other') {row row' : OutboxRow} (hrow : row ∈ tx'.point.toClaim)
    (hrow' : row' ∈ other'.point.toClaim) : row.event.eventId ≠ row'.event.eventId := by
  obtain ⟨tx, htx, hargs, hfrom⟩ := toClaim_of_step h htx' hrow
  obtain ⟨other, hother, hargs', hfrom'⟩ := toClaim_of_step h hother' hrow'
  have hdistinct : tx ≠ other := by
    rintro rfl
    refine hne (List.inj_on_of_nodup_map hsound.tokens htx' hother' ?_)
    simp only [← hargs, ← hargs']
  intro heq
  rcases hfrom with hmem | ⟨⟨locked, haction⟩, -, hheld⟩
  · rcases hfrom' with hmem' | ⟨-, -, hheld'⟩
    · exact hs.exclusive tx htx other hother hdistinct row hmem row' hmem' heq
    · exact hheld' ⟨tx, (List.mem_erase_of_ne hdistinct).2 htx, row, hmem, heq⟩
  · rcases hfrom' with hmem' | ⟨⟨locked', haction'⟩, -, -⟩
    · exact hheld ⟨other, (List.mem_erase_of_ne hdistinct.symm).2 hother, row', hmem', heq.symm⟩
    · rw [haction] at haction'
      cases haction'
      exact hdistinct rfl

/-- An instance of a claim under way was one before, or is the committed row. -/
theorem instances_of_step (h : relay.step s action s') {tx' : ClaimTx} (htx' : tx' ∈ s'.claims)
    {loaded : OutboxRow} (hloaded : loaded ∈ tx'.point.instances) :
    (∃ tx ∈ s.claims, loaded ∈ tx.point.instances ∧
      ∀ ended, action = .claim ended → tx ∈ s.claims.erase ended) ∨
      (loaded ∈ s.outbox.rows ∧ ∃ tx, action = .look tx) := by
  cases claims_of_step h htx' with
  | kept _ hmem hother =>
      exact .inl ⟨tx', hmem, hloaded, fun ended hended => hother ended (.inl hended)⟩
  | begun args haction hfresh => exact absurd hloaded List.not_mem_nil
  | looked tx haction hmem hpending =>
      rcases ClaimPoint.look_instances hpending hloaded with hold | hrow
      · refine .inl ⟨tx, hmem, hold, ?_⟩
        intro ended hended
        rw [haction] at hended
        cases hended
      · exact .inr ⟨hrow, tx, haction⟩
  | locked tx locked peeked haction hmem hpending hlocked =>
      refine .inl ⟨tx, hmem, ClaimPoint.lock_instances hpending hloaded, ?_⟩
      intro ended hended
      rw [haction] at hended
      cases hended

/-- An instance stays current: no claim commits on its row, and a mark or a release takes the
claim off. -/
theorem fresh_of_step (hs : s.Current) (hsound : s.Sequenced ∧ s.Sound)
    (h : relay.step s action s') (hread : NoClaimOfRead s action) {tx' : ClaimTx}
    (htx' : tx' ∈ s'.claims) {loaded row' : OutboxRow} (hloaded : loaded ∈ tx'.point.instances)
    (hrow' : row' ∈ s'.outbox.rows) (hevent : row'.event.eventId = loaded.event.eventId) :
    row' = loaded ∨ row'.publishClaimToken = none := by
  rcases row_before_step h hrow' with ⟨hinserted, -⟩ | ⟨row, hrow, hchange⟩
  · exact .inr (hsound.1.fresh row' hinserted).2.1
  have hsame := hchange.fixed.1
  rw [hsame] at hevent
  rcases instances_of_step h htx' hloaded with ⟨tx, htx, hold, hended⟩ | ⟨hfound, tx, haction⟩
  · cases hchange with
    | same => exact hs.fresh tx htx loaded hold row' hrow hevent
    | claimed ended held haction hheld =>
        -- the claim that commits has locked the row: the instance is neither locked nor read
        exfalso
        obtain ⟨hheld, hheldEvent⟩ := ClaimArgs.instanceOf_mem hheld
        have hother := hended ended haction
        have hendedMem : ended ∈ s.claims := by
          subst haction
          exact h.1.1
        have hne : tx ≠ ended := by
          rintro rfl
          exact (hsound.2.other htx hother).2 rfl
        rcases List.mem_append.1 hold with hlocked | hpending
        · exact hs.exclusive tx htx ended hendedMem hne loaded hlocked held hheld
            (hevent.symm.trans hheldEvent.symm)
        · exact hread ended haction tx hother loaded (Option.mem_toList.1 hpending) held hheld
            (hheldEvent.trans hevent)
    | marked => exact .inr rfl
    | released => exact .inr rfl
  · left
    subst haction
    cases hchange with
    | same => exact hsound.1.eq_of_event hrow hfound hevent
    | claimed ended held haction => cases haction
    | marked run record rest time haction => cases haction
    | released run record time errorClass haction => cases haction

theorem current_of_step (hs : s.Current) (hsound : s.Sequenced ∧ s.Sound)
    (h : relay.step s action s') (hread : NoClaimOfRead s action) : s'.Current := by
  have hsound' := sound_of_step hsound.2 hsound.1 h
  refine ⟨?_, ?_, ?_⟩
  · intro tx' htx' loaded hloaded row' hrow' hevent
    exact fresh_of_step hs hsound h hread htx' hloaded hrow' hevent
  · intro tx' htx' loaded hloaded
    obtain ⟨tx, htx, hargs, hfrom⟩ := toClaim_of_step h htx' hloaded
    rw [← hargs]
    rcases hfrom with hmem | ⟨-, hclaimable, -⟩
    · exact hs.claimable tx htx loaded hmem
    · exact hclaimable
  · intro tx' htx' other' hother' hne row hrow row' hrow'
    exact exclusive_of_step hs hsound' h htx' hother' hne hrow hrow'

/-- In every run in which no claim commits on a row that another one has read, the invariants
hold. -/
theorem current_of_restrict
    (h : (relay.restrict fun s action _ => NoClaimOfRead s action).Reachable s) :
    (s.Sequenced ∧ s.Sound) ∧ s.Current := by
  refine h.invariant (I := fun s => (s.Sequenced ∧ s.Sound) ∧ s.Current) ?_ ?_
  · rintro s₀ rfl
    refine ⟨sound_of_relay (.of_init rfl), ?_⟩
    constructor <;> simp
  · rintro s action s' ⟨hsound, hs⟩ ⟨hstep, hread⟩
    refine ⟨⟨sequenced_preserved s action s' hsound.1 hstep,
      sound_of_step hsound.2 hsound.1 hstep⟩, ?_⟩
    exact current_of_step hs hsound hstep hread

/-- A claim that commits changes only rows that are unpublished, and claimable at its instant. -/
theorem RelayState.Current.claims (hs : s.Current) (hsound : s.Sound) {tx : ClaimTx}
    {rows : List OutboxRow} (htx : tx ∈ s.claims)
    (hflush : tx.args.flush tx.point.toClaim s.outbox.rows = .ok rows) {row : OutboxRow}
    (hrow : row ∈ s.outbox.rows) :
    tx.args.flushed tx.point.toClaim row = row ∨ isClaimable row tx.args.time = true := by
  cases hloaded : ClaimArgs.instanceOf tx.point.toClaim row with
  | none => exact .inl (ClaimArgs.flushed_of_none hloaded)
  | some loaded =>
      right
      obtain ⟨hmem, hevent⟩ := ClaimArgs.instanceOf_mem hloaded
      have hinstance := ClaimPoint.mem_instances_of_toClaim hmem
      rcases hs.fresh tx htx loaded hinstance row hrow hevent.symm with rfl | hnone
      · exact hs.claimable tx htx row hmem
      · have hunpublished := ClaimArgs.not_published_of_flush hflush hrow hloaded
          (hsound.instances tx htx loaded hinstance).1
        exact isClaimable_eq_true.2 ⟨hunpublished, .inl hnone⟩

/-- **Claims respect leases and marks.**  In every run in which no claim commits on a row that
another claim has looked at and not locked: a claim that commits leaves every row as it is that is
published, or whose lease is unexpired at the claimer's instant. -/
theorem claims_respect_leases
    (h : (relay.restrict fun s action _ => NoClaimOfRead s action).Reachable s) {tx : ClaimTx}
    (hstep : relay.step s (.claim tx) s') {row : OutboxRow} (hrow : row ∈ s.outbox.rows) :
    (row.publishedAt ≠ none → row ∈ s'.outbox.rows) ∧
      (∀ token lease, row.publishClaimToken = some token → row.publishLeaseExpiresAt = some lease →
        tx.args.time < lease → row ∈ s'.outbox.rows) := by
  obtain ⟨⟨-, hsound⟩, hs⟩ := current_of_restrict h
  obtain ⟨⟨htx, -⟩, rfl⟩ := hstep
  have hkept : isClaimable row tx.args.time ≠ true →
      row ∈ (s.apply (.claim tx)).outbox.rows := by
    intro hnot
    simp only [RelayState.apply]
    cases hflush : tx.args.flush tx.point.toClaim s.outbox.rows with
    | error e => exact hrow
    | ok rows =>
        rcases hs.claims hsound htx hflush hrow with hsame | hclaimable
        · simp only [(ClaimArgs.flush_eq_ok hflush).1]
          exact List.mem_map.2 ⟨row, hrow, hsame⟩
        · exact absurd hclaimable hnot
  constructor
  · intro hpublished
    refine hkept ?_
    intro hclaimable
    exact hpublished (isClaimable_eq_true.1 hclaimable).1
  · intro token lease htoken hlease hlt
    refine hkept ?_
    intro hclaimable
    rcases (isClaimable_eq_true.1 hclaimable).2 with hnone | hexpired
    · rw [hnone] at htoken
      cases htoken
    · exact absurd hlt (not_lt.2 (hexpired lease hlease))

end Step

/-! ### Instances -/

instance (s : RelayState) (action : RelayAction) : Decidable (NoClaimOfRead s action) :=
  match action with
  | .claim tx =>
      decidable_of_iff (∀ other ∈ s.claims.erase tx, ∀ peeked ∈ other.point.pending,
          ∀ row ∈ tx.point.toClaim, row.event.eventId ≠ peeked.event.eventId)
        ⟨fun h _ htx => RelayAction.claim.inj htx ▸ h, fun h => h tx rfl⟩
  | .insert .. | .commit .. | .rollback .. | .begin .. | .look .. | .lock .. | .abort ..
  | .publish .. | .mark .. | .release .. | .crash .. => .isTrue (fun _ h => by cases h)

/-- One event is enqueued; a first claim looks at its row, and a second one claims it. -/
def overlap : List RelayAction :=
  let row := sampleOutboxRow "event-1" 1
  let first := sampleClaim "first" 10
  let second := sampleClaim "second" 11
  [.insert row.event none, .commit row,
    .begin first, .look ⟨first, .headPeek, []⟩,
    .begin second, .look ⟨second, .headPeek, []⟩, .lock ⟨second, .lockHead row, [1]⟩ (some row),
    .look ⟨second, .nextPeek [row], [1]⟩, .claim ⟨second, .assign [row], [1]⟩,
    .lock ⟨first, .lockHead row, [1]⟩ (some (second.assign row)),
    .look ⟨first, .nextPeek [row], [1]⟩]

/-- **An unexpired lease is taken over**: the row is leased to the second claim until 41, and the
first one, whose instant is 10, puts its own claim on it. -/
theorem claims_overlap :
    let s := overlap.foldl RelayState.apply {}
    let row := (sampleClaim "second" 11).assign (sampleOutboxRow "event-1" 1)
    let claim := RelayAction.claim
      ⟨sampleClaim "first" 10, .assign [sampleOutboxRow "event-1" 1], [1]⟩
    relay.Reachable s ∧ row ∈ s.outbox.rows ∧ row.publishClaimToken = some "second" ∧
      row.publishLeaseExpiresAt = some 41 ∧ relay.step s claim (s.apply claim) ∧
      (s.apply claim).outbox.rows.map (·.publishClaimToken) = [some "first"] := by
  intro s row claim
  refine ⟨?_, by decide +kernel, by decide +kernel, by decide +kernel, ⟨by decide +kernel, rfl⟩,
    by decide +kernel⟩
  have hrun : (relay.restrict fun _ _ _ => True).Reachable s :=
    RelayState.reachable_of_allowsAll (P := fun _ _ => True) (.of_init rfl) (by decide +kernel)
  obtain ⟨s₀, actions, hinit, hactions⟩ := hrun
  exact ⟨s₀, actions, hinit, hactions.of_restrict⟩

/-- The claim of the second event leaves the first one alone, which is published. -/
theorem claims_respect_leases_sequential :
    let s := sequentialClaims.foldl RelayState.apply {}
    let claim := RelayAction.claim
      ⟨sampleClaim "second" 21, .assign [sampleOutboxRow "event-2" 2], [1, 2]⟩
    let row := { sampleOutboxRow "event-1" 1 with publishedAt := some 20, publishAttempts := 1 }
    row ∈ (s.apply claim).outbox.rows := by
  intro s claim row
  have hrun : (relay.restrict fun s action _ => NoClaimOfRead s action).Reachable s :=
    RelayState.reachable_of_allowsAll (P := NoClaimOfRead) (.of_init rfl) (by decide +kernel)
  have hstep : relay.step s claim (s.apply claim) := ⟨by decide +kernel, rfl⟩
  have hrow : row ∈ s.outbox.rows := by decide +kernel
  exact (claims_respect_leases hrun hstep hrow).1 (by simp [row])

end Atlas
