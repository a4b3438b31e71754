/-
**At-least-once delivery.**

A row is marked only by a run that published it and still owns its lease, a mark stays, and
nothing that a batch could see is left behind by it.  The batch of a claim is covered: whatever
was visible when the claim looked for its head, and precedes a row of the batch, is published or
stands before that row.  A run keeps to the order of its batch, and stops at the first record it
does not mark, so the batch stays covered while the run goes on.  What is committed between that
look and the statement that takes a row is the subject of `Atlas.relay_delivery_seen`.

Main definitions:

* `Atlas.RelayState.Published` — the row at a position is published;
* `Atlas.RelayState.Acked`, `Atlas.RelayState.Ordered` — the invariants;
* `Atlas.Marked` — what holds when a row is first marked.

Main results:

* `Atlas.marked_of_step` — **what a first mark rests on**;
* `Atlas.head_is_claimed` — the first unpublished row is claimed once its lease has expired;
* `Atlas.relay_delivery` — **at-least-once delivery with fencing**.
-/

import Atlas.HeadOfLine
import Atlas.OutboxRows

set_option relaxedAutoImplicit false
set_option autoImplicit false

namespace Atlas

open HeadOfLine

/-! ### The invariants -/

/-- What identifies a row or a message: the event and its position. -/
abbrev EventKey : Type := DomainEvent × ℕ

def Delivery.key (delivery : Delivery) : EventKey := (delivery.event, delivery.position)

def ClaimedOutboxRecord.key (record : ClaimedOutboxRecord) : EventKey :=
  (record.event, record.outboxPosition)

/-- The row at a position is published. -/
def RelayState.Published (s : RelayState) (position : ℕ) : Prop :=
  ∃ row ∈ s.outbox.rows, row.position = position ∧ row.publishedAt ≠ none

/-- A position that was visible precedes the larger ones. -/
def VisibleBefore (visible : List ℕ) (p q : ℕ) : Prop := p ∈ visible ∧ p < q

/-- A run that is about to mark a record has published it. -/
def RelayState.Acked (s : RelayState) : Prop :=
  ∀ run ∈ s.runs, ∀ record rest, run.point = .mark record rest →
    ∃ delivery ∈ s.log, delivery.key = record.key ∧ delivery.claimToken = run.claimToken ∧
      delivery.acknowledged = true

/-- The batches of claims and runs leave nothing behind of what was visible. -/
structure RelayState.Ordered (s : RelayState) : Prop where
  visible : ∀ tx ∈ s.claims, ∀ p ∈ tx.visible, ∃ row ∈ s.outbox.rows, row.position = p
  claims : ∀ tx ∈ s.claims, Covered s.Published (VisibleBefore tx.visible)
    (tx.point.toClaim.map (·.position))
  pending : ∀ tx ∈ s.claims, ∀ peeked ∈ tx.point.pending, ∀ p,
    VisibleBefore tx.visible p peeked.position →
      s.Published p ∨ p ∈ tx.point.toClaim.map (·.position)
  runs : ∀ run ∈ s.runs, Covered s.Published (VisibleBefore run.visible)
    (run.point.todo.map (·.outboxPosition))

section Step

variable {s s' : RelayState} {action : RelayAction}

/-- A position that is published stays published. -/
theorem published_of_step (h : relay.step s action s') {p : ℕ} (hp : s.Published p) :
    s'.Published p := by
  obtain ⟨row, hrow, rfl, hpublished⟩ := hp
  obtain ⟨row', hrow', hchange⟩ := row_of_step h hrow
  obtain ⟨-, hposition, hmark⟩ := hchange.fixed
  obtain ⟨time, htime⟩ := Option.ne_none_iff_exists'.1 hpublished
  refine ⟨row', hrow', hposition, ?_⟩
  rw [hmark time htime]
  exact Option.some_ne_none time

/-- A committed position stays committed. -/
theorem position_of_step (h : relay.step s action s') {p : ℕ}
    (hp : ∃ row ∈ s.outbox.rows, row.position = p) : ∃ row ∈ s'.outbox.rows, row.position = p := by
  obtain ⟨row, hrow, rfl⟩ := hp
  obtain ⟨row', hrow', hchange⟩ := row_of_step h hrow
  exact ⟨row', hrow', hchange.fixed.2.1⟩

/-- A run gets to a mark only by a publication that returned. -/
theorem acked_of_step (hs : s.Acked) (h : relay.step s action s') : s'.Acked := by
  intro run' hrun' record rest hpoint'
  cases runs_of_step h hrun' with
  | kept _ hmem =>
      obtain ⟨delivery, hdelivery, hacked⟩ := hs run' hmem record rest hpoint'
      exact ⟨delivery, log_subset h hdelivery, hacked⟩
  | begun tx rows haction hmem hpoint hflush => cases hpoint'
  | published run outcome stored first tail haction hmem hpoint hstored =>
      simp only [RelayRun.afterPublish, hpoint] at hpoint'
      cases outcome with
      | returned =>
          cases hpoint'
          have htrue := hstored rfl
          subst htrue
          rcases log_of_step h with hlog | ⟨run₁, outcome₁, record₁, rest₁, hsame, -, hpoint₁, hlog⟩
          · -- a message that is stored is in the log
            obtain ⟨-, rfl⟩ := h
            subst haction
            have hlength := congrArg List.length hlog
            simp [RelayState.apply, hpoint, RelayPoint.todo] at hlength
          · rw [haction] at hsame
            cases hsame
            rw [hpoint] at hpoint₁
            cases hpoint₁
            rw [hlog]
            refine ⟨_, List.mem_append_right _ (List.mem_singleton_self _), rfl, ?_, ?_⟩
            · rw [(run.afterPublish_fixed .returned).1]
              rfl
            · simp [RelayState.delivery]
      | fatalEventPublishError errorClass => cases hpoint'
      | eventPublishError errorClass => cases hpoint'
      | exception errorClass => cases hpoint'
  | marked run time first tail haction hmem hpoint =>
      simp only [RelayRun.afterMark, hpoint] at hpoint'
      split at hpoint' <;> cases hpoint'
  | released run time todo outcome haction hmem hpoint =>
      obtain ⟨todo', hreleased⟩ := RelayRun.afterRelease_point hpoint
      rw [hreleased] at hpoint'
      cases hpoint'

/-- The look of a claim finds a row behind the ones that are visible, published or in the batch. -/
theorem pending_of_look (hs : s.Ordered) {tx : ClaimTx} (htx : tx ∈ s.claims)
    (hpending : tx.point.pending = none) {peeked : OutboxRow}
    (hpeeked : (tx.point.look tx.args.batchSize s.outbox.rows).pending = some peeked) (p : ℕ)
    (hp : VisibleBefore (s.lookOf tx).visible p peeked.position) :
    s.Published p ∨ p ∈ tx.point.toClaim.map (·.position) := by
  obtain ⟨hvisible, hlt⟩ := hp
  by_cases hhead : tx.point = .headPeek
  · -- the look for the head: what is visible is committed, and there is no batch yet
    simp only [RelayState.lookOf, hhead, if_true] at hvisible
    obtain ⟨row, hrow, rfl⟩ := List.mem_map.1 hvisible
    rcases ClaimPoint.look_behind hpending hpeeked hrow hlt with hdone | ⟨front, last, hbatch, -⟩
    · exact .inl ⟨row, hrow, rfl, hdone⟩
    · rw [hhead] at hbatch
      simp [ClaimPoint.toClaim] at hbatch
  · simp only [RelayState.lookOf, if_neg hhead] at hvisible
    obtain ⟨row, hrow, rfl⟩ := hs.visible tx htx p hvisible
    rcases ClaimPoint.look_behind hpending hpeeked hrow hlt with hdone | ⟨front, last, hbatch, hle⟩
    · exact .inl ⟨row, hrow, rfl, hdone⟩
    · have hcovered := hs.claims tx htx
      rw [hbatch, List.map_append, List.map_singleton] at hcovered ⊢
      rcases Nat.lt_or_eq_of_le hle with hbefore | heq
      · -- before the last row of the batch: the batch is covered so far
        rcases hcovered _ last.position [] rfl row.position ⟨hvisible, hbefore⟩ with hdone | hmem
        · exact .inl hdone
        · exact .inr (List.mem_append_left _ hmem)
      · refine .inr (List.mem_append_right _ ?_)
        rw [heq]
        exact List.mem_singleton_self _

/-- What a step makes of the order of one claim transaction. -/
theorem claim_ordered_of_step (hs : s.Ordered) (h : relay.step s action s') {tx' : ClaimTx}
    (htx' : tx' ∈ s'.claims) :
    (∀ p ∈ tx'.visible, ∃ row ∈ s'.outbox.rows, row.position = p) ∧
      Covered s'.Published (VisibleBefore tx'.visible) (tx'.point.toClaim.map (·.position)) ∧
      ∀ peeked ∈ tx'.point.pending, ∀ p, VisibleBefore tx'.visible p peeked.position →
        s'.Published p ∨ p ∈ tx'.point.toClaim.map (·.position) := by
  have hlater : ∀ p (batch : List ℕ), s.Published p ∨ p ∈ batch → s'.Published p ∨ p ∈ batch := by
    rintro p batch (hp | hp)
    · exact .inl (published_of_step h hp)
    · exact .inr hp
  have hcovered : ∀ {visible : List ℕ} {batch : List ℕ},
      Covered s.Published (VisibleBefore visible) batch →
        Covered s'.Published (VisibleBefore visible) batch :=
    fun hbatch => hbatch.mono (fun p hp => published_of_step h hp) (fun _ _ _ hp => .inl hp)
  cases claims_of_step h htx' with
  | kept _ hmem hother =>
      refine ⟨fun p hp => position_of_step h (hs.visible tx' hmem p hp),
        hcovered (hs.claims tx' hmem), ?_⟩
      intro peeked hpeeked p hp
      exact hlater p _ (hs.pending tx' hmem peeked hpeeked p hp)
  | begun args haction hfresh =>
      refine ⟨?_, Covered.nil, ?_⟩
      · intro p hp
        exact absurd hp List.not_mem_nil
      · intro peeked hpeeked
        cases hpeeked
  | looked tx haction hmem hpending =>
      have htoClaim : (s.lookOf tx).point.toClaim = tx.point.toClaim := ClaimPoint.look_toClaim
      rw [htoClaim]
      refine ⟨?_, ?_, ?_⟩
      · intro p hp
        refine position_of_step h ?_
        simp only [RelayState.lookOf] at hp
        split at hp
        · obtain ⟨row, hrow, rfl⟩ := List.mem_map.1 hp
          exact ⟨row, hrow, rfl⟩
        · exact hs.visible tx hmem p hp
      · by_cases hhead : tx.point = .headPeek
        · rw [hhead]
          exact Covered.nil
        · have hvisible : (s.lookOf tx).visible = tx.visible := if_neg hhead
          rw [hvisible]
          exact hcovered (hs.claims tx hmem)
      · intro peeked hpeeked p hp
        exact hlater p _ (pending_of_look hs hmem hpending hpeeked p hp)
  | locked tx locked peeked haction hmem hpending hlocked =>
      obtain ⟨hnone, htoClaim⟩ := ClaimPoint.lock_cases hpending tx.args.time locked
      refine ⟨fun p hp => position_of_step h (hs.visible tx hmem p hp), ?_, ?_⟩
      · rcases htoClaim with htoClaim | ⟨htoClaim, -⟩
        · simp only [htoClaim]
          exact hcovered (hs.claims tx hmem)
        · simp only [htoClaim, List.map_append, List.map_singleton]
          refine hcovered ((hs.claims tx hmem).snoc ?_)
          exact hs.pending tx hmem peeked hpending
      · intro row hrow
        simp only [hnone] at hrow
        cases hrow

/-- A mark that updates a row leaves it published. -/
theorem published_of_mark (hseq : s.Sequenced) (hs : s.Sound) {run : RelayRun} {time : Instant}
    {record : ClaimedOutboxRecord} {rest : List ClaimedOutboxRecord}
    (h : relay.step s (.mark run time) s') (hpoint : run.point = .mark record rest)
    (hmarked : (markPublished s.outbox.rows record.event.eventId run.claimToken time).2 = true) :
    s'.Published record.outboxPosition := by
  have hcount : 0 < s.outbox.rows.countP
      (ownsPublishLease record.event.eventId run.claimToken time) := by
    have hone := of_decide_eq_true hmarked
    omega
  obtain ⟨row, hrow, howns⟩ := List.countP_pos_iff.1 hcount
  have hevent := (ownsPublishLease_eq_true.1 howns).1
  -- the row that is marked is the row of the record
  obtain ⟨known, hknown, hkey⟩ := hs.records run h.1.1 record
    (by rw [hpoint]; exact List.mem_cons_self)
  have hsame : row = known := by
    refine hseq.eq_of_event hrow hknown ?_
    rw [hevent]
    exact congrArg DomainEvent.eventId (congrArg Prod.fst hkey).symm
  subst hsame
  rw [h.2]
  simp only [RelayState.apply, hpoint, RelayState.Published, markPublished]
  refine ⟨_, List.mem_map_of_mem hrow, ?_, ?_⟩
  · rw [if_pos howns]
    exact congrArg Prod.snd hkey
  · rw [if_pos howns]
    exact Option.some_ne_none time

/-- A run leaves nothing behind: it goes on to the next record only after a mark. -/
theorem run_ordered_of_step (hs : s.Ordered) (hsound : s.Sequenced ∧ s.Sound)
    (h : relay.step s action s') {run' : RelayRun} (hrun' : run' ∈ s'.runs) :
    Covered s'.Published (VisibleBefore run'.visible)
      (run'.point.todo.map (·.outboxPosition)) := by
  have hcovered : ∀ {visible : List ℕ} {batch : List ℕ},
      Covered s.Published (VisibleBefore visible) batch →
        Covered s'.Published (VisibleBefore visible) batch :=
    fun hbatch => hbatch.mono (fun p hp => published_of_step h hp) (fun _ _ _ hp => .inl hp)
  cases runs_of_step h hrun' with
  | kept _ hmem => exact hcovered (hs.runs run' hmem)
  | begun tx rows haction hmem hpoint hflush =>
      have htodo : (RelayState.runOf tx).point.todo.map (·.outboxPosition)
          = tx.point.toClaim.map (·.position) := by
        simp only [RelayState.runOf, RelayPoint.todo, List.map_map]
        rfl
      rw [htodo]
      exact hcovered (hs.claims tx hmem)
  | published run outcome stored record rest haction hmem hpoint hstored =>
      have hbatch := hs.runs run hmem
      rw [hpoint] at hbatch
      rw [(run.afterPublish_fixed outcome).2]
      simp only [RelayRun.afterPublish, hpoint]
      split
      · exact hcovered hbatch
      · exact Covered.nil
  | marked run time record rest haction hmem hpoint =>
      have hbatch := hs.runs run hmem
      rw [hpoint] at hbatch
      rw [(run.afterMark_fixed _).2]
      simp only [RelayRun.afterMark, hpoint]
      split
      · rename_i hmarked
        subst haction
        exact (hcovered hbatch).tail (published_of_mark hsound.1 hsound.2 h hpoint hmarked)
      · exact Covered.nil
  | released run time todo outcome haction hmem hpoint =>
      obtain ⟨todo', hreleased⟩ := RelayRun.afterRelease_point hpoint
      rw [hreleased]
      exact Covered.nil

theorem ordered_of_step (hs : s.Ordered) (hsound : s.Sequenced ∧ s.Sound)
    (h : relay.step s action s') : s'.Ordered where
  visible _ htx := (claim_ordered_of_step hs h htx).1
  claims _ htx := (claim_ordered_of_step hs h htx).2.1
  pending _ htx := (claim_ordered_of_step hs h htx).2.2
  runs _ hrun := run_ordered_of_step hs hsound h hrun

/-- The invariants of delivery hold in every reachable state. -/
theorem ordered_of_relay (h : relay.Reachable s) : s.Acked ∧ s.Ordered := by
  have hall : (s.Sequenced ∧ s.Sound) ∧ s.Acked ∧ s.Ordered := by
    refine h.invariant (I := fun s => (s.Sequenced ∧ s.Sound) ∧ s.Acked ∧ s.Ordered) ?_ ?_
    · rintro s₀ rfl
      refine ⟨sound_of_relay (.of_init rfl), ?_, ?_⟩
      · intro run hrun
        exact absurd hrun List.not_mem_nil
      · constructor <;> simp
    · rintro s action s' ⟨hsound, hacked, hordered⟩ hstep
      exact ⟨⟨sequenced_preserved s action s' hsound.1 hstep,
        sound_of_step hsound.2 hsound.1 hstep⟩, acked_of_step hacked hstep,
        ordered_of_step hordered hsound hstep⟩
  exact hall.2

/-! ### Marks -/

/-- What holds when a run marks a row at an instant: the run has published the row's event, it owns
the row's unexpired lease, and the smaller positions its claim could see are published. -/
structure Marked (s : RelayState) (run : RelayRun) (row : OutboxRow) (time : Instant) : Prop where
  owned : row.publishClaimToken = some run.claimToken ∧
    ∃ lease, row.publishLeaseExpiresAt = some lease ∧ time < lease
  acknowledged : ∃ delivery ∈ s.log, delivery.event = row.event ∧
    delivery.claimToken = run.claimToken ∧ delivery.acknowledged = true
  ordered : ∀ p ∈ run.visible, p < row.position → s.Published p

/-- **A row is first marked by a run that has published it, under its unexpired lease, and after
all that its claim could see before it.** -/
theorem marked_of_step (h : relay.Reachable s) (hstep : relay.step s action s')
    {row row' : OutboxRow} (hrow : row ∈ s.outbox.rows) (hrow' : row' ∈ s'.outbox.rows)
    (hkey : row'.key = row.key) (hunpublished : row.publishedAt = none) {time : Instant}
    (hpublished : row'.publishedAt = some time) :
    ∃ run ∈ s.runs, action = .mark run time ∧ Marked s run row time := by
  obtain ⟨hseq, hsound⟩ := sound_of_relay h
  obtain ⟨hacked, hordered⟩ := ordered_of_relay h
  -- the row the step comes from is the same one
  have hchange : OutboxChange action row row' := by
    rcases row_before_step hstep hrow' with ⟨hinserted, -⟩ | ⟨old, hold, hchange⟩
    · have hnone := (hseq.fresh row' hinserted).1
      rw [hpublished] at hnone
      cases hnone
    · have hposition : old.position = row.position :=
        hchange.fixed.2.1.symm.trans (congrArg Prod.snd hkey)
      have hsame := hseq.eq_of_position (mem_drawn hold) (mem_drawn hrow) hposition
      rw [← hsame]
      exact hchange
  cases hchange with
  | same =>
      rw [hunpublished] at hpublished
      cases hpublished
  | claimed tx loaded haction hloaded =>
      have hmark := (ClaimArgs.flushed_fixed tx.args tx.point.toClaim row).2.2
      rw [hmark, hunpublished] at hpublished
      cases hpublished
  | released run record time errorClass haction hpoint howns =>
      rw [hunpublished] at hpublished
      cases hpublished
  | marked run record rest instant haction hpoint howns =>
      cases hpublished
      subst haction
      obtain ⟨hmem, -⟩ := hstep.1
      obtain ⟨hevent, htoken, -, hlease⟩ := ownsPublishLease_eq_true.1 howns
      obtain ⟨known, hknown, hknownKey⟩ := hsound.records run hmem record
        (by rw [hpoint]; exact List.mem_cons_self)
      have hrecord : known.event = record.event := congrArg Prod.fst hknownKey
      have hsame : row = known := by
        refine hseq.eq_of_event hrow hknown ?_
        rw [hevent, hrecord]
      subst hsame
      refine ⟨run, hmem, rfl, ⟨⟨htoken, hlease⟩, ?_, ?_⟩⟩
      · obtain ⟨delivery, hdelivery, hsameKey, hrest⟩ := hacked run hmem record rest hpoint
        have hsameEvent : delivery.event = record.event := congrArg Prod.fst hsameKey
        exact ⟨delivery, hdelivery, hsameEvent.trans hrecord.symm, hrest⟩
      · intro p hp hlt
        have hbatch := hordered.runs run hmem
        rw [hpoint] at hbatch
        simp only [RelayPoint.todo, List.map_cons] at hbatch
        have hposition : row.position = record.outboxPosition := congrArg Prod.snd hknownKey
        rw [hposition] at hlt
        exact hbatch.head ⟨hp, hlt⟩

/-! ### No row is lost -/

/-- A look of the only claim under way. -/
theorem look_alone {tx : ClaimTx} (hclaims : s.claims = [tx]) (hpending : tx.point.pending = none) :
    ∃ s', relay.step s (.look tx) s' ∧ s'.outbox = s.outbox ∧ s'.claims = [s.lookOf tx] := by
  refine ⟨s.apply (.look tx), ⟨⟨?_, hpending⟩, rfl⟩, rfl, ?_⟩
  · rw [hclaims]
    exact List.mem_singleton_self tx
  · simp [RelayState.apply, hclaims]

/-- A locking query of the only claim under way. -/
theorem lock_alone {tx : ClaimTx} {peeked : OutboxRow} (hclaims : s.claims = [tx])
    (hpending : tx.point.pending = some peeked) (hpeeked : peeked ∈ s.outbox.rows) :
    ∃ s', relay.step s (.lock tx (some peeked)) s' ∧ s'.outbox = s.outbox ∧
      s'.claims = [{ tx with point := tx.point.lock tx.args.time (some peeked) }] := by
  refine ⟨s.apply (.lock tx (some peeked)), ⟨⟨?_, peeked, hpending, ?_⟩, rfl⟩, rfl, ?_⟩
  · rw [hclaims]
    exact List.mem_singleton_self tx
  · intro row hrow
    cases hrow
    refine ⟨hpeeked, rfl, ?_⟩
    simp [hclaims, RelayState.Held]
  · simp [RelayState.apply, hclaims]

/-- The loop of a claim that runs alone: it locks committed rows that are claimable, and comes to
its assignment. -/
theorem claims_on {args : ClaimArgs} {visible : List ℕ} (room : ℕ) :
    ∀ (s : RelayState) (toClaim : List OutboxRow), args.batchSize - toClaim.length ≤ room →
      s.claims = [⟨args, .nextPeek toClaim, visible⟩] →
      (∀ row ∈ toClaim, row ∈ s.outbox.rows ∧ isClaimable row args.time = true) →
      ∃ actions s' batch, relay.Run s actions s' ∧ s'.outbox = s.outbox ∧
        s'.claims = [⟨args, .assign batch, visible⟩] ∧ toClaim ⊆ batch ∧
        ∀ row ∈ batch, row ∈ s.outbox.rows ∧ isClaimable row args.time = true := by
  -- by induction on the room that is left in the batch
  induction room with
  | zero =>
      intro s toClaim hroom hclaims hrows
      obtain ⟨s₁, hlook, houtbox, hclaims₁⟩ := look_alone hclaims rfl
      refine ⟨_, s₁, toClaim, .single hlook, houtbox, ?_, List.Subset.refl _, hrows⟩
      have hfull : ¬ toClaim.length < args.batchSize := by omega
      rw [hclaims₁]
      simp [RelayState.lookOf, ClaimPoint.look, hfull]
  | succ room ih =>
      intro s toClaim hroom hclaims hrows
      obtain ⟨s₁, hlook, houtbox, hclaims₁⟩ := look_alone hclaims rfl
      by_cases hlt : toClaim.length < args.batchSize
      · cases hfound : firstUnpublished s.outbox.rows (toClaim.getLast?.map (·.position)) with
        | none =>
            refine ⟨_, s₁, toClaim, .single hlook, houtbox, ?_, List.Subset.refl _, hrows⟩
            rw [hclaims₁]
            simp [RelayState.lookOf, ClaimPoint.look, hlt, hfound]
        | some next =>
            obtain ⟨hnext, hunpublished, -, -⟩ := firstUnpublished_eq_some hfound
            have hclaims₂ : s₁.claims = [⟨args, .lockNext toClaim next, visible⟩] := by
              rw [hclaims₁]
              simp [RelayState.lookOf, ClaimPoint.look, hlt, hfound]
            obtain ⟨s₂, hlock, houtbox₂, hclaims₃⟩ := lock_alone hclaims₂ rfl
              (by rw [houtbox]; exact hnext)
            have hrun := (Lts.Run.single hlook).append (.single hlock)
            by_cases hclaimable : isClaimable next args.time = true
            · -- the row is locked too, and the loop goes on with less room
              have hclaims₄ : s₂.claims = [⟨args, .nextPeek (toClaim ++ [next]), visible⟩] := by
                rw [hclaims₃]
                simp [ClaimPoint.lock, IdentityMap.view, hunpublished, hclaimable]
              have hrows₂ : ∀ row ∈ toClaim ++ [next],
                  row ∈ s₂.outbox.rows ∧ isClaimable row args.time = true := by
                rw [houtbox₂, houtbox]
                intro row hrow
                rcases List.mem_append.1 hrow with hrow | hrow
                · exact hrows row hrow
                · rw [List.mem_singleton.1 hrow]
                  exact ⟨hnext, hclaimable⟩
              have hless : args.batchSize - (toClaim ++ [next]).length ≤ room := by
                rw [List.length_append, List.length_singleton]
                omega
              obtain ⟨actions, s', batch, hrest, houtbox', hclaims', hsubset, hbatch⟩ :=
                ih s₂ (toClaim ++ [next]) hless hclaims₄ hrows₂
              rw [houtbox₂, houtbox] at houtbox' hbatch
              exact ⟨_, s', batch, hrun.append hrest, houtbox', hclaims',
                fun row hrow => hsubset (List.mem_append_left _ hrow), hbatch⟩
            · refine ⟨_, s₂, toClaim, hrun, houtbox₂.trans houtbox, ?_, List.Subset.refl _, hrows⟩
              rw [hclaims₃]
              simp [ClaimPoint.lock, IdentityMap.view, hunpublished, hclaimable]
      · refine ⟨_, s₁, toClaim, .single hlook, houtbox, ?_, List.Subset.refl _, hrows⟩
        rw [hclaims₁]
        simp [RelayState.lookOf, ClaimPoint.look, hlt]

/-- **The first unpublished row is claimed** by the next claim that runs alone, once its lease has
expired. -/
theorem head_is_claimed (hseq : s.Sequenced) (hsound : s.Sound) (hclaims : s.claims = [])
    {head : OutboxRow} (hhead : firstUnpublished s.outbox.rows none = some head)
    {args : ClaimArgs} (hfresh : args.claimantToken ∉ s.issued)
    (hclaimable : isClaimable head args.time = true) :
    ∃ actions s', relay.Run s actions s' ∧ ∃ row ∈ s'.outbox.rows, row.key = head.key ∧
      row.publishClaimToken = some args.claimantToken := by
  obtain ⟨hmem, hunpublished, -, -⟩ := firstUnpublished_eq_some hhead
  have hbegin : relay.step s (.begin args) (s.apply (.begin args)) := ⟨hfresh, rfl⟩
  have hclaims₀ : (s.apply (.begin args)).claims = [⟨args, .headPeek, []⟩] := by
    simp [RelayState.apply, hclaims]
  obtain ⟨s₁, hlook, houtbox₁, hclaims₁⟩ := look_alone hclaims₀ rfl
  have hclaims₂ : s₁.claims
      = [⟨args, .lockHead head, s.outbox.rows.map (·.position)⟩] := by
    rw [hclaims₁]
    simp [RelayState.apply, RelayState.lookOf, ClaimPoint.look, hhead]
  obtain ⟨s₂, hlock, houtbox₂, hclaims₃⟩ := lock_alone hclaims₂ rfl
    (by rw [houtbox₁]; exact hmem)
  have hclaims₄ : s₂.claims
      = [⟨args, .nextPeek [head], s.outbox.rows.map (·.position)⟩] := by
    rw [hclaims₃]
    simp [ClaimPoint.lock, IdentityMap.view, hunpublished, hclaimable]
  have houtbox : s₂.outbox = s.outbox := houtbox₂.trans houtbox₁
  obtain ⟨actions, s₃, batch, hrun, houtbox₃, hclaims₅, hsubset, hbatch⟩ :=
    claims_on args.batchSize s₂ [head] (Nat.sub_le _ _) hclaims₄ (by
      rw [houtbox]
      intro row hrow
      rw [List.mem_singleton.1 hrow]
      exact ⟨hmem, hclaimable⟩)
  rw [houtbox] at houtbox₃ hbatch
  -- the rows are as the session has them, so the flush succeeds
  have hcurrent : ∀ row ∈ s.outbox.rows, ∀ loaded, ClaimArgs.instanceOf batch row = some loaded →
      loaded = row ∧ row.publishedAt = none := by
    intro row hrow loaded hloaded
    obtain ⟨hin, hevent⟩ := ClaimArgs.instanceOf_mem hloaded
    have hsame := hseq.eq_of_event (hbatch loaded hin).1 hrow hevent
    subst hsame
    exact ⟨rfl, (isClaimable_eq_true.1 (hbatch loaded hin).2).1⟩
  have hflush : args.flush batch s.outbox.rows = .ok (s.outbox.rows.map (args.flushed batch)) :=
    ClaimArgs.flush_of_current hcurrent
  let tx : ClaimTx := ⟨args, .assign batch, s.outbox.rows.map (·.position)⟩
  have hclaim : relay.step s₃ (.claim tx) (s₃.apply (.claim tx)) :=
    ⟨⟨by rw [hclaims₅]; exact List.mem_singleton_self _, rfl⟩, rfl⟩
  refine ⟨_, _, (((((Lts.Run.single hbegin).append (.single hlook)).append (.single hlock)).append
    hrun).append (.single hclaim)), args.flushed batch head, ?_, ?_, ?_⟩
  · simp only [RelayState.apply, tx, ClaimPoint.toClaim, houtbox₃, hflush]
    exact List.mem_map_of_mem hmem
  · obtain ⟨hevent, hposition, -⟩ := ClaimArgs.flushed_fixed args batch head
    rw [OutboxRow.key, OutboxRow.key, hevent, hposition]
  · cases hloaded : ClaimArgs.instanceOf batch head with
    | none =>
        have hnot := ClaimArgs.instanceOf_eq_none.1 hloaded head
          (hsubset (List.mem_singleton_self head))
        exact absurd rfl hnot
    | some loaded =>
        obtain ⟨rfl, -⟩ := hcurrent head hmem loaded hloaded
        refine ClaimArgs.flushed_token hloaded ?_
        intro htoken
        exact hfresh (hsound.issued loaded hmem _ htoken)

/-! ### Delivery -/

/-- What the relay guarantees from a state on. -/
structure RelayState.Delivers (s : RelayState) : Prop where
  /-- A row is first marked by a run that has published it, under its unexpired lease, and after
  the rows before it that were visible to the claim. -/
  marks : ∀ action s', relay.step s action s' → ∀ row ∈ s.outbox.rows, ∀ row' ∈ s'.outbox.rows,
    row'.key = row.key → row.publishedAt = none → ∀ time, row'.publishedAt = some time →
      ∃ run ∈ s.runs, action = .mark run time ∧ Marked s run row time
  /-- A committed row stays, and so does its mark. -/
  kept : ∀ actions s', relay.Run s actions s' → ∀ row ∈ s.outbox.rows, ∃ row' ∈ s'.outbox.rows,
    row'.key = row.key ∧ ∀ time, row.publishedAt = some time → row'.publishedAt = some time
  /-- A row that is not published is claimable, at the latest when its lease has expired. -/
  claimable : ∀ row ∈ s.outbox.rows, row.publishedAt = none → ∀ time,
    (∀ lease ∈ row.publishLeaseExpiresAt, lease ≤ time) → isClaimable row time = true
  /-- The first of them is claimed by a claim that runs alone. -/
  head : ∀ row, s.claims = [] → firstUnpublished s.outbox.rows none = some row →
    ∀ args : ClaimArgs, args.claimantToken ∉ s.issued →
      (∀ lease ∈ row.publishLeaseExpiresAt, lease ≤ args.time) →
      ∃ actions s', relay.Run s actions s' ∧ ∃ row' ∈ s'.outbox.rows, row'.key = row.key ∧
        row'.publishClaimToken = some args.claimantToken

/-- **At-least-once delivery with fencing.**  Whatever claims, runs, crashes and transactions that
enqueue events are under way: a row is marked only after the publication of its event returned in a
run that owns its unexpired lease; a mark is never undone; what the first look of its claim saw
before the row is published by then; and no row is lost. -/
theorem relay_delivery (h : relay.Reachable s) : s.Delivers := by
  obtain ⟨hseq, hsound⟩ := sound_of_relay h
  have hclaimable : ∀ row : OutboxRow, row.publishedAt = none → ∀ time,
      (∀ lease ∈ row.publishLeaseExpiresAt, lease ≤ time) → isClaimable row time = true :=
    fun row hunpublished time hexpired => isClaimable_eq_true.2 ⟨hunpublished, .inr hexpired⟩
  refine ⟨?_, ?_, fun row _ => hclaimable row, ?_⟩
  · intro action s' hstep row hrow row' hrow' hkey hunpublished time hpublished
    exact marked_of_step h hstep hrow hrow' hkey hunpublished hpublished
  · intro actions s' hrun row hrow
    refine hrun.preserves (I := fun t => ∃ row' ∈ t.outbox.rows, row'.key = row.key ∧
      ∀ time, row.publishedAt = some time → row'.publishedAt = some time) ?_
      ⟨row, hrow, rfl, fun _ h => h⟩
    rintro t action t' ⟨row₁, hrow₁, hkey, hmark⟩ hstep
    obtain ⟨row₂, hrow₂, hchange⟩ := row_of_step hstep hrow₁
    obtain ⟨hevent, hposition, hkept⟩ := hchange.fixed
    refine ⟨row₂, hrow₂, ?_, fun time htime => hkept time (hmark time htime)⟩
    rw [← hkey, OutboxRow.key, OutboxRow.key, hevent, hposition]
  · intro row hclaims hhead args hfresh hexpired
    refine head_is_claimed hseq hsound hclaims hhead hfresh ?_
    exact hclaimable row (firstUnpublished_eq_some hhead).2.1 args.time hexpired

end Step

end Atlas
