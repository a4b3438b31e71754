/-
**What holds of the outbox in every reachable state.**

Positions and events identify the rows, also those of transactions that are still open; a row
carries no claim once it is published; and a claim under way has a token no row carries.  The
instances of a claim transaction and the records of a run are those of committed rows.

Main definitions:

* `Atlas.ClaimPoint.instances` — the rows a claim transaction has in its session;
* `Atlas.RelayState.Sequenced`, `Atlas.RelayState.Sound` — the invariants.

Main results:

* `Atlas.drawn_of_step` — **what a step makes of the rows that have drawn a position**;
* `Atlas.sequenced_of_relay`, `Atlas.sound_of_relay` — the invariants hold in every reachable
  state;
* `Atlas.RelayState.Sequenced.eq_of_event`, `Atlas.RelayState.Sequenced.eq_of_position` — an event
  or a position identifies its row.
-/

import Atlas.OutboxRelay

set_option relaxedAutoImplicit false
set_option autoImplicit false

namespace Atlas

open Checked

/-! ### The rows that have drawn a position -/

/-- The event and the position of a row, which no step changes. -/
def OutboxRow.key (row : OutboxRow) : DomainEvent × ℕ := (row.event, row.position)

/-- Enqueueing appends a row that nobody has claimed, at the position drawn. -/
theorem enqueue_row {outbox outbox' : Outbox} {event : DomainEvent} {traceparent : Option String}
    (h : outbox.enqueue event traceparent = .ok outbox') :
    (∀ row ∈ outbox.rows, row.event.eventId ≠ event.eventId) ∧
      ∃ row : OutboxRow, outbox'.rows = outbox.rows ++ [row] ∧
        outbox'.nextPosition = outbox.nextPosition + 1 ∧ row.event = event ∧
        row.position = outbox.nextPosition ∧ row.publishedAt = none ∧
        row.publishClaimToken = none ∧ row.publishLeaseExpiresAt = none := by
  simp only [Outbox.enqueue, bind_eq_ok, ensure_eq_ok, pure_eq_ok] at h
  obtain ⟨_, hnew, _, -, rfl⟩ := h
  exact ⟨hnew, _, rfl, rfl, rfl, rfl, rfl, rfl, rfl⟩

section Step

variable {s s' : RelayState} {action : RelayAction}

/-- **A step draws the next position for an event no row has, or draws none**: then the rows that
have drawn one are among those that had. -/
theorem drawn_of_step (h : relay.step s action s') :
    (∃ row : OutboxRow, (∃ traceparent, action = .insert row.event traceparent) ∧
      s'.outbox.rows = s.outbox.rows ∧ s'.inserted = s.inserted ++ [row] ∧
      s'.outbox.nextPosition = s.outbox.nextPosition + 1 ∧
      row.position = s.outbox.nextPosition ∧
      (∀ other ∈ s.drawn.rows, other.event.eventId ≠ row.event.eventId) ∧
      row.publishedAt = none ∧ row.publishClaimToken = none ∧ row.publishLeaseExpiresAt = none) ∨
    (s'.outbox.nextPosition = s.outbox.nextPosition ∧ s'.inserted ⊆ s.inserted ∧
      (s'.drawn.rows.map (·.key)).Subperm (s.drawn.rows.map (·.key))) := by
  have hkept : ∀ t : RelayState, t.outbox.nextPosition = s.outbox.nextPosition →
      t.inserted = s.inserted →
      (∃ change : OutboxRow → OutboxRow, t.outbox.rows = s.outbox.rows.map change ∧
        ∀ row ∈ s.outbox.rows, OutboxChange action row (change row)) →
      t.outbox.nextPosition = s.outbox.nextPosition ∧ t.inserted ⊆ s.inserted ∧
        (t.drawn.rows.map (·.key)).Subperm (s.drawn.rows.map (·.key)) := by
    rintro t hnext hinserted ⟨change, hrows, hchange⟩
    refine ⟨hnext, ?_, ?_⟩
    · rw [hinserted]
      exact List.Subset.refl _
    · have hkeys : t.outbox.rows.map (·.key) = s.outbox.rows.map (·.key) := by
        rw [hrows, List.map_map]
        refine List.map_congr_left ?_
        intro row hrow
        obtain ⟨hevent, hposition, -⟩ := (hchange row hrow).fixed
        simp only [Function.comp, OutboxRow.key, hevent, hposition]
      rw [RelayState.drawn, RelayState.drawn, List.map_append, List.map_append, hkeys, hinserted]
  rcases rows_of_step h with ⟨row, hrow, rfl, hrows⟩ | hchange
  · -- the row of a transaction that commits has its position already
    obtain ⟨-, rfl⟩ := h
    refine .inr ⟨rfl, List.erase_subset, List.Perm.subperm ?_⟩
    refine List.Perm.map _ ?_
    simp only [RelayState.drawn, RelayState.apply, List.append_assoc, List.singleton_append]
    exact (List.perm_cons_erase hrow).symm.append_left _
  · have hstep := h
    obtain ⟨hallows, rfl⟩ := h
    cases action with
    | insert event traceparent =>
        cases henqueue : s.drawn.enqueue event traceparent with
        | error e =>
            refine .inr (hkept _ ?_ ?_ hchange)
            · simp only [RelayState.apply, henqueue]
            · simp only [RelayState.apply, henqueue]
        | ok drawn =>
            obtain ⟨hnew, row, hrows, hnext, rfl, hposition, hfresh⟩ := enqueue_row henqueue
            refine .inl ⟨row, ⟨traceparent, rfl⟩, ?_, ?_, ?_, hposition, hnew, hfresh⟩
            · simp only [RelayState.apply, henqueue]
            · simp only [RelayState.apply, henqueue]
              rw [hrows]
              simp only [RelayState.drawn, List.append_assoc, List.drop_left]
            · simp only [RelayState.apply, henqueue]
              exact hnext
    | commit row =>
        obtain ⟨change, hrows, -⟩ := hchange
        have hlength := congrArg List.length hrows
        simp [RelayState.apply] at hlength
    | rollback row =>
        refine .inr ⟨rfl, List.erase_subset, List.Sublist.subperm (List.Sublist.map _ ?_)⟩
        exact List.Sublist.append_left List.erase_sublist _
    | claim tx =>
        refine .inr (hkept _ ?_ ?_ hchange)
        · simp only [RelayState.apply]
          split <;> rfl
        · simp only [RelayState.apply]
          split <;> rfl
    | mark run time =>
        obtain ⟨-, record, rest, hpoint, -⟩ := hallows
        refine .inr (hkept _ ?_ ?_ hchange)
        · simp only [RelayState.apply, hpoint]
        · simp only [RelayState.apply, hpoint]
    | release run time =>
        obtain ⟨-, record, errorClass, rest, outcome, hpoint, -⟩ := hallows
        refine .inr (hkept _ ?_ ?_ hchange)
        · simp only [RelayState.apply, hpoint]
        · simp only [RelayState.apply, hpoint]
    | _ => exact .inr (hkept _ rfl rfl hchange)

/-! ### Positions and events -/

/-- Positions and events identify the rows, the sequence is past all of them, and the rows of open
transactions carry neither a mark nor a claim. -/
structure RelayState.Sequenced (s : RelayState) : Prop where
  positions : (s.drawn.rows.map (·.position)).Nodup
  events : (s.drawn.rows.map (·.event.eventId)).Nodup
  below : ∀ row ∈ s.drawn.rows, row.position < s.outbox.nextPosition
  fresh : ∀ row ∈ s.inserted, row.publishedAt = none ∧ row.publishClaimToken = none ∧
    row.publishLeaseExpiresAt = none

/-- What identifies the keys of some rows identifies those of a part of them. -/
theorem nodup_of_subperm {α β : Type} {l l' : List α} (f : α → β) (h : l'.Subperm l)
    (hl : (l.map f).Nodup) : (l'.map f).Nodup := by
  obtain ⟨m, hperm, hsub⟩ := h
  exact (hperm.map f).nodup_iff.1 (hl.sublist (hsub.map f))

theorem sequenced_preserved : relay.Preserved RelayState.Sequenced := by
  intro s action s' hs hstep
  rcases drawn_of_step hstep with
    ⟨row, -, hrows, hinserted, hnext, hposition, hnew, hunpublished, htoken, hlease⟩ |
    ⟨hnext, hinserted, hkeys⟩
  · have hdrawn : s'.drawn.rows = s.drawn.rows ++ [row] := by
      simp only [RelayState.drawn, hrows, hinserted, List.append_assoc]
    refine ⟨?_, ?_, ?_, ?_⟩
    · rw [hdrawn, List.map_append, List.map_singleton, ← List.concat_eq_append]
      refine hs.positions.concat ?_
      intro hmem
      obtain ⟨other, hother, heq⟩ := List.mem_map.1 hmem
      have hlt := hs.below other hother
      omega
    · rw [hdrawn, List.map_append, List.map_singleton, ← List.concat_eq_append]
      refine hs.events.concat ?_
      intro hmem
      obtain ⟨other, hother, heq⟩ := List.mem_map.1 hmem
      exact hnew other hother heq
    · intro other hother
      rw [hdrawn, List.mem_append, List.mem_singleton] at hother
      rcases hother with hother | rfl
      · have hlt := hs.below other hother
        omega
      · omega
    · intro other hother
      rw [hinserted, List.mem_append, List.mem_singleton] at hother
      rcases hother with hother | rfl
      · exact hs.fresh other hother
      · exact ⟨hunpublished, htoken, hlease⟩
  · refine ⟨?_, ?_, ?_, fun row hrow => hs.fresh row (hinserted hrow)⟩
    · have h := nodup_of_subperm Prod.snd hkeys (by rw [List.map_map]; exact hs.positions)
      rw [List.map_map] at h
      exact h
    · have h := nodup_of_subperm (fun key => key.1.eventId) hkeys
        (by rw [List.map_map]; exact hs.events)
      rw [List.map_map] at h
      exact h
    · intro row hrow
      obtain ⟨other, hother, heq⟩ := List.mem_map.1
        (hkeys.subset (List.mem_map_of_mem (f := (·.key)) hrow))
      have hposition : other.position = row.position := congrArg Prod.snd heq
      have hlt := hs.below other hother
      omega

theorem sequenced_of_relay (h : relay.Reachable s) : s.Sequenced := by
  refine h.invariant ?_ sequenced_preserved
  rintro s₀ rfl
  refine ⟨List.nodup_nil, List.nodup_nil, ?_, ?_⟩
  · intro row hrow
    exact absurd hrow List.not_mem_nil
  · intro row hrow
    exact absurd hrow List.not_mem_nil

/-- A committed row is one that has drawn a position. -/
theorem mem_drawn {row : OutboxRow} (h : row ∈ s.outbox.rows) : row ∈ s.drawn.rows :=
  List.mem_append_left _ h

/-- An event identifies its row. -/
theorem RelayState.Sequenced.eq_of_event (h : s.Sequenced) {row other : OutboxRow}
    (hrow : row ∈ s.outbox.rows) (hother : other ∈ s.outbox.rows)
    (heq : row.event.eventId = other.event.eventId) : row = other :=
  List.inj_on_of_nodup_map h.events (mem_drawn hrow) (mem_drawn hother) heq

/-- A position identifies its row. -/
theorem RelayState.Sequenced.eq_of_position (h : s.Sequenced) {row other : OutboxRow}
    (hrow : row ∈ s.drawn.rows) (hother : other ∈ s.drawn.rows)
    (heq : row.position = other.position) : row = other :=
  List.inj_on_of_nodup_map h.positions hrow hother heq

/-! ### Instances and records -/

end Step

/-- The rows a claim transaction has in its session. -/
def ClaimPoint.instances (point : ClaimPoint) : List OutboxRow :=
  point.toClaim ++ point.pending.toList

namespace ClaimPoint

variable {point : ClaimPoint} {rows : List OutboxRow} {batchSize : ℕ} {row : OutboxRow}
  {time : Instant} {locked : Option OutboxRow}

theorem mem_instances_of_toClaim (h : row ∈ point.toClaim) : row ∈ point.instances :=
  List.mem_append_left _ h

theorem mem_instances_of_pending (h : point.pending = some row) : row ∈ point.instances := by
  refine List.mem_append_right _ ?_
  rw [h]
  exact List.mem_singleton_self row

/-- A look changes nothing of what a transaction has locked, and adds the row it finds. -/
theorem look_toClaim : (point.look batchSize rows).toClaim = point.toClaim := by
  cases point with
  | headPeek =>
      simp only [look]
      split <;> rfl
  | nextPeek toClaim =>
      simp only [look]
      split
      · split <;> rfl
      · rfl
  | _ => rfl

theorem look_pending (hpending : point.pending = none)
    (h : (point.look batchSize rows).pending = some row) :
    (point = headPeek ∧ firstUnpublished rows none = some row) ∨
      ∃ toClaim, point = nextPeek toClaim ∧ toClaim.length < batchSize ∧
        firstUnpublished rows (toClaim.getLast?.map (·.position)) = some row := by
  cases point with
  | headPeek =>
      simp only [look] at h
      split at h
      · cases h
      · rename_i found hfound
        simp only [pending, Option.some.injEq] at h
        exact .inl ⟨rfl, by rw [hfound, h]⟩
  | nextPeek toClaim =>
      simp only [look] at h
      split at h
      · rename_i hlt
        split at h
        · cases h
        · rename_i found hfound
          simp only [pending, Option.some.injEq] at h
          exact .inr ⟨toClaim, rfl, hlt, by rw [hfound, h]⟩
      · cases h
  | lockHead peeked => cases hpending
  | lockNext toClaim peeked => cases hpending
  | assign toClaim => cases h
  | returned => cases h

/-- **What a look leaves behind**: a committed row before the row it finds is published, or stands
before the end of the batch, or is the end of it. -/
theorem look_behind {peeked : OutboxRow} (hpending : point.pending = none)
    (hpeeked : (point.look batchSize rows).pending = some peeked) (hrow : row ∈ rows)
    (hlt : row.position < peeked.position) :
    row.publishedAt ≠ none ∨
      ∃ front last, point.toClaim = front ++ [last] ∧ row.position ≤ last.position := by
  rcases look_pending hpending hpeeked with ⟨hhead, hfound⟩ | ⟨toClaim, hnext, -, hfound⟩
  · exact .inl ((firstUnpublished_eq_some hfound).2.2.2 row hrow (by simp) hlt)
  · have hfirst := (firstUnpublished_eq_some hfound).2.2.2 row hrow
    rw [hnext]
    rcases List.eq_nil_or_concat toClaim with rfl | ⟨front, last, hlast⟩
    · exact .inl (hfirst (by simp) hlt)
    · rw [List.concat_eq_append] at hlast
      subst hlast
      rcases Nat.lt_or_ge last.position row.position with hafter | hbefore
      · refine .inl (hfirst ?_ hlt)
        intro q hq
        simp only [List.getLast?_append, List.getLast?_singleton, Option.some_or, Option.map_some,
          Option.mem_def, Option.some.injEq] at hq
        omega
      · exact .inr ⟨front, last, rfl, hbefore⟩

/-- An instance after a look was one before it, or is a committed row. -/
theorem look_instances (hpending : point.pending = none)
    (h : row ∈ (point.look batchSize rows).instances) : row ∈ point.instances ∨ row ∈ rows := by
  rcases List.mem_append.1 h with h | h
  · rw [look_toClaim] at h
    exact .inl (mem_instances_of_toClaim h)
  · rcases look_pending hpending (Option.mem_toList.1 h) with ⟨-, hfound⟩ | ⟨_, -, -, hfound⟩
    · exact .inr (firstUnpublished_eq_some hfound).1
    · exact .inr (firstUnpublished_eq_some hfound).1

/-- **A locking query keeps the row that was looked at, or drops it**; it keeps one that is
claimable as the session has it. -/
theorem lock_cases (hpending : point.pending = some row) (time : Instant)
    (locked : Option OutboxRow) :
    (point.lock time locked).pending = none ∧
      ((point.lock time locked).toClaim = point.toClaim ∨
        ((point.lock time locked).toClaim = point.toClaim ++ [row] ∧ locked.isSome = true ∧
          isClaimable row time = true)) := by
  cases point with
  | lockHead peeked =>
      cases hpending
      cases locked with
      | none => exact ⟨rfl, .inl rfl⟩
      | some committed =>
          simp only [lock]
          rw [IdentityMap.view_some]
          split
          · exact ⟨rfl, .inl rfl⟩
          · split
            · exact ⟨rfl, .inl rfl⟩
            · rename_i hclaimable
              simp only [Bool.not_eq_true, Bool.not_eq_false'] at hclaimable
              exact ⟨rfl, .inr ⟨rfl, rfl, hclaimable⟩⟩
  | lockNext toClaim peeked =>
      cases hpending
      cases locked with
      | none => exact ⟨rfl, .inl rfl⟩
      | some committed =>
          simp only [lock]
          rw [IdentityMap.view_some]
          split
          · exact ⟨rfl, .inl rfl⟩
          · split
            · exact ⟨rfl, .inl rfl⟩
            · rename_i hclaimable
              simp only [Bool.not_eq_true, Bool.not_eq_false'] at hclaimable
              exact ⟨rfl, .inr ⟨rfl, rfl, hclaimable⟩⟩
  | headPeek => cases hpending
  | nextPeek toClaim => cases hpending
  | assign toClaim => cases hpending
  | returned => cases hpending

theorem lock_instances {peeked : OutboxRow} (hpending : point.pending = some peeked)
    (h : row ∈ (point.lock time locked).instances) : row ∈ point.instances := by
  obtain ⟨hnone, htoClaim⟩ := lock_cases hpending time locked
  rw [instances, hnone, Option.toList_none, List.append_nil] at h
  rcases htoClaim with htoClaim | ⟨htoClaim, -⟩
  · rw [htoClaim] at h
    exact mem_instances_of_toClaim h
  · rw [htoClaim, List.mem_append, List.mem_singleton] at h
    rcases h with h | rfl
    · exact mem_instances_of_toClaim h
    · exact mem_instances_of_pending hpending

end ClaimPoint

section Step

variable {s s' : RelayState} {action : RelayAction}

/-- A row a claim transaction can put its claim on: it carries another token, or none, and it is
an instance of a committed row. -/
def RelayState.Instance (s : RelayState) (token : String) (row : OutboxRow) : Prop :=
  row.publishClaimToken ≠ some token ∧ ∃ committed ∈ s.outbox.rows, committed.key = row.key

/-- The invariant of claims and runs: no row has the token of a claim under way, the claims have
distinct tokens, and instances and records are those of committed rows. -/
structure RelayState.Sound (s : RelayState) : Prop where
  issued : ∀ row ∈ s.outbox.rows, ∀ token ∈ row.publishClaimToken, token ∈ s.issued
  drawn : ∀ tx ∈ s.claims, tx.args.claimantToken ∈ s.issued
  tokens : (s.claims.map (·.args.claimantToken)).Nodup
  unused : ∀ tx ∈ s.claims, ∀ row ∈ s.outbox.rows,
    row.publishClaimToken ≠ some tx.args.claimantToken
  instances : ∀ tx ∈ s.claims, ∀ row ∈ tx.point.instances,
    s.Instance tx.args.claimantToken row
  records : ∀ run ∈ s.runs, ∀ record ∈ run.point.todo,
    ∃ row ∈ s.outbox.rows, row.key = (record.event, record.outboxPosition)

/-- A key of the committed rows stays one. -/
theorem key_of_step (h : relay.step s action s') {key : DomainEvent × ℕ}
    (hkey : ∃ row ∈ s.outbox.rows, row.key = key) : ∃ row ∈ s'.outbox.rows, row.key = key := by
  obtain ⟨row, hrow, rfl⟩ := hkey
  obtain ⟨row', hrow', hchange⟩ := row_of_step h hrow
  obtain ⟨hevent, hposition, -⟩ := hchange.fixed
  exact ⟨row', hrow', by rw [OutboxRow.key, OutboxRow.key, hevent, hposition]⟩

theorem RelayState.Instance.step (h : relay.step s action s') {token : String} {row : OutboxRow}
    (hrow : s.Instance token row) : s'.Instance token row :=
  ⟨hrow.1, key_of_step h hrow.2⟩

/-- The token of a row after a step was on the row before, or is that of the claim that
commits. -/
theorem token_of_change {row row' : OutboxRow} (h : OutboxChange action row row')
    {token : String} (htoken : row'.publishClaimToken = some token)
    (hfresh : ∀ tx loaded, action = .claim tx → loaded ∈ tx.point.toClaim →
      loaded.publishClaimToken ≠ some tx.args.claimantToken) :
    row.publishClaimToken = some token ∨
      ∃ tx, action = .claim tx ∧ tx.args.claimantToken = token := by
  cases h with
  | same => exact .inl htoken
  | claimed tx loaded haction hloaded =>
      have hown := ClaimArgs.flushed_token hloaded
        (hfresh tx loaded haction (ClaimArgs.instanceOf_mem hloaded).1)
      exact .inr ⟨tx, haction, Option.some.inj (hown.symm.trans htoken)⟩
  | marked => cases htoken
  | released => cases htoken

/-- The tokens of the claims under way stay distinct: a claim that begins has a fresh one. -/
theorem claimTokens_of_step (hs : s.Sound) (h : relay.step s action s') :
    (s'.claims.map (·.args.claimantToken)).Nodup := by
  have hreplaced : ∀ tx tx' : ClaimTx, tx ∈ s.claims → tx'.args = tx.args →
      ((tx' :: s.claims.erase tx).map (·.args.claimantToken)).Nodup := by
    intro tx tx' hmem hargs
    have hperm : (s.claims.map (·.args.claimantToken)).Perm
        ((tx' :: s.claims.erase tx).map (·.args.claimantToken)) := by
      rw [List.map_cons, hargs, ← List.map_cons (f := fun tx : ClaimTx => tx.args.claimantToken)]
      exact (List.perm_cons_erase hmem).map _
    exact hperm.nodup_iff.1 hs.tokens
  obtain ⟨hallows, rfl⟩ := h
  cases action with
  | insert event traceparent =>
      simp only [RelayState.apply]
      split <;> exact hs.tokens
  | begin args =>
      refine List.nodup_cons.2 ⟨?_, hs.tokens⟩
      intro hmem
      obtain ⟨tx, htx, heq⟩ := List.mem_map.1 hmem
      have hdrawn := hs.drawn tx htx
      rw [show tx.args.claimantToken = args.claimantToken from heq] at hdrawn
      exact hallows hdrawn
  | look tx => exact hreplaced tx _ hallows.1 rfl
  | lock tx locked => exact hreplaced tx _ hallows.1 rfl
  | claim tx =>
      simp only [RelayState.apply]
      split <;> exact hs.tokens.sublist (List.erase_sublist.map _)
  | abort tx => exact hs.tokens.sublist (List.erase_sublist.map _)
  | mark run time =>
      obtain ⟨-, record, rest, hpoint, -⟩ := hallows
      simp only [RelayState.apply, hpoint]
      exact hs.tokens
  | release run time =>
      obtain ⟨-, record, errorClass, rest, outcome, hpoint, -⟩ := hallows
      simp only [RelayState.apply, hpoint]
      exact hs.tokens
  | _ => exact hs.tokens

/-- Of the claims under way, only a transaction itself has its token. -/
theorem RelayState.Sound.other (hs : s.Sound) {tx other : ClaimTx} (htx : tx ∈ s.claims)
    (hother : other ∈ s.claims.erase tx) :
    other ∈ s.claims ∧ other.args.claimantToken ≠ tx.args.claimantToken := by
  have hnodup : s.claims.Nodup := List.Nodup.of_map _ hs.tokens
  obtain ⟨hne, hmem⟩ := hnodup.mem_erase_iff.1 hother
  refine ⟨hmem, ?_⟩
  intro heq
  exact hne (List.inj_on_of_nodup_map hs.tokens hmem htx heq)

/-- The instances a claim assigns do not carry its token yet. -/
theorem RelayState.Sound.fresh (hs : s.Sound) (h : relay.step s action s') (tx : ClaimTx)
    (loaded : OutboxRow) (haction : action = .claim tx) (hloaded : loaded ∈ tx.point.toClaim) :
    loaded.publishClaimToken ≠ some tx.args.claimantToken := by
  subst haction
  exact (hs.instances tx h.1.1 loaded (ClaimPoint.mem_instances_of_toClaim hloaded)).1

/-- The committed rows carry tokens that were drawn. -/
theorem issued_of_rows (hs : s.Sound) (hseq : s.Sequenced) (h : relay.step s action s') :
    ∀ row ∈ s'.outbox.rows, ∀ token ∈ row.publishClaimToken, token ∈ s'.issued := by
  intro row' hrow' token htoken
  refine issued_of_step h ?_
  rcases row_before_step h hrow' with ⟨hinserted, -⟩ | ⟨row, hrow, hchange⟩
  · rw [(hseq.fresh row' hinserted).2.1] at htoken
    cases htoken
  · rcases token_of_change hchange htoken (hs.fresh h) with hold | ⟨tx, rfl, rfl⟩
    · exact hs.issued row hrow token hold
    · exact hs.drawn tx h.1.1

/-- A claim under way after a step has a token that no row carries. -/
theorem unused_of_step (hs : s.Sound) (hseq : s.Sequenced) (h : relay.step s action s')
    {tx' : ClaimTx} (hdrawn : tx'.args.claimantToken ∈ s.issued → ∀ row ∈ s.outbox.rows,
      row.publishClaimToken ≠ some tx'.args.claimantToken)
    (hother : ∀ tx, action = .claim tx → tx'.args.claimantToken ≠ tx.args.claimantToken) :
    ∀ row ∈ s'.outbox.rows, row.publishClaimToken ≠ some tx'.args.claimantToken := by
  intro row' hrow' htoken
  rcases row_before_step h hrow' with ⟨hinserted, -⟩ | ⟨row, hrow, hchange⟩
  · rw [(hseq.fresh row' hinserted).2.1] at htoken
    cases htoken
  · rcases token_of_change hchange htoken (hs.fresh h) with hold | ⟨tx, haction, heq⟩
    · exact hdrawn (hs.issued row hrow _ hold) row hrow hold
    · exact hother tx haction heq.symm

/-- What a step makes of the invariants of one claim transaction. -/
theorem claim_sound_of_step (hs : s.Sound) (hseq : s.Sequenced) (h : relay.step s action s')
    {tx' : ClaimTx} (htx' : tx' ∈ s'.claims) :
    tx'.args.claimantToken ∈ s'.issued ∧
      (∀ row ∈ s'.outbox.rows, row.publishClaimToken ≠ some tx'.args.claimantToken) ∧
      ∀ row ∈ tx'.point.instances, s'.Instance tx'.args.claimantToken row := by
  have hkeep : ∀ tx ∈ s.claims, tx'.args = tx.args →
      (∀ ended, action = .claim ended → tx'.args.claimantToken ≠ ended.args.claimantToken) →
      (∀ row ∈ tx'.point.instances, row ∈ tx.point.instances ∨ row ∈ s.outbox.rows) →
      tx'.args.claimantToken ∈ s'.issued ∧
        (∀ row ∈ s'.outbox.rows, row.publishClaimToken ≠ some tx'.args.claimantToken) ∧
        ∀ row ∈ tx'.point.instances, s'.Instance tx'.args.claimantToken row := by
    intro tx hmem hargs hended hinstances
    rw [hargs] at hended ⊢
    refine ⟨issued_of_step h (hs.drawn tx hmem),
      unused_of_step hs hseq h (fun _ => hs.unused tx hmem) hended, ?_⟩
    intro row hrow
    refine RelayState.Instance.step h ?_
    rcases hinstances row hrow with hrow | hrow
    · exact hs.instances tx hmem row hrow
    · exact ⟨hs.unused tx hmem row hrow, row, hrow, rfl⟩
  cases claims_of_step h htx' with
  | kept _ hmem hother =>
      refine hkeep tx' hmem rfl ?_ (fun row hrow => .inl hrow)
      rintro ended rfl
      exact (hs.other h.1.1 (hother ended (.inl rfl))).2
  | begun args haction hfresh =>
      subst haction
      have hissued : args.claimantToken ∈ s'.issued := by
        rw [h.2]
        exact List.mem_cons_self
      refine ⟨hissued, unused_of_step hs hseq h ?_ ?_, ?_⟩
      · intro hold
        exact absurd hold hfresh
      · intro tx hclaim
        cases hclaim
      · intro row hrow
        exact absurd hrow List.not_mem_nil
  | looked tx haction hmem hpending =>
      refine hkeep tx hmem rfl ?_ (fun row hrow => ClaimPoint.look_instances hpending hrow)
      intro ended hended
      rw [haction] at hended
      cases hended
  | locked tx row peeked haction hmem hpending hrow =>
      refine hkeep tx hmem rfl ?_ (fun row hrow => .inl (ClaimPoint.lock_instances hpending hrow))
      intro ended hended
      rw [haction] at hended
      cases hended

/-- The records of a run are those of committed rows. -/
theorem records_of_step (hs : s.Sound) (h : relay.step s action s') {run' : RelayRun}
    (hrun' : run' ∈ s'.runs) {record : ClaimedOutboxRecord} (hrecord : record ∈ run'.point.todo) :
    ∃ row ∈ s'.outbox.rows, row.key = (record.event, record.outboxPosition) := by
  refine key_of_step h ?_
  cases runs_of_step h hrun' with
  | kept _ hmem => exact hs.records run' hmem record hrecord
  | begun tx rows haction hmem hpoint hflush =>
      obtain ⟨row, hrow, rfl⟩ := List.mem_map.1 hrecord
      exact (hs.instances tx hmem row (ClaimPoint.mem_instances_of_toClaim hrow)).2
  | published run outcome stored first rest haction hmem hpoint hstored =>
      refine hs.records run hmem record ?_
      rw [hpoint]
      simp only [RelayRun.afterPublish, hpoint] at hrecord
      split at hrecord
      · exact hrecord
      · exact absurd hrecord List.not_mem_nil
  | marked run time first rest haction hmem hpoint =>
      refine hs.records run hmem record ?_
      rw [hpoint]
      simp only [RelayRun.afterMark, hpoint] at hrecord
      split at hrecord
      · exact List.mem_cons_of_mem first hrecord
      · exact absurd hrecord List.not_mem_nil
  | released run time todo outcome haction hmem hpoint =>
      obtain ⟨todo', hreleased⟩ := RelayRun.afterRelease_point hpoint
      rw [hreleased] at hrecord
      exact absurd hrecord List.not_mem_nil

theorem sound_of_step (hs : s.Sound) (hseq : s.Sequenced) (h : relay.step s action s') :
    s'.Sound where
  issued := issued_of_rows hs hseq h
  drawn _ htx := (claim_sound_of_step hs hseq h htx).1
  tokens := claimTokens_of_step hs h
  unused _ htx := (claim_sound_of_step hs hseq h htx).2.1
  instances _ htx := (claim_sound_of_step hs hseq h htx).2.2
  records _ hrun _ hrecord := records_of_step hs h hrun hrecord

/-- The invariants hold in every reachable state. -/
theorem sound_of_relay (h : relay.Reachable s) : s.Sequenced ∧ s.Sound := by
  refine h.invariant (I := fun s => s.Sequenced ∧ s.Sound) ?_ ?_
  · rintro s₀ rfl
    refine ⟨sequenced_of_relay (.of_init rfl), ?_⟩
    constructor <;> simp
  · rintro s action s' ⟨hseq, hs⟩ hstep
    exact ⟨sequenced_preserved s action s' hseq hstep, sound_of_step hs hseq hstep⟩

end Step

end Atlas
