/-
**The history of an invocation.**

What the transactions of a ledger do to its tables comes down to three changes: an invocation is
opened with its first attempt, an invocation whose last attempt failed is reopened with another,
and the attempt that is under way is closed, with its invocation.  Each of them keeps the history
of every invocation in order: all attempts but the last have failed, the last has the greatest
number, and the row of the invocation says what became of it.

Main definitions:

* `Atlas.InvocationStatus.ofAttempt` — the status of an invocation, from its last attempt;
* `Atlas.History` — the attempts of an invocation, in order;
* `Atlas.Ledger.Valid` — the invariant of a ledger;
* `Atlas.LedgerChange` — the changes of a ledger.

Main results:

* `Atlas.Ledger.Valid.open_attempt` — **an attempt under way is the last of its invocation**;
* `Atlas.LedgerChange.valid` — **every change keeps the invariant**;
* `Atlas.LedgerChange.keeps_succeeded` — a succeeded invocation is never written again.
-/

import Atlas.InvocationService

set_option relaxedAutoImplicit false
set_option autoImplicit false

namespace Atlas

variable {C : LedgerColumns}

/-- The status of an invocation, from the status of its last attempt. -/
def InvocationStatus.ofAttempt : AttemptStatus → InvocationStatus
  | .started => .inProgress
  | .succeeded => .succeeded
  | .failed => .failed

/-! ### Histories -/

/-- The attempts of an invocation in order: those before the last have failed, the last has the
greatest number, and the row of the invocation agrees with it. -/
structure AttemptOrder (row : InvocationRow C) (earlier : List (AttemptRow C)) (latest : AttemptRow C) :
    Prop where
  earlier_failed : ∀ attempt ∈ earlier, attempt.status = .failed
  earlier_lt : ∀ attempt ∈ earlier, attempt.attempt < latest.attempt
  agrees : row.status = .ofAttempt latest.status
  stored : row.status = .succeeded → row.output.isSome

def History (row : InvocationRow C) (attempts : List (AttemptRow C)) : Prop :=
  ∃ earlier latest, attempts = earlier ++ [latest] ∧ AttemptOrder row earlier latest

/-- The invariant of a ledger. -/
structure Ledger.Valid (l : Ledger C) : Prop where
  ids : (l.invocations.map InvocationRow.id).Nodup
  keys : (l.invocations.map InvocationRow.invocationKey).Nodup
  attemptIds : (l.attempts.map AttemptRow.id).Nodup
  owned : ∀ attempt ∈ l.attempts, ∃ row ∈ l.invocations, row.id = attempt.invocationId
  history : ∀ row ∈ l.invocations, History row (l.attemptsOf row.id)

namespace Ledger

variable {l l' : Ledger C} {row : InvocationRow C} {attempt latest : AttemptRow C}
  {earlier : List (AttemptRow C)}

theorem mem_attemptsOf {invocationId : String} :
    attempt ∈ l.attemptsOf invocationId ↔
      attempt ∈ l.attempts ∧ attempt.invocationId = invocationId := by
  simp [attemptsOf, List.mem_filter]

theorem empty_valid : ({} : Ledger C).Valid where
  ids := List.nodup_nil
  keys := List.nodup_nil
  attemptIds := List.nodup_nil
  owned _ h := absurd h List.not_mem_nil
  history _ h := absurd h List.not_mem_nil

/-- The greatest number of an ordered history is that of its last attempt. -/
theorem foldr_max_snoc {earlier : List ℕ} {last : ℕ} (h : ∀ n ∈ earlier, n < last) :
    (earlier ++ [last]).foldr max 0 = last := by
  induction earlier with
  | nil => simp
  | cons n earlier ih =>
      have hrest := ih fun m hm => h m (List.mem_cons_of_mem n hm)
      have hfirst := h n List.mem_cons_self
      rw [List.cons_append, List.foldr_cons, hrest]
      omega

theorem maxAttempt_of_order (hattempts : l.attemptsOf row.id = earlier ++ [latest])
    (h : AttemptOrder row earlier latest) : l.maxAttempt row.id = latest.attempt := by
  rw [maxAttempt, hattempts, List.map_append]
  apply foldr_max_snoc
  intro n hn
  obtain ⟨attempt, hmem, rfl⟩ := List.mem_map.1 hn
  exact h.earlier_lt attempt hmem

theorem latestAttempt_of_order (hattempts : l.attemptsOf row.id = earlier ++ [latest])
    (h : AttemptOrder row earlier latest) : l.latestAttempt row.id = some latest := by
  rw [latestAttempt, hattempts, List.argmax_concat]
  cases hbefore : earlier.argmax AttemptRow.attempt with
  | none => rfl
  | some attempt =>
      have hmem : attempt ∈ earlier := List.argmax_mem hbefore
      exact if_pos (h.earlier_lt attempt hmem)

/-- The row under a key is found. -/
theorem Valid.getByKey_eq (hl : l.Valid) (hrow : row ∈ l.invocations) :
    l.getByKey row.invocationKey = some row :=
  Rows.find?_key hl.keys hrow

theorem getByKey_some {invocationKey : String} (h : l.getByKey invocationKey = some row) :
    row ∈ l.invocations ∧ row.invocationKey = invocationKey :=
  ⟨List.mem_of_find?_eq_some h, by simpa using List.find?_some h⟩

/-- **An attempt under way is the last of its invocation**, which is in progress. -/
theorem Valid.open_attempt (hl : l.Valid) (hattempt : attempt ∈ l.attempts)
    (hstarted : attempt.status = .started) :
    ∃ row ∈ l.invocations, row.id = attempt.invocationId ∧ row.status = .inProgress ∧
      ∃ earlier, l.attemptsOf row.id = earlier ++ [attempt] ∧ AttemptOrder row earlier attempt := by
  obtain ⟨row, hrow, hid⟩ := hl.owned attempt hattempt
  obtain ⟨earlier, latest, hattempts, horder⟩ := hl.history row hrow
  have hmem : attempt ∈ l.attemptsOf row.id := mem_attemptsOf.2 ⟨hattempt, hid.symm⟩
  rw [hattempts] at hmem
  have hlatest : attempt = latest := by
    rcases List.mem_append.1 hmem with hearlier | hlast
    · have hfailed := horder.earlier_failed attempt hearlier
      rw [hfailed] at hstarted
      cases hstarted
    · exact List.mem_singleton.1 hlast
  subst hlatest
  refine ⟨row, hrow, hid, ?_, earlier, hattempts, horder⟩
  rw [horder.agrees, hstarted]
  rfl

/-- An invocation in progress has its last attempt under way. -/
theorem Valid.latest_started (hl : l.Valid) (hrow : row ∈ l.invocations)
    (hprogress : row.status = .inProgress) :
    ∃ latest ∈ l.attempts, l.latestAttempt row.id = some latest ∧ latest.status = .started ∧
      latest.invocationId = row.id := by
  obtain ⟨earlier, latest, hattempts, horder⟩ := hl.history row hrow
  have hmem : latest ∈ l.attemptsOf row.id := by
    rw [hattempts]
    simp
  obtain ⟨hlatest, hid⟩ := mem_attemptsOf.1 hmem
  refine ⟨latest, hlatest, latestAttempt_of_order hattempts horder, ?_, hid⟩
  have hagrees := horder.agrees
  rw [hprogress] at hagrees
  cases hstatus : latest.status with
  | started => rfl
  | succeeded =>
      rw [hstatus] at hagrees
      cases hagrees
  | failed =>
      rw [hstatus] at hagrees
      cases hagrees

end Ledger

/-! ### Changes -/

/-- What the transactions of a service change: `asked` says for which calls attempts are begun. -/
inductive LedgerChange (S : LedgerService C) (asked : C.Call → Prop) (l : Ledger C) :
    Ledger C → Prop
  /-- An invocation is opened, with its first attempt. -/
  | opened (row : InvocationRow C) (attempt : AttemptRow C)
      (hnew : ∀ row' ∈ l.invocations, row'.id ≠ row.id ∧ row'.invocationKey ≠ row.invocationKey)
      (hfresh : ∀ attempt' ∈ l.attempts, attempt'.id ≠ attempt.id)
      (hprogress : row.status = .inProgress) (hstarted : attempt.status = .started)
      (hid : attempt.invocationId = row.id) :
      LedgerChange S asked l
        { invocations := l.invocations ++ [row], attempts := l.attempts ++ [attempt] }
  /-- A failed invocation is reopened, with its next attempt. -/
  | reopened (row : InvocationRow C) (attempt : AttemptRow C)
      (set : InvocationRow C → InvocationRow C) (call : C.Call) (seen : InvocationRow C)
      (hrow : row ∈ l.invocations) (hfailed : row.status = .failed)
      (hcall : asked call) (hkey : S.key call = row.invocationKey)
      (hseen : seen.id = row.id) (hpermits : S.permits call l seen = .ok ())
      (hset : ∀ row', (set row').id = row'.id ∧ (set row').invocationKey = row'.invocationKey ∧
        (set row').status = .inProgress)
      (hfresh : ∀ attempt' ∈ l.attempts, attempt'.id ≠ attempt.id)
      (hstarted : attempt.status = .started) (hid : attempt.invocationId = row.id)
      (hnumber : attempt.attempt = l.maxAttempt row.id + 1)
      (hcalled : ∀ row', (set row').call = row'.call) :
      LedgerChange S asked l {
        invocations := Rows.update (fun row' => row'.id == row.id) set l.invocations
        attempts := l.attempts ++ [attempt] }
  /-- The attempt under way is closed, and its invocation with it. -/
  | closed (row : InvocationRow C) (attempt : AttemptRow C) (status : AttemptStatus)
      (setRow : InvocationRow C → InvocationRow C) (setAttempt : AttemptRow C → AttemptRow C)
      (hrow : row ∈ l.invocations) (hattempt : attempt ∈ l.attempts)
      (hid : attempt.invocationId = row.id) (hstarted : attempt.status = .started)
      (hstatus : status ≠ .started)
      (hsetRow : ∀ row', (setRow row').id = row'.id ∧
        (setRow row').invocationKey = row'.invocationKey ∧
        (setRow row').status = .ofAttempt status ∧
        (status = .succeeded → (setRow row').output.isSome))
      (hsetAttempt : ∀ attempt', (setAttempt attempt').id = attempt'.id ∧
        (setAttempt attempt').invocationId = attempt'.invocationId ∧
        (setAttempt attempt').attempt = attempt'.attempt ∧
        (setAttempt attempt').status = status)
      (hcalled : ∀ row', (setRow row').call = row'.call) :
      LedgerChange S asked l {
        invocations := Rows.update (fun row' => row'.id == row.id) setRow l.invocations
        attempts := Rows.update (fun attempt' => attempt'.id == attempt.id) setAttempt l.attempts }

namespace LedgerChange

variable {S : LedgerService C} {asked : C.Call → Prop} {l l' : Ledger C}

/-- The selection of an invocation's attempts takes no notice of the others' updates. -/
theorem attemptsOf_append_of_ne {attempts : List (AttemptRow C)} {attempt : AttemptRow C}
    {invocationId : String} (h : attempt.invocationId ≠ invocationId) :
    (attempts ++ [attempt]).filter (fun a => a.invocationId == invocationId) =
      attempts.filter fun a => a.invocationId == invocationId := by
  rw [List.filter_append]
  simp [h]

theorem attemptsOf_append_of_eq {attempts : List (AttemptRow C)} {attempt : AttemptRow C}
    {invocationId : String} (h : attempt.invocationId = invocationId) :
    (attempts ++ [attempt]).filter (fun a => a.invocationId == invocationId) =
      attempts.filter (fun a => a.invocationId == invocationId) ++ [attempt] := by
  rw [List.filter_append]
  simp [h]

/-- A fresh row keeps a column unique. -/
theorem nodup_snoc {α κ : Type} {f : α → κ} {rows : List α} {r : α} (h : (rows.map f).Nodup)
    (hfresh : ∀ r' ∈ rows, f r' ≠ f r) : ((rows ++ [r]).map f).Nodup := by
  rw [List.map_append, List.nodup_append]
  refine ⟨h, by simp, ?_⟩
  intro k hold k' hnew heq
  obtain ⟨r', hr', rfl⟩ := List.mem_map.1 hold
  rw [List.map_singleton, List.mem_singleton] at hnew
  exact hfresh r' hr' (heq.trans hnew)

/-- An update of one row leaves the others. -/
theorem mem_update_id {row row' : InvocationRow C} {set : InvocationRow C → InvocationRow C}
    (hl : l.Valid) (hrow : row ∈ l.invocations)
    (h : row' ∈ Rows.update (fun r => r.id == row.id) set l.invocations) :
    row' = set row ∨ (row' ∈ l.invocations ∧ row'.id ≠ row.id) := by
  rcases Rows.mem_update.1 h with ⟨r, hr, hid, rfl⟩ | ⟨hmem, hid⟩
  · have hsame : r = row := Rows.eq_of_key hl.ids hr hrow (by simpa using hid)
    exact .inl (by rw [hsame])
  · exact .inr ⟨hmem, by simpa using hid⟩

theorem valid_opened {row : InvocationRow C} {attempt : AttemptRow C} (hl : l.Valid)
    (hnew : ∀ row' ∈ l.invocations, row'.id ≠ row.id ∧ row'.invocationKey ≠ row.invocationKey)
    (hfresh : ∀ attempt' ∈ l.attempts, attempt'.id ≠ attempt.id)
    (hprogress : row.status = .inProgress) (hstarted : attempt.status = .started)
    (hid : attempt.invocationId = row.id) :
    Ledger.Valid
      { invocations := l.invocations ++ [row], attempts := l.attempts ++ [attempt] } where
  ids := nodup_snoc hl.ids fun row' hrow' => (hnew row' hrow').1
  keys := nodup_snoc hl.keys fun row' hrow' => (hnew row' hrow').2
  attemptIds := nodup_snoc hl.attemptIds hfresh
  owned := by
    intro attempt' hattempt'
    rcases List.mem_append.1 hattempt' with hold | hlast
    · obtain ⟨row', hrow', hid'⟩ := hl.owned attempt' hold
      exact ⟨row', List.mem_append_left _ hrow', hid'⟩
    · rw [List.mem_singleton.1 hlast]
      exact ⟨row, by simp, hid.symm⟩
  history := by
    intro row' hrow'
    rcases List.mem_append.1 hrow' with hold | hlast
    · have hne : attempt.invocationId ≠ row'.id := by
        rw [hid]
        exact fun h => (hnew row' hold).1 h.symm
      rw [Ledger.attemptsOf, attemptsOf_append_of_ne hne]
      exact hl.history row' hold
    · rw [List.mem_singleton.1 hlast, Ledger.attemptsOf, attemptsOf_append_of_eq hid]
      refine ⟨[], attempt, ?_, ?_, ?_, ?_, ?_⟩
      · -- no attempt is there without its invocation
        have hnone : l.attempts.filter (fun a => a.invocationId == row.id) = [] := by
          rw [List.filter_eq_nil_iff]
          intro a ha
          obtain ⟨row'', hrow'', hid''⟩ := hl.owned a ha
          have hne := (hnew row'' hrow'').1
          rw [hid''] at hne
          simpa using hne
        rw [hnone]
      · exact fun a ha => absurd ha List.not_mem_nil
      · exact fun a ha => absurd ha List.not_mem_nil
      · rw [hprogress, hstarted]
        rfl
      · intro hsucceeded
        rw [hprogress] at hsucceeded
        cases hsucceeded

theorem valid_reopened {row : InvocationRow C} {attempt : AttemptRow C}
    {set : InvocationRow C → InvocationRow C} (hl : l.Valid) (hrow : row ∈ l.invocations)
    (hfailed : row.status = .failed)
    (hset : ∀ row', (set row').id = row'.id ∧ (set row').invocationKey = row'.invocationKey ∧
      (set row').status = .inProgress)
    (hfresh : ∀ attempt' ∈ l.attempts, attempt'.id ≠ attempt.id)
    (hstarted : attempt.status = .started) (hid : attempt.invocationId = row.id)
    (hnumber : attempt.attempt = l.maxAttempt row.id + 1) :
    Ledger.Valid {
      invocations := Rows.update (fun row' => row'.id == row.id) set l.invocations
      attempts := l.attempts ++ [attempt] } where
  ids := by
    rw [Rows.map_update fun row' => (hset row').1]
    exact hl.ids
  keys := by
    rw [Rows.map_update fun row' => (hset row').2.1]
    exact hl.keys
  attemptIds := nodup_snoc hl.attemptIds hfresh
  owned := by
    intro attempt' hattempt'
    have howner : ∃ row' ∈ l.invocations, row'.id = attempt'.invocationId := by
      rcases List.mem_append.1 hattempt' with hold | hlast
      · exact hl.owned attempt' hold
      · rw [List.mem_singleton.1 hlast]
        exact ⟨row, hrow, hid.symm⟩
    obtain ⟨row', hrow', hid'⟩ := howner
    by_cases hsame : row'.id = row.id
    · exact ⟨set row', Rows.mem_update.2 (.inl ⟨row', hrow', by simpa using hsame, rfl⟩),
        (hset row').1.trans hid'⟩
    · exact ⟨row', Rows.mem_update.2 (.inr ⟨hrow', by simpa using hsame⟩), hid'⟩
  history := by
    intro row' hrow'
    rcases mem_update_id hl hrow hrow' with rfl | ⟨hold, hne⟩
    · obtain ⟨earlier, latest, hattempts, horder⟩ := hl.history row hrow
      have hmax := Ledger.maxAttempt_of_order hattempts horder
      have hlatest : latest.status = .failed := by
        have hagrees := horder.agrees
        rw [hfailed] at hagrees
        cases hstatus : latest.status with
        | failed => rfl
        | started =>
            rw [hstatus] at hagrees
            cases hagrees
        | succeeded =>
            rw [hstatus] at hagrees
            cases hagrees
      have hsetRow := hset row
      rw [hsetRow.1, Ledger.attemptsOf, attemptsOf_append_of_eq hid]
      refine ⟨earlier ++ [latest], attempt, by rw [← hattempts, Ledger.attemptsOf], ?_, ?_, ?_, ?_⟩
      · intro a ha
        rcases List.mem_append.1 ha with hearlier | hlast
        · exact horder.earlier_failed a hearlier
        · rw [List.mem_singleton.1 hlast]
          exact hlatest
      · intro a ha
        rw [hnumber, hmax]
        rcases List.mem_append.1 ha with hearlier | hlast
        · have hlt := horder.earlier_lt a hearlier
          omega
        · rw [List.mem_singleton.1 hlast]
          omega
      · rw [hsetRow.2.2, hstarted]
        rfl
      · intro hsucceeded
        rw [hsetRow.2.2] at hsucceeded
        cases hsucceeded
    · have hne' : attempt.invocationId ≠ row'.id := by
        rw [hid]
        exact fun h => hne h.symm
      rw [Ledger.attemptsOf, attemptsOf_append_of_ne hne']
      exact hl.history row' hold

theorem valid_closed {row : InvocationRow C} {attempt : AttemptRow C} {status : AttemptStatus}
    {setRow : InvocationRow C → InvocationRow C} {setAttempt : AttemptRow C → AttemptRow C}
    (hl : l.Valid) (hrow : row ∈ l.invocations) (hattempt : attempt ∈ l.attempts)
    (hid : attempt.invocationId = row.id) (hstarted : attempt.status = .started)
    (hsetRow : ∀ row', (setRow row').id = row'.id ∧
      (setRow row').invocationKey = row'.invocationKey ∧
      (setRow row').status = .ofAttempt status ∧
      (status = .succeeded → (setRow row').output.isSome))
    (hsetAttempt : ∀ attempt', (setAttempt attempt').id = attempt'.id ∧
      (setAttempt attempt').invocationId = attempt'.invocationId ∧
      (setAttempt attempt').attempt = attempt'.attempt ∧
      (setAttempt attempt').status = status) :
    Ledger.Valid {
      invocations := Rows.update (fun row' => row'.id == row.id) setRow l.invocations
      attempts := Rows.update (fun attempt' => attempt'.id == attempt.id) setAttempt
        l.attempts } where
  ids := by
    rw [Rows.map_update fun row' => (hsetRow row').1]
    exact hl.ids
  keys := by
    rw [Rows.map_update fun row' => (hsetRow row').2.1]
    exact hl.keys
  attemptIds := by
    rw [Rows.map_update fun attempt' => (hsetAttempt attempt').1]
    exact hl.attemptIds
  owned := by
    intro attempt' hattempt'
    have howner : ∃ row' ∈ l.invocations, row'.id = attempt'.invocationId := by
      rcases Rows.mem_update.1 hattempt' with ⟨old, hold, -, rfl⟩ | ⟨hold, -⟩
      · rw [(hsetAttempt old).2.1]
        exact hl.owned old hold
      · exact hl.owned attempt' hold
    obtain ⟨row', hrow', hid'⟩ := howner
    by_cases hsame : row'.id = row.id
    · exact ⟨setRow row', Rows.mem_update.2 (.inl ⟨row', hrow', by simpa using hsame, rfl⟩),
        (hsetRow row').1.trans hid'⟩
    · exact ⟨row', Rows.mem_update.2 (.inr ⟨hrow', by simpa using hsame⟩), hid'⟩
  history := by
    intro row' hrow'
    have hselect : ∀ a invocationId,
        ((setAttempt a).invocationId == invocationId) = (a.invocationId == invocationId) := by
      intro a invocationId
      rw [(hsetAttempt a).2.1]
    rcases mem_update_id hl hrow hrow' with rfl | ⟨hold, hne⟩
    · obtain ⟨row'', hrow'', hid'', -, earlier, hattempts, horder⟩ :=
        hl.open_attempt hattempt hstarted
      obtain rfl : row'' = row := Rows.eq_of_key hl.ids hrow'' hrow (hid''.trans hid)
      have hsame : Rows.update (fun a => a.id == attempt.id) setAttempt earlier = earlier := by
        apply Rows.update_eq_self
        intro a ha hsameId
        have hmem : a ∈ l.attempts := by
          have hof : a ∈ l.attemptsOf row''.id := by
            rw [hattempts]
            exact List.mem_append_left _ ha
          exact (Ledger.mem_attemptsOf.1 hof).1
        have heq : a = attempt := Rows.eq_of_key hl.attemptIds hmem hattempt (by simpa using hsameId)
        have hfailed := horder.earlier_failed a ha
        rw [heq, hstarted] at hfailed
        cases hfailed
      have hsetR := hsetRow row''
      have hsetA := hsetAttempt attempt
      rw [hsetR.1, Ledger.attemptsOf, Rows.filter_update fun a => hselect a row''.id]
      rw [Ledger.attemptsOf] at hattempts
      rw [hattempts, Rows.update_append, hsame, Rows.update_singleton (by simp)]
      refine ⟨earlier, setAttempt attempt, rfl, horder.earlier_failed, ?_, ?_, ?_⟩
      · rw [hsetA.2.2.1]
        exact horder.earlier_lt
      · rw [hsetR.2.2.1, hsetA.2.2.2]
      · intro hsucceeded
        apply hsetR.2.2.2
        rw [hsetR.2.2.1] at hsucceeded
        cases status with
        | succeeded => rfl
        | started => cases hsucceeded
        | failed => cases hsucceeded
    · have hsame : Rows.update (fun a => a.id == attempt.id) setAttempt
          (l.attempts.filter fun a => a.invocationId == row'.id) =
            l.attempts.filter fun a => a.invocationId == row'.id := by
        apply Rows.update_eq_self
        intro a ha hsameId
        obtain ⟨hmem, hof⟩ := Ledger.mem_attemptsOf.1 ha
        have heq : a = attempt := Rows.eq_of_key hl.attemptIds hmem hattempt (by simpa using hsameId)
        rw [heq, hid] at hof
        exact hne hof.symm
      rw [Ledger.attemptsOf, Rows.filter_update fun a => hselect a row'.id, hsame]
      exact hl.history row' hold

/-- **Every change keeps the invariant of a ledger.** -/
theorem valid (hl : l.Valid) (h : LedgerChange S asked l l') : l'.Valid := by
  cases h with
  | opened row attempt hnew hfresh hprogress hstarted hid =>
      exact valid_opened hl hnew hfresh hprogress hstarted hid
  | reopened row attempt set call seen hrow hfailed _ _ _ _ hset hfresh hstarted hid hnumber _ =>
      exact valid_reopened hl hrow hfailed hset hfresh hstarted hid hnumber
  | closed row attempt status setRow setAttempt hrow hattempt hid hstarted _ hsetRow hsetAttempt _ =>
      exact valid_closed hl hrow hattempt hid hstarted hsetRow hsetAttempt

/-- A row that no attempt is under way for, and that did not fail, is left alone. -/
theorem keeps_succeeded (hl : l.Valid) (h : LedgerChange S asked l l') {row : InvocationRow C}
    (hrow : row ∈ l.invocations) (hsucceeded : row.status = .succeeded) :
    row ∈ l'.invocations := by
  cases h with
  | opened row' attempt hnew hfresh hprogress hstarted hid => exact List.mem_append_left _ hrow
  | reopened row' attempt set call seen hrow' hfailed _ _ _ _ hset hfresh hstarted hid hnumber _ =>
      have hne : row.id ≠ row'.id := by
        intro hid
        have heq := Rows.eq_of_key hl.ids hrow hrow' hid
        rw [heq, hfailed] at hsucceeded
        cases hsucceeded
      exact Rows.mem_update.2 (.inr ⟨hrow, by simpa using hne⟩)
  | closed row' attempt status setRow setAttempt hrow' hattempt hid hstarted _ hsetRow hsetAttempt _ =>
      have hne : row.id ≠ row'.id := by
        intro hsame
        obtain ⟨owner, howner, hownerId, hprogress, -⟩ := hl.open_attempt hattempt hstarted
        have hrows : owner = row :=
          Rows.eq_of_key hl.ids howner hrow (hownerId.trans (hid.trans hsame.symm))
        rw [hrows, hsucceeded] at hprogress
        cases hprogress
      exact Rows.mem_update.2 (.inr ⟨hrow, by simpa using hne⟩)

/-- An invocation is never deleted, and stays that of its call. -/
theorem keeps_invocation (h : LedgerChange S asked l l') {row : InvocationRow C}
    (hrow : row ∈ l.invocations) :
    ∃ row' ∈ l'.invocations, row'.id = row.id ∧ row'.invocationKey = row.invocationKey ∧
      row'.call = row.call := by
  cases h with
  | opened new attempt hnew hfresh hprogress hstarted hid =>
      exact ⟨row, List.mem_append_left _ hrow, rfl, rfl, rfl⟩
  | reopened old attempt set call seen hold hfailed _ _ _ _ hset hfresh hstarted hid hnumber
      hcalled =>
      by_cases hsame : row.id = old.id
      · exact ⟨set row, Rows.mem_update.2 (.inl ⟨row, hrow, by simpa using hsame, rfl⟩),
          (hset row).1, (hset row).2.1, hcalled row⟩
      · exact ⟨row, Rows.mem_update.2 (.inr ⟨hrow, by simpa using hsame⟩), rfl, rfl, rfl⟩
  | closed old attempt status setRow setAttempt hold hattempt hid hstarted _ hsetRow hsetAttempt
      hcalled =>
      by_cases hsame : row.id = old.id
      · exact ⟨setRow row, Rows.mem_update.2 (.inl ⟨row, hrow, by simpa using hsame, rfl⟩),
          (hsetRow row).1, (hsetRow row).2.1, hcalled row⟩
      · exact ⟨row, Rows.mem_update.2 (.inr ⟨hrow, by simpa using hsame⟩), rfl, rfl, rfl⟩

/-- Attempts are never deleted or renumbered, and a closed one is never opened again. -/
theorem keeps_attempt (h : LedgerChange S asked l l') {attempt : AttemptRow C}
    (hattempt : attempt ∈ l.attempts) :
    ∃ attempt' ∈ l'.attempts, attempt'.id = attempt.id ∧
      attempt'.invocationId = attempt.invocationId ∧ attempt'.attempt = attempt.attempt ∧
      (attempt.status ≠ .started → attempt'.status ≠ .started) := by
  cases h with
  | opened row' attempt' hnew hfresh hprogress hstarted hid =>
      exact ⟨attempt, List.mem_append_left _ hattempt, rfl, rfl, rfl, id⟩
  | reopened row' attempt' set call seen hrow' hfailed _ _ _ _ hset hfresh hstarted hid hnumber _ =>
      exact ⟨attempt, List.mem_append_left _ hattempt, rfl, rfl, rfl, id⟩
  | closed row' open' status setRow setAttempt hrow' hopen hid hstarted hstatus hsetRow
      hsetAttempt _ =>
      by_cases hsame : attempt.id = open'.id
      · refine ⟨setAttempt attempt,
          Rows.mem_update.2 (.inl ⟨attempt, hattempt, by simpa using hsame, rfl⟩),
          (hsetAttempt attempt).1, (hsetAttempt attempt).2.1, (hsetAttempt attempt).2.2.1, ?_⟩
        intro _
        rw [(hsetAttempt attempt).2.2.2]
        exact hstatus
      · exact ⟨attempt, Rows.mem_update.2 (.inr ⟨hattempt, by simpa using hsame⟩), rfl, rfl, rfl,
          id⟩

end LedgerChange

end Atlas
