/-
**The claims of a dead letter and its attempts agree.**

A dead letter holds the token of its claim, and so does the attempt the claim was granted for.  The
invariant says that an attempt in progress is always the one its dead letter is claimed for; it is
preserved by every change a delivery or a replay makes, provided that who ends a claim ends the one
it was granted.  This last fact is about the program of a replay: the attempt of a claim is never
deleted and keeps its dead letter and its token, so a replay still holds what it was granted,
whatever the others do.

Main definitions:

* `Atlas.Fenced` — the invariant;
* `Atlas.AttemptsLater` — what happens to attempts in time;
* `Atlas.ReplayClaim.Held` — the attempt of a claim is there.

Main results:

* `Atlas.Fenced.delivery`, `Atlas.Fenced.replay` — **every change keeps the invariant**;
* `Atlas.EndsClaim.unique` — a change ends at most one claim;
* `Atlas.ReplayChange.recorded` — who records the end of an attempt;
* `Atlas.triple_replay` — a replay ends only what it holds.
-/

import Atlas.ConsumerActs

set_option relaxedAutoImplicit false
set_option autoImplicit false

namespace Atlas

variable {p : Pydantic} {limit : ℕ} {e : ConsumerEnv} {db db' : ConsumerDb}
  {w w' : ConsumerWorld}

/-! ### The invariant -/

/-- The attempts and the claims of the dead letters agree. -/
structure Fenced (db : ConsumerDb) : Prop where
  letter : ∀ id a, db.attempts.lookup id = some a →
    (db.deadLetters.lookup a.deadLetterId).isSome
  key : ∀ id a, db.attempts.lookup id = some a → storable a.idempotencyKey = true
  unique : ∀ id id' a a', db.attempts.lookup id = some a → db.attempts.lookup id' = some a' →
    a.deadLetterId = a'.deadLetterId → a.idempotencyKey = a'.idempotencyKey → id = id'
  current : ∀ id a, db.attempts.lookup id = some a → a.status = .inProgress →
    ∃ row, db.deadLetters.lookup a.deadLetterId = some row ∧ row.replayState = .replaying ∧
      row.replayClaimToken = some a.ownershipToken
  single : ∀ id id' a a', db.attempts.lookup id = some a → db.attempts.lookup id' = some a' →
    a.status = .inProgress → a'.status = .inProgress → a.deadLetterId = a'.deadLetterId → id = id'

theorem fenced_empty : Fenced {} := by
  constructor <;> intro id <;> simp

namespace Fenced

/-- Dead letters may be written as long as they keep their claims. -/
theorem of_letters (h : Fenced db) (hattempts : db'.attempts = db.attempts)
    (hletters : ∀ id row, db.deadLetters.lookup id = some row → ∃ row',
      db'.deadLetters.lookup id = some row' ∧ row'.replayState = row.replayState ∧
        row'.replayClaimToken = row.replayClaimToken) : Fenced db' where
  letter id a ha := by
    rw [hattempts] at ha
    obtain ⟨row, hrow⟩ := Option.isSome_iff_exists.1 (h.letter id a ha)
    obtain ⟨row', hrow', -⟩ := hletters _ row hrow
    exact Option.isSome_iff_exists.2 ⟨row', hrow'⟩
  key id a ha := h.key id a (by rw [← hattempts, ha])
  unique id id' a a' ha ha' :=
    h.unique id id' a a' (by rw [← hattempts, ha]) (by rw [← hattempts, ha'])
  current id a ha hprogress := by
    rw [hattempts] at ha
    obtain ⟨row, hrow, hstate, htoken⟩ := h.current id a ha hprogress
    obtain ⟨row', hrow', hstate', htoken'⟩ := hletters _ row hrow
    exact ⟨row', hrow', hstate'.trans hstate, htoken'.trans htoken⟩
  single id id' a a' ha ha' :=
    h.single id id' a a' (by rw [← hattempts, ha]) (by rw [← hattempts, ha'])

/-- The same tables are fenced. -/
theorem of_same (h : Fenced db) (hattempts : db'.attempts = db.attempts)
    (hletters : db'.deadLetters = db.deadLetters) : Fenced db' := by
  refine h.of_letters hattempts ?_
  intro id row hrow
  exact ⟨row, by rw [hletters, hrow], rfl, rfl⟩

/-- **A delivery keeps the invariant.** -/
theorem delivery (h : Fenced w.db) (hchange : DeliveryChange w w') : Fenced w'.db := by
  cases hchange with
  | nothing => exact h
  | offset => exact h
  | rejected => exact h
  | applied existing d db' heffect hletters hattempts => exact h.of_same hattempts hletters
  | deadLettered id _ _ _ _ _ _ _ _ hfresh =>
      refine h.of_letters rfl ?_
      intro id' row hrow
      have hne : id' ≠ id := by
        rintro rfl
        rw [hfresh] at hrow
        cases hrow
      exact ⟨row, by rw [Table.lookup_insert_eq, if_neg hne, hrow], rfl, rfl⟩
  | redelivered id old at_ hold =>
      refine h.of_letters rfl ?_
      intro id' row hrow
      simp only [Table.lookup_insert_eq]
      split
      · next heq =>
        subst heq
        rw [hold] at hrow
        cases hrow
        exact ⟨_, rfl, rfl, rfl⟩
      · exact ⟨row, hrow, rfl, rfl⟩

/-- Attempts that end leave the invariant, when no other attempt of a dead letter that changes is in
progress. -/
theorem finish (h : Fenced db) {id : String} {a : ReplayAttemptRow} {status : ReplayAttemptStatus}
    {now : Instant} (ha : db.attempts.lookup id = some a) (hstatus : status ≠ .inProgress)
    (hattempts : db'.attempts = db.attempts.insert id (a.finish status now))
    (hletters : ∀ id' row, db.deadLetters.lookup id' = some row → ∃ row',
      db'.deadLetters.lookup id' = some row' ∧ (row' = row ∨
        (id' = a.deadLetterId ∧ a.status = .inProgress))) : Fenced db' := by
  have hold : ∀ id' a', db'.attempts.lookup id' = some a' → ∃ a₀,
      db.attempts.lookup id' = some a₀ ∧ a'.deadLetterId = a₀.deadLetterId ∧
        a'.idempotencyKey = a₀.idempotencyKey ∧ (a'.status = .inProgress → a' = a₀ ∧ id' ≠ id) := by
    intro id' a' ha'
    rw [hattempts, Table.lookup_insert_eq] at ha'
    split at ha'
    · next heq =>
      subst heq
      cases ha'
      exact ⟨a, ha, rfl, rfl, fun hprogress => absurd hprogress hstatus⟩
    · next hne => exact ⟨a', ha', rfl, rfl, fun _ => ⟨rfl, hne⟩⟩
  constructor
  · intro id' a' ha'
    obtain ⟨a₀, ha₀, hletter, -⟩ := hold id' a' ha'
    obtain ⟨row, hrow⟩ := Option.isSome_iff_exists.1 (h.letter id' a₀ ha₀)
    obtain ⟨row', hrow', -⟩ := hletters _ row hrow
    rw [hletter]
    exact Option.isSome_iff_exists.2 ⟨row', hrow'⟩
  · intro id' a' ha'
    obtain ⟨a₀, ha₀, -, hkey, -⟩ := hold id' a' ha'
    rw [hkey]
    exact h.key id' a₀ ha₀
  · intro id₁ id₂ a₁ a₂ ha₁ ha₂ hletter hkey
    obtain ⟨b₁, hb₁, hl₁, hk₁, -⟩ := hold id₁ a₁ ha₁
    obtain ⟨b₂, hb₂, hl₂, hk₂, -⟩ := hold id₂ a₂ ha₂
    exact h.unique id₁ id₂ b₁ b₂ hb₁ hb₂ (by rw [← hl₁, ← hl₂, hletter])
      (by rw [← hk₁, ← hk₂, hkey])
  · intro id' a' ha' hprogress
    obtain ⟨a₀, ha₀, -, -, hsame⟩ := hold id' a' ha'
    obtain ⟨rfl, hne⟩ := hsame hprogress
    obtain ⟨row, hrow, hstate, htoken⟩ := h.current id' a' ha₀ hprogress
    obtain ⟨row', hrow', rfl | ⟨hletter, hended⟩⟩ := hletters _ row hrow
    · exact ⟨row', hrow', hstate, htoken⟩
    · exact absurd (h.single id' id a' a ha₀ ha hprogress hended hletter) hne
  · intro id₁ id₂ a₁ a₂ ha₁ ha₂ hprogress₁ hprogress₂
    obtain ⟨b₁, hb₁, -, -, hsame₁⟩ := hold id₁ a₁ ha₁
    obtain ⟨b₂, hb₂, -, -, hsame₂⟩ := hold id₂ a₂ ha₂
    obtain ⟨rfl, -⟩ := hsame₁ hprogress₁
    obtain ⟨rfl, -⟩ := hsame₂ hprogress₂
    exact h.single id₁ id₂ a₁ a₂ hb₁ hb₂ hprogress₁ hprogress₂

end Fenced

/-! ### Claims and their ends -/

/-- The attempts a former claim has lost. -/
theorem lookup_loseClaim {deadLetterId : String} {token : Option String} {now : Instant}
    {attempts : Table String ReplayAttemptRow} {id : String} {a' : ReplayAttemptRow}
    (h : (loseClaim deadLetterId token now attempts).lookup id = some a') :
    ∃ a, attempts.lookup id = some a ∧
      ((a' = a ∧ ¬ (a.deadLetterId = deadLetterId ∧ some a.ownershipToken = token ∧
          a.status = .inProgress)) ∨
        (a' = a.finish .lostOwnership now ∧ a.deadLetterId = deadLetterId ∧
          some a.ownershipToken = token ∧ a.status = .inProgress)) := by
  rw [loseClaim, Table.lookup_mapRows, Option.map_eq_some_iff] at h
  obtain ⟨a, ha, rfl⟩ := h
  refine ⟨a, ha, ?_⟩
  split
  · next hlost => exact .inr ⟨rfl, hlost⟩
  · next hkept => exact .inl ⟨rfl, hkept⟩

/-- The attempts after a claim are the new one and the former ones, of which no other attempt of
the dead letter is in progress. -/
theorem TakesClaim.lookup {leaseSeconds : ℤ} {request : ReplayRequest} {claim : ReplayClaim}
    {now : Instant} (h : TakesClaim leaseSeconds request claim now db db') (hf : Fenced db)
    {id : String} {a' : ReplayAttemptRow} (ha' : db'.attempts.lookup id = some a') :
    (id = claim.attemptId ∧ a' = request.attempt claim.ownershipToken now) ∨
      ∃ a, db.attempts.lookup id = some a ∧ id ≠ claim.attemptId ∧
        a'.deadLetterId = a.deadLetterId ∧ a'.idempotencyKey = a.idempotencyKey ∧
        (a'.status = .inProgress → a' = a ∧ a.deadLetterId ≠ request.deadLetterId) := by
  obtain ⟨row, hrow, -, -, hattempts⟩ := h.row
  rw [hattempts, Table.lookup_insert_eq] at ha'
  split at ha'
  · next heq =>
    cases ha'
    exact .inl ⟨heq, rfl⟩
  · next hne =>
    obtain ⟨a, ha, ⟨rfl, hkept⟩ | ⟨rfl, -⟩⟩ := lookup_loseClaim ha'
    · refine .inr ⟨a', ha, hne, rfl, rfl, fun hprogress => ⟨rfl, ?_⟩⟩
      intro hletter
      obtain ⟨row', hrow', -, htoken⟩ := hf.current id a' ha hprogress
      rw [hletter, hrow] at hrow'
      cases hrow'
      exact hkept ⟨hletter, htoken.symm, hprogress⟩
    · refine .inr ⟨a, ha, hne, rfl, rfl, ?_⟩
      rintro ⟨⟩

namespace Fenced

theorem claim (h : Fenced db) {leaseSeconds : ℤ} {request : ReplayRequest} {claim : ReplayClaim}
    {now : Instant} (htakes : TakesClaim leaseSeconds request claim now db db') : Fenced db' := by
  obtain ⟨row, hrow, -, hletters, -⟩ := htakes.row
  have hsome : ∀ id row, db.deadLetters.lookup id = some row →
      (db'.deadLetters.lookup id).isSome := by
    intro id row' hrow'
    rw [hletters, Table.lookup_insert_eq]
    split
    · rfl
    · rw [hrow']
      rfl
  have hfirst : ∀ id a, db.attempts.lookup id = some a →
      a.deadLetterId = request.deadLetterId → a.idempotencyKey ≠ request.idempotencyKey := by
    intro id a ha hletter hkey
    have hnot := Table.find_eq_none.1 htakes.first id a ha
    simp [hletter, hkey] at hnot
  constructor
  · intro id a' ha'
    obtain ⟨-, rfl⟩ | ⟨a, ha, -, hletter, -⟩ := htakes.lookup h ha'
    · exact hsome _ row hrow
    · obtain ⟨row', hrow'⟩ := Option.isSome_iff_exists.1 (h.letter id a ha)
      rw [hletter]
      exact hsome _ row' hrow'
  · intro id a' ha'
    obtain ⟨-, rfl⟩ | ⟨a, ha, -, -, hkey, -⟩ := htakes.lookup h ha'
    · exact htakes.key
    · rw [hkey]
      exact h.key id a ha
  · intro id id' a₁ a₂ ha₁ ha₂ hletter hkey
    obtain ⟨rfl, rfl⟩ | ⟨b₁, hb₁, -, hl₁, hk₁, -⟩ := htakes.lookup h ha₁
    · obtain ⟨rfl, rfl⟩ | ⟨b₂, hb₂, -, hl₂, hk₂, -⟩ := htakes.lookup h ha₂
      · rfl
      · exact absurd (hk₂.symm.trans hkey.symm) (hfirst id' b₂ hb₂ (hl₂.symm.trans hletter.symm))
    · obtain ⟨rfl, rfl⟩ | ⟨b₂, hb₂, -, hl₂, hk₂, -⟩ := htakes.lookup h ha₂
      · exact absurd (hk₁.symm.trans hkey) (hfirst id b₁ hb₁ (hl₁.symm.trans hletter))
      · exact h.unique id id' b₁ b₂ hb₁ hb₂ (by rw [← hl₁, ← hl₂, hletter])
          (by rw [← hk₁, ← hk₂, hkey])
  · intro id a' ha' hprogress
    obtain ⟨-, rfl⟩ | ⟨a, ha, -, -, -, hsame⟩ := htakes.lookup h ha'
    · refine ⟨row.claimedBy claim.ownershipToken leaseSeconds now, ?_, rfl, rfl⟩
      rw [hletters]
      exact AList.lookup_insert _
    · obtain ⟨rfl, hother⟩ := hsame hprogress
      obtain ⟨row', hrow', hstate, htoken⟩ := h.current id a' ha hprogress
      exact ⟨row', by rw [hletters, Table.lookup_insert_eq, if_neg hother, hrow'], hstate, htoken⟩
  · intro id id' a₁ a₂ ha₁ ha₂ hprogress₁ hprogress₂ hletter
    obtain ⟨rfl, rfl⟩ | ⟨b₁, hb₁, -, -, -, hs₁⟩ := htakes.lookup h ha₁
    · obtain ⟨rfl, rfl⟩ | ⟨b₂, hb₂, -, -, -, hs₂⟩ := htakes.lookup h ha₂
      · rfl
      · obtain ⟨rfl, hother⟩ := hs₂ hprogress₂
        exact absurd hletter.symm hother
    · obtain ⟨rfl, hother⟩ := hs₁ hprogress₁
      obtain ⟨rfl, rfl⟩ | ⟨b₂, hb₂, -, -, -, hs₂⟩ := htakes.lookup h ha₂
      · exact absurd hletter hother
      · obtain ⟨rfl, -⟩ := hs₂ hprogress₂
        exact h.single id id' a₁ a₂ hb₁ hb₂ hprogress₁ hprogress₂ hletter

theorem lose (h : Fenced db) {now : Instant} (hloses : LosesOwnership now db db') :
    Fenced db' := by
  obtain ⟨id, a, ha, -, rfl⟩ := hloses
  refine h.finish ha (by simp) rfl ?_
  intro id' row hrow
  exact ⟨row, hrow, .inl rfl⟩

end Fenced

/-- The claim's attempt is there, for the dead letter and under the token of the claim. -/
def ReplayClaim.Held (claim : ReplayClaim) (db : ConsumerDb) : Prop :=
  ∃ a, db.attempts.lookup claim.attemptId = some a ∧ a.deadLetterId = claim.deadLetterId ∧
    a.ownershipToken = claim.ownershipToken

/-- What owning the rows says of them. -/
theorem ReplayClaim.owns_iff {claim : ReplayClaim} {row : DeadLetterRow} {a : ReplayAttemptRow}
    {now : Instant} : claim.owns row a now = true ↔
      row.replayState = .replaying ∧ row.replayClaimToken = some claim.ownershipToken ∧
        (∃ lease, row.replayLeaseExpiresAt = some lease ∧ now ≤ lease) ∧
        a.status = .inProgress := by
  simp only [ReplayClaim.owns, Bool.and_eq_true, decide_eq_true_eq, Option.any_eq_true, and_assoc]

section Ending

variable {claim claim' : ReplayClaim} {status status' : ReplayAttemptStatus}
  {state state' : ReplayState} {now now' : Instant} {row row' : DeadLetterRow}

/-- An end that is the end of an attempt and of a claim. -/
def IsEnd (status : ReplayAttemptStatus) (state : ReplayState) : Prop :=
  status ≠ .inProgress ∧ state ≠ .replaying

namespace Fenced

/-- **The end of a claim that is held keeps the invariant.** -/
theorem end_ (h : Fenced db) (hends : EndsClaim claim status state now row db db')
    (hend : IsEnd status state) (hheld : claim.Held db) : Fenced db' := by
  obtain ⟨a, ha, howns, hattempts⟩ := hends.attempt
  obtain ⟨b, hb, hletter, -⟩ := hheld
  rw [ha] at hb
  cases hb
  obtain ⟨-, -, -, hprogress⟩ := ReplayClaim.owns_iff.1 howns
  refine h.finish ha hend.1 hattempts ?_
  intro id' row' hrow'
  rw [hends.deadLetters, Table.lookup_insert_eq]
  split
  · next heq =>
    exact ⟨_, rfl, .inr ⟨by rw [heq, hletter], hprogress⟩⟩
  · exact ⟨row', hrow', .inl rfl⟩

end Fenced

/-- **A change ends at most one claim.** -/
theorem EndsClaim.unique (h : EndsClaim claim status state now row db db')
    (h' : EndsClaim claim' status' state' now' row' db db') (hend : IsEnd status state) :
    claim = claim' := by
  obtain ⟨a, ha, howns, hattempts⟩ := h.attempt
  obtain ⟨a', ha', howns', hattempts'⟩ := h'.attempt
  obtain ⟨hreplaying, htoken, -, hprogress⟩ := ReplayClaim.owns_iff.1 howns
  obtain ⟨hreplaying', htoken', -, hprogress'⟩ := ReplayClaim.owns_iff.1 howns'
  have hattempt : claim.attemptId = claim'.attemptId := by
    by_contra hne
    have hkept : db'.attempts.lookup claim.attemptId = some a := by
      rw [hattempts', Table.lookup_insert_eq, if_neg hne, ha]
    rw [hattempts, AList.lookup_insert] at hkept
    have hstatus : status = a.status := congrArg ReplayAttemptRow.status (Option.some.inj hkept)
    exact hend.1 (hstatus.trans hprogress)
  have hletter : claim.deadLetterId = claim'.deadLetterId := by
    by_contra hne
    have hkept : db'.deadLetters.lookup claim.deadLetterId = some row := by
      rw [h'.deadLetters, Table.lookup_insert_eq, if_neg hne, h.found]
    rw [h.deadLetters, AList.lookup_insert] at hkept
    have hstate : state = row.replayState :=
      congrArg DeadLetterRow.replayState (Option.some.inj hkept)
    exact hend.2 (hstate.trans hreplaying)
  have hrow : row = row' := by
    have hfound := h.found
    rw [hletter, h'.found] at hfound
    exact (Option.some.inj hfound).symm
  subst hrow
  rw [htoken] at htoken'
  cases claim
  cases claim'
  cases hattempt
  cases hletter
  cases htoken'
  rfl

end Ending

/-- The claims an act ends are ones that were held. -/
def EndsHeld (db db' : ConsumerDb) : Prop :=
  ∀ claim status state now row, IsEnd status state →
    EndsClaim claim status state now row db db' → claim.Held db

/-- What leaves every claim of a dead letter claimed ends none. -/
theorem EndsHeld.of_replaying (h : ∀ id row, db.deadLetters.lookup id = some row →
    row.replayState = .replaying → ∃ row', db'.deadLetters.lookup id = some row' ∧
      row'.replayState = .replaying) : EndsHeld db db' := by
  intro claim status state now row hend hends
  obtain ⟨a, -, howns, -⟩ := hends.attempt
  obtain ⟨hreplaying, -⟩ := ReplayClaim.owns_iff.1 howns
  obtain ⟨row', hrow', hreplaying'⟩ := h _ row hends.found hreplaying
  rw [hends.deadLetters, AList.lookup_insert] at hrow'
  have hstate : state = row'.replayState :=
    congrArg DeadLetterRow.replayState (Option.some.inj hrow')
  exact absurd (hstate.trans hreplaying') hend.2

theorem EndsHeld.of_letters (h : db'.deadLetters = db.deadLetters) : EndsHeld db db' := by
  refine .of_replaying ?_
  intro id row hrow hreplaying
  exact ⟨row, by rw [h, hrow], hreplaying⟩

theorem EndsHeld.claim {leaseSeconds : ℤ} {request : ReplayRequest} {claim : ReplayClaim}
    {now : Instant} (h : TakesClaim leaseSeconds request claim now db db') : EndsHeld db db' := by
  obtain ⟨row, -, -, hletters, -⟩ := h.row
  refine .of_replaying ?_
  intro id row' hrow' hreplaying
  rw [hletters, Table.lookup_insert_eq]
  split
  · exact ⟨_, rfl, rfl⟩
  · exact ⟨row', hrow', hreplaying⟩

/-- Who ends the claim it holds ends no other. -/
theorem EndsHeld.end_ {claim : ReplayClaim} {status : ReplayAttemptStatus} {state : ReplayState}
    {now : Instant} {row : DeadLetterRow} (h : EndsClaim claim status state now row db db')
    (hend : IsEnd status state) (hheld : claim.Held db) : EndsHeld db db' := by
  intro claim' status' state' now' row' _ hends'
  rw [← h.unique hends' hend]
  exact hheld

/-- **A replay keeps the invariant** when it ends only what is held. -/
theorem Fenced.replay (h : Fenced w.db) (hchange : ReplayChange p limit e w w')
    (hheld : EndsHeld w.db w'.db) : Fenced w'.db := by
  cases hchange with
  | nothing => exact h
  | rejected => exact h
  | claimed leaseSeconds request claim db' htakes => exact h.claim htakes
  | lost db' hloses => exact h.lose hloses
  | ended claim status state row db' hstatus hends hinbox hprojection =>
      have hend : IsEnd status state := by
        rcases hstatus with ⟨rfl, rfl⟩ | ⟨rfl, rfl⟩ <;> exact ⟨by simp, by simp⟩
      exact h.end_ hends hend (hheld claim status state e.now row hend hends)
  | replayed claim row existing event db' hevent heffect hends =>
      have hend : IsEnd .applied .replayedApplied := ⟨by simp, by simp⟩
      exact h.end_ hends hend (hheld claim _ _ e.now row hend hends)

/-! ### Attempts in time -/

/-- What an attempt keeps: all but a status in progress, which may end. -/
structure ReplayAttemptRow.Later (a a' : ReplayAttemptRow) : Prop where
  deadLetter : a'.deadLetterId = a.deadLetterId
  key : a'.idempotencyKey = a.idempotencyKey
  fingerprint : a'.requestFingerprint = a.requestFingerprint
  token : a'.ownershipToken = a.ownershipToken
  status : a.status.Terminal → a'.status = a.status

theorem ReplayAttemptRow.Later.refl (a : ReplayAttemptRow) : a.Later a :=
  ⟨rfl, rfl, rfl, rfl, fun _ => rfl⟩

theorem ReplayAttemptRow.Later.trans {a a' a'' : ReplayAttemptRow} (h : a.Later a')
    (h' : a'.Later a'') : a.Later a'' where
  deadLetter := h'.deadLetter.trans h.deadLetter
  key := h'.key.trans h.key
  fingerprint := h'.fingerprint.trans h.fingerprint
  token := h'.token.trans h.token
  status hterminal := by
    have hsame := h.status hterminal
    exact (h'.status (by rw [ReplayAttemptStatus.Terminal, hsame]; exact hterminal)).trans hsame

theorem ReplayAttemptRow.Later.finish {a : ReplayAttemptRow} (status : ReplayAttemptStatus)
    (now : Instant) (h : a.status = .inProgress) : a.Later (a.finish status now) :=
  ⟨rfl, rfl, rfl, rfl, fun hterminal => absurd h hterminal⟩

/-- No attempt is deleted, and what has ended stays as it ended. -/
def AttemptsLater (db db' : ConsumerDb) : Prop :=
  ∀ id a, db.attempts.lookup id = some a → ∃ a', db'.attempts.lookup id = some a' ∧ a.Later a'

namespace AttemptsLater

theorem of_same (h : db'.attempts = db.attempts) : AttemptsLater db db' := by
  intro id a ha
  exact ⟨a, by rw [h, ha], .refl a⟩

theorem trans {db'' : ConsumerDb} (h : AttemptsLater db db') (h' : AttemptsLater db' db'') :
    AttemptsLater db db'' := by
  intro id a ha
  obtain ⟨a', ha', hlater⟩ := h id a ha
  obtain ⟨a'', ha'', hlater'⟩ := h' id a' ha'
  exact ⟨a'', ha'', hlater.trans hlater'⟩

theorem finish {id : String} {a : ReplayAttemptRow} {status : ReplayAttemptStatus} {now : Instant}
    (ha : db.attempts.lookup id = some a) (hprogress : a.status = .inProgress)
    (h : db'.attempts = db.attempts.insert id (a.finish status now)) : AttemptsLater db db' := by
  intro id' a' ha'
  rw [h, Table.lookup_insert_eq]
  split
  · next heq =>
    subst heq
    rw [ha] at ha'
    cases ha'
    exact ⟨_, rfl, .finish status now hprogress⟩
  · exact ⟨a', ha', .refl a'⟩

theorem claim {leaseSeconds : ℤ} {request : ReplayRequest} {claim : ReplayClaim} {now : Instant}
    (h : TakesClaim leaseSeconds request claim now db db') : AttemptsLater db db' := by
  obtain ⟨row, -, -, -, hattempts⟩ := h.row
  intro id a ha
  have hne : id ≠ claim.attemptId := by
    rintro rfl
    rw [h.fresh] at ha
    cases ha
  rw [hattempts, Table.lookup_insert_eq, if_neg hne, loseClaim, Table.lookup_mapRows, ha]
  refine ⟨_, rfl, ?_⟩
  simp only []
  split
  · next hlost => exact .finish _ _ hlost.2.2
  · exact .refl a

theorem end_ {claim : ReplayClaim} {status : ReplayAttemptStatus} {state : ReplayState}
    {now : Instant} {row : DeadLetterRow} (h : EndsClaim claim status state now row db db') :
    AttemptsLater db db' := by
  obtain ⟨a, ha, howns, hattempts⟩ := h.attempt
  exact finish ha (ReplayClaim.owns_iff.1 howns).2.2.2 hattempts

end AttemptsLater

theorem DeliveryChange.attempts (h : DeliveryChange w w') : w'.db.attempts = w.db.attempts := by
  cases h with
  | nothing => rfl
  | offset => rfl
  | rejected => rfl
  | applied _ _ _ _ _ hattempts => exact hattempts
  | deadLettered => rfl
  | redelivered => rfl

/-- A replay deletes no attempt and changes none that has ended. -/
theorem ReplayChange.attemptsLater (h : ReplayChange p limit e w w') :
    AttemptsLater w.db w'.db := by
  cases h with
  | nothing => exact .of_same rfl
  | rejected => exact .of_same rfl
  | claimed _ _ _ _ htakes => exact .claim htakes
  | lost db' hloses =>
      obtain ⟨id, a, ha, hprogress, rfl⟩ := hloses
      exact .finish ha hprogress rfl
  | ended _ _ _ _ _ _ hends => exact .end_ hends
  | replayed _ _ _ _ _ _ _ hends => exact .end_ hends

/-- What is held stays held. -/
theorem ReplayClaim.Held.later {claim : ReplayClaim} (h : claim.Held db)
    (hlater : AttemptsLater db db') : claim.Held db' := by
  obtain ⟨a, ha, hletter, htoken⟩ := h
  obtain ⟨a', ha', hsame⟩ := hlater _ a ha
  exact ⟨a', ha', hsame.deadLetter.trans hletter, hsame.token.trans htoken⟩

/-- The statuses with which an owner ends its attempt. -/
def ReplayAttemptStatus.ByOwner (status : ReplayAttemptStatus) : Prop :=
  status = .applied ∨ status = .duplicate ∨ status = .failed

/-- **An attempt gets one of these statuses only from a change that ends its claim**, and it is
applied only with the effect of the event. -/
theorem ReplayChange.recorded (h : ReplayChange p limit e w w') {id : String}
    {a' : ReplayAttemptRow} (ha' : w'.db.attempts.lookup id = some a')
    (howner : a'.status.ByOwner) :
    (∃ a, w.db.attempts.lookup id = some a ∧ a.status = a'.status) ∨
      ∃ claim state row, claim.attemptId = id ∧ IsEnd a'.status state ∧
        EndsClaim claim a'.status state e.now row w.db w'.db ∧
        (a'.status = .applied → ∃ event existing, retainedEvent p limit row = .ok event ∧
          WritesEffect existing ⟨row.consumerId, event, e.now, true⟩ w.db w'.db) := by
  -- An end that is not of this attempt leaves it as it was.
  have hend : ∀ {claim status state row} {db' : ConsumerDb}, IsEnd status state →
      EndsClaim claim status state e.now row w.db db' → db'.attempts.lookup id = some a' →
      (∃ a, w.db.attempts.lookup id = some a ∧ a.status = a'.status) ∨
        (claim.attemptId = id ∧ a'.status = status) := by
    intro claim status state row db' hend hends ha'
    obtain ⟨a, ha, -, hattempts⟩ := hends.attempt
    rw [hattempts, Table.lookup_insert_eq] at ha'
    split at ha'
    · next heq =>
      cases ha'
      exact .inr ⟨heq.symm, rfl⟩
    · exact .inl ⟨a', ha', rfl⟩
  cases h with
  | nothing => exact .inl ⟨a', ha', rfl⟩
  | rejected => exact .inl ⟨a', ha', rfl⟩
  | claimed leaseSeconds request claim db' htakes =>
      obtain ⟨row, -, -, -, hattempts⟩ := htakes.row
      rw [hattempts, Table.lookup_insert_eq] at ha'
      split at ha'
      · cases ha'
        rcases howner with h | h | h <;> cases h
      · obtain ⟨a, ha, ⟨rfl, -⟩ | ⟨rfl, -⟩⟩ := lookup_loseClaim ha'
        · exact .inl ⟨a', ha, rfl⟩
        · rcases howner with h | h | h <;> cases h
  | lost db' hloses =>
      obtain ⟨id', a, -, -, rfl⟩ := hloses
      rw [Table.lookup_insert_eq] at ha'
      split at ha'
      · cases ha'
        rcases howner with h | h | h <;> cases h
      · exact .inl ⟨a', ha', rfl⟩
  | ended claim status state row db' hstatus hends =>
      have hisEnd : IsEnd status state := by
        rcases hstatus with ⟨rfl, rfl⟩ | ⟨rfl, rfl⟩ <;> exact ⟨by simp, by simp⟩
      rcases hend hisEnd hends ha' with hold | ⟨hattempt, hrecorded⟩
      · exact .inl hold
      · rw [hrecorded]
        refine .inr ⟨claim, state, row, hattempt, hisEnd, hends, ?_⟩
        rintro rfl
        rcases hstatus with ⟨h, -⟩ | ⟨h, -⟩ <;> cases h
  | replayed claim row existing event db' hevent heffect hends =>
      have hisEnd : IsEnd .applied .replayedApplied := ⟨by simp, by simp⟩
      rcases hend hisEnd hends ha' with hold | ⟨hattempt, hrecorded⟩
      · exact .inl hold
      · rw [hrecorded]
        exact .inr ⟨claim, .replayedApplied, row, hattempt, hisEnd, hends,
          fun _ => ⟨event, existing, hevent, heffect⟩⟩

/-! ### The program of a replay -/

section Program

variable {cfg : ConsumerConfig} {le : ConsumerWorld → ConsumerWorld → Prop}

/-- What a replay guarantees: its acts are acts of a replay, and it ends only what it holds. -/
def OperatorGuarantee (cfg : ConsumerConfig) (w w' : ConsumerWorld) : Prop :=
  (∃ e, OperatorActs cfg e w w') ∧ EndsHeld w.db w'.db

theorem OperatorGuarantee.refl (w : ConsumerWorld) : OperatorGuarantee cfg w w :=
  ⟨⟨⟨0, "", "", .nothing, none, none, none, false, false⟩, .nothing⟩, .of_letters rfl⟩

theorem OperatorGuarantee.of_lost {e : ConsumerEnv} {db' : ConsumerDb}
    (h : LosesOwnership e.now w.db db') : OperatorGuarantee cfg w { w with db := db' } := by
  refine ⟨⟨e, .lost db' h⟩, ?_⟩
  obtain ⟨id, a, -, -, rfl⟩ := h
  exact .of_letters rfl

/-- A granted claim is held. -/
theorem TakesClaim.held {leaseSeconds : ℤ} {request : ReplayRequest} {claim : ReplayClaim}
    {now : Instant} (h : TakesClaim leaseSeconds request claim now db db') : claim.Held db' := by
  obtain ⟨row, -, -, -, hattempts⟩ := h.row
  refine ⟨request.attempt claim.ownershipToken now, ?_, h.deadLetter.symm, rfl⟩
  rw [hattempts]
  exact AList.lookup_insert _

section Held

variable {claim : ReplayClaim}
  (hle : ∀ w w', le w w' → claim.Held w.db → claim.Held w'.db)

include hle

theorem triple_lookUpRetained : Program.Triple le (OperatorGuarantee cfg) (fun w => claim.Held w.db)
    (lookUpRetained cfg claim.deadLetterId)
    (fun _ w => claim.Held w.db) (fun _ w => claim.Held w.db) := by
  have hsame : ∀ w, claim.Held w.db → OperatorGuarantee cfg w w := fun w _ => .refl w
  refine .bind (Q := fun _ w => claim.Held w.db) (triple_read hle hsame ?_
    (fun e w x _ h => absurd h readRetained_ne_error) fun _ _ h => h) fun retained => ?_
  · intro e w retained db' hheld h
    exact ⟨(readRetained_eq_ok h).1, hheld⟩
  · split
    · exact .ret fun _ h => h
    · exact .bind (triple_lookUpEvent (Q := fun _ w => claim.Held w.db) hle hle hsame hsame
        (fun _ h _ => h) (fun _ h _ => h) (fun _ h => h) (fun _ _ h => h) fun _ _ h => h)
        fun view => .ret fun _ h => h

theorem triple_applyReplay (view : Option EventView) :
    Program.Triple le (OperatorGuarantee cfg) (fun w => claim.Held w.db)
      (session (judgeReplay cfg claim) (applyReplay cfg.pydantic cfg.recursionLimit claim view))
      (fun _ w => claim.Held w.db) (fun _ w => claim.Held w.db) := by
  refine triple_session hle (fun w _ h => ⟨.refl w, h⟩) ?_ ?_
  · rintro e w answer db' hheld h _ rfl
    have hchange := (changes_applyReplay claim view).ok e w answer db' h
    have hheld' : claim.Held db' := hheld.later hchange.attemptsLater
    refine ⟨⟨⟨e, hchange⟩, ?_⟩, hheld', fun _ => hheld'⟩
    rcases applyReplay_change h with ⟨-, rfl | ⟨id, a, -, -, rfl⟩⟩ | ⟨row, event, view', -, -, -,
      ⟨-, -, hends, -⟩ | ⟨-, hends, -⟩⟩
    · exact .of_letters rfl
    · exact .of_letters rfl
    · exact .end_ hends ⟨by simp, by simp⟩ hheld
    · exact .end_ hends ⟨by simp, by simp⟩ hheld
  · rintro e w x hheld h _ rfl
    exact ⟨⟨⟨e, (changes_applyReplay claim view).error e w x h⟩, .of_letters rfl⟩, hheld⟩

theorem triple_recordFailure : Program.Triple le (OperatorGuarantee cfg)
    (fun w => claim.Held w.db) (recordFailureProgram claim) (fun _ _ => True)
    (fun _ _ => True) := by
  refine .bind (Q := fun _ w => claim.Held w.db) (triple_session hle
    (fun w _ h => ⟨.refl w, trivial⟩) ?_ ?_) fun recorded => ?_
  · rintro e w recorded db' hheld h _ rfl
    have hchange : OperatorActs cfg e w _ := (changes_recordFailure claim).ok e w recorded db' h
    refine ⟨⟨⟨e, hchange⟩, ?_⟩, hheld.later hchange.attemptsLater, fun _ => trivial⟩
    rcases recordFailure_change h with ⟨-, rfl | ⟨id, a, -, -, rfl⟩⟩ | ⟨-, ⟨row, hends⟩, -⟩
    · exact .of_letters rfl
    · exact .of_letters rfl
    · exact .end_ hends ⟨by simp, by simp⟩ hheld
  · rintro e w x hheld h _ rfl
    exact ⟨⟨⟨e, (changes_recordFailure claim).error e w x h⟩, .of_letters rfl⟩, trivial⟩
  · split
    · exact .ret fun _ _ => trivial
    · exact .raise fun _ _ => trivial

/-- Who holds a claim applies it, or records its failure. -/
theorem triple_applyReplayProgram : Program.Triple le (OperatorGuarantee cfg)
    (fun w => claim.Held w.db) (applyReplayProgram cfg claim) (fun _ _ => True)
    (fun _ _ => True) := by
  refine .bind (Q := fun _ w => claim.Held w.db) (Program.Triple.attempt
    (.bind (triple_lookUpRetained hle) fun view => triple_applyReplay hle view)
    (fun _ _ h => h) fun _ _ h => h) fun answer => ?_
  split
  · exact .ret fun _ _ => trivial
  · exact .raise fun _ _ => trivial
  · split
    · exact triple_recordFailure hle
    · exact .raise fun _ _ => trivial

end Held

/-- **A replay ends only the claim it was granted**, which it holds whatever the others do. -/
theorem triple_replay (hle : ∀ w w', le w w' → AttemptsLater w.db w'.db) (leaseSeconds : ℤ)
    (request : ReplayRequest) :
    Program.Triple le (OperatorGuarantee cfg) (fun _ => True)
      (replayProgram cfg leaseSeconds request) (fun _ _ => True) (fun _ _ => True) := by
  refine .bind (Q := fun outcome w => ∀ claim, outcome = .claimed claim → claim.Held w.db)
    (triple_session (fun _ _ _ h => h) (fun w _ _ => ⟨.refl w, trivial⟩) ?_ ?_) fun outcome => ?_
  · rintro e w outcome db' - h _ rfl
    have hchange : OperatorActs cfg e w _ :=
      (changes_claimReplay leaseSeconds request).ok e w outcome db' h
    rcases claimReplay_change h with ⟨claim, rfl, htakes⟩ | ⟨rfl, id, a, -, -, rfl⟩ | ⟨hnone, -, rfl⟩
    · refine ⟨⟨⟨e, hchange⟩, .claim htakes⟩, ?_, fun _ => trivial⟩
      rintro _ ⟨⟩
      exact htakes.held
    · exact ⟨⟨⟨e, hchange⟩, .of_letters rfl⟩, by simp, fun _ => trivial⟩
    · exact ⟨⟨⟨e, hchange⟩, .of_letters rfl⟩, fun claim h => absurd h (hnone claim),
        fun _ => trivial⟩
  · rintro e w x - h _ rfl
    exact ⟨⟨⟨e, (changes_claimReplay leaseSeconds request).error e w x h⟩, .of_letters rfl⟩,
      trivial⟩
  · split
    · exact .raise fun _ _ => trivial
    · exact .raise fun _ _ => trivial
    · exact .raise fun _ _ => trivial
    · exact .raise fun _ _ => trivial
    · exact .raise fun _ _ => trivial
    · exact .ret fun _ _ => trivial
    · exact .ret fun _ _ => trivial
    · next claim =>
      exact .pre (triple_applyReplayProgram fun w w' h hheld => hheld.later (hle w w' h))
        fun w h => h claim rfl

end Program

end Atlas
