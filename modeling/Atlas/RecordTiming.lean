/-
**How long a record takes.**

The runner of `Atlas.runOnce` on operations that only take time: how every attempt ends and how long
it takes, and how long every wait takes, is a script.  The clock stands still between attempts and
waits.  Whether a record ends before its deadline, and whether accepted settings leave it the time
it needs, are questions about all scripts.

Main definitions:

* `Atlas.TimedScript`, `Atlas.TimedWorld`, `Atlas.timedOps` — the script, the clock and the attempts
  made, and the operations;
* `Atlas.ConsumerSettings.Suffices` — accepted settings leave a record its first commit.

Main results:

* `Atlas.hoare_retrying` — the rule for a retry loop and its clock;
* `Atlas.run_within_deadline` — **every record ends before its deadline**;
* `Atlas.settings_suffice_iff` — **what accepted settings have to leave besides the attempts**.
-/

import Atlas.CodecRoundTrip
import Atlas.ConsumerRunner

set_option relaxedAutoImplicit false
set_option autoImplicit false

namespace Atlas

/-! ### Scripts -/

/-- The retry loops, by the name of their metric. -/
inductive RetryStage where
  | apply
  | deadLetterUpsert
  | commit
  deriving DecidableEq, Repr

/-- How the attempts of each loop end, one after the other, and how long attempts and waits take. -/
structure TimedScript where
  applyResult : ℕ → Except ConsumerExc InboxOutcome
  upsertResult : ℕ → Except ConsumerExc String
  commitResult : ℕ → Except ConsumerExc Unit
  attemptSeconds : RetryStage → ℕ → ℚ
  waitSeconds : ℕ → ℚ → ℚ
  shutdown : ℕ → Bool

/-- The clock, in seconds, and how many attempts and waits there were. -/
structure TimedWorld where
  now : ℚ
  attempts : RetryStage → ℕ := fun _ => 0
  waits : ℕ := 0

/-- A program that takes time. -/
abbrev TimedProgram (α : Type) := Program Unit TimedWorld ConsumerExc α

namespace TimedWorld

/-- The state after one more attempt. -/
def attempted (w : TimedWorld) (script : TimedScript) (stage : RetryStage) : TimedWorld :=
  { w with
    now := w.now + script.attemptSeconds stage (w.attempts stage)
    attempts := Function.update w.attempts stage (w.attempts stage + 1) }

/-- The state after one more wait. -/
def waited (w : TimedWorld) (script : TimedScript) (seconds : ℚ) : TimedWorld :=
  { w with now := w.now + script.waitSeconds w.waits seconds, waits := w.waits + 1 }

variable {w : TimedWorld} {script : TimedScript} {stage : RetryStage} {seconds : ℚ}

@[simp] theorem now_attempted : (w.attempted script stage).now
    = w.now + script.attemptSeconds stage (w.attempts stage) := rfl

@[simp] theorem attempts_attempted : (w.attempted script stage).attempts
    = Function.update w.attempts stage (w.attempts stage + 1) := rfl

@[simp] theorem waits_attempted : (w.attempted script stage).waits = w.waits := rfl

@[simp] theorem now_waited : (w.waited script seconds).now
    = w.now + script.waitSeconds w.waits seconds := rfl

@[simp] theorem attempts_waited : (w.waited script seconds).attempts = w.attempts := rfl

end TimedWorld

section Ops

variable (script : TimedScript)

/-- One attempt of a loop. -/
def timedAttempt {α : Type} (stage : RetryStage) (result : ℕ → Except ConsumerExc α) :
    TimedProgram α :=
  .act (fun _ w => w.attempted script stage) fun _ w => .lift (result (w.attempts stage))

/-- The operations of a script. -/
def timedOps : RunnerOps Unit TimedWorld ℚ where
  seconds := id
  clock := Program.atomically (Tx.read fun w => w.now)
  wait seconds := .act (fun _ w => w.waited script seconds) fun _ w => .ret (script.shutdown w.waits)
  recordAndApply _ _ _ _ := timedAttempt script .apply script.applyResult
  upsert _ _ _ _ _ _ := timedAttempt script .deadLetterUpsert script.upsertResult
  commitMessage _ _ := timedAttempt script .commit script.commitResult

end Ops

/-! ### Rules -/

section Rules

variable {script : TimedScript} {cfg : ConsumerConfig} {α : Type} {A : TimedWorld → Prop}
  {Q : α → TimedWorld → Prop} {X : ConsumerExc → TimedWorld → Prop}

theorem hoare_timedAttempt {stage : RetryStage} {result : ℕ → Except ConsumerExc α}
    (hok : ∀ w a, A w → result (w.attempts stage) = .ok a → Q a (w.attempted script stage))
    (herror : ∀ w x, A w → result (w.attempts stage) = .error x →
      X x (w.attempted script stage)) :
    Program.Hoare A (timedAttempt script stage result) Q X := by
  refine fun w hw => Program.complies_act.2 ?_
  rintro _ w' rfl
  refine ⟨trivial, ?_⟩
  cases h : result (w.attempts stage) with
  | ok a => exact Program.complies_ret.2 (hok w a hw h)
  | error x => exact Program.complies_raise.2 (herror w x hw h)

/-- What the clock shows. -/
theorem hoare_clock : Program.Hoare A (timedOps script).clock
    (fun now w => A w ∧ now = w.now) X :=
  Program.Hoare.read fun _ h => ⟨h, rfl⟩

/-- The rule for a backoff. -/
theorem hoare_backOff {deadlineAt : ℚ} {attemptIndex : ℕ} {A' : TimedWorld → Prop}
    (hafford : ∀ w, A w →
      ¬ cfg.canAffordBackoff deadlineAt w.now (cfg.timing.backoffDelaySeconds (attemptIndex - 1)) →
      X .processingDeadlineExceeded w)
    (hwait : ∀ w, A w →
      cfg.canAffordBackoff deadlineAt w.now (cfg.timing.backoffDelaySeconds (attemptIndex - 1)) →
      if script.shutdown w.waits then
        X .shutdownRequested (w.waited script (cfg.timing.backoffDelaySeconds (attemptIndex - 1)))
      else A' (w.waited script (cfg.timing.backoffDelaySeconds (attemptIndex - 1)))) :
    Program.Hoare A (backOff (timedOps script) cfg deadlineAt attemptIndex) (fun _ => A') X := by
  rw [backOff]
  refine .bind hoare_clock fun now => ?_
  split
  · next haffords =>
    refine .bind (Q := fun shutdown w' => if shutdown then X .shutdownRequested w' else A' w') ?_
      fun shutdown => ?_
    · refine fun w hw => Program.complies_act.2 ?_
      rintro _ w' rfl
      obtain ⟨hA, rfl⟩ := hw
      exact ⟨trivial, Program.complies_ret.2 (hwait w hA haffords)⟩
    · cases shutdown with
      | true => exact .raise fun _ h => h
      | false => exact .ret fun _ h => h
  · next hnot =>
    refine .raise ?_
    rintro w ⟨hA, rfl⟩
    exact hafford w hA hnot

/-- The rule for a retry loop: `I i` holds before attempt `i`, and `X' i` after it has failed. -/
theorem hoare_retrying (last : ℕ) (I : ℕ → TimedWorld → Prop)
    (X' : ℕ → ConsumerExc → TimedWorld → Prop) {deadlineAt : ℚ} {transient : ConsumerExc → Bool}
    {permanent exhausted : ConsumerExc → ConsumerExc} {attempt : ℕ → TimedProgram α}
    (hattempt : ∀ i ≤ last, Program.Hoare
      (fun w => I i w ∧ cfg.canStartAttempt deadlineAt w.now) (attempt i) Q (X' i))
    (hstart : ∀ i ≤ last, ∀ w, I i w → ¬ cfg.canStartAttempt deadlineAt w.now →
      X .processingDeadlineExceeded w)
    (hpermanent : ∀ i ≤ last, ∀ x w, transient x = false → X' i x w → X (permanent x) w)
    (hexhausted : ∀ x w, transient x = true → X' last x w → X (exhausted x) w)
    (hafford : ∀ i < last, ∀ x w, transient x = true → X' i x w →
      ¬ cfg.canAffordBackoff deadlineAt w.now (cfg.timing.backoffDelaySeconds (i - 1)) →
      X .processingDeadlineExceeded w)
    (hwait : ∀ i < last, ∀ x w, transient x = true → X' i x w →
      cfg.canAffordBackoff deadlineAt w.now (cfg.timing.backoffDelaySeconds (i - 1)) →
      if script.shutdown w.waits then
        X .shutdownRequested (w.waited script (cfg.timing.backoffDelaySeconds (i - 1)))
      else I (i + 1) (w.waited script (cfg.timing.backoffDelaySeconds (i - 1))))
    (remaining i : ℕ) (hlast : i + remaining = last) :
    Program.Hoare (I i)
      (retrying (timedOps script) cfg deadlineAt transient permanent exhausted attempt remaining i)
      Q X := by
  have htry : ∀ i ≤ last, Program.Hoare
      (fun w => I i w ∧ cfg.canStartAttempt deadlineAt w.now) (attempt i).attempt
      (Program.Answered Q (X' i)) X :=
    fun i hi => (hattempt i hi).answered
  have hnot : ∀ i ≤ last, ∀ {now : ℚ}, ¬ cfg.canStartAttempt deadlineAt now →
      Program.Hoare (fun w => I i w ∧ now = w.now)
        (throw .processingDeadlineExceeded : TimedProgram α) Q X := by
    rintro i hi now hnot w ⟨hI, rfl⟩
    exact Program.complies_raise.2 (hstart i hi w hI hnot)
  have hcan : ∀ {i : ℕ} {now : ℚ}, cfg.canStartAttempt deadlineAt now → ∀ w : TimedWorld,
      I i w ∧ now = w.now → I i w ∧ cfg.canStartAttempt deadlineAt w.now := by
    rintro i now hcan w ⟨hI, rfl⟩
    exact ⟨hI, hcan⟩
  induction remaining generalizing i with
  | zero =>
      have hi : i = last := by simpa using hlast
      rw [retrying]
      refine .bind hoare_clock fun now => ?_
      split
      · next hstarts =>
        refine .bind (.pre (htry i hi.le) (hcan hstarts)) fun answer => ?_
        cases answer with
        | ok a => exact .ret fun _ h => h
        | error x =>
            simp only []
            split
            · next hpermanent' => exact .raise fun w h => hpermanent i hi.le x w hpermanent' h
            · next htransient =>
              subst hi
              exact .raise fun w h => hexhausted x w (by simpa using htransient) h
      · next hno => exact hnot i hi.le hno
  | succ remaining ih =>
      have hi : i < last := by omega
      rw [retrying]
      refine .bind hoare_clock fun now => ?_
      split
      · next hstarts =>
        refine .bind (.pre (htry i hi.le) (hcan hstarts)) fun answer => ?_
        cases answer with
        | ok a => exact .ret fun _ h => h
        | error x =>
            simp only []
            split
            · next hpermanent' => exact .raise fun w h => hpermanent i hi.le x w hpermanent' h
            · next htransient =>
              have htrue : transient x = true := by simpa using htransient
              exact .bind (hoare_backOff (fun w h => hafford i hi x w htrue h)
                fun w h => hwait i hi x w htrue h) fun _ => ih (i + 1) (by omega)
      · next hno => exact hnot i hi.le hno

end Rules

/-! ### The deadline -/

/-- No later than the deadline, and after at most so many attempts. -/
def TimedWorld.Within (w : TimedWorld) (deadlineAt : ℚ) (attempts : RetryStage → ℕ) : Prop :=
  w.now ≤ deadlineAt ∧ ∀ stage, w.attempts stage ≤ attempts stage

/-- No attempt takes longer than the bound, and no wait longer than it was asked for. -/
structure TimedScript.Timely (script : TimedScript) (bound : ℚ) : Prop where
  attempt : ∀ stage n, script.attemptSeconds stage n ≤ bound
  wait : ∀ n seconds, script.waitSeconds n seconds ≤ seconds

section Deadline

/-- What holds at every end of a program holds of the state its run leaves. -/
theorem Program.Hoare.run_final {ε σ χ β : Type} {A P : σ → Prop} {p : Program ε σ χ β}
    (h : Program.Hoare A p (fun _ => P) (fun _ => P)) (env : ℕ → ε) (i : ℕ) {s : σ} (hs : A s) :
    P (p.run env i s).2.2 := by
  cases hrun : (p.run env i s).1 with
  | ok a => exact Program.Triple.run_ok (fun _ => rfl) h hs (Prod.ext hrun rfl)
  | error x => exact Program.Triple.run_error (fun _ => rfl) h hs (Prod.ext hrun rfl)

variable {script : TimedScript} {cfg : ConsumerConfig} {deadlineAt : ℚ} {α : Type}
  {w : TimedWorld} {stage : RetryStage} {attempts : RetryStage → ℕ}

theorem TimedWorld.Within.mono {attempts' : RetryStage → ℕ} (h : w.Within deadlineAt attempts)
    (hle : ∀ stage, attempts stage ≤ attempts' stage) : w.Within deadlineAt attempts' :=
  ⟨h.1, fun stage => (h.2 stage).trans (hle stage)⟩

/-- An attempt that was started in time ends in time. -/
theorem TimedWorld.Within.attempted (h : w.Within deadlineAt attempts)
    (hcan : cfg.canStartAttempt deadlineAt w.now)
    (htimely : script.Timely cfg.timing.worstCaseAttemptSeconds) :
    (w.attempted script stage).Within deadlineAt
      (Function.update attempts stage (attempts stage + 1)) := by
  refine ⟨?_, fun other => ?_⟩
  · have hattempt := htimely.attempt stage (w.attempts stage)
    rw [ConsumerConfig.canStartAttempt] at hcan
    rw [now_attempted]
    linarith
  · rw [attempts_attempted]
    by_cases hother : other = stage
    · subst hother
      simpa using h.2 other
    · simpa [Function.update_of_ne hother] using h.2 other

/-- A wait that was affordable ends in time. -/
theorem TimedWorld.Within.waited {seconds : ℚ} (h : w.Within deadlineAt attempts)
    (hafford : cfg.canAffordBackoff deadlineAt w.now seconds)
    (hbound : 0 ≤ cfg.timing.worstCaseAttemptSeconds)
    (htimely : script.Timely cfg.timing.worstCaseAttemptSeconds) :
    (w.waited script seconds).Within deadlineAt attempts := by
  refine ⟨?_, h.2⟩
  have hwait := htimely.wait w.waits seconds
  rw [ConsumerConfig.canAffordBackoff] at hafford
  rw [now_waited]
  linarith

/-- A loop that has made no attempt yet makes at most so many, and ends in time. -/
theorem hoare_retrying_within (stage : RetryStage) {transient : ConsumerExc → Bool}
    {permanent exhausted : ConsumerExc → ConsumerExc} {attempt : ℕ → TimedProgram α}
    (hbound : 0 ≤ cfg.timing.worstCaseAttemptSeconds) (hmax : 1 ≤ cfg.timing.maxAttempts)
    (htimely : script.Timely cfg.timing.worstCaseAttemptSeconds)
    (hattempt : ∀ (attempts : RetryStage → ℕ) i, Program.Hoare
      (fun w => w.Within deadlineAt attempts ∧ cfg.canStartAttempt deadlineAt w.now) (attempt i)
      (fun _ w => w.Within deadlineAt (Function.update attempts stage (attempts stage + 1)))
      (fun _ w => w.Within deadlineAt (Function.update attempts stage (attempts stage + 1))))
    (hnone : attempts stage = 0) :
    Program.Hoare (fun w => w.Within deadlineAt attempts)
      (retrying (timedOps script) cfg deadlineAt transient permanent exhausted attempt
        (cfg.timing.maxAttempts - 1) 1)
      (fun _ w => w.Within deadlineAt (Function.update attempts stage cfg.timing.maxAttempts))
      (fun _ w => w.Within deadlineAt (Function.update attempts stage cfg.timing.maxAttempts)) := by
  have hmono : ∀ {w : TimedWorld} {i : ℕ}, i ≤ cfg.timing.maxAttempts →
      w.Within deadlineAt (Function.update attempts stage i) →
        w.Within deadlineAt (Function.update attempts stage cfg.timing.maxAttempts) := by
    intro w i hi h
    refine h.mono fun other => ?_
    by_cases hother : other = stage
    · subst hother
      simpa using hi
    · simp [Function.update_of_ne hother]
  have hwithin : ∀ i, 1 ≤ i → Program.Hoare
      (fun w => w.Within deadlineAt (Function.update attempts stage (i - 1))
        ∧ cfg.canStartAttempt deadlineAt w.now) (attempt i)
      (fun _ w => w.Within deadlineAt (Function.update attempts stage i))
      (fun _ w => w.Within deadlineAt (Function.update attempts stage i)) := by
    intro i hi
    have h := hattempt (Function.update attempts stage (i - 1)) i
    simpa [Nat.sub_add_cancel hi] using h
  refine .pre (hoare_retrying cfg.timing.maxAttempts
    (fun i w => 1 ≤ i ∧ w.Within deadlineAt (Function.update attempts stage (i - 1)))
    (fun i _ w => 1 ≤ i ∧ w.Within deadlineAt (Function.update attempts stage i))
    ?_ ?_ ?_ ?_ ?_ ?_ _ 1 (by omega)) ?_
  · rintro i hi w ⟨⟨hone, hw⟩, hcan⟩
    exact Program.Triple.consequence (hwithin i hone) (fun _ h => h) (fun _ _ h => hmono hi h)
      (fun _ _ h => ⟨hone, h⟩) w ⟨hw, hcan⟩
  · rintro i hi w ⟨-, hw⟩ -
    exact hmono (by omega) hw
  · rintro i hi x w - ⟨-, hw⟩
    exact hmono hi hw
  · rintro x w - ⟨-, hw⟩
    exact hw
  · rintro i hi x w - ⟨-, hw⟩ -
    exact hmono hi.le hw
  · rintro i hi x w - ⟨-, hw⟩ hafford
    have hwaited := hw.waited hafford hbound htimely
    split
    · exact hmono hi.le hwaited
    · exact ⟨by omega, by simpa using hwaited⟩
  · intro w hw
    refine ⟨le_rfl, ?_⟩
    rwa [show Function.update attempts stage (1 - 1) = attempts by
      rw [Nat.sub_self, ← hnone, Function.update_eq_self]]

theorem hoare_timedAttempt_within {result : ℕ → Except ConsumerExc α}
    (htimely : script.Timely cfg.timing.worstCaseAttemptSeconds) (attempts : RetryStage → ℕ) :
    Program.Hoare (fun w => w.Within deadlineAt attempts ∧ cfg.canStartAttempt deadlineAt w.now)
      (timedAttempt script stage result)
      (fun _ w => w.Within deadlineAt (Function.update attempts stage (attempts stage + 1)))
      (fun _ w => w.Within deadlineAt (Function.update attempts stage (attempts stage + 1))) :=
  hoare_timedAttempt (fun _ _ h _ => h.1.attempted h.2 htimely)
    fun _ _ h _ => h.1.attempted h.2 htimely

/-- How many attempts there may have been once the loop of a stage is over. -/
def RetryStage.used (cfg : ConsumerConfig) (attempts : RetryStage → ℕ) (stage : RetryStage) :
    RetryStage → ℕ :=
  Function.update attempts stage cfg.timing.maxAttempts

theorem RetryStage.used_le (h : ∀ stage, attempts stage ≤ cfg.timing.maxAttempts) :
    ∀ other, stage.used cfg attempts other ≤ cfg.timing.maxAttempts := by
  intro other
  by_cases hother : other = stage
  · subst hother
    simp [used]
  · simpa [used, Function.update_of_ne hother] using h other

section Loops

variable {kafkaPartition kafkaOffset : ℕ} {at_ : ℚ} {event : DomainEvent}

theorem hoare_commitWithRetry_within (attempts : RetryStage → ℕ)
    (hbound : 0 ≤ cfg.timing.worstCaseAttemptSeconds) (hmax : 1 ≤ cfg.timing.maxAttempts)
    (htimely : script.Timely cfg.timing.worstCaseAttemptSeconds) (hnone : attempts .commit = 0) :
    Program.Hoare (fun w => w.Within deadlineAt attempts)
      (commitWithRetry (timedOps script) cfg kafkaPartition kafkaOffset deadlineAt)
      (fun _ w => w.Within deadlineAt (RetryStage.commit.used cfg attempts))
      (fun _ w => w.Within deadlineAt (RetryStage.commit.used cfg attempts)) :=
  hoare_retrying_within .commit hbound hmax htimely
    (fun attempts _ => hoare_timedAttempt_within htimely attempts) hnone

theorem hoare_applyWithRetry_within (attempts : RetryStage → ℕ)
    (hbound : 0 ≤ cfg.timing.worstCaseAttemptSeconds) (hmax : 1 ≤ cfg.timing.maxAttempts)
    (htimely : script.Timely cfg.timing.worstCaseAttemptSeconds) (hnone : attempts .apply = 0) :
    Program.Hoare (fun w => w.Within deadlineAt attempts)
      (applyWithRetry (timedOps script) cfg event kafkaPartition kafkaOffset at_ deadlineAt)
      (fun _ w => w.Within deadlineAt (RetryStage.apply.used cfg attempts))
      (fun _ w => w.Within deadlineAt (RetryStage.apply.used cfg attempts)) := by
  refine hoare_retrying_within .apply hbound hmax htimely (fun attempts i => ?_) hnone
  rw [applyOnce]
  refine .bind (.attempt (hoare_timedAttempt_within htimely attempts)
    (R := fun _ w => w.Within deadlineAt
      (Function.update attempts .apply (attempts .apply + 1)))
    (fun _ _ h => h) fun _ _ h => h) fun answer => ?_
  split
  · exact .ret fun _ h => h
  · exact .ret fun _ h => h
  · exact .raise fun _ h => h

theorem hoare_deadLetterAndCommit_within (attempts : RetryStage → ℕ) {error : PoisonError} {message : KafkaMessage}
    {decoded : Option DomainEvent} {processingAttemptCount : ℕ}
    (hbound : 0 ≤ cfg.timing.worstCaseAttemptSeconds) (hmax : 1 ≤ cfg.timing.maxAttempts)
    (htimely : script.Timely cfg.timing.worstCaseAttemptSeconds)
    (hle : ∀ stage, attempts stage ≤ cfg.timing.maxAttempts)
    (hupsert : attempts .deadLetterUpsert = 0) (hcommit : attempts .commit = 0) :
    Program.Hoare (fun w => w.Within deadlineAt attempts)
      (deadLetterAndCommit (timedOps script) cfg error message decoded kafkaPartition kafkaOffset
        at_ processingAttemptCount deadlineAt)
      (fun _ w => w.Within deadlineAt fun _ => cfg.timing.maxAttempts)
      (fun _ w => w.Within deadlineAt fun _ => cfg.timing.maxAttempts) := by
  have husedUpsert : ∀ other, RetryStage.deadLetterUpsert.used cfg attempts other
      ≤ cfg.timing.maxAttempts := RetryStage.used_le hle
  have husedCommit : ∀ other, RetryStage.commit.used cfg
      (RetryStage.deadLetterUpsert.used cfg attempts) other ≤ cfg.timing.maxAttempts :=
    RetryStage.used_le husedUpsert
  have hcommit' : RetryStage.deadLetterUpsert.used cfg attempts .commit = 0 := by
    simpa [RetryStage.used, Function.update_of_ne] using hcommit
  rw [deadLetterAndCommit]
  refine .bind (.consequence (hoare_retrying_within .deadLetterUpsert hbound hmax htimely
    (fun attempts _ => hoare_timedAttempt_within htimely attempts) hupsert)
    (fun _ h => h) (fun _ _ h => h) fun _ _ h => h.mono husedUpsert) fun _ => ?_
  refine .bind (.attempt (hoare_commitWithRetry_within _ hbound hmax htimely hcommit')
    (R := fun _ w => w.Within deadlineAt fun _ => cfg.timing.maxAttempts)
    (fun _ _ h => h.mono husedCommit) fun _ _ h => h.mono husedCommit) fun answer => ?_
  split
  · exact .ret fun _ h => h
  · exact .raise fun _ h => h
  · exact .raise fun _ h => h
  · exact .raise fun _ h => h

end Loops

/-- A record ends in time, and after at most so many attempts of each kind. -/
theorem hoare_runOnce_within (cfg : ConsumerConfig) (hbound : 0 ≤ cfg.timing.worstCaseAttemptSeconds)
    (hmax : 1 ≤ cfg.timing.maxAttempts)
    (hmargin : cfg.timing.safetyMarginSeconds ≤ cfg.maxPollIntervalSeconds)
    (htimely : script.Timely cfg.timing.worstCaseAttemptSeconds) (polled : Polled)
    (receivedAt : ℚ) :
    Program.Hoare (fun w => w = { now := receivedAt }) (runOnce (timedOps script) cfg polled)
      (fun _ w => w.Within (cfg.deadlineAt receivedAt) fun _ => cfg.timing.maxAttempts)
      (fun _ w => w.Within (cfg.deadlineAt receivedAt) fun _ => cfg.timing.maxAttempts) := by
  have hdeadline : receivedAt ≤ cfg.deadlineAt receivedAt := by
    rw [ConsumerConfig.deadlineAt]
    linarith
  have hstart : (TimedWorld.Within { now := receivedAt } (cfg.deadlineAt receivedAt) fun _ => 0) :=
    ⟨hdeadline, fun _ => le_rfl⟩
  have hended : (TimedWorld.Within { now := receivedAt } (cfg.deadlineAt receivedAt)
      fun _ => cfg.timing.maxAttempts) := hstart.mono fun _ => Nat.zero_le _
  have hnone : ∀ stage, RetryStage.apply.used cfg (fun _ => 0) stage ≤ cfg.timing.maxAttempts :=
    RetryStage.used_le fun _ => Nat.zero_le _
  rcases polled with _ | recoverable | ⟨_ | kafkaPartition, _ | kafkaOffset, message⟩
  case record.some.some =>
    rw [runOnce, processRecord]
    refine .bind hoare_clock fun at_ => ?_
    split
    · next event _ _ =>
      rw [processDecoded]
      rintro _ ⟨rfl, rfl⟩
      refine (Program.Triple.bind (A := fun w => w = { now := at_ })
        (.consequence (hoare_applyWithRetry_within (fun _ => 0) hbound hmax htimely rfl)
          ?_ (fun _ _ h => h) fun _ _ h => h.mono hnone) fun outcome => ?_) _ rfl
      · rintro _ rfl
        exact hstart
      · split
        · exact hoare_deadLetterAndCommit_within _ hbound hmax htimely hnone rfl rfl
        · have hused : ∀ stage, RetryStage.commit.used cfg
              (RetryStage.apply.used cfg fun _ => 0) stage ≤ cfg.timing.maxAttempts :=
            RetryStage.used_le hnone
          exact .bind (.consequence (hoare_commitWithRetry_within _ hbound hmax htimely rfl)
            (fun _ h => h) (fun _ _ h => h) fun _ _ h => h.mono hused)
            fun _ => .ret fun _ h => h.mono hused
    · rintro _ ⟨rfl, rfl⟩
      exact hoare_deadLetterAndCommit_within (fun _ => 0) hbound hmax htimely
        (fun _ => Nat.zero_le _) rfl rfl _ hstart
    · refine .raise ?_
      rintro _ ⟨rfl, rfl⟩
      exact hended
  case nothing =>
    refine .ret ?_
    rintro _ rfl
    exact hended
  case brokerError =>
    cases recoverable
    all_goals
      refine .raise ?_
      rintro _ rfl
      exact hended
  all_goals
    refine .raise ?_
    rintro _ rfl
    exact hended

end Deadline

/-- A runner of the settings: `main` hands both to it. -/
structure ConsumerConfig.BuiltFrom (cfg : ConsumerConfig) (settings : ConsumerSettings) : Prop where
  timing : cfg.timing = settings.timingParams
  maxPollIntervalSeconds :
    cfg.maxPollIntervalSeconds = settings.consumerMaxPollIntervalSeconds

/-- One call of `run_once` that starts at an instant. -/
def timedRun (script : TimedScript) (cfg : ConsumerConfig) (polled : Polled) (receivedAt : ℚ) :
    Except ConsumerExc ProcessOutcome × ℕ × TimedWorld :=
  (runOnce (timedOps script) cfg polled).run (fun _ => ()) 0 { now := receivedAt }

/-- **Every record ends before its deadline, and every retry loop makes at most the configured
number of attempts.** -/
theorem run_within_deadline {settings : ConsumerSettings} (haccepted : settings.Accepted)
    {cfg : ConsumerConfig} (hcfg : cfg.BuiltFrom settings) {script : TimedScript}
    (htimely : script.Timely settings.timingParams.worstCaseAttemptSeconds) (polled : Polled)
    (receivedAt : ℚ) :
    (timedRun script cfg polled receivedAt).2.2.now ≤ receivedAt
        + (settings.consumerMaxPollIntervalSeconds - settings.consumerRetrySafetyMarginSeconds) ∧
      ∀ stage, (timedRun script cfg polled receivedAt).2.2.attempts stage
        ≤ settings.consumerRetryMaxAttempts := by
  have hbound := haccepted.fields.worstCaseAttemptSeconds_pos
  have hmargin := haccepted.margin_lt
  have hmax := haccepted.fields.consumerRetryMaxAttempts
  rw [← worstCaseAttemptSeconds_timingParams] at hbound hmargin
  have hwithin := Program.Hoare.run_final (hoare_runOnce_within cfg
    (by rw [hcfg.timing]; exact hbound.le) (by rw [hcfg.timing]; exact hmax)
    (by
      rw [hcfg.timing, hcfg.maxPollIntervalSeconds]
      simp only [ConsumerSettings.timingParams]
      linarith)
    (by rw [hcfg.timing]; exact htimely) polled receivedAt) (fun _ => ()) 0 rfl
  rw [ConsumerConfig.deadlineAt, hcfg.timing, hcfg.maxPollIntervalSeconds] at hwithin
  exact hwithin

/-! ### The first commit -/

/-- Every attempt takes at most the bound, every wait exactly the backoff, and nobody asks for a
shutdown. -/
structure TimedScript.Undisturbed (script : TimedScript) (bound : ℚ) : Prop where
  attempt : ∀ stage n, script.attemptSeconds stage n ≤ bound
  wait : ∀ n seconds, script.waitSeconds n seconds = seconds
  shutdown : ∀ n, script.shutdown n = false

/-- How the last attempt to apply an event ends: it is applied or known, or it is poison. -/
def applyEnd : InboxOutcome ⊕ PoisonError → Except ConsumerExc InboxOutcome
  | .inl outcome => .ok outcome
  | .inr error => .error (.poison error)

/-- The attempts to apply the event fail transiently up to attempt `k`, counted from zero, which
ends so. -/
structure TimedScript.AppliesAt (script : TimedScript) (k : ℕ)
    (ending : InboxOutcome ⊕ PoisonError) : Prop where
  fails : ∀ n < k, ∃ x, script.applyResult n = .error x ∧ isTransientDatabaseError x = true
  ends : script.applyResult k = applyEnd ending

/-- The record gets its first offset commit: the attempt is made, and when it succeeds the run has
not exceeded its deadline. -/
structure FirstCommit (script : TimedScript)
    (run : Except ConsumerExc ProcessOutcome × ℕ × TimedWorld) : Prop where
  attempted : 1 ≤ run.2.2.attempts .commit
  inTime : script.commitResult 0 = .ok () → run.1 ≠ .error .processingDeadlineExceeded

/-- Settings leave every record the time for its first commit: once its event is applied, and once
it is dead-lettered as poison. -/
def ConsumerSettings.Suffices (settings : ConsumerSettings) : Prop :=
  ∀ (cfg : ConsumerConfig) (script : TimedScript) (kafkaPartition kafkaOffset : ℕ)
    (message : KafkaMessage) (event : DomainEvent) (traceparent : Option String) (receivedAt : ℚ)
    (k : ℕ) (ending : InboxOutcome ⊕ PoisonError),
    cfg.BuiltFrom settings →
    decodeMessage cfg.pydantic cfg.recursionLimit message = .ok (event, traceparent) →
    script.Undisturbed settings.timingParams.worstCaseAttemptSeconds →
    k < settings.consumerRetryMaxAttempts → script.AppliesAt k ending →
    let run := timedRun script cfg (.record (some kafkaPartition) (some kafkaOffset) message)
      receivedAt
    match ending with
    | .inl _ => FirstCommit script run
    | .inr _ => 1 ≤ run.2.2.attempts .deadLetterUpsert ∧
        ∀ id, script.upsertResult 0 = .ok id → FirstCommit script run

section FirstAttempt

variable {script : TimedScript} {cfg : ConsumerConfig} {deadlineAt : ℚ} {α : Type}
  {transient : ConsumerExc → Bool} {permanent exhausted : ConsumerExc → ConsumerExc}
  {stage : RetryStage} {result : ℕ → Except ConsumerExc α} {A : TimedWorld → Prop}

/-- What a loop changes only by attempts and waits it keeps. -/
theorem hoare_retrying_frame {F : TimedWorld → Prop}
    (hattempted : ∀ w, F w → F (w.attempted script stage))
    (hwaited : ∀ w seconds, F w → F (w.waited script seconds)) (remaining : ℕ) :
    Program.Hoare F (retrying (timedOps script) cfg deadlineAt transient permanent exhausted
      (fun _ => timedAttempt script stage result) remaining 1) (fun _ => F) (fun _ => F) := by
  refine hoare_retrying (1 + remaining) (fun _ => F) (fun _ _ => F)
    ?_ ?_ ?_ ?_ ?_ ?_ remaining 1 rfl
  · intro i _
    exact hoare_timedAttempt (fun w _ h _ => hattempted w h.1) fun w _ h _ => hattempted w h.1
  · exact fun _ _ _ h _ => h
  · exact fun _ _ _ _ _ h => h
  · exact fun _ _ _ h => h
  · exact fun _ _ _ _ _ h _ => h
  · intro i _ x w _ h _
    split
    · exact hwaited w _ h
    · exact hwaited w _ h

/-- A loop makes its first attempt when the deadline allows it, and when that one succeeds it makes
no other. -/
theorem hoare_retrying_first (stage : RetryStage) {result : ℕ → Except ConsumerExc α}
    (hnone : ∀ w, A w → w.attempts stage = 0) (remaining : ℕ) :
    Program.Hoare A
      (retrying (timedOps script) cfg deadlineAt transient permanent exhausted
        (fun _ => timedAttempt script stage result) remaining 1)
      (fun a w => ∃ w₀, A w₀ ∧ cfg.canStartAttempt deadlineAt w₀.now ∧ 1 ≤ w.attempts stage ∧
        ∀ b, result 0 = .ok b → a = b ∧ w = w₀.attempted script stage)
      (fun x w => x = .processingDeadlineExceeded ∧ A w ∧ ¬ cfg.canStartAttempt deadlineAt w.now ∨
        ∃ w₀, A w₀ ∧ cfg.canStartAttempt deadlineAt w₀.now ∧ 1 ≤ w.attempts stage ∧
          ∀ b, result 0 ≠ .ok b) := by
  -- from the second attempt on the first one has failed
  let Failed : TimedWorld → Prop := fun w =>
    ∃ w₀, A w₀ ∧ cfg.canStartAttempt deadlineAt w₀.now ∧ 1 ≤ w.attempts stage ∧
      ∀ b, result 0 ≠ .ok b
  have hattempted : ∀ w, Failed w → Failed (w.attempted script stage) := by
    rintro w ⟨w₀, hA, hcan, hone, hresult⟩
    exact ⟨w₀, hA, hcan, by simp, hresult⟩
  refine .pre (hoare_retrying (1 + remaining)
    (fun i w => i = 1 ∧ A w ∨ 1 < i ∧ Failed w) (fun i _ w => 1 ≤ i ∧ Failed w)
    ?_ ?_ ?_ ?_ ?_ ?_ remaining 1 rfl) fun w hw => .inl ⟨rfl, hw⟩
  · intro i _
    refine hoare_timedAttempt ?_ ?_
    · rintro w a ⟨⟨-, hw⟩ | ⟨-, hw⟩, hcan⟩ hok
      · refine ⟨w, hw, hcan, by simp, fun b hb => ⟨?_, rfl⟩⟩
        rw [hnone w hw, hb] at hok
        exact (Except.ok.inj hok).symm
      · obtain ⟨w₀, hA, hcan₀, hone, hresult⟩ := hattempted w hw
        exact ⟨w₀, hA, hcan₀, hone, fun b hb => absurd hb (hresult b)⟩
    · rintro w x ⟨⟨rfl, hw⟩ | ⟨hi, hw⟩, hcan⟩ herror
      · refine ⟨le_rfl, w, hw, hcan, by simp, fun b hb => ?_⟩
        rw [hnone w hw, hb] at herror
        cases herror
      · exact ⟨hi.le, hattempted w hw⟩
  · rintro i _ w (⟨-, hw⟩ | ⟨-, hw⟩) hno
    · exact .inl ⟨rfl, hw, hno⟩
    · exact .inr hw
  · exact fun _ _ _ _ _ h => .inr h.2
  · exact fun _ _ _ h => .inr h.2
  · exact fun _ _ _ _ _ h _ => .inr h.2
  · rintro i hi x w - ⟨hone, h⟩ -
    split
    · exact .inr h
    · refine .inr ⟨?_, h⟩
      omega

end FirstAttempt

/-- When attempt `k` of the apply loop starts, after the attempts and the backoffs before it. -/
def TimedScript.applyStart (script : TimedScript) (timing : RetryTimingParameters)
    (receivedAt : ℚ) : ℕ → ℚ
  | 0 => receivedAt
  | k + 1 => script.applyStart timing receivedAt k + script.attemptSeconds .apply k
      + timing.backoffDelaySeconds k

/-- So many attempts to apply the event were made, and none of another kind. -/
def TimedWorld.Applying (w : TimedWorld) (now : ℚ) (k : ℕ) : Prop :=
  w.now = now ∧ w.attempts .apply = k ∧ w.attempts .deadLetterUpsert = 0 ∧ w.attempts .commit = 0

/-- What the apply loop answers. -/
def applyAnswer (k : ℕ) : InboxOutcome ⊕ PoisonError → InboxOutcome ⊕ (PoisonError × ℕ)
  | .inl outcome => .inl outcome
  | .inr error => .inr (error, k + 1)

section Applying

variable {script : TimedScript} {cfg : ConsumerConfig} {deadlineAt receivedAt : ℚ}
  {kafkaPartition kafkaOffset : ℕ} {at_ : ℚ} {event : DomainEvent} {k : ℕ}
  {ending : InboxOutcome ⊕ PoisonError} {w : TimedWorld} {now : ℚ}

theorem TimedWorld.Applying.attempted (h : w.Applying now k) :
    (w.attempted script .apply).Applying (now + script.attemptSeconds .apply k) (k + 1) := by
  obtain ⟨rfl, hk, hupsert, hcommit⟩ := h
  refine ⟨by rw [now_attempted, hk], by simp [hk], ?_, ?_⟩
  · simpa [Function.update_of_ne] using hupsert
  · simpa [Function.update_of_ne] using hcommit

/-- One attempt of the loop: it fails transiently before attempt `k`, and ends the loop there. -/
theorem hoare_applyOnce (happlies : script.AppliesAt k ending) {n : ℕ} (hn : n ≤ k) :
    Program.Hoare (fun w => w.Applying now n)
      (applyOnce (timedOps script) event kafkaPartition kafkaOffset at_ (n + 1))
      (fun answer w => n = k ∧ answer = applyAnswer k ending ∧
        w.Applying (now + script.attemptSeconds .apply n) (n + 1))
      (fun x w => n < k ∧ isTransientDatabaseError x = true ∧
        w.Applying (now + script.attemptSeconds .apply n) (n + 1)) := by
  rw [applyOnce]
  refine .bind (.attempt (hoare_timedAttempt
    (Q := fun a w => script.applyResult n = .ok a ∧
      w.Applying (now + script.attemptSeconds .apply n) (n + 1))
    (X := fun x w => script.applyResult n = .error x ∧
      w.Applying (now + script.attemptSeconds .apply n) (n + 1))
    (fun w a h hok => ⟨h.2.1 ▸ hok, h.attempted⟩)
    fun w x h herror => ⟨h.2.1 ▸ herror, h.attempted⟩)
    (R := fun answer w => script.applyResult n = answer ∧
      w.Applying (now + script.attemptSeconds .apply n) (n + 1))
    (fun _ _ h => h) fun _ _ h => h) fun answer => ?_
  rcases hn.lt_or_eq with hlt | rfl
  · obtain ⟨x, hx, htransient⟩ := happlies.fails n hlt
    rintro w ⟨hanswer, hw⟩
    rw [hx] at hanswer
    subst hanswer
    cases x with
    | poison error => cases htransient
    | _ => exact Program.complies_raise.2 ⟨hlt, htransient, hw⟩
  · rintro w ⟨hanswer, hw⟩
    rw [happlies.ends] at hanswer
    subst hanswer
    cases ending with
    | inl outcome => exact Program.complies_ret.2 ⟨rfl, rfl, hw⟩
    | inr error => exact Program.complies_ret.2 ⟨rfl, rfl, hw⟩

/-- The apply loop: it reaches its last attempt unless an earlier one, or that one, does not fit
before the deadline. -/
theorem hoare_applyWithRetry {bound : ℚ} (hundisturbed : script.Undisturbed bound)
    (happlies : script.AppliesAt k ending) (hk : k < cfg.timing.maxAttempts) :
    Program.Hoare (fun w => w.Applying receivedAt 0)
      (applyWithRetry (timedOps script) cfg event kafkaPartition kafkaOffset at_ deadlineAt)
      (fun answer w => answer = applyAnswer k ending ∧
        w.Applying (script.applyStart cfg.timing receivedAt k + script.attemptSeconds .apply k)
          (k + 1))
      (fun _ w => w.attempts .commit = 0 ∧ ∃ i ≤ k,
        ¬ cfg.canStartAttempt deadlineAt (script.applyStart cfg.timing receivedAt i)) := by
  let start : ℕ → ℚ := script.applyStart cfg.timing receivedAt
  refine .pre (hoare_retrying cfg.timing.maxAttempts
    (fun i w => ∃ n, i = n + 1 ∧ n ≤ k ∧ w.Applying (start n) n)
    (fun i x w => ∃ n, i = n + 1 ∧ n < k ∧ isTransientDatabaseError x = true ∧
      w.Applying (start n + script.attemptSeconds .apply n) (n + 1))
    ?_ ?_ ?_ ?_ ?_ ?_ _ 1 (by omega)) fun w hw => ⟨0, rfl, Nat.zero_le k, hw⟩
  · rintro i - w ⟨⟨n, rfl, hn, hw⟩, -⟩
    refine Program.Triple.consequence (hoare_applyOnce happlies hn) (fun _ h => h) ?_ ?_ w hw
    · rintro answer w ⟨rfl, hanswer, h⟩
      exact ⟨hanswer, h⟩
    · rintro x w ⟨hlt, htransient, h⟩
      exact ⟨n, rfl, hlt, htransient, h⟩
  · rintro i - w ⟨n, rfl, hn, hw⟩ hno
    rw [hw.1] at hno
    exact ⟨hw.2.2.2, n, hn, hno⟩
  · rintro i - x w hpermanent ⟨n, -, -, htransient, -⟩
    rw [hpermanent] at htransient
    cases htransient
  · rintro x w - ⟨n, hlast, hn, -, -⟩
    omega
  · rintro i - x w - ⟨n, rfl, hn, -, hw⟩ hno
    refine ⟨hw.2.2.2, n + 1, hn, fun hcan => hno ?_⟩
    rw [ConsumerConfig.canStartAttempt, TimedScript.applyStart] at hcan
    rw [ConsumerConfig.canAffordBackoff, hw.1, Nat.add_sub_cancel]
    linarith
  · rintro i - x w - ⟨n, rfl, hn, -, hw⟩ -
    rw [hundisturbed.shutdown]
    refine ⟨n + 1, rfl, hn, ?_, hw.2⟩
    rw [TimedWorld.now_waited, hundisturbed.wait, hw.1, Nat.add_sub_cancel]
    rfl

/-- No attempt starts later than after the time of the attempts and the backoffs before it. -/
theorem TimedScript.applyStart_le {bound : ℚ} (timing : RetryTimingParameters) (receivedAt : ℚ)
    (hundisturbed : script.Undisturbed bound) (k : ℕ) :
    script.applyStart timing receivedAt k
      ≤ receivedAt + k * bound + ((List.range k).map timing.backoffDelaySeconds).sum := by
  induction k with
  | zero => simp [applyStart]
  | succ k ih =>
      have hattempt := hundisturbed.attempt .apply k
      rw [applyStart, List.range_succ, List.map_append, List.sum_append]
      simp only [List.map_cons, List.map_nil, List.sum_cons, List.sum_nil]
      push_cast
      linarith

/-- When every attempt takes its bound, that is when it starts. -/
theorem TimedScript.applyStart_eq (script : TimedScript) {bound : ℚ}
    (timing : RetryTimingParameters) (receivedAt : ℚ)
    (hbound : ∀ n, script.attemptSeconds .apply n = bound) (k : ℕ) :
    script.applyStart timing receivedAt k
      = receivedAt + k * bound + ((List.range k).map timing.backoffDelaySeconds).sum := by
  induction k with
  | zero => simp [applyStart]
  | succ k ih =>
      rw [applyStart, ih, hbound, List.range_succ, List.map_append, List.sum_append]
      simp only [List.map_cons, List.map_nil, List.sum_cons, List.sum_nil]
      push_cast
      ring

/-- The runner works on a decoded record from the instant it received it. -/
theorem hoare_record {message : KafkaMessage} {traceparent : Option String}
    {Q : ProcessOutcome → TimedWorld → Prop} {X : ConsumerExc → TimedWorld → Prop}
    (hdecode : decodeMessage cfg.pydantic cfg.recursionLimit message = .ok (event, traceparent))
    (h : Program.Hoare (fun w => w.Applying receivedAt 0)
      (processDecoded (timedOps script) cfg message event kafkaPartition kafkaOffset receivedAt)
      Q X) :
    Program.Hoare (fun w => w = { now := receivedAt })
      (runOnce (timedOps script) cfg (.record (some kafkaPartition) (some kafkaOffset) message))
      Q X := by
  rw [runOnce, processRecord, hdecode]
  refine .bind hoare_clock fun at_ => ?_
  rintro w ⟨rfl, hat⟩
  obtain rfl : at_ = receivedAt := hat
  exact h _ ⟨rfl, rfl, rfl, rfl⟩

/-- A commit loop that may start makes its first attempt. -/
theorem hoare_commitWithRetry_first {A : TimedWorld → Prop}
    (hnone : ∀ w, A w → w.attempts .commit = 0)
    (hcan : ∀ w, A w → cfg.canStartAttempt deadlineAt w.now) :
    Program.Hoare A (commitWithRetry (timedOps script) cfg kafkaPartition kafkaOffset deadlineAt)
      (fun _ w => 1 ≤ w.attempts .commit)
      (fun _ w => 1 ≤ w.attempts .commit ∧ script.commitResult 0 ≠ .ok ()) := by
  refine Program.Triple.consequence (hoare_retrying_first .commit hnone _) (fun _ h => h) ?_ ?_
  · rintro _ w ⟨w₀, -, -, hone, -⟩
    exact hone
  · rintro x w (⟨-, hA, hno⟩ | ⟨w₀, -, -, hone, hresult⟩)
    · exact absurd (hcan w hA) hno
    · exact ⟨hone, hresult ()⟩

/-- The answer and the state of a run whose ends say so. -/
theorem FirstCommit.of_hoare {A : TimedWorld → Prop} {p : TimedProgram ProcessOutcome}
    (h : Program.Hoare A p (fun _ w => 1 ≤ w.attempts .commit)
      (fun _ w => 1 ≤ w.attempts .commit ∧ script.commitResult 0 ≠ .ok ())) {w : TimedWorld}
    (hw : A w) : FirstCommit script (p.run (fun _ => ()) 0 w) := by
  cases hrun : (p.run (fun _ => ()) 0 w).1 with
  | ok outcome =>
      have hone := Program.Triple.run_ok (fun _ => rfl) h hw (Prod.ext hrun rfl)
      exact ⟨hone, fun _ => by rw [hrun]; exact nofun⟩
  | error x =>
      have hone := Program.Triple.run_error (fun _ => rfl) h hw (Prod.ext hrun rfl)
      exact ⟨hone.1, fun hok => absurd hok hone.2⟩

section DeadLetter

variable {error : PoisonError} {message : KafkaMessage} {decoded : Option DomainEvent}
  {processingAttemptCount : ℕ} {T : ℚ}

/-- The two loops of a dead letter, when how they end does not matter. -/
theorem hoare_deadLetterAndCommit {A M P P' : TimedWorld → Prop}
    (hupsert : ∀ transient permanent exhausted remaining, Program.Hoare A
      (retrying (timedOps script) cfg deadlineAt transient permanent exhausted
        (fun _ => timedAttempt script .deadLetterUpsert script.upsertResult) remaining 1)
      (fun _ => M) (fun _ => P'))
    (hcommit : Program.Hoare M
      (commitWithRetry (timedOps script) cfg kafkaPartition kafkaOffset deadlineAt)
      (fun _ => P) (fun _ => P')) :
    Program.Hoare A
      (deadLetterAndCommit (timedOps script) cfg error message decoded kafkaPartition kafkaOffset
        at_ processingAttemptCount deadlineAt) (fun _ => P) (fun _ => P') := by
  rw [deadLetterAndCommit]
  refine .bind (hupsert _ _ _ _) fun _ => ?_
  refine .bind hcommit.answered fun answer => ?_
  cases answer with
  | ok _ => exact .ret fun _ h => h
  | error x =>
      cases x
      all_goals exact .raise fun _ h => h

/-- A dead letter that may be written is attempted. -/
theorem hoare_deadLetterAndCommit_upserts
    (hT : T + cfg.timing.worstCaseAttemptSeconds ≤ deadlineAt) :
    Program.Hoare (fun w => w.Applying T k)
      (deadLetterAndCommit (timedOps script) cfg error message decoded kafkaPartition kafkaOffset
        at_ processingAttemptCount deadlineAt)
      (fun _ w => 1 ≤ w.attempts .deadLetterUpsert)
      (fun _ w => 1 ≤ w.attempts .deadLetterUpsert) := by
  refine hoare_deadLetterAndCommit (M := fun w => 1 ≤ w.attempts .deadLetterUpsert) ?_ ?_
  · intro transient permanent exhausted remaining
    refine Program.Triple.consequence (hoare_retrying_first .deadLetterUpsert (A := fun w => w.Applying T k)
      (fun w hw => hw.2.2.1) remaining) (fun _ h => h) ?_ ?_
    · rintro _ w ⟨w₀, -, -, hone, -⟩
      exact hone
    · rintro x w (⟨-, hw, hno⟩ | ⟨w₀, -, -, hone, -⟩)
      · rw [ConsumerConfig.canStartAttempt, hw.1] at hno
        exact absurd hT hno
      · exact hone
  · refine hoare_retrying_frame (fun w h => ?_) (fun w _ h => h) _
    simpa [Function.update_of_ne] using h

/-- A dead letter whose first write succeeds is committed when there is time for both. -/
theorem hoare_deadLetterAndCommit_commits {id : String}
    (hundisturbed : script.Undisturbed cfg.timing.worstCaseAttemptSeconds)
    (hbound : 0 ≤ cfg.timing.worstCaseAttemptSeconds)
    (hid : script.upsertResult 0 = .ok id)
    (hT : T + 2 * cfg.timing.worstCaseAttemptSeconds ≤ deadlineAt) :
    Program.Hoare (fun w => w.Applying T k)
      (deadLetterAndCommit (timedOps script) cfg error message decoded kafkaPartition kafkaOffset
        at_ processingAttemptCount deadlineAt)
      (fun _ w => 1 ≤ w.attempts .commit)
      (fun _ w => 1 ≤ w.attempts .commit ∧ script.commitResult 0 ≠ .ok ()) := by
  refine hoare_deadLetterAndCommit
    (M := fun w => w.now ≤ T + cfg.timing.worstCaseAttemptSeconds ∧ w.attempts .commit = 0) ?_ ?_
  · intro transient permanent exhausted remaining
    refine Program.Triple.consequence (hoare_retrying_first .deadLetterUpsert (A := fun w => w.Applying T k)
      (fun w hw => hw.2.2.1) remaining) (fun _ h => h) ?_ ?_
    · rintro answer w ⟨w₀, hw₀, -, -, hfirst⟩
      obtain ⟨-, rfl⟩ := hfirst id hid
      refine ⟨?_, by simpa [Function.update_of_ne] using hw₀.2.2.2⟩
      have hattempt := hundisturbed.attempt .deadLetterUpsert (w₀.attempts .deadLetterUpsert)
      rw [TimedWorld.now_attempted, hw₀.1]
      linarith
    · rintro x w (⟨-, hw, hno⟩ | ⟨w₀, -, -, -, hresult⟩)
      · rw [ConsumerConfig.canStartAttempt, hw.1] at hno
        linarith
      · exact absurd hid (hresult id)
  · refine hoare_commitWithRetry_first (fun w h => h.2) fun w h => ?_
    rw [ConsumerConfig.canStartAttempt]
    linarith [h.1]

/-- A dead letter that is committed had the time for both, when its first write takes its bound. -/
theorem hoare_deadLetterAndCommit_needs {id : String}
    (hwrite : script.attemptSeconds .deadLetterUpsert 0 = cfg.timing.worstCaseAttemptSeconds)
    (hid : script.upsertResult 0 = .ok id) :
    Program.Hoare (fun w => w.Applying T k)
      (deadLetterAndCommit (timedOps script) cfg error message decoded kafkaPartition kafkaOffset
        at_ processingAttemptCount deadlineAt)
      (fun _ w => w.attempts .commit = 0 ∨ T + 2 * cfg.timing.worstCaseAttemptSeconds ≤ deadlineAt)
      (fun _ w => w.attempts .commit = 0 ∨
        T + 2 * cfg.timing.worstCaseAttemptSeconds ≤ deadlineAt) := by
  refine hoare_deadLetterAndCommit
    (M := fun w => w.now = T + cfg.timing.worstCaseAttemptSeconds ∧ w.attempts .commit = 0) ?_ ?_
  · intro transient permanent exhausted remaining
    refine Program.Triple.consequence (hoare_retrying_first .deadLetterUpsert (A := fun w => w.Applying T k)
      (fun w hw => hw.2.2.1) remaining) (fun _ h => h) ?_ ?_
    · rintro answer w ⟨w₀, hw₀, -, -, hfirst⟩
      obtain ⟨-, rfl⟩ := hfirst id hid
      refine ⟨?_, by simpa [Function.update_of_ne] using hw₀.2.2.2⟩
      rw [TimedWorld.now_attempted, hw₀.1, hw₀.2.2.1, hwrite]
    · rintro x w (⟨-, hw, -⟩ | ⟨w₀, -, -, -, hresult⟩)
      · exact .inl hw.2.2.2
      · exact absurd hid (hresult id)
  · have hstarted : ∀ w₀ : TimedWorld,
        w₀.now = T + cfg.timing.worstCaseAttemptSeconds →
          cfg.canStartAttempt deadlineAt w₀.now →
            T + 2 * cfg.timing.worstCaseAttemptSeconds ≤ deadlineAt := by
      intro w₀ hnow hcan
      rw [ConsumerConfig.canStartAttempt, hnow] at hcan
      linarith
    refine Program.Triple.consequence (hoare_retrying_first .commit
      (A := fun w => w.now = T + cfg.timing.worstCaseAttemptSeconds ∧ w.attempts .commit = 0)
      (fun w hw => hw.2) _) (fun _ h => h) ?_ ?_
    · rintro _ w ⟨w₀, hw₀, hcan, -, -⟩
      exact .inr (hstarted w₀ hw₀.1 hcan)
    · rintro x w (⟨-, hw, -⟩ | ⟨w₀, hw₀, hcan, -, -⟩)
      · exact .inl hw.2
      · exact .inr (hstarted w₀ hw₀.1 hcan)

end DeadLetter

end Applying

/-! ### The settings -/

namespace ConsumerSettings

variable {settings : ConsumerSettings}

theorem FieldsValid.backoffDelaySeconds_nonneg (h : settings.FieldsValid) (k : ℕ) :
    0 ≤ settings.timingParams.backoffDelaySeconds k := by
  have hbase := mul_nonneg h.consumerRetryBaseSeconds.le (pow_nonneg zero_le_two k)
  exact add_nonneg (le_min hbase h.consumerRetryMaxBackoffSeconds.le)
    h.consumerRetryJitterMaxSeconds

/-- Fewer backoffs take no longer. -/
theorem FieldsValid.backoffs_le (h : settings.FieldsValid) {k m : ℕ} (hk : k ≤ m) :
    ((List.range k).map settings.timingParams.backoffDelaySeconds).sum
      ≤ ((List.range m).map settings.timingParams.backoffDelaySeconds).sum := by
  induction hk with
  | refl => exact le_rfl
  | @step m hle ih =>
      have hnonneg := h.backoffDelaySeconds_nonneg m
      rw [List.range_succ, List.map_append, List.sum_append]
      simp only [List.map_cons, List.map_nil, List.sum_cons, List.sum_nil]
      linarith

/-- Settings that leave the time of two more attempts suffice. -/
theorem Accepted.suffices (haccepted : settings.Accepted)
    (hroom : settings.timingParams.worstCaseTotalProcessingSeconds
      + 2 * settings.worstCaseAttemptSeconds ≤ settings.consumerMaxPollIntervalSeconds) :
    settings.Suffices := by
  intro cfg script kafkaPartition kafkaOffset message event traceparent receivedAt k ending hcfg
    hdecode hundisturbed hk happlies
  have hpos := haccepted.fields.worstCaseAttemptSeconds_pos
  rw [← worstCaseAttemptSeconds_timingParams, ← hcfg.timing] at hpos hroom
  rw [← hcfg.timing] at hundisturbed
  -- an attempt that starts no later than the last one leaves the time of two more
  have hstart : ∀ i ≤ k, script.applyStart cfg.timing receivedAt i
      + 3 * cfg.timing.worstCaseAttemptSeconds ≤ cfg.deadlineAt receivedAt := by
    intro i hi
    have hle := TimedScript.applyStart_le cfg.timing receivedAt hundisturbed i
    have hbackoffs := haccepted.fields.backoffs_le
      (show i ≤ settings.consumerRetryMaxAttempts - 1 by omega)
    have hcount : (i : ℚ) + 1 ≤ settings.consumerRetryMaxAttempts := by
      exact_mod_cast (show i + 1 ≤ settings.consumerRetryMaxAttempts by omega)
    have hattempts := mul_le_mul_of_nonneg_right hcount hpos.le
    rw [RetryTimingParameters.worstCaseTotalProcessingSeconds,
      RetryTimingParameters.deterministicBackoffSumSeconds] at hroom
    rw [ConsumerConfig.deadlineAt, hcfg.maxPollIntervalSeconds]
    rw [hcfg.timing] at hle hattempts hroom ⊢
    simp only [timingParams] at hle hbackoffs hattempts hroom ⊢
    linarith
  have hattempt := hundisturbed.attempt .apply k
  have hreach : Program.Hoare (fun w => w.Applying receivedAt 0)
      (applyWithRetry (timedOps script) cfg event kafkaPartition kafkaOffset receivedAt
        (cfg.deadlineAt receivedAt))
      (fun answer w => answer = applyAnswer k ending ∧
        w.Applying (script.applyStart cfg.timing receivedAt k + script.attemptSeconds .apply k)
          (k + 1)) (fun _ _ => False) := by
    refine Program.Triple.consequence (hoare_applyWithRetry hundisturbed happlies
      (by rw [hcfg.timing]; exact hk)) (fun _ h => h) (fun _ _ h => h) ?_
    rintro x w ⟨-, i, hi, hno⟩
    have := hstart i hi
    rw [ConsumerConfig.canStartAttempt] at hno
    linarith
  have hlast : script.applyStart cfg.timing receivedAt k + 3 * cfg.timing.worstCaseAttemptSeconds
      ≤ cfg.deadlineAt ((timedOps script).seconds receivedAt) := hstart k le_rfl
  cases ending with
  | inl outcome =>
      refine FirstCommit.of_hoare (hoare_record hdecode ?_) rfl
      rw [processDecoded]
      refine .bind (Program.Triple.consequence hreach (fun _ h => h) (fun _ _ h => h)
        fun _ _ h => h.elim) fun answer => ?_
      rintro w ⟨rfl, hw⟩
      refine Program.Triple.bind (hoare_commitWithRetry_first (A := fun w => w.Applying _ (k + 1))
        (fun w h => h.2.2.2) fun w h => ?_) (fun _ => .ret fun _ h => h) w hw
      rw [ConsumerConfig.canStartAttempt, h.1]
      linarith
  | inr error =>
      refine ⟨?_, fun id hid => ?_⟩
      · refine Program.Hoare.run_final (P := fun w => 1 ≤ w.attempts .deadLetterUpsert)
          (hoare_record hdecode ?_) _ _ rfl
        rw [processDecoded]
        refine .bind (Program.Triple.consequence hreach (fun _ h => h) (fun _ _ h => h)
          fun _ _ h => h.elim) fun answer => ?_
        rintro w ⟨rfl, hw⟩
        exact hoare_deadLetterAndCommit_upserts (by linarith) w hw
      · refine FirstCommit.of_hoare (hoare_record hdecode ?_) rfl
        rw [processDecoded]
        refine .bind (Program.Triple.consequence hreach (fun _ h => h) (fun _ _ h => h)
          fun _ _ h => h.elim) fun answer => ?_
        rintro w ⟨rfl, hw⟩
        exact hoare_deadLetterAndCommit_commits hundisturbed hpos.le hid (by linarith) w hw

end ConsumerSettings

/-! ### A late record -/

/-- A runner of settings. -/
def ConsumerSettings.config (settings : ConsumerSettings) : ConsumerConfig where
  consumerId := allowedConsumerId
  pydantic := isoPydantic
  recursionLimit := 100
  sha256 _ := ""
  timing := settings.timingParams
  maxPollIntervalSeconds := settings.consumerMaxPollIntervalSeconds

/-- The last attempt to apply the event finds that it is poison, and all attempts take as long as
they may. -/
def ConsumerSettings.latePoison (settings : ConsumerSettings) : TimedScript where
  applyResult n :=
    if n < settings.consumerRetryMaxAttempts - 1 then .error (.database (.driver true none))
    else .error (.poison .lifecycleOrderViolation)
  upsertResult _ := .ok ""
  commitResult _ := .ok ()
  attemptSeconds _ _ := settings.timingParams.worstCaseAttemptSeconds
  waitSeconds _ seconds := seconds
  shutdown _ := false

section Late

variable (settings : ConsumerSettings)

theorem config_builtFrom : settings.config.BuiltFrom settings := ⟨rfl, rfl⟩

theorem latePoison_undisturbed :
    settings.latePoison.Undisturbed settings.timingParams.worstCaseAttemptSeconds where
  attempt _ _ := le_rfl
  wait _ _ := rfl
  shutdown _ := rfl

theorem latePoison_appliesAt :
    settings.latePoison.AppliesAt (settings.consumerRetryMaxAttempts - 1)
      (.inr .lifecycleOrderViolation) where
  fails _ hn := ⟨_, if_pos hn, rfl⟩
  ends := if_neg (lt_irrefl _)

theorem decodeMessage_retryEvent : decodeMessage isoPydantic 100
    (publishedMessage isoPydantic retryEvent none) = .ok (retryEvent, none) :=
  decodeMessage_publishedMessage isoPydantic_faithful (by decide) retryEvent_built.encodable
    (serializeDomainEvent_bytes isoPydantic_faithful retryEvent_built.encodable retryEvent_short)
    none

end Late

/-- Settings that suffice leave the time of two more attempts: the dead letter's and the commit's. -/
theorem ConsumerSettings.Suffices.room {settings : ConsumerSettings}
    (hfields : settings.FieldsValid) (h : settings.Suffices) :
    settings.timingParams.worstCaseTotalProcessingSeconds + 2 * settings.worstCaseAttemptSeconds
      ≤ settings.consumerMaxPollIntervalSeconds := by
  have hmax := hfields.consumerRetryMaxAttempts
  have hfirst := (h settings.config settings.latePoison 0 0
    (publishedMessage isoPydantic retryEvent none) retryEvent none 0
    (settings.consumerRetryMaxAttempts - 1) (.inr .lifecycleOrderViolation)
    (config_builtFrom settings) decodeMessage_retryEvent (latePoison_undisturbed settings)
    (by omega) (latePoison_appliesAt settings)).2 "" rfl
  -- the last attempt starts after all the others and all the backoffs
  have hstart : settings.latePoison.applyStart settings.timingParams 0
      (settings.consumerRetryMaxAttempts - 1)
      = settings.timingParams.worstCaseTotalProcessingSeconds
        - settings.timingParams.safetyMarginSeconds - settings.worstCaseAttemptSeconds := by
    have hattempts : ∀ n, settings.latePoison.attemptSeconds .apply n
        = settings.timingParams.worstCaseAttemptSeconds := fun _ => rfl
    have hlast := settings.latePoison.applyStart_eq settings.timingParams 0 hattempts
      (settings.consumerRetryMaxAttempts - 1)
    rw [Nat.cast_sub hmax] at hlast
    rw [hlast, RetryTimingParameters.worstCaseTotalProcessingSeconds,
      RetryTimingParameters.deterministicBackoffSumSeconds, ← worstCaseAttemptSeconds_timingParams]
    simp only [timingParams]
    push_cast
    ring
  have hneeds : Program.Hoare (fun w => w.Applying 0 0)
      (processDecoded (timedOps settings.latePoison) settings.config
        (publishedMessage isoPydantic retryEvent none) retryEvent 0 0 0)
      (fun _ w => w.attempts .commit = 0 ∨
        settings.timingParams.worstCaseTotalProcessingSeconds
          + 2 * settings.worstCaseAttemptSeconds ≤ settings.consumerMaxPollIntervalSeconds)
      (fun _ w => w.attempts .commit = 0 ∨
        settings.timingParams.worstCaseTotalProcessingSeconds
          + 2 * settings.worstCaseAttemptSeconds ≤ settings.consumerMaxPollIntervalSeconds) := by
    rw [processDecoded]
    refine .bind (Program.Triple.consequence (hoare_applyWithRetry
      (latePoison_undisturbed settings) (latePoison_appliesAt settings) ?_)
      (fun _ h => h) (fun _ _ h => h) fun _ _ h => .inl h.1) fun answer => ?_
    · change settings.consumerRetryMaxAttempts - 1 < settings.consumerRetryMaxAttempts
      omega
    · rintro w ⟨rfl, hw⟩
      have hwrite : settings.latePoison.attemptSeconds .deadLetterUpsert 0
          = settings.config.timing.worstCaseAttemptSeconds := rfl
      have hid : settings.latePoison.upsertResult 0 = .ok "" := rfl
      refine Program.Triple.consequence (hoare_deadLetterAndCommit_needs hwrite hid)
        (fun _ h => h) ?_ ?_ w hw
      all_goals
        rintro _ w (hnone | hroom)
        · exact .inl hnone
        · refine .inr ?_
          change settings.latePoison.applyStart settings.timingParams 0
            (settings.consumerRetryMaxAttempts - 1) + settings.worstCaseAttemptSeconds
              + 2 * settings.worstCaseAttemptSeconds ≤ 0 + (settings.consumerMaxPollIntervalSeconds
                - settings.timingParams.safetyMarginSeconds) at hroom
          rw [hstart] at hroom
          linarith
  have hdecode : decodeMessage settings.config.pydantic settings.config.recursionLimit
      (publishedMessage isoPydantic retryEvent none) = .ok (retryEvent, none) :=
    decodeMessage_retryEvent
  rcases Program.Hoare.run_final (hoare_record hdecode hneeds) (fun _ => ()) 0 rfl with hnone | hroom
  · have hone := hfirst.attempted
    rw [timedRun] at hone
    omega
  · exact hroom

/-- **Accepted settings leave every record its first commit exactly when the poll interval has room
for two attempts more than the validator counts, and for the jitter of every backoff.** -/
theorem settings_suffice_iff {settings : ConsumerSettings} (haccepted : settings.Accepted) :
    settings.Suffices ↔ settings.timingParams.worstCaseTotalProcessingSeconds
      + 2 * settings.worstCaseAttemptSeconds ≤ settings.consumerMaxPollIntervalSeconds :=
  ⟨fun h => h.room haccepted.fields, haccepted.suffices⟩

section Defaults

/-- An attempt of the default settings may take 52 seconds. -/
theorem worstCaseAttemptSeconds_default :
    ({} : ConsumerSettings).worstCaseAttemptSeconds = 52 := by
  decide +kernel

theorem fieldsValid_default : ({} : ConsumerSettings).FieldsValid := by
  constructor <;> norm_num

theorem accepted_default : ({} : ConsumerSettings).Accepted :=
  ⟨fieldsValid_default, by decide +kernel⟩

/-- The defaults are accepted, and have no room for the two attempts. -/
theorem defaults_do_not_suffice :
    ¬ ∀ settings : ConsumerSettings, settings.Accepted → settings.Suffices := by
  intro h
  have hroom := (h {} accepted_default).room fieldsValid_default
  revert hroom
  decide +kernel

/-- With a poll interval of 400 seconds they suffice. -/
theorem settings_suffice_long :
    ({ consumerMaxPollIntervalSeconds := 400 } : ConsumerSettings).Suffices := by
  have haccepted : ({ consumerMaxPollIntervalSeconds := 400 } : ConsumerSettings).Accepted := by
    refine ⟨?_, by decide +kernel⟩
    constructor <;> norm_num
  exact (settings_suffice_iff haccepted).2 (by decide +kernel)

/-- The late record ends in time under the defaults: its commit is not attempted. -/
theorem run_within_deadline_late :
    (timedRun ({} : ConsumerSettings).latePoison ({} : ConsumerSettings).config
      (.record (some 0) (some 0) (publishedMessage isoPydantic retryEvent none)) 7).2.2.now
        ≤ 7 + (300 - 60) := by
  refine (run_within_deadline accepted_default (config_builtFrom {}) ⟨?_, ?_⟩ _ 7).1
  · exact fun _ _ => le_rfl
  · exact fun _ _ => le_rfl

end Defaults

end Atlas
