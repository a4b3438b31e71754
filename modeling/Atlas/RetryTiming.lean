/-
**The time a record may take.**

`config/timeout_math.py`, `consumer/timing.py` and the validator of the consumer's timing settings in
`config/settings.py`.  Durations are exact rationals, in seconds.  The validator has a copy of the
sum of the timing module; the two are compared here.

Main definitions:

* `Atlas.effectiveConnectTimeoutSeconds`, `Atlas.effectiveStatementTimeoutSeconds` — the timeouts the
  engine enforces;
* `Atlas.RetryTimingParameters` and its `worstCaseAttemptSeconds`, `backoffDelaySeconds` and
  `worstCaseTotalProcessingSeconds` — the timing module;
* `Atlas.ConsumerSettings`, `Atlas.ConsumerSettings.Accepted` — the settings and their validation.

Main results:

* `Atlas.worstCaseTotal_eq_iff` — **when the two sums agree**;
* `Atlas.ConsumerSettings.Accepted.margin_lt` — an accepted poll interval exceeds the safety
  margin.
-/

import Mathlib.Algebra.BigOperators.Group.List.Basic
import Mathlib.Algebra.Order.Floor.Ring
import Mathlib.Data.Rat.Floor
import Mathlib.Tactic.Linarith
import Mathlib.Tactic.Positivity
import Mathlib.Tactic.Ring

set_option relaxedAutoImplicit false
set_option autoImplicit false

namespace Atlas

/-! ### Timeouts -/

/-- Whole seconds, rounded up, at least one. -/
def effectiveConnectTimeoutSeconds (configuredSeconds : ℚ) : ℤ := max 1 ⌈configuredSeconds⌉

/-- Whole milliseconds, rounded up, at least one. -/
def effectiveStatementTimeoutMs (configuredSeconds : ℚ) : ℤ := max 1 ⌈configuredSeconds * 1000⌉

/-- The same in seconds. -/
def effectiveStatementTimeoutSeconds (configuredSeconds : ℚ) : ℚ :=
  effectiveStatementTimeoutMs configuredSeconds / 1000

/-! ### The timing module -/

/-- The settings the retry timing depends on. -/
structure RetryTimingParameters where
  maxAttempts : ℕ
  baseSeconds : ℚ
  maxBackoffSeconds : ℚ
  jitterMaxSeconds : ℚ
  safetyMarginSeconds : ℚ
  dbConnectTimeoutSeconds : ℚ
  dbPoolTimeoutSeconds : ℚ
  dbStatementTimeoutSeconds : ℚ
  processingOverheadSeconds : ℚ
  maxDbRoundTripsPerAttempt : ℕ
  deriving DecidableEq

namespace RetryTimingParameters

variable (params : RetryTimingParameters)

/-- Conservative upper bound on one processing attempt's wall-clock time. -/
def worstCaseAttemptSeconds : ℚ :=
  params.dbPoolTimeoutSeconds + effectiveConnectTimeoutSeconds params.dbConnectTimeoutSeconds
    + params.maxDbRoundTripsPerAttempt
      * effectiveStatementTimeoutSeconds params.dbStatementTimeoutSeconds
    + params.processingOverheadSeconds

/-- Exponential backoff before the `attemptIndex`-th retry, counted from zero. -/
def backoffDelaySeconds (attemptIndex : ℕ) : ℚ :=
  min (params.baseSeconds * 2 ^ attemptIndex) params.maxBackoffSeconds + params.jitterMaxSeconds

/-- Sum of every backoff delay between attempts. -/
def deterministicBackoffSumSeconds : ℚ :=
  ((List.range (params.maxAttempts - 1)).map params.backoffDelaySeconds).sum

/-- Conservative upper bound on the entire bounded-retry episode. -/
def worstCaseTotalProcessingSeconds : ℚ :=
  params.maxAttempts * params.worstCaseAttemptSeconds + params.deterministicBackoffSumSeconds
    + params.safetyMarginSeconds

end RetryTimingParameters

/-! ### The settings -/

/-- The settings of the consumer's timing. -/
structure ConsumerSettings where
  consumerMaxPollIntervalSeconds : ℚ := 300
  consumerRetryMaxAttempts : ℕ := 3
  consumerRetryBaseSeconds : ℚ := 1
  consumerRetryMaxBackoffSeconds : ℚ := 30
  consumerRetryJitterMaxSeconds : ℚ := 0
  consumerRetrySafetyMarginSeconds : ℚ := 60
  consumerDbConnectTimeoutSeconds : ℚ := 5
  consumerDbPoolTimeoutSeconds : ℚ := 5
  consumerDbStatementTimeoutSeconds : ℚ := 5
  consumerRetryProcessingOverheadSeconds : ℚ := 2
  consumerMaxDbRoundTripsPerAttempt : ℕ := 8
  deriving DecidableEq

namespace ConsumerSettings

variable (settings : ConsumerSettings)

/-- The bounds of the fields. -/
structure FieldsValid : Prop where
  consumerMaxPollIntervalSeconds : 0 < settings.consumerMaxPollIntervalSeconds
  consumerRetryMaxAttempts : 1 ≤ settings.consumerRetryMaxAttempts
  consumerRetryBaseSeconds : 0 < settings.consumerRetryBaseSeconds
  consumerRetryMaxBackoffSeconds : 0 < settings.consumerRetryMaxBackoffSeconds
  consumerRetryJitterMaxSeconds : 0 ≤ settings.consumerRetryJitterMaxSeconds
  consumerRetrySafetyMarginSeconds : 0 ≤ settings.consumerRetrySafetyMarginSeconds
  consumerDbConnectTimeoutSeconds : 0 < settings.consumerDbConnectTimeoutSeconds
  consumerDbPoolTimeoutSeconds : 0 < settings.consumerDbPoolTimeoutSeconds
  consumerDbStatementTimeoutSeconds : 0 < settings.consumerDbStatementTimeoutSeconds
  consumerRetryProcessingOverheadSeconds : 0 ≤ settings.consumerRetryProcessingOverheadSeconds
  consumerMaxDbRoundTripsPerAttempt : 1 ≤ settings.consumerMaxDbRoundTripsPerAttempt

/-- `worst_case_attempt_seconds` of the validator. -/
def worstCaseAttemptSeconds : ℚ :=
  settings.consumerDbPoolTimeoutSeconds
    + effectiveConnectTimeoutSeconds settings.consumerDbConnectTimeoutSeconds
    + settings.consumerMaxDbRoundTripsPerAttempt
      * effectiveStatementTimeoutSeconds settings.consumerDbStatementTimeoutSeconds
    + settings.consumerRetryProcessingOverheadSeconds

/-- `backoff_sum` of the validator. -/
def backoffSum : ℚ :=
  ((List.range (settings.consumerRetryMaxAttempts - 1)).map fun attemptIndex =>
    min (settings.consumerRetryBaseSeconds * 2 ^ attemptIndex)
      settings.consumerRetryMaxBackoffSeconds).sum

/-- `worst_case_total_processing_seconds` of the validator. -/
def worstCaseTotalProcessingSeconds : ℚ :=
  settings.consumerRetryMaxAttempts * settings.worstCaseAttemptSeconds + settings.backoffSum
    + settings.consumerRetrySafetyMarginSeconds

/-- `_validate_consumer_retry_timing_margin`: the message of the error it raises. -/
def validateConsumerRetryTimingMargin : Except String Unit :=
  if settings.consumerMaxPollIntervalSeconds ≤ settings.worstCaseTotalProcessingSeconds then
    .error ("Kafka consumer retry timing settings (max attempts, DB " ++
      "timeouts, round-trip cap, backoff, safety margin) must " ++
      "sum to strictly less than consumer_max_poll_interval_seconds.")
  else .ok ()

/-- The settings are accepted. -/
structure Accepted : Prop where
  fields : settings.FieldsValid
  margin : settings.validateConsumerRetryTimingMargin = .ok ()

/-- `_timing_params_from_settings`. -/
def timingParams : RetryTimingParameters where
  maxAttempts := settings.consumerRetryMaxAttempts
  baseSeconds := settings.consumerRetryBaseSeconds
  maxBackoffSeconds := settings.consumerRetryMaxBackoffSeconds
  jitterMaxSeconds := settings.consumerRetryJitterMaxSeconds
  safetyMarginSeconds := settings.consumerRetrySafetyMarginSeconds
  dbConnectTimeoutSeconds := settings.consumerDbConnectTimeoutSeconds
  dbPoolTimeoutSeconds := settings.consumerDbPoolTimeoutSeconds
  dbStatementTimeoutSeconds := settings.consumerDbStatementTimeoutSeconds
  processingOverheadSeconds := settings.consumerRetryProcessingOverheadSeconds
  maxDbRoundTripsPerAttempt := settings.consumerMaxDbRoundTripsPerAttempt

end ConsumerSettings

/-! ### The two sums -/

section Sums

variable {settings : ConsumerSettings}

theorem worstCaseAttemptSeconds_timingParams :
    settings.timingParams.worstCaseAttemptSeconds = settings.worstCaseAttemptSeconds := rfl

/-- The timing module counts the jitter of every backoff, and the validator does not. -/
theorem deterministicBackoffSumSeconds_timingParams :
    settings.timingParams.deterministicBackoffSumSeconds = settings.backoffSum
      + (settings.consumerRetryMaxAttempts - 1 : ℕ) * settings.consumerRetryJitterMaxSeconds := by
  have hsum : ∀ (f : ℕ → ℚ) (n : ℕ) (jitter : ℚ),
      ((List.range n).map fun i => f i + jitter).sum
        = ((List.range n).map f).sum + n * jitter := by
    intro f n jitter
    induction n with
    | zero => simp
    | succ n ih =>
        rw [List.range_succ, List.map_append, List.map_append, List.sum_append, List.sum_append, ih]
        simp only [List.map_cons, List.map_nil, List.sum_cons, List.sum_nil]
        push_cast
        ring
  exact hsum _ _ _

theorem worstCaseTotalProcessingSeconds_timingParams :
    settings.timingParams.worstCaseTotalProcessingSeconds = settings.worstCaseTotalProcessingSeconds
      + (settings.consumerRetryMaxAttempts - 1 : ℕ) * settings.consumerRetryJitterMaxSeconds := by
  rw [RetryTimingParameters.worstCaseTotalProcessingSeconds,
    deterministicBackoffSumSeconds_timingParams, worstCaseAttemptSeconds_timingParams,
    ConsumerSettings.worstCaseTotalProcessingSeconds]
  simp only [ConsumerSettings.timingParams]
  ring

/-- **The validator's total is that of the timing module exactly when no jitter is configured or
there is no second attempt.** -/
theorem worstCaseTotal_eq_iff (settings : ConsumerSettings) :
    settings.worstCaseTotalProcessingSeconds
        = settings.timingParams.worstCaseTotalProcessingSeconds ↔
      settings.consumerRetryJitterMaxSeconds = 0 ∨ settings.consumerRetryMaxAttempts ≤ 1 := by
  rw [worstCaseTotalProcessingSeconds_timingParams, left_eq_add, mul_eq_zero, or_comm,
    Nat.cast_eq_zero, Nat.sub_eq_zero_iff_le]

/-- With a jitter of one second and the defaults besides, the two differ. -/
theorem worstCaseTotal_ne_jitter :
    ¬ ∀ settings : ConsumerSettings, settings.worstCaseTotalProcessingSeconds
      = settings.timingParams.worstCaseTotalProcessingSeconds := by
  intro h
  have hjitter := h { consumerRetryJitterMaxSeconds := 1 }
  rw [worstCaseTotalProcessingSeconds_timingParams] at hjitter
  norm_num at hjitter

end Sums

/-! ### Accepted settings -/

namespace ConsumerSettings

variable {settings : ConsumerSettings}

theorem effectiveStatementTimeoutSeconds_pos (configuredSeconds : ℚ) :
    0 < effectiveStatementTimeoutSeconds configuredSeconds := by
  have hms : 0 < effectiveStatementTimeoutMs configuredSeconds :=
    lt_of_lt_of_le Int.one_pos (le_max_left 1 _)
  have hcast : (0 : ℚ) < effectiveStatementTimeoutMs configuredSeconds := by exact_mod_cast hms
  exact div_pos hcast (by norm_num)

theorem FieldsValid.worstCaseAttemptSeconds_pos (h : settings.FieldsValid) :
    0 < settings.worstCaseAttemptSeconds := by
  have hpool := h.consumerDbPoolTimeoutSeconds
  have hoverhead := h.consumerRetryProcessingOverheadSeconds
  have hconnect : (0 : ℚ) ≤ effectiveConnectTimeoutSeconds
      settings.consumerDbConnectTimeoutSeconds := by
    have hone : (0 : ℤ) ≤ effectiveConnectTimeoutSeconds
        settings.consumerDbConnectTimeoutSeconds :=
      le_trans Int.one_nonneg (le_max_left 1 _)
    exact_mod_cast hone
  have hstatements : 0 ≤ (settings.consumerMaxDbRoundTripsPerAttempt : ℚ)
      * effectiveStatementTimeoutSeconds settings.consumerDbStatementTimeoutSeconds :=
    mul_nonneg (Nat.cast_nonneg _) (effectiveStatementTimeoutSeconds_pos _).le
  rw [worstCaseAttemptSeconds]
  linarith

theorem FieldsValid.backoffSum_nonneg (h : settings.FieldsValid) : 0 ≤ settings.backoffSum := by
  refine List.sum_nonneg ?_
  intro x hx
  obtain ⟨i, -, rfl⟩ := List.mem_map.1 hx
  exact le_min (mul_nonneg h.consumerRetryBaseSeconds.le (by positivity))
    h.consumerRetryMaxBackoffSeconds.le

theorem Accepted.total_lt (h : settings.Accepted) :
    settings.worstCaseTotalProcessingSeconds < settings.consumerMaxPollIntervalSeconds := by
  by_contra hnot
  have hmargin := h.margin
  rw [validateConsumerRetryTimingMargin, if_pos (not_lt.1 hnot)] at hmargin
  cases hmargin

/-- An accepted poll interval exceeds the safety margin by at least one attempt. -/
theorem Accepted.margin_lt (h : settings.Accepted) :
    settings.worstCaseAttemptSeconds + settings.consumerRetrySafetyMarginSeconds
      < settings.consumerMaxPollIntervalSeconds := by
  have htotal := h.total_lt
  have hattempt := h.fields.worstCaseAttemptSeconds_pos
  have hbackoff := h.fields.backoffSum_nonneg
  have hattempts : settings.worstCaseAttemptSeconds
      ≤ settings.consumerRetryMaxAttempts * settings.worstCaseAttemptSeconds := by
    have hone : (1 : ℚ) ≤ settings.consumerRetryMaxAttempts := by
      exact_mod_cast h.fields.consumerRetryMaxAttempts
    nlinarith only [hone, hattempt]
  rw [worstCaseTotalProcessingSeconds] at htotal
  linarith

end ConsumerSettings

end Atlas
