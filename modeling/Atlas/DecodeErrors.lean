/-
**What decoding lets through.**

`decode_message` turns what it finds wrong with a record into a poison classification, and the runner
dead-letters it.  `json.loads` raises more than `JSONDecodeError`, and what it raises besides goes
through both: the record stays in front of its partition.

Main definitions:

* `Atlas.FailsAsPoison` — decoding returns an event or raises a poison classification;
* `Atlas.LoadsUncaught` — the text of a record makes `json.loads` raise something else.

Main results:

* `Python.Json.loads_digits`, `Python.Json.loads_nested` — the texts that do;
* `Atlas.failsAsPoison_iff` — **decoding fails as poison except on these texts**.
-/

import Atlas.CodecRoundTrip

set_option relaxedAutoImplicit false
set_option autoImplicit false

/-! ### Texts `json.loads` stops at -/

namespace Python.Json

/-- An integer of too many digits. -/
theorem loads_digits (limit : ℕ) {n : ℕ} (hn : maxIntDigits < n) :
    loads limit (String.ofList (List.replicate n '1')) = .error .valueError := by
  obtain ⟨n, rfl⟩ : ∃ k, n = k + 1 := ⟨n - 1, by omega⟩
  have hwhole : scanWhole (List.replicate (n + 1) '1') = (List.replicate (n + 1) '1', []) := by
    have htake : (List.replicate (n + 1) '1').takeWhile Char.isDigit
        = List.replicate (n + 1) '1' := by
      rw [List.takeWhile_replicate]
      simp
    have hdrop : (List.replicate (n + 1) '1').dropWhile Char.isDigit = [] := by
      rw [List.dropWhile_replicate]
      simp
    rw [scanWhole, if_neg (by simp [List.replicate_succ]), htake, hdrop]
  have hsign : scanSign (List.replicate (n + 1) '1') = ([], List.replicate (n + 1) '1') :=
    if_neg (by simp [List.replicate_succ])
  have hnumber : scanNumber (List.replicate (n + 1) '1') = .error .valueError := by
    simp [scanNumber, hsign, hwhole, scanFraction, scanExponent, hn]
  have hscalar : scanScalar (List.replicate (n + 1) '1') = .error .valueError := by
    rw [← hnumber, List.replicate_succ, scanScalar]
    simp [names, List.isPrefixOf]
  rw [List.replicate_succ] at hscalar
  rw [loads, String.toList_ofList, List.replicate_succ, skipBlank_cons (by decide),
    scanValue_scalar limit (by decide), hscalar]
  rfl

theorem scanValue_nested (limit : ℕ) (rest : List Char) :
    scanValue limit (List.replicate (limit + 1) '[' ++ rest) = .error .recursionError := by
  induction limit with
  | zero => rfl
  | succ limit ih =>
      rw [List.replicate_succ, List.cons_append] at ih ⊢
      rw [List.replicate_succ, List.cons_append, scanValue, if_neg (by decide), if_pos rfl,
        skipBlank_cons (by decide)]
      change scanItems (scanValue limit) (_ + 1) [] _ = _
      rw [scanItems, ih]
      rfl

/-- Arrays nested one deeper than the interpreter follows. -/
theorem loads_nested (limit : ℕ) :
    loads limit (String.ofList (List.replicate (limit + 1) '[')) = .error .recursionError := by
  have hscan := scanValue_nested limit []
  rw [List.append_nil] at hscan
  have hskip : skipBlank (List.replicate (limit + 1) '[') = List.replicate (limit + 1) '[' :=
    skipBlank_cons (by decide) _
  rw [loads, String.toList_ofList, hskip, hscan]
  rfl

end Python.Json

namespace Atlas

open Python

/-! ### Decoding -/

/-- Decoding returns an event, or raises a classification the dead letters have a code for. -/
def FailsAsPoison (p : Pydantic) (limit : ℕ) (message : KafkaMessage) : Prop :=
  (∃ r, decodeMessage p limit message = .ok r) ∨
    ∃ error, decodeMessage p limit message = .error (.poison error)

/-- The headers of a record are right and its value is a text, and `json.loads` raises on it
something that is no `JSONDecodeError`. -/
def LoadsUncaught (limit : ℕ) (message : KafkaMessage) : Prop :=
  ∃ headers text, headersAsMapping message.headers = .ok headers ∧
    valueText message.value = .ok text ∧
      (Json.loads limit text = .error .valueError ∨
        Json.loads limit text = .error .recursionError)

section Decoding

variable {p : Pydantic} {limit : ℕ} {message : KafkaMessage}

/-- What the object of a text lets through is what `json.loads` does. -/
theorem valueObject_uncaught {text : String} :
    valueObject limit text = .error .uncaught ↔
      Json.loads limit text = .error .valueError ∨
        Json.loads limit text = .error .recursionError := by
  rw [valueObject]
  cases Json.loads limit text with
  | ok v => cases v <;> simp
  | error x => cases x <;> simp

/-- Decoding lets through what the object of its text does, and nothing else. -/
theorem decodeMessage_uncaught :
    decodeMessage p limit message = .error .uncaught ↔ LoadsUncaught limit message := by
  rw [decodeMessage, LoadsUncaught]
  cases hheaders : headersAsMapping message.headers with
  | error x => simp [Except.mapError, bind, Except.bind]
  | ok headers =>
      cases htext : valueText message.value with
      | error x => simp [Except.mapError, bind, Except.bind]
      | ok text =>
          have hone : (∃ headers' text', (Except.ok headers : Except PoisonError _) = .ok headers' ∧
              (Except.ok text : Except PoisonError _) = .ok text' ∧
                (Json.loads limit text' = .error .valueError ∨
                  Json.loads limit text' = .error .recursionError)) ↔
              valueObject limit text = .error .uncaught := by
            rw [valueObject_uncaught]
            simp
          rw [hone]
          simp only [Except.mapError, bind, Except.bind]
          cases hobject : valueObject limit text with
          | error x => simp
          | ok fields =>
              dsimp only
              cases parseDomainEvent p (rawFields fields) with
              | none => simp [throw, throwThe, MonadExceptOf.throw]
              | some event =>
                  simp only [Checked.ensure]
                  split_ifs <;> simp [pure, Except.pure]

end Decoding

/-- **Decoding a record returns an event or fails as poison, exactly unless `json.loads` raises
something else on its text.** -/
theorem failsAsPoison_iff (p : Pydantic) (limit : ℕ) (message : KafkaMessage) :
    FailsAsPoison p limit message ↔ ¬ LoadsUncaught limit message := by
  rw [FailsAsPoison, ← decodeMessage_uncaught (p := p)]
  cases decodeMessage p limit message with
  | ok r => simp
  | error x => cases x <;> simp

/-! ### Records that stop their partition -/

/-- A record with the headers of an event, and a text for its value. -/
def textMessage (text : String) : KafkaMessage where
  value := some text.toUTF8
  headers := headersFor retryEvent none

theorem valueText_textMessage {text : String} (h : text.utf8ByteSize ≤ maxMessageValueBytes) :
    valueText (textMessage text).value = .ok text := by
  have hsize : ¬ maxMessageValueBytes < text.toByteArray.size := by
    rw [String.size_toByteArray]
    omega
  change valueText (some text.toByteArray) = _
  rw [valueText, if_neg hsize, Python.fromUTF8?_toByteArray]

/-- A text the interpreter's limits stop at stops the partition of its record. -/
theorem not_failsAsPoison_of_loads {limit : ℕ} {text : String}
    (hsize : text.utf8ByteSize ≤ maxMessageValueBytes)
    (hloads : Json.loads limit text = .error .valueError ∨
      Json.loads limit text = .error .recursionError) (p : Pydantic) :
    ¬ FailsAsPoison p limit (textMessage text) := by
  rintro (⟨r, hok⟩ | ⟨error, herror⟩)
  · have huncaught := (decodeMessage_uncaught (p := p)).2
      ⟨_, text, headersAsMapping_headersFor retryEvent none, valueText_textMessage hsize, hloads⟩
    rw [hok] at huncaught
    cases huncaught
  · have huncaught := (decodeMessage_uncaught (p := p)).2
      ⟨_, text, headersAsMapping_headersFor retryEvent none, valueText_textMessage hsize, hloads⟩
    rw [herror] at huncaught
    cases huncaught

/-- A record of 4301 digits stops its partition, whatever the other limits are. -/
theorem digits_stop_the_partition (p : Pydantic) (limit : ℕ) :
    ¬ FailsAsPoison p limit (textMessage (String.ofList (List.replicate 4301 '1'))) := by
  refine not_failsAsPoison_of_loads ?_ (.inl (Json.loads_digits limit (by decide))) p
  rw [Json.utf8ByteSize_ofList, Json.byteLength, List.map_replicate, List.sum_replicate_nat]
  decide

/-- Not every record fails as poison. -/
theorem not_all_failAsPoison :
    ¬ ∀ (p : Pydantic) (limit : ℕ) (message : KafkaMessage), FailsAsPoison p limit message := by
  intro h
  exact digits_stop_the_partition isoPydantic 1000 (h isoPydantic 1000 _)

/-- A record of opening brackets stops its partition when it is longer than the interpreter
follows. -/
theorem brackets_stop_the_partition (p : Pydantic) {limit : ℕ}
    (hlimit : limit < maxMessageValueBytes) :
    ¬ FailsAsPoison p limit (textMessage (String.ofList (List.replicate (limit + 1) '['))) := by
  refine not_failsAsPoison_of_loads ?_ (.inr (Json.loads_nested limit)) p
  have hone : '['.utf8Size = 1 := rfl
  rw [Json.utf8ByteSize_ofList, Json.byteLength, List.map_replicate, List.sum_replicate_nat, hone]
  omega

end Atlas
