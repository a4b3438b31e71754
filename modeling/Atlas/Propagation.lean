/-
**`traceparent`, parsed and formatted.**

`observability/tracing/propagation.py`: a `traceparent` of version `00` is parsed strictly, and
what is not exactly of its shape is absent, never an error.  The column
`research_jobs.traceparent` admits what its `CHECK` constraint describes by regular expressions,
and the formatter writes what the tracing library formats.  The three are of one language.

Main definitions:

* `Hex.value`, `Hex.padded` — a number by its hexadecimal digits, and its digits to a width;
* `Atlas.parseTraceparent`, `Atlas.formatTraceparent` — the parser and the formatter;
* `Atlas.W3cTraceparent` — the grammar;
* `Atlas.ParsedTraceparent.IsValid` — the contexts it can write.

Main results:

* `Hex.value_padded`, `Hex.padded_value` — digits to a width are a number below a bound;
* `Atlas.parseTraceparent_eq_some` — what the parser accepts, and as what;
* `Atlas.traceparentFormat_iff` — the constraint admits the grammar;
* `Atlas.traceparent_language` — **one language, parsed and formatted back**.
-/

import Atlas.JobRow
import Atlas.RecoveryPolicy

set_option relaxedAutoImplicit false
set_option autoImplicit false

/-! ### Hexadecimal digits -/

namespace Hex

/-- A lower-case hexadecimal digit. -/
def isDigit (c : Char) : Bool := c.isDigit || ('a' ≤ c && c ≤ 'f')

/-- The value of a digit. -/
def digitValue (c : Char) : ℕ := if c.isDigit then c.toNat - 48 else c.toNat - 87

/-- The number that digits stand for, the most significant first. -/
def value (digits : List Char) : ℕ := digits.foldl (fun n c => 16 * n + digitValue c) 0

/-- The last digits of a number, to a width. -/
def padded : ℕ → ℕ → List Char
  | 0, _ => []
  | width + 1, n => padded width (n / 16) ++ [Nat.digitChar (n % 16)]

@[simp] theorem value_nil : value [] = 0 := rfl

@[simp] theorem value_concat (digits : List Char) (c : Char) :
    value (digits ++ [c]) = 16 * value digits + digitValue c := by
  rw [value, List.foldl_append]
  rfl

theorem digit_digitChar : ∀ n < 16,
    digitValue (Nat.digitChar n) = n ∧ isDigit (Nat.digitChar n) = true := by
  decide

/-- A digit is written back. -/
theorem digitChar_digitValue {c : Char} (h : isDigit c = true) :
    digitValue c < 16 ∧ Nat.digitChar (digitValue c) = c := by
  have hcode : c.toNat < 103 := by
    simp only [isDigit, Char.isDigit, Bool.or_eq_true, Bool.and_eq_true, decide_eq_true_eq,
      Char.le_def, UInt32.le_iff_toNat_le] at h
    have hnine : ('9' : Char).val.toNat = 57 := rfl
    have hf : ('f' : Char).val.toNat = 102 := rfl
    have hc : c.toNat = c.val.toNat := rfl
    omega
  have hall : ∀ n < 103, isDigit (Char.ofNat n) = true →
      digitValue (Char.ofNat n) < 16 ∧
        Nat.digitChar (digitValue (Char.ofNat n)) = Char.ofNat n := by
    decide
  have hback := hall c.toNat hcode
  rw [Char.ofNat_toNat] at hback
  exact hback h

@[simp] theorem length_padded (width n : ℕ) : (padded width n).length = width := by
  induction width generalizing n with
  | zero => rfl
  | succ width ih => simp [padded, ih]

theorem isDigit_padded {width n : ℕ} {c : Char} (h : c ∈ padded width n) : isDigit c = true := by
  induction width generalizing n with
  | zero => cases h
  | succ width ih =>
      rcases List.mem_append.1 h with h | h
      · exact ih h
      · rw [List.mem_singleton.1 h]
        exact (digit_digitChar (n % 16) (Nat.mod_lt n (by omega))).2

/-- **A number is read back from its digits.** -/
theorem value_padded {width n : ℕ} (h : n < 16 ^ width) : value (padded width n) = n := by
  induction width generalizing n with
  | zero =>
      have hzero : n = 0 := by omega
      rw [hzero]
      rfl
  | succ width ih =>
      have hdigit := (digit_digitChar (n % 16) (Nat.mod_lt n (by omega))).1
      have hrest : n / 16 < 16 ^ width := by
        rw [Nat.pow_succ] at h
        omega
      rw [padded, value_concat, ih hrest, hdigit]
      omega

theorem value_lt {digits : List Char} (h : ∀ c ∈ digits, isDigit c = true) :
    value digits < 16 ^ digits.length := by
  induction digits using List.reverseRecOn with
  | nil => decide
  | append_singleton digits c ih =>
      have hrest := ih fun d hd => h d (List.mem_append_left _ hd)
      have hc := (digitChar_digitValue (h c (by simp))).1
      rw [value_concat, List.length_append, List.length_singleton, Nat.pow_succ]
      omega

/-- **Digits are written back from their number.** -/
theorem padded_value {digits : List Char} (h : ∀ c ∈ digits, isDigit c = true) :
    padded digits.length (value digits) = digits := by
  induction digits using List.reverseRecOn with
  | nil => rfl
  | append_singleton digits c ih =>
      have hrest := ih fun d hd => h d (List.mem_append_left _ hd)
      obtain ⟨hlt, hchar⟩ := digitChar_digitValue (h c (by simp))
      have hdiv : (16 * value digits + digitValue c) / 16 = value digits := by omega
      have hmod : (16 * value digits + digitValue c) % 16 = digitValue c := by omega
      rw [value_concat, List.length_append, List.length_singleton, padded, hdiv, hmod, hrest, hchar]

/-- Only zeros have the value zero. -/
theorem value_eq_zero {digits : List Char} (h : ∀ c ∈ digits, isDigit c = true) :
    value digits = 0 ↔ ∀ c ∈ digits, c = '0' := by
  induction digits using List.reverseRecOn with
  | nil => simp
  | append_singleton digits c ih =>
      have hrest := ih fun d hd => h d (List.mem_append_left _ hd)
      have hc : digitValue c = 0 ↔ c = '0' := by
        obtain ⟨-, hchar⟩ := digitChar_digitValue (h c (by simp))
        constructor
        · intro hzero
          rw [← hchar, hzero]
          rfl
        · rintro rfl
          rfl
      rw [value_concat]
      constructor
      · intro hzero d hd
        rcases List.mem_append.1 hd with hd | hd
        · exact hrest.1 (by omega) d hd
        · rw [List.mem_singleton.1 hd]
          exact hc.1 (by omega)
      · intro hall
        have hzero := hrest.2 fun d hd => hall d (List.mem_append_left _ hd)
        have hlast := hc.2 (hall c (by simp))
        omega

/-- Digits without leading zeros, padded with zeros, are the digits to the width. -/
theorem leftpad_toDigits {width n : ℕ} (hwidth : 0 < width) (h : n < 16 ^ width) :
    (Nat.toDigits 16 n).leftpad width '0' = padded width n := by
  induction width generalizing n with
  | zero => omega
  | succ width ih =>
      by_cases hsmall : n < 16
      · have hzero : n / 16 = 0 := by omega
        have hpad : padded width 0 = List.replicate width '0' := by
          clear ih hwidth h
          induction width with
          | zero => rfl
          | succ width ih => rw [padded, ih, List.replicate_succ', Nat.zero_mod]; rfl
        rw [Nat.toDigits_of_lt_base hsmall, padded, hzero, hpad, Nat.mod_eq_of_lt hsmall]
        simp [List.leftpad]
      · have hrest : n / 16 < 16 ^ width := by
          rw [Nat.pow_succ] at h
          omega
        have hpos : 0 < width := by
          rcases Nat.eq_zero_or_pos width with rfl | hpos
          · rw [Nat.pow_zero] at hrest
            omega
          · exact hpos
        rw [padded, ← ih hpos hrest, Nat.toDigits_of_base_le (by omega) (by omega)]
        simp [List.leftpad]

end Hex

namespace Atlas

open Checked Hex

/-! ### Parsing and formatting -/

/-- A structurally valid, non-zero trace context. -/
structure ParsedTraceparent where
  traceId : ℕ
  spanId : ℕ
  traceFlags : ℕ
  deriving DecidableEq, Repr

def traceparentLength : ℕ := 55

/-- `re.match` of `^[0-9a-f]{width}$`: a `$` is also at a newline that ends the text. -/
def matchesHex (width : ℕ) (text : List Char) : Bool :=
  let digits := if text.getLast? = some '\n' then text.dropLast else text
  digits.length = width && digits.all isLowerHex

/-- `int(text, 16)` of digits with white space around them, of which there is at least one. -/
def intBase16 (text : List Char) : Except Exc ℕ := do
  let digits := (Python.strip (String.ofList text)).toList
  ensure (digits ≠ [] ∧ digits.all isLowerHex = true)
    (.valueError "invalid literal for int() with base 16")
  return Hex.value digits

/-- Strictly parse a W3C `traceparent` (version `00` only). -/
def parseTraceparent (value : Option String) : Except Exc (Option ParsedTraceparent) :=
  match value with
  | none => .ok none
  | some value =>
      if value.length ≠ traceparentLength then .ok none
      else
        match value.toList.splitOn '-' with
        | [version, traceIdHex, spanIdHex, flagsHex] =>
            if version ≠ ['0', '0'] then .ok none
            else if ¬ (matchesHex 32 traceIdHex ∧ matchesHex 16 spanIdHex ∧
                matchesHex 2 flagsHex) then
              .ok none
            else if traceIdHex = List.replicate 32 '0' ∨ spanIdHex = List.replicate 16 '0' then
              .ok none
            else do
              let traceId ← intBase16 traceIdHex
              let spanId ← intBase16 spanIdHex
              let traceFlags ← intBase16 flagsHex
              return some ⟨traceId, spanId, traceFlags⟩
        | _ => .ok none

/-- `format(n, "0{width}x")`. -/
def formatHex (width n : ℕ) : String := String.ofList ((Nat.toDigits 16 n).leftpad width '0')

/-- Format a trace context as a version-`00` `traceparent`; the library formats the two ids. -/
def formatTraceparent (formatTraceId formatSpanId : ℕ → String) (context : ParsedTraceparent) :
    String :=
  "00-" ++ formatTraceId context.traceId ++ "-" ++ formatSpanId context.spanId ++ "-" ++
    formatHex 2 context.traceFlags

/-! ### The grammar -/

/-- Digits of a width. -/
def HexText (width : ℕ) (text : List Char) : Prop :=
  text.length = width ∧ ∀ c ∈ text, isLowerHex c = true

/-- The parts of a `traceparent` of version `00`: the ids are not zero. -/
structure TraceparentParts (traceIdHex spanIdHex flagsHex : List Char) : Prop where
  traceId : HexText 32 traceIdHex
  spanId : HexText 16 spanIdHex
  flags : HexText 2 flagsHex
  traceId_ne : traceIdHex ≠ List.replicate 32 '0'
  spanId_ne : spanIdHex ≠ List.replicate 16 '0'

/-- The text of some parts. -/
def traceparentText (traceIdHex spanIdHex flagsHex : List Char) : List Char :=
  ['0', '0', '-'] ++ traceIdHex ++ ['-'] ++ spanIdHex ++ ['-'] ++ flagsHex

/-- The W3C grammar of version `00`. -/
def W3cTraceparent (text : String) : Prop :=
  ∃ traceIdHex spanIdHex flagsHex, TraceparentParts traceIdHex spanIdHex flagsHex ∧
    text.toList = traceparentText traceIdHex spanIdHex flagsHex

/-- The contexts of nonzero ids and of flags below 256. -/
structure ParsedTraceparent.IsValid (context : ParsedTraceparent) : Prop where
  traceId_pos : 0 < context.traceId
  traceId_lt : context.traceId < 2 ^ 128
  spanId_pos : 0 < context.spanId
  spanId_lt : context.spanId < 2 ^ 64
  traceFlags_lt : context.traceFlags < 256

/-- An id is formatted as digits to a width, where there is room for it. -/
def FormatsHex (format : ℕ → String) (width : ℕ) : Prop :=
  ∀ n < 16 ^ width, format n = formatHex width n

section Language

variable {text : String} {traceIdHex spanIdHex flagsHex : List Char} {width : ℕ}

/-- A digit is neither a dash nor white space. -/
theorem isLowerHex_ne {c : Char} (h : isLowerHex c = true) :
    c ≠ '-' ∧ c ≠ '\n' ∧ Python.isSpace c = false := by
  have hback := (digitChar_digitValue h).2
  have hlt := (digitChar_digitValue h).1
  have hall : ∀ n < 16, Nat.digitChar n ≠ '-' ∧ Nat.digitChar n ≠ '\n' ∧
      Python.isSpace (Nat.digitChar n) = false := by decide
  have hdigit := hall _ hlt
  rwa [hback] at hdigit

theorem matchesHex_of_hexText {l : List Char} (h : HexText width l) :
    matchesHex width l = true := by
  have hlast : l.getLast? ≠ some '\n' := by
    intro hlast
    exact (isLowerHex_ne (h.2 _ (List.mem_of_getLast? hlast))).2.1 rfl
  rw [matchesHex, if_neg hlast, Bool.and_eq_true, decide_eq_true_iff, List.all_eq_true]
  exact h

/-- A match is digits of the width, or has a newline after them. -/
theorem hexText_of_matchesHex {l : List Char} (h : matchesHex width l = true) :
    HexText width l ∨ l.length = width + 1 := by
  rw [matchesHex] at h
  split at h
  · next hlast =>
    obtain ⟨digits, rfl⟩ := List.getLast?_eq_some_iff.1 hlast
    rw [List.dropLast_concat, Bool.and_eq_true, decide_eq_true_iff] at h
    refine .inr ?_
    rw [List.length_append, h.1, List.length_singleton]
  · rw [Bool.and_eq_true, decide_eq_true_iff, List.all_eq_true] at h
    exact .inl h

theorem intBase16_of_hexText {l : List Char} (hpos : 0 < width) (h : HexText width l) :
    intBase16 l = .ok (Hex.value l) := by
  have hstrip : Python.strip (String.ofList l) = String.ofList l := by
    refine Python.strip_eq_self fun c hc => ?_
    rw [String.toList_ofList] at hc
    exact (isLowerHex_ne (h.2 c hc)).2.2
  have hne : l ≠ [] := by
    rintro rfl
    rw [HexText, List.length_nil] at h
    omega
  have hall : l.all isLowerHex = true := List.all_eq_true.2 h.2
  rw [intBase16, hstrip, String.toList_ofList]
  exact bind_eq_ok.2 ⟨(), ensure_eq_ok.2 ⟨hne, hall⟩, rfl⟩

/-- The parts are found again by the dashes. -/
theorem splitOn_traceparentText (htraceId : HexText 32 traceIdHex) (hspanId : HexText 16 spanIdHex)
    (hflags : HexText 2 flagsHex) :
    (traceparentText traceIdHex spanIdHex flagsHex).splitOn '-'
      = [['0', '0'], traceIdHex, spanIdHex, flagsHex] := by
  have hjoin : traceparentText traceIdHex spanIdHex flagsHex
      = ['-'].intercalate [['0', '0'], traceIdHex, spanIdHex, flagsHex] := by
    simp [traceparentText, List.intercalate]
  have hdash : ∀ {l : List Char} {width : ℕ}, HexText width l → '-' ∉ l := fun h hmem =>
    (isLowerHex_ne (h.2 _ hmem)).1 rfl
  rw [hjoin]
  refine List.splitOn_intercalate '-' ?_ (List.cons_ne_nil _ _)
  intro l hl
  simp only [List.mem_cons, List.not_mem_nil, or_false] at hl
  rcases hl with rfl | rfl | rfl | rfl
  · decide
  · exact hdash htraceId
  · exact hdash hspanId
  · exact hdash hflags

/-- **What the parser accepts**, and as what. -/
theorem parseTraceparent_of_parts (h : TraceparentParts traceIdHex spanIdHex flagsHex)
    (htext : text.toList = traceparentText traceIdHex spanIdHex flagsHex) :
    parseTraceparent (some text)
      = .ok (some ⟨Hex.value traceIdHex, Hex.value spanIdHex, Hex.value flagsHex⟩) := by
  have hlength : text.length = traceparentLength := by
    rw [← String.length_toList, htext]
    simp [traceparentText, h.traceId.1, h.spanId.1, h.flags.1, traceparentLength]
  have hmatch : matchesHex 32 traceIdHex ∧ matchesHex 16 spanIdHex ∧ matchesHex 2 flagsHex :=
    ⟨matchesHex_of_hexText h.traceId, matchesHex_of_hexText h.spanId, matchesHex_of_hexText h.flags⟩
  have hzero : ¬ (traceIdHex = List.replicate 32 '0' ∨ spanIdHex = List.replicate 16 '0') := by
    rintro (hzero | hzero)
    · exact h.traceId_ne hzero
    · exact h.spanId_ne hzero
  rw [parseTraceparent]
  simp only [hlength, ne_eq, not_true_eq_false, if_false, htext,
    splitOn_traceparentText h.traceId h.spanId h.flags, hmatch, hzero,
    intBase16_of_hexText (by decide : 0 < 32) h.traceId,
    intBase16_of_hexText (by decide : 0 < 16) h.spanId,
    intBase16_of_hexText (by decide : 0 < 2) h.flags]
  rfl

/-- The parser never raises, and what it accepts is of the grammar. -/
theorem parseTraceparent_cases (text : String) : parseTraceparent (some text) = .ok none ∨
    ∃ traceIdHex spanIdHex flagsHex, TraceparentParts traceIdHex spanIdHex flagsHex ∧
      text.toList = traceparentText traceIdHex spanIdHex flagsHex := by
  by_cases hnone : parseTraceparent (some text) = .ok none
  · exact .inl hnone
  · refine .inr ?_
    rw [parseTraceparent] at hnone
    split at hnone
    · exact absurd rfl hnone
    · next hlength =>
      rw [ne_eq, not_not, ← String.length_toList] at hlength
      split at hnone
      · next version traceIdHex spanIdHex flagsHex hsplit =>
        have hjoin : ['-'].intercalate (text.toList.splitOn '-') = text.toList :=
          List.intercalate_splitOn '-'
        rw [hsplit] at hjoin
        split at hnone
        · exact absurd rfl hnone
        · next hversion =>
          rw [ne_eq, not_not] at hversion
          subst hversion
          have htext : text.toList = traceparentText traceIdHex spanIdHex flagsHex := by
            rw [← hjoin]
            simp [traceparentText, List.intercalate]
          split at hnone
          · exact absurd rfl hnone
          · next hmatch =>
            rw [not_not] at hmatch
            split at hnone
            · exact absurd rfl hnone
            · next hzero =>
              -- with a newline after any of them the text would be too long
              rw [htext] at hlength
              simp only [traceparentText, List.length_append, List.length_cons, List.length_nil,
                traceparentLength] at hlength
              obtain ⟨htraceId, hspanId, hflags⟩ := hmatch
              have htraceId := hexText_of_matchesHex htraceId
              have hspanId := hexText_of_matchesHex hspanId
              have hflags := hexText_of_matchesHex hflags
              have hlengths : traceIdHex.length = 32 ∧ spanIdHex.length = 16 ∧
                  flagsHex.length = 2 := by
                have h₁ : traceIdHex.length = 32 ∨ traceIdHex.length = 33 :=
                  htraceId.imp And.left id
                have h₂ : spanIdHex.length = 16 ∨ spanIdHex.length = 17 :=
                  hspanId.imp And.left id
                have h₃ : flagsHex.length = 2 ∨ flagsHex.length = 3 := hflags.imp And.left id
                omega
              refine ⟨traceIdHex, spanIdHex, flagsHex, ⟨?_, ?_, ?_, ?_, ?_⟩, htext⟩
              · exact htraceId.resolve_right (by omega)
              · exact hspanId.resolve_right (by omega)
              · exact hflags.resolve_right (by omega)
              · exact fun h => hzero (.inl h)
              · exact fun h => hzero (.inr h)
      · exact absurd rfl hnone

theorem all_eq_zero_iff {l : List Char} (hlength : l.length = width) :
    (l.all fun c => c == '0') = false ↔ l ≠ List.replicate width '0' := by
  rw [ne_eq, List.eq_replicate_iff, not_and, ← Bool.not_eq_true, List.all_eq_true]
  simp [hlength]

/-- **The constraint admits the grammar.** -/
theorem traceparentFormat_iff (text : String) :
    traceparentFormat text = true ↔ W3cTraceparent text := by
  constructor
  · intro h
    simp only [traceparentFormat, Bool.and_eq_true, beq_iff_eq, Bool.not_eq_true'] at h
    obtain ⟨⟨⟨⟨⟨⟨⟨⟨hlength, hversion⟩, htraceId⟩, hdash⟩, hspanId⟩, hdash'⟩, hflags⟩, hne⟩,
      hne'⟩ := h
    obtain ⟨chars, hchars⟩ : ∃ chars, chars = text.toList := ⟨_, rfl⟩
    rw [← hchars] at hlength hversion htraceId hdash hspanId hdash' hflags hne hne'
    have hlength₁ : ((chars.drop 3).take 32).length = 32 := by simp [hlength]
    have hlength₂ : ((chars.drop 36).take 16).length = 16 := by simp [hlength]
    have hlength₃ : (chars.drop 53).length = 2 := by simp [hlength]
    refine ⟨(chars.drop 3).take 32, (chars.drop 36).take 16, chars.drop 53,
      ⟨?_, ?_, ?_, ?_, ?_⟩, ?_⟩
    · exact ⟨hlength₁, List.all_eq_true.1 htraceId⟩
    · exact ⟨hlength₂, List.all_eq_true.1 hspanId⟩
    · exact ⟨hlength₃, List.all_eq_true.1 hflags⟩
    · exact (all_eq_zero_iff hlength₁).1 hne
    · exact (all_eq_zero_iff hlength₂).1 hne'
    · obtain ⟨hlt, hget⟩ := List.getElem?_eq_some_iff.1 hdash
      obtain ⟨hlt', hget'⟩ := List.getElem?_eq_some_iff.1 hdash'
      have hsplit₁ : chars.drop 3 = (chars.drop 3).take 32 ++ chars.drop 35 := by
        have hsplit := List.take_append_drop 32 (chars.drop 3)
        rw [List.drop_drop] at hsplit
        exact hsplit.symm
      have hsplit₂ : chars.drop 36 = (chars.drop 36).take 16 ++ chars.drop 52 := by
        have hsplit := List.take_append_drop 16 (chars.drop 36)
        rw [List.drop_drop] at hsplit
        exact hsplit.symm
      have hcons₁ : chars.drop 35 = '-' :: chars.drop 36 := by
        rw [List.drop_eq_getElem_cons hlt, hget]
      have hcons₂ : chars.drop 52 = '-' :: chars.drop 53 := by
        rw [List.drop_eq_getElem_cons hlt', hget']
      rw [← hchars]
      calc chars = chars.take 3 ++ chars.drop 3 := (List.take_append_drop 3 chars).symm
        _ = ['0', '0', '-'] ++ ((chars.drop 3).take 32 ++
              '-' :: ((chars.drop 36).take 16 ++ '-' :: chars.drop 53)) := by
            rw [← hcons₂, ← hsplit₂, ← hcons₁, ← hsplit₁, hversion]
        _ = traceparentText ((chars.drop 3).take 32) ((chars.drop 36).take 16) (chars.drop 53) := by
            simp [traceparentText]
  · rintro ⟨traceIdHex, spanIdHex, flagsHex, h, htext⟩
    have htraceId := (all_eq_zero_iff h.traceId.1).2 h.traceId_ne
    have hspanId := (all_eq_zero_iff h.spanId.1).2 h.spanId_ne
    have hall : traceIdHex.all isLowerHex = true ∧ spanIdHex.all isLowerHex = true ∧
        flagsHex.all isLowerHex = true :=
      ⟨List.all_eq_true.2 h.traceId.2, List.all_eq_true.2 h.spanId.2, List.all_eq_true.2 h.flags.2⟩
    obtain ⟨chars, hchars⟩ : ∃ chars, chars = text.toList := ⟨_, rfl⟩
    have hcons : chars = '0' :: '0' :: '-' ::
        (traceIdHex ++ '-' :: (spanIdHex ++ '-' :: flagsHex)) := by
      rw [hchars, htext]
      simp [traceparentText]
    have hlength : chars.length = 55 := by
      rw [hcons]
      simp [h.traceId.1, h.spanId.1, h.flags.1]
    have hdrop₃ : chars.drop 3 = traceIdHex ++ '-' :: (spanIdHex ++ '-' :: flagsHex) := by
      rw [hcons]
      rfl
    have hdrop₃₅ : chars.drop 35 = '-' :: (spanIdHex ++ '-' :: flagsHex) := by
      have hdrop := List.drop_drop (i := 32) (j := 3) (l := chars)
      rw [hdrop₃, List.drop_left' h.traceId.1] at hdrop
      exact hdrop.symm
    have hdrop₃₆ : chars.drop 36 = spanIdHex ++ '-' :: flagsHex := by
      have hdrop := List.drop_drop (i := 1) (j := 35) (l := chars)
      rw [hdrop₃₅] at hdrop
      exact hdrop.symm
    have hdrop₅₂ : chars.drop 52 = '-' :: flagsHex := by
      have hdrop := List.drop_drop (i := 16) (j := 36) (l := chars)
      rw [hdrop₃₆, List.drop_left' h.spanId.1] at hdrop
      exact hdrop.symm
    have hdrop₅₃ : chars.drop 53 = flagsHex := by
      have hdrop := List.drop_drop (i := 1) (j := 52) (l := chars)
      rw [hdrop₅₂] at hdrop
      exact hdrop.symm
    have hversion : chars.take 3 = ['0', '0', '-'] := by
      rw [hcons]
      rfl
    have hdash : chars[35]? = some '-' := by
      rw [← List.head?_drop, hdrop₃₅]
      rfl
    have hdash' : chars[52]? = some '-' := by
      rw [← List.head?_drop, hdrop₅₂]
      rfl
    rw [traceparentFormat, ← hchars]
    simp only [hlength, hversion, hdash, hdash', hdrop₃, hdrop₃₆, hdrop₅₃,
      List.take_left' h.traceId.1, List.take_left' h.spanId.1, hall, htraceId, hspanId]
    decide

/-- The formatter writes the text of the digits. -/
theorem formatTraceparent_eq {formatTraceId formatSpanId : ℕ → String}
    (htraceId : FormatsHex formatTraceId 32) (hspanId : FormatsHex formatSpanId 16)
    {context : ParsedTraceparent} (htrace : context.traceId < 16 ^ 32)
    (hspan : context.spanId < 16 ^ 16) (hflags : context.traceFlags < 16 ^ 2) :
    (formatTraceparent formatTraceId formatSpanId context).toList
      = traceparentText (padded 32 context.traceId) (padded 16 context.spanId)
        (padded 2 context.traceFlags) := by
  rw [formatTraceparent, htraceId _ htrace, hspanId _ hspan, formatHex, formatHex, formatHex,
    leftpad_toDigits (by decide) htrace, leftpad_toDigits (by decide) hspan,
    leftpad_toDigits (by decide) hflags]
  simp only [String.toList_append, String.toList_ofList]
  rfl

/-- Digits of a number to a width. -/
theorem hexText_padded (width n : ℕ) : HexText width (padded width n) :=
  ⟨length_padded width n, fun _ hc => isDigit_padded hc⟩

/-- Digits of a nonzero number are not all zero. -/
theorem padded_ne_replicate {width n : ℕ} (hpos : 0 < n) (hlt : n < 16 ^ width) :
    padded width n ≠ List.replicate width '0' := by
  intro hzero
  have hvalue := value_padded hlt
  have hall : ∀ c ∈ padded width n, c = '0' := by
    rw [hzero]
    exact fun c hc => List.eq_of_mem_replicate hc
  rw [(value_eq_zero fun c hc => isDigit_padded hc).2 hall] at hvalue
  omega

theorem ParsedTraceparent.IsValid.parts {context : ParsedTraceparent} (h : context.IsValid) :
    TraceparentParts (padded 32 context.traceId) (padded 16 context.spanId)
      (padded 2 context.traceFlags) where
  traceId := hexText_padded 32 _
  spanId := hexText_padded 16 _
  flags := hexText_padded 2 _
  traceId_ne := padded_ne_replicate h.traceId_pos h.traceId_lt
  spanId_ne := padded_ne_replicate h.spanId_pos h.spanId_lt

end Language

/-- **One language, parsed and formatted back.**  The parser never raises; it accepts the texts of
the grammar, which are those the constraint admits; a text it accepts is formatted back, and a
context that can be written is parsed back. -/
theorem traceparent_language {formatTraceId formatSpanId : ℕ → String}
    (htraceId : FormatsHex formatTraceId 32) (hspanId : FormatsHex formatSpanId 16) :
    (∀ value, ∃ parsed, parseTraceparent value = .ok parsed) ∧
      (∀ text, (∃ context, parseTraceparent (some text) = .ok (some context)) ↔
        W3cTraceparent text) ∧
      (∀ text, traceparentFormat text = true ↔ W3cTraceparent text) ∧
      (∀ text context, parseTraceparent (some text) = .ok (some context) →
        formatTraceparent formatTraceId formatSpanId context = text) ∧
      ∀ context : ParsedTraceparent, context.IsValid →
        parseTraceparent (some (formatTraceparent formatTraceId formatSpanId context))
          = .ok (some context) := by
  refine ⟨?_, ?_, traceparentFormat_iff, ?_, ?_⟩
  · intro value
    cases value with
    | none => exact ⟨none, rfl⟩
    | some text =>
        rcases parseTraceparent_cases text with hnone | ⟨_, _, _, hparts, htext⟩
        · exact ⟨none, hnone⟩
        · exact ⟨_, parseTraceparent_of_parts hparts htext⟩
  · intro text
    constructor
    · rintro ⟨context, hparse⟩
      refine (parseTraceparent_cases text).resolve_left fun hnone => ?_
      rw [hnone] at hparse
      cases hparse
    · rintro ⟨_, _, _, hparts, htext⟩
      exact ⟨_, parseTraceparent_of_parts hparts htext⟩
  · intro text context hparse
    rcases parseTraceparent_cases text with hnone | ⟨traceIdHex, spanIdHex, flagsHex, hparts, htext⟩
    · rw [hnone] at hparse
      cases hparse
    · rw [parseTraceparent_of_parts hparts htext] at hparse
      cases hparse
      have htrace := value_lt hparts.traceId.2
      have hspan := value_lt hparts.spanId.2
      have hflags := value_lt hparts.flags.2
      have hpadTrace := padded_value hparts.traceId.2
      have hpadSpan := padded_value hparts.spanId.2
      have hpadFlags := padded_value hparts.flags.2
      rw [hparts.traceId.1] at htrace hpadTrace
      rw [hparts.spanId.1] at hspan hpadSpan
      rw [hparts.flags.1] at hflags hpadFlags
      refine String.toList_injective ?_
      rw [formatTraceparent_eq htraceId hspanId htrace hspan hflags, htext]
      simp only [hpadTrace, hpadSpan, hpadFlags]
  · intro context hvalid
    have htext : (formatTraceparent formatTraceId formatSpanId context).toList = _ :=
      formatTraceparent_eq htraceId hspanId hvalid.traceId_lt hvalid.spanId_lt
        hvalid.traceFlags_lt
    rw [parseTraceparent_of_parts hvalid.parts htext, value_padded hvalid.traceId_lt,
      value_padded hvalid.spanId_lt, value_padded hvalid.traceFlags_lt]

/-- A context that is formatted and parsed back, with ids formatted as digits. -/
theorem traceparent_language_sample :
    parseTraceparent (some (formatTraceparent (formatHex 32) (formatHex 16) ⟨255, 16, 1⟩))
      = .ok (some ⟨255, 16, 1⟩) :=
  (traceparent_language (fun _ _ => rfl) fun _ _ => rfl).2.2.2.2 ⟨255, 16, 1⟩
    ⟨by decide, by decide, by decide, by decide, by decide⟩

end Atlas
