/-
**Python's `json` module.**

`json.loads` and `json.dumps` on the values JSON has.  A `dict` is the list of its items in
insertion order: a key written twice keeps its place and takes the later value.  Texts are
sequences of characters, and `loads` may also read an escaped surrogate without its other half: a
text with one is a value of its own, and a key with one has a replacement character in its place.  A
fraction keeps the text it was written with.

Main definitions:

* `Python.Json` — the values;
* `Python.Json.dumps` — `json.dumps` with sorted keys, compact separators and raw characters;
* `Python.Json.loads` — `json.loads`, with the errors it raises;
* `Python.Json.Plain` — the values without fractions whose keys are distinct;
* `Python.Json.Same` — equality up to the order of keys.

Main results:

* `Python.Json.loads_print` — **what is written is read back**;
* `Python.Json.loads_dumps` — with its keys sorted, when they were written so;
* `Python.Json.Same.of_obj` — a value is found under its key in any order;
* `Python.Json.byteLength_sorted_obj` — how long the text of an object can be.
-/

import Atlas.PythonText
import Mathlib.Data.List.Perm.Basic
import Mathlib.Data.List.Sort

set_option relaxedAutoImplicit false
set_option autoImplicit false

namespace Python

/-- A JSON value. -/
inductive Json where
  | null
  | bool (b : Bool)
  | int (n : ℤ)
  /-- A number with a fraction or an exponent, by its text. -/
  | float (text : String)
  | str (s : String)
  /-- A text with unpaired surrogates, a replacement character in the place of each. -/
  | lone (s : String)
  | arr (items : List Json)
  | obj (fields : List (String × Json))

namespace Json

/-! ### Writing -/

/-- A number in decimal notation. -/
def printInt : ℤ → List Char
  | .ofNat n => Nat.toDigits 10 n
  | .negSucc n => '-' :: Nat.toDigits 10 (n + 1)

mutual

/-- A value with compact separators, its keys in the order they have. -/
def print : Json → List Char
  | null => ['n', 'u', 'l', 'l']
  | bool true => ['t', 'r', 'u', 'e']
  | bool false => ['f', 'a', 'l', 's', 'e']
  | int n => printInt n
  | float text => text.toList
  | str s | lone s => '"' :: (s.toList.flatMap jsonRawChar ++ ['"'])
  | arr items => '[' :: (printItems items ++ [']'])
  | obj fields => '{' :: (printFields fields ++ ['}'])

def printItems : List Json → List Char
  | [] => []
  | v :: rest => print v ++ (if rest.isEmpty then [] else ',' :: printItems rest)

def printFields : List (String × Json) → List Char
  | [] => []
  | (k, v) :: rest =>
      '"' :: (k.toList.flatMap jsonRawChar ++ '"' :: ':' :: (print v ++
        (if rest.isEmpty then [] else ',' :: printFields rest)))

end

/-- Keys in the order `sort_keys` puts them: by code points. -/
def keyOrder (f g : String × Json) : Prop := f.1 ≤ g.1

instance : DecidableRel keyOrder := fun f g => inferInstanceAs (Decidable (f.1 ≤ g.1))

mutual

/-- A value with the keys of every object sorted. -/
def sorted : Json → Json
  | arr items => arr (sortedItems items)
  | obj fields => obj ((sortedFields fields).insertionSort keyOrder)
  | v => v

def sortedItems : List Json → List Json
  | [] => []
  | v :: rest => sorted v :: sortedItems rest

def sortedFields : List (String × Json) → List (String × Json)
  | [] => []
  | (k, v) :: rest => (k, sorted v) :: sortedFields rest

end

/-- `json.dumps(value, sort_keys=True, separators=(",", ":"), ensure_ascii=False)`. -/
def dumps (v : Json) : String := String.ofList (print (sorted v))

/-! ### Reading -/

/-- What `json.loads` raises. -/
inductive LoadsError where
  /-- `json.JSONDecodeError`. -/
  | decodeError
  /-- `ValueError`: an integer of more digits than `int` converts. -/
  | valueError
  /-- `RecursionError`: arrays and objects nested too deep. -/
  | recursionError
  deriving DecidableEq

def isBlank (c : Char) : Bool := c = ' ' || c = '\t' || c = '\n' || c = '\r'

def skipBlank (text : List Char) : List Char := text.dropWhile isBlank

/-- The value of a hexadecimal digit. -/
def hexValue (c : Char) : Option ℕ :=
  if 48 ≤ c.toNat ∧ c.toNat ≤ 57 then some (c.toNat - 48)
  else if 97 ≤ c.toNat ∧ c.toNat ≤ 102 then some (c.toNat - 87)
  else if 65 ≤ c.toNat ∧ c.toNat ≤ 70 then some (c.toNat - 55)
  else none

/-- Four hexadecimal digits. -/
def scanCodeUnit : List Char → Option (ℕ × List Char)
  | a :: b :: c :: d :: rest => do
      let a ← hexValue a
      let b ← hexValue b
      let c ← hexValue c
      let d ← hexValue d
      return (((a * 16 + b) * 16 + c) * 16 + d, rest)
  | _ => none

/-- The second half of a surrogate pair, escaped, if it follows. -/
def scanLowSurrogate : List Char → Except LoadsError (Option (ℕ × List Char))
  | '\\' :: 'u' :: rest =>
      match scanCodeUnit rest with
      | none => .error .decodeError
      | some (n, rest) =>
          .ok (if 56320 ≤ n ∧ n ≤ 57343 then some (n - 56320, rest) else none)
  | _ => .ok none

/-- What may follow a backslash, besides `u`. -/
def shortEscapes : List (Char × Char) :=
  [('"', '"'), ('\\', '\\'), ('/', '/'), ('b', Char.ofNat 8), ('f', Char.ofNat 12), ('n', '\n'),
    ('r', '\r'), ('t', '\t')]

/-- The character an escape stands for, if it is no unpaired surrogate. -/
def scanEscape : List Char → Except LoadsError (Option Char × List Char)
  | [] => .error .decodeError
  | c :: text =>
      if c = 'u' then
        match scanCodeUnit text with
        | none => .error .decodeError
        | some (n, rest) =>
            if n < 55296 ∨ 57343 < n then .ok (some (Char.ofNat n), rest)
            else if 56320 ≤ n then .ok (none, rest)
            else
              match scanLowSurrogate rest with
              | .error x => .error x
              | .ok none => .ok (none, rest)
              | .ok (some (low, rest)) =>
                  .ok (some (Char.ofNat (65536 + (n - 55296) * 1024 + low)), rest)
      else
        match shortEscapes.lookup c with
        | some d => .ok (some d, text)
        | none => .error .decodeError

/-- The characters of a string up to its closing quote.  Every step reads a character, so the
length of the text is fuel enough. -/
def scanChars : ℕ → List Char → Except LoadsError (List (Option Char) × List Char)
  | 0, _ => .error .decodeError
  | _ + 1, [] => .error .decodeError
  | fuel + 1, c :: text =>
      if c = '"' then .ok ([], text)
      else if c = '\\' then do
        let (d, text) ← scanEscape text
        let (s, text) ← scanChars fuel text
        return (d :: s, text)
      else if c.toNat < 32 then .error .decodeError
      else do
        let (s, text) ← scanChars fuel text
        return (some c :: s, text)

/-- A string, after its opening quote. -/
def scanString (text : List Char) : Except LoadsError (List (Option Char) × List Char) :=
  scanChars text.length text

/-- The text of what was read between quotes. -/
def textOf (s : List (Option Char)) : String := String.ofList (s.map (·.getD (Char.ofNat 65533)))

/-- The value of what was read between quotes. -/
def ofText (s : List (Option Char)) : Json :=
  if s.all Option.isSome then str (textOf s) else lone (textOf s)

/-- The sign of a number. -/
def scanSign (text : List Char) : List Char × List Char :=
  if text.head? = some '-' then (['-'], text.tail) else ([], text)

/-- The digits before the fraction: a zero, or digits that do not start with one. -/
def scanWhole (text : List Char) : List Char × List Char :=
  if text.head? = some '0' then (['0'], text.tail)
  else (text.takeWhile Char.isDigit, text.dropWhile Char.isDigit)

/-- A dot and digits, if they follow. -/
def scanFraction (text : List Char) : List Char × List Char :=
  if text.head? = some '.' ∧ text.tail.takeWhile Char.isDigit ≠ [] then
    ('.' :: text.tail.takeWhile Char.isDigit, text.tail.dropWhile Char.isDigit)
  else ([], text)

/-- An exponent, if one follows. -/
def scanExponent (text : List Char) : List Char × List Char :=
  let unsigned := if text.tail.head? = some '+' ∨ text.tail.head? = some '-'
    then text.tail.tail else text.tail
  if (text.head? = some 'e' ∨ text.head? = some 'E') ∧ unsigned.takeWhile Char.isDigit ≠ [] then
    (text.take (text.length - unsigned.length) ++ unsigned.takeWhile Char.isDigit,
      unsigned.dropWhile Char.isDigit)
  else ([], text)

/-- The digits `int` converts at most. -/
def maxIntDigits : ℕ := 4300

def scanNumber (text : List Char) : Except LoadsError (Json × List Char) :=
  let (sign, text) := scanSign text
  let (whole, text) := scanWhole text
  let (fraction, text) := scanFraction text
  let (exponent, text) := scanExponent text
  if whole = [] then .error .decodeError
  else if fraction ≠ [] ∨ exponent ≠ [] then
    .ok (float (String.ofList (sign ++ whole ++ fraction ++ exponent)), text)
  else if maxIntDigits < whole.length then .error .valueError
  else .ok (int ((if sign = [] then 1 else -1) * (Nat.ofDigitChars 10 whole 0 : ℤ)), text)

/-- The names a value may be, `NaN` and the infinities among them. -/
def names : List (List Char × Json) :=
  [(['n', 'u', 'l', 'l'], null), (['t', 'r', 'u', 'e'], bool true),
    (['f', 'a', 'l', 's', 'e'], bool false), (['N', 'a', 'N'], float "NaN"),
    (['I', 'n', 'f', 'i', 'n', 'i', 't', 'y'], float "Infinity"),
    (['-', 'I', 'n', 'f', 'i', 'n', 'i', 't', 'y'], float "-Infinity")]

/-- A name or a number. -/
def scanScalar (text : List Char) : Except LoadsError (Json × List Char) :=
  match names.find? fun name => name.1.isPrefixOf text with
  | some (name, v) => .ok (v, text.drop name.length)
  | none => scanNumber text

/-- Assign a key of a `dict`. -/
def setItem (fields : List (String × Json)) (k : String) (v : Json) : List (String × Json) :=
  if fields.any (·.1 = k) then fields.map fun f => if f.1 = k then (k, v) else f
  else fields ++ [(k, v)]

/-- The items of an array up to its closing bracket; `value` reads one. -/
def scanItems (value : List Char → Except LoadsError (Json × List Char)) :
    ℕ → List Json → List Char → Except LoadsError (Json × List Char)
  | 0, _, _ => .error .decodeError
  | fuel + 1, items, text => do
      let (v, text) ← value text
      match skipBlank text with
      | ']' :: text => return (arr (items ++ [v]), text)
      | ',' :: text => scanItems value fuel (items ++ [v]) (skipBlank text)
      | _ => .error .decodeError

/-- The items of an object up to its closing brace; `value` reads a value. -/
def scanFields (value : List Char → Except LoadsError (Json × List Char)) :
    ℕ → List (String × Json) → List Char → Except LoadsError (Json × List Char)
  | fuel + 1, fields, '"' :: text => do
      let (k, text) ← scanString text
      match skipBlank text with
      | ':' :: text =>
          let (v, text) ← value (skipBlank text)
          match skipBlank text with
          | '}' :: text => return (obj (setItem fields (textOf k) v), text)
          | ',' :: text => scanFields value fuel (setItem fields (textOf k) v) (skipBlank text)
          | _ => .error .decodeError
      | _ => .error .decodeError
  | _, _, _ => .error .decodeError

/-- A value that is nested at most as deep as the interpreter follows. -/
def scanValue : ℕ → List Char → Except LoadsError (Json × List Char)
  | _, [] => .error .decodeError
  | limit, c :: text =>
      if c = '"' then do
        let (s, text) ← scanString text
        return (ofText s, text)
      else if c = '[' then
        match limit with
        | 0 => .error .recursionError
        | limit + 1 =>
            match skipBlank text with
            | ']' :: text => .ok (arr [], text)
            | text => scanItems (scanValue limit) text.length [] text
      else if c = '{' then
        match limit with
        | 0 => .error .recursionError
        | limit + 1 =>
            match skipBlank text with
            | '}' :: text => .ok (obj [], text)
            | text => scanFields (scanValue limit) text.length [] text
      else scanScalar (c :: text)

/-- `json.loads(text)`: one value, and nothing after it. -/
def loads (limit : ℕ) (text : String) : Except LoadsError Json := do
  let (v, rest) ← scanValue limit (skipBlank text.toList)
  if skipBlank rest = [] then return v else .error .decodeError

/-! ### Strings are read back -/

theorem hexValue_digitChar : ∀ n < 16, hexValue (Nat.digitChar n) = some n := by decide

/-- A code unit is read back. -/
theorem scanCodeUnit_jsonCodeUnit {n : ℕ} (hn : n < 65536) (rest : List Char) :
    scanCodeUnit ((jsonCodeUnit n).drop 2 ++ rest) = some (n, rest) := by
  have hsum : ((n / 4096 % 16 * 16 + n / 256 % 16) * 16 + n / 16 % 16) * 16 + n % 16 = n := by
    omega
  have hdigit : ∀ m : ℕ, hexValue (Nat.digitChar (m % 16)) = some (m % 16) :=
    fun m => hexValue_digitChar _ (Nat.mod_lt _ (by omega))
  simp only [jsonCodeUnit, List.map_cons, List.map_nil, List.drop_succ_cons, List.drop_zero,
    List.cons_append, List.nil_append, scanCodeUnit, hdigit]
  exact congrArg (fun m => some (m, rest)) hsum

/-- The escape of a character is read back. -/
theorem scanEscape_jsonRawChar {c : Char} (h : ¬ (32 ≤ c.toNat ∧ c ≠ '"' ∧ c ≠ '\\')) :
    ∃ escape, jsonRawChar c = '\\' :: escape ∧
      ∀ rest, scanEscape (escape ++ rest) = .ok (some c, rest) := by
  have hshort : ∀ e d : Char, e ≠ 'u' → shortEscapes.lookup e = some d →
      ∀ rest, scanEscape ([e] ++ rest) = .ok (some d, rest) := by
    intro e d hu hd rest
    simp only [List.cons_append, List.nil_append, scanEscape, if_neg hu, hd]
  rw [jsonRawChar, if_neg h, jsonChar]
  split_ifs with h₁ h₂ h₃ h₄ h₅ h₆ h₇ h₈ h₉
  · subst h₁
    exact ⟨_, rfl, hshort _ _ (by decide) (by decide)⟩
  · subst h₂
    exact ⟨_, rfl, hshort _ _ (by decide) (by decide)⟩
  · subst h₃
    exact ⟨_, rfl, hshort _ _ (by decide) (by decide)⟩
  · subst h₄
    exact ⟨_, rfl, hshort _ _ (by decide) (by decide)⟩
  · subst h₅
    exact ⟨_, rfl, hshort _ _ (by decide) (by decide)⟩
  · obtain rfl : c = Char.ofNat 12 := by rw [← h₆, Char.ofNat_toNat]
    exact ⟨_, rfl, hshort _ _ (by decide) (by decide)⟩
  · obtain rfl : c = Char.ofNat 8 := by rw [← h₇, Char.ofNat_toNat]
    exact ⟨_, rfl, hshort _ _ (by decide) (by decide)⟩
  · exact absurd ⟨h₈.1, h₁, h₂⟩ h
  · have hlow : c.toNat < 32 := by
      by_contra hge
      exact h ⟨by omega, h₁, h₂⟩
    refine ⟨'u' :: (jsonCodeUnit c.toNat).drop 2, rfl, ?_⟩
    intro rest
    simp only [List.cons_append, scanEscape, if_true, scanCodeUnit_jsonCodeUnit h₉,
      if_pos (show c.toNat < 55296 ∨ 57343 < c.toNat by omega), Char.ofNat_toNat]
  · exact absurd ⟨by omega, h₁, h₂⟩ h

/-- One character of a string is read back. -/
theorem scanChars_jsonRawChar (c : Char) {fuel : ℕ} {text rest : List Char}
    {s : List (Option Char)} (h : scanChars fuel text = .ok (s, rest)) :
    scanChars (fuel + 1) (jsonRawChar c ++ text) = .ok (some c :: s, rest) := by
  by_cases hraw : 32 ≤ c.toNat ∧ c ≠ '"' ∧ c ≠ '\\'
  · rw [jsonRawChar, if_pos hraw, List.cons_append, List.nil_append, scanChars, if_neg hraw.2.1,
      if_neg hraw.2.2, if_neg (by omega), h]
    rfl
  · obtain ⟨escape, hescape, hscan⟩ := scanEscape_jsonRawChar hraw
    rw [hescape, List.cons_append, scanChars, if_neg (by decide), if_pos rfl, hscan]
    change (do
      let (s, text) ← scanChars fuel text
      return (some c :: s, text)) = _
    rw [h]
    rfl

theorem jsonRawChar_ne_nil (c : Char) : jsonRawChar c ≠ [] := by
  by_cases hraw : 32 ≤ c.toNat ∧ c ≠ '"' ∧ c ≠ '\\'
  · simp [jsonRawChar, hraw]
  · obtain ⟨escape, hescape, -⟩ := scanEscape_jsonRawChar hraw
    simp [hescape]

theorem scanChars_print {s rest : List Char} :
    ∀ {fuel : ℕ}, (s.flatMap jsonRawChar).length < fuel →
      scanChars fuel (s.flatMap jsonRawChar ++ '"' :: rest) = .ok (s.map some, rest) := by
  induction s with
  | nil =>
      intro fuel hfuel
      obtain ⟨fuel, rfl⟩ := Nat.exists_eq_add_of_lt hfuel
      simp [scanChars]
  | cons c s ih =>
      intro fuel hfuel
      have hlen := List.length_pos_iff.2 (jsonRawChar_ne_nil c)
      rw [List.flatMap_cons, List.length_append] at hfuel
      obtain ⟨fuel, rfl⟩ : ∃ k, fuel = k + 1 := ⟨fuel - 1, by omega⟩
      rw [List.flatMap_cons, List.append_assoc]
      exact scanChars_jsonRawChar c (ih (by omega))

/-- **A string is read back.** -/
theorem scanString_print (s : String) (rest : List Char) :
    scanString (s.toList.flatMap jsonRawChar ++ '"' :: rest) = .ok (s.toList.map some, rest) := by
  have hfuel : (s.toList.flatMap jsonRawChar).length
      < (s.toList.flatMap jsonRawChar ++ '"' :: rest).length := by simp
  rw [scanString, scanChars_print hfuel]

@[simp] theorem textOf_map_some (s : String) : textOf (s.toList.map some) = s := by
  rw [textOf, List.map_map]
  simp [Function.comp_def]

@[simp] theorem ofText_map_some (s : String) : ofText (s.toList.map some) = str s := by
  rw [ofText, textOf_map_some, if_pos (by simp)]

/-! ### Numbers are read back -/

/-- What follows a value inside an array or an object, or at the end of the text. -/
def Ends (rest : List Char) : Prop := ∀ c ∈ rest.head?, c = ',' ∨ c = ']' ∨ c = '}'

theorem Ends.nil : Ends [] := nofun

theorem Ends.cons {c : Char} (h : c = ',' ∨ c = ']' ∨ c = '}') (rest : List Char) :
    Ends (c :: rest) := by
  rintro d ⟨⟩
  exact h

theorem Ends.head?_ne {rest : List Char} (h : Ends rest) {c : Char}
    (hc : c ≠ ',' ∧ c ≠ ']' ∧ c ≠ '}') : rest.head? ≠ some c := by
  intro hhead
  rcases h c hhead with rfl | rfl | rfl
  · exact hc.1 rfl
  · exact hc.2.1 rfl
  · exact hc.2.2 rfl

/-- No digit follows a value. -/
theorem Ends.takeWhile_isDigit {rest : List Char} (h : Ends rest) :
    rest.takeWhile Char.isDigit = [] ∧ rest.dropWhile Char.isDigit = rest := by
  cases rest with
  | nil => exact ⟨rfl, rfl⟩
  | cons c rest =>
      have hc : c.isDigit = false := by
        rcases h c rfl with rfl | rfl | rfl <;> decide
      exact ⟨List.takeWhile_cons_of_neg (by simp [hc]), List.dropWhile_cons_of_neg (by simp [hc])⟩

theorem Ends.scanFraction {rest : List Char} (h : Ends rest) : scanFraction rest = ([], rest) :=
  if_neg fun hdot => h.head?_ne (by decide) hdot.1

theorem Ends.scanExponent {rest : List Char} (h : Ends rest) : scanExponent rest = ([], rest) := by
  refine if_neg ?_
  rintro ⟨hexp | hexp, -⟩
  · exact h.head?_ne (by decide) hexp
  · exact h.head?_ne (by decide) hexp

theorem isDigit_toDigits {n : ℕ} {c : Char} (h : c ∈ Nat.toDigits 10 n) : c.isDigit = true :=
  Nat.isDigit_of_mem_toDigits (by omega) (by omega) h

/-- A positive number does not start with a zero. -/
theorem head?_toDigits {n : ℕ} (hn : 0 < n) : (Nat.toDigits 10 n).head? ≠ some '0' := by
  induction n using Nat.strong_induction_on with
  | _ n ih =>
      rw [Nat.toDigits_eq_if (by omega)]
      split
      · intro h
        have hzero : n.digitChar = '0' := Option.some.inj h
        exact absurd (Nat.digitChar_eq_zero.1 hzero) (by omega)
      · rw [List.head?_append_of_ne_nil _ Nat.toDigits_ne_nil]
        exact ih (n / 10) (by omega) (by omega)

theorem scanWhole_toDigits (n : ℕ) {rest : List Char} (h : Ends rest) :
    scanWhole (Nat.toDigits 10 n ++ rest) = (Nat.toDigits 10 n, rest) := by
  rcases Nat.eq_zero_or_pos n with rfl | hn
  · rw [Nat.toDigits_zero]
    exact if_pos rfl
  · have hhead : (Nat.toDigits 10 n ++ rest).head? ≠ some '0' := by
      rw [List.head?_append_of_ne_nil _ Nat.toDigits_ne_nil]
      exact head?_toDigits hn
    rw [scanWhole, if_neg hhead, List.takeWhile_append_of_pos fun c => isDigit_toDigits,
      List.dropWhile_append_of_pos fun c => isDigit_toDigits, h.takeWhile_isDigit.1,
      h.takeWhile_isDigit.2, List.append_nil]

/-- A number that `int` converts. -/
def ShortInt (n : ℤ) : Prop := (Nat.toDigits 10 n.natAbs).length ≤ maxIntDigits

theorem scanSign_toDigits (n : ℕ) (rest : List Char) :
    scanSign (Nat.toDigits 10 n ++ rest) = ([], Nat.toDigits 10 n ++ rest) := by
  refine if_neg ?_
  rw [List.head?_append_of_ne_nil _ Nat.toDigits_ne_nil]
  intro h
  have hdigit := isDigit_toDigits (List.mem_of_head? h)
  exact absurd hdigit (by decide)

theorem scanNumber_printInt {n : ℤ} (hn : ShortInt n) {rest : List Char} (h : Ends rest) :
    scanNumber (printInt n ++ rest) = .ok (int n, rest) := by
  cases n with
  | ofNat n =>
      have hlen : ¬ maxIntDigits < (Nat.toDigits 10 n).length := not_lt.2 hn
      simp [scanNumber, printInt, scanSign_toDigits, scanWhole_toDigits n h, h.scanFraction,
        h.scanExponent, hlen, Nat.ofDigitChars_toDigits]
  | negSucc n =>
      have hlen : ¬ maxIntDigits < (Nat.toDigits 10 (n + 1)).length := not_lt.2 hn
      have hsign : scanSign ('-' :: (Nat.toDigits 10 (n + 1) ++ rest))
          = (['-'], Nat.toDigits 10 (n + 1) ++ rest) := if_pos rfl
      simp [scanNumber, printInt, hsign, scanWhole_toDigits (n + 1) h, h.scanFraction,
        h.scanExponent, hlen, Nat.ofDigitChars_toDigits, Int.negSucc_eq]

/-- A number starts with a digit, or with a sign and a digit. -/
theorem printInt_cases (n : ℤ) (rest : List Char) : ∃ d text, d.isDigit = true ∧
    (printInt n ++ rest = d :: text ∨ printInt n ++ rest = '-' :: d :: text) := by
  have hdigits : ∀ m : ℕ, ∃ d text, d.isDigit = true ∧ Nat.toDigits 10 m = d :: text := by
    intro m
    obtain ⟨d, text, htext⟩ := List.exists_cons_of_ne_nil (Nat.toDigits_ne_nil (n := m) (b := 10))
    exact ⟨d, text, isDigit_toDigits (htext ▸ List.mem_cons_self), htext⟩
  cases n with
  | ofNat n =>
      obtain ⟨d, text, hd, htext⟩ := hdigits n
      exact ⟨d, text ++ rest, hd, .inl (by simp [printInt, htext])⟩
  | negSucc n =>
      obtain ⟨d, text, hd, htext⟩ := hdigits (n + 1)
      exact ⟨d, text ++ rest, hd, .inr (by simp [printInt, htext])⟩

/-- **A number is read back.** -/
theorem scanScalar_printInt {n : ℤ} (hn : ShortInt n) {rest : List Char} (h : Ends rest) :
    scanScalar (printInt n ++ rest) = .ok (int n, rest) := by
  have hnames : names.find? (fun name => name.1.isPrefixOf (printInt n ++ rest)) = none := by
    have hne : ∀ {c d : Char}, d.isDigit = true → c.isDigit = false → c ≠ d := by
      rintro c _ hd hc rfl
      simp [hc] at hd
    obtain ⟨d, text, hd, htext | htext⟩ := printInt_cases n rest
    · simp [names, htext, List.isPrefixOf, hne hd]
    · simp [names, htext, List.isPrefixOf, hne hd]
  rw [scanScalar, hnames]
  exact scanNumber_printInt hn h

/-! ### Values are read back -/

/-- A value nested at most `d` deep, without fractions and unpaired surrogates, whose objects have
distinct keys and whose numbers `int` converts. -/
def Plain : ℕ → Json → Prop
  | _, float _ => False
  | _, lone _ => False
  | _, int n => ShortInt n
  | d + 1, arr items => ∀ v ∈ items, Plain d v
  | d + 1, obj fields => (fields.map Prod.fst).Nodup ∧ ∀ f ∈ fields, Plain d f.2
  | 0, arr _ => False
  | 0, obj _ => False
  | _, null => True
  | _, bool _ => True
  | _, str _ => True

/-- A value nested less deep may be read with a higher limit. -/
theorem Plain.mono {d : ℕ} : ∀ {e : ℕ} {v : Json}, Plain d v → d ≤ e → Plain e v := by
  induction d with
  | zero =>
      intro e v h _
      cases v with
      | arr items => exact h.elim
      | obj fields => exact h.elim
      | float text => exact h.elim
      | lone text => exact h.elim
      | int n => cases e <;> exact h
      | null => cases e <;> trivial
      | bool b => cases e <;> trivial
      | str s => cases e <;> trivial
  | succ d ih =>
      intro e v h hle
      obtain ⟨e, rfl⟩ : ∃ k, e = k + 1 := ⟨e - 1, by omega⟩
      cases v with
      | arr items => exact fun u hu => ih (h u hu) (by omega)
      | obj fields => exact ⟨h.1, fun f hf => ih (h.2 f hf) (by omega)⟩
      | float text => exact h.elim
      | lone text => exact h.elim
      | int n => exact h
      | null => trivial
      | bool b => trivial
      | str s => trivial

theorem isBlank_of_isDigit {c : Char} (h : c.isDigit = true) : isBlank c = false := by
  have hne : ∀ {d : Char}, d.isDigit = false → c ≠ d := by
    rintro _ hd rfl
    simp [hd] at h
  simp [isBlank, hne]

/-- The text of a value starts with a character of its own. -/
theorem print_cons {d : ℕ} {v : Json} (h : Plain d v) (rest : List Char) :
    ∃ c text, print v ++ rest = c :: text ∧ isBlank c = false ∧ c ≠ ']' ∧ c ≠ '}' := by
  cases v with
  | null => exact ⟨'n', _, rfl, by decide⟩
  | bool b =>
      cases b with
      | true => exact ⟨'t', _, rfl, by decide⟩
      | false => exact ⟨'f', _, rfl, by decide⟩
  | int n =>
      obtain ⟨c, text, hc, htext | htext⟩ := printInt_cases n rest
      · refine ⟨c, text, htext, isBlank_of_isDigit hc, ?_, ?_⟩
        · rintro rfl
          exact absurd hc (by decide)
        · rintro rfl
          exact absurd hc (by decide)
      · exact ⟨'-', _, htext, by decide⟩
  | float text => cases d <;> exact h.elim
  | lone text => cases d <;> exact h.elim
  | str s => exact ⟨'"', _, rfl, by decide⟩
  | arr items => exact ⟨'[', _, rfl, by decide⟩
  | obj fields => exact ⟨'{', _, rfl, by decide⟩

theorem skipBlank_cons {c : Char} (h : isBlank c = false) (text : List Char) :
    skipBlank (c :: text) = c :: text :=
  List.dropWhile_cons_of_neg (by simp [h])

theorem skipBlank_print {d : ℕ} {v : Json} (h : Plain d v) (rest : List Char) :
    skipBlank (print v ++ rest) = print v ++ rest := by
  obtain ⟨c, text, htext, hc, -⟩ := print_cons h rest
  rw [htext, skipBlank_cons hc]

/-- A key that is new goes to the end. -/
theorem setItem_new {fields : List (String × Json)} {k : String} (h : k ∉ fields.map Prod.fst)
    (v : Json) : setItem fields k v = fields ++ [(k, v)] := by
  refine if_neg ?_
  simpa [List.any_eq_true] using h

section Containers

variable {value : List Char → Except LoadsError (Json × List Char)} {d : ℕ}

/-- The items of an array are read back, if its values are. -/
theorem scanItems_print {items : List Json} (hplain : ∀ v ∈ items, Plain d v)
    (hvalue : ∀ v ∈ items, ∀ rest, Ends rest → value (print v ++ rest) = .ok (v, rest))
    (hne : items ≠ []) : ∀ (rest : List Char) (fuel : ℕ) (before : List Json),
      items.length ≤ fuel →
      scanItems value fuel before (printItems items ++ ']' :: rest)
        = .ok (arr (before ++ items), rest) := by
  induction items with
  | nil => exact absurd rfl hne
  | cons v items ih =>
      intro rest fuel before hfuel
      obtain ⟨fuel, rfl⟩ : ∃ k, fuel = k + 1 := ⟨fuel - 1, by simp at hfuel; omega⟩
      have hv := hvalue v List.mem_cons_self
      cases items with
      | nil =>
          have hscan := hv (']' :: rest) (.cons (by decide) rest)
          simp only [printItems, List.isEmpty_nil, if_true, List.append_nil, scanItems, hscan]
          rfl
      | cons w items =>
          have hscan := hv (',' :: (printItems (w :: items) ++ ']' :: rest))
            (.cons (by decide) _)
          have hskip : skipBlank (printItems (w :: items) ++ ']' :: rest)
              = printItems (w :: items) ++ ']' :: rest := by
            rw [printItems, List.append_assoc]
            exact skipBlank_print (hplain w (by simp)) _
          have hrest := ih (fun u hu => hplain u (List.mem_cons_of_mem v hu))
            (fun u hu => hvalue u (List.mem_cons_of_mem v hu)) (by simp) rest fuel
            (before ++ [v]) (by simp at hfuel ⊢; omega)
          rw [printItems, List.isEmpty_cons, if_neg (by decide), List.append_assoc,
            List.cons_append, scanItems, hscan]
          change scanItems value fuel (before ++ [v])
            (skipBlank (printItems (w :: items) ++ ']' :: rest)) = _
          rw [hskip, hrest, List.append_assoc]
          rfl

/-- The items of an object are read back, if its values are. -/
theorem scanFields_print {fields : List (String × Json)} (hplain : ∀ f ∈ fields, Plain d f.2)
    (hvalue : ∀ f ∈ fields, ∀ rest, Ends rest → value (print f.2 ++ rest) = .ok (f.2, rest))
    (hne : fields ≠ []) : ∀ (rest : List Char) (fuel : ℕ) (before : List (String × Json)),
      fields.length ≤ fuel →
      ((before ++ fields).map Prod.fst).Nodup →
        scanFields value fuel before (printFields fields ++ '}' :: rest)
          = .ok (obj (before ++ fields), rest) := by
  induction fields with
  | nil => exact absurd rfl hne
  | cons f fields ih =>
      intro rest fuel before hfuel hnodup
      obtain ⟨fuel, rfl⟩ : ∃ k, fuel = k + 1 := ⟨fuel - 1, by simp at hfuel; omega⟩
      obtain ⟨k, v⟩ := f
      have hv := hvalue (k, v) List.mem_cons_self
      have hskipv : ∀ text, skipBlank (print v ++ text) = print v ++ text :=
        skipBlank_print (hplain (k, v) List.mem_cons_self)
      have hnew : setItem before k v = before ++ [(k, v)] := by
        refine setItem_new ?_ v
        intro hk
        rw [List.map_append, List.nodup_append] at hnodup
        exact hnodup.2.2 k hk k (by simp) rfl
      have hcolon : ∀ text, skipBlank (':' :: text) = ':' :: text :=
        skipBlank_cons (by decide)
      cases fields with
      | nil =>
          have hscan := hv ('}' :: rest) (.cons (by decide) rest)
          simp only [printFields, List.isEmpty_nil, if_true, List.append_nil, List.cons_append,
            List.append_assoc, scanFields, scanString_print]
          simp only [bind, Except.bind, hcolon, hskipv, hscan, textOf_map_some]
          rw [skipBlank_cons (by decide), ← hnew]
          rfl
      | cons g fields =>
          have hscan := hv (',' :: (printFields (g :: fields) ++ '}' :: rest))
            (.cons (by decide) _)
          have hskip : skipBlank (printFields (g :: fields) ++ '}' :: rest)
              = printFields (g :: fields) ++ '}' :: rest := by
            rw [printFields, List.cons_append]
            exact skipBlank_cons (by decide) _
          have hrest := ih (fun u hu => hplain u (List.mem_cons_of_mem _ hu))
            (fun u hu => hvalue u (List.mem_cons_of_mem _ hu)) (by simp) rest fuel
            (before ++ [(k, v)]) (by simp at hfuel ⊢; omega) (by simpa using hnodup)
          rw [printFields, List.isEmpty_cons, if_neg (by decide)]
          simp only [List.cons_append, List.append_assoc, scanFields, scanString_print]
          simp only [bind, Except.bind, hcolon, hskipv, hscan]
          rw [skipBlank_cons (by decide)]
          simp only [textOf_map_some, hskip, hnew, hrest, List.append_assoc]
          rfl

end Containers

theorem length_le_printItems (items : List Json) {d : ℕ} (h : ∀ v ∈ items, Plain d v) :
    items.length ≤ (printItems items).length := by
  induction items with
  | nil => simp
  | cons v items ih =>
      obtain ⟨c, text, htext, -⟩ := print_cons (h v List.mem_cons_self) []
      have hlen := congrArg List.length htext
      have hrest := ih fun u hu => h u (List.mem_cons_of_mem v hu)
      cases items with
      | nil =>
          simp [printItems] at hlen ⊢
          omega
      | cons w items =>
          rw [printItems, List.isEmpty_cons, if_neg (by decide)]
          simp at hlen hrest ⊢
          omega

theorem length_le_printFields (fields : List (String × Json)) :
    fields.length ≤ (printFields fields).length := by
  induction fields with
  | nil => simp
  | cons f fields ih =>
      obtain ⟨k, v⟩ := f
      cases fields with
      | nil => simp [printFields]
      | cons g fields =>
          rw [printFields, List.isEmpty_cons, if_neg (by decide)]
          simp at ih ⊢
          omega

theorem scanValue_scalar (d : ℕ) {c : Char} (h : c ≠ '"' ∧ c ≠ '[' ∧ c ≠ '{')
    (text : List Char) : scanValue d (c :: text) = scanScalar (c :: text) := by
  cases d <;> rw [scanValue, if_neg h.1, if_neg h.2.1, if_neg h.2.2]

theorem scanValue_str (d : ℕ) (s : String) (rest : List Char) :
    scanValue d (print (str s) ++ rest) = .ok (str s, rest) := by
  have htext : print (str s) ++ rest = '"' :: (s.toList.flatMap jsonRawChar ++ '"' :: rest) := by
    simp [print]
  cases d <;>
  · rw [htext, scanValue, if_pos rfl, scanString_print]
    exact congrArg (fun v => Except.ok (v, rest)) (ofText_map_some s)

theorem scanValue_int (d : ℕ) {n : ℤ} (hn : ShortInt n) {rest : List Char} (h : Ends rest) :
    scanValue d (print (int n) ++ rest) = .ok (int n, rest) := by
  have hne : ∀ {c e : Char}, c.isDigit = true → e.isDigit = false → c ≠ e := by
    rintro c _ hc he rfl
    simp [he] at hc
  have hscan := scanScalar_printInt hn h
  rw [print]
  obtain ⟨c, text, hc, htext | htext⟩ := printInt_cases n rest
  · rw [htext] at hscan ⊢
    rw [scanValue_scalar d ⟨hne hc rfl, hne hc rfl, hne hc rfl⟩, hscan]
  · rw [htext] at hscan ⊢
    rw [scanValue_scalar d (by decide), hscan]

/-- **A value is read back**, whatever follows it. -/
theorem scanValue_print {d : ℕ} : ∀ {v : Json} {rest : List Char}, Plain d v → Ends rest →
    scanValue d (print v ++ rest) = .ok (v, rest) := by
  induction d with
  | zero =>
      intro v rest h hrest
      cases v with
      | null => exact scanValue_scalar 0 (by decide) _
      | bool b => cases b <;> exact scanValue_scalar 0 (by decide) _
      | int n => exact scanValue_int 0 h hrest
      | float text => exact h.elim
      | lone text => exact h.elim
      | str s => exact scanValue_str 0 s rest
      | arr items => exact h.elim
      | obj fields => exact h.elim
  | succ d ih =>
      intro v rest h hrest
      cases v with
      | null => exact scanValue_scalar (d + 1) (by decide) _
      | bool b => cases b <;> exact scanValue_scalar (d + 1) (by decide) _
      | int n => exact scanValue_int (d + 1) h hrest
      | float text => exact h.elim
      | lone text => exact h.elim
      | str s => exact scanValue_str (d + 1) s rest
      | arr items =>
          have htext : print (arr items) ++ rest = '[' :: (printItems items ++ ']' :: rest) := by
            simp [print]
          rw [htext, scanValue, if_neg (by decide), if_pos rfl]
          cases items with
          | nil => rfl
          | cons v items =>
              have hscan := scanItems_print h (fun u hu r hr => ih (h u hu) hr) (by simp)
                rest (printItems (v :: items) ++ ']' :: rest).length []
                (by have := length_le_printItems (v :: items) h; simp at this ⊢; omega)
              obtain ⟨c, text, hc, hblank, hclose, -⟩ := print_cons (h v List.mem_cons_self)
                ((if items.isEmpty then [] else ',' :: printItems items) ++ ']' :: rest)
              have hitems : printItems (v :: items) ++ ']' :: rest = c :: text := by
                rw [printItems, List.append_assoc]
                exact hc
              rw [hitems] at hscan ⊢
              rw [skipBlank_cons hblank]
              split
              · next hbracket => exact absurd (List.cons.inj hbracket).1 hclose
              · exact hscan
      | obj fields =>
          have htext : print (obj fields) ++ rest
              = '{' :: (printFields fields ++ '}' :: rest) := by
            simp [print]
          rw [htext, scanValue, if_neg (by decide), if_neg (by decide), if_pos rfl]
          cases fields with
          | nil => rfl
          | cons f fields =>
              have hscan := scanFields_print h.2 (fun u hu r hr => ih (h.2 u hu) hr) (by simp)
                rest (printFields (f :: fields) ++ '}' :: rest).length []
                (by have := length_le_printFields (f :: fields); simp at this ⊢; omega)
                (by simpa using h.1)
              rw [printFields, List.cons_append] at hscan ⊢
              rw [skipBlank_cons (by decide)]
              exact hscan

/-- **What is written is read back.** -/
theorem loads_print {limit : ℕ} {v : Json} (h : Plain limit v) :
    loads limit (String.ofList (print v)) = .ok v := by
  have hskip := skipBlank_print h []
  have hscan := scanValue_print h Ends.nil
  rw [List.append_nil] at hskip hscan
  rw [loads, String.toList_ofList, hskip, hscan]
  rfl

example : (loads 10 "\x7b\"a\": [1, -20, null], \"a\" : true\x7d").toOption.map print =
    some "\x7b\"a\":true\x7d".toList := by decide +kernel

/-! ### Sorted keys -/

theorem sortedItems_eq (items : List Json) : sortedItems items = items.map sorted := by
  induction items with
  | nil => rfl
  | cons v items ih => rw [sortedItems, ih, List.map_cons]

theorem sortedFields_eq (fields : List (String × Json)) :
    sortedFields fields = fields.map fun f => (f.1, sorted f.2) := by
  induction fields with
  | nil => rfl
  | cons f fields ih => rw [sortedFields, ih, List.map_cons]

/-- The items of an object, sorted. -/
theorem sorted_obj_perm (fields : List (String × Json)) :
    ((sortedFields fields).insertionSort keyOrder).Perm
      (fields.map fun f => (f.1, sorted f.2)) := by
  rw [sortedFields_eq]
  exact List.perm_insertionSort keyOrder _

theorem plain_sorted {d : ℕ} : ∀ {v : Json}, Plain d v → Plain d (sorted v) := by
  induction d with
  | zero =>
      intro v h
      cases v with
      | arr items => exact h.elim
      | obj fields => exact h.elim
      | float text => exact h.elim
      | lone text => exact h.elim
      | null => exact h
      | bool b => exact h
      | int n => exact h
      | str s => exact h
  | succ d ih =>
      intro v h
      cases v with
      | arr items =>
          intro v hv
          rw [sortedItems_eq, List.mem_map] at hv
          obtain ⟨w, hw, rfl⟩ := hv
          exact ih (h w hw)
      | obj fields =>
          have hperm := sorted_obj_perm fields
          constructor
          · rw [(hperm.map Prod.fst).nodup_iff, List.map_map]
            exact h.1
          · intro f hf
            obtain ⟨g, hg, rfl⟩ := List.mem_map.1 (hperm.mem_iff.1 hf)
            exact ih (h.2 g hg)
      | float text => exact h.elim
      | lone text => exact h.elim
      | null => exact h
      | bool b => exact h
      | int n => exact h
      | str s => exact h

/-- **What is written with sorted keys is read back**, with its keys sorted. -/
theorem loads_dumps {limit : ℕ} {v : Json} (h : Plain limit v) :
    loads limit (dumps v) = .ok (sorted v) :=
  loads_print (plain_sorted h)

/-! ### The order of keys -/

/-- Equality up to the order of keys. -/
def Same (v w : Json) : Prop := sorted v = sorted w

theorem mem_iff_lookup {fields : List (String × Json)} (h : (fields.map Prod.fst).Nodup)
    {k : String} {v : Json} : (k, v) ∈ fields ↔ fields.lookup k = some v := by
  induction fields with
  | nil => simp
  | cons f fields ih =>
      obtain ⟨k', v'⟩ := f
      rw [List.map_cons, List.nodup_cons] at h
      by_cases hk : k = k'
      · subst hk
        have hnot : (k, v) ∉ fields := fun hmem => h.1 (List.mem_map.2 ⟨(k, v), hmem, rfl⟩)
        simp [hnot, eq_comm]
      · have hbeq : (k == k') = false := by simpa using hk
        rw [List.mem_cons, List.lookup_cons, hbeq, ← ih h.2]
        simp [hk]

/-- A value is found under its key in any order. -/
theorem lookup_of_perm {fields fields' : List (String × Json)} (h : fields.Perm fields')
    (hnodup : (fields.map Prod.fst).Nodup) (k : String) :
    fields.lookup k = fields'.lookup k := by
  have hnodup' : (fields'.map Prod.fst).Nodup := (h.map Prod.fst).nodup_iff.1 hnodup
  ext v
  rw [← mem_iff_lookup hnodup, ← mem_iff_lookup hnodup']
  exact h.mem_iff

theorem lookup_sortedFields (fields : List (String × Json)) (k : String) :
    (fields.map fun f => (f.1, sorted f.2)).lookup k = (fields.lookup k).map sorted := by
  induction fields with
  | nil => rfl
  | cons f fields ih =>
      obtain ⟨k', v⟩ := f
      rw [List.map_cons, List.lookup_cons, List.lookup_cons, ih]
      cases k == k' <;> rfl

/-- An object with its keys sorted has the same keys, and its values sorted under them. -/
theorem sorted_obj (fields : List (String × Json))
    (hnodup : (fields.map Prod.fst).Nodup) :
    ∃ fields', sorted (obj fields) = obj fields' ∧
      (fields'.map Prod.fst).Perm (fields.map Prod.fst) ∧
      ∀ k, fields'.lookup k = (fields.lookup k).map sorted := by
  have hperm := sorted_obj_perm fields
  refine ⟨(sortedFields fields).insertionSort keyOrder, rfl, ?_, ?_⟩
  · have hkeys := hperm.map Prod.fst
    rw [List.map_map] at hkeys
    exact hkeys
  · intro k
    rw [← lookup_sortedFields]
    refine (lookup_of_perm hperm.symm ?_ k).symm
    rw [List.map_map]
    exact hnodup

/-- What is the same as an object is an object with the same keys, and the same values under
them. -/
theorem Same.of_obj {fields : List (String × Json)} {w : Json} (h : Same (obj fields) w)
    (hnodup : (fields.map Prod.fst).Nodup) : ∃ fields', w = obj fields' ∧
      (fields'.map Prod.fst).Perm (fields.map Prod.fst) ∧
      ∀ k, (fields'.lookup k).map sorted = (fields.lookup k).map sorted := by
  cases w with
  | obj fields' =>
      have hsort : (sortedFields fields).insertionSort keyOrder
          = (sortedFields fields').insertionSort keyOrder := by
        simpa [Same, sorted] using h
      have hperm : (fields.map fun f => (f.1, sorted f.2)).Perm
          (fields'.map fun f => (f.1, sorted f.2)) :=
        (sorted_obj_perm fields).symm.trans
          ((List.Perm.of_eq hsort).trans (sorted_obj_perm fields'))
      refine ⟨fields', rfl, ?_, ?_⟩
      · have hkeys := hperm.map Prod.fst
        rw [List.map_map, List.map_map] at hkeys
        exact hkeys.symm
      · intro k
        rw [← lookup_sortedFields, ← lookup_sortedFields]
        refine (lookup_of_perm hperm ?_ k).symm
        rw [List.map_map]
        exact hnodup
  | null => simp [Same, sorted] at h
  | bool b => simp [Same, sorted] at h
  | int n => simp [Same, sorted] at h
  | float text => simp [Same, sorted] at h
  | lone text => simp [Same, sorted] at h
  | str s => simp [Same, sorted] at h
  | arr items => simp [Same, sorted] at h

/-- A value without keys. -/
def Scalar : Json → Prop
  | arr _ | obj _ => False
  | _ => True

theorem sorted_eq_scalar {v w : Json} (hv : Scalar v) : sorted w = v ↔ w = v := by
  cases v <;> cases w <;> simp_all [sorted, Scalar]

/-! ### Size -/

/-- The length of a text in UTF-8. -/
def byteLength (text : List Char) : ℕ := (text.map Char.utf8Size).sum

@[simp] theorem byteLength_nil : byteLength [] = 0 := rfl

@[simp] theorem byteLength_cons (c : Char) (text : List Char) :
    byteLength (c :: text) = c.utf8Size + byteLength text := by
  simp [byteLength]

@[simp] theorem byteLength_append (text text' : List Char) :
    byteLength (text ++ text') = byteLength text + byteLength text' := by
  simp [byteLength]

theorem utf8ByteSize_ofList (text : List Char) :
    (String.ofList text).utf8ByteSize = byteLength text := by
  induction text with
  | nil => rfl
  | cons c text ih =>
      have happend : String.ofList (c :: text) = String.singleton c ++ String.ofList text := by
        rw [← String.toList_inj]
        simp
      rw [happend, String.utf8ByteSize_append, String.utf8ByteSize_singleton, ih, byteLength_cons]

theorem utf8Size_digitChar : ∀ n < 16, (Nat.digitChar n).utf8Size = 1 := by decide

theorem byteLength_jsonCodeUnit (n : ℕ) : byteLength (jsonCodeUnit n) = 6 := by
  have hdigit : ∀ m : ℕ, (Nat.digitChar (m % 16)).utf8Size = 1 :=
    fun m => utf8Size_digitChar _ (Nat.mod_lt _ (by omega))
  simp only [jsonCodeUnit, List.map_cons, List.map_nil, byteLength_cons, byteLength_nil, hdigit]
  rfl

/-- A character takes at most the six bytes of an escaped code unit. -/
theorem byteLength_jsonRawChar (c : Char) : byteLength (jsonRawChar c) ≤ 6 := by
  by_cases hraw : 32 ≤ c.toNat ∧ c ≠ '"' ∧ c ≠ '\\'
  · have hsize := c.utf8Size_le_four
    rw [jsonRawChar, if_pos hraw, byteLength_cons, byteLength_nil]
    omega
  · have hpair : ∀ a b : Char, a.utf8Size = 1 → b.utf8Size = 1 → byteLength [a, b] ≤ 6 := by
      intro a b ha hb
      simp [ha, hb]
    rw [jsonRawChar, if_neg hraw, jsonChar]
    split_ifs with h₁ h₂ h₃ h₄ h₅ h₆ h₇ h₈ h₉
    · exact hpair _ _ rfl rfl
    · exact hpair _ _ rfl rfl
    · exact hpair _ _ rfl rfl
    · exact hpair _ _ rfl rfl
    · exact hpair _ _ rfl rfl
    · exact hpair _ _ rfl rfl
    · exact hpair _ _ rfl rfl
    · have hsize := c.utf8Size_le_four
      rw [byteLength_cons, byteLength_nil]
      omega
    · exact (byteLength_jsonCodeUnit _).le
    · exact absurd ⟨by omega, h₁, h₂⟩ hraw

theorem byteLength_flatMap_jsonRawChar (text : List Char) :
    byteLength (text.flatMap jsonRawChar) ≤ 6 * text.length := by
  induction text with
  | nil => exact le_rfl
  | cons c text ih =>
      have hc := byteLength_jsonRawChar c
      rw [List.flatMap_cons, byteLength_append, List.length_cons]
      omega

theorem byteLength_print_str (s : String) : byteLength (print (str s)) ≤ 6 * s.length + 2 := by
  have hs := byteLength_flatMap_jsonRawChar s.toList
  have hquote : '"'.utf8Size = 1 := rfl
  rw [print, byteLength_cons, byteLength_append, byteLength_cons, byteLength_nil, hquote]
  rw [String.length_toList] at hs
  omega

/-- The items of an object take their keys, their values, and four bytes each for the quotes, the
colon and the comma. -/
theorem byteLength_printFields (fields : List (String × Json)) :
    byteLength (printFields fields)
      ≤ (fields.map fun f => 6 * f.1.length + 4 + byteLength (print f.2)).sum := by
  induction fields with
  | nil => exact le_rfl
  | cons f fields ih =>
      obtain ⟨k, v⟩ := f
      have hk := byteLength_flatMap_jsonRawChar k.toList
      have hquote : '"'.utf8Size = 1 := rfl
      have hcolon : ':'.utf8Size = 1 := rfl
      have hcomma : ','.utf8Size = 1 := rfl
      rw [String.length_toList] at hk
      rw [printFields, List.map_cons, List.sum_cons]
      simp only [byteLength_cons, byteLength_append, hquote, hcolon]
      split
      · simp only [byteLength_nil]
        omega
      · simp only [byteLength_cons, hcomma]
        omega

/-- Sorting moves the items of an object, and no byte is added. -/
theorem byteLength_sorted_obj (fields : List (String × Json)) :
    byteLength (print (sorted (obj fields)))
      ≤ 2 + (fields.map fun f => 6 * f.1.length + 4 + byteLength (print (sorted f.2))).sum := by
  have hitems := byteLength_printFields ((sortedFields fields).insertionSort keyOrder)
  have hsum := ((sorted_obj_perm fields).map
    fun f => 6 * f.1.length + 4 + byteLength (print f.2)).sum_nat
  rw [List.map_map] at hsum
  rw [hsum] at hitems
  have hbrace : '{'.utf8Size = 1 ∧ '}'.utf8Size = 1 := ⟨rfl, rfl⟩
  rw [sorted, print, byteLength_cons, byteLength_append, byteLength_cons, byteLength_nil, hbrace.1,
    hbrace.2]
  change _ ≤ (fields.map fun f =>
    6 * f.1.length + 4 + byteLength (print (sorted f.2))).sum at hitems
  omega

end Json

end Python
