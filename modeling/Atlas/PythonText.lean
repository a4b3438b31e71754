/-
**Python text.**

The text functions of the source are those of Python's `str`.  A `str` is a sequence of code
points, as Lean's `String` is, and its length counts them, as `String.length` does.  What differs
from Lean's own library is which characters count as white space: `str.strip` removes the
characters of `str.isspace`, which are more than the six of `Char.isWhitespace`.

Main definitions:

* `Python.isSpace` — the characters `str.strip()` removes;
* `Python.strip` — `str.strip()`;
* `Python.contains`, `Python.startsWith` — `needle in text` and `text.startswith(prefix)`;
* `Python.jsonString`, `Python.jsonRawString` — a string as `json.dumps` writes it, without and with
  the characters beyond ASCII.

Main results:

* `Python.strip_strip` — stripping twice is stripping once;
* `Python.strip_eq_empty_iff` — only blank texts strip to nothing.
-/

import Mathlib.Algebra.Group.Int.Defs
import Mathlib.Algebra.Group.Nat.Defs
import Mathlib.Algebra.GroupWithZero.Nat
import Mathlib.Data.List.DropRight
import Mathlib.Data.List.Infix
import Mathlib.Data.List.Lex
import Mathlib.Data.List.TakeWhile
import Mathlib.Data.String.Basic

set_option relaxedAutoImplicit false
set_option autoImplicit false

namespace Python

/-- A condition on the characters of a text is decided along the text, never over all of `Char`. -/
instance (priority := high) decidableBallChar {p : Char → Prop} [DecidablePred p] (cs : List Char) :
    Decidable (∀ c ∈ cs, p c) :=
  List.decidableBAll p cs

/-- The characters `str.isspace` accepts: the ASCII controls `\t` to `\r` and `\x1c` to `\x1f`,
the space, and the Unicode separators. -/
def isSpace (c : Char) : Bool :=
  (9 ≤ c.toNat && c.toNat ≤ 13) || (28 ≤ c.toNat && c.toNat ≤ 32) ||
    (8192 ≤ c.toNat && c.toNat ≤ 8202) ||
    [133, 160, 5760, 8232, 8233, 8239, 8287, 12288].contains c.toNat

/-- `str.strip()`. -/
def strip (s : String) : String :=
  String.ofList ((s.toList.dropWhile isSpace).rdropWhile isSpace)

theorem dropWhile_rdropWhile {α : Type} (p : α → Bool) (l : List α) :
    ((l.dropWhile p).rdropWhile p).dropWhile p = (l.dropWhile p).rdropWhile p := by
  rw [List.dropWhile_eq_self_iff]
  intro hl
  have hpre : (l.dropWhile p).rdropWhile p <+: l.dropWhile p := List.rdropWhile_prefix p _
  have hl' : 0 < (l.dropWhile p).length := lt_of_lt_of_le hl hpre.length_le
  rw [hpre.getElem hl]
  exact List.dropWhile_eq_self_iff.1 (List.dropWhile_idempotent p l) hl'

/-- Stripping twice is stripping once. -/
@[simp] theorem strip_strip (s : String) : strip (strip s) = strip s := by
  simp only [strip, String.toList_ofList, dropWhile_rdropWhile, List.rdropWhile_idempotent]

/-- A text without blanks is its own stripped form. -/
theorem strip_eq_self {s : String} (h : ∀ c ∈ s.toList, isSpace c = false) : strip s = s := by
  have hdrop : s.toList.dropWhile isSpace = s.toList := by
    rw [List.dropWhile_eq_self_iff]
    intro hl
    simp [h _ (List.getElem_mem hl)]
  have hrdrop : s.toList.rdropWhile isSpace = s.toList := by
    rw [List.rdropWhile_eq_self_iff]
    intro hl
    simp [h _ (List.getLast_mem hl)]
  rw [strip, hdrop, hrdrop, String.ofList_toList]

/-- Only the blank texts strip to nothing. -/
theorem strip_eq_empty_iff {s : String} : strip s = "" ↔ ∀ c ∈ s.toList, isSpace c = true := by
  rw [strip, String.ofList_eq_empty_iff, List.rdropWhile_eq_nil_iff]
  constructor
  · intro h c hc
    by_contra hns
    rw [← List.takeWhile_append_dropWhile (p := isSpace) (l := s.toList), List.mem_append] at hc
    rcases hc with hc | hc
    · exact hns (List.mem_takeWhile_imp hc)
    · exact hns (h c hc)
  · intro h c hc
    exact h c (List.dropWhile_subset _ hc)

/-- A text is decoded from its encoding. -/
theorem fromUTF8?_toByteArray (s : String) : String.fromUTF8? s.toByteArray = some s := by
  rw [String.fromUTF8?, dif_pos s.isValidUTF8]
  rfl

/-- `needle in text`. -/
def contains (text needle : String) : Bool := needle.toList <:+: text.toList

/-- `text.startswith(start)`. -/
def startsWith (text start : String) : Bool := start.toList.isPrefixOf text.toList

/-- A code unit as `json.dumps` escapes it: four lower-case hexadecimal digits. -/
def jsonCodeUnit (n : ℕ) : List Char :=
  '\\' :: 'u' :: [n / 4096 % 16, n / 256 % 16, n / 16 % 16, n % 16].map Nat.digitChar

/-- A character of a string as `json.dumps` writes it: ASCII only, with the short escapes JSON
has, and a surrogate pair beyond the basic plane. -/
def jsonChar (c : Char) : List Char :=
  if c = '"' then ['\\', '"']
  else if c = '\\' then ['\\', '\\']
  else if c = '\n' then ['\\', 'n']
  else if c = '\r' then ['\\', 'r']
  else if c = '\t' then ['\\', 't']
  else if c.toNat = 12 then ['\\', 'f']
  else if c.toNat = 8 then ['\\', 'b']
  else if 32 ≤ c.toNat ∧ c.toNat ≤ 126 then [c]
  else if c.toNat < 65536 then jsonCodeUnit c.toNat
  else jsonCodeUnit (55296 + (c.toNat - 65536) / 1024) ++
    jsonCodeUnit (56320 + (c.toNat - 65536) % 1024)

/-- A string as `json.dumps` writes it. -/
def jsonString (s : String) : String :=
  String.ofList ('"' :: s.toList.flatMap jsonChar ++ ['"'])

/-- A character of a string as `json.dumps` writes it with `ensure_ascii=False`. -/
def jsonRawChar (c : Char) : List Char :=
  if 32 ≤ c.toNat ∧ c ≠ '"' ∧ c ≠ '\\' then [c] else jsonChar c

/-- A string as `json.dumps` writes it with `ensure_ascii=False`. -/
def jsonRawString (s : String) : String :=
  String.ofList ('"' :: s.toList.flatMap jsonRawChar ++ ['"'])

end Python
