/-
**Normalizing evidence.**

`evidence/normalize.py`: plain text and Markdown.  Newlines are unified, and blanks are collapsed; in
Markdown only empty lines are, and only outside fenced code, which a tracker follows line by line.

Main definitions:

* `Atlas.unifyNewlines`, `Atlas.normalizePlainWhitespace`, `Atlas.normalizeMarkdownText` — the
  passes;
* `Atlas.normalizePlainText`, `Atlas.normalizeMarkdown` — the entry points, on bytes;
* `Atlas.fenceMarks` — the lines of a document, each with whether the tracker is inside a fence;
* `Atlas.KeepsLines` — what normalization keeps of the lines of a document.

Main results:

* `Atlas.normalizePlainWhitespace_idempotent`, `Atlas.normalizeMarkdownText_idempotent` — a second
  pass changes nothing;
* `Atlas.normalizeMarkdownText_eq` — Markdown by its lines;
* `Atlas.normalization_idempotent` — **normalization is idempotent and loses nothing but blanks**.
-/

import Atlas.EvidenceChunk
import Atlas.PythonText
import Mathlib.Data.List.Sublists

set_option relaxedAutoImplicit false
set_option autoImplicit false

/-! ### Lines -/

namespace Python

/-- `text.split("\n")`. -/
def lines (text : List Char) : List (List Char) := text.splitOn '\n'

/-- `"\n".join(ls)`. -/
def unlines (ls : List (List Char)) : List Char := ['\n'].intercalate ls

/-- `text.strip(chars)`, for the characters a predicate accepts. -/
def stripWhile {α : Type} (p : α → Bool) (text : List α) : List α :=
  (text.dropWhile p).rdropWhile p

/-- Neither end of a list is accepted by a predicate. -/
def Stripped {α : Type} (p : α → Bool) (l : List α) : Prop :=
  (∀ a ∈ l.head?, p a = false) ∧ ∀ a ∈ l.getLast?, p a = false

section Strip

variable {α : Type} {p : α → Bool} {l : List α}

theorem stripWhile_eq_self (h : Stripped p l) : stripWhile p l = l := by
  have hdrop : l.dropWhile p = l := by
    rw [List.dropWhile_eq_self_iff]
    intro hl
    simp [h.1 l[0] (by simp [List.head?_eq_getElem?])]
  have hrdrop : l.rdropWhile p = l := by
    rw [List.rdropWhile_eq_self_iff]
    intro hl
    simp [h.2 _ (List.getLast_mem_getLast? hl)]
  rw [stripWhile, hdrop, hrdrop]

theorem stripped_stripWhile (p : α → Bool) (l : List α) : Stripped p (stripWhile p l) := by
  constructor
  · intro a ha
    have hdrop := dropWhile_rdropWhile p l
    rw [List.dropWhile_eq_self_iff] at hdrop
    have hpos : 0 < (stripWhile p l).length := by
      rw [List.length_pos_iff]
      rintro hnil
      rw [hnil] at ha
      cases ha
    have hfirst := hdrop hpos
    rw [List.head?_eq_getElem?, List.getElem?_eq_getElem hpos] at ha
    obtain rfl := Option.some.inj ha
    rw [Bool.not_eq_true] at hfirst
    exact hfirst
  · intro a ha
    have hne : (l.dropWhile p).rdropWhile p ≠ [] := by
      rintro hnil
      rw [stripWhile, hnil] at ha
      cases ha
    have hlast := List.rdropWhile_last_not p _ hne
    rw [stripWhile, List.getLast?_eq_some_getLast hne] at ha
    obtain rfl := Option.some.inj ha
    simpa using hlast

/-- What is stripped off an end the predicate accepts. -/
theorem stripWhile_infix (p : α → Bool) (l : List α) :
    ∃ before after, l = before ++ (stripWhile p l ++ after) ∧ (∀ a ∈ before, p a = true) ∧
      ∀ a ∈ after, p a = true := by
  refine ⟨l.takeWhile p, (l.dropWhile p).rtakeWhile p, ?_, ?_, ?_⟩
  · rw [stripWhile, List.rdropWhile_append_rtakeWhile, List.takeWhile_append_dropWhile]
  · exact fun a ha => List.mem_takeWhile_imp ha
  · exact fun a ha => List.mem_rtakeWhile_imp ha

end Strip

/-- A line has no newline in it. -/
def LineFree (ls : List (List Char)) : Prop := ∀ l ∈ ls, '\n' ∉ l

@[simp] theorem unlines_nil : unlines [] = [] := rfl

@[simp] theorem unlines_singleton (l : List Char) : unlines [l] = l :=
  List.intercalate_singleton

theorem unlines_cons (l : List Char) {ls : List (List Char)} (h : ls ≠ []) :
    unlines (l :: ls) = l ++ '\n' :: unlines ls := by
  rw [unlines, List.intercalate_cons_of_ne_nil h, List.append_assoc]
  rfl

@[simp] theorem unlines_lines (text : List Char) : unlines (lines text) = text :=
  List.intercalate_splitOn '\n'

theorem lines_ne_nil (text : List Char) : lines text ≠ [] := List.splitOn_ne_nil '\n' text

theorem lines_unlines {ls : List (List Char)} (hfree : LineFree ls) (hne : ls ≠ []) :
    lines (unlines ls) = ls :=
  List.splitOn_intercalate '\n' hfree hne

/-- A line stands in its text, before a newline or at the end. -/
theorem unlines_of_mem {l : List Char} {ls : List (List Char)} (h : l ∈ ls) :
    ∃ before after, unlines ls = before ++ (l ++ after) ∧
      (after = [] ∨ ∃ after', after = '\n' :: after') := by
  induction ls with
  | nil => cases h
  | cons l₀ ls ih =>
      rcases List.eq_nil_or_concat ls with rfl | hne
      · obtain rfl : l = l₀ := by simpa using h
        exact ⟨[], [], by simp, .inl rfl⟩
      · have hls : ls ≠ [] := by
          obtain ⟨ls', l', rfl⟩ := hne
          simp
        rw [unlines_cons l₀ hls]
        rcases List.mem_cons.1 h with rfl | h
        · exact ⟨[], '\n' :: unlines ls, by simp, .inr ⟨_, rfl⟩⟩
        · obtain ⟨before, after, heq, hafter⟩ := ih h
          exact ⟨l₀ ++ '\n' :: before, after, by simp [heq], hafter⟩

/-- The characters of a text are its newlines and those of its lines. -/
theorem mem_unlines {c : Char} {ls : List (List Char)} (h : c ∈ unlines ls) :
    c = '\n' ∨ ∃ l ∈ ls, c ∈ l := by
  induction ls with
  | nil => cases h
  | cons l ls ih =>
      by_cases hls : ls = []
      · subst hls
        exact .inr ⟨l, List.mem_cons_self, by simpa using h⟩
      · rw [unlines_cons l hls, List.mem_append, List.mem_cons] at h
        rcases h with h | h | h
        · exact .inr ⟨l, List.mem_cons_self, h⟩
        · exact .inl h
        · rcases ih h with h | ⟨l', hl', h⟩
          · exact .inl h
          · exact .inr ⟨l', List.mem_cons_of_mem _ hl', h⟩

theorem mem_of_mem_lines {c : Char} {l text : List Char} (hl : l ∈ lines text) (hc : c ∈ l) :
    c ∈ text := by
  obtain ⟨before, after, htext, -⟩ := unlines_of_mem hl
  rw [unlines_lines] at htext
  rw [htext]
  simp [hc]

theorem lineFree_lines (text : List Char) : LineFree (lines text) := by
  induction text with
  | nil =>
      intro l hl
      obtain rfl : l = [] := by simpa [lines] using hl
      exact List.not_mem_nil
  | cons c text ih =>
      intro l hl
      rw [lines, List.splitOn_cons_eq_if_modifyHead] at hl
      by_cases hc : c = '\n'
      · rw [if_pos (by simp [hc])] at hl
        rcases List.mem_cons.1 hl with rfl | hl
        · exact List.not_mem_nil
        · exact ih l hl
      · rw [if_neg (by simp [hc])] at hl
        obtain ⟨l₀, ls, hls⟩ := List.exists_cons_of_ne_nil (lines_ne_nil text)
        have hls' : text.splitOn '\n' = l₀ :: ls := hls
        rw [hls', List.modifyHead_cons, List.mem_cons] at hl
        rcases hl with rfl | hl
        · have hfree := ih l₀ (hls ▸ List.mem_cons_self)
          simp [hfree, Ne.symm hc]
        · exact ih l (hls ▸ List.mem_cons_of_mem _ hl)

/-- Leading newlines are leading empty lines. -/
theorem dropWhile_unlines {ls : List (List Char)} (hfree : LineFree ls) :
    (unlines ls).dropWhile (· = '\n') = unlines (ls.dropWhile (· = [])) := by
  induction ls with
  | nil => rfl
  | cons l ls ih =>
      have hfree' : LineFree ls := fun l hl => hfree l (List.mem_cons_of_mem _ hl)
      cases l with
      | nil =>
          rw [List.dropWhile_cons_of_pos (by simp), ← ih hfree']
          by_cases hls : ls = []
          · subst hls
            rfl
          · rw [unlines_cons [] hls, List.nil_append, List.dropWhile_cons_of_pos (by simp)]
      | cons c l =>
          have hc : c ≠ '\n' := fun h => hfree (c :: l) List.mem_cons_self (by simp [h])
          have hhead : ∃ rest, unlines ((c :: l) :: ls) = c :: rest := by
            by_cases hls : ls = []
            · subst hls
              exact ⟨l, unlines_singleton _⟩
            · exact ⟨_, unlines_cons (c :: l) hls⟩
          obtain ⟨rest, hrest⟩ := hhead
          rw [List.dropWhile_cons_of_neg (by simp), hrest, List.dropWhile_cons_of_neg (by simp [hc])]

theorem unlines_concat (l : List Char) {ls : List (List Char)} (h : ls ≠ []) :
    unlines (ls ++ [l]) = unlines ls ++ '\n' :: l := by
  induction ls with
  | nil => exact absurd rfl h
  | cons l₀ ls ih =>
      rw [List.cons_append, unlines_cons l₀ (by simp)]
      by_cases hls : ls = []
      · subst hls
        simp
      · rw [ih hls, unlines_cons l₀ hls, List.append_assoc, List.cons_append]

/-- A text is reversed by reversing its lines and their order. -/
theorem reverse_unlines (ls : List (List Char)) :
    (unlines ls).reverse = unlines (ls.map List.reverse).reverse := by
  induction ls with
  | nil => rfl
  | cons l ls ih =>
      rw [List.map_cons, List.reverse_cons]
      by_cases hls : ls = []
      · subst hls
        simp
      · rw [unlines_cons l hls, unlines_concat _ (by simpa using hls), ← ih]
        simp

/-- Trailing newlines are trailing empty lines. -/
theorem rdropWhile_unlines {ls : List (List Char)} (hfree : LineFree ls) :
    (unlines ls).rdropWhile (· = '\n') = unlines (ls.rdropWhile (· = [])) := by
  have hreverse : LineFree (ls.map List.reverse).reverse := by
    intro l hl
    obtain ⟨l₀, hl₀, rfl⟩ := List.mem_map.1 (List.mem_reverse.1 hl)
    simpa using hfree l₀ hl₀
  have hdrop : ((ls.map List.reverse).reverse.dropWhile (· = [])).reverse.map List.reverse
      = (ls.reverse.dropWhile (· = [])).reverse := by
    rw [← List.map_reverse, List.dropWhile_map, ← List.map_reverse, List.map_map]
    simp [Function.comp_def]
  rw [List.rdropWhile, reverse_unlines, dropWhile_unlines hreverse, reverse_unlines,
    List.rdropWhile, ← hdrop, ← List.map_reverse]

/-- The lines of a document without the empty ones at its ends. -/
def stripLines (ls : List (List Char)) : List (List Char) := stripWhile (· = []) ls

/-- **Newlines at the ends of a document are empty lines there.** -/
theorem stripWhile_unlines {ls : List (List Char)} (hfree : LineFree ls) :
    stripWhile (· = '\n') (unlines ls) = unlines (stripLines ls) := by
  have hfree' : LineFree (ls.dropWhile (· = [])) := fun l hl =>
    hfree l (List.dropWhile_subset _ hl)
  rw [stripWhile, dropWhile_unlines hfree, rdropWhile_unlines hfree', stripLines, stripWhile]

end Python

namespace Atlas

open Python

/-! ### The passes -/

/-- `text.replace("\r\n", "\n")`. -/
def replaceCrLf : List Char → List Char
  | '\r' :: '\n' :: rest => '\n' :: replaceCrLf rest
  | c :: rest => c :: replaceCrLf rest
  | [] => []

/-- `text.replace("\r\n", "\n").replace("\r", "\n")`. -/
def unifyNewlines (text : List Char) : List Char :=
  (replaceCrLf text).map fun c => if c = '\r' then '\n' else c

/-- The characters of `_WHITESPACE_RE`. -/
def isBlankChar (c : Char) : Bool := c = ' ' || c = '\t'

/-- `_WHITESPACE_RE.sub(" ", line)`: every run of blanks becomes a space; `inRun` says whether the
character before was one. -/
def collapseBlanks : Bool → List Char → List Char
  | _, [] => []
  | inRun, c :: rest =>
      if isBlankChar c then
        if inRun then collapseBlanks true rest else ' ' :: collapseBlanks true rest
      else c :: collapseBlanks false rest

/-- `_NEWLINE_RE.sub("\n\n", text)`: of a run of newlines two are left; `run` counts those before. -/
def collapseNewlines : ℕ → List Char → List Char
  | _, [] => []
  | run, c :: rest =>
      if c = '\n' then
        if 2 ≤ run then collapseNewlines (run + 1) rest
        else '\n' :: collapseNewlines (run + 1) rest
      else c :: collapseNewlines 0 rest

/-- A line of plain text. -/
def normalizePlainLine (line : List Char) : List Char :=
  (collapseBlanks false line).rdropWhile isSpace

/-- `_normalize_plain_whitespace`. -/
def normalizePlainWhitespace (text : List Char) : List Char :=
  collapseNewlines 0
    (stripWhile isSpace (unlines ((lines (unifyNewlines text)).map normalizePlainLine)))

/-- `_FENCE_OPEN_RE`: the run of backticks or tildes a line starts with, if it is long enough. -/
def fenceOpen (line : List Char) : Option (List Char) :=
  if 3 ≤ (line.takeWhile (· = '`')).length then some (line.takeWhile (· = '`'))
  else if 3 ≤ (line.takeWhile (· = '~')).length then some (line.takeWhile (· = '~'))
  else none

/-- The marker of the fence after a line inside it: a run of the same character that is as long
closes it, whatever follows. -/
def fenceAfter (marker line : List Char) : Option (List Char) :=
  match fenceOpen line with
  | some closer =>
      if closer.head? = marker.head? ∧ marker.length ≤ closer.length then none else some marker
  | none => some marker

/-- The loop of `_normalize_markdown`: the marker of the open fence, and the empty lines before. -/
def normalizeMarkdownLines : Option (List Char) → ℕ → List (List Char) → List (List Char)
  | _, _, [] => []
  | some marker, _, line :: rest =>
      line :: normalizeMarkdownLines (fenceAfter marker line) 0 rest
  | none, blankRun, line :: rest =>
      match fenceOpen line with
      | some marker => line :: normalizeMarkdownLines (some marker) 0 rest
      | none =>
          if line = [] then
            if blankRun + 1 ≤ 1 then line :: normalizeMarkdownLines none (blankRun + 1) rest
            else normalizeMarkdownLines none (blankRun + 1) rest
          else line :: normalizeMarkdownLines none 0 rest

/-- `_normalize_markdown`. -/
def normalizeMarkdownText (text : List Char) : List Char :=
  unlines (normalizeMarkdownLines none 0 (lines (stripWhile (· = '\n') (unifyNewlines text))))

/-- `MAX_NORMALIZED_TEXT_BYTES`. -/
def maxNormalizedTextBytes : ℕ := 100000

/-- `_decode_raw`. -/
def decodeRaw (raw : ByteArray) : Except EvidenceError String :=
  match String.fromUTF8? raw with
  | some text => .ok text
  | none => .error (.validation "raw bytes must be valid UTF-8")

/-- `_assert_normalized_size`. -/
def assertNormalizedSize (normalized : String) : Except EvidenceError Unit :=
  if normalized.utf8ByteSize = 0 then .error (.validation "normalized text must be non-empty")
  else if maxNormalizedTextBytes < normalized.utf8ByteSize then
    .error (.tooLarge "normalized text exceeds maximum size")
  else .ok ()

/-- `normalize_plain_text`, with the version of its parser. -/
def normalizePlainText (raw : ByteArray) : Except EvidenceError (String × String) := do
  let text ← decodeRaw raw
  let normalized := String.ofList (normalizePlainWhitespace text.toList)
  assertNormalizedSize normalized
  return (normalized, "plain_text.normalize.v1")

/-- `normalize_markdown`, with the version of its parser. -/
def normalizeMarkdown (raw : ByteArray) : Except EvidenceError (String × String) := do
  let text ← decodeRaw raw
  let normalized := String.ofList (normalizeMarkdownText text.toList)
  if strip normalized = "" then
    .error (.validation "normalized markdown must contain non-whitespace")
  else do
    assertNormalizedSize normalized
    return (normalized, "markdown.normalize.v1")

example : String.ofList (normalizeMarkdownText "\n# A\r\n\r\n\r\nb  c\n~~~~\n\n\n~~~~ x\n\n\n".toList)
    = "# A\n\nb  c\n~~~~\n\n\n~~~~ x" := by decide +kernel

/-! ### Newlines -/

section Newlines

variable {text : List Char}

theorem not_mem_unifyNewlines (text : List Char) : '\r' ∉ unifyNewlines text := by
  rw [unifyNewlines, List.mem_map]
  rintro ⟨c, -, hc⟩
  split at hc
  · cases hc
  · next hne => exact hne hc

theorem replaceCrLf_eq_self (h : '\r' ∉ text) : replaceCrLf text = text := by
  induction text with
  | nil => rfl
  | cons c text ih =>
      rw [List.mem_cons, not_or] at h
      rw [replaceCrLf, ih h.2]
      rintro rest rfl
      exact absurd rfl h.1

/-- A text without carriage returns has its newlines unified. -/
theorem unifyNewlines_eq_self (h : '\r' ∉ text) : unifyNewlines text = text := by
  rw [unifyNewlines, replaceCrLf_eq_self h]
  conv_rhs => rw [← List.map_id text]
  refine List.map_congr_left fun c hc => if_neg ?_
  rintro rfl
  exact h hc

end Newlines

/-! ### Markdown by its lines -/

section Markdown

variable {ls : List (List Char)} {marker : Option (List Char)} {blankRun : ℕ}

attribute [local simp] normalizeMarkdownLines

theorem lineFree_stripLines (h : LineFree ls) : LineFree (stripLines ls) := fun l hl =>
  h l (List.dropWhile_subset _ ((List.rdropWhile_prefix _ _).subset hl))

/-- **Markdown is normalized line by line**, without the empty lines at its ends. -/
theorem normalizeMarkdownText_eq (text : List Char) : normalizeMarkdownText text
    = unlines (normalizeMarkdownLines none 0 (stripLines (lines (unifyNewlines text)))) := by
  have hfree := lineFree_lines (unifyNewlines text)
  have hstrip := stripWhile_unlines hfree
  rw [unlines_lines] at hstrip
  rw [normalizeMarkdownText, hstrip]
  by_cases hne : stripLines (lines (unifyNewlines text)) = []
  · rw [hne]
    decide
  · rw [lines_unlines (lineFree_stripLines hfree) hne]

/-- The loop leaves lines out and changes none. -/
theorem normalizeMarkdownLines_sublist (marker : Option (List Char)) (blankRun : ℕ)
    (ls : List (List Char)) : (normalizeMarkdownLines marker blankRun ls).Sublist ls := by
  induction ls generalizing marker blankRun with
  | nil => simp
  | cons line ls ih =>
      cases marker with
      | some marker => exact (ih _ _).cons_cons line
      | none =>
          rw [normalizeMarkdownLines]
          split
          · exact (ih _ _).cons_cons line
          · split
            · split
              · exact (ih _ _).cons_cons line
              · exact (ih _ _).cons line
            · exact (ih _ _).cons_cons line

/-- A document that ends with a line that is not empty still does. -/
theorem getLast?_normalizeMarkdownLines {last : List Char} (hlast : last ≠ [])
    (marker : Option (List Char)) (blankRun : ℕ) (h : ls.getLast? = some last) :
    (normalizeMarkdownLines marker blankRun ls).getLast? = some last := by
  induction ls generalizing marker blankRun with
  | nil => cases h
  | cons line ls ih =>
      by_cases hls : ls = []
      · subst hls
        obtain rfl : line = last := by simpa using h
        cases marker with
        | some marker => rfl
        | none =>
            rw [normalizeMarkdownLines]
            split
            · rfl
            · rw [if_neg hlast]
              rfl
      · have hrest : ls.getLast? = some last := by
          rw [List.getLast?_cons, Option.some.injEq] at h
          obtain ⟨l, hl⟩ := Option.isSome_iff_exists.1 (List.getLast?_isSome.2 hls)
          rw [hl] at h ⊢
          exact congrArg some h
        have hcons : ∀ (marker : Option (List Char)) (blankRun : ℕ),
            (line :: normalizeMarkdownLines marker blankRun ls).getLast? = some last := by
          intro marker blankRun
          rw [List.getLast?_cons, ih marker blankRun hrest]
          rfl
        cases marker with
        | some marker => exact hcons _ _
        | none =>
            rw [normalizeMarkdownLines]
            split
            · exact hcons _ _
            · split
              · split
                · exact hcons _ _
                · exact ih _ _ hrest
              · exact hcons _ _

/-- A document that starts with a line that is not empty still does. -/
theorem head?_normalizeMarkdownLines {first : List Char} (hfirst : first ≠ [])
    (h : ls.head? = some first) :
    (normalizeMarkdownLines none 0 ls).head? = some first := by
  cases ls with
  | nil => cases h
  | cons line ls =>
      obtain rfl : line = first := by simpa using h
      rw [normalizeMarkdownLines]
      split
      · rfl
      · rw [if_neg hfirst]
        rfl

/-- The empty lines before an empty one matter only in being there. -/
theorem normalizeMarkdownLines_blankRun (hrun : 1 ≤ blankRun) (ls : List (List Char)) :
    normalizeMarkdownLines none blankRun ls = normalizeMarkdownLines none 1 ls := by
  induction ls generalizing blankRun with
  | nil => simp
  | cons line ls ih =>
      rw [normalizeMarkdownLines, normalizeMarkdownLines]
      split
      · rfl
      · split
        · rw [if_neg (by omega), if_neg (by omega), ih (by omega : 1 ≤ blankRun + 1),
            ih (by omega : 1 ≤ 1 + 1)]
        · rfl

/-- A second pass over lines changes nothing. -/
theorem normalizeMarkdownLines_idempotent (marker : Option (List Char)) (blankRun : ℕ)
    (ls : List (List Char)) :
    normalizeMarkdownLines marker blankRun (normalizeMarkdownLines marker blankRun ls)
      = normalizeMarkdownLines marker blankRun ls := by
  induction ls generalizing marker blankRun with
  | nil => simp
  | cons line ls ih =>
      cases marker with
      | some marker =>
          rw [normalizeMarkdownLines, normalizeMarkdownLines, ih]
      | none =>
          rw [normalizeMarkdownLines]
          cases hopen : fenceOpen line with
          | some marker =>
              simp only [normalizeMarkdownLines, hopen, ih]
          | none =>
              by_cases hline : line = []
              · simp only [if_pos hline]
                by_cases hrun : blankRun + 1 ≤ 1
                · simp only [if_pos hrun, normalizeMarkdownLines, hopen, if_pos hline, ih]
                · have h₁ := normalizeMarkdownLines_blankRun (by omega : 1 ≤ blankRun)
                  have h₂ := normalizeMarkdownLines_blankRun (by omega : 1 ≤ blankRun + 1)
                  have hone := ih none 1
                  rw [if_neg hrun, h₁, h₂, hone]
              · simp only [if_neg hline, normalizeMarkdownLines, hopen, ih]

/-- What the loop leaves has no empty lines at its ends, if it had none before. -/
theorem stripped_normalizeMarkdownLines (h : Stripped (· = []) ls) :
    Stripped (· = []) (normalizeMarkdownLines none 0 ls) := by
  by_cases hls : ls = []
  · subst hls
    exact ⟨nofun, nofun⟩
  · obtain ⟨first, hfirst⟩ : ∃ a, ls.head? = some a := ⟨_, List.head?_eq_some_head hls⟩
    obtain ⟨last, hlast⟩ : ∃ a, ls.getLast? = some a := ⟨_, List.getLast?_eq_some_getLast hls⟩
    have hfirst' : first ≠ [] := by simpa using h.1 first hfirst
    have hlast' : last ≠ [] := by simpa using h.2 last hlast
    constructor
    · rw [head?_normalizeMarkdownLines hfirst' hfirst]
      rintro _ ⟨⟩
      simpa using hfirst'
    · rw [getLast?_normalizeMarkdownLines hlast' none 0 hlast]
      rintro _ ⟨⟩
      simpa using hlast'

/-- The lines of a normalized document. -/
theorem lines_normalizeMarkdownText (text : List Char) :
    stripLines (lines (unifyNewlines (normalizeMarkdownText text)))
      = normalizeMarkdownLines none 0 (stripLines (lines (unifyNewlines text))) := by
  obtain ⟨out, hout⟩ : ∃ out,
      out = normalizeMarkdownLines none 0 (stripLines (lines (unifyNewlines text))) := ⟨_, rfl⟩
  have hsub : out.Sublist (lines (unifyNewlines text)) := by
    obtain ⟨before, after, hlines, -, -⟩ :=
      stripWhile_infix (· = []) (lines (unifyNewlines text))
    rw [hout]
    refine (normalizeMarkdownLines_sublist none 0 _).trans ?_
    conv_rhs => rw [hlines]
    exact ((List.sublist_append_left _ _).trans (List.sublist_append_right _ _))
  have hfree : LineFree out := fun l hl => lineFree_lines _ l (hsub.subset hl)
  have hreturn : '\r' ∉ unlines out := by
    intro h
    rcases mem_unlines h with h | ⟨l, hl, h⟩
    · cases h
    · exact not_mem_unifyNewlines text (mem_of_mem_lines (hsub.subset hl) h)
  rw [normalizeMarkdownText_eq, ← hout, unifyNewlines_eq_self hreturn]
  by_cases hne : out = []
  · rw [hne]
    decide
  · rw [lines_unlines hfree hne, hout]
    exact stripWhile_eq_self (stripped_normalizeMarkdownLines (stripped_stripWhile _ _))

/-- **A second pass over Markdown changes nothing.** -/
theorem normalizeMarkdownText_idempotent (text : List Char) :
    normalizeMarkdownText (normalizeMarkdownText text) = normalizeMarkdownText text := by
  rw [normalizeMarkdownText_eq (normalizeMarkdownText text), lines_normalizeMarkdownText,
    normalizeMarkdownLines_idempotent, ← normalizeMarkdownText_eq]

end Markdown

/-! ### What is kept -/

/-- The lines of a document, each with whether the tracker is inside a fence when it reads it: after
its opening line, and up to its closing line or the end. -/
def fenceMarks : Option (List Char) → List (List Char) → List (List Char × Bool)
  | _, [] => []
  | some marker, line :: rest => (line, true) :: fenceMarks (fenceAfter marker line) rest
  | none, line :: rest => (line, false) :: fenceMarks (fenceOpen line) rest

/-- A line that is not empty, or that is inside a fence. -/
def isKept (line : List Char × Bool) : Bool := line.1 ≠ [] || line.2

/-- Two empty lines outside fences. -/
def EmptyTwice (line next : List Char × Bool) : Prop := line = ([], false) ∧ next = ([], false)

/-- What normalization keeps of the lines of a document: the lines that are not empty and the lines
inside fences, in their order, except empty lines that end the document; and it leaves no two empty
lines one after the other outside fences. -/
structure KeepsLines (unified normalized : List (List Char)) : Prop where
  nonEmpty : normalized.filter (· ≠ []) = unified.filter (· ≠ [])
  fenced : ∃ k, (fenceMarks none unified).filter isKept
    = (fenceMarks none normalized).filter isKept ++ List.replicate k ([], true)
  noRuns : (fenceMarks none normalized).IsChain fun line next => ¬ EmptyTwice line next

section Kept

variable {ls : List (List Char)}

attribute [local simp] fenceMarks

theorem fenceOpen_nil : fenceOpen [] = none := rfl

theorem fenceMarks_map_fst (marker : Option (List Char)) (ls : List (List Char)) :
    (fenceMarks marker ls).map Prod.fst = ls := by
  induction ls generalizing marker with
  | nil => simp
  | cons line ls ih => cases marker <;> rw [fenceMarks, List.map_cons, ih]

/-- The lines the loop leaves out are empty, and outside fences. -/
theorem filter_fenceMarks (marker : Option (List Char)) (blankRun : ℕ) (ls : List (List Char)) :
    (fenceMarks marker (normalizeMarkdownLines marker blankRun ls)).filter isKept
      = (fenceMarks marker ls).filter isKept := by
  induction ls generalizing marker blankRun with
  | nil => cases marker <;> rfl
  | cons line ls ih =>
      cases marker with
      | some marker =>
          rw [normalizeMarkdownLines, fenceMarks, fenceMarks, List.filter_cons, List.filter_cons, ih]
      | none =>
          rw [normalizeMarkdownLines, fenceMarks.eq_3]
          cases hopen : fenceOpen line with
          | some marker =>
              simp only []
              rw [fenceMarks, hopen, List.filter_cons, List.filter_cons, ih]
          | none =>
              have hcons : ∀ blankRun, (fenceMarks none
                  (line :: normalizeMarkdownLines none blankRun ls)).filter isKept
                    = ((line, false) :: fenceMarks none ls).filter isKept := by
                intro blankRun
                rw [fenceMarks, hopen, List.filter_cons, List.filter_cons, ih]
              simp only []
              split
              · next hline =>
                split
                · exact hcons _
                · rw [ih, List.filter_cons_of_neg (by simp [isKept, hline])]
              · exact hcons _

/-- After an empty line outside fences the loop leaves none. -/
theorem isChain_fenceMarks (marker : Option (List Char)) (blankRun : ℕ) (ls : List (List Char)) :
    ((fenceMarks marker (normalizeMarkdownLines marker blankRun ls)).IsChain
      fun line next => ¬ EmptyTwice line next) ∧
    (marker = none → 1 ≤ blankRun →
      (fenceMarks none (normalizeMarkdownLines none blankRun ls)).head? ≠ some ([], false)) := by
  have hcons : ∀ {line : List Char × Bool} {rest : List (List Char × Bool)},
      (line = ([], false) → rest.head? ≠ some ([], false)) →
        (rest.IsChain fun line next => ¬ EmptyTwice line next) →
          (line :: rest).IsChain fun line next => ¬ EmptyTwice line next := by
    intro line rest hnot hrest
    rw [List.isChain_cons]
    refine ⟨?_, hrest⟩
    rintro next hnext ⟨hline, rfl⟩
    exact hnot hline hnext
  induction ls generalizing marker blankRun with
  | nil =>
      refine ⟨?_, fun _ _ => nofun⟩
      cases marker <;> exact List.IsChain.nil
  | cons line ls ih =>
      cases marker with
      | some marker =>
          rw [normalizeMarkdownLines, fenceMarks]
          exact ⟨hcons (by simp) (ih _ _).1, nofun⟩
      | none =>
          have hsame := ih none (blankRun + 1)
          rw [normalizeMarkdownLines]
          cases hopen : fenceOpen line with
          | some marker =>
              have hline : line ≠ [] := by
                rintro rfl
                cases hopen
              simp only []
              rw [fenceMarks, hopen]
              exact ⟨hcons (by simp [hline]) (ih _ _).1, fun _ _ => by simp [hline]⟩
          | none =>
              simp only []
              split
              · next hline =>
                split
                · rw [fenceMarks, hopen]
                  exact ⟨hcons (fun _ => hsame.2 rfl (by omega)) hsame.1, fun _ _ => by omega⟩
                · exact ⟨hsame.1, fun _ _ => hsame.2 rfl (by omega)⟩
              · next hline =>
                rw [fenceMarks, hopen]
                exact ⟨hcons (by simp [hline]) (ih _ _).1, fun _ _ => by simp [hline]⟩

/-- Empty lines leave the tracker where it is. -/
theorem fenceMarks_empty (marker : Option (List Char)) {ls : List (List Char)}
    (h : ∀ l ∈ ls, decide (l = []) = true) :
    fenceMarks marker ls = List.replicate ls.length ([], marker.isSome) := by
  induction ls with
  | nil => simp
  | cons line ls ih =>
      obtain rfl : line = [] := by simpa using h line List.mem_cons_self
      have hrest := ih fun l hl => h l (List.mem_cons_of_mem _ hl)
      cases marker with
      | some marker =>
          rw [fenceMarks, fenceAfter, fenceOpen_nil]
          exact congrArg _ hrest
      | none =>
          rw [fenceMarks, fenceOpen_nil]
          exact congrArg _ hrest

/-- The tracker goes on from where it is. -/
theorem fenceMarks_append (marker : Option (List Char)) (ls ls' : List (List Char)) :
    ∃ marker', fenceMarks marker (ls ++ ls') = fenceMarks marker ls ++ fenceMarks marker' ls' ∧
      ((∀ l ∈ ls, decide (l = []) = true) → marker' = marker) := by
  induction ls generalizing marker with
  | nil => exact ⟨marker, by cases marker <;> rfl, fun _ => rfl⟩
  | cons line ls ih =>
      cases marker with
      | some marker =>
          obtain ⟨marker', heq, hempty⟩ := ih (fenceAfter marker line)
          refine ⟨marker', by rw [List.cons_append, fenceMarks, heq, fenceMarks]; rfl, fun h => ?_⟩
          obtain rfl : line = [] := by simpa using h line List.mem_cons_self
          rw [hempty fun l hl => h l (List.mem_cons_of_mem _ hl), fenceAfter, fenceOpen_nil]
      | none =>
          obtain ⟨marker', heq, hempty⟩ := ih (fenceOpen line)
          refine ⟨marker', by rw [List.cons_append, fenceMarks, heq, fenceMarks]; rfl, fun h => ?_⟩
          obtain rfl : line = [] := by simpa using h line List.mem_cons_self
          rw [hempty fun l hl => h l (List.mem_cons_of_mem _ hl), fenceOpen_nil]

/-- Stripping a document leaves out empty lines, which are outside fences before its first line. -/
theorem filter_fenceMarks_stripLines (ls : List (List Char)) :
    ∃ k, (fenceMarks none ls).filter isKept
      = (fenceMarks none (stripLines ls)).filter isKept ++ List.replicate k ([], true) := by
  obtain ⟨before, after, hls, hbefore, hafter⟩ := stripWhile_infix (· = []) ls
  obtain ⟨marker, hmarks, hmarker⟩ := fenceMarks_append none before (stripLines ls ++ after)
  obtain rfl := hmarker hbefore
  obtain ⟨marker, hmarks', -⟩ := fenceMarks_append none (stripLines ls) after
  have hfilter : ∃ k, (fenceMarks marker after).filter isKept = List.replicate k ([], true) := by
    rw [fenceMarks_empty marker hafter]
    cases marker with
    | some marker => exact ⟨after.length, by simp [isKept]⟩
    | none => exact ⟨0, by simp [isKept]⟩
  obtain ⟨k, hk⟩ := hfilter
  refine ⟨k, ?_⟩
  conv_lhs => rw [hls]
  change (fenceMarks none (before ++ (stripLines ls ++ after))).filter isKept = _
  rw [hmarks, hmarks', fenceMarks_empty none hbefore, List.filter_append, List.filter_append, hk]
  simp [isKept]

/-- The lines that are not empty are among those kept. -/
theorem filter_nonEmpty (ls : List (List Char)) : ls.filter (· ≠ [])
    = (((fenceMarks none ls).filter isKept).filter fun line => line.1 ≠ []).map Prod.fst := by
  have hboth : (fun line : List Char × Bool => decide (line.1 ≠ []) && isKept line)
      = (fun line => decide (line ≠ [])) ∘ Prod.fst := by
    funext line
    simp only [isKept, Function.comp_apply]
    cases decide (line.1 ≠ []) <;> rfl
  rw [List.filter_filter, hboth, ← List.filter_map, fenceMarks_map_fst]

/-- **Normalized Markdown keeps its lines.** -/
theorem keepsLines_normalizeMarkdownText (text : List Char) :
    KeepsLines (lines (unifyNewlines text)) (lines (normalizeMarkdownText text)) := by
  obtain ⟨out, hout⟩ : ∃ out,
      out = normalizeMarkdownLines none 0 (stripLines (lines (unifyNewlines text))) := ⟨_, rfl⟩
  have hlines : lines (normalizeMarkdownText text) = out ∨
      out = [] ∧ lines (normalizeMarkdownText text) = [[]] := by
    have hfree : LineFree out := fun l hl => lineFree_stripLines (lineFree_lines _) l
      ((hout ▸ normalizeMarkdownLines_sublist none 0 _).subset hl)
    rw [normalizeMarkdownText_eq, ← hout]
    by_cases hne : out = []
    · exact .inr ⟨hne, by rw [hne]; decide⟩
    · exact .inl (lines_unlines hfree hne)
  have hmarks : (fenceMarks none (lines (normalizeMarkdownText text))).filter isKept
      = (fenceMarks none (stripLines (lines (unifyNewlines text)))).filter isKept := by
    rw [← filter_fenceMarks none 0 (stripLines _), ← hout]
    rcases hlines with hlines | ⟨hnil, hlines⟩
    · rw [hlines]
    · rw [hlines, hnil]
      decide
  obtain ⟨k, hk⟩ := filter_fenceMarks_stripLines (lines (unifyNewlines text))
  constructor
  case nonEmpty =>
    rw [filter_nonEmpty, filter_nonEmpty, hk, hmarks, List.filter_append, List.map_append]
    simp
  case fenced => exact ⟨k, by rw [hk, hmarks]⟩
  case noRuns =>
    rcases hlines with hlines | ⟨-, hlines⟩
    · rw [hlines, hout]
      exact (isChain_fenceMarks none 0 _).1
    · rw [hlines]
      exact List.IsChain.singleton _

end Kept

/-! ### Size -/

/-- Fewer lines are no longer. -/
theorem length_unlines_le {ls' ls : List (List Char)} (h : ls'.Sublist ls) :
    (unlines ls').length ≤ (unlines ls).length := by
  induction h with
  | slnil => exact le_rfl
  | @cons ls' ls line hsub ih =>
      by_cases hls : ls = []
      · subst hls
        obtain rfl := List.sublist_nil.1 hsub
        exact Nat.zero_le _
      · rw [unlines_cons line hls, List.length_append, List.length_cons]
        omega
  | @cons_cons ls' ls line hsub ih =>
      by_cases hls' : ls' = []
      · subst hls'
        by_cases hls : ls = []
        · subst hls
          exact le_rfl
        · rw [unlines_cons line hls, unlines_singleton, List.length_append]
          omega
      · have hls : ls ≠ [] := by
          rintro rfl
          exact hls' (List.sublist_nil.1 hsub)
        rw [unlines_cons line hls, unlines_cons line hls', List.length_append, List.length_append,
          List.length_cons, List.length_cons]
        omega

theorem length_normalizeMarkdownText_le (text : List Char) :
    (normalizeMarkdownText text).length ≤ (unifyNewlines text).length := by
  obtain ⟨before, after, hlines, -, -⟩ := stripWhile_infix (· = []) (lines (unifyNewlines text))
  have hsub : (stripLines (lines (unifyNewlines text))).Sublist (lines (unifyNewlines text)) := by
    conv_rhs => rw [hlines]
    exact (List.sublist_append_left _ _).trans (List.sublist_append_right _ _)
  have hlength := length_unlines_le
    ((normalizeMarkdownLines_sublist none 0 (stripLines (lines (unifyNewlines text)))).trans hsub)
  rw [unlines_lines] at hlength
  rw [normalizeMarkdownText_eq]
  exact hlength

/-! ### Plain text -/

section Blanks

variable {line : List Char}

attribute [local simp] collapseBlanks

/-- Not both characters are spaces. -/
def SpacesApart (c d : Char) : Prop := ¬ (c = ' ' ∧ d = ' ')

theorem mem_collapseBlanks {inRun : Bool} {c : Char} (h : c ∈ collapseBlanks inRun line) :
    c = ' ' ∨ c ∈ line ∧ c ≠ '\t' := by
  induction line generalizing inRun with
  | nil => cases h
  | cons d line ih =>
      have hrest : c ∈ line ∧ c ≠ '\t' → c ∈ d :: line ∧ c ≠ '\t' := fun h =>
        ⟨List.mem_cons_of_mem d h.1, h.2⟩
      rw [collapseBlanks] at h
      split at h
      · split at h
        · exact (ih h).imp id hrest
        · rcases List.mem_cons.1 h with h | h
          · exact .inl h
          · exact (ih h).imp id hrest
      · next hblank =>
        rcases List.mem_cons.1 h with rfl | h
        · exact .inr ⟨List.mem_cons_self, by rintro rfl; exact hblank rfl⟩
        · exact (ih h).imp id hrest

/-- Of every run of blanks one space is left. -/
theorem isChain_collapseBlanks (inRun : Bool) (line : List Char) :
    (collapseBlanks inRun line).IsChain SpacesApart ∧
      (inRun = true → (collapseBlanks inRun line).head? ≠ some ' ') := by
  induction line generalizing inRun with
  | nil => exact ⟨List.IsChain.nil, fun _ => nofun⟩
  | cons d line ih =>
      rw [collapseBlanks]
      split
      · split
        · next hrun => exact ⟨(ih true).1, fun _ => (ih true).2 rfl⟩
        · next hrun =>
          refine ⟨List.isChain_cons.2 ⟨?_, (ih true).1⟩, fun h => absurd h hrun⟩
          rintro e he ⟨-, rfl⟩
          exact (ih true).2 rfl he
      · next hblank =>
        have hd : d ≠ ' ' := by
          rintro rfl
          exact hblank rfl
        refine ⟨List.isChain_cons.2 ⟨fun e _ h => hd h.1, (ih false).1⟩, fun _ => ?_⟩
        simpa using hd

/-- A line whose spaces are apart is left as it is. -/
theorem collapseBlanks_eq_self (htab : '\t' ∉ line) (happart : line.IsChain SpacesApart)
    (inRun : Bool) (hhead : inRun = true → line.head? ≠ some ' ') :
    collapseBlanks inRun line = line := by
  induction line generalizing inRun with
  | nil => simp
  | cons d line ih =>
      rw [List.mem_cons, not_or] at htab
      obtain ⟨hnext, hrest⟩ := List.isChain_cons.1 happart
      rw [collapseBlanks]
      split
      · next hblank =>
        have hd : d = ' ' := by
          rw [isBlankChar, Bool.or_eq_true, decide_eq_true_eq, decide_eq_true_eq] at hblank
          exact hblank.resolve_right (Ne.symm htab.1)
        subst hd
        rw [if_neg fun hrun => hhead hrun rfl, ih htab.2 hrest true fun _ h => hnext ' ' h ⟨rfl, rfl⟩]
      · rw [ih htab.2 hrest false nofun]

end Blanks

section NewlineRuns

variable {text : List Char} {R : Char → Char → Prop}

attribute [local simp] collapseNewlines

theorem mem_collapseNewlines {run : ℕ} {c : Char} (h : c ∈ collapseNewlines run text) :
    c ∈ text := by
  induction text generalizing run with
  | nil => cases h
  | cons d text ih =>
      rw [collapseNewlines] at h
      split at h
      · next hd =>
        split at h
        · exact List.mem_cons_of_mem d (ih h)
        · rcases List.mem_cons.1 h with rfl | h
          · exact hd ▸ List.mem_cons_self
          · exact List.mem_cons_of_mem d (ih h)
      · rcases List.mem_cons.1 h with rfl | h
        · exact List.mem_cons_self
        · exact List.mem_cons_of_mem d (ih h)

/-- Newlines are left out next to newlines only, so neighbours stay neighbours. -/
theorem isChain_cons_collapseNewlines {run : ℕ} {c : Char} (hrun : 1 ≤ run → c = '\n')
    (h : (c :: text).IsChain R) : (c :: collapseNewlines run text).IsChain R := by
  induction text generalizing run c with
  | nil => exact h
  | cons d text ih =>
      rw [List.isChain_cons_cons] at h
      rw [collapseNewlines]
      split
      · next hd =>
        subst hd
        split
        · obtain rfl := hrun (by omega)
          exact ih (fun _ => rfl) h.2
        · exact List.isChain_cons_cons.2 ⟨h.1, ih (fun _ => rfl) h.2⟩
      · exact List.isChain_cons_cons.2 ⟨h.1, ih (by omega) h.2⟩

theorem isChain_collapseNewlines (h : text.IsChain R) : (collapseNewlines 0 text).IsChain R := by
  cases text with
  | nil => exact h
  | cons c text =>
      rw [collapseNewlines]
      split
      · next hc =>
        subst hc
        exact isChain_cons_collapseNewlines (fun _ => rfl) h
      · exact isChain_cons_collapseNewlines (by omega) h

theorem collapseNewlines_run {run : ℕ} (hrun : 2 ≤ run) (text : List Char) :
    collapseNewlines run text = collapseNewlines 2 text := by
  induction text generalizing run with
  | nil => simp
  | cons c text ih =>
      rw [collapseNewlines, collapseNewlines, if_pos hrun, if_pos le_rfl,
        ih (by omega : 2 ≤ run + 1), ih (by omega : 2 ≤ 2 + 1)]

theorem collapseNewlines_idempotent (run : ℕ) (text : List Char) :
    collapseNewlines run (collapseNewlines run text) = collapseNewlines run text := by
  induction text generalizing run with
  | nil => simp
  | cons c text ih =>
      rw [collapseNewlines]
      split
      · split
        · next hrun =>
          rw [collapseNewlines_run hrun, collapseNewlines_run (by omega : 2 ≤ run + 1), ih]
        · next hrun => rw [collapseNewlines, if_pos rfl, if_neg hrun, ih]
      · next hc => rw [collapseNewlines, if_neg hc, ih]

/-- The end of a text that does not end with a newline stays. -/
theorem getLast?_collapseNewlines {c : Char} (hc : c ≠ '\n') {run : ℕ}
    (h : text.getLast? = some c) : (collapseNewlines run text).getLast? = some c := by
  induction text generalizing run with
  | nil => cases h
  | cons d text ih =>
      rw [collapseNewlines]
      by_cases htext : text = []
      · subst htext
        obtain rfl : d = c := by simpa using h
        rw [if_neg hc]
        rfl
      · have hrest : text.getLast? = some c := by
          rw [List.getLast?_cons, List.getLast?_eq_some_getLast htext] at h
          rw [List.getLast?_eq_some_getLast htext]
          exact h
        split
        · split
          · exact ih hrest
          · rw [List.getLast?_cons, ih hrest]
            rfl
        · rw [List.getLast?_cons, ih hrest]
          rfl

/-- A text without white space at its ends has none after its newlines are collapsed. -/
theorem stripped_collapseNewlines (h : Stripped isSpace text) :
    Stripped isSpace (collapseNewlines 0 text) := by
  by_cases htext : text = []
  · subst htext
    exact ⟨nofun, nofun⟩
  · have hnewline : ∀ {c : Char}, isSpace c = false → c ≠ '\n' := by
      rintro _ hc rfl
      cases hc
    constructor
    · cases text with
      | nil => exact absurd rfl htext
      | cons c text =>
          have hc := h.1 c rfl
          rw [collapseNewlines, if_neg (hnewline hc)]
          rintro _ ⟨⟩
          exact hc
    · obtain ⟨c, hc⟩ : ∃ c, text.getLast? = some c := ⟨_, List.getLast?_eq_some_getLast htext⟩
      have hspace := h.2 c hc
      rw [getLast?_collapseNewlines (hnewline hspace) hc]
      rintro _ ⟨⟩
      exact hspace

end NewlineRuns

/-- Characters that may follow each other in normalized plain text: no two spaces, and no white
space before a newline. -/
def Neighbours (c d : Char) : Prop := SpacesApart c d ∧ (d = '\n' → c = '\n' ∨ isSpace c = false)

/-- What normalized plain text is. -/
structure PlainNormal (text : List Char) : Prop where
  noReturn : '\r' ∉ text
  noTab : '\t' ∉ text
  neighbours : text.IsChain Neighbours
  stripped : Stripped isSpace text
  runs : collapseNewlines 0 text = text

section Plain

variable {text line : List Char} {ls : List (List Char)}

/-- The lines of normalized plain text are normalized. -/
theorem PlainNormal.line_eq_self (h : PlainNormal text) (hline : line ∈ lines text) :
    normalizePlainLine line = line := by
  obtain ⟨before, after, htext, hafter⟩ := unlines_of_mem hline
  rw [unlines_lines] at htext
  have hchain : (line ++ after).IsChain Neighbours :=
    List.IsChain.infix h.neighbours ⟨before, [], by rw [htext]; simp⟩
  rw [List.isChain_append] at hchain
  have hblanks : collapseBlanks false line = line := by
    refine collapseBlanks_eq_self (fun htab => h.noTab ?_) (hchain.1.imp fun _ _ h => h.1) false nofun
    rw [htext]
    simp [htab]
  rw [normalizePlainLine, hblanks, List.rdropWhile_eq_self_iff]
  intro hne
  have hlast : line.getLast hne ∈ line.getLast? := List.getLast_mem_getLast? hne
  rw [Bool.not_eq_true]
  rcases hafter with rfl | ⟨after, rfl⟩
  · refine h.stripped.2 _ ?_
    rw [htext, List.append_nil, List.getLast?_append_of_ne_nil _ hne]
    exact hlast
  · rcases (hchain.2.2 _ hlast '\n' rfl).2 rfl with hnewline | hspace
    · exact absurd (hnewline ▸ List.getLast_mem hne) (lineFree_lines text line hline)
    · exact hspace

/-- Normalized plain text is left as it is. -/
theorem PlainNormal.eq_self (h : PlainNormal text) : normalizePlainWhitespace text = text := by
  have hlines : (lines text).map normalizePlainLine = lines text := by
    conv_rhs => rw [← List.map_id (lines text)]
    exact List.map_congr_left fun line hline => h.line_eq_self hline
  rw [normalizePlainWhitespace, unifyNewlines_eq_self h.noReturn, hlines, unlines_lines,
    stripWhile_eq_self h.stripped, h.runs]

/-- A normalized line has its spaces apart and no white space at its end. -/
theorem normalizePlainLine_spec (line : List Char) :
    (normalizePlainLine line).IsChain SpacesApart ∧
      (∀ c ∈ (normalizePlainLine line).getLast?, isSpace c = false) ∧
      ∀ c ∈ normalizePlainLine line, c = ' ' ∨ c ∈ line ∧ c ≠ '\t' := by
  have hpre : normalizePlainLine line <+: collapseBlanks false line := List.rdropWhile_prefix _ _
  refine ⟨ List.IsChain.prefix (isChain_collapseBlanks false line).1 hpre, ?_, fun c hc =>
    mem_collapseBlanks (hpre.subset hc)⟩
  intro c hc
  have hne : (collapseBlanks false line).rdropWhile isSpace ≠ [] := by
    intro hnil
    rw [normalizePlainLine, hnil] at hc
    cases hc
  have hlast := List.rdropWhile_last_not isSpace _ hne
  rw [normalizePlainLine, List.getLast?_eq_some_getLast hne] at hc
  obtain rfl := Option.some.inj hc
  rwa [Bool.not_eq_true] at hlast

/-- Normalized lines are joined to neighbours. -/
theorem isChain_unlines (hapart : ∀ l ∈ ls, l.IsChain SpacesApart)
    (hlast : ∀ l ∈ ls, ∀ c ∈ l.getLast?, isSpace c = false) (hfree : LineFree ls) :
    (unlines ls).IsChain Neighbours := by
  have hline : ∀ l ∈ ls, l.IsChain Neighbours := by
    intro l hl
    have hnewline : ∀ d ∈ l, d ≠ '\n' := by
      rintro _ hd rfl
      exact hfree l hl hd
    exact (hapart l hl).imp_of_mem_imp fun c d _ hd h => ⟨h, fun heq => absurd heq (hnewline d hd)⟩
  induction ls with
  | nil => exact List.IsChain.nil
  | cons l ls ih =>
      by_cases hls : ls = []
      · subst hls
        rw [unlines_singleton]
        exact hline l List.mem_cons_self
      · have hrest := ih (fun l hl => hapart l (List.mem_cons_of_mem _ hl))
          (fun l hl => hlast l (List.mem_cons_of_mem _ hl))
          (fun l hl => hfree l (List.mem_cons_of_mem _ hl))
          (fun l hl => hline l (List.mem_cons_of_mem _ hl))
        rw [unlines_cons l hls, List.isChain_append]
        refine ⟨hline l List.mem_cons_self, List.isChain_cons.2 ⟨?_, hrest⟩, ?_⟩
        · intro d _
          refine ⟨?_, fun _ => .inl rfl⟩
          rintro ⟨h, -⟩
          cases h
        · rintro c hc _ ⟨⟩
          refine ⟨?_, fun _ => .inr (hlast l List.mem_cons_self c hc)⟩
          rintro ⟨-, h⟩
          cases h

theorem plainNormal_normalizePlainWhitespace (text : List Char) :
    PlainNormal (normalizePlainWhitespace text) := by
  obtain ⟨ls, hls⟩ : ∃ ls, ls = (lines (unifyNewlines text)).map normalizePlainLine := ⟨_, rfl⟩
  have hof : ∀ l ∈ ls, ∃ line ∈ lines (unifyNewlines text), normalizePlainLine line = l := by
    intro l hl
    rw [hls] at hl
    exact List.mem_map.1 hl
  have hchain : (unlines ls).IsChain Neighbours := by
    refine isChain_unlines ?_ ?_ ?_
    · intro l hl
      obtain ⟨line, -, rfl⟩ := hof l hl
      exact (normalizePlainLine_spec line).1
    · intro l hl
      obtain ⟨line, -, rfl⟩ := hof l hl
      exact (normalizePlainLine_spec line).2.1
    · intro l hl hnewline
      obtain ⟨line, hline, rfl⟩ := hof l hl
      rcases (normalizePlainLine_spec line).2.2 _ hnewline with h | h
      · cases h
      · exact lineFree_lines _ line hline h.1
  have hmem : ∀ c ∈ unlines ls, c = '\n' ∨ c = ' ' ∨ c ∈ unifyNewlines text ∧ c ≠ '\t' := by
    intro c hc
    rcases mem_unlines hc with h | ⟨l, hl, hc⟩
    · exact .inl h
    · obtain ⟨line, hline, rfl⟩ := hof l hl
      rcases (normalizePlainLine_spec line).2.2 c hc with h | h
      · exact .inr (.inl h)
      · exact .inr (.inr ⟨mem_of_mem_lines hline h.1, h.2⟩)
  obtain ⟨before, after, hstrip, -, -⟩ := stripWhile_infix isSpace (unlines ls)
  have hpart : stripWhile isSpace (unlines ls) <:+: unlines ls :=
    ⟨before, after, by rw [List.append_assoc, ← hstrip]⟩
  have hmem' : ∀ c ∈ normalizePlainWhitespace text,
      c = '\n' ∨ c = ' ' ∨ c ∈ unifyNewlines text ∧ c ≠ '\t' := by
    intro c hc
    rw [normalizePlainWhitespace, ← hls] at hc
    exact hmem c (hpart.subset (mem_collapseNewlines hc))
  constructor
  case noReturn =>
    intro h
    rcases hmem' _ h with h | h | h
    · cases h
    · cases h
    · exact not_mem_unifyNewlines text h.1
  case noTab =>
    intro h
    rcases hmem' _ h with h | h | h
    · cases h
    · cases h
    · exact h.2 rfl
  case neighbours =>
    rw [normalizePlainWhitespace, ← hls]
    exact isChain_collapseNewlines ( List.IsChain.infix hchain hpart)
  case stripped =>
    rw [normalizePlainWhitespace, ← hls]
    exact stripped_collapseNewlines (stripped_stripWhile _ _)
  case runs => exact collapseNewlines_idempotent 0 _

/-- **A second pass over plain text changes nothing.** -/
theorem normalizePlainWhitespace_idempotent (text : List Char) :
    normalizePlainWhitespace (normalizePlainWhitespace text) = normalizePlainWhitespace text :=
  (plainNormal_normalizePlainWhitespace text).eq_self

end Plain

/-! ### Entry points -/

section EntryPoints

variable {raw : ByteArray} {normalized version : String}

theorem decodeRaw_toUTF8 (text : String) : decodeRaw text.toUTF8 = .ok text := by
  have hdecode : String.fromUTF8? text.toUTF8 = some text := fromUTF8?_toByteArray text
  rw [decodeRaw, hdecode]

theorem normalizePlainText_eq_ok : normalizePlainText raw = .ok (normalized, version) ↔
    ∃ text, decodeRaw raw = .ok text ∧
      normalized = String.ofList (normalizePlainWhitespace text.toList) ∧
        assertNormalizedSize normalized = .ok () ∧ version = "plain_text.normalize.v1" := by
  rw [normalizePlainText]
  cases decodeRaw raw with
  | error x => simp [bind, Except.bind]
  | ok text =>
      simp only [bind, Except.bind]
      cases hsize : assertNormalizedSize (String.ofList (normalizePlainWhitespace text.toList)) with
      | error x =>
          simp only [reduceCtorEq, Except.ok.injEq, exists_eq_left', false_iff]
          rintro ⟨rfl, hok, -⟩
          rw [hsize] at hok
          cases hok
      | ok u =>
          simp only [pure, Except.pure, Except.ok.injEq, Prod.mk.injEq, exists_eq_left']
          constructor
          · rintro ⟨rfl, rfl⟩
            exact ⟨rfl, hsize, rfl⟩
          · rintro ⟨rfl, -, rfl⟩
            exact ⟨rfl, rfl⟩

/-- What is accepted as plain text is accepted again, as it is. -/
theorem normalizePlainText_again (h : normalizePlainText raw = .ok (normalized, version)) :
    normalizePlainText normalized.toUTF8 = .ok (normalized, version) := by
  obtain ⟨text, -, rfl, hsize, rfl⟩ := normalizePlainText_eq_ok.1 h
  refine normalizePlainText_eq_ok.2 ⟨_, decodeRaw_toUTF8 _, ?_, hsize, rfl⟩
  rw [String.toList_ofList, normalizePlainWhitespace_idempotent]

theorem normalizeMarkdown_eq_ok : normalizeMarkdown raw = .ok (normalized, version) ↔
    ∃ text, decodeRaw raw = .ok text ∧
      normalized = String.ofList (normalizeMarkdownText text.toList) ∧ strip normalized ≠ "" ∧
        assertNormalizedSize normalized = .ok () ∧ version = "markdown.normalize.v1" := by
  rw [normalizeMarkdown]
  cases decodeRaw raw with
  | error x => simp [bind, Except.bind]
  | ok text =>
      simp only [bind, Except.bind, Except.ok.injEq, exists_eq_left']
      by_cases hblank : strip (String.ofList (normalizeMarkdownText text.toList)) = ""
      · rw [if_pos hblank]
        simp only [reduceCtorEq, false_iff]
        rintro ⟨rfl, hne, -⟩
        exact hne hblank
      · rw [if_neg hblank]
        cases hsize : assertNormalizedSize (String.ofList (normalizeMarkdownText text.toList)) with
        | error x =>
            simp only [reduceCtorEq, false_iff]
            rintro ⟨rfl, -, hok, -⟩
            rw [hsize] at hok
            cases hok
        | ok u =>
            simp only [pure, Except.pure, Except.ok.injEq, Prod.mk.injEq]
            constructor
            · rintro ⟨rfl, rfl⟩
              exact ⟨rfl, hblank, hsize, rfl⟩
            · rintro ⟨rfl, -, -, rfl⟩
              exact ⟨rfl, rfl⟩

/-- What is accepted as Markdown is accepted again, as it is. -/
theorem normalizeMarkdown_again (h : normalizeMarkdown raw = .ok (normalized, version)) :
    normalizeMarkdown normalized.toUTF8 = .ok (normalized, version) := by
  obtain ⟨text, -, rfl, hblank, hsize, rfl⟩ := normalizeMarkdown_eq_ok.1 h
  refine normalizeMarkdown_eq_ok.2 ⟨_, decodeRaw_toUTF8 _, ?_, hblank, hsize, rfl⟩
  rw [String.toList_ofList, normalizeMarkdownText_idempotent]

end EntryPoints

/-- **Normalization is idempotent and loses nothing but blanks.**  Markdown keeps its lines and grows
no longer than the text with its newlines unified. -/
theorem normalization_idempotent (text : List Char) :
    normalizePlainWhitespace (normalizePlainWhitespace text) = normalizePlainWhitespace text ∧
    normalizeMarkdownText (normalizeMarkdownText text) = normalizeMarkdownText text ∧
    KeepsLines (lines (unifyNewlines text)) (lines (normalizeMarkdownText text)) ∧
    (normalizeMarkdownText text).length ≤ (unifyNewlines text).length :=
  ⟨normalizePlainWhitespace_idempotent text, normalizeMarkdownText_idempotent text,
    keepsLines_normalizeMarkdownText text, length_normalizeMarkdownText_le text⟩

end Atlas
