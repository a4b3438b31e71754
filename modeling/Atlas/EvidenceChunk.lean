/-
**Chunking evidence.**

`evidence/chunk.py`: a normalized text is cut into overlapping windows of code points.  The loop goes
on while a window does not reach the end of the text, and raises when it would need more windows
than it may make.

Main definitions:

* `Windows.window`, `Windows.count` — the windows of a list, and how many reach its end;
* `Atlas.chunkNormalizedText` — the chunks of a text;
* `Atlas.ChunksCover` — what chunks of a text have to be.

Main results:

* `Windows.join_windows` — the windows of a list, each without its overlap, are the list;
* `Atlas.chunkFrom_eq` — what the loop returns;
* `Atlas.chunkNormalizedText_covers` — **chunks cover their text exactly**.
-/

import Mathlib.Algebra.Order.Floor.Div
import Mathlib.Data.List.Range
import Mathlib.Tactic.Linarith

set_option relaxedAutoImplicit false
set_option autoImplicit false

/-! ### Windows of a list -/

namespace Windows

variable {α : Type} {l : List α} {size overlap : ℕ}

/-- The window `k`: of `size` elements, and one `step` after the window before. -/
def window (l : List α) (size step k : ℕ) : List α := (l.drop (k * step)).take size

/-- How many windows it takes to reach the end of a list of a length. -/
def count (length size step : ℕ) : ℕ :=
  if length ≤ size then 1 else 1 + (length - size) ⌈/⌉ step

/-- The last window is the first to reach the end. -/
theorem lt_count_iff (length size : ℕ) {step : ℕ} (hstep : 0 < step) (k : ℕ) :
    k + 1 < count length size step ↔ k * step + size < length := by
  rw [count]
  split
  · next hle =>
    have : size ≤ k * step + size := Nat.le_add_left _ _
    omega
  · next hlt =>
    have hceil : (length - size) ⌈/⌉ step ≤ k ↔ length - size ≤ step * k :=
      ceilDiv_le_iff_le_mul hstep
    rw [Nat.mul_comm] at hceil
    omega

theorem count_pos (length size step : ℕ) : 0 < count length size step := by
  rw [count]
  split
  · exact Nat.one_pos
  · exact Nat.add_pos_left Nat.one_pos _

/-- A window without its overlap is what comes after the window before. -/
theorem drop_window (l : List α) (step overlap k : ℕ) :
    (window l (step + overlap) step (k + 1)).drop overlap
      = (l.drop (k * step + (step + overlap))).take step := by
  rw [window, List.drop_take, List.drop_drop, Nat.add_sub_cancel]
  congr 2
  rw [Nat.add_mul, one_mul]
  omega

/-- **The first windows, each without its overlap with the one before, are the list up to the end of
the last of them.** -/
theorem join_windows (l : List α) (step overlap n : ℕ) :
    window l (step + overlap) step 0
        ++ (List.range n).flatMap (fun k => (window l (step + overlap) step (k + 1)).drop overlap)
      = l.take (n * step + (step + overlap)) := by
  induction n with
  | zero => simp [window]
  | succ n ih =>
      rw [List.range_succ, List.flatMap_append, ← List.append_assoc, ih, List.flatMap_singleton,
        drop_window, ← List.take_add]
      congr 1
      rw [Nat.add_mul, one_mul]
      omega

end Windows

namespace Atlas

/-! ### The loop -/

/-- `EvidenceValidationError` and `EvidenceTooLargeError`, with their messages. -/
inductive EvidenceError where
  | validation (message : String)
  | tooLarge (message : String)
  deriving DecidableEq, Repr

structure TextChunk where
  ordinal : ℕ
  text : List Char
  contentSha256 : String
  charStart : ℕ
  charEnd : ℕ
  deriving DecidableEq, Repr

/-- What an overlong document raises. -/
def tooManyChunks : EvidenceError := .tooLarge "document exceeds maximum chunk count"

section Loop

variable (evidenceItemContentSha256 : List Char → String)

/-- The chunk of a text between two positions. -/
def sliceChunk (normalized : List Char) (ordinal start end_ : ℕ) : TextChunk where
  ordinal := ordinal
  text := (normalized.drop start).take (end_ - start)
  contentSha256 := evidenceItemContentSha256 ((normalized.drop start).take (end_ - start))
  charStart := start
  charEnd := end_

/-- The loop of `chunk_normalized_text`, from a position on. -/
def chunkFrom (normalized : List Char) (chunkSize step : ℕ) (hstep : 0 < step) (maxChunks : ℤ)
    (start ordinal : ℕ) (chunks : List TextChunk) : Except EvidenceError (List TextChunk) :=
  if start < normalized.length then
    if maxChunks ≤ ordinal then .error tooManyChunks
    else
      let end_ := min (start + chunkSize) normalized.length
      let chunks := chunks ++ [sliceChunk evidenceItemContentSha256 normalized ordinal start end_]
      if normalized.length ≤ end_ then .ok chunks
      else chunkFrom normalized chunkSize step hstep maxChunks (start + step) (ordinal + 1) chunks
  else .ok chunks
termination_by normalized.length - start

/-- `chunk_normalized_text`. -/
def chunkNormalizedText (normalized : List Char) (chunkSize overlap maxChunks : ℤ) :
    Except EvidenceError (List TextChunk) :=
  if chunkSize < 1 then .error (.validation "chunk_size must be positive")
  else if hoverlap : overlap < 0 ∨ chunkSize ≤ overlap then
    .error (.validation "overlap must satisfy 0 <= overlap < chunk_size")
  else if normalized = [] then .error (.validation "normalized text must be non-empty")
  else if (normalized.length : ℤ) ≤ chunkSize then
    .ok [{
      ordinal := 0
      text := normalized
      contentSha256 := evidenceItemContentSha256 normalized
      charStart := 0
      charEnd := normalized.length }]
  else
    chunkFrom evidenceItemContentSha256 normalized chunkSize.toNat (chunkSize - overlap).toNat
      (by omega) maxChunks 0 0 []

end Loop

/-! ### What it returns -/

section Returns

variable {evidenceItemContentSha256 : List Char → String} {normalized : List Char}
  {chunkSize step : ℕ} {maxChunks : ℤ}

/-- Chunk `k` of a text. -/
def chunkAt (evidenceItemContentSha256 : List Char → String) (normalized : List Char)
    (chunkSize step k : ℕ) : TextChunk :=
  sliceChunk evidenceItemContentSha256 normalized k (k * step)
    (min (k * step + chunkSize) normalized.length)

/-- The text of a chunk is its window. -/
theorem chunkAt_text (k : ℕ) : (chunkAt evidenceItemContentSha256 normalized chunkSize step k).text
    = Windows.window normalized chunkSize step k := by
  have hrest : (normalized.drop (k * step)).length = normalized.length - k * step :=
    List.length_drop
  rw [chunkAt, sliceChunk, Windows.window, List.take_eq_take_iff, hrest]
  omega

/-- A window starts before the end of its list. -/
theorem start_lt (hstep : 0 < step) (hle : step ≤ chunkSize) (hpos : 0 < normalized.length) {k : ℕ}
    (hk : k < Windows.count normalized.length chunkSize step) : k * step < normalized.length := by
  cases k with
  | zero => omega
  | succ k =>
      have hbefore := (Windows.lt_count_iff _ _ hstep k).1 hk
      rw [Nat.add_mul, one_mul]
      omega

/-- The loop raises when there are more windows than it may make, and otherwise adds those from its
position on. -/
theorem chunkFrom_eq (evidenceItemContentSha256 : List Char → String) (maxChunks : ℤ)
    (hstep : 0 < step) (hle : step ≤ chunkSize)
    (hlong : chunkSize < normalized.length) {k : ℕ}
    (hk : k < Windows.count normalized.length chunkSize step) (chunks : List TextChunk) :
    chunkFrom evidenceItemContentSha256 normalized chunkSize step hstep maxChunks (k * step) k chunks
      = if maxChunks < Windows.count normalized.length chunkSize step then .error tooManyChunks
        else .ok (chunks ++ (List.range' k (Windows.count normalized.length chunkSize step - k)).map
          (chunkAt evidenceItemContentSha256 normalized chunkSize step)) := by
  obtain ⟨count, hcount⟩ : ∃ n, n = Windows.count normalized.length chunkSize step := ⟨_, rfl⟩
  have hnext : ∀ k, k + 1 < count ↔ k * step + chunkSize < normalized.length := fun k =>
    hcount ▸ Windows.lt_count_iff _ _ hstep k
  have hstart : ∀ k < count, k * step < normalized.length := fun k hk =>
    start_lt hstep hle (by omega) (hcount ▸ hk)
  rw [← hcount] at hk ⊢
  -- the induction is on the windows that are left
  obtain ⟨remaining, hremaining⟩ : ∃ r, count = k + 1 + r := ⟨count - (k + 1), by omega⟩
  induction remaining generalizing k chunks with
  | zero =>
      have hlast : count - k = 1 := by omega
      rw [chunkFrom, if_pos (hstart k hk), hlast]
      by_cases hmax : maxChunks ≤ k
      · rw [if_pos hmax, if_pos (by omega)]
      · have hend : normalized.length ≤ min (k * step + chunkSize) normalized.length := by
          have := hnext k
          omega
        rw [if_neg hmax, if_pos hend, if_neg (by omega)]
        rfl
  | succ remaining ih =>
      have hlast : count - k = count - (k + 1) + 1 := by omega
      rw [chunkFrom, if_pos (hstart k hk), hlast]
      by_cases hmax : maxChunks ≤ k
      · rw [if_pos hmax, if_pos (by omega)]
      · have hend : ¬ normalized.length ≤ min (k * step + chunkSize) normalized.length := by
          have := hnext k
          omega
        have hsucc : k * step + step = (k + 1) * step := by rw [Nat.add_mul, one_mul]
        rw [if_neg hmax, if_neg hend, hsucc, ih _ (by omega) (by omega), List.range'_succ,
          List.map_cons, List.append_assoc]
        rfl

end Returns

/-! ### Chunks cover their text -/

/-- What the chunks of a text have to be: as many windows as it takes, numbered, each with the text
at its position, each one step after the one before, which it meets and goes beyond, up to the end
of the text. -/
structure ChunksCover (normalized : List Char) (chunkSize overlap : ℕ) (chunks : List TextChunk) :
    Prop where
  count : chunks.length = Windows.count normalized.length chunkSize (chunkSize - overlap)
  ordinal : chunks.map TextChunk.ordinal = List.range chunks.length
  text : ∀ c ∈ chunks, c.text = (normalized.drop c.charStart).take (c.charEnd - c.charStart)
  within : ∀ c ∈ chunks, c.charStart < c.charEnd ∧ c.charEnd ≤ normalized.length
  first : chunks.head?.map TextChunk.charStart = some 0
  step : chunks.IsChain fun c d => d.charStart = c.charStart + (chunkSize - overlap)
  noGap : chunks.IsChain fun c d => d.charStart ≤ c.charEnd
  notContained : chunks.IsChain fun c d => c.charEnd < d.charEnd
  last : chunks.getLast?.map TextChunk.charEnd = some normalized.length
  join : (chunks.head?.map TextChunk.text).getD []
    ++ chunks.tail.flatMap (fun c => c.text.drop overlap) = normalized

section Cover

variable {evidenceItemContentSha256 : List Char → String} {normalized : List Char}
  {chunkSize overlap : ℕ}

/-- A window ends before the end of its list exactly when another one follows. -/
theorem chunkAt_charEnd {step : ℕ} (hstep : 0 < step) (k : ℕ) :
    (chunkAt evidenceItemContentSha256 normalized chunkSize step k).charEnd
      = if k + 1 < Windows.count normalized.length chunkSize step then k * step + chunkSize
        else normalized.length := by
  have hnext := Windows.lt_count_iff normalized.length chunkSize hstep k
  change min (k * step + chunkSize) normalized.length = _
  split <;> omega

/-- **The windows of a text cover it.** -/
theorem chunksCover_windows (evidenceItemContentSha256 : List Char → String) (hne : normalized ≠ []) (hoverlap : overlap < chunkSize) :
    ChunksCover normalized chunkSize overlap
      ((List.range (Windows.count normalized.length chunkSize (chunkSize - overlap))).map
        (chunkAt evidenceItemContentSha256 normalized chunkSize (chunkSize - overlap))) := by
  obtain ⟨n, hn⟩ : ∃ n, Windows.count normalized.length chunkSize (chunkSize - overlap) = n + 1 :=
    ⟨_, (Nat.succ_pred_eq_of_pos (Windows.count_pos _ _ _)).symm⟩
  have hstep : 0 < chunkSize - overlap := by omega
  have hpos : 0 < normalized.length := List.length_pos_iff.2 hne
  have hend : ∀ k ≤ n, (chunkAt evidenceItemContentSha256 normalized chunkSize (chunkSize - overlap)
      k).charEnd = if k < n then k * (chunkSize - overlap) + chunkSize else normalized.length := by
    intro k hk
    rw [chunkAt_charEnd hstep, hn]
    simp only [Nat.add_lt_add_iff_right]
  have hstart : ∀ k ≤ n, k * (chunkSize - overlap) < normalized.length := by
    intro k hk
    exact start_lt hstep (Nat.sub_le _ _) hpos (by omega)
  have hreach : ∀ k < n, k * (chunkSize - overlap) + chunkSize < normalized.length := fun k hk =>
    (Windows.lt_count_iff _ _ hstep k).1 (by omega)
  have hsucc : ∀ k, (k + 1) * (chunkSize - overlap) = k * (chunkSize - overlap)
      + (chunkSize - overlap) := fun k => Nat.succ_mul k _
  rw [hn]
  constructor
  case count => simp [hn]
  case ordinal =>
    rw [List.map_map, List.length_map, List.length_range]
    exact List.map_id _
  case text =>
    intro c hc
    obtain ⟨k, -, rfl⟩ := List.mem_map.1 hc
    rfl
  case within =>
    intro c hc
    obtain ⟨k, hk, rfl⟩ := List.mem_map.1 hc
    have hk' : k ≤ n := by
      rw [List.mem_range] at hk
      omega
    have hk₁ := hstart k hk'
    rw [hend k hk']
    change k * (chunkSize - overlap) < _ ∧ _
    split
    · have := hreach k (by assumption)
      omega
    · omega
  case first =>
    rw [List.head?_map, List.head?_range, if_neg (Nat.succ_ne_zero n)]
    exact congrArg some (Nat.zero_mul _)
  case step =>
    rw [List.isChain_map, List.isChain_range]
    intro k _
    exact hsucc k
  case noGap =>
    rw [List.isChain_map, List.isChain_range]
    intro k hk
    have hk₁ := hstart (k + 1) (by omega)
    rw [hend k (by omega)]
    change (k + 1) * (chunkSize - overlap) ≤ _
    rw [hsucc] at hk₁ ⊢
    split <;> omega
  case notContained =>
    rw [List.isChain_map, List.isChain_range]
    intro k hk
    have hk₁ := hreach k (by omega)
    have hk₂ := hsucc k
    rw [hend k (by omega), hend (k + 1) (by omega), if_pos (by omega)]
    split <;> omega
  case last =>
    rw [List.getLast?_map, List.getLast?_range, if_neg (Nat.succ_ne_zero n)]
    exact congrArg some ((hend n le_rfl).trans (if_neg (lt_irrefl n)))
  case join =>
    have hwindows := Windows.join_windows normalized (chunkSize - overlap) overlap n
    have hsize : chunkSize - overlap + overlap = chunkSize := by omega
    have hall : normalized.length ≤ n * (chunkSize - overlap) + chunkSize := by
      have := Windows.lt_count_iff normalized.length chunkSize hstep n
      omega
    rw [hsize, List.take_of_length_le hall] at hwindows
    rw [List.range_succ_eq_map, List.map_cons, List.head?_cons, List.tail_cons, List.map_map,
      List.flatMap_map]
    simp only [Option.map_some, Option.getD_some, chunkAt_text, Function.comp_apply]
    exact hwindows

/-- **Chunks cover their text exactly.**  A text is too long when it takes more windows than there
may be, and otherwise it is cut into them. -/
theorem chunkNormalizedText_covers (evidenceItemContentSha256 : List Char → String)
    {normalized : List Char} (hne : normalized ≠ []) {chunkSize overlap : ℕ}
    (hoverlap : overlap < chunkSize) (maxChunks : ℤ) :
    (chunkSize < normalized.length ∧
        maxChunks < 1 + ((normalized.length - chunkSize) ⌈/⌉ (chunkSize - overlap) : ℕ) ∧
        chunkNormalizedText evidenceItemContentSha256 normalized chunkSize overlap maxChunks
          = .error tooManyChunks) ∨
      (¬ (chunkSize < normalized.length ∧
          maxChunks < 1 + ((normalized.length - chunkSize) ⌈/⌉ (chunkSize - overlap) : ℕ)) ∧
        ∃ chunks, ChunksCover normalized chunkSize overlap chunks ∧
          chunkNormalizedText evidenceItemContentSha256 normalized chunkSize overlap maxChunks
            = .ok chunks) := by
  have hcover := chunksCover_windows evidenceItemContentSha256 hne hoverlap
  rw [chunkNormalizedText, if_neg (by omega), dif_neg (by omega), if_neg hne]
  by_cases hlong : chunkSize < normalized.length
  · have hcount : Windows.count normalized.length chunkSize (chunkSize - overlap)
        = 1 + (normalized.length - chunkSize) ⌈/⌉ (chunkSize - overlap) := if_neg (by omega)
    have hstep : ((chunkSize : ℤ) - overlap).toNat = chunkSize - overlap := by omega
    rw [if_neg (by omega)]
    simp only [hstep, Int.toNat_natCast]
    have hloop := chunkFrom_eq evidenceItemContentSha256 maxChunks
      (by omega : 0 < chunkSize - overlap) (Nat.sub_le _ _) hlong (Windows.count_pos _ _ _) []
    rw [Nat.zero_mul, Nat.sub_zero, ← List.range_eq_range', List.nil_append, hcount] at hloop
    rw [hcount] at hcover
    by_cases hmax : maxChunks < ((1 + (normalized.length - chunkSize) ⌈/⌉ (chunkSize - overlap) :
        ℕ) : ℤ)
    · rw [if_pos hmax] at hloop
      push_cast at hmax
      exact .inl ⟨hlong, hmax, hloop⟩
    · rw [if_neg hmax] at hloop
      push_cast at hmax
      exact .inr ⟨fun h => hmax h.2, _, hcover, hloop⟩
  · have hcount : Windows.count normalized.length chunkSize (chunkSize - overlap) = 1 :=
      if_pos (by omega)
    rw [if_pos (by omega)]
    rw [hcount] at hcover
    have hone : normalized.take normalized.length = normalized := List.take_length
    refine .inr ⟨fun h => hlong h.1, _, hcover, ?_⟩
    have hmin : min (0 + chunkSize) normalized.length = normalized.length := by omega
    simp only [List.range_one, List.map_cons, List.map_nil, chunkAt, sliceChunk, Nat.zero_mul, hmin,
      List.drop_zero, Nat.sub_zero, hone]

/-- Ten characters in windows of four that overlap by one. -/
theorem chunkNormalizedText_covers_ten : ∃ chunks, ChunksCover "0123456789".toList 4 1 chunks ∧
    chunkNormalizedText (fun _ => "") "0123456789".toList 4 1 64 = .ok chunks := by
  rcases chunkNormalizedText_covers (fun _ => "") (by decide : "0123456789".toList ≠ [])
    (by decide : 1 < 4) 64 with ⟨-, hmax, -⟩ | ⟨-, h⟩
  · exact absurd hmax (by decide)
  · exact h

end Cover

end Atlas
