/-
**Code in normalized Markdown.**

The normalizer of `evidence/normalize.py` follows fences with a tracker of its own, which knows the
ones at the start of a line and no indented code.  Where a document's code blocks are is for its
grammar to say, which is any here: of it only that a block of code does not start with an empty line.

Main definitions:

* `Atlas.BlockGrammar` — which lines of a document are in a block of code;
* `Atlas.BlockGrammar.KeepsCode` — a document is left with every line of code in its place;
* `Atlas.StaysEmpty` — where the normalizer leaves an empty line;
* `Atlas.leafBlocks` — the code blocks of a document of paragraphs and code.

Main results:

* `Atlas.selected_staysEmpty` — the lines the normalizer leaves, by their places;
* `Atlas.keepsCode_iff` — **code is kept exactly where its empty lines stay**.
-/

import Atlas.EvidenceNormalize

set_option relaxedAutoImplicit false
set_option autoImplicit false

/-! ### Selections of a list -/

namespace Selection

variable {α : Type}

/-- The items of a list at the places that are kept. -/
def selected : (ℕ → Bool) → List α → List α
  | _, [] => []
  | kept, a :: l =>
      if kept 0 then a :: selected (fun i => kept (i + 1)) l else selected (fun i => kept (i + 1)) l

variable {kept kept' : ℕ → Bool} {l l' : List α}

theorem selected_append (kept : ℕ → Bool) (l l' : List α) :
    selected kept (l ++ l') = selected kept l ++ selected (fun i => kept (l.length + i)) l' := by
  induction l generalizing kept with
  | nil => simp [selected]
  | cons a l ih =>
      have hshift : (fun i => kept (l.length + i + 1)) = fun i => kept ((a :: l).length + i) := by
        funext i
        rw [List.length_cons]
        congr 1
        omega
      rw [List.cons_append, selected, selected, ih, hshift]
      split
      · rw [List.cons_append]
      · rfl

theorem selected_congr (h : ∀ i < l.length, kept i = kept' i) :
    selected kept l = selected kept' l := by
  induction l generalizing kept kept' with
  | nil => rfl
  | cons a l ih =>
      have hrest : selected (fun i => kept (i + 1)) l = selected (fun i => kept' (i + 1)) l :=
        ih fun i hi => h (i + 1) (by simpa using hi)
      rw [selected, selected, h 0 (by simp), hrest]

theorem selected_sublist (kept : ℕ → Bool) (l : List α) : (selected kept l).Sublist l := by
  induction l generalizing kept with
  | nil => exact List.Sublist.refl _
  | cons a l ih =>
      rw [selected]
      split
      · exact (ih _).cons_cons a
      · exact (ih _).cons a

theorem selected_eq_nil (h : ∀ i < l.length, kept i = false) : selected kept l = [] := by
  rw [selected_congr h]
  induction l with
  | nil => rfl
  | cons a l ih =>
      rw [selected, if_neg (by simp)]
      exact ih fun i hi => h i (by rw [List.length_cons]; omega)

/-- What is kept of an item in the middle. -/
theorem selected_middle (kept : ℕ → Bool) (l : List α) (a : α) (l' : List α)
    (h : kept l.length = true) : selected kept (l ++ a :: l')
      = selected kept l ++ a :: selected (fun i => kept (l.length + (i + 1))) l' := by
  rw [selected_append, selected, if_pos (by simpa using h)]

/-- Of two neighbours in a run both are left. -/
theorem two_le_of_kept (kept : ℕ → Bool) (a : α) {e i : ℕ} (hi : i + 1 < e) (h : kept i = true)
    (h' : kept (i + 1) = true) : 2 ≤ (selected kept (List.replicate e a)).length := by
  obtain ⟨d, rfl⟩ : ∃ d, e = i + (1 + (1 + d)) := ⟨e - i - 2, by omega⟩
  have hsplit : List.replicate (i + (1 + (1 + d))) a
      = List.replicate i a ++ a :: a :: List.replicate d a := by
    rw [List.replicate_add, List.replicate_add, List.replicate_add]
    rfl
  rw [hsplit, selected_middle kept _ a _ (by simpa using h), selected,
    if_pos (by simpa using h')]
  simp only [List.length_append, List.length_cons]
  omega

theorem one_le_of_kept (kept : ℕ → Bool) (a : α) {e i : ℕ} (hi : i < e) (h : kept i = true) :
    1 ≤ (selected kept (List.replicate e a)).length := by
  obtain ⟨d, rfl⟩ : ∃ d, e = i + (1 + d) := ⟨e - i - 1, by omega⟩
  have hsplit : List.replicate (i + (1 + d)) a
      = List.replicate i a ++ a :: List.replicate d a := by
    rw [List.replicate_add, List.replicate_add]
    rfl
  rw [hsplit, selected_middle kept _ a _ (by simpa using h)]
  simp only [List.length_append, List.length_cons]
  omega

section Runs

variable {blank : α}

/-- A list does not end with a blank. -/
def EndsSolid (blank : α) (l : List α) : Prop := ∀ a ∈ l.getLast?, a ≠ blank

/-- A list does not start with a blank. -/
def StartsSolid (blank : α) (l : List α) : Prop := ∀ a ∈ l.head?, a ≠ blank

theorem endsSolid_reverse : EndsSolid blank l.reverse ↔ StartsSolid blank l := by
  rw [EndsSolid, StartsSolid, List.getLast?_reverse]

/-- Runs of blanks before the same place are as long. -/
theorem replicate_eq_of_append_eq {m n : ℕ} (h : List.replicate m blank ++ l
    = List.replicate n blank ++ l') (hl : StartsSolid blank l) (hl' : StartsSolid blank l') :
    m = n := by
  induction m generalizing n with
  | zero =>
      cases n with
      | zero => rfl
      | succ n =>
          rw [List.replicate_zero, List.nil_append] at h
          exact absurd rfl (hl blank (by rw [h]; rfl))
  | succ m ih =>
      cases n with
      | zero =>
          rw [List.replicate_zero, List.nil_append] at h
          exact absurd rfl (hl' blank (by rw [← h]; rfl))
      | succ n =>
          rw [List.replicate_succ, List.replicate_succ, List.cons_append, List.cons_append,
            List.cons.injEq] at h
          rw [ih h.2]

/-- A list is its part before the run of blanks at a place, the run, and the part after. -/
theorem exists_run [DecidableEq α] {i : ℕ} (h : l[i]? = some blank) :
    ∃ before e after, l = before ++ (List.replicate e blank ++ after) ∧ before.length ≤ i ∧
      i < before.length + e ∧ EndsSolid blank before ∧ StartsSolid blank after := by
  obtain ⟨hi, hblank⟩ := List.getElem?_eq_some_iff.1 h
  obtain ⟨p, hp⟩ : ∃ p : α → Bool, p = fun a => decide (a = blank) := ⟨_, rfl⟩
  have hall : ∀ {l : List α}, (∀ a ∈ l, p a = true) → l = List.replicate l.length blank := by
    intro l hl
    rw [List.eq_replicate_iff]
    exact ⟨rfl, fun a ha => by simpa [hp] using hl a ha⟩
  have hbefore := hall fun a (ha : a ∈ (l.take i).rtakeWhile p) => List.mem_rtakeWhile_imp ha
  have hafter := hall fun a (ha : a ∈ (l.drop i).takeWhile p) => List.mem_takeWhile_imp ha
  have htake := List.rdropWhile_append_rtakeWhile (p := p) (l := l.take i)
  have hdrop := List.takeWhile_append_dropWhile (p := p) (l := l.drop i)
  refine ⟨(l.take i).rdropWhile p, ((l.take i).rtakeWhile p).length
    + ((l.drop i).takeWhile p).length, (l.drop i).dropWhile p, ?_, ?_, ?_, ?_, ?_⟩
  · rw [List.replicate_add, ← hbefore, ← hafter, List.append_assoc, hdrop, ← List.append_assoc,
      htake, List.take_append_drop]
  · refine (List.rdropWhile_prefix p (l := l.take i)).length_le.trans ?_
    rw [List.length_take]
    omega
  · have hlength := congrArg List.length htake
    have hpos : 0 < ((l.drop i).takeWhile p).length := by
      rw [List.drop_eq_getElem_cons hi, List.takeWhile_cons_of_pos (by simp [hp, hblank])]
      simp
    rw [List.length_append, List.length_take] at hlength
    omega
  · intro a ha
    have hne : (l.take i).rdropWhile p ≠ [] := by
      intro hnil
      rw [hnil] at ha
      cases ha
    have hlast := List.rdropWhile_last_not p _ hne
    rw [List.getLast?_eq_some_getLast hne] at ha
    obtain rfl := Option.some.inj ha
    simpa [hp] using hlast
  · intro a ha
    have hfirst := List.head?_dropWhile_not p (l.drop i)
    rw [Option.mem_def.1 ha] at hfirst
    simpa [hp] using hfirst

variable [DecidableEq α]

/-- A list with a solid end is not stripped away from its start. -/
theorem EndsSolid.dropWhile_ne_nil (hl : EndsSolid blank l) (hne : l ≠ []) :
    l.dropWhile (· = blank) ≠ [] := by
  intro hnil
  rw [List.dropWhile_eq_nil_iff] at hnil
  obtain ⟨a, ha⟩ : ∃ a, l.getLast? = some a := ⟨_, List.getLast?_eq_some_getLast hne⟩
  exact hl a ha (by simpa using hnil a (List.mem_of_getLast? ha))

theorem EndsSolid.dropWhile_append (hl : EndsSolid blank l) (hne : l ≠ []) (l' : List α) :
    (l ++ l').dropWhile (· = blank) = l.dropWhile (· = blank) ++ l' := by
  rw [List.dropWhile_append, if_neg (by simpa using hl.dropWhile_ne_nil hne)]

theorem EndsSolid.dropWhile (hl : EndsSolid blank l) : EndsSolid blank (l.dropWhile (· = blank)) := by
  intro a ha
  obtain ⟨before, hbefore⟩ := List.dropWhile_suffix (l := l) (· = blank)
  refine hl a ?_
  rw [← hbefore, List.getLast?_append, Option.mem_def.1 ha]
  rfl

theorem StartsSolid.rdropWhile_append (hl : StartsSolid blank l) (hne : l ≠ []) (l' : List α) :
    (l' ++ l).rdropWhile (· = blank) = l' ++ l.rdropWhile (· = blank) := by
  rw [List.rdropWhile, List.rdropWhile, List.reverse_append,
    (endsSolid_reverse.2 hl).dropWhile_append (by simpa using hne), List.reverse_append,
    List.reverse_reverse]

theorem StartsSolid.rdropWhile (hl : StartsSolid blank l) :
    StartsSolid blank (l.rdropWhile (· = blank)) := by
  rw [← endsSolid_reverse, List.rdropWhile, List.reverse_reverse]
  exact (endsSolid_reverse.2 hl).dropWhile

/-- A list that ends where it is solid has nothing stripped there. -/
theorem EndsSolid.rdropWhile_eq_self (hl : EndsSolid blank l) : l.rdropWhile (· = blank) = l := by
  rw [List.rdropWhile_eq_self_iff]
  intro hne
  simpa using hl _ (List.getLast_mem_getLast? hne)

theorem EndsSolid.rdropWhile_append (hl : EndsSolid blank l) (n : ℕ) :
    (l ++ List.replicate n blank).rdropWhile (· = blank) = l := by
  induction n with
  | zero => rw [List.replicate_zero, List.append_nil, hl.rdropWhile_eq_self]
  | succ n ih =>
      rw [List.replicate_succ', ← List.append_assoc, List.rdropWhile_concat_pos _ _ _ (by simp), ih]

/-- How many items of a list are no blanks. -/
def solids (blank : α) (l : List α) : ℕ := (l.filter (· ≠ blank)).length

theorem solids_append (blank : α) (l l' : List α) :
    solids blank (l ++ l') = solids blank l + solids blank l' := by
  rw [solids, List.filter_append, List.length_append, solids, solids]

theorem solids_replicate (blank : α) (n : ℕ) : solids blank (List.replicate n blank) = 0 := by
  simp [solids]

theorem solids_le (blank : α) (h : l'.Sublist l) : solids blank l' ≤ solids blank l :=
  (h.filter _).length_le

theorem solids_dropWhile (blank : α) (l : List α) :
    solids blank (l.dropWhile (· = blank)) = solids blank l := by
  conv_rhs => rw [← List.takeWhile_append_dropWhile (p := fun a => decide (a = blank)) (l := l)]
  rw [solids_append]
  have hempty : solids blank (l.takeWhile (· = blank)) = 0 := by
    rw [solids, List.length_eq_zero_iff, List.filter_eq_nil_iff]
    intro a ha
    simpa using List.mem_takeWhile_imp ha
  omega

theorem solids_rdropWhile (blank : α) (l : List α) :
    solids blank (l.rdropWhile (· = blank)) = solids blank l := by
  have hreverse : ∀ l : List α, solids blank l.reverse = solids blank l := by
    intro l
    rw [solids, List.filter_reverse, List.length_reverse, solids]
  rw [List.rdropWhile, hreverse, solids_dropWhile, hreverse]

/-- A selection with all that is solid ends like the list. -/
theorem endsSolid_selected (kept : ℕ → Bool) (hl : EndsSolid blank l)
    (h : solids blank (selected kept l) = solids blank l) :
    EndsSolid blank (selected kept l) := by
  rcases List.eq_nil_or_concat l with rfl | ⟨l₀, a, rfl⟩
  · exact nofun
  · have ha : a ≠ blank := hl a (by simp)
    have hle := solids_le blank (selected_sublist kept l₀)
    have hone : solids blank [a] = 1 := by simp [solids, ha]
    rw [List.concat_eq_append, selected_append, solids_append, solids_append, hone] at h
    rw [List.concat_eq_append, selected_append]
    rw [selected, selected] at h ⊢
    split at h
    · next hkept =>
      rw [if_pos hkept]
      intro b hb
      rw [List.getLast?_concat, Option.mem_some_iff] at hb
      exact hb ▸ ha
    · have hzero : solids blank ([] : List α) = 0 := rfl
      omega

/-- A selection with all that is solid starts like the list. -/
theorem startsSolid_selected (kept : ℕ → Bool) (hl : StartsSolid blank l)
    (h : solids blank (selected kept l) = solids blank l) :
    StartsSolid blank (selected kept l) := by
  cases l with
  | nil => exact nofun
  | cons a l =>
      have ha : a ≠ blank := hl a rfl
      have hle := solids_le blank (selected_sublist (fun i => kept (i + 1)) l)
      have hcons : ∀ l : List α, solids blank (a :: l) = solids blank l + 1 := by
        intro l
        simp [solids, ha]
      rw [selected] at h ⊢
      split at h
      · next hkept =>
        rw [if_pos hkept]
        intro b hb
        rw [List.head?_cons, Option.mem_some_iff] at hb
        exact hb ▸ ha
      · rw [hcons] at h
        omega

/-- Two parts of a list that end at the same solid item are equal. -/
theorem append_inj_of_solids {l₁ l₂ l₁' l₂' : List α} (h : l₁ ++ l₂ = l₁' ++ l₂')
    (hsolids : solids blank l₁ = solids blank l₁') (hl : EndsSolid blank l₁)
    (hl' : EndsSolid blank l₁') : l₁ = l₁' ∧ l₂ = l₂' := by
  have hempty : ∀ {l m : List α}, EndsSolid blank (l ++ m) →
      solids blank l = solids blank (l ++ m) → m = [] := by
    intro l m hends heq
    rcases List.eq_nil_or_concat m with rfl | ⟨m, a, rfl⟩
    · rfl
    · have ha : a ≠ blank := hends a (by simp)
      have hone : solids blank [a] = 1 := by simp [solids, ha]
      rw [List.concat_eq_append, solids_append, solids_append, hone] at heq
      omega
  rcases List.append_eq_append_iff.1 h with ⟨m, rfl, rfl⟩ | ⟨m, rfl, rfl⟩
  · obtain rfl := hempty hl' hsolids
    exact ⟨by simp, by simp⟩
  · obtain rfl := hempty hl hsolids.symm
    exact ⟨by simp, by simp⟩

/-- **What a selection leaves of a run of blanks** that stands between the same items. -/
theorem selected_run {before after before' after' : List α} {e n : ℕ}
    (h : selected kept (before ++ (List.replicate e blank ++ after))
      = before' ++ (List.replicate n blank ++ after'))
    (hbefore : EndsSolid blank before) (hafter : StartsSolid blank after)
    (hbefore' : EndsSolid blank before') (hafter' : StartsSolid blank after')
    (hsolids : solids blank before' = solids blank before)
    (hsolids' : solids blank after' = solids blank after) :
    (selected (fun i => kept (before.length + i)) (List.replicate e blank)).length = n := by
  obtain ⟨m, -, hm⟩ := List.sublist_replicate_iff.1
    (selected_sublist (fun i => kept (before.length + i)) (List.replicate e blank))
  rw [selected_append, selected_append, hm] at h
  obtain ⟨kept₁, hkept₁⟩ : ∃ k : ℕ → Bool,
    k = fun i => kept (before.length + ((List.replicate e blank).length + i)) := ⟨_, rfl⟩
  rw [← hkept₁] at h
  have hle := solids_le blank (selected_sublist kept before)
  have hle' := solids_le blank (selected_sublist kept₁ after)
  have htotal := congrArg (solids blank) h
  simp only [solids_append, solids_replicate] at htotal
  have hends := endsSolid_selected kept hbefore (by omega)
  have hstarts := startsSolid_selected kept₁ hafter (by omega)
  obtain ⟨-, hrest⟩ := append_inj_of_solids h (by omega) hends hbefore'
  have hmn := replicate_eq_of_append_eq hrest hstarts hafter'
  rw [hm, List.length_replicate]
  exact hmn

end Runs

end Selection

namespace Atlas

open Python Selection

/-! ### Blocks of code -/

/-- Of a document's grammar, the lines that are in a block of code.  A block does not start with an
empty line: before an empty line of code there is another line, and if that is empty too it is code. -/
structure BlockGrammar where
  isCode : List (List Char) → ℕ → Prop
  startsSolid : ∀ doc i, isCode doc i → doc[i]? = some [] →
    ∃ i', i = i' + 1 ∧ (doc[i']? = some [] → isCode doc i')

/-- A document with lines left out, none of them code: every line of code is there, unchanged and in
its place. -/
def BlockGrammar.KeepsCode (G : BlockGrammar) (doc out : List (List Char)) : Prop :=
  ∃ kept : ℕ → Bool, out = selected kept doc ∧ ∀ i < doc.length, G.isCode doc i → kept i = true

/-- The marker of the fence that the tracker has open after a line. -/
def nextMarker : Option (List Char) → List Char → Option (List Char)
  | some marker, line => fenceAfter marker line
  | none, line => fenceOpen line

/-- The marker of the fence that the tracker has open after some lines. -/
def markerAfter (marker : Option (List Char)) (ls : List (List Char)) : Option (List Char) :=
  ls.foldl nextMarker marker

/-- Where the normalizer leaves an empty line: between lines that are not empty, inside one of the
tracker's fences or right after a line that is not empty. -/
structure StaysEmpty (doc : List (List Char)) (i : ℕ) : Prop where
  after : ∃ l ∈ doc.take i, l ≠ []
  before : ∃ l ∈ doc.drop (i + 1), l ≠ []
  stays : (markerAfter none (doc.take i)).isSome = true ∨ doc[i - 1]? ≠ some []

section Grammar

variable {G : BlockGrammar} {doc : List (List Char)} {i : ℕ}

/-- Before an empty line of code there is one that is not empty. -/
theorem BlockGrammar.exists_solid (hcode : G.isCode doc i) (hempty : doc[i]? = some []) :
    ∃ l ∈ doc.take i, l ≠ [] := by
  induction i with
  | zero =>
      obtain ⟨i', hi', -⟩ := G.startsSolid doc 0 hcode hempty
      omega
  | succ i ih =>
      obtain ⟨i', hi', hprevious⟩ := G.startsSolid doc (i + 1) hcode hempty
      obtain rfl : i = i' := by omega
      obtain ⟨hlt, -⟩ := List.getElem?_eq_some_iff.1 hempty
      by_cases hline : doc[i]? = some []
      · obtain ⟨l, hl, hne⟩ := ih (hprevious hline) hline
        exact ⟨l, (List.take_prefix_take_left (by omega)).subset hl, hne⟩
      · have hi : i < doc.length := by omega
        rw [List.getElem?_eq_getElem hi, Option.some.injEq] at hline
        exact ⟨doc[i], List.mem_take_iff_getElem.2 ⟨i, by omega, rfl⟩, hline⟩

end Grammar

/-! ### Which lines are left -/

section Left

variable {marker : Option (List Char)} {run run' : ℕ} {line : List Char} {ls ls' : List (List Char)}

theorem markerAfter_append (marker : Option (List Char)) (ls ls' : List (List Char)) :
    markerAfter marker (ls ++ ls') = markerAfter (markerAfter marker ls) ls' :=
  List.foldl_append

theorem nextMarker_nil (marker : Option (List Char)) : nextMarker marker [] = marker := by
  cases marker <;> rfl

/-- Empty lines leave the tracker where it is. -/
theorem markerAfter_empty (marker : Option (List Char)) (h : ∀ l ∈ ls, l = []) :
    markerAfter marker ls = marker := by
  induction ls with
  | nil => rfl
  | cons line ls ih =>
      obtain rfl := h line List.mem_cons_self
      rw [markerAfter, List.foldl_cons, nextMarker_nil]
      exact ih fun l hl => h l (List.mem_cons_of_mem _ hl)

/-- Whether the loop leaves a line: it is not empty, or inside a fence, or the first empty one. -/
def keptAt (marker : Option (List Char)) (run : ℕ) (ls : List (List Char)) (i : ℕ) : Bool :=
  decide (ls[i]? ≠ some []) || (markerAfter marker (ls.take i)).isSome ||
    match i with
    | 0 => decide (run = 0)
    | i + 1 => decide (ls[i]? ≠ some [])

theorem keptAt_succ (h : (nextMarker marker line).isSome = true ∨ (line ≠ [] ↔ run' = 0)) (i : ℕ) :
    keptAt marker run (line :: ls) (i + 1) = keptAt (nextMarker marker line) run' ls i := by
  have hmarker : markerAfter marker ((line :: ls).take (i + 1))
      = markerAfter (nextMarker marker line) (ls.take i) := rfl
  cases i with
  | zero =>
      rw [keptAt, keptAt, hmarker]
      rcases h with h | h
      · have htake : markerAfter (nextMarker marker line) (ls.take 0) = nextMarker marker line := rfl
        rw [htake, h, Bool.or_true, Bool.true_or, Bool.or_true, Bool.true_or]
      · have hline : decide ((line :: ls)[0]? ≠ some []) = decide (run' = 0) :=
          decide_eq_decide.2 (by simpa using h)
        simp only [hline]
        rfl
  | succ i =>
      rw [keptAt, keptAt, hmarker]
      rfl

/-- **The lines that the loop leaves, by their places.** -/
theorem selected_keptAt (marker : Option (List Char)) (run : ℕ) (ls : List (List Char)) :
    selected (keptAt marker run ls) ls = normalizeMarkdownLines marker run ls := by
  induction ls generalizing marker run with
  | nil => cases marker <;> rfl
  | cons line ls ih =>
      have hrest : ∀ run', (nextMarker marker line).isSome = true ∨ (line ≠ [] ↔ run' = 0) →
          selected (fun i => keptAt marker run (line :: ls) (i + 1)) ls
            = normalizeMarkdownLines (nextMarker marker line) run' ls := by
        intro run' h
        rw [← ih (nextMarker marker line) run']
        exact selected_congr fun i _ => keptAt_succ h i
      cases marker with
      | some marker =>
          have hfirst : keptAt (some marker) run (line :: ls) 0 = true := by
            rw [keptAt, Bool.or_eq_true, Bool.or_eq_true]
            exact .inl (.inr rfl)
          have hnext : (nextMarker (some marker) line).isSome = true ∨ (line ≠ [] ↔ 0 = 0) := by
            by_cases hline : line = []
            · subst hline
              exact .inl rfl
            · exact .inr (by simp [hline])
          rw [selected, if_pos hfirst, hrest 0 hnext, normalizeMarkdownLines]
          rfl
      | none =>
          have hfirst : keptAt none run (line :: ls) 0
              = (decide (line ≠ []) || decide (run = 0)) := by
            have htake : markerAfter none ((line :: ls).take 0) = none := rfl
            rw [keptAt, htake]
            simp
          rw [selected, hfirst, normalizeMarkdownLines]
          cases hopen : fenceOpen line with
          | some marker =>
              have hline : line ≠ [] := by
                rintro rfl
                cases hopen
              have hnext : nextMarker none line = some marker := hopen
              rw [if_pos (by simp [hline]), hrest 0 (.inr (by simp [hline])), hnext]
          | none =>
              have hnext : nextMarker none line = none := hopen
              by_cases hline : line = []
              · subst hline
                simp only [if_pos]
                rw [hrest (run + 1) (.inr (by simp)), hnext]
                by_cases hrun : run = 0
                · rw [if_pos (by simp [hrun]), if_pos (by omega)]
                · rw [if_neg (by simp [hrun]), if_neg (by omega)]
              · simp only [if_neg hline]
                rw [if_pos (by simp [hline]), hrest 0 (.inr (by simp [hline])), hnext]

/-- The loop goes on after a line that is not empty with no empty lines before. -/
theorem normalizeMarkdownLines_append (marker : Option (List Char)) (run : ℕ) (hne : ls ≠ [])
    (hends : EndsSolid [] ls) (ls' : List (List Char)) :
    normalizeMarkdownLines marker run (ls ++ ls') = normalizeMarkdownLines marker run ls
      ++ normalizeMarkdownLines (markerAfter marker ls) 0 ls' := by
  induction ls generalizing marker run with
  | nil => exact absurd rfl hne
  | cons line ls ih =>
      have hmarker : markerAfter marker (line :: ls) = markerAfter (nextMarker marker line) ls := rfl
      have hrest : ∀ run', (ls = [] → run' = 0) →
          normalizeMarkdownLines (nextMarker marker line) run' (ls ++ ls')
            = normalizeMarkdownLines (nextMarker marker line) run' ls
              ++ normalizeMarkdownLines (markerAfter marker (line :: ls)) 0 ls' := by
        intro run' hrun
        rw [hmarker]
        by_cases hls : ls = []
        · subst hls
          rw [hrun rfl]
          cases nextMarker marker line <;> rfl
        · refine ih _ run' hls fun a ha => hends a ?_
          rw [List.getLast?_cons, Option.mem_def.1 ha]
          rfl
      cases marker with
      | some marker =>
          have hnext : nextMarker (some marker) line = fenceAfter marker line := rfl
          rw [List.cons_append, normalizeMarkdownLines, normalizeMarkdownLines, ← hnext,
            hrest 0 fun _ => rfl, List.cons_append]
      | none =>
          rw [List.cons_append, normalizeMarkdownLines, normalizeMarkdownLines]
          cases hopen : fenceOpen line with
          | some marker =>
              have hnext : nextMarker none line = some marker := hopen
              simp only []
              rw [← hnext, hrest 0 fun _ => rfl, List.cons_append]
          | none =>
              have hnext : nextMarker none line = none := hopen
              have hempty : line = [] → ls ≠ [] := by
                rintro rfl rfl
                exact hends [] rfl rfl
              rw [hnext] at hrest
              by_cases hline : line = []
              · have hlater := hrest (run + 1) fun hls => absurd hls (hempty hline)
                simp only [if_pos hline, hlater]
                split
                · rw [List.cons_append]
                · rfl
              · simp only [if_neg hline, hrest 0 fun _ => rfl, List.cons_append]

/-- Inside a fence a run of empty lines is left. -/
theorem normalizeMarkdownLines_fenced (marker : List Char) (run e : ℕ) (ls : List (List Char)) :
    normalizeMarkdownLines (some marker) run (List.replicate e [] ++ ls)
      = List.replicate e [] ++ normalizeMarkdownLines (some marker) 0 ls := by
  induction e generalizing run with
  | zero =>
      cases ls <;> rfl
  | succ e ih =>
      have hnext : fenceAfter marker [] = some marker := rfl
      rw [List.replicate_succ, List.cons_append, normalizeMarkdownLines, hnext, ih,
        List.cons_append]

/-- Outside fences one of a run of empty lines is left. -/
theorem normalizeMarkdownLines_run (e : ℕ) (h : StartsSolid [] ls) :
    normalizeMarkdownLines none 0 (List.replicate (e + 1) [] ++ ls)
      = [] :: normalizeMarkdownLines none 0 ls := by
  have hrun : ∀ run, normalizeMarkdownLines none run ls = normalizeMarkdownLines none 0 ls := by
    intro run
    cases ls with
    | nil => rfl
    | cons line ls =>
        have hline : line ≠ [] := h line rfl
        rw [normalizeMarkdownLines, normalizeMarkdownLines, if_neg hline, if_neg hline]
  have hlater : ∀ e run, 1 ≤ run → normalizeMarkdownLines none run (List.replicate e [] ++ ls)
      = normalizeMarkdownLines none 0 ls := by
    intro e
    induction e with
    | zero => exact fun run _ => hrun run
    | succ e ih =>
        intro run hpos
        rw [List.replicate_succ, List.cons_append, normalizeMarkdownLines, fenceOpen_nil]
        simp only [if_pos]
        rw [if_neg (by omega), ih (run + 1) (by omega)]
  rw [List.replicate_succ, List.cons_append, normalizeMarkdownLines, fenceOpen_nil]
  simp only [if_pos]
  rw [if_pos (by omega), hlater e 1 le_rfl]

/-- A document that starts with a line that is not empty still does. -/
theorem startsSolid_normalizeMarkdownLines (marker : Option (List Char)) (h : StartsSolid [] ls) :
    StartsSolid [] (normalizeMarkdownLines marker 0 ls) := by
  cases ls with
  | nil => cases marker <;> exact nofun
  | cons line ls =>
      have hline : line ≠ [] := h line rfl
      have hcons : ∀ rest : List (List Char), StartsSolid [] (line :: rest) := by
        rintro rest _ ⟨⟩
        exact hline
      cases marker with
      | some marker => exact hcons _
      | none =>
          rw [normalizeMarkdownLines, if_neg hline]
          split
          · exact hcons _
          · exact hcons _

theorem endsSolid_normalizeMarkdownLines (marker : Option (List Char)) (h : EndsSolid [] ls) :
    EndsSolid [] (normalizeMarkdownLines marker 0 ls) := by
  rcases List.eq_nil_or_concat ls with rfl | ⟨ls₀, last, rfl⟩
  · cases marker <;> exact nofun
  · have hlast : last ≠ [] := h last (by simp)
    have hends := getLast?_normalizeMarkdownLines hlast marker 0
      (by simp : (ls₀.concat last).getLast? = some last)
    rintro a ha
    rw [hends, Option.mem_some_iff] at ha
    exact ha ▸ hlast

/-- The loop leaves every line that is not empty. -/
theorem solids_normalizeMarkdownLines (marker : Option (List Char)) (run : ℕ)
    (ls : List (List Char)) : solids [] (normalizeMarkdownLines marker run ls) = solids [] ls := by
  induction ls generalizing marker run with
  | nil => cases marker <;> rfl
  | cons line ls ih =>
      have hcons : ∀ marker run, solids [] (line :: normalizeMarkdownLines marker run ls)
          = solids [] (line :: ls) := by
        intro marker run
        have happend := solids_append [] [line]
        rw [← List.singleton_append, happend, ih, ← happend, List.singleton_append]
      cases marker with
      | some marker => exact hcons _ _
      | none =>
          rw [normalizeMarkdownLines]
          split
          · exact hcons _ _
          · split
            · next hline =>
              split
              · exact hcons _ _
              · subst hline
                exact ih none (run + 1)
            · exact hcons _ _

end Left

/-! ### The whole document -/

section Document

variable {doc before after : List (List Char)} {e i : ℕ}

/-- Stripping goes as far as the first line that is not empty, and back to the last. -/
theorem stripLines_run (hbefore : EndsSolid [] before) (hne : before ≠ [])
    (hafter : StartsSolid [] after) (hne' : after ≠ []) :
    stripLines (before ++ (List.replicate e [] ++ after)) = before.dropWhile (· = [])
      ++ (List.replicate e [] ++ after.rdropWhile (· = [])) := by
  rw [stripLines, stripWhile, hbefore.dropWhile_append hne, ← List.append_assoc,
    hafter.rdropWhile_append hne', List.append_assoc]

/-- At the end of a document nothing is left of a run of empty lines. -/
theorem stripLines_end (hbefore : EndsSolid [] before) (hne : before ≠ []) :
    stripLines (before ++ List.replicate e []) = before.dropWhile (· = []) := by
  rw [stripLines, stripWhile, hbefore.dropWhile_append hne, hbefore.dropWhile.rdropWhile_append]

/-- What the normalizer leaves of a run of empty lines: nothing at the ends of the document, one
outside fences, all inside. -/
theorem normalizeMarkdownLines_stripLines (hbefore : EndsSolid [] before) (hne : before ≠ [])
    (hafter : StartsSolid [] after) : ∃ before' n after',
      normalizeMarkdownLines none 0 (stripLines (before ++ (List.replicate e [] ++ after)))
        = before' ++ (List.replicate n [] ++ after') ∧
      EndsSolid [] before' ∧ StartsSolid [] after' ∧ solids [] before' = solids [] before ∧
      solids [] after' = solids [] after ∧ (after = [] → n = 0) ∧
      (markerAfter none before = none → n ≤ 1) := by
  obtain ⟨before₁, hbefore₁⟩ : ∃ ls, ls = before.dropWhile (· = []) := ⟨_, rfl⟩
  have hends : EndsSolid [] before₁ := hbefore₁ ▸ hbefore.dropWhile
  have hne₁ : before₁ ≠ [] := hbefore₁ ▸ hbefore.dropWhile_ne_nil hne
  have hsolids : solids [] before₁ = solids [] before := hbefore₁ ▸ solids_dropWhile [] before
  by_cases hnil : after = []
  · subst hnil
    refine ⟨normalizeMarkdownLines none 0 before₁, 0, [], ?_, ?_, nofun, ?_, rfl, fun _ => rfl,
      fun _ => Nat.zero_le 1⟩
    · rw [List.append_nil, stripLines_end hbefore hne, ← hbefore₁]
      simp
    · exact endsSolid_normalizeMarkdownLines none hends
    · rw [solids_normalizeMarkdownLines, hsolids]
  · obtain ⟨after₁, hafter₁⟩ : ∃ ls, ls = after.rdropWhile (· = []) := ⟨_, rfl⟩
    have hstarts : StartsSolid [] after₁ := hafter₁ ▸ hafter.rdropWhile
    have hsolids' : solids [] after₁ = solids [] after := hafter₁ ▸ solids_rdropWhile [] after
    have hmarker : markerAfter none before = markerAfter none before₁ := by
      have hempty : markerAfter none (before.takeWhile (· = [])) = none :=
        markerAfter_empty none fun l hl => by simpa using List.mem_takeWhile_imp hl
      conv_lhs => rw [← List.takeWhile_append_dropWhile (p := fun l => decide (l = [])) (l := before)]
      rw [markerAfter_append, hempty, hbefore₁]
    have hrun : ∃ n, normalizeMarkdownLines (markerAfter none before₁) 0
        (List.replicate e [] ++ after₁) = List.replicate n []
          ++ normalizeMarkdownLines (markerAfter none before₁) 0 after₁ ∧
        (markerAfter none before₁ = none → n ≤ 1) := by
      cases markerAfter none before₁ with
      | some marker => exact ⟨e, normalizeMarkdownLines_fenced marker 0 e after₁, nofun⟩
      | none =>
          cases e with
          | zero => exact ⟨0, rfl, fun _ => Nat.zero_le 1⟩
          | succ e => exact ⟨1, normalizeMarkdownLines_run e hstarts, fun _ => le_rfl⟩
    obtain ⟨n, hn, hle⟩ := hrun
    refine ⟨normalizeMarkdownLines none 0 before₁, n,
      normalizeMarkdownLines (markerAfter none before₁) 0 after₁, ?_, ?_, ?_, ?_, ?_,
      fun h => absurd h hnil, fun h => hle (hmarker ▸ h)⟩
    · rw [stripLines_run hbefore hne hafter hnil, ← hbefore₁, ← hafter₁,
        normalizeMarkdownLines_append none 0 hne₁ hends, hn]
    · exact endsSolid_normalizeMarkdownLines none hends
    · exact startsSolid_normalizeMarkdownLines _ hstarts
    · rw [solids_normalizeMarkdownLines, hsolids]
    · rw [solids_normalizeMarkdownLines, hsolids']

/-- The lines of a normalized document. -/
theorem lines_normalizeMarkdownText_of_solid {text : List Char}
    (h : ∃ l ∈ lines (unifyNewlines text), l ≠ []) : lines (normalizeMarkdownText text)
      = normalizeMarkdownLines none 0 (stripLines (lines (unifyNewlines text))) := by
  obtain ⟨l, hl, hne⟩ := h
  have hfree : LineFree (normalizeMarkdownLines none 0 (stripLines (lines (unifyNewlines text)))) :=
    fun l hl => lineFree_stripLines (lineFree_lines _) l
      ((normalizeMarkdownLines_sublist none 0 _).subset hl)
  rw [normalizeMarkdownText_eq, lines_unlines hfree]
  intro hnil
  have hsolids := solids_normalizeMarkdownLines none 0 (stripLines (lines (unifyNewlines text)))
  rw [hnil, stripLines, stripWhile, solids_rdropWhile, solids_dropWhile, solids] at hsolids
  have hpos : 0 < solids [] (lines (unifyNewlines text)) :=
    List.length_pos_of_mem (List.mem_filter.2 ⟨hl, by simpa using hne⟩)
  rw [← hsolids] at hpos
  exact Nat.lt_irrefl 0 hpos

variable {G : BlockGrammar}

/-- A document that is left with its code has its empty lines of code left. -/
theorem BlockGrammar.KeepsCode.staysEmpty
    (h : G.KeepsCode doc (normalizeMarkdownLines none 0 (stripLines doc))) (hcode : G.isCode doc i)
    (hempty : doc[i]? = some []) : StaysEmpty doc i := by
  obtain ⟨kept, hout, hkept⟩ := h
  obtain ⟨solid, hsolid, hne⟩ := G.exists_solid hcode hempty
  obtain ⟨before, e, after, rfl, hle, hlt, hbefore, hafter⟩ := exists_run hempty
  have htake : (before ++ (List.replicate e [] ++ after)).take i
      = before ++ List.replicate (i - before.length) [] := by
    rw [List.take_append, List.take_of_length_le hle, List.take_append,
      List.take_replicate, Nat.min_eq_left (by omega), List.length_replicate,
      Nat.sub_eq_zero_of_le (by omega : i - before.length ≤ e), List.take_zero, List.append_nil]
  have hne' : before ≠ [] := by
    rintro rfl
    rw [htake, List.nil_append] at hsolid
    exact hne (List.eq_of_mem_replicate hsolid)
  obtain ⟨before', n, after', hleft, hbefore', hafter', hsolids, hsolids', hend, hmarker⟩ :=
    normalizeMarkdownLines_stripLines (e := e) hbefore hne' hafter
  have hlength := selected_run (hout.symm.trans hleft) hbefore hafter hbefore' hafter' hsolids hsolids'
  have hi : kept (before.length + (i - before.length)) = true := by
    rw [Nat.add_sub_cancel' hle]
    refine hkept i ?_ hcode
    simp only [List.length_append, List.length_replicate]
    omega
  constructor
  case after => exact ⟨solid, hsolid, hne⟩
  case before =>
    have hone := one_le_of_kept (fun k => kept (before.length + k)) ([] : List Char)
      (by omega : i - before.length < e) hi
    have hsome : after ≠ [] := fun hnil => by
      have := hend hnil
      omega
    obtain ⟨l, hl⟩ : ∃ l, after.head? = some l := ⟨_, List.head?_eq_some_head hsome⟩
    refine ⟨l, ?_, hafter l hl⟩
    rw [List.drop_append, List.drop_append, List.length_replicate,
      Nat.sub_eq_zero_of_le (by omega : i + 1 - before.length ≤ e), List.drop_zero]
    exact List.mem_append_right _ (List.mem_append_right _ (List.mem_of_head? hl))
  case stays =>
    by_contra hnot
    rw [not_or, not_not, htake, markerAfter_append,
      markerAfter_empty _ fun l hl => List.eq_of_mem_replicate hl, Bool.not_eq_true,
      Option.isSome_eq_false_iff, Option.isNone_iff_eq_none] at hnot
    obtain ⟨hopen, hprevious⟩ := hnot
    obtain ⟨i', rfl, hcode'⟩ := G.startsSolid _ i hcode hempty
    rw [Nat.add_sub_cancel] at hprevious
    have hi' : before.length ≤ i' := by
      by_contra hlt'
      obtain rfl : i' = before.length - 1 := by omega
      rw [List.getElem?_append_left (by omega), ← List.getLast?_eq_getElem?] at hprevious
      exact hbefore [] hprevious rfl
    have hkept' : kept (before.length + (i' - before.length)) = true := by
      rw [Nat.add_sub_cancel' hi']
      refine hkept i' ?_ (hcode' hprevious)
      simp only [List.length_append, List.length_replicate]
      omega
    have hnext : i' + 1 - before.length = i' - before.length + 1 := by omega
    have htwo := two_le_of_kept (fun k => kept (before.length + k)) ([] : List Char)
      (by omega : i' - before.length + 1 < e) hkept' (hnext ▸ hi)
    have hone := hmarker hopen
    omega

/-- In the core of a document an empty line stays if the loop leaves it. -/
theorem staysEmpty_core {first core last : List (List Char)} (hfirst : ∀ l ∈ first, l = [])
    (hstarts : StartsSolid [] core) (hends : EndsSolid [] core) (hempty : core[i]? = some []) :
    StaysEmpty (first ++ (core ++ last)) (first.length + i) ↔ keptAt none 0 core i = true := by
  obtain ⟨hi, -⟩ := List.getElem?_eq_some_iff.1 hempty
  have htake : (first ++ (core ++ last)).take (first.length + i) = first ++ core.take i := by
    rw [List.take_length_add_append, List.take_append_of_le_length hi.le]
  have hmarker : markerAfter none (first ++ core.take i) = markerAfter none (core.take i) := by
    rw [markerAfter_append, markerAfter_empty none hfirst]
  cases i with
  | zero =>
      rw [← List.head?_eq_getElem?] at hempty
      exact absurd rfl (hstarts [] hempty)
  | succ i =>
      have hget : (first ++ (core ++ last))[first.length + (i + 1) - 1]? = core[i]? := by
        rw [← Nat.add_assoc, Nat.add_sub_cancel, List.getElem?_append_right (by omega),
          Nat.add_sub_cancel_left, List.getElem?_append_left (by omega)]
      have hkept : keptAt none 0 core (i + 1) = true ↔
          (markerAfter none (core.take (i + 1))).isSome = true ∨ core[i]? ≠ some [] := by
        rw [keptAt, hempty]
        simp
      rw [hkept]
      constructor
      · intro h
        have hstays := h.stays
        rwa [htake, hmarker, hget] at hstays
      · intro h
        constructor
        case stays => rwa [htake, hmarker, hget]
        case after =>
          obtain ⟨l, core, rfl⟩ := List.exists_cons_of_ne_nil (List.ne_nil_of_length_pos
            (by omega : 0 < core.length))
          exact ⟨l, by rw [htake]; simp, hstarts l rfl⟩
        case before =>
          have hne : core.drop (i + 2) ≠ [] := by
            intro hnil
            rw [List.drop_eq_nil_iff] at hnil
            have hlast : i + 1 = core.length - 1 := by omega
            rw [hlast, ← List.getLast?_eq_getElem?] at hempty
            exact hends [] hempty rfl
          refine ⟨(core.drop (i + 2)).getLast hne, ?_, ?_⟩
          · have hdrop : (first ++ (core ++ last)).drop (first.length + (i + 1) + 1)
                = core.drop (i + 2) ++ last := by
              rw [Nat.add_assoc, List.drop_length_add_append, List.drop_append_of_le_length (by omega)]
            rw [hdrop]
            exact List.mem_append_left _ (List.getLast_mem hne)
          · refine hends _ ?_
            have hlast := List.getLast_mem_getLast? hne
            rw [List.getLast?_drop] at hlast
            simp only [Option.mem_def] at hlast ⊢
            split at hlast
            · cases hlast
            · exact hlast

/-- **Which lines the normalizer leaves**: those that are not empty, and the empty ones that stay. -/
theorem selected_staysEmpty (doc : List (List Char)) (kept : ℕ → Bool)
    (hkept : ∀ i < doc.length, kept i = true ↔ doc[i]? ≠ some [] ∨ StaysEmpty doc i) :
    selected kept doc = normalizeMarkdownLines none 0 (stripLines doc) := by
  obtain ⟨first, last, hdoc, hfirst, hlast⟩ := stripWhile_infix (· = []) doc
  obtain ⟨core, hcore⟩ : ∃ core, core = stripWhile (· = []) doc := ⟨_, rfl⟩
  have hstripped : Stripped (· = []) core := hcore ▸ stripped_stripWhile _ doc
  have hstarts : StartsSolid [] core := fun l hl => by simpa using hstripped.1 l hl
  have hends : EndsSolid [] core := fun l hl => by simpa using hstripped.2 l hl
  have hempty : ∀ l ∈ first, l = [] := fun l hl => by simpa using hfirst l hl
  have hempty' : ∀ l ∈ last, l = [] := fun l hl => by simpa using hlast l hl
  rw [stripLines, ← hcore]
  rw [← hcore] at hdoc
  clear hcore
  subst hdoc
  have hnone : selected kept first = [] := by
    refine selected_eq_nil fun i hi => ?_
    rw [← Bool.not_eq_true, hkept i (by rw [List.length_append]; omega), not_or, not_not]
    refine ⟨?_, fun h => ?_⟩
    · rw [List.getElem?_append_left hi, List.getElem?_eq_getElem hi, hempty _ (List.getElem_mem hi)]
    · obtain ⟨l, hl, hne⟩ := h.after
      rw [List.take_append_of_le_length hi.le] at hl
      exact hne (hempty l (List.mem_of_mem_take hl))
  have hnone' : selected (fun i => kept (first.length + (core.length + i))) last = [] := by
    refine selected_eq_nil fun i hi => ?_
    rw [← Bool.not_eq_true, hkept _ (by simp only [List.length_append]; omega), not_or, not_not]
    refine ⟨?_, fun h => ?_⟩
    · rw [List.getElem?_append_right (by omega), Nat.add_sub_cancel_left,
        List.getElem?_append_right (by omega), Nat.add_sub_cancel_left, List.getElem?_eq_getElem hi,
        hempty' _ (List.getElem_mem hi)]
    · obtain ⟨l, hl, hne⟩ := h.before
      rw [Nat.add_assoc, List.drop_length_add_append, Nat.add_assoc,
        List.drop_length_add_append] at hl
      exact hne (hempty' l (List.mem_of_mem_drop hl))
  have hsame : selected (fun i => kept (first.length + i)) core
      = selected (keptAt none 0 core) core := by
    refine selected_congr fun i hi => Bool.eq_iff_iff.2 ?_
    have hget : (first ++ (core ++ last))[first.length + i]? = core[i]? := by
      rw [List.getElem?_append_right (by omega), Nat.add_sub_cancel_left,
        List.getElem?_append_left hi]
    rw [hkept _ (by simp only [List.length_append]; omega), hget]
    by_cases hline : core[i]? = some []
    · rw [staysEmpty_core hempty hstarts hends hline]
      simp [hline]
    · rw [keptAt.eq_def]
      simp [hline]
  rw [selected_append, selected_append, hnone, hnone', hsame, selected_keptAt]
  simp

/-- **Code is kept exactly where its empty lines stay**: in every grammar, a document is left with
all its lines of code in place if and only if each empty one is before a line that is not empty, and
inside one of the tracker's fences or right after a line that is not empty. -/
theorem keepsCode_iff (G : BlockGrammar) (text : List Char) :
    G.KeepsCode (lines (unifyNewlines text)) (lines (normalizeMarkdownText text)) ↔
      ∀ i, G.isCode (lines (unifyNewlines text)) i → (lines (unifyNewlines text))[i]? = some [] →
        StaysEmpty (lines (unifyNewlines text)) i := by
  by_cases hsolid : ∃ l ∈ lines (unifyNewlines text), l ≠ []
  · rw [lines_normalizeMarkdownText_of_solid hsolid]
    constructor
    · exact fun h i hcode hempty => h.staysEmpty hcode hempty
    · intro h
      classical
      obtain ⟨kept, hkept⟩ : ∃ kept : ℕ → Bool, ∀ i, kept i = true ↔
          (lines (unifyNewlines text))[i]? ≠ some [] ∨
            StaysEmpty (lines (unifyNewlines text)) i :=
        ⟨fun i => decide _, fun i => decide_eq_true_iff⟩
      refine ⟨kept, (selected_staysEmpty _ kept fun i _ => hkept i).symm, fun i _ hcode => ?_⟩
      rw [hkept, or_iff_not_imp_left, not_not]
      exact h i hcode
  · -- a document of empty lines has no code
    have hempty : ∀ l ∈ lines (unifyNewlines text), l = [] := by simpa using hsolid
    have hnone : ∀ i < (lines (unifyNewlines text)).length,
        ¬ G.isCode (lines (unifyNewlines text)) i := by
      intro i hi hcode
      obtain ⟨l, hl, hne⟩ := G.exists_solid hcode
        (by rw [List.getElem?_eq_getElem hi, hempty _ (List.getElem_mem hi)])
      exact hne (hempty l (List.mem_of_mem_take hl))
    constructor
    · exact fun _ i hcode hline => absurd hcode (hnone i (List.getElem?_eq_some_iff.1 hline).1)
    · intro _
      refine ⟨fun i => decide (i = 0), ?_, fun i hi hcode => absurd hcode (hnone i hi)⟩
      have hstrip : stripLines (lines (unifyNewlines text)) = [] := by
        have hdrop : (lines (unifyNewlines text)).dropWhile (· = []) = [] :=
          List.dropWhile_eq_nil_iff.2 fun l hl => by simpa using hempty l hl
        rw [stripLines, stripWhile, hdrop]
        rfl
      obtain ⟨l, ls, hls⟩ := List.exists_cons_of_ne_nil (lines_ne_nil (unifyNewlines text))
      obtain rfl := hempty l (by rw [hls]; exact List.mem_cons_self)
      have hrest : selected (fun i => decide (i + 1 = 0)) ls = [] :=
        selected_eq_nil fun i _ => by simp
      rw [normalizeMarkdownText_eq, hstrip, hls, selected, hrest]
      rfl

end Document

/-! ### Paragraphs and code -/

/-- A line of spaces and tabs. -/
def isBlankLine (line : List Char) : Bool := line.all isBlankChar

/-- The column after the blanks a line starts with; a tab goes to the next multiple of four. -/
def indentFrom : ℕ → List Char → ℕ
  | column, ' ' :: rest => indentFrom (column + 1) rest
  | column, '\t' :: rest => indentFrom (column + (4 - column % 4)) rest
  | column, _ => column

/-- The character and the length of the fence that a line opens: at most three columns in, and no
backtick after a run of them. -/
def opensFence (line : List Char) : Option (Char × ℕ) :=
  let content := line.dropWhile isBlankChar
  if 4 ≤ indentFrom 0 line then none
  else if 3 ≤ (content.takeWhile (· = '`')).length ∧ '`' ∉ content.dropWhile (· = '`') then
    some ('`', (content.takeWhile (· = '`')).length)
  else if 3 ≤ (content.takeWhile (· = '~')).length then
    some ('~', (content.takeWhile (· = '~')).length)
  else none

/-- A line closes a fence with a run of its character that is as long, with only blanks after. -/
def closesFence (mark : Char) (size : ℕ) (line : List Char) : Bool :=
  let content := line.dropWhile isBlankChar
  decide (indentFrom 0 line ≤ 3) && decide (size ≤ (content.takeWhile (· = mark)).length) &&
    isBlankLine (content.dropWhile (· = mark))

/-- The block that is open between two lines. -/
inductive OpenBlock
  | none
  | paragraph
  | indented
  | fenced (mark : Char) (size : ℕ)
  deriving DecidableEq

/-- The block that is open after a line.  An indented line goes on with a paragraph. -/
def OpenBlock.next : OpenBlock → List Char → OpenBlock
  | .fenced mark size, line => if closesFence mark size line then .none else .fenced mark size
  | block, line =>
      if isBlankLine line then if block = .paragraph then .none else block
      else if 4 ≤ indentFrom 0 line ∧ block ≠ .paragraph then .indented
      else
        match opensFence line with
        | some (mark, size) => .fenced mark size
        | Option.none => .paragraph

/-- The next line that is not blank is indented as code. -/
def codeFollows (rest : List (List Char)) : Bool :=
  match rest.dropWhile isBlankLine with
  | line :: _ => decide (4 ≤ indentFrom 0 line)
  | [] => false

/-- Whether a line is code; a blank one in indented code is if there is more of it. -/
def OpenBlock.isCodeLine : OpenBlock → List Char → List (List Char) → Bool
  | .fenced _ _, _, _ => true
  | block, line, rest =>
      if isBlankLine line then decide (block = .indented) && codeFollows rest
      else (decide (4 ≤ indentFrom 0 line) && decide (block ≠ .paragraph)) || (opensFence line).isSome

/-- Whether the line at a place is code. -/
def isLeafCode : OpenBlock → List (List Char) → ℕ → Bool
  | _, [], _ => false
  | block, line :: rest, 0 => block.isCodeLine line rest
  | block, line :: rest, i + 1 => isLeafCode (block.next line) rest i

/-- Before an empty line of code, other than the first, there is another line, and if that is empty it
is code. -/
theorem isLeafCode_startsSolid (block : OpenBlock) {doc : List (List Char)} {i : ℕ}
    (hcode : isLeafCode block doc i = true) (hempty : doc[i]? = some []) :
    (i = 0 ∧ block ≠ .none ∧ block ≠ .paragraph) ∨
      ∃ i', i = i' + 1 ∧ (doc[i']? = some [] → isLeafCode block doc i' = true) := by
  induction doc generalizing block i with
  | nil => cases hempty
  | cons line rest ih =>
      cases i with
      | zero =>
          obtain rfl : line = [] := by simpa using hempty
          refine .inl ⟨rfl, ?_, ?_⟩ <;>
            (rintro rfl
             cases hcode)
      | succ i =>
          refine .inr ⟨i, rfl, fun hline => ?_⟩
          rcases ih (block.next line) hcode (by simpa using hempty) with ⟨rfl, hnone, hparagraph⟩ |
            ⟨i', rfl, hprevious⟩
          · obtain rfl : line = [] := by simpa using hline
            obtain ⟨rest, rfl⟩ : ∃ rest', rest = [] :: rest' := by
              cases rest with
              | nil => cases hempty
              | cons line rest =>
                  obtain rfl : line = [] := by simpa using hempty
                  exact ⟨rest, rfl⟩
            cases block with
            | none => exact absurd rfl hnone
            | paragraph => exact absurd rfl hnone
            | indented => exact hcode
            | fenced mark size => rfl
          · exact hprevious (by simpa using hline)

/-- The code blocks of a document of paragraphs, indented code and fenced code. -/
def leafBlocks : BlockGrammar where
  isCode doc i := isLeafCode .none doc i = true
  startsSolid doc i hcode hempty := by
    rcases isLeafCode_startsSolid .none hcode hempty with ⟨-, hnone, -⟩ | h
    · exact absurd rfl hnone
    · exact h

/-- A fenced block whose fences are one space in, with two empty lines inside. -/
def indentedFence : List Char := " ```\na\n\n\nb\n ```".toList

/-- All of its lines are code, and it loses one. -/
theorem indentedFence_loses_a_line :
    (∀ i < 6, leafBlocks.isCode (lines (unifyNewlines indentedFence)) i) ∧
      normalizeMarkdownText indentedFence = " ```\na\n\nb\n ```".toList ∧
      ¬ leafBlocks.KeepsCode (lines (unifyNewlines indentedFence))
        (lines (normalizeMarkdownText indentedFence)) := by
  have hcode : ∀ i < 6, isLeafCode .none (lines (unifyNewlines indentedFence)) i = true := by
    decide +kernel
  refine ⟨hcode, by decide +kernel, fun h => ?_⟩
  rw [lines_normalizeMarkdownText_of_solid ⟨['a'], by decide +kernel, by simp⟩] at h
  have hstays := (h.staysEmpty (hcode 3 (by omega)) (by decide +kernel)).stays
  revert hstays
  decide +kernel

end Atlas
