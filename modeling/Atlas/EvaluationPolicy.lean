/-
**Which failures of an evaluation are terminal.**

The category of an evaluation that did not pass is found by reading its failed dimensions in the order
they come: the first hard one decides.  Citation integrity and tool use are meant to be terminal at
once, and the structure of a report to be repaired; where both fail, the order tells.

Main definitions:

* `Atlas.failedDimensions` — the dimensions that the policy looks at;
* `Atlas.HardFailsAreTerminal` — a failure of citations or tools makes the decision terminal;
* `Atlas.OrderFree` — the decision is one of the set of the dimensions;
* `Atlas.OneHardName` — no two hard dimensions failed.

Main results:

* `Atlas.hardQuality_iff` — **both hold exactly where one hard dimension failed at most**;
* `Atlas.listed_hardFailsAreTerminal` — what the order of the names makes of the first.
-/

import Atlas.RecoveryRepository

set_option relaxedAutoImplicit false
set_option autoImplicit false

namespace Atlas

/-- The dimensions the policy looks at: those that failed and were graded. -/
def failedDimensions (dimensions : List DimensionResult) : List DimensionResult :=
  dimensions.filter fun item => !item.passed && item.method != .skipped

/-- Citation integrity or tool use is among the failed dimensions. -/
def HardFails (dimensions : List DimensionResult) : Prop :=
  ∃ item ∈ failedDimensions dimensions, item.name = .citationIntegrity ∨ item.name = .toolUse

/-- A failure of citations or tools makes the decision terminal, for hard quality. -/
def HardFailsAreTerminal (dimensions : List DimensionResult) (counts : AttemptCounts) : Prop :=
  HardFails dimensions → (decideForEvaluation false dimensions counts).action = .terminal ∧
    (decideForEvaluation false dimensions counts).reasonCode = "HARD_QUALITY_FAIL"

/-- The decision depends on the set of the dimensions alone. -/
def OrderFree (dimensions : List DimensionResult) (counts : AttemptCounts) : Prop :=
  ∀ dimensions', (∀ item, item ∈ dimensions' ↔ item ∈ dimensions) →
    decideForEvaluation false dimensions' counts = decideForEvaluation false dimensions counts

/-- No two hard dimensions failed. -/
def OneHardName (dimensions : List DimensionResult) : Prop :=
  ∀ item ∈ failedDimensions dimensions, ∀ item' ∈ failedDimensions dimensions,
    item.name.hardCategory.isSome = true → item'.name.hardCategory.isSome = true →
      item.name = item'.name

/-- The failed hard dimension that decides. -/
def firstHard (dimensions : List DimensionResult) : Option DimensionResult :=
  (failedDimensions dimensions).find? (·.name.hardCategory.isSome)

section Category

variable {dimensions dimensions' : List DimensionResult} {counts : AttemptCounts}
  {item : DimensionResult} {category : FailureCategory}

theorem mem_failedDimensions (h : ∀ item, item ∈ dimensions' ↔ item ∈ dimensions)
    (item : DimensionResult) :
    item ∈ failedDimensions dimensions' ↔ item ∈ failedDimensions dimensions := by
  rw [failedDimensions, failedDimensions, List.mem_filter, List.mem_filter, h]

theorem hardCategory_injective {name name' : DimensionName}
    (h : name.hardCategory = some category) (h' : name'.hardCategory = some category) :
    name = name' := by
  rw [← h'] at h
  revert h h'
  cases name <;> cases name' <;> simp [DimensionName.hardCategory]

/-- The first hard dimension gives the category. -/
theorem categorize_of_firstHard (h : firstHard dimensions = some item)
    (hcategory : item.name.hardCategory = some category) :
    categorizeEvaluationFailure dimensions = category := by
  have hfind : ∀ failed : List DimensionResult,
      failed.find? (·.name.hardCategory.isSome) = some item →
        failed.findSome? (·.name.hardCategory) = some category := by
    intro failed hfailed
    induction failed with
    | nil => cases hfailed
    | cons first failed ih =>
        cases hfirst : first.name.hardCategory with
        | none =>
            rw [List.find?_cons_of_neg (by simp [hfirst])] at hfailed
            rw [List.findSome?_cons, hfirst]
            exact ih hfailed
        | some c =>
            rw [List.find?_cons_of_pos (by simp [hfirst]), Option.some.injEq] at hfailed
            subst hfailed
            rw [List.findSome?_cons, hcategory]
  have hsome := hfind (failedDimensions dimensions) h
  rw [failedDimensions] at hsome
  rw [categorizeEvaluationFailure]
  simp only [hsome]

/-- Without a hard dimension the category is that of a soft one, if there is one. -/
theorem categorize_of_noHard (h : firstHard dimensions = none) :
    categorizeEvaluationFailure dimensions
      = if (failedDimensions dimensions).any (·.name.softCategory.isSome) then .repairableDraft
        else .needsHumanReview := by
  have hnone : (failedDimensions dimensions).findSome? (·.name.hardCategory) = none := by
    rw [List.findSome?_eq_none_iff]
    intro item hitem
    rw [firstHard, List.find?_eq_none] at h
    simpa using h item hitem
  rw [failedDimensions] at hnone ⊢
  rw [categorizeEvaluationFailure]
  simp only [hnone]

theorem firstHard_isSome (hitem : item ∈ failedDimensions dimensions)
    (hhard : item.name.hardCategory.isSome = true) : ∃ first, firstHard dimensions = some first := by
  have hfind : (firstHard dimensions).isSome = true := by
    rw [firstHard, List.find?_isSome]
    exact ⟨item, hitem, hhard⟩
  exact Option.isSome_iff_exists.1 hfind

theorem firstHard_mem (h : firstHard dimensions = some item) :
    item ∈ failedDimensions dimensions ∧ item.name.hardCategory.isSome = true := by
  rw [firstHard] at h
  have hhard := List.find?_some h
  exact ⟨List.mem_of_find?_eq_some h, hhard⟩

/-- The decision below the cap of attempts, by the category. -/
theorem decideForEvaluation_of_category (hcap : counts.evaluationAttemptCount < maxEvaluationAttempts)
    (h : categorizeEvaluationFailure dimensions = category) :
    decideForEvaluation false dimensions counts =
      if category = .qualityCitationIntegrity ∨ category = .qualityToolPolicy then
        ⟨.terminal, category, "HARD_QUALITY_FAIL"⟩
      else if category = .qualityStructure then
        if counts.repairCount < maxRepairs then ⟨.repair, category, "STRUCTURE_REPAIR"⟩
        else ⟨.terminal, category, "STRUCTURE_REPAIR_EXHAUSTED"⟩
      else if category = .repairableDraft then
        if counts.repairCount < maxRepairs then ⟨.repair, category, "SOFT_QUALITY_REPAIR"⟩
        else ⟨.awaitReview, .needsHumanReview, "REPAIR_EXHAUSTED"⟩
      else ⟨.awaitReview, .needsHumanReview, "AMBIGUOUS_QUALITY"⟩ := by
  rw [decideForEvaluation, if_neg Bool.false_ne_true, if_neg (by omega), h]

/-- A decision about a hard dimension has its category. -/
theorem failureCategory_of_firstHard
    (hcap : counts.evaluationAttemptCount < maxEvaluationAttempts)
    (h : firstHard dimensions = some item) :
    some (decideForEvaluation false dimensions counts).failureCategory = item.name.hardCategory := by
  obtain ⟨category, hcategory⟩ := Option.isSome_iff_exists.1 (firstHard_mem h).2
  rw [decideForEvaluation_of_category hcap (categorize_of_firstHard h hcategory), hcategory]
  obtain ⟨name, passed, method⟩ := item
  cases name <;> cases hcategory <;> by_cases hrepair : counts.repairCount < maxRepairs <;>
    simp [hrepair]

/-- The first hard dimension that failed makes the decision terminal unless it is the structure. -/
theorem hardQuality_of_firstHard (hcap : counts.evaluationAttemptCount < maxEvaluationAttempts)
    (h : firstHard dimensions = some item) :
    ((decideForEvaluation false dimensions counts).action = .terminal ∧
      (decideForEvaluation false dimensions counts).reasonCode = "HARD_QUALITY_FAIL") ↔
        item.name ≠ .reportStructure := by
  obtain ⟨category, hcategory⟩ := Option.isSome_iff_exists.1 (firstHard_mem h).2
  rw [decideForEvaluation_of_category hcap (categorize_of_firstHard h hcategory)]
  obtain ⟨name, passed, method⟩ := item
  cases name <;> cases hcategory <;> by_cases hrepair : counts.repairCount < maxRepairs <;>
    simp [hrepair]

/-- A failure of citations or tools is a hard one. -/
theorem HardFails.firstHard (h : HardFails dimensions) :
    ∃ first, Atlas.firstHard dimensions = some first := by
  obtain ⟨item, hitem, hname⟩ := h
  refine firstHard_isSome hitem ?_
  rcases hname with hname | hname <;> rw [hname] <;> rfl

/-- Which hard dimension decides where citations or tools failed. -/
theorem hardFailsAreTerminal_iff (hcap : counts.evaluationAttemptCount < maxEvaluationAttempts) :
    HardFailsAreTerminal dimensions counts ↔
      (HardFails dimensions → ∀ item, firstHard dimensions = some item →
        item.name ≠ .reportStructure) := by
  constructor
  · intro h hfails item hfirst
    exact (hardQuality_of_firstHard hcap hfirst).1 (h hfails)
  · intro h hfails
    obtain ⟨first, hfirst⟩ := hfails.firstHard
    exact (hardQuality_of_firstHard hcap hfirst).2 (h hfails first hfirst)

/-- A failed dimension is the first hard one in some order of the same dimensions. -/
theorem firstHard_cons (hitem : item ∈ failedDimensions dimensions)
    (hhard : item.name.hardCategory.isSome = true) :
    firstHard (item :: dimensions) = some item := by
  have hfailed : (!item.passed && item.method != .skipped) = true := (List.mem_filter.1 hitem).2
  rw [firstHard, failedDimensions, List.filter_cons, if_pos hfailed,
    List.find?_cons_of_pos (by simpa using hhard)]

/-- **Where one hard dimension failed at most, the order of the dimensions is of no matter.** -/
theorem OneHardName.orderFree (hcap : counts.evaluationAttemptCount < maxEvaluationAttempts)
    (h : OneHardName dimensions) : OrderFree dimensions counts := by
  intro dimensions' hsame
  have hmem := mem_failedDimensions hsame
  have hcategory : categorizeEvaluationFailure dimensions'
      = categorizeEvaluationFailure dimensions := by
    cases hfirst : firstHard dimensions with
    | some item =>
        obtain ⟨hitem, hhard⟩ := firstHard_mem hfirst
        obtain ⟨item', hfirst'⟩ := firstHard_isSome ((hmem item).2 hitem) hhard
        obtain ⟨hitem', hhard'⟩ := firstHard_mem hfirst'
        have hname := h item hitem item' ((hmem item').1 hitem') hhard hhard'
        obtain ⟨category, hcategory⟩ := Option.isSome_iff_exists.1 hhard
        rw [categorize_of_firstHard hfirst hcategory,
          categorize_of_firstHard hfirst' (hname ▸ hcategory)]
    | none =>
        have hfirst' : firstHard dimensions' = none := by
          rw [firstHard, List.find?_eq_none] at hfirst ⊢
          exact fun item hitem => hfirst item ((hmem item).1 hitem)
        have hany : (failedDimensions dimensions').any (·.name.softCategory.isSome)
            = (failedDimensions dimensions).any (·.name.softCategory.isSome) := by
          rw [Bool.eq_iff_iff, List.any_eq_true, List.any_eq_true]
          exact exists_congr fun item => and_congr_left fun _ => hmem item
        rw [categorize_of_noHard hfirst, categorize_of_noHard hfirst', hany]
  rw [decideForEvaluation_of_category hcap hcategory, decideForEvaluation_of_category hcap rfl]

/-- **Where two hard dimensions failed, the decision is of whichever comes first.** -/
theorem OrderFree.oneHardName (hcap : counts.evaluationAttemptCount < maxEvaluationAttempts)
    (h : OrderFree dimensions counts) : OneHardName dimensions := by
  have hcons : ∀ item ∈ failedDimensions dimensions, item.name.hardCategory.isSome = true →
      some (decideForEvaluation false dimensions counts).failureCategory
        = item.name.hardCategory := by
    intro item hitem hhard
    have hmem : item ∈ dimensions := (List.mem_filter.1 hitem).1
    rw [← h (item :: dimensions) fun other => by
      rw [List.mem_cons, or_iff_right_iff_imp]
      rintro rfl
      exact hmem]
    exact failureCategory_of_firstHard hcap (firstHard_cons hitem hhard)
  intro item hitem item' hitem' hhard hhard'
  exact hardCategory_injective (hcons item hitem hhard).symm (hcons item' hitem' hhard').symm

end Category

/-- **Hard failures are terminal, in any order of the dimensions, exactly where one hard dimension
failed at most.**  In the order given, a failure of citations or tools is terminal unless a failed
structure is read first. -/
theorem hardQuality_iff (dimensions : List DimensionResult) (counts : AttemptCounts)
    (hcap : counts.evaluationAttemptCount < maxEvaluationAttempts) :
    (HardFailsAreTerminal dimensions counts ∧ OrderFree dimensions counts ↔
      OneHardName dimensions) ∧
    (HardFailsAreTerminal dimensions counts ↔ (HardFails dimensions →
      ∀ item, firstHard dimensions = some item → item.name ≠ .reportStructure)) := by
  refine ⟨⟨fun h => h.2.oneHardName hcap, fun h => ⟨?_, h.orderFree hcap⟩⟩,
    hardFailsAreTerminal_iff hcap⟩
  rw [hardFailsAreTerminal_iff hcap]
  rintro ⟨item, hitem, hname⟩ first hfirst hstructure
  obtain ⟨hfirstItem, hhard⟩ := firstHard_mem hfirst
  have hsame := h item hitem first hfirstItem
    (by rcases hname with hname | hname <;> rw [hname] <;> rfl) hhard
  rw [hsame, hstructure] at hname
  rcases hname with hname | hname <;> cases hname

/-- The dimensions of a run where the structure of the report and the use of tools failed. -/
def structureAndTools : List DimensionResult :=
  [⟨.citationIntegrity, true, .deterministic⟩, ⟨.completeness, true, .deterministic⟩,
    ⟨.coverage, true, .deterministic⟩, ⟨.lexicalIdGroundedness, true, .deterministic⟩,
    ⟨.reportStructure, false, .deterministic⟩, ⟨.semanticGroundedness, true, .skipped⟩,
    ⟨.toolUse, false, .deterministic⟩]

/-- In the order of their names the report is repaired. -/
theorem structureAndTools_repaired :
    (structureAndTools.insertionSort fun a b => a.name.order ≤ b.name.order) = structureAndTools ∧
      HardFails structureAndTools ∧
      decideForEvaluation false structureAndTools ⟨0, 0, 1⟩
        = ⟨.repair, .qualityStructure, "STRUCTURE_REPAIR"⟩ ∧
      ¬ (HardFailsAreTerminal structureAndTools ⟨0, 0, 1⟩ ∧
        OrderFree structureAndTools ⟨0, 0, 1⟩) := by
  have hfails : HardFails structureAndTools :=
    ⟨⟨.toolUse, false, .deterministic⟩, by decide, .inr rfl⟩
  refine ⟨by decide, hfails, by decide, fun h => ?_⟩
  exact absurd (h.1 hfails).1 (by decide)

/-- A run where the structure of the report failed and no other hard dimension. -/
theorem hardQuality_iff_structure :
    (HardFailsAreTerminal (structureAndTools.take 6) ⟨0, 0, 1⟩ ∧
      OrderFree (structureAndTools.take 6) ⟨0, 0, 1⟩ ↔ OneHardName (structureAndTools.take 6)) ∧
    (HardFailsAreTerminal (structureAndTools.take 6) ⟨0, 0, 1⟩ ↔
      (HardFails (structureAndTools.take 6) → ∀ item,
        firstHard (structureAndTools.take 6) = some item → item.name ≠ .reportStructure)) :=
  hardQuality_iff (structureAndTools.take 6) ⟨0, 0, 1⟩ (by decide)

/-! ### The dimensions of a run -/

section Listed

variable {row : EvaluationRunRow} {counts : AttemptCounts} {name : DimensionName}

/-- A dimension failed. -/
def NameFailed (dimensions : List DimensionResult) (name : DimensionName) : Prop :=
  ∃ item ∈ failedDimensions dimensions, item.name = name

/-- The first hard dimension that failed is the first of them by name. -/
theorem firstHard_listed {item other : DimensionResult}
    (h : firstHard row.toResult.dimensions = some item)
    (hother : other ∈ failedDimensions row.toResult.dimensions)
    (hhard : other.name.hardCategory.isSome = true) : item.name.order ≤ other.name.order := by
  have hsorted : row.toResult.dimensions.Pairwise fun a b => a.name.order ≤ b.name.order :=
    List.pairwise_insertionSort (fun a b : DimensionResult => a.name.order ≤ b.name.order) _
  have hfailed : (failedDimensions row.toResult.dimensions).Pairwise
      fun a b => a.name.order ≤ b.name.order := hsorted.sublist List.filter_sublist
  rw [firstHard, List.find?_eq_some_iff_append] at h
  obtain ⟨-, before, after, hsplit, hbefore⟩ := h
  rw [hsplit] at hother hfailed
  rcases List.mem_append.1 hother with hother | hother
  · have hsoft := hbefore other hother
    rw [hhard] at hsoft
    cases hsoft
  · rcases List.mem_cons.1 hother with rfl | hother
    · exact le_rfl
    · exact (List.pairwise_cons.1 (List.pairwise_append.1 hfailed).2.1).1 other hother

/-- Of the hard names citations and the structure come first. -/
theorem hardName_le_structure (hhard : name.hardCategory.isSome = true)
    (horder : name.order ≤ DimensionName.reportStructure.order) :
    name = .citationIntegrity ∨ name = .reportStructure := by
  revert hhard horder
  cases name <;> decide

/-- **In the order of the names** a failure of citations is terminal always, and one of tools unless
the structure failed too. -/
theorem listed_hardFailsAreTerminal (row : EvaluationRunRow)
    (hcap : counts.evaluationAttemptCount < maxEvaluationAttempts) :
    HardFailsAreTerminal row.toResult.dimensions counts ↔
      (NameFailed row.toResult.dimensions .toolUse →
        NameFailed row.toResult.dimensions .citationIntegrity ∨
          ¬ NameFailed row.toResult.dimensions .reportStructure) := by
  rw [hardFailsAreTerminal_iff hcap]
  constructor
  · rintro h ⟨tool, htool, hname⟩
    by_contra hnot
    rw [not_or, not_not] at hnot
    obtain ⟨hcitation, structureItem, hstructure, hstructureName⟩ := hnot
    have hfails : HardFails row.toResult.dimensions := ⟨tool, htool, .inr hname⟩
    obtain ⟨first, hfirst⟩ := hfails.firstHard
    obtain ⟨hmem, hhard⟩ := firstHard_mem hfirst
    have horder := firstHard_listed hfirst hstructure (by rw [hstructureName]; rfl)
    have hne := h hfails first hfirst
    rw [hstructureName] at horder
    rcases hardName_le_structure hhard horder with hfirstName | hfirstName
    · exact hcitation ⟨first, hmem, hfirstName⟩
    · exact hne hfirstName
  · rintro h ⟨item, hitem, hname⟩ first hfirst hstructure
    obtain ⟨hmem, -⟩ := firstHard_mem hfirst
    have hcitation : ¬ NameFailed row.toResult.dimensions .citationIntegrity := by
      rintro ⟨citation, hcitation, hcitationName⟩
      have horder := firstHard_listed hfirst hcitation (by rw [hcitationName]; rfl)
      rw [hstructure, hcitationName] at horder
      exact absurd horder (by decide)
    rcases hname with hname | hname
    · exact hcitation ⟨item, hitem, hname⟩
    · rcases h ⟨item, hitem, hname⟩ with h | h
      · exact hcitation h
      · exact h ⟨first, hmem, hstructure⟩

end Listed

end Atlas
