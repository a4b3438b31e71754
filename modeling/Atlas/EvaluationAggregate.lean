/-
**The verdict of an evaluation.**

`evaluation/aggregation.py`: a weighted mean of the scores of the dimensions, and a verdict that asks
each for its threshold.  The weights are those of a table, renormalized when the semantic dimension is
graded.  The dimensions come back stamped with their weights and with whether they passed, and the
policy reads the stamped ones.

Main definitions:

* `WeightedMean.weightedMean` — the mean of scores under weights;
* `Atlas.GradedDimension` — a dimension with its score;
* `Atlas.applicableWeights`, `Atlas.stamp`, `Atlas.aggregateDimensions` — the aggregation;
* `Atlas.nameWeight` — the weight that a name is stamped with.

Main results:

* `Atlas.aggregateScore_eq` — the aggregate is the mean under the weights of the names;
* `Atlas.sum_stamped_weight` — the weights sum to one;
* `Atlas.verdict_iff` — the verdict is that every stamped dimension passed;
* `Atlas.aggregateDimensions_coherent` — **the score, the verdict and the policy agree**.
-/

import Atlas.EvaluationPolicy
import Mathlib.Algebra.Order.Field.Basic
import Mathlib.Algebra.Order.BigOperators.Group.List
import Mathlib.Data.Rat.Cast.Order

set_option relaxedAutoImplicit false
set_option autoImplicit false

/-! ### Weighted means -/

namespace WeightedMean

variable {α : Type} [Field α] [LinearOrder α] [IsStrictOrderedRing α]

/-- The mean of scores, each after its weight; zero where the weights are. -/
def weightedMean (terms : List (α × α)) : α :=
  if 0 < (terms.map Prod.fst).sum then
    (terms.map fun term => term.2 * term.1).sum / (terms.map Prod.fst).sum
  else 0

variable {terms terms' : List (α × α)}

theorem weightedMean_nonneg (hweight : ∀ term ∈ terms, 0 ≤ term.1)
    (hscore : ∀ term ∈ terms, 0 ≤ term.2) : 0 ≤ weightedMean terms := by
  rw [weightedMean]
  split
  · next hpos =>
    refine div_nonneg (List.sum_nonneg ?_) hpos.le
    intro x hx
    obtain ⟨term, hterm, rfl⟩ := List.mem_map.1 hx
    exact mul_nonneg (hscore term hterm) (hweight term hterm)
  · exact le_rfl

theorem weightedMean_le_one (hweight : ∀ term ∈ terms, 0 ≤ term.1)
    (hscore : ∀ term ∈ terms, term.2 ≤ 1) : weightedMean terms ≤ 1 := by
  rw [weightedMean]
  split
  · next hpos =>
    rw [div_le_one hpos]
    refine List.sum_le_sum fun term hterm => ?_
    exact mul_le_of_le_one_left (hweight term hterm) (hscore term hterm)
  · exact zero_le_one

/-- Under the same weights a mean grows with its scores. -/
theorem weightedMean_mono (hweight : ∀ term ∈ terms, 0 ≤ term.1)
    (h : List.Forall₂ (fun term term' => term.1 = term'.1 ∧ term.2 ≤ term'.2) terms terms') :
    weightedMean terms ≤ weightedMean terms' := by
  have hfst : terms.map Prod.fst = terms'.map Prod.fst := by
    rw [← List.forall₂_eq_eq_eq, List.forall₂_map_left_iff, List.forall₂_map_right_iff]
    exact h.imp fun _ _ h => h.1
  have hsum : (terms.map fun term => term.2 * term.1).sum
      ≤ (terms'.map fun term => term.2 * term.1).sum := by
    induction h with
    | nil => exact le_rfl
    | @cons term term' terms terms' hterm hrest ih =>
        have hle : term.2 * term.1 ≤ term'.2 * term'.1 := by
          rw [← hterm.1]
          exact mul_le_mul_of_nonneg_right hterm.2 (hweight term List.mem_cons_self)
        have hfst' : terms.map Prod.fst = terms'.map Prod.fst := (List.cons.inj hfst).2
        have hih := ih (fun t ht => hweight t (List.mem_cons_of_mem _ ht)) hfst'
        rw [List.map_cons, List.map_cons, List.sum_cons, List.sum_cons]
        exact add_le_add hle hih
  rw [weightedMean, weightedMean, ← hfst]
  split
  · next hpos => exact div_le_div_of_nonneg_right hsum hpos.le
  · exact le_rfl

end WeightedMean

namespace Atlas

open WeightedMean

/-! ### The aggregation -/

/-- A graded dimension.  Its score is checked when it is made. -/
structure GradedDimension extends DimensionResult where
  score : ℚ
  isHard : Bool
  isProvisional : Bool
  failureCodes : List String
  weight : ℚ
  score_nonneg : 0 ≤ score
  score_le_one : score ≤ 1

/-- `HARD_DIMENSIONS`. -/
def hardDimensions : List DimensionName := [.citationIntegrity, .toolUse, .reportStructure]

/-- `PROVISIONAL_SOFT_DIMENSIONS`. -/
def provisionalSoftDimensions : List DimensionName :=
  [.coverage, .completeness, .lexicalIdGroundedness]

/-- `BASE_WEIGHTS`. -/
def baseWeights : List (DimensionName × ℚ) :=
  [(.citationIntegrity, 0.25), (.toolUse, 0.10), (.reportStructure, 0.15), (.coverage, 0.15),
    (.completeness, 0.15), (.lexicalIdGroundedness, 0.20)]

def semanticWeight : ℚ := 0.10
def provisionalSoftPassThreshold : ℚ := 0.70
def semanticPassThreshold : ℚ := 0.70
def hardPassScore : ℚ := 1

/-- The base weights scaled to make room for the semantic one. -/
def semanticWeights : List (DimensionName × ℚ) :=
  let total := (baseWeights.map Prod.snd).sum + semanticWeight
  let scale := 1 / total
  baseWeights.map (fun entry => (entry.1, entry.2 * scale)) ++
    [(.semanticGroundedness, semanticWeight * scale)]

/-- Whether the semantic dimension is there and graded. -/
def semanticPresent (dimensions : List GradedDimension) : Bool :=
  match dimensions.find? (·.name = .semanticGroundedness) with
  | some item => item.method ≠ .skipped
  | none => false

/-- `_applicable_weights`. -/
def applicableWeights (dimensions : List GradedDimension) : List (DimensionName × ℚ) :=
  if semanticPresent dimensions then semanticWeights else baseWeights

/-- Whether a graded dimension passes, by its kind. -/
def stampPassed (item : GradedDimension) : Bool :=
  if item.name ∈ hardDimensions then item.score = hardPassScore
  else if item.name ∈ provisionalSoftDimensions then item.score ≥ provisionalSoftPassThreshold
  else if item.name = .semanticGroundedness then item.score ≥ semanticPassThreshold
  else item.passed

/-- A dimension with its weight and whether it passed; a skipped one passes with no weight. -/
def stamp (weights : List (DimensionName × ℚ)) (item : GradedDimension) : GradedDimension :=
  if item.method = .skipped then { item with weight := 0, passed := true }
  else
    { item with
      weight := (weights.lookup item.name).getD item.weight
      passed := stampPassed item }

def stamped (dimensions : List GradedDimension) : List GradedDimension :=
  dimensions.map (stamp (applicableWeights dimensions))

/-- The mean of the dimensions that are not skipped. -/
def aggregateScore (dimensions : List GradedDimension) : ℚ :=
  weightedMean (((stamped dimensions).filter (·.method ≠ .skipped)).map fun item =>
    (item.weight, item.score))

/-- The dimension of a name; of two the later. -/
def byName (dimensions : List GradedDimension) (name : DimensionName) : Option GradedDimension :=
  dimensions.reverse.find? (·.name = name)

/-- Every dimension of some names that is there meets a test. -/
def allNamed (dimensions : List GradedDimension) (names : List DimensionName)
    (test : GradedDimension → Bool) : Bool :=
  names.all fun name =>
    match byName dimensions name with
    | some item => test item
    | none => true

def verdict (dimensions : List GradedDimension) : Bool :=
  allNamed dimensions hardDimensions (fun item => item.score = hardPassScore) &&
    allNamed dimensions provisionalSoftDimensions
      (fun item => item.score ≥ provisionalSoftPassThreshold) &&
    allNamed dimensions [.semanticGroundedness]
      (fun item => item.method = .skipped || item.score ≥ semanticPassThreshold)

/-- `aggregate_dimensions`: the weighted aggregate, the verdict and the stamped dimensions. -/
def aggregateDimensions (dimensions : List GradedDimension) : ℚ × Bool × List GradedDimension :=
  (aggregateScore dimensions, verdict dimensions, stamped dimensions)

/-! ### Dimensions and their names -/

/-- The names that always have a weight. -/
def baseNames : List DimensionName := baseWeights.map Prod.fst

/-- The weight that a name is stamped with. -/
def nameWeight (present : Bool) (name : DimensionName) : ℚ :=
  ((if present then semanticWeights else baseWeights).lookup name).getD 0

/-- What is graded: names are distinct, and only the semantic dimension may be skipped. -/
structure Gradable (dimensions : List GradedDimension) : Prop where
  names : (dimensions.map (·.name)).Nodup
  skipped : ∀ item ∈ dimensions, item.method = .skipped → item.name = .semanticGroundedness

section Names

variable {dimensions : List GradedDimension} {item : GradedDimension} {name : DimensionName}

/-- A dimension is found by its name. -/
theorem find?_name (hnames : (dimensions.map (·.name)).Nodup) (hitem : item ∈ dimensions) :
    dimensions.find? (·.name = item.name) = some item := by
  induction dimensions with
  | nil => cases hitem
  | cons first dimensions ih =>
      rw [List.map_cons, List.nodup_cons] at hnames
      rcases List.mem_cons.1 hitem with rfl | hitem
      · rw [List.find?_cons_of_pos (by simp)]
      · have hne : first.name ≠ item.name := by
          intro heq
          exact hnames.1 (heq ▸ List.mem_map_of_mem hitem)
        rw [List.find?_cons_of_neg (by simpa using hne), ih hnames.2 hitem]

theorem byName_eq (hnames : (dimensions.map (·.name)).Nodup) (hitem : item ∈ dimensions) :
    byName dimensions item.name = some item := by
  refine find?_name ?_ (List.mem_reverse.2 hitem)
  rw [List.map_reverse, List.nodup_reverse]
  exact hnames

theorem byName_mem (h : byName dimensions name = some item) :
    item ∈ dimensions ∧ item.name = name := by
  rw [byName] at h
  have hname := List.find?_some h
  exact ⟨List.mem_reverse.1 (List.mem_of_find?_eq_some h), by simpa using hname⟩

/-- All dimensions of some names that are there meet a test. -/
theorem allNamed_iff (hnames : (dimensions.map (·.name)).Nodup) {names : List DimensionName}
    {test : GradedDimension → Bool} : allNamed dimensions names test = true ↔
      ∀ item ∈ dimensions, item.name ∈ names → test item = true := by
  rw [allNamed, List.all_eq_true]
  constructor
  · intro h item hitem hname
    have htest := h item.name hname
    rw [byName_eq hnames hitem] at htest
    exact htest
  · intro h name hname
    cases hfind : byName dimensions name with
    | none => rfl
    | some item =>
        obtain ⟨hitem, rfl⟩ := byName_mem hfind
        exact h item hitem hname

/-- The semantic dimension counts as present when it is there and not skipped. -/
theorem semanticPresent_eq (hnames : (dimensions.map (·.name)).Nodup) (hitem : item ∈ dimensions)
    (hname : item.name = .semanticGroundedness) :
    semanticPresent dimensions = decide (item.method ≠ .skipped) := by
  have hfind := find?_name hnames hitem
  rw [hname] at hfind
  rw [semanticPresent, hfind]

theorem semanticPresent_mem (h : semanticPresent dimensions = true) :
    ∃ item ∈ dimensions, item.name = .semanticGroundedness := by
  rw [semanticPresent] at h
  split at h
  · next item hfind =>
    have hname := List.find?_some hfind
    exact ⟨item, List.mem_of_find?_eq_some hfind, by simpa using hname⟩
  · cases h

end Names

/-! ### Weights -/

section Weights

variable {dimensions dimensions' : List GradedDimension} {item : GradedDimension}

theorem nameWeight_nonneg (present : Bool) (name : DimensionName) :
    0 ≤ nameWeight present name := by
  cases present <;> cases name <;> decide +kernel

/-- A base name has a weight, and so has the semantic one when it is graded. -/
theorem lookup_isSome (present : Bool) (name : DimensionName)
    (h : name = .semanticGroundedness → present = true) :
    ((if present then semanticWeights else baseWeights).lookup name).isSome = true := by
  revert h
  cases present <;> cases name <;> decide +kernel

/-- **A dimension is stamped with the weight of its name.** -/
theorem stamp_weight (h : Gradable dimensions) (hitem : item ∈ dimensions) :
    (stamp (applicableWeights dimensions) item).weight
      = nameWeight (semanticPresent dimensions) item.name := by
  rw [stamp, nameWeight, applicableWeights]
  split
  · next hskipped =>
    have hname := h.skipped item hitem hskipped
    rw [semanticPresent_eq h.names hitem hname, hname]
    simp only [hskipped]
    decide +kernel
  · next hgraded =>
    have hsome := lookup_isSome (semanticPresent dimensions) item.name fun hname => by
      rw [semanticPresent_eq h.names hitem hname]
      simpa using hgraded
    obtain ⟨weight, hweight⟩ := Option.isSome_iff_exists.1 hsome
    simp only [hweight, Option.getD_some]

theorem stamp_score (weights : List (DimensionName × ℚ)) (item : GradedDimension) :
    (stamp weights item).score = item.score := by
  rw [stamp]
  split <;> rfl

theorem stamp_method (weights : List (DimensionName × ℚ)) (item : GradedDimension) :
    (stamp weights item).method = item.method := by
  rw [stamp]
  split <;> rfl

/-- A sum over the dimensions that are not skipped is one over all, if the skipped add nothing. -/
theorem sum_graded (f : GradedDimension → ℚ) (items : List GradedDimension)
    (h : ∀ item ∈ items, item.method = .skipped → f item = 0) :
    ((items.filter (·.method ≠ .skipped)).map f).sum = (items.map f).sum := by
  induction items with
  | nil => rfl
  | cons item items ih =>
      have hrest := ih fun item hitem => h item (List.mem_cons_of_mem _ hitem)
      rw [List.map_cons, List.sum_cons, List.filter_cons]
      by_cases hskipped : item.method = .skipped
      · rw [if_neg (by simpa using hskipped), hrest, h item List.mem_cons_self hskipped, zero_add]
      · rw [if_pos (by simpa using hskipped), List.map_cons, List.sum_cons, hrest]

/-- **The aggregate is the mean under the weights of the names.** -/
theorem aggregateScore_eq (h : Gradable dimensions) : aggregateScore dimensions
    = weightedMean (dimensions.map fun item =>
        (nameWeight (semanticPresent dimensions) item.name, item.score)) := by
  have hzero : ∀ item ∈ stamped dimensions, item.method = .skipped → item.weight = 0 := by
    intro item hitem hskipped
    obtain ⟨item, hmem, rfl⟩ := List.mem_map.1 hitem
    rw [stamp_method] at hskipped
    rw [stamp, if_pos hskipped]
  have hweights : ((stamped dimensions).map (·.weight)).sum
      = (dimensions.map fun item => nameWeight (semanticPresent dimensions) item.name).sum := by
    rw [stamped, List.map_map]
    exact congrArg List.sum (List.map_congr_left fun item hitem => stamp_weight h hitem)
  have hscores : ((stamped dimensions).map fun item => item.score * item.weight).sum
      = (dimensions.map fun item =>
          item.score * nameWeight (semanticPresent dimensions) item.name).sum := by
    rw [stamped, List.map_map]
    refine congrArg List.sum (List.map_congr_left fun item hitem => ?_)
    rw [Function.comp_apply, stamp_score, stamp_weight h hitem]
  rw [aggregateScore, weightedMean, weightedMean]
  simp only [List.map_map, Function.comp_def]
  rw [sum_graded (fun item => item.weight) _ hzero,
    sum_graded (fun item => item.score * item.weight) _ fun item hitem hskipped => by
      rw [hzero item hitem hskipped, mul_zero], hweights, hscores]

theorem aggregateScore_mem_unit (h : Gradable dimensions) :
    0 ≤ aggregateScore dimensions ∧ aggregateScore dimensions ≤ 1 := by
  rw [aggregateScore_eq h]
  have hweight : ∀ term ∈ dimensions.map fun item =>
      (nameWeight (semanticPresent dimensions) item.name, item.score), 0 ≤ term.1 := by
    intro term hterm
    obtain ⟨item, -, rfl⟩ := List.mem_map.1 hterm
    exact nameWeight_nonneg _ _
  refine ⟨weightedMean_nonneg hweight ?_, weightedMean_le_one hweight ?_⟩
  · intro term hterm
    obtain ⟨item, -, rfl⟩ := List.mem_map.1 hterm
    exact item.score_nonneg
  · intro term hterm
    obtain ⟨item, -, rfl⟩ := List.mem_map.1 hterm
    exact item.score_le_one

/-- **The weights sum to one** when all base dimensions are there. -/
theorem sum_stamped_weight (h : Gradable dimensions)
    (hbase : ∀ name ∈ baseNames, ∃ item ∈ dimensions, item.name = name) :
    ((stamped dimensions).map (·.weight)).sum = 1 := by
  obtain ⟨present, hpresent⟩ : ∃ present, present = semanticPresent dimensions := ⟨_, rfl⟩
  have hweights : ((stamped dimensions).map (·.weight)).sum
      = ((dimensions.map (·.name)).map (nameWeight present)).sum := by
    rw [stamped, List.map_map, List.map_map, hpresent]
    exact congrArg List.sum (List.map_congr_left fun item hitem => stamp_weight h hitem)
  have hmem : ∀ name ∈ baseNames, name ∈ dimensions.map (·.name) := by
    intro name hname
    obtain ⟨item, hitem, rfl⟩ := hbase name hname
    exact List.mem_map_of_mem hitem
  have hother : ∀ name : DimensionName, name ∈ baseNames ∨ name = .semanticGroundedness := by
    intro name
    cases name <;> decide
  have hall : ∀ present, ((baseNames ++ [DimensionName.semanticGroundedness]).map
      (nameWeight present)).sum = 1 := by
    decide +kernel
  rw [hweights]
  by_cases hsemantic : DimensionName.semanticGroundedness ∈ dimensions.map (·.name)
  · have hperm : (dimensions.map (·.name)).Perm (baseNames ++ [.semanticGroundedness]) := by
      rw [List.perm_ext_iff_of_nodup h.names (by decide)]
      intro name
      rw [List.mem_append, List.mem_singleton]
      refine ⟨fun _ => hother name, fun hname => ?_⟩
      rcases hname with hname | rfl
      · exact hmem name hname
      · exact hsemantic
    rw [(hperm.map (nameWeight present)).sum_eq, hall]
  · have hperm : (dimensions.map (·.name)).Perm baseNames := by
      rw [List.perm_ext_iff_of_nodup h.names (by decide)]
      refine fun name => ⟨fun hname => (hother name).resolve_right ?_, hmem name⟩
      rintro rfl
      exact hsemantic hname
    have habsent : present = false := by
      rw [hpresent, ← Bool.not_eq_true]
      intro htrue
      obtain ⟨item, hitem, hname⟩ := semanticPresent_mem htrue
      exact hsemantic (hname ▸ List.mem_map_of_mem hitem)
    rw [(hperm.map (nameWeight present)).sum_eq, habsent]
    decide +kernel

end Weights

/-! ### Monotonicity -/

section Monotone

variable {before after : List GradedDimension} {item : GradedDimension} {score : ℚ}

/-- The dimension with a higher score. -/
def GradedDimension.raise (item : GradedDimension) (score : ℚ) (hle : item.score ≤ score)
    (hone : score ≤ 1) : GradedDimension :=
  { item with score := score, score_nonneg := item.score_nonneg.trans hle, score_le_one := hone }

/-- Whether the semantic dimension is present is no matter of scores. -/
theorem semanticPresent_raise (hle : item.score ≤ score) (hone : score ≤ 1) :
    semanticPresent (before ++ item.raise score hle hone :: after)
      = semanticPresent (before ++ item :: after) := by
  have hname : (item.raise score hle hone).name = item.name := rfl
  have hmethod : (item.raise score hle hone).method = item.method := rfl
  rw [semanticPresent, semanticPresent, List.find?_append, List.find?_append, List.find?_cons,
    List.find?_cons, hname]
  cases before.find? (·.name = .semanticGroundedness) with
  | some found => rfl
  | none =>
      by_cases hsemantic : item.name = .semanticGroundedness
      · simp only [hsemantic, decide_true, Option.none_or]
        rw [hmethod]
      · simp only [hsemantic, decide_false]

theorem Gradable.raise (h : Gradable (before ++ item :: after)) (hle : item.score ≤ score)
    (hone : score ≤ 1) : Gradable (before ++ item.raise score hle hone :: after) := by
  have hnames : (before ++ item.raise score hle hone :: after).map (·.name)
      = (before ++ item :: after).map (·.name) := by
    rw [List.map_append, List.map_append]
    rfl
  refine ⟨hnames ▸ h.names, fun other hother hskipped => ?_⟩
  rcases List.mem_append.1 hother with hother | hother
  · exact h.skipped other (List.mem_append_left _ hother) hskipped
  · rcases List.mem_cons.1 hother with rfl | hother
    · exact h.skipped item (List.mem_append_right _ List.mem_cons_self) hskipped
    · exact h.skipped other (List.mem_append_right _ (List.mem_cons_of_mem _ hother)) hskipped

/-- **The aggregate grows with every score.** -/
theorem aggregateScore_mono (h : Gradable (before ++ item :: after)) (hle : item.score ≤ score)
    (hone : score ≤ 1) : aggregateScore (before ++ item :: after)
      ≤ aggregateScore (before ++ item.raise score hle hone :: after) := by
  rw [aggregateScore_eq h, aggregateScore_eq (h.raise hle hone), semanticPresent_raise]
  refine weightedMean_mono ?_ ?_
  · intro term hterm
    obtain ⟨other, -, rfl⟩ := List.mem_map.1 hterm
    exact nameWeight_nonneg _ _
  · have hsame : ∀ items : List GradedDimension, List.Forall₂
        (fun term term' : ℚ × ℚ => term.1 = term'.1 ∧ term.2 ≤ term'.2)
        (items.map fun other => (nameWeight (semanticPresent (before ++ item :: after)) other.name,
          other.score))
        (items.map fun other => (nameWeight (semanticPresent (before ++ item :: after)) other.name,
          other.score)) := fun items =>
      List.forall₂_same.2 fun _ _ => ⟨rfl, le_rfl⟩
    rw [List.map_append, List.map_append, List.map_cons, List.map_cons]
    exact List.rel_append (hsame before) (List.Forall₂.cons ⟨rfl, hle⟩ (hsame after))

end Monotone

/-! ### The verdict -/

section Verdict

variable {dimensions : List GradedDimension} {item : GradedDimension}

theorem stamp_passed (weights : List (DimensionName × ℚ)) (item : GradedDimension) :
    (stamp weights item).passed = true ↔ item.method = .skipped ∨ stampPassed item = true := by
  rw [stamp]
  split
  · next hskipped => simp [hskipped]
  · next hgraded => simp [hgraded]

/-- **The verdict is that every stamped dimension passed.** -/
theorem verdict_iff (h : Gradable dimensions) :
    verdict dimensions = true ↔ ∀ item ∈ stamped dimensions, item.passed = true := by
  rw [verdict, Bool.and_eq_true, Bool.and_eq_true, allNamed_iff h.names, allNamed_iff h.names,
    allNamed_iff h.names]
  constructor
  · rintro ⟨⟨hhard, hsoft⟩, hsemantic⟩ item hitem
    obtain ⟨item, hmem, rfl⟩ := List.mem_map.1 hitem
    rw [stamp_passed, stampPassed]
    by_cases hname : item.name ∈ hardDimensions
    · rw [if_pos hname]
      exact .inr (hhard item hmem hname)
    · by_cases hname' : item.name ∈ provisionalSoftDimensions
      · rw [if_neg hname, if_pos hname']
        exact .inr (hsoft item hmem hname')
      · have hlast : item.name = .semanticGroundedness := by
          revert hname hname'
          cases item.name <;> decide
        have hscore := hsemantic item hmem (by rw [hlast]; exact List.mem_cons_self)
        rw [if_neg hname, if_neg hname', if_pos hlast]
        simpa using hscore
  · intro hall
    have hpass : ∀ item ∈ dimensions, item.method = .skipped ∨ stampPassed item = true :=
      fun item hitem => (stamp_passed _ item).1 (hall _ (List.mem_map_of_mem hitem))
    have hgraded : ∀ item ∈ dimensions, item.name ≠ .semanticGroundedness →
        stampPassed item = true := by
      intro item hitem hname
      refine (hpass item hitem).resolve_left fun hskipped => ?_
      exact hname (h.skipped item hitem hskipped)
    refine ⟨⟨?_, ?_⟩, ?_⟩
    · intro item hitem hname
      have hne : item.name ≠ .semanticGroundedness := by
        intro hsemantic
        rw [hsemantic] at hname
        exact absurd hname (by decide)
      have hscore := hgraded item hitem hne
      rwa [stampPassed, if_pos hname] at hscore
    · intro item hitem hname
      have hne : item.name ≠ .semanticGroundedness ∧ item.name ∉ hardDimensions := by
        revert hname
        cases item.name <;> decide
      have hscore := hgraded item hitem hne.1
      rwa [stampPassed, if_neg hne.2, if_pos hname] at hscore
    · intro item hitem hname
      have hsemantic := List.mem_singleton.1 hname
      have hscore := hpass item hitem
      rw [stampPassed, hsemantic, if_neg (by decide), if_neg (by decide), if_pos rfl] at hscore
      simpa using hscore

/-- A name is hard or soft to the policy. -/
theorem softCategory_isSome (name : DimensionName) (h : name.hardCategory.isSome ≠ true) :
    name.softCategory.isSome = true := by
  revert h
  cases name <;> decide

/-- **The policy knows why an evaluation did not pass.** -/
theorem categorize_stamped (h : Gradable dimensions) (hverdict : verdict dimensions = false) :
    categorizeEvaluationFailure ((stamped dimensions).map (·.toDimensionResult))
      ≠ .needsHumanReview := by
  have hfailed : failedDimensions ((stamped dimensions).map (·.toDimensionResult)) ≠ [] := by
    intro hnil
    have hall : ∀ item ∈ stamped dimensions, item.passed = true := by
      intro item hitem
      rw [failedDimensions, List.filter_eq_nil_iff] at hnil
      have hnot := hnil item.toDimensionResult (List.mem_map_of_mem hitem)
      by_contra hpassed
      rw [Bool.not_eq_true] at hpassed
      have hskipped : item.method = .skipped := by simpa [hpassed] using hnot
      obtain ⟨item, hmem, rfl⟩ := List.mem_map.1 hitem
      rw [stamp_method] at hskipped
      rw [(stamp_passed _ item).2 (.inl hskipped)] at hpassed
      cases hpassed
    rw [(verdict_iff h).2 hall] at hverdict
    cases hverdict
  obtain ⟨item, hitem⟩ := List.exists_mem_of_ne_nil _ hfailed
  cases hfirst : firstHard ((stamped dimensions).map (·.toDimensionResult)) with
  | some first =>
      obtain ⟨category, hcategory⟩ := Option.isSome_iff_exists.1 (firstHard_mem hfirst).2
      rw [categorize_of_firstHard hfirst hcategory]
      rintro rfl
      revert hcategory
      cases first.name <;> decide
  | none =>
      rw [categorize_of_noHard hfirst, if_pos]
      · decide
      · rw [List.any_eq_true]
        refine ⟨item, hitem, softCategory_isSome item.name ?_⟩
        rw [firstHard, List.find?_eq_none] at hfirst
        exact hfirst item hitem

end Verdict

/-- **The score, the verdict and the policy agree.**  The aggregate is a score and grows with every
single one, the weights sum to one, the verdict is that all stamped dimensions passed, and the policy
knows a category for every verdict that is not. -/
theorem aggregateDimensions_coherent (dimensions : List GradedDimension)
    (h : Gradable dimensions) :
    (0 ≤ (aggregateDimensions dimensions).1 ∧ (aggregateDimensions dimensions).1 ≤ 1) ∧
    (∀ (before : List GradedDimension) (item : GradedDimension) (after : List GradedDimension)
      (score : ℚ) (hle : item.score ≤ score) (hone : score ≤ 1), dimensions = before ++ item :: after →
        (aggregateDimensions dimensions).1
          ≤ (aggregateDimensions (before ++ item.raise score hle hone :: after)).1) ∧
    ((∀ name ∈ baseNames, ∃ item ∈ dimensions, item.name = name) →
      ((aggregateDimensions dimensions).2.2.map (·.weight)).sum = 1) ∧
    ((aggregateDimensions dimensions).2.1 = true ↔
      ∀ item ∈ (aggregateDimensions dimensions).2.2, item.passed = true) ∧
    ((aggregateDimensions dimensions).2.1 = false → categorizeEvaluationFailure
      ((aggregateDimensions dimensions).2.2.map (·.toDimensionResult)) ≠ .needsHumanReview) := by
  refine ⟨aggregateScore_mem_unit h, ?_, sum_stamped_weight h, verdict_iff h, categorize_stamped h⟩
  rintro before item after score hle hone rfl
  exact aggregateScore_mono h hle hone

/-- A dimension as a grader gives it. -/
def plainDimension (name : DimensionName) (method : GraderMethod) (score : ℚ)
    (hnonneg : 0 ≤ score) (hle : score ≤ 1) : GradedDimension where
  name := name
  passed := true
  method := method
  score := score
  isHard := false
  isProvisional := false
  failureCodes := []
  weight := 0
  score_nonneg := hnonneg
  score_le_one := hle

/-- A run with weak coverage, and without semantic grading. -/
def weakCoverage : List GradedDimension :=
  [plainDimension .citationIntegrity .deterministic 1 (by decide +kernel) (by decide +kernel),
    plainDimension .coverage .deterministic (1 / 2) (by decide +kernel) (by decide +kernel),
    plainDimension .semanticGroundedness .skipped 0 (by decide +kernel) (by decide +kernel)]

/-- It does not pass, and is for repair. -/
theorem weakCoverage_coherent : (aggregateDimensions weakCoverage).2.1 = false ∧
    (0 ≤ (aggregateDimensions weakCoverage).1 ∧ (aggregateDimensions weakCoverage).1 ≤ 1) ∧
    categorizeEvaluationFailure
      ((aggregateDimensions weakCoverage).2.2.map (·.toDimensionResult)) ≠ .needsHumanReview := by
  have hgradable : Gradable weakCoverage := by
    constructor
    case names => decide
    case skipped =>
      intro item hitem hskipped
      simp only [weakCoverage, List.mem_cons, List.not_mem_nil, or_false] at hitem
      rcases hitem with rfl | rfl | rfl
      · cases hskipped
      · cases hskipped
      · rfl
  have hcoherent := aggregateDimensions_coherent weakCoverage hgradable
  have hverdict : (aggregateDimensions weakCoverage).2.1 = false := by decide +kernel
  exact ⟨hverdict, hcoherent.1, hcoherent.2.2.2.2 hverdict⟩

end Atlas
