/-
**What the semantic grader is given.**

`assemble_semantic_grade_request` numbers the claims, and fills the room for excerpts with the
sources of the first linked identifiers that are cited, in their order, until one does not fit.  It
looks at no more of a source than it would send.  No step depends on the order of the sources: an
identifier has one source at most.

Main definitions:

* `Budgeted.fill`, `Budgeted.Longest` — the initial segment of a list that a budget allows;
* `Atlas.sourceOf`, `Atlas.excerptText` — the source of an identifier, and what of it is sent;
* `Atlas.SelectedFor` — what a request has of its claims, linked identifiers and sources.

Main results:

* `Budgeted.longest_fill` — **filling up to the first that does not fit gives the longest
  segment**;
* `Atlas.assembleExcerpts_eq_ok` — the excerpts are those of that segment;
* `Atlas.semantic_selection` — **the selection of a request**, whatever the order of the sources.
-/

import Atlas.GradingFingerprint
import Mathlib.Data.List.Dedup

set_option relaxedAutoImplicit false
set_option autoImplicit false

/-! ### Segments within a budget -/

namespace Budgeted

variable {α : Type} {weight : α → ℕ}

/-- The items of a list up to the first that is more than the budget has left. -/
def fill (weight : α → ℕ) : ℕ → List α → List α
  | _, [] => []
  | budget, a :: l =>
      if weight a ≤ budget then a :: fill weight (budget - weight a) l else []

/-- The longest initial segment of a list within a budget. -/
structure Longest (weight : α → ℕ) (budget : ℕ) (l segment : List α) : Prop where
  initial : segment <+: l
  within : (segment.map weight).sum ≤ budget
  longest : ∀ other, other <+: l → (other.map weight).sum ≤ budget → other <+: segment

/-- **Filling up to the first that does not fit gives the longest segment.** -/
theorem longest_fill (budget : ℕ) (l : List α) :
    Longest weight budget l (fill weight budget l) := by
  induction l generalizing budget with
  | nil => exact ⟨List.prefix_refl _, by simp [fill], fun other hother _ => hother⟩
  | cons a l ih =>
      rw [fill]
      split
      · next hfits =>
        obtain ⟨hinitial, hwithin, hlongest⟩ := ih (budget - weight a)
        refine ⟨List.cons_prefix_cons.2 ⟨rfl, hinitial⟩, ?_, ?_⟩
        · rw [List.map_cons, List.sum_cons]
          omega
        · intro other hother hsum
          cases other with
          | nil => exact List.nil_prefix
          | cons b other =>
              obtain ⟨rfl, hrest⟩ := List.cons_prefix_cons.1 hother
              rw [List.map_cons, List.sum_cons] at hsum
              exact List.cons_prefix_cons.2 ⟨rfl, hlongest other hrest (by omega)⟩
      · next hfull =>
        refine ⟨List.nil_prefix, by simp, ?_⟩
        intro other hother hsum
        cases other with
        | nil => exact List.nil_prefix
        | cons b other =>
            obtain ⟨rfl, -⟩ := List.cons_prefix_cons.1 hother
            rw [List.map_cons, List.sum_cons] at hsum
            omega

end Budgeted

/-- A search with one hit at most finds the same in every order. -/
theorem List.Perm.find?_eq {α : Type} {l l' : List α} (h : l.Perm l') {p : α → Bool}
    (hone : ∀ a ∈ l, ∀ b ∈ l, p a = true → p b = true → a = b) : l.find? p = l'.find? p := by
  cases hfind : l.find? p with
  | none =>
      rw [eq_comm, List.find?_eq_none]
      intro a ha
      exact List.find?_eq_none.1 hfind a (h.mem_iff.2 ha)
  | some a =>
      have ha := List.mem_of_find?_eq_some hfind
      have hp := List.find?_some hfind
      have hsome : (l'.find? p).isSome = true := List.find?_isSome.2 ⟨a, h.mem_iff.1 ha, hp⟩
      obtain ⟨b, hb⟩ := Option.isSome_iff_exists.1 hsome
      have hbl := h.mem_iff.2 (List.mem_of_find?_eq_some hb)
      rw [hb, hone a ha b hbl hp (List.find?_some hb)]

namespace Atlas

open Python Checked

/-! ### Sources -/

section Sources

variable {sources sources' : List SemanticExcerptSource} {itemId : String}

/-- The source of an identifier. -/
def sourceOf (sources : List SemanticExcerptSource) (itemId : String) :
    Option SemanticExcerptSource :=
  sources.find? fun source => itemId ≠ "" && strip source.evidenceItemId = itemId

/-- What is sent of a source. -/
def excerptText (source : SemanticExcerptSource) : String :=
  truncateDisplayText source.text maxEvidenceCharsPerItemInDraft

/-- How many bytes are sent of the source of an identifier. -/
def excerptBytes (sources : List SemanticExcerptSource) (itemId : String) : ℕ :=
  (sourceOf sources itemId).elim 0 fun source => (excerptText source).utf8ByteSize

/-- There is a source with the identifier, and what is sent of it is not blank. -/
def HasText (sources : List SemanticExcerptSource) (itemId : String) : Prop :=
  ∃ source ∈ sources, strip source.evidenceItemId = itemId ∧ strip (excerptText source) ≠ ""

instance (sources : List SemanticExcerptSource) (itemId : String) :
    Decidable (HasText sources itemId) :=
  inferInstanceAs (Decidable (∃ source ∈ sources, _))

/-- No two sources have one identifier. -/
def DistinctSources (sources : List SemanticExcerptSource) : Prop :=
  (sources.map fun source => strip source.evidenceItemId).Nodup

theorem DistinctSources.eq (h : DistinctSources sources) {a b : SemanticExcerptSource}
    (ha : a ∈ sources) (hb : b ∈ sources) (hid : strip a.evidenceItemId = strip b.evidenceItemId) :
    a = b :=
  List.inj_on_of_nodup_map h ha hb hid

theorem sourceOf_eq_some (h : DistinctSources sources) (hne : itemId ≠ "")
    {source : SemanticExcerptSource} :
    sourceOf sources itemId = some source ↔
      source ∈ sources ∧ strip source.evidenceItemId = itemId := by
  constructor
  · intro hfind
    have hp := List.find?_some hfind
    simp only [Bool.and_eq_true, decide_eq_true_eq] at hp
    exact ⟨List.mem_of_find?_eq_some hfind, hp.2⟩
  · rintro ⟨hmem, hid⟩
    have hsome : (sourceOf sources itemId).isSome = true := by
      refine List.find?_isSome.2 ⟨source, hmem, ?_⟩
      simp [hne, hid]
    obtain ⟨found, hfound⟩ := Option.isSome_iff_exists.1 hsome
    have hp := List.find?_some hfound
    simp only [Bool.and_eq_true, decide_eq_true_eq] at hp
    rw [hfound, h.eq (List.mem_of_find?_eq_some hfound) hmem (hp.2.trans hid.symm)]

theorem sourceOf_perm (h : DistinctSources sources) (hperm : sources.Perm sources') :
    sourceOf sources = sourceOf sources' := by
  funext itemId
  refine hperm.find?_eq ?_
  intro a ha b hb hpa hpb
  simp only [Bool.and_eq_true, decide_eq_true_eq] at hpa hpb
  exact h.eq ha hb (hpa.2.trans hpb.2.symm)

/-- An excerpt is what is sent of the source of an identifier. -/
def IsExcerpt (sources : List SemanticExcerptSource) (itemId : String)
    (excerpt : SemanticExcerptInput) : Prop :=
  ∃ source ∈ sources, strip source.evidenceItemId = itemId ∧
    excerpt = ⟨itemId, strip source.trustLabel, excerptText source⟩

theorem excerpt_make_eq_ok {trustLabel text : String} {excerpt : SemanticExcerptInput}
    (h : SemanticExcerptInput.make itemId trustLabel text = .ok excerpt) :
    excerpt = ⟨strip itemId, strip trustLabel, text⟩ := by
  simp only [SemanticExcerptInput.make, bind_eq_ok, pure_eq_ok] at h
  obtain ⟨_, -, _, -, _, -, rfl⟩ := h
  rfl

theorem assembleExcerpts_none (h : sourceOf sources itemId = none) (used : ℕ)
    (itemIds : List String) :
    assembleExcerpts sources used (itemId :: itemIds) = assembleExcerpts sources used itemIds := by
  rw [sourceOf] at h
  rw [assembleExcerpts, h]

theorem assembleExcerpts_some {source : SemanticExcerptSource}
    (h : sourceOf sources itemId = some source) (used : ℕ) (itemIds : List String) :
    assembleExcerpts sources used (itemId :: itemIds) =
      if strip (excerptText source) = "" then assembleExcerpts sources used itemIds
      else if maxDraftEvidenceContextBytes < used + (excerptText source).utf8ByteSize then .ok []
      else do
        let excerpt ← SemanticExcerptInput.make itemId source.trustLabel (excerptText source)
        let excerpts ← assembleExcerpts sources (used + (excerptText source).utf8ByteSize) itemIds
        return excerpt :: excerpts := by
  rw [sourceOf] at h
  rw [assembleExcerpts, h]
  rfl

/-- **The excerpts are those of the longest segment.**  `used` bytes are taken already. -/
theorem assembleExcerpts_eq_ok (hdistinct : DistinctSources sources) {itemIds : List String}
    (hne : ∀ itemId ∈ itemIds, itemId ≠ "") {used : ℕ}
    (hused : used ≤ maxDraftEvidenceContextBytes) {excerpts : List SemanticExcerptInput}
    (h : assembleExcerpts sources used itemIds = .ok excerpts) :
    List.Forall₂ (IsExcerpt sources)
      (Budgeted.fill (excerptBytes sources) (maxDraftEvidenceContextBytes - used)
        (itemIds.filter (HasText sources))) excerpts := by
  induction itemIds generalizing used excerpts with
  | nil =>
      obtain rfl : [] = excerpts := Except.ok.inj h
      exact .nil
  | cons itemId itemIds ih =>
      have hid : itemId ≠ "" := hne itemId List.mem_cons_self
      have hrest : ∀ other ∈ itemIds, other ≠ "" :=
        fun other hother => hne other (List.mem_cons_of_mem itemId hother)
      cases hsource : sourceOf sources itemId with
      | none =>
          have hno : ¬ HasText sources itemId := by
            rintro ⟨source, hmem, hkey, -⟩
            have hfound := (sourceOf_eq_some hdistinct hid).2 ⟨hmem, hkey⟩
            rw [hsource] at hfound
            cases hfound
          rw [assembleExcerpts_none hsource] at h
          rw [List.filter_cons_of_neg (by simpa using hno)]
          exact ih hrest hused h
      | some source =>
          obtain ⟨hmem, hkey⟩ := (sourceOf_eq_some hdistinct hid).1 hsource
          have hbytes : excerptBytes sources itemId = (excerptText source).utf8ByteSize := by
            rw [excerptBytes, hsource, Option.elim_some]
          rw [assembleExcerpts_some hsource] at h
          by_cases htext : strip (excerptText source) = ""
          · have hno : ¬ HasText sources itemId := by
              rintro ⟨other, hother, hotherKey, hotherText⟩
              rw [hdistinct.eq hother hmem (hotherKey.trans hkey.symm)] at hotherText
              exact hotherText htext
            rw [if_pos htext] at h
            rw [List.filter_cons_of_neg (by simpa using hno)]
            exact ih hrest hused h
          · have hyes : HasText sources itemId := ⟨source, hmem, hkey, htext⟩
            rw [if_neg htext] at h
            rw [List.filter_cons_of_pos (by simpa using hyes), Budgeted.fill, hbytes]
            by_cases hfull : maxDraftEvidenceContextBytes < used + (excerptText source).utf8ByteSize
            · rw [if_pos hfull] at h
              obtain rfl : [] = excerpts := Except.ok.inj h
              rw [if_neg (by omega)]
              exact .nil
            · rw [if_neg hfull] at h
              simp only [bind_eq_ok, pure_eq_ok] at h
              obtain ⟨excerpt, hexcerpt, rest, hassemble, rfl⟩ := h
              rw [if_pos (by omega), Nat.sub_sub]
              refine .cons ⟨source, hmem, hkey, ?_⟩ (ih hrest (by omega) hassemble)
              rw [excerpt_make_eq_ok hexcerpt, ← hkey, Python.strip_strip]

/-- The excerpts do not depend on the order of the sources. -/
theorem assembleExcerpts_perm (hdistinct : DistinctSources sources)
    (hperm : sources.Perm sources') (used : ℕ) (itemIds : List String) :
    assembleExcerpts sources used itemIds = assembleExcerpts sources' used itemIds := by
  have hsource := sourceOf_perm hdistinct hperm
  induction itemIds generalizing used with
  | nil => rfl
  | cons itemId itemIds ih =>
      have hfind := congrFun hsource itemId
      cases hsource' : sourceOf sources' itemId with
      | none => rw [assembleExcerpts_none (hfind.trans hsource'), assembleExcerpts_none hsource', ih]
      | some source =>
          rw [assembleExcerpts_some (hfind.trans hsource'), assembleExcerpts_some hsource', ih, ih]

end Sources

/-! ### Claims -/

/-- A claim as the grader is given it. -/
def numberedClaim (claim : ClaimStructured) (ordinal : ℕ) : SemanticClaimInput where
  claimOrdinal := ordinal
  text := strip (truncateDisplayText (strip claim.text) maxSemanticClaimCodePoints)
  evidenceItemIds := (claim.evidenceItemIds.take maxEvidenceIdsPerClaim).map strip

theorem claim_make_eq_ok {ordinal : ℕ} {text : String} {itemIds : List String}
    {input : SemanticClaimInput} (h : SemanticClaimInput.make ordinal text itemIds = .ok input) :
    input = ⟨ordinal, strip text, itemIds.map strip⟩ ∧ ∀ itemId ∈ itemIds, strip itemId ≠ "" := by
  simp only [SemanticClaimInput.make, bind_eq_ok, pure_eq_ok, ensure_eq_ok] at h
  obtain ⟨_, -, _, -, _, ⟨-, -, hids⟩, rfl⟩ := h
  exact ⟨rfl, hids⟩

/-- The claims are numbered in their order, and none of the identifiers kept is blank. -/
theorem assembleClaims_eq_ok {claims : List ClaimStructured} {index : ℕ}
    {inputs : List SemanticClaimInput} (h : assembleClaims index claims = .ok inputs) :
    inputs = (claims.zipIdx index).map (fun p => numberedClaim p.1 p.2) ∧
      ∀ claim ∈ claims, ∀ itemId ∈ claim.evidenceItemIds.take maxEvidenceIdsPerClaim,
        strip itemId ≠ "" := by
  induction claims generalizing index inputs with
  | nil =>
      obtain rfl : [] = inputs := Except.ok.inj h
      exact ⟨rfl, by simp⟩
  | cons claim claims ih =>
      simp only [assembleClaims, bind_eq_ok, pure_eq_ok] at h
      obtain ⟨_, -, input, hinput, rest, hrest, rfl⟩ := h
      obtain ⟨rfl, hids⟩ := claim_make_eq_ok hinput
      obtain ⟨rfl, hothers⟩ := ih hrest
      refine ⟨by rw [List.zipIdx_cons, List.map_cons]; rfl, ?_⟩
      intro other hother
      rcases List.mem_cons.1 hother with rfl | hother
      · exact hids
      · exact hothers other hother

/-! ### Requests -/

/-- The identifiers that are cited and linked, in order. -/
def candidateIds (citedIds : List String) (linkedIds : StrSet) : List String :=
  (citedIds.dedup.filter fun itemId => itemId ∈ linkedIds.items).insertionSort (· ≤ ·)

theorem mem_candidateIds {citedIds : List String} {linkedIds : StrSet} {itemId : String} :
    itemId ∈ candidateIds citedIds linkedIds ↔ itemId ∈ citedIds ∧ itemId ∈ linkedIds.items := by
  simp [candidateIds]

theorem candidateIds_ascending (citedIds : List String) (linkedIds : StrSet) :
    (candidateIds citedIds linkedIds).Pairwise (· < ·) := by
  have hsorted : (candidateIds citedIds linkedIds).Pairwise (· ≤ ·) :=
    List.pairwise_insertionSort (· ≤ ·) _
  have hnodup : (candidateIds citedIds linkedIds).Nodup :=
    (List.perm_insertionSort (· ≤ ·) _).nodup_iff.2 ((List.nodup_dedup citedIds).filter _)
  exact (hsorted.and hnodup).imp fun h => lt_of_le_of_ne h.1 h.2

/-- What a request has of its claims, its linked identifiers and its sources. -/
structure SelectedFor (claims : List ClaimStructured) (linkedIds : StrSet)
    (sources : List SemanticExcerptSource) (request : SemanticGradeRequest) : Prop where
  /-- The claims are given in their order, and numbered from 1. -/
  claims_eq : request.claims = (claims.zipIdx 1).map fun p => numberedClaim p.1 p.2
  ordinals : request.claims.map (·.claimOrdinal) = List.range' 1 claims.length
  ascending : (request.excerpts.map (·.evidenceItemId)).Pairwise (· < ·)
  /-- Of the cited and linked identifiers in order, the first few that have a text; and of them as
  many as the budget allows. -/
  excerpts : ∃ candidates segment : List String,
    candidates.Pairwise (· < ·) ∧
      (∀ itemId, itemId ∈ candidates ↔
        (∃ claim ∈ claims, itemId ∈ claim.evidenceItemIds.take maxEvidenceIdsPerClaim) ∧
          itemId ∈ linkedIds.items) ∧
      Budgeted.Longest (excerptBytes sources) maxDraftEvidenceContextBytes
        ((candidates.take maxEvidenceItemsToDrafter).filter (HasText sources)) segment ∧
      List.Forall₂ (IsExcerpt sources) segment request.excerpts
  prompt : (renderUserPrompt request).utf8ByteSize ≤ maxSemanticUserPayloadBytes

theorem evidenceItemIds_of_forall₂ {sources : List SemanticExcerptSource} {segment : List String}
    {excerpts : List SemanticExcerptInput} (h : List.Forall₂ (IsExcerpt sources) segment excerpts) :
    excerpts.map (·.evidenceItemId) = segment := by
  induction h with
  | nil => rfl
  | cons hexcerpt _ ih =>
      obtain ⟨source, -, -, rfl⟩ := hexcerpt
      rw [List.map_cons, ih]

theorem selectedFor_of_assemble {jobId : String} {claims : List ClaimStructured}
    {linkedIds : StrSet} {sources : List SemanticExcerptSource}
    (hdistinct : DistinctSources sources) {request : SemanticGradeRequest}
    (h : assembleSemanticGradeRequest jobId claims linkedIds sources = .ok request) :
    SelectedFor claims linkedIds sources request := by
  simp only [assembleSemanticGradeRequest, bind_eq_ok, pure_eq_ok, ensure_eq_ok] at h
  obtain ⟨_, -, inputs, hinputs, excerpts, hexcerpts, _, hmake, _, hprompt, rfl⟩ := h
  simp only [SemanticGradeRequest.make, bind_eq_ok, pure_eq_ok] at hmake
  obtain ⟨_, -, _, -, _, -, rfl⟩ := hmake
  obtain ⟨rfl, hids⟩ := assembleClaims_eq_ok hinputs
  let cited := claims.flatMap fun claim => claim.evidenceItemIds.take maxEvidenceIdsPerClaim
  have hcandidates : selectedIds cited linkedIds
      = (candidateIds cited linkedIds).take maxEvidenceItemsToDrafter := rfl
  have hne : ∀ itemId ∈ selectedIds cited linkedIds, itemId ≠ "" := by
    rintro itemId hitem rfl
    rw [hcandidates] at hitem
    have hcited := (mem_candidateIds.1 (List.mem_of_mem_take hitem)).1
    obtain ⟨claim, hclaim, hkept⟩ := List.mem_flatMap.1 hcited
    exact hids claim hclaim "" hkept rfl
  have hsegment := assembleExcerpts_eq_ok hdistinct hne (Nat.zero_le _) hexcerpts
  rw [Nat.sub_zero, hcandidates] at hsegment
  have hlongest : Budgeted.Longest (excerptBytes sources) maxDraftEvidenceContextBytes
      (((candidateIds cited linkedIds).take maxEvidenceItemsToDrafter).filter (HasText sources)) _ :=
    Budgeted.longest_fill _ _
  have hascending := candidateIds_ascending cited linkedIds
  refine ⟨rfl, ?_, ?_, ⟨candidateIds cited linkedIds, _, hascending, ?_, hlongest, hsegment⟩,
    hprompt⟩
  · rw [List.map_map]
    exact List.zipIdx_map_snd 1 claims
  · rw [evidenceItemIds_of_forall₂ hsegment]
    exact ((hascending.sublist (List.take_sublist _ _)).filter _).sublist hlongest.initial.sublist
  · intro itemId
    rw [mem_candidateIds, List.mem_flatMap]

/-- **The selection of a request.**  Where no two sources have one identifier, a request has of its
claims and sources what `SelectedFor` says, and whether there is a request, and which, or what error
is raised, is the same for every order of the sources. -/
theorem semantic_selection {sources : List SemanticExcerptSource}
    (hdistinct : DistinctSources sources) (jobId : String) (claims : List ClaimStructured)
    (linkedIds : StrSet) :
    (∀ request, assembleSemanticGradeRequest jobId claims linkedIds sources = .ok request →
        SelectedFor claims linkedIds sources request) ∧
      ∀ sources', sources.Perm sources' →
        assembleSemanticGradeRequest jobId claims linkedIds sources'
          = assembleSemanticGradeRequest jobId claims linkedIds sources := by
  refine ⟨fun request h => selectedFor_of_assemble hdistinct h, ?_⟩
  intro sources' hperm
  simp only [assembleSemanticGradeRequest, assembleExcerpts_perm hdistinct hperm]

/-- Two sources, in the order of their identifiers. -/
def twoSources : List SemanticExcerptSource :=
  [⟨"ev-1", "[untrusted_source]", "first"⟩, ⟨" ev-2 ", "[untrusted_source]", "second"⟩]

theorem twoSources_distinct : DistinctSources twoSources := by
  unfold DistinctSources
  decide +kernel

/-- A claim that cites both, the later first. -/
def bothCited : List ClaimStructured := [citingBoth "ev-2" "ev-1"]

/-- Both are linked to the job. -/
def linkedBoth : StrSet := ⟨["ev-1", "ev-2"], by decide⟩

theorem twoSources_excerpts :
    ((assembleSemanticGradeRequest "job-1" bothCited linkedBoth twoSources).toOption.map
      (·.excerpts)) = some
        [⟨"ev-1", "[untrusted_source]", "first"⟩, ⟨"ev-2", "[untrusted_source]", "second"⟩] := by
  decide +kernel

/-- The request of a claim that cites them has an excerpt of each, in the order of the identifiers,
and it is the same when they come in the other order. -/
theorem semantic_selection_reversed : ∃ request,
    assembleSemanticGradeRequest "job-1" bothCited linkedBoth twoSources.reverse = .ok request ∧
      SelectedFor bothCited linkedBoth twoSources request ∧
      request.excerpts =
        [⟨"ev-1", "[untrusted_source]", "first"⟩, ⟨"ev-2", "[untrusted_source]", "second"⟩] := by
  obtain ⟨hselected, horder⟩ := semantic_selection twoSources_distinct "job-1" bothCited linkedBoth
  obtain ⟨request, hrequest, hexcerpts⟩ := Option.map_eq_some_iff.1 twoSources_excerpts
  have hok : assembleSemanticGradeRequest "job-1" bothCited linkedBoth twoSources = .ok request := by
    revert hrequest
    cases assembleSemanticGradeRequest "job-1" bothCited linkedBoth twoSources with
    | error x =>
        intro h
        cases h
    | ok other =>
        rintro ⟨⟩
        rfl
  refine ⟨request, ?_, hselected request hok, hexcerpts⟩
  rw [horder _ twoSources.reverse_perm.symm, hok]

/-- A source with a text, after as many blanks as are sent of it. -/
def blankStart : SemanticExcerptSource where
  evidenceItemId := "ev-1"
  trustLabel := "[untrusted_source]"
  text := String.ofList (List.replicate maxEvidenceCharsPerItemInDraft ' ' ++ ['x'])

theorem toList_excerptText_blankStart :
    (excerptText blankStart).toList = List.replicate maxEvidenceCharsPerItemInDraft ' ' := by
  rw [excerptText, truncateDisplayText, blankStart, String.toList_ofList, String.toList_ofList,
    List.take_left' List.length_replicate]

/-- It is not blank and what is sent of it fits, but a request has no excerpt of it. -/
theorem blankStart_left_out :
    strip blankStart.text ≠ "" ∧ excerptBytes [blankStart] "ev-1" ≤ maxDraftEvidenceContextBytes ∧
      assembleSemanticGradeRequest "job-1" [⟨"It is so.", ["ev-1"]⟩] ⟨["ev-1"], by decide⟩
        [blankStart] = .ok ⟨"job-1", [⟨1, "It is so.", ["ev-1"]⟩], []⟩ := by
  have hone : DistinctSources [blankStart] := List.nodup_singleton _
  have hsource : sourceOf [blankStart] "ev-1" = some blankStart := by
    refine (sourceOf_eq_some hone (by decide)).2 ⟨List.mem_singleton_self _, ?_⟩
    decide +kernel
  have hblank : strip (excerptText blankStart) = "" := by
    rw [strip_eq_empty_iff, toList_excerptText_blankStart]
    intro c hc
    rw [List.eq_of_mem_replicate hc]
    decide
  have hexcerpts : assembleExcerpts [blankStart] 0 ["ev-1"] = .ok [] := by
    rw [assembleExcerpts_some hsource, if_pos hblank]
    rfl
  refine ⟨?_, ?_, ?_⟩
  · rw [Ne, strip_eq_empty_iff, blankStart, String.toList_ofList]
    intro hall
    exact absurd (hall 'x' (by simp)) (by decide)
  · have htext : excerptText blankStart
        = String.ofList (List.replicate maxEvidenceCharsPerItemInDraft ' ') := by
      rw [← toList_excerptText_blankStart, String.ofList_toList]
    rw [excerptBytes, hsource, Option.elim_some, htext, Json.utf8ByteSize_ofList, Json.byteLength]
    simp
    decide
  · have hclaims : assembleClaims 1 [⟨"It is so.", ["ev-1"]⟩]
        = .ok [⟨1, "It is so.", ["ev-1"]⟩] := by decide +kernel
    have hselected : selectedIds ["ev-1"] ⟨["ev-1"], by decide⟩ = ["ev-1"] := by decide +kernel
    have hkept : ([⟨"It is so.", ["ev-1"]⟩] : List ClaimStructured).flatMap (fun claim =>
        claim.evidenceItemIds.take maxEvidenceIdsPerClaim) = ["ev-1"] := rfl
    rw [assembleSemanticGradeRequest, hclaims, hkept, hselected, hexcerpts]
    decide +kernel

end Atlas
