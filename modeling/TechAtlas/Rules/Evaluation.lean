import TechAtlas.Detector.Scoring
import TechAtlas.Rules.Definition

set_option autoImplicit false

/- Evaluating a rule whose definition passed its validation: nothing but evidence
that is too long can make it fail. -/
namespace TechAtlas.Rules

open Library TechAtlas.Detector TechAtlas.Parser

section Fields

theorem parseSource_of_sourceField {fields : List (Text × Json)} {name : Text}
    (found : sourceField fields = some name) :
    ∃ source, parseSource (strField fields "source") = .ok source := by
  obtain ⟨present, known⟩ := Option.filter_eq_some_iff.mp found
  rw [present]
  simp only [isSourceName, Bool.or_eq_true, beq_iff_eq] at known
  rcases known with (((rfl | rfl) | rfl) | rfl) | rfl
  · exact ⟨.html, by decide⟩
  · exact ⟨.header, by decide⟩
  · exact ⟨.script, by decide⟩
  · exact ⟨.dns, by decide⟩
  · exact ⟨.tls, by decide⟩

theorem positiveField_of_percentField {fields : List (Text × Json)} {field : String} {value : Nat}
    (found : percentField fields field = some value) :
    positiveField fields field = some value ∧ 0 < value := by
  obtain ⟨present, bounds⟩ := Option.filter_eq_some_iff.mp found
  simp only [Bool.and_eq_true, decide_eq_true_eq] at bounds
  refine ⟨Option.filter_eq_some_iff.mpr ⟨present, ?_⟩, by omega⟩
  simp only [Bool.and_eq_true, decide_eq_true_eq]
  omega

theorem readable_of_validateSignal {signal : Json} (valid : validateSignal signal = .ok ()) :
    ∃ fields, signal.asObject = some fields ∧ ∃ parts : SignalParts, parts.Of fields := by
  obtain ⟨fields, isObject, valid⟩ := bind_eq_ok.mp valid
  obtain ⟨name, hasSource, valid⟩ := bind_eq_ok.mp valid
  obtain ⟨key, hasKey, valid⟩ := bind_eq_ok.mp valid
  obtain ⟨matcher, hasMatcher, valid⟩ := bind_eq_ok.mp valid
  obtain ⟨weight, hasWeight, _⟩ := bind_eq_ok.mp valid
  obtain ⟨source, isSource⟩ := parseSource_of_sourceField (orError_eq_ok.mp hasSource)
  obtain ⟨keyPresent, keyBounds⟩ := Option.filter_eq_some_iff.mp (orError_eq_ok.mp hasKey)
  obtain ⟨matcherPresent, _⟩ := Option.filter_eq_some_iff.mp (orError_eq_ok.mp hasMatcher)
  obtain ⟨isWeight, _⟩ := positiveField_of_percentField (orError_eq_ok.mp hasWeight)
  simp only [Bool.and_eq_true] at keyBounds
  refine ⟨fields, orError_eq_ok.mp isObject, ⟨source, key, matcher, strField fields "value",
    weight⟩, isSource, ?_, matcherPresent, rfl, isWeight⟩
  exact Option.filter_eq_some_iff.mpr ⟨keyPresent, keyBounds.1⟩

theorem validateSignals_eq_ok {signals : List Json} (valid : validateSignals signals = .ok ()) :
    ∀ signal ∈ signals, validateSignal signal = .ok () := by
  induction signals with
  | nil =>
      intro signal member
      cases member
  | cons first rest ih =>
      obtain ⟨_, own, later⟩ := bind_eq_ok.mp valid
      intro signal member
      rcases List.mem_cons.mp member with rfl | inRest
      · exact own
      · exact ih later signal inRest

/-- A validated pattern is one that the evaluation can search with. -/
theorem detectedVersion_of_validated {regexes : RegexCrate} {definition : List (Text × Json)}
    (valid : ∀ versionEvidence, definition.lookup "version_evidence".toList =
      some versionEvidence → validateVersionEvidence regexes versionEvidence = .ok ())
    (parsed : ParsedArtifacts) (detection : Option Detection) :
    ∃ version, detectedVersion regexes definition parsed detection = .ok version := by
  cases detection with
  | none => exact ⟨none, rfl⟩
  | some detection =>
      change ∃ version, extractDynamicVersion regexes definition parsed = .ok version
      unfold extractDynamicVersion
      cases found : definition.lookup "version_evidence".toList with
      | none => exact ⟨none, rfl⟩
      | some versionEvidence =>
          obtain ⟨fields, isObject, own⟩ := bind_eq_ok.mp (valid versionEvidence found)
          obtain ⟨name, hasSource, own⟩ := bind_eq_ok.mp own
          obtain ⟨key, hasKey, own⟩ := bind_eq_ok.mp own
          obtain ⟨pattern, hasPattern, own⟩ := bind_eq_ok.mp own
          obtain ⟨regex, compiled, own⟩ := bind_eq_ok.mp own
          obtain ⟨source, isSource⟩ := parseSource_of_sourceField (orError_eq_ok.mp hasSource)
          have groups := require_eq_ok.mp own
          simp only [Bool.and_eq_true] at groups
          refine exists_bind_ok (orError_eq_ok.mpr (orError_eq_ok.mp isObject))
            (exists_bind_ok isSource (exists_bind_ok (orError_eq_ok.mpr (orError_eq_ok.mp hasKey))
              (exists_bind_ok (orError_eq_ok.mpr (orError_eq_ok.mp hasPattern))
                (exists_bind_ok (orError_eq_ok.mpr (orError_eq_ok.mp compiled))
                  (exists_bind_ok (b := ()) (require_eq_ok.mpr groups.1) ⟨_, rfl⟩)))))

end Fields

section Rules

/-- What the catalogue holds of a published rule. -/
structure IsPublishable (regexes : RegexCrate) (rule : ActiveDetectionRule) : Prop where
  definition : validateRuleDefinition regexes rule.definition = .ok ()
  technologySlug : (Slug.parse rule.technologySlug).isSome = true
  technologyCategorySlug : (Slug.parse rule.technologyCategorySlug).isSome = true
  ruleSlug : (Slug.parse rule.ruleSlug).isSome = true
  version : (RuleVersion.new rule.version).isSome = true

/-- A publishable rule can be read to its end. -/
structure IsReadable (regexes : RegexCrate) (parts : RuleParts) : Prop where
  threshold : 0 < parts.threshold
  signals : ∀ signal ∈ parts.signals,
    ∃ fields, signal.asObject = some fields ∧ ∃ own : SignalParts, own.Of fields
  version : ∀ parsed detection,
    ∃ version, detectedVersion regexes parts.definition parsed detection = .ok version

theorem IsPublishable.readable {regexes : RegexCrate} {rule : ActiveDetectionRule}
    (publishable : IsPublishable regexes rule) :
    ∃ parts : RuleParts, parts.Of rule ∧ IsReadable regexes parts := by
  obtain ⟨technologySlug, technology⟩ := Option.isSome_iff_exists.mp publishable.technologySlug
  obtain ⟨categorySlug, category⟩ :=
    Option.isSome_iff_exists.mp publishable.technologyCategorySlug
  obtain ⟨ruleSlug, slug⟩ := Option.isSome_iff_exists.mp publishable.ruleSlug
  obtain ⟨ruleVersion, version⟩ := Option.isSome_iff_exists.mp publishable.version
  obtain ⟨definition, isObject, valid⟩ := bind_eq_ok.mp publishable.definition
  obtain ⟨threshold, hasThreshold, valid⟩ := bind_eq_ok.mp valid
  obtain ⟨signals, hasSignals, valid⟩ := bind_eq_ok.mp valid
  obtain ⟨_, signalsValid, valid⟩ := bind_eq_ok.mp valid
  obtain ⟨isThreshold, positive⟩ := positiveField_of_percentField (orError_eq_ok.mp hasThreshold)
  obtain ⟨signalsPresent, count⟩ := Option.filter_eq_some_iff.mp (orError_eq_ok.mp hasSignals)
  simp only [Bool.and_eq_true] at count
  refine ⟨⟨definition, threshold, signals, technologySlug, categorySlug, ruleSlug, ruleVersion⟩,
    ?_, ?_⟩
  · exact ⟨orError_eq_ok.mp isObject, isThreshold,
      Option.filter_eq_some_iff.mpr ⟨signalsPresent, count.1⟩, technology, category, slug, version⟩
  · refine ⟨positive, ?_, ?_⟩
    · intro signal member
      exact readable_of_validateSignal (validateSignals_eq_ok signalsValid signal member)
    · refine detectedVersion_of_validated ?_
      intro versionEvidence found
      dsimp only at found valid
      rw [found] at valid
      exact valid

end Rules

section Evaluation

/-- Confidence comes with evidence. -/
structure Grounded (score : Score) : Prop where
  bounded : score.confidence ≤ 100
  matched : 0 < score.confidence → score.matchedEvidence ≠ []

theorem Grounded.scored {score : Score} (grounded : Grounded score) {parts : SignalParts}
    {parsed : ParsedArtifacts} {evidence : List DetectionEvidence}
    (built : (parsed.evidence.filter parts.accepts).mapM toDetectionEvidence = .ok evidence) :
    Grounded (parts.scored parsed score evidence) := by
  constructor
  · dsimp only [SignalParts.scored]
    split
    · exact grounded.bounded
    · exact addWeight_le _ _
  · dsimp only [SignalParts.scored]
    intro confident
    by_cases none : (parsed.evidence.filter parts.accepts).isEmpty = true
    · rw [if_pos none] at confident
      exact List.append_ne_nil_of_left_ne_nil (grounded.matched confident) evidence
    · rw [List.isEmpty_iff] at none
      obtain ⟨item, member⟩ := List.exists_mem_of_ne_nil _ none
      obtain ⟨result, inEvidence, _⟩ := ok_of_mem_of_mapM built member
      exact List.append_ne_nil_of_right_ne_nil _ (List.ne_nil_of_mem inEvidence)

/-- A publishable rule is evaluated exactly where every item that one of its
signals matches can be recorded as evidence. -/
theorem evaluates_iff {regexes : RegexCrate} {rule : ActiveDetectionRule}
    (publishable : IsPublishable regexes rule) (parsed : ParsedArtifacts) :
    (∃ evaluation, evaluateActiveRule regexes rule parsed = .ok evaluation) ↔
      ∀ signal ∈ rule.signals, ∀ item ∈ parsed.evidence, signalAccepts signal item = true →
        ∃ evidence, toDetectionEvidence item = .ok evidence := by
  obtain ⟨parts, own, readable⟩ := publishable.readable
  rw [own.signals_eq]
  constructor
  · rintro ⟨evaluation, success⟩ signal member item present accepted
    obtain ⟨other, sameRule, score, scored, _⟩ := evaluateActiveRule_iff.mp success
    rw [sameRule.unique own] at scored
    obtain ⟨before, after, step⟩ := ok_of_mem_of_foldlM scored member
    obtain ⟨fields, isObject, signalParts, reads, evidence, built, _⟩ := scoreSignal_iff.mp step
    rw [signalAccepts_eq isObject reads] at accepted
    obtain ⟨result, _, recorded⟩ :=
      ok_of_mem_of_mapM built (List.mem_filter.mpr ⟨present, accepted⟩)
    exact ⟨result, recorded⟩
  · intro recorded
    have step : ∀ signal ∈ parts.signals, ∀ before, Grounded before →
        ∃ after, scoreSignal parsed before signal = .ok after ∧ Grounded after := by
      intro signal member before grounded
      obtain ⟨fields, isObject, signalParts, reads⟩ := readable.signals signal member
      have matched : ∀ item ∈ parsed.evidence.filter signalParts.accepts,
          ∃ evidence, toDetectionEvidence item = .ok evidence := by
        intro item inFilter
        obtain ⟨present, accepted⟩ := List.mem_filter.mp inFilter
        rw [← signalAccepts_eq isObject reads] at accepted
        exact recorded signal member item present accepted
      obtain ⟨evidence, built, _⟩ := mapM_ok_of_forall matched
      exact ⟨_, scoreSignal_iff.mpr ⟨fields, isObject, signalParts, reads, evidence, built, rfl⟩,
        grounded.scored built⟩
    have start : Grounded initialScore := ⟨by decide, by decide⟩
    obtain ⟨score, scored, grounded⟩ := foldlM_ok_of_forall step start
    have detected : ∃ detection, parts.detection score = .ok detection := by
      by_cases reached : parts.threshold ≤ score.confidence
      · have confident := lt_of_lt_of_le readable.threshold reached
        obtain ⟨detection, built⟩ := detectionFor_succeeds parts.technologySlug
          parts.technologyCategorySlug parts.ruleSlug parts.ruleVersion reached grounded.bounded
          (grounded.matched confident)
        exact ⟨some detection, built⟩
      · refine ⟨none, ?_⟩
        unfold RuleParts.detection detectionFor
        exact if_neg reached
    obtain ⟨detection, built⟩ := detected
    obtain ⟨version, versioned⟩ := readable.version parsed detection
    exact ⟨_, evaluateActiveRule_iff.mpr
      ⟨parts, own, score, scored, detection, built, version, versioned, rfl⟩⟩

end Evaluation

end TechAtlas.Rules
