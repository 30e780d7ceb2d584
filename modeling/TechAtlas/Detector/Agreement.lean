import TechAtlas.Detector

set_option autoImplicit false

/- One rule evaluated on two parses: what it takes from each, when the two
evaluations agree, and what more evidence can change. -/
namespace TechAtlas.Detector

open Library TechAtlas.Parser

section Parts

/-- What an evaluation reads of the rule before it looks at any evidence. -/
structure RuleParts where
  definition : List (Text × Json)
  threshold : Nat
  signals : List Json
  technologySlug : TechnologySlug
  technologyCategorySlug : TechnologyCategorySlug
  ruleSlug : RuleSlug
  ruleVersion : RuleVersion

structure RuleParts.Of (parts : RuleParts) (rule : ActiveDetectionRule) : Prop where
  definition : rule.definition.asObject = some parts.definition
  threshold : positiveField parts.definition "threshold" = some parts.threshold
  signals : ((parts.definition.lookup "signals".toList).bind Json.asArray).filter
    (fun signals => !signals.isEmpty) = some parts.signals
  technologySlug : Slug.parse rule.technologySlug = some parts.technologySlug
  technologyCategorySlug : Slug.parse rule.technologyCategorySlug =
    some parts.technologyCategorySlug
  ruleSlug : Slug.parse rule.ruleSlug = some parts.ruleSlug
  ruleVersion : RuleVersion.new rule.version = some parts.ruleVersion

def RuleParts.detection (parts : RuleParts) (score : Score) :
    Except DetectorError (Option Detection) :=
  detectionFor parts.technologySlug parts.technologyCategorySlug parts.ruleSlug parts.ruleVersion
    parts.threshold score

def RuleParts.evaluation (parts : RuleParts) (score : Score) (detection : Option Detection)
    (technologyVersion : Option Text) : RuleEvaluation where
  detection := detection
  observation := {
    technologySlug := parts.technologySlug
    technologyCategorySlug := parts.technologyCategorySlug
    ruleSlug := parts.ruleSlug
    ruleVersion := parts.ruleVersion
    status := observedStatus detection score }
  technologyVersion := technologyVersion

theorem RuleParts.Of.unique {first second : RuleParts} {rule : ActiveDetectionRule}
    (own : first.Of rule) (other : second.Of rule) : first = second := by
  have definition := Option.some.inj (own.definition.symm.trans other.definition)
  have threshold := other.threshold
  have signals := other.signals
  rw [← definition] at threshold signals
  have sameThreshold := Option.some.inj (own.threshold.symm.trans threshold)
  have sameSignals := Option.some.inj (own.signals.symm.trans signals)
  have technologySlug := Option.some.inj (own.technologySlug.symm.trans other.technologySlug)
  have categorySlug :=
    Option.some.inj (own.technologyCategorySlug.symm.trans other.technologyCategorySlug)
  have ruleSlug := Option.some.inj (own.ruleSlug.symm.trans other.ruleSlug)
  have ruleVersion := Option.some.inj (own.ruleVersion.symm.trans other.ruleVersion)
  cases first
  cases second
  simp only [RuleParts.mk.injEq]
  exact ⟨definition, sameThreshold, sameSignals, technologySlug, categorySlug, ruleSlug,
    ruleVersion⟩

/-- An evaluation succeeds where the rule can be read, its signals can be scored
and a detection and a version can be built. -/
theorem evaluateActiveRule_iff {regexes : RegexCrate} {rule : ActiveDetectionRule}
    {parsed : ParsedArtifacts} {evaluation : RuleEvaluation} :
    evaluateActiveRule regexes rule parsed = .ok evaluation ↔
      ∃ parts : RuleParts, parts.Of rule ∧
        ∃ score, parts.signals.foldlM (scoreSignal parsed) initialScore = .ok score ∧
          ∃ detection, parts.detection score = .ok detection ∧
            ∃ version, detectedVersion regexes parts.definition parsed detection = .ok version ∧
              parts.evaluation score detection version = evaluation := by
  constructor
  · intro success
    unfold evaluateActiveRule at success
    obtain ⟨definition, isObject, success⟩ := bind_eq_ok.mp success
    obtain ⟨threshold, hasThreshold, success⟩ := bind_eq_ok.mp success
    obtain ⟨signals, hasSignals, success⟩ := bind_eq_ok.mp success
    obtain ⟨score, scored, success⟩ := bind_eq_ok.mp success
    obtain ⟨technologySlug, technology, success⟩ := bind_eq_ok.mp success
    obtain ⟨categorySlug, category, success⟩ := bind_eq_ok.mp success
    obtain ⟨ruleSlug, slug, success⟩ := bind_eq_ok.mp success
    obtain ⟨ruleVersion, number, success⟩ := bind_eq_ok.mp success
    obtain ⟨detection, detected, success⟩ := bind_eq_ok.mp success
    obtain ⟨version, versioned, success⟩ := bind_eq_ok.mp success
    refine ⟨⟨definition, threshold, signals, technologySlug, categorySlug, ruleSlug, ruleVersion⟩,
      ?_, score, scored, detection, detected, version, versioned, Except.ok.inj success⟩
    exact ⟨orError_eq_ok.mp isObject, orError_eq_ok.mp hasThreshold, orError_eq_ok.mp hasSignals,
      orError_eq_ok.mp technology, orError_eq_ok.mp category, orError_eq_ok.mp slug,
      orError_eq_ok.mp number⟩
  · rintro ⟨parts, own, score, scored, detection, detected, version, versioned, same⟩
    unfold evaluateActiveRule
    refine bind_eq_ok.mpr ⟨_, orError_eq_ok.mpr own.definition, ?_⟩
    refine bind_eq_ok.mpr ⟨_, orError_eq_ok.mpr own.threshold, ?_⟩
    refine bind_eq_ok.mpr ⟨_, orError_eq_ok.mpr own.signals, ?_⟩
    refine bind_eq_ok.mpr ⟨_, scored, ?_⟩
    refine bind_eq_ok.mpr ⟨_, orError_eq_ok.mpr own.technologySlug, ?_⟩
    refine bind_eq_ok.mpr ⟨_, orError_eq_ok.mpr own.technologyCategorySlug, ?_⟩
    refine bind_eq_ok.mpr ⟨_, orError_eq_ok.mpr own.ruleSlug, ?_⟩
    refine bind_eq_ok.mpr ⟨_, orError_eq_ok.mpr own.ruleVersion, ?_⟩
    refine bind_eq_ok.mpr ⟨_, detected, ?_⟩
    exact bind_eq_ok.mpr ⟨_, versioned, congrArg Except.ok same⟩

end Parts

section Signals

def signalSource (signal : Json) : Option ArtifactSource :=
  signal.asObject.bind fun fields => (parseSource (strField fields "source")).toOption

/-- The signals of the rule's definition, none where it has no such field. -/
def ActiveDetectionRule.signals (rule : ActiveDetectionRule) : List Json :=
  ((rule.definition.asObject.bind fun fields => fields.lookup "signals".toList).bind
    Json.asArray).getD []

/-- The signals of the rule use only sources of the kind. -/
def ActiveDetectionRule.usesOnly (rule : ActiveDetectionRule) (kind : ArtifactSource → Bool) :
    Bool :=
  rule.signals.all fun signal => (signalSource signal).all kind

theorem RuleParts.Of.signals_eq {parts : RuleParts} {rule : ActiveDetectionRule}
    (own : parts.Of rule) : rule.signals = parts.signals := by
  have present := (Option.filter_eq_some_iff.mp own.signals).1
  rw [ActiveDetectionRule.signals, own.definition, Option.bind_some, present]
  rfl

/-- The version is looked for in the evidence, but whether the search is a valid
one depends on the definition alone. -/
theorem detectedVersion_succeeds {regexes : RegexCrate} {definition : List (Text × Json)}
    {first : ParsedArtifacts} {detection : Option Detection} {version : Option Text}
    (success : detectedVersion regexes definition first detection = .ok version)
    (second : ParsedArtifacts) (other : Option Detection)
    (detected : other.isSome = true → detection.isSome = true) :
    ∃ version, detectedVersion regexes definition second other = .ok version := by
  cases other with
  | none => exact ⟨none, rfl⟩
  | some found =>
      cases detection with
      | none => cases detected rfl
      | some detection =>
          change extractDynamicVersion regexes definition first = .ok version at success
          change ∃ version, extractDynamicVersion regexes definition second = .ok version
          unfold extractDynamicVersion at success ⊢
          split at success
          · exact ⟨none, rfl⟩
          · obtain ⟨fields, isObject, success⟩ := bind_eq_ok.mp success
            obtain ⟨source, hasSource, success⟩ := bind_eq_ok.mp success
            obtain ⟨key, hasKey, success⟩ := bind_eq_ok.mp success
            obtain ⟨pattern, hasPattern, success⟩ := bind_eq_ok.mp success
            obtain ⟨regex, compiled, success⟩ := bind_eq_ok.mp success
            obtain ⟨_, oneGroup, success⟩ := bind_eq_ok.mp success
            refine exists_bind_ok isObject (exists_bind_ok hasSource (exists_bind_ok hasKey
              (exists_bind_ok hasPattern (exists_bind_ok compiled (exists_bind_ok oneGroup ?_)))))
            exact ⟨_, rfl⟩

end Signals

section Matching

/-- What scoring a signal reads of it. -/
structure SignalParts where
  source : ArtifactSource
  key : Text
  matcher : Text
  expected : Option Text
  weight : Nat

structure SignalParts.Of (parts : SignalParts) (fields : List (Text × Json)) : Prop where
  source : parseSource (strField fields "source") = .ok parts.source
  key : (strField fields "key").filter (fun value => !(trim value).isEmpty) = some parts.key
  matcher : strField fields "match" = some parts.matcher
  expected : strField fields "value" = parts.expected
  weight : positiveField fields "weight" = some parts.weight

def SignalParts.accepts (parts : SignalParts) (item : NormalizedEvidence) : Bool :=
  item.source == parts.source && eqIgnoreAsciiCase item.key parts.key &&
    matchesDynamic item.value parts.matcher parts.expected

def SignalParts.scored (parts : SignalParts) (parsed : ParsedArtifacts) (score : Score)
    (evidence : List DetectionEvidence) : Score where
  confidence := if (parsed.evidence.filter parts.accepts).isEmpty then score.confidence
    else addWeight score.confidence parts.weight
  matchedEvidence := score.matchedEvidence ++ evidence
  completeCoverage := score.completeCoverage && (parsed.availability parts.source == .available)

theorem scoreSignal_iff {parsed : ParsedArtifacts} {before after : Score} {signal : Json} :
    scoreSignal parsed before signal = .ok after ↔
      ∃ fields, signal.asObject = some fields ∧ ∃ parts : SignalParts, parts.Of fields ∧
        ∃ evidence, (parsed.evidence.filter parts.accepts).mapM toDetectionEvidence =
          .ok evidence ∧ parts.scored parsed before evidence = after := by
  constructor
  · intro success
    unfold scoreSignal at success
    obtain ⟨fields, isObject, success⟩ := bind_eq_ok.mp success
    obtain ⟨source, hasSource, success⟩ := bind_eq_ok.mp success
    obtain ⟨key, hasKey, success⟩ := bind_eq_ok.mp success
    obtain ⟨matcher, hasMatcher, success⟩ := bind_eq_ok.mp success
    obtain ⟨weight, hasWeight, success⟩ := bind_eq_ok.mp success
    obtain ⟨evidence, built, success⟩ := bind_eq_ok.mp success
    refine ⟨fields, orError_eq_ok.mp isObject,
      ⟨source, key, matcher, strField fields "value", weight⟩, ?_, evidence, built,
      Except.ok.inj success⟩
    exact ⟨hasSource, orError_eq_ok.mp hasKey, orError_eq_ok.mp hasMatcher, rfl,
      orError_eq_ok.mp hasWeight⟩
  · rintro ⟨fields, isObject, parts, own, evidence, built, same⟩
    unfold scoreSignal
    refine bind_eq_ok.mpr ⟨_, orError_eq_ok.mpr isObject, ?_⟩
    refine bind_eq_ok.mpr ⟨_, own.source, ?_⟩
    refine bind_eq_ok.mpr ⟨_, orError_eq_ok.mpr own.key, ?_⟩
    refine bind_eq_ok.mpr ⟨_, orError_eq_ok.mpr own.matcher, ?_⟩
    refine bind_eq_ok.mpr ⟨_, orError_eq_ok.mpr own.weight, ?_⟩
    rw [own.expected]
    exact bind_eq_ok.mpr ⟨_, built, congrArg Except.ok same⟩

theorem SignalParts.accepts_source {parts : SignalParts} {item : NormalizedEvidence}
    (accepted : parts.accepts item = true) : item.source = parts.source := by
  simp only [SignalParts.accepts, Bool.and_eq_true, beq_iff_eq] at accepted
  exact accepted.1.1

end Matching

section Agreement

/-- Two parses that a signal of the kind cannot tell apart. -/
structure Agree (kind : ArtifactSource → Bool) (first second : ParsedArtifacts) : Prop where
  evidence : ∀ p : NormalizedEvidence → Bool, (∀ item, p item = true → kind item.source = true) →
    first.evidence.filter p = second.evidence.filter p
  availability : ∀ source, kind source = true →
    first.availability source = second.availability source

variable {kind : ArtifactSource → Bool} {first second : ParsedArtifacts}

theorem Agree.symm (agree : Agree kind first second) : Agree kind second first :=
  ⟨fun p own => (agree.evidence p own).symm, fun source own => (agree.availability source own).symm⟩

theorem scoreSignal_agree (agree : Agree kind first second) {signal : Json}
    (only : (signalSource signal).all kind = true) {before after : Score}
    (success : scoreSignal first before signal = .ok after) :
    scoreSignal second before signal = .ok after := by
  obtain ⟨fields, isObject, parts, own, evidence, built, same⟩ := scoreSignal_iff.mp success
  have ofKind : kind parts.source = true := by
    rw [signalSource, isObject, Option.bind_some, own.source] at only
    exact only
  have matched : first.evidence.filter parts.accepts = second.evidence.filter parts.accepts := by
    apply agree.evidence
    intro item accepted
    rw [SignalParts.accepts_source accepted]
    exact ofKind
  refine scoreSignal_iff.mpr ⟨fields, isObject, parts, own, evidence, ?_, ?_⟩
  · rw [← matched]
    exact built
  · rw [← same, SignalParts.scored, SignalParts.scored, matched, agree.availability _ ofKind]

/-- What an evaluation says of the page: the detection and its observation. -/
def RuleEvaluation.outcome (evaluation : RuleEvaluation) : Option Detection × RuleObservation :=
  (evaluation.detection, evaluation.observation)

/-- A rule that uses only sources the parses agree on has one outcome. -/
theorem evaluateActiveRule_agree {regexes : RegexCrate} {rule : ActiveDetectionRule}
    (agree : Agree kind first second) (only : rule.usesOnly kind = true)
    {evaluation : RuleEvaluation} (success : evaluateActiveRule regexes rule first = .ok evaluation) :
    ∃ other, evaluateActiveRule regexes rule second = .ok other ∧
      other.outcome = evaluation.outcome := by
  obtain ⟨parts, own, score, scored, detection, detected, version, versioned, rfl⟩ :=
    evaluateActiveRule_iff.mp success
  have each : ∀ signal ∈ parts.signals, (signalSource signal).all kind = true := by
    rw [ActiveDetectionRule.usesOnly, own.signals_eq] at only
    exact List.all_eq_true.mp only
  obtain ⟨score', scored', rfl⟩ := foldlM_related (R := Eq) (g := scoreSignal second)
    (fun signal member before before' after same succeeds => by
      subst same
      exact ⟨after, scoreSignal_agree agree (each signal member) succeeds, rfl⟩) rfl scored
  obtain ⟨version', versioned'⟩ := detectedVersion_succeeds versioned second detection id
  exact ⟨parts.evaluation score detection version', evaluateActiveRule_iff.mpr
    ⟨parts, own, score, scored', detection, detected, version', versioned', rfl⟩, rfl⟩

theorem evaluateActiveRule_outcome {regexes : RegexCrate} {rule : ActiveDetectionRule}
    (agree : Agree kind first second) (only : rule.usesOnly kind = true) :
    (evaluateActiveRule regexes rule first).toOption.map RuleEvaluation.outcome =
      (evaluateActiveRule regexes rule second).toOption.map RuleEvaluation.outcome := by
  cases own : evaluateActiveRule regexes rule first with
  | ok evaluation =>
      obtain ⟨other, success, same⟩ := evaluateActiveRule_agree agree only own
      rw [success]
      exact congrArg some same.symm
  | error reason =>
      cases found : evaluateActiveRule regexes rule second with
      | error _ => rfl
      | ok evaluation =>
          obtain ⟨other, success, _⟩ := evaluateActiveRule_agree agree.symm only found
          rw [own] at success
          cases success

end Agreement

section Monotonicity

variable {few many : ParsedArtifacts}

/-- More evidence has been matched, and with it more confidence. -/
structure Score.Below (less more : Score) : Prop where
  confidence : less.confidence ≤ more.confidence
  evidence : ∀ item ∈ less.matchedEvidence, item ∈ more.matchedEvidence
  bounded : more.confidence ≤ 100

theorem addWeight_le (confidence weight : Nat) : addWeight confidence weight ≤ 100 :=
  Nat.min_le_right _ _

theorem le_addWeight {confidence : Nat} (bounded : confidence ≤ 100) (weight : Nat) :
    confidence ≤ addWeight confidence weight := by
  unfold addWeight
  omega

theorem addWeight_mono {less more : Nat} (below : less ≤ more) (weight : Nat) :
    addWeight less weight ≤ addWeight more weight := by
  unfold addWeight
  omega

/-- The evidence of one parse and other evidence that can be recorded. -/
structure Extends (few many : ParsedArtifacts) : Prop where
  kept : ∀ item ∈ few.evidence, item ∈ many.evidence
  recorded : ∀ item ∈ many.evidence, item ∉ few.evidence →
    ∃ evidence, toDetectionEvidence item = .ok evidence

theorem scoreSignal_below (extends' : Extends few many) {signal : Json} {less more after : Score}
    (below : less.Below more) (success : scoreSignal few less signal = .ok after) :
    ∃ after', scoreSignal many more signal = .ok after' ∧ after.Below after' := by
  obtain ⟨fields, isObject, parts, own, evidence, built, rfl⟩ := scoreSignal_iff.mp success
  have kept : ∀ item ∈ few.evidence.filter parts.accepts,
      item ∈ many.evidence.filter parts.accepts := by
    intro item member
    obtain ⟨present, accepted⟩ := List.mem_filter.mp member
    exact List.mem_filter.mpr ⟨extends'.kept item present, accepted⟩
  have succeeds : ∀ item ∈ many.evidence.filter parts.accepts,
      ∃ evidence, toDetectionEvidence item = .ok evidence := by
    intro item member
    obtain ⟨present, accepted⟩ := List.mem_filter.mp member
    by_cases old : item ∈ few.evidence
    · obtain ⟨result, _, own⟩ := ok_of_mem_of_mapM built (List.mem_filter.mpr ⟨old, accepted⟩)
      exact ⟨result, own⟩
    · exact extends'.recorded item present old
  obtain ⟨evidence', built', found⟩ := mapM_ok_of_forall succeeds
  refine ⟨_, scoreSignal_iff.mpr ⟨fields, isObject, parts, own, evidence', built', rfl⟩, ?_, ?_, ?_⟩
  · dsimp only [SignalParts.scored]
    by_cases matched : (few.evidence.filter parts.accepts).isEmpty = true
    · rw [if_pos matched]
      have grown := le_addWeight below.bounded parts.weight
      have small := below.confidence
      split <;> omega
    · have matched' : ¬ (many.evidence.filter parts.accepts).isEmpty = true := by
        rw [List.isEmpty_iff] at matched ⊢
        obtain ⟨item, member⟩ := List.exists_mem_of_ne_nil _ matched
        exact List.ne_nil_of_mem (kept item member)
      rw [if_neg matched, if_neg matched']
      exact addWeight_mono below.confidence parts.weight
  · intro item member
    rcases List.mem_append.mp member with old | new
    · exact List.mem_append_left _ (below.evidence item old)
    · obtain ⟨source, inFew, own⟩ := mem_of_mapM_eq_ok built new
      obtain ⟨result, inResults, same⟩ := found source (kept source inFew)
      rw [own] at same
      rw [Except.ok.inj same]
      exact List.mem_append_right _ inResults
  · dsimp only [SignalParts.scored]
    split
    · exact below.bounded
    · exact addWeight_le _ _

theorem detectionFor_detected {technologySlug : TechnologySlug}
    {technologyCategorySlug : TechnologyCategorySlug} {ruleSlug : RuleSlug}
    {ruleVersion : RuleVersion} {threshold : Nat} {score : Score} {detection : Detection}
    (success : detectionFor technologySlug technologyCategorySlug ruleSlug ruleVersion threshold
      score = .ok (some detection)) :
    threshold ≤ score.confidence ∧ score.matchedEvidence ≠ [] := by
  have evidence := (detectionFor_evidence success).2
  obtain ⟨item, member⟩ := List.exists_mem_of_ne_nil _ detection.evidence_present
  refine ⟨?_, List.ne_nil_of_mem (evidence item member)⟩
  unfold detectionFor at success
  split at success
  · assumption
  · cases success

theorem detectionFor_succeeds (technologySlug : TechnologySlug)
    (technologyCategorySlug : TechnologyCategorySlug) (ruleSlug : RuleSlug)
    (ruleVersion : RuleVersion) {threshold : Nat} {score : Score}
    (reached : threshold ≤ score.confidence) (bounded : score.confidence ≤ 100)
    (matched : score.matchedEvidence ≠ []) :
    ∃ detection, detectionFor technologySlug technologyCategorySlug ruleSlug ruleVersion threshold
      score = .ok (some detection) := by
  have confident : DetectionConfidence.new score.confidence = some ⟨score.confidence, bounded⟩ :=
    dif_pos bounded
  have sorted : (score.matchedEvidence.insertionSort fun left right => left.le right).destutter
      (· ≠ ·) ≠ [] := by
    obtain ⟨item, member⟩ := List.exists_mem_of_ne_nil _ matched
    exact List.ne_nil_of_mem (mem_destutter_insertionSort.mpr member)
  have built : ∃ detection, Detection.new technologySlug technologyCategorySlug ruleSlug
      ruleVersion ⟨score.confidence, bounded⟩ score.matchedEvidence = .ok detection :=
    ⟨_, dif_neg sorted⟩
  obtain ⟨detection, built⟩ := built
  refine ⟨detection, ?_⟩
  unfold detectionFor
  rw [if_pos reached]
  exact bind_eq_ok.mpr ⟨_, orError_eq_ok.mpr confident,
    bind_eq_ok.mpr ⟨_, mapError_eq_ok.mpr built, rfl⟩⟩

/-- What is detected with some evidence is detected with more. -/
theorem evaluateActiveRule_monotone {regexes : RegexCrate} {rule : ActiveDetectionRule}
    (extends' : Extends few many) {evaluation : RuleEvaluation}
    (success : evaluateActiveRule regexes rule few = .ok evaluation)
    (detected : evaluation.observation.status = .detected) :
    ∃ other, evaluateActiveRule regexes rule many = .ok other ∧
      other.observation.status = .detected := by
  obtain ⟨parts, own, score, scored, detection, built, version, versioned, rfl⟩ :=
    evaluateActiveRule_iff.mp success
  have start : initialScore.Below initialScore := ⟨le_refl _, fun _ member => member, by decide⟩
  obtain ⟨score', scored', below⟩ := foldlM_related (g := scoreSignal many)
    (fun signal _ less more after related => scoreSignal_below extends' related) start scored
  cases detection with
  | none =>
      simp only [RuleParts.evaluation, observedStatus, Option.isSome_none, Bool.false_eq_true,
        ↓reduceIte] at detected
      split at detected <;> cases detected
  | some detection =>
      obtain ⟨reached, matched⟩ := detectionFor_detected built
      obtain ⟨item, member⟩ := List.exists_mem_of_ne_nil _ matched
      obtain ⟨other, built'⟩ := detectionFor_succeeds parts.technologySlug
        parts.technologyCategorySlug parts.ruleSlug parts.ruleVersion
        (le_trans reached below.confidence) below.bounded
        (List.ne_nil_of_mem (below.evidence item member))
      obtain ⟨version', versioned'⟩ :=
        detectedVersion_succeeds versioned many (some other) fun _ => rfl
      exact ⟨_, evaluateActiveRule_iff.mpr
        ⟨parts, own, score', scored', some other, built', version', versioned', rfl⟩, rfl⟩

end Monotonicity

section Coverage

theorem scoreSignal_coverage {parsed : ParsedArtifacts} {before after : Score} {signal : Json}
    (success : scoreSignal parsed before signal = .ok after)
    (complete : after.completeCoverage = true) :
    before.completeCoverage = true ∧
      (signalSource signal).all (fun source => parsed.availability source == .available) = true := by
  obtain ⟨fields, isObject, parts, own, evidence, built, rfl⟩ := scoreSignal_iff.mp success
  simp only [SignalParts.scored, Bool.and_eq_true] at complete
  refine ⟨complete.1, ?_⟩
  rw [signalSource, isObject, Option.bind_some, own.source]
  exact complete.2

theorem foldlM_coverage {parsed : ParsedArtifacts} {signals : List Json} {before after : Score}
    (success : signals.foldlM (scoreSignal parsed) before = .ok after)
    (complete : after.completeCoverage = true) :
    before.completeCoverage = true ∧ ∀ signal ∈ signals,
      (signalSource signal).all (fun source => parsed.availability source == .available) = true := by
  induction signals generalizing before with
  | nil =>
      cases success
      exact ⟨complete, by simp⟩
  | cons signal rest ih =>
      rw [List.foldlM_cons, bind_eq_ok] at success
      obtain ⟨mid, first, later⟩ := success
      obtain ⟨covered, others⟩ := ih later
      obtain ⟨start, own⟩ := scoreSignal_coverage first covered
      refine ⟨start, ?_⟩
      intro other member
      rcases List.mem_cons.mp member with rfl | inRest
      · exact own
      · exact others other inRest

/-- A technology is confirmed absent only where every source of its rule could be
read. -/
theorem usesOnly_of_confirmedAbsent {regexes : RegexCrate} {rule : ActiveDetectionRule}
    {parsed : ParsedArtifacts} {evaluation : RuleEvaluation}
    (success : evaluateActiveRule regexes rule parsed = .ok evaluation)
    (absent : evaluation.observation.status = .confirmedAbsent) :
    rule.usesOnly (fun source => parsed.availability source == .available) = true := by
  obtain ⟨parts, own, score, scored, detection, _, _, _, rfl⟩ := evaluateActiveRule_iff.mp success
  have complete : score.completeCoverage = true := by
    simp only [RuleParts.evaluation, observedStatus] at absent
    split at absent
    · cases absent
    · split at absent
      · rename_i covered
        exact (Bool.and_eq_true _ _ ▸ covered : _ ∧ _).2
      · cases absent
  rw [ActiveDetectionRule.usesOnly, own.signals_eq, List.all_eq_true]
  exact (foldlM_coverage scored complete).2

end Coverage

end TechAtlas.Detector
