import TechAtlas.Parser.Parse
import TechAtlas.Rules.Evaluation

set_option autoImplicit false

/- The fixture test of the admin API against the evaluation of a worker: on the
same evidence both reach the same confidence. -/
namespace TechAtlas.Rules

open Library TechAtlas.Detector TechAtlas.Parser

section Fixture

def sourceName : ArtifactSource → Text
  | .html => "html".toList
  | .header => "header".toList
  | .script => "script".toList
  | .dns => "dns".toList
  | .tls => "tls".toList

/-- The evidence of a parse as an operator would write it down. -/
def fixtureOf (parsed : ParsedArtifacts) : List RuleFixtureSignal :=
  parsed.evidence.map fun item => ⟨sourceName item.source, item.key, item.value⟩

theorem sourceName_injective {left right : ArtifactSource}
    (same : sourceName left = sourceName right) : left = right := by
  revert same
  cases left <;> cases right <;> decide

/-- The detector reads back the names that the fixture uses. -/
theorem parseSource_eq_ok {name : Option Text} {source : ArtifactSource}
    (found : parseSource name = .ok source) : name = some (sourceName source) := by
  unfold parseSource at found
  split at found
  · rename_i isHtml
    cases found
    exact isHtml
  split at found
  · rename_i isHeader
    cases found
    exact isHeader
  split at found
  · rename_i isScript
    cases found
    exact isScript
  split at found
  · rename_i isDns
    cases found
    exact isDns
  split at found
  · rename_i isTls
    cases found
    exact isTls
  · cases found

theorem u8Field_of_positiveField {fields : List (Text × Json)} {field : String} {value : Nat}
    (found : positiveField fields field = some value) : u8Field fields field = some value := by
  obtain ⟨present, bounds⟩ := Option.filter_eq_some_iff.mp found
  simp only [Bool.and_eq_true, decide_eq_true_eq] at bounds
  exact Option.filter_eq_some_iff.mpr ⟨present, decide_eq_true bounds.1⟩

/-- A signal finds something in the fixture exactly where it matches evidence. -/
theorem fixture_any (parts : SignalParts) (parsed : ParsedArtifacts) :
    ((fixtureOf parsed).any fun item => item.source == sourceName parts.source &&
      eqIgnoreAsciiCase item.key parts.key &&
      matchesDynamic item.value parts.matcher parts.expected) =
      parsed.evidence.any parts.accepts := by
  have same : ∀ source, (sourceName source == sourceName parts.source) =
      (source == parts.source) := by
    intro source
    by_cases equal : source = parts.source
    · rw [equal, beq_self_eq_true, beq_self_eq_true]
    · rw [beq_eq_false_iff_ne.mpr equal]
      exact beq_eq_false_iff_ne.mpr fun names => equal (sourceName_injective names)
  rw [fixtureOf, List.any_map]
  apply congrArg (List.any parsed.evidence)
  funext item
  dsimp only [Function.comp]
  rw [same, SignalParts.accepts]

/-- One signal moves the two confidences in the same way. -/
theorem scoreFixtureSignal_eq {parsed : ParsedArtifacts} {before after : Score} {signal : Json}
    (success : scoreSignal parsed before signal = .ok after) :
    scoreFixtureSignal (fixtureOf parsed) before.confidence signal = .ok after.confidence := by
  obtain ⟨fields, isObject, parts, own, evidence, _, rfl⟩ := scoreSignal_iff.mp success
  have source := parseSource_eq_ok own.source
  have key := (Option.filter_eq_some_iff.mp own.key).1
  unfold scoreFixtureSignal
  refine bind_eq_ok.mpr ⟨_, orError_eq_ok.mpr isObject, ?_⟩
  refine bind_eq_ok.mpr ⟨_, orError_eq_ok.mpr source, ?_⟩
  refine bind_eq_ok.mpr ⟨_, orError_eq_ok.mpr key, ?_⟩
  refine bind_eq_ok.mpr ⟨_, orError_eq_ok.mpr own.matcher, ?_⟩
  rw [own.expected]
  dsimp only [SignalParts.scored]
  rw [fixture_any]
  have matched := signalMatched_eq isObject own parsed
  have same : signalAccepts signal = parts.accepts :=
    funext fun item => signalAccepts_eq isObject own item
  rw [signalMatched, same] at matched
  rw [matched]
  by_cases none : (parsed.evidence.filter parts.accepts).isEmpty = true
  · rw [none, if_neg (by decide), if_pos rfl]
  · rw [Bool.eq_false_of_not_eq_true none, if_pos (by decide), if_neg (by decide)]
    exact bind_eq_ok.mpr ⟨_, orError_eq_ok.mpr (u8Field_of_positiveField own.weight), rfl⟩

theorem foldlM_fixture {parsed : ParsedArtifacts} {signals : List Json} {before after : Score}
    (success : signals.foldlM (scoreSignal parsed) before = .ok after) :
    signals.foldlM (scoreFixtureSignal (fixtureOf parsed)) before.confidence =
      .ok after.confidence := by
  induction signals generalizing before with
  | nil =>
      cases success
      rfl
  | cons signal rest ih =>
      rw [List.foldlM_cons, bind_eq_ok] at success ⊢
      obtain ⟨mid, first, later⟩ := success
      exact ⟨mid.confidence, scoreFixtureSignal_eq first, ih later⟩

/-- Where a publishable rule evaluates, its fixture test on the same evidence
reads the same threshold and ends with the same confidence. -/
theorem evaluateRuleFixture_eq {regexes : RegexCrate} {rule : ActiveDetectionRule}
    (publishable : IsPublishable regexes rule) {parsed : ParsedArtifacts} {score : Score}
    (scored : rule.score parsed = .ok score) :
    evaluateRuleFixture regexes rule.definition (fixtureOf parsed) =
      .ok (score.confidence, rule.threshold) := by
  obtain ⟨parts, own, _⟩ := publishable.readable
  rw [ActiveDetectionRule.score, own.signals_eq] at scored
  have signals := (Option.filter_eq_some_iff.mp own.signals).1
  rw [own.threshold_eq]
  unfold evaluateRuleFixture
  refine bind_eq_ok.mpr ⟨_, publishable.definition, ?_⟩
  refine bind_eq_ok.mpr ⟨_, orError_eq_ok.mpr own.definition, ?_⟩
  refine bind_eq_ok.mpr ⟨_, orError_eq_ok.mpr (u8Field_of_positiveField own.threshold), ?_⟩
  refine bind_eq_ok.mpr ⟨_, orError_eq_ok.mpr signals, ?_⟩
  exact bind_eq_ok.mpr ⟨_, foldlM_fixture scored, rfl⟩

/-- Evidence of the parser's own is recorded unless it is too long. -/
theorem toDetectionEvidence_succeeds {item : NormalizedEvidence} (present : item.IsPresent)
    (key : item.key.length ≤ 128) (value : item.value.length ≤ 2048) :
    ∃ evidence, toDetectionEvidence item = .ok evidence := by
  have keyBounded : boundedRequired item.key 128 = some (trim item.key) :=
    if_pos ⟨present.key, le_trans (trim_length_le item.key) key⟩
  have valueBounded : boundedRequired item.value 2048 = some (trim item.value) :=
    if_pos ⟨present.value, le_trans (trim_length_le item.value) value⟩
  have built : DetectionEvidence.new (evidenceSource item.source) item.key item.value =
      .ok ⟨evidenceSource item.source, trim item.key, trim item.value⟩ := by
    unfold DetectionEvidence.new
    rw [keyBounded]
    dsimp only
    rw [valueBounded]
  exact ⟨_, mapError_eq_ok.mpr built⟩

/-- A rule that passed its validation behaves in a worker as in its fixture test,
whatever page is parsed, unless evidence it matches is too long to be recorded. -/
theorem fixture_agrees {regexes : RegexCrate} {rule : ActiveDetectionRule}
    (publishable : IsPublishable regexes rule) (htmls : HtmlCrate) (input : ArtifactBundle)
    (short : ∀ signal ∈ rule.signals, ∀ item ∈ (parse htmls input).evidence,
      signalAccepts signal item = true → item.key.length ≤ 128 ∧ item.value.length ≤ 2048) :
    ∃ evaluation score,
      evaluateActiveRule regexes rule (parse htmls input) = .ok evaluation ∧
      rule.score (parse htmls input) = .ok score ∧
      evaluateRuleFixture regexes rule.definition (fixtureOf (parse htmls input)) =
        .ok (score.confidence, rule.threshold) ∧
      (evaluation.observation.status = .detected ↔ rule.threshold ≤ score.confidence) ∧
      ∀ detection, evaluation.detection = some detection →
        detection.confidence.1 = score.confidence := by
  have evaluates := (evaluates_iff publishable (parse htmls input)).mpr
    fun signal member item present accepted => by
      have bounds := short signal member item present accepted
      exact toDetectionEvidence_succeeds (parse_present item present) bounds.1 bounds.2
  obtain ⟨evaluation, success⟩ := evaluates
  obtain ⟨score, scored, sound⟩ := evaluateActiveRule_sound success
  refine ⟨evaluation, score, success, scored, evaluateRuleFixture_eq publishable scored,
    sound.detected, ?_⟩
  intro detection found
  exact (sound.reported detection found).1

def generatorPage : ArtifactBundle where
  html := .unavailable .notCaptured
  headers := .captured [("X-Powered-By".toList, "WordPress".toList)]
  dns := .unavailable .notCaptured
  tls := .unavailable .notCaptured

def noHtml : HtmlCrate where
  parseDocument _ := ⟨none, [], []⟩

theorem wordpressRule_publishable : IsPublishable noRegex wordpressRule :=
  ⟨rfl, by decide, by decide, by decide, by decide⟩

theorem fixture_agrees_wordpress : ∃ (evaluation : RuleEvaluation) (score : Score),
    evaluateActiveRule noRegex wordpressRule (parse noHtml generatorPage) = .ok evaluation ∧
    evaluateRuleFixture noRegex wordpressRule.definition
      (fixtureOf (parse noHtml generatorPage)) = .ok (score.confidence, 60) ∧
    (evaluation.observation.status = .detected ↔ 60 ≤ score.confidence) := by
  have short : ∀ signal ∈ wordpressRule.signals,
      ∀ item ∈ (parse noHtml generatorPage).evidence,
      signalAccepts signal item = true → item.key.length ≤ 128 ∧ item.value.length ≤ 2048 := by
    intro signal _ item member _
    have only : (parse noHtml generatorPage).evidence =
      [⟨.header, "x-powered-by".toList, "WordPress".toList⟩] := by decide
    rw [only, List.mem_singleton] at member
    rw [member]
    decide
  obtain ⟨evaluation, score, success, _, fixture, detected, _⟩ :=
    fixture_agrees wordpressRule_publishable noHtml generatorPage short
  exact ⟨evaluation, score, success, fixture, detected⟩

end Fixture

end TechAtlas.Rules
