import TechAtlas.Detection
import TechAtlas.Parser
import TechAtlas.Library.Table
import TechAtlas.Library.Transition

set_option autoImplicit false

/- Evaluating the published rules against parsed artifacts. A rule's definition
is a JSON document that is checked while it is evaluated. -/
namespace TechAtlas.Detector

open Library TechAtlas.Parser

section Json

/-- `serde_json::Number`: an integer that fits `u64`, a negative one that fits
`i64`, or a float, kept as its text. -/
inductive JsonNumber
  | posInt (value : Nat)
  | negInt (value : Int)
  | float (literal : Text)
  deriving DecidableEq, Repr

inductive Json
  | null
  | bool (value : Bool)
  | number (value : JsonNumber)
  | string (value : Text)
  | array (items : List Json)
  | object (fields : List (Text × Json))

mutual

def Json.beq : Json → Json → Bool
  | .null, .null => true
  | .bool left, .bool right => left == right
  | .number left, .number right => left == right
  | .string left, .string right => left == right
  | .array left, .array right => Json.beqItems left right
  | .object left, .object right => Json.beqFields left right
  | _, _ => false

def Json.beqItems : List Json → List Json → Bool
  | [], [] => true
  | left :: lefts, right :: rights => left.beq right && Json.beqItems lefts rights
  | _, _ => false

def Json.beqFields : List (Text × Json) → List (Text × Json) → Bool
  | [], [] => true
  | (leftName, left) :: lefts, (rightName, right) :: rights =>
      leftName == rightName && left.beq right && Json.beqFields lefts rights
  | _, _ => false

end

mutual

theorem Json.beq_iff : (left right : Json) → (left.beq right = true ↔ left = right)
  | .null, right => by cases right <;> simp [Json.beq]
  | .bool _, right => by cases right <;> simp [Json.beq]
  | .number _, right => by cases right <;> simp [Json.beq]
  | .string _, right => by cases right <;> simp [Json.beq]
  | .array left, right => by
      cases right <;> simp [Json.beq, Json.beqItems_iff left]
  | .object left, right => by
      cases right <;> simp [Json.beq, Json.beqFields_iff left]

theorem Json.beqItems_iff : (left right : List Json) →
    (Json.beqItems left right = true ↔ left = right)
  | [], right => by cases right <;> simp [Json.beqItems]
  | left :: lefts, right => by
      cases right <;> simp [Json.beqItems, Json.beq_iff left, Json.beqItems_iff lefts]

theorem Json.beqFields_iff : (left right : List (Text × Json)) →
    (Json.beqFields left right = true ↔ left = right)
  | [], right => by cases right <;> simp [Json.beqFields]
  | (name, left) :: lefts, right => by
      cases right <;> simp [Json.beqFields, Json.beq_iff left, Json.beqFields_iff lefts,
        Prod.ext_iff]

end

instance : DecidableEq Json := fun left right => decidable_of_iff _ (Json.beq_iff left right)
def Json.asObject : Json → Option (List (Text × Json))
  | .object fields => some fields
  | _ => none

def Json.asArray : Json → Option (List Json)
  | .array items => some items
  | _ => none

def Json.asStr : Json → Option Text
  | .string value => some value
  | _ => none

def Json.asU64 : Json → Option Nat
  | .number (.posInt value) => some value
  | _ => none

/-- `definition.get(name).and_then(Value::as_str)`. -/
def strField (fields : List (Text × Json)) (name : String) : Option Text :=
  (fields.lookup name.toList).bind Json.asStr

/-- A field that holds a positive `u8`. -/
def positiveField (fields : List (Text × Json)) (name : String) : Option Nat :=
  ((fields.lookup name.toList).bind Json.asU64).filter fun value => value < 256 && 0 < value

end Json

/-- A compiled pattern of the `regex` crate: the number of its groups and the
groups of its first match. -/
structure Regex where
  capturesLen : Nat
  captures : Text → Option (List (Option Text))

/-- The `regex` crate. -/
structure RegexCrate where
  compile : Text → Option Regex

structure ActiveDetectionRule where
  technologySlug : Text
  technologyCategorySlug : Text
  ruleSlug : Text
  version : Nat
  definition : Json

inductive DetectorError
  | invalidRuleDefinition
  | invalidDetection (error : DetectionError)
  deriving DecidableEq, Repr

section Matching

/-- `str::eq_ignore_ascii_case`. -/
def eqIgnoreAsciiCase (left right : Text) : Bool := asciiLowercase left == asciiLowercase right

def containsIgnoreCase (value expected : Text) : Bool :=
  containsText (asciiLowercase expected) (asciiLowercase value)

def matchesDynamic (value matcher : Text) (expected : Option Text) : Bool :=
  if matcher = "present".toList then !value.isEmpty
  else if matcher = "equals_ignore_case".toList then
    expected.any fun expected => eqIgnoreAsciiCase value expected
  else if matcher = "contains_ignore_case".toList then
    expected.any fun expected => containsIgnoreCase value expected
  else false

def parseSource (value : Option Text) : Except DetectorError ArtifactSource :=
  if value = some "html".toList then .ok .html
  else if value = some "header".toList then .ok .header
  else if value = some "script".toList then .ok .script
  else if value = some "dns".toList then .ok .dns
  else if value = some "tls".toList then .ok .tls
  else .error .invalidRuleDefinition

def evidenceSource : ArtifactSource → DetectionEvidenceSource
  | .html => .html
  | .header => .header
  | .script => .script
  | .dns => .dns
  | .tls => .tls

def toDetectionEvidence (evidence : NormalizedEvidence) : Except DetectorError DetectionEvidence :=
  (DetectionEvidence.new (evidenceSource evidence.source) evidence.key evidence.value).mapError
    .invalidDetection

end Matching

section Evaluation

/-- What the loop over the signals of a rule carries. -/
structure Score where
  confidence : Nat
  matchedEvidence : List DetectionEvidence
  completeCoverage : Bool
  deriving DecidableEq, Repr

/-- `saturating_add` of two `u8`s, capped at `MAX_CONFIDENCE`. -/
def addWeight (confidence weight : Nat) : Nat := min (min (confidence + weight) 255) 100

def scoreSignal (parsed : ParsedArtifacts) (score : Score) (signal : Json) :
    Except DetectorError Score := do
  let signal ← orError signal.asObject .invalidRuleDefinition
  let source ← parseSource (strField signal "source")
  let key ← orError ((strField signal "key").filter fun value => !(trim value).isEmpty)
    .invalidRuleDefinition
  let matcher ← orError (strField signal "match") .invalidRuleDefinition
  let expected := strField signal "value"
  let weight ← orError (positiveField signal "weight") .invalidRuleDefinition
  let matched := parsed.evidence.filter fun item =>
    item.source == source && eqIgnoreAsciiCase item.key key &&
      matchesDynamic item.value matcher expected
  let evidence ← matched.mapM toDetectionEvidence
  .ok {
    confidence := if matched.isEmpty then score.confidence else addWeight score.confidence weight
    matchedEvidence := score.matchedEvidence ++ evidence
    completeCoverage := score.completeCoverage && (parsed.availability source == .available) }

/-- The version a rule's pattern captures, when the rule has one. -/
def extractDynamicVersion (regexes : RegexCrate) (definition : List (Text × Json))
    (parsed : ParsedArtifacts) : Except DetectorError (Option Text) :=
  match definition.lookup "version_evidence".toList with
  | none => .ok none
  | some versionEvidence => do
      let versionEvidence ← orError versionEvidence.asObject .invalidRuleDefinition
      let source ← parseSource (strField versionEvidence "source")
      let key ← orError ((strField versionEvidence "key").filter fun value =>
        !(trim value).isEmpty && utf8Length value ≤ 128) .invalidRuleDefinition
      let pattern ← orError ((strField versionEvidence "pattern").filter fun value =>
        !value.isEmpty && utf8Length value ≤ 256) .invalidRuleDefinition
      let regex ← orError (regexes.compile pattern) .invalidRuleDefinition
      require (regex.capturesLen == 2) .invalidRuleDefinition
      let candidates := parsed.evidence.filter fun item =>
        item.source == source && eqIgnoreAsciiCase item.key key
      let capture := candidates.findSome? fun item =>
        (regex.captures item.value).bind fun groups => (groups[1]?).join
      .ok ((capture.map trim).filter fun value => !value.isEmpty && value.length ≤ 128)

/-- A version is looked for only where the technology was detected. -/
def detectedVersion (regexes : RegexCrate) (definition : List (Text × Json))
    (parsed : ParsedArtifacts) : Option Detection → Except DetectorError (Option Text)
  | some _ => extractDynamicVersion regexes definition parsed
  | none => .ok none

structure RuleEvaluation where
  detection : Option Detection
  observation : RuleObservation
  technologyVersion : Option Text

def initialScore : Score where
  confidence := 0
  matchedEvidence := []
  completeCoverage := true

/-- A slug of the rule, or the detection error of its kind. -/
def ruleSlugOr (error : DetectionError) (value : Text) : Except DetectorError Slug :=
  orError (Slug.parse value) (.invalidDetection error)

/-- The detection of a rule whose score reaches its threshold. -/
def detectionFor (technologySlug : TechnologySlug) (technologyCategorySlug : TechnologyCategorySlug)
    (ruleSlug : RuleSlug) (ruleVersion : RuleVersion) (threshold : Nat) (score : Score) :
    Except DetectorError (Option Detection) :=
  if threshold ≤ score.confidence then do
    let confidence ← orError (DetectionConfidence.new score.confidence)
      (.invalidDetection .invalidConfidence)
    let detection ← (Detection.new technologySlug technologyCategorySlug ruleSlug ruleVersion
      confidence score.matchedEvidence).mapError .invalidDetection
    .ok (some detection)
  else .ok none

def observedStatus (detection : Option Detection) (score : Score) : RuleObservationStatus :=
  if detection.isSome then .detected
  else if score.matchedEvidence.isEmpty && score.completeCoverage then .confirmedAbsent
  else .unknown

def evaluateActiveRule (regexes : RegexCrate) (rule : ActiveDetectionRule)
    (parsed : ParsedArtifacts) : Except DetectorError RuleEvaluation := do
  let definition ← orError rule.definition.asObject .invalidRuleDefinition
  let threshold ← orError (positiveField definition "threshold") .invalidRuleDefinition
  let signals ← orError (((definition.lookup "signals".toList).bind Json.asArray).filter
    fun signals => !signals.isEmpty) .invalidRuleDefinition
  let score ← signals.foldlM (scoreSignal parsed) initialScore
  let technologySlug ← ruleSlugOr .invalidTechnologySlug rule.technologySlug
  let technologyCategorySlug ← ruleSlugOr .invalidTechnologyCategorySlug
    rule.technologyCategorySlug
  let ruleSlug ← ruleSlugOr .invalidRuleSlug rule.ruleSlug
  let ruleVersion ← orError (RuleVersion.new rule.version) (.invalidDetection .invalidRuleVersion)
  let detection ← detectionFor technologySlug technologyCategorySlug ruleSlug ruleVersion threshold
    score
  let technologyVersion ← detectedVersion regexes definition parsed detection
  .ok {
    detection := detection
    observation := {
      technologySlug := technologySlug
      technologyCategorySlug := technologyCategorySlug
      ruleSlug := ruleSlug
      ruleVersion := ruleVersion
      status := observedStatus detection score }
    technologyVersion := technologyVersion }

structure DetectionEvaluation where
  detections : List Detection
  observations : List RuleObservation

/-- The detections are sorted by technology; the observations keep the order of
the rules. -/
def evaluateActive (regexes : RegexCrate) (parsed : ParsedArtifacts)
    (rules : List ActiveDetectionRule) : Except DetectorError DetectionEvaluation := do
  let evaluations ← rules.mapM fun rule => evaluateActiveRule regexes rule parsed
  .ok {
    detections := (evaluations.filterMap RuleEvaluation.detection).insertionSort
      fun left right => left.technologySlug.1 ≤ right.technologySlug.1
    observations := evaluations.map RuleEvaluation.observation }

end Evaluation

/-- At most one rule for each technology. -/
def onePerTechnology (rules : List ActiveDetectionRule) : Prop :=
  (rules.map fun rule => Slug.parse rule.technologySlug).Nodup

instance (rules : List ActiveDetectionRule) : Decidable (onePerTechnology rules) :=
  inferInstanceAs (Decidable (List.Nodup _))

/-- What the store relies on when it records an evaluation. -/
structure Coherent (detections : List Detection) (observations : List RuleObservation) : Prop where
  distinct : (observations.map RuleObservation.technologySlug).Nodup
  detected : ∀ observation ∈ observations, observation.status = .detected →
    ∃ detection ∈ detections, detection.technologySlug = observation.technologySlug

section Coherence

variable {regexes : RegexCrate} {parsed : ParsedArtifacts}

theorem detectionFor_technologySlug {technologySlug : TechnologySlug}
    {technologyCategorySlug : TechnologyCategorySlug} {ruleSlug : RuleSlug}
    {ruleVersion : RuleVersion} {threshold : Nat} {score : Score} {detection : Detection}
    (success : detectionFor technologySlug technologyCategorySlug ruleSlug ruleVersion threshold
      score = .ok (some detection)) : detection.technologySlug = technologySlug := by
  unfold detectionFor at success
  split at success
  · obtain ⟨confidence, _, success⟩ := bind_eq_ok.mp success
    obtain ⟨built, new, success⟩ := bind_eq_ok.mp success
    have same := Option.some.inj (Except.ok.inj success)
    rw [mapError_eq_ok] at new
    unfold Detection.new at new
    dsimp only at new
    split at new
    · cases new
    · rw [← same, ← Except.ok.inj new]
  · cases success

/-- The observation is of the rule's technology, and it is a detected one exactly
when it comes with a detection of it. -/
theorem evaluateActiveRule_eq_ok {rule : ActiveDetectionRule} {evaluation : RuleEvaluation}
    (success : evaluateActiveRule regexes rule parsed = .ok evaluation) :
    Slug.parse rule.technologySlug = some evaluation.observation.technologySlug ∧
      (evaluation.observation.status = .detected → ∃ detection,
        evaluation.detection = some detection ∧
          detection.technologySlug = evaluation.observation.technologySlug) ∧
      ∀ detection, evaluation.detection = some detection →
        evaluation.observation.status = .detected ∧
          detection.technologySlug = evaluation.observation.technologySlug := by
  unfold evaluateActiveRule at success
  obtain ⟨definition, _, success⟩ := bind_eq_ok.mp success
  obtain ⟨threshold, _, success⟩ := bind_eq_ok.mp success
  obtain ⟨signals, _, success⟩ := bind_eq_ok.mp success
  obtain ⟨score, _, success⟩ := bind_eq_ok.mp success
  obtain ⟨technologySlug, technology, success⟩ := bind_eq_ok.mp success
  obtain ⟨categorySlug, _, success⟩ := bind_eq_ok.mp success
  obtain ⟨ruleSlug, _, success⟩ := bind_eq_ok.mp success
  obtain ⟨ruleVersion, _, success⟩ := bind_eq_ok.mp success
  obtain ⟨detection, detected, success⟩ := bind_eq_ok.mp success
  obtain ⟨technologyVersion, _, success⟩ := bind_eq_ok.mp success
  rw [← Except.ok.inj success]
  refine ⟨orError_eq_ok.mp technology, ?_, ?_⟩
  · intro status
    cases detection with
    | some detection => exact ⟨detection, rfl, detectionFor_technologySlug detected⟩
    | none =>
        simp only [observedStatus, Option.isSome_none, Bool.false_eq_true, ↓reduceIte] at status
        split at status <;> cases status
  · intro own found
    have same : detection = some own := found
    subst same
    exact ⟨rfl, detectionFor_technologySlug detected⟩

theorem evaluateActive_coherent {rules : List ActiveDetectionRule}
    {evaluation : DetectionEvaluation} (single : onePerTechnology rules)
    (success : evaluateActive regexes parsed rules = .ok evaluation) :
    Coherent evaluation.detections evaluation.observations := by
  obtain ⟨evaluations, evaluated, same⟩ := bind_eq_ok.mp success
  rw [← Except.ok.inj same]
  constructor
  · have slugs : (rules.map fun rule => Slug.parse rule.technologySlug) =
        evaluations.map fun evaluation => some evaluation.observation.technologySlug :=
      map_of_mapM_eq_ok (fun _ _ own => (evaluateActiveRule_eq_ok own).1) evaluated
    rw [onePerTechnology, slugs] at single
    dsimp only
    rw [List.map_map]
    apply List.Nodup.of_map some
    rw [List.map_map]
    exact single
  · intro observation member status
    obtain ⟨own, inEvaluations, rfl⟩ := List.mem_map.mp member
    obtain ⟨rule, _, ruleEvaluated⟩ := mem_of_mapM_eq_ok evaluated inEvaluations
    obtain ⟨detection, found, technology⟩ := (evaluateActiveRule_eq_ok ruleEvaluated).2.1 status
    refine ⟨detection, ?_, technology⟩
    rw [List.mem_insertionSort]
    exact List.mem_filterMap.mpr ⟨own, inEvaluations, found⟩

/-- Every detection is of a technology that was observed as detected. -/
theorem evaluateActive_observed {rules : List ActiveDetectionRule}
    {evaluation : DetectionEvaluation}
    (success : evaluateActive regexes parsed rules = .ok evaluation) :
    ∀ detection ∈ evaluation.detections, ∃ observation ∈ evaluation.observations,
      observation.status = .detected ∧ observation.technologySlug = detection.technologySlug := by
  obtain ⟨evaluations, evaluated, same⟩ := bind_eq_ok.mp success
  rw [← Except.ok.inj same]
  intro detection member
  rw [List.mem_insertionSort] at member
  obtain ⟨own, inEvaluations, found⟩ := List.mem_filterMap.mp member
  obtain ⟨rule, _, ruleEvaluated⟩ := mem_of_mapM_eq_ok evaluated inEvaluations
  obtain ⟨status, technology⟩ := (evaluateActiveRule_eq_ok ruleEvaluated).2.2 detection found
  exact ⟨own.observation, List.mem_map_of_mem inEvaluations, status, technology.symm⟩

end Coherence

section Evidence

theorem rank_inj {left right : DetectionEvidenceSource} (same : left.rank = right.rank) :
    left = right := by
  cases left <;> cases right <;> first | rfl | cases same

/-- Evidence is ordered by its source, then by its key, then by its value. -/
theorem evidence_le_iff (left right : DetectionEvidence) :
    left.le right = true ↔
      toLex (left.source.rank, toLex (left.key, left.value)) ≤
        toLex (right.source.rank, toLex (right.key, right.value)) := by
  simp only [DetectionEvidence.le, Prod.Lex.toLex_le_toLex, Bool.or_eq_true, Bool.and_eq_true,
    decide_eq_true_eq, beq_iff_eq]
  constructor
  · rintro (first | ⟨source, rest⟩)
    · exact Or.inl first
    · exact Or.inr ⟨by rw [source], rest⟩
  · rintro (first | ⟨source, rest⟩)
    · exact Or.inl first
    · exact Or.inr ⟨rank_inj source, rest⟩

instance : IsTrans DetectionEvidence fun left right => left.le right = true where
  trans a b c := by
    simp only [evidence_le_iff]
    exact le_trans

instance : Std.Total fun left right : DetectionEvidence => left.le right = true where
  total a b := by
    simp only [evidence_le_iff]
    exact le_total _ _

instance : Std.Antisymm fun left right : DetectionEvidence => left.le right = true where
  antisymm a b := by
    simp only [evidence_le_iff]
    intro forth back
    have same := le_antisymm forth back
    simp only [EmbeddingLike.apply_eq_iff_eq, Prod.mk.injEq] at same
    obtain ⟨source, key, value⟩ := same
    rcases a with ⟨_, _, _⟩
    rcases b with ⟨_, _, _⟩
    simp only [DetectionEvidence.mk.injEq]
    exact ⟨rank_inj source, key, value⟩

theorem boundedRequired_eq_some {value result : Text} {limit : Nat}
    (bounded : boundedRequired value limit = some result) :
    result = trim value ∧ result ≠ [] ∧ result.length ≤ limit := by
  unfold boundedRequired at bounded
  split at bounded
  · rename_i fits
    rw [← Option.some.inj bounded]
    exact ⟨rfl, fits⟩
  · cases bounded

theorem detectionFor_evidence {technologySlug : TechnologySlug}
    {technologyCategorySlug : TechnologyCategorySlug} {ruleSlug : RuleSlug}
    {ruleVersion : RuleVersion} {threshold : Nat} {score : Score} {detection : Detection}
    (success : detectionFor technologySlug technologyCategorySlug ruleSlug ruleVersion threshold
      score = .ok (some detection)) :
    detection.evidence.Nodup ∧ ∀ item ∈ detection.evidence, item ∈ score.matchedEvidence := by
  unfold detectionFor at success
  split at success
  · obtain ⟨confidence, _, success⟩ := bind_eq_ok.mp success
    obtain ⟨built, new, success⟩ := bind_eq_ok.mp success
    have same := Option.some.inj (Except.ok.inj success)
    rw [mapError_eq_ok] at new
    unfold Detection.new at new
    dsimp only at new
    split at new
    · cases new
    · rw [← same, ← Except.ok.inj new]
      refine ⟨nodup_destutter_insertionSort _, ?_⟩
      intro item member
      have sorted := (List.destutter_sublist _ _).subset member
      rwa [List.mem_insertionSort] at sorted
  · cases success

end Evidence

end TechAtlas.Detector
