import TechAtlas.Rules.Fixture

set_option autoImplicit false

/- The rules written into the detector, and the evaluator that reads them. The
evaluator of the published rules does the same with their JSON definitions. -/
namespace TechAtlas.Detector

open Library TechAtlas.Parser
open TechAtlas.Rules (sourceName)

section Definitions

inductive SignalMatcher
  | equalsIgnoreCase (expected : Text)
  | containsIgnoreCase (expected : Text)
  | present

structure SignalDefinition where
  source : ArtifactSource
  key : Text
  matcher : SignalMatcher
  weight : Nat

structure RuleDefinition where
  technologySlug : Text
  technologyCategorySlug : Text
  ruleSlug : Text
  version : Nat
  threshold : Nat
  signals : List SignalDefinition

def detectionThreshold : Nat := 70

/-- `SignalDefinition::matches`. -/
def SignalDefinition.accepts (signal : SignalDefinition) (evidence : NormalizedEvidence) : Bool :=
  evidence.source == signal.source && eqIgnoreAsciiCase evidence.key signal.key &&
    match signal.matcher with
    | .equalsIgnoreCase expected => eqIgnoreAsciiCase evidence.value expected
    | .containsIgnoreCase expected => containsIgnoreCase evidence.value expected
    | .present => !evidence.value.isEmpty

/-- What the loop over the signals of a static rule carries. -/
structure Matched where
  confidence : Nat
  matchedEvidence : List DetectionEvidence

def addSignal (parsed : ParsedArtifacts) (total : Matched) (signal : SignalDefinition) :
    Except DetectorError Matched :=
  let matched := parsed.evidence.filter signal.accepts
  if matched.isEmpty then .ok total
  else do
    let evidence ← matched.mapM toDetectionEvidence
    .ok {
      confidence := addWeight total.confidence signal.weight
      matchedEvidence := total.matchedEvidence ++ evidence }

def Matched.withCoverage (total : Matched) (completeCoverage : Bool) : Score where
  confidence := total.confidence
  matchedEvidence := total.matchedEvidence
  completeCoverage := completeCoverage

def RuleDefinition.hasCompleteCoverage (rule : RuleDefinition) (parsed : ParsedArtifacts) : Bool :=
  rule.signals.all fun signal => parsed.availability signal.source == .available

def evaluateRule (rule : RuleDefinition) (parsed : ParsedArtifacts) :
    Except DetectorError RuleEvaluation := do
  let total ← rule.signals.foldlM (addSignal parsed) ⟨0, []⟩
  let technologySlug ← ruleSlugOr .invalidTechnologySlug rule.technologySlug
  let technologyCategorySlug ← ruleSlugOr .invalidTechnologyCategorySlug
    rule.technologyCategorySlug
  let ruleSlug ← ruleSlugOr .invalidRuleSlug rule.ruleSlug
  let ruleVersion ← orError (RuleVersion.new rule.version) (.invalidDetection .invalidRuleVersion)
  let score := total.withCoverage (rule.hasCompleteCoverage parsed)
  let detection ← detectionFor technologySlug technologyCategorySlug ruleSlug ruleVersion
    rule.threshold score
  .ok {
    detection := detection
    observation := {
      technologySlug := technologySlug
      technologyCategorySlug := technologyCategorySlug
      ruleSlug := ruleSlug
      ruleVersion := ruleVersion
      status := observedStatus detection score }
    technologyVersion := none }

end Definitions

section Catalogue

def signalOf (source : ArtifactSource) (key : String) (matcher : SignalMatcher) (weight : Nat) :
    SignalDefinition := ⟨source, key.toList, matcher, weight⟩

def equalsSignal (source : ArtifactSource) (key expected : String) (weight : Nat) :
    SignalDefinition := signalOf source key (.equalsIgnoreCase expected.toList) weight

def containsSignal (source : ArtifactSource) (key expected : String) (weight : Nat) :
    SignalDefinition := signalOf source key (.containsIgnoreCase expected.toList) weight

def presentSignal (source : ArtifactSource) (key : String) (weight : Nat) : SignalDefinition :=
  signalOf source key .present weight

def nextjsSignals : List SignalDefinition := [
  containsSignal .header "x-powered-by" "next.js" 90,
  containsSignal .script "src" "/_next/" 75,
  equalsSignal .html "meta.generator" "next.js" 80]

def stripeSignals : List SignalDefinition := [containsSignal .script "src" "js.stripe.com" 95]

def cloudflareSignals : List SignalDefinition := [
  equalsSignal .header "server" "cloudflare" 90,
  presentSignal .header "cf-ray" 80]

def posthogSignals : List SignalDefinition := [containsSignal .script "src" "posthog.com" 90]

def shopifySignals : List SignalDefinition := [
  containsSignal .script "src" "cdn.shopify.com" 95,
  presentSignal .header "x-shopify-stage" 90]

def wordpressSignals : List SignalDefinition := [
  containsSignal .header "x-powered-by" "wordpress" 90]

def drupalSignals : List SignalDefinition := [
  containsSignal .header "x-generator" "drupal" 90,
  containsSignal .html "meta.generator" "drupal" 90]

def expressSignals : List SignalDefinition := [
  equalsSignal .header "x-powered-by" "express" 90]

def ruleOf (technology category rule : String) (signals : List SignalDefinition) :
    RuleDefinition where
  technologySlug := technology.toList
  technologyCategorySlug := category.toList
  ruleSlug := rule.toList
  version := 1
  threshold := detectionThreshold
  signals := signals

def initialRules : List RuleDefinition := [
  ruleOf "nextjs" "framework" "nextjs-v1" nextjsSignals,
  ruleOf "stripe" "payment-provider" "stripe-v1" stripeSignals,
  ruleOf "cloudflare" "hosting" "cloudflare-v1" cloudflareSignals,
  ruleOf "posthog" "analytics" "posthog-v1" posthogSignals,
  ruleOf "shopify" "ecommerce" "shopify-v1" shopifySignals,
  ruleOf "wordpress" "cms" "wordpress-v1" wordpressSignals,
  ruleOf "drupal" "cms" "drupal-v1" drupalSignals,
  ruleOf "express" "framework" "express-v1" expressSignals]

def evaluate (parsed : ParsedArtifacts) : Except DetectorError DetectionEvaluation := do
  let evaluations ← initialRules.mapM fun rule => evaluateRule rule parsed
  .ok {
    detections := (evaluations.filterMap RuleEvaluation.detection).insertionSort
      fun left right => left.technologySlug.1 ≤ right.technologySlug.1
    observations := evaluations.map RuleEvaluation.observation }

/-- What the published rules are checked for as well. -/
structure SignalDefinition.IsValid (signal : SignalDefinition) : Prop where
  key : trim signal.key ≠ []
  weight : 1 ≤ signal.weight ∧ signal.weight ≤ 100

instance (signal : SignalDefinition) : Decidable signal.IsValid :=
  decidable_of_iff (trim signal.key ≠ [] ∧ 1 ≤ signal.weight ∧ signal.weight ≤ 100)
    ⟨fun both => ⟨both.1, both.2⟩, fun valid => ⟨valid.key, valid.weight⟩⟩

structure RuleDefinition.IsValid (rule : RuleDefinition) : Prop where
  threshold : 1 ≤ rule.threshold ∧ rule.threshold ≤ 100
  present : rule.signals ≠ []
  signals : ∀ signal ∈ rule.signals, signal.IsValid

instance (rule : RuleDefinition) : Decidable rule.IsValid :=
  decidable_of_iff ((1 ≤ rule.threshold ∧ rule.threshold ≤ 100) ∧ rule.signals ≠ [] ∧
      ∀ signal ∈ rule.signals, signal.IsValid)
    ⟨fun all => ⟨all.1, all.2.1, all.2.2⟩,
      fun valid => ⟨valid.threshold, valid.present, valid.signals⟩⟩

theorem initialRules_valid : ∀ rule ∈ initialRules, rule.IsValid := by decide +kernel

end Catalogue

section Encoding

def SignalMatcher.name : SignalMatcher → Text
  | .equalsIgnoreCase _ => "equals_ignore_case".toList
  | .containsIgnoreCase _ => "contains_ignore_case".toList
  | .present => "present".toList

/-- The text a signal is compared with, where it is compared with one. -/
def SignalMatcher.expected : SignalMatcher → Option Text
  | .equalsIgnoreCase expected => some expected
  | .containsIgnoreCase expected => some expected
  | .present => none

/-- The fields that a reader of the JSON signal looks at say what the static
signal says. The order of the fields, and further ones, do not matter. -/
structure SignalDefinition.EncodedBy (signal : SignalDefinition) (fields : List (Text × Json)) :
    Prop where
  source : fields.lookup "source".toList = some (.string (sourceName signal.source))
  key : fields.lookup "key".toList = some (.string signal.key)
  matcher : fields.lookup "match".toList = some (.string signal.matcher.name)
  expected : ∀ expected, signal.matcher.expected = some expected →
    fields.lookup "value".toList = some (.string expected)
  weight : fields.lookup "weight".toList = some (.number (.posInt signal.weight))

/-- The definition gives the rule's threshold and signals, and no pattern for a
version. -/
structure RuleDefinition.EncodedBy (rule : RuleDefinition) (fields : List (Text × Json)) :
    Prop where
  threshold : fields.lookup "threshold".toList = some (.number (.posInt rule.threshold))
  signals : ∃ items, fields.lookup "signals".toList = some (.array (items.map Json.object)) ∧
    List.Forall₂ SignalDefinition.EncodedBy rule.signals items
  versionEvidence : fields.lookup "version_evidence".toList = none

/-- The published rule with the static rule's names and the given definition. -/
def RuleDefinition.published (rule : RuleDefinition) (fields : List (Text × Json)) :
    ActiveDetectionRule where
  technologySlug := rule.technologySlug
  technologyCategorySlug := rule.technologyCategorySlug
  ruleSlug := rule.ruleSlug
  version := rule.version
  definition := .object fields

def SignalDefinition.toFields (signal : SignalDefinition) : List (Text × Json) :=
  [("source".toList, .string (sourceName signal.source)), ("key".toList, .string signal.key),
    ("match".toList, .string signal.matcher.name),
    ("weight".toList, .number (.posInt signal.weight))] ++
    match signal.matcher.expected with
    | some expected => [("value".toList, .string expected)]
    | none => []

def RuleDefinition.toFields (rule : RuleDefinition) : List (Text × Json) :=
  [("threshold".toList, .number (.posInt rule.threshold)),
    ("signals".toList, .array (rule.signals.map fun signal => .object signal.toFields))]

theorem SignalDefinition.encodedBy_toFields (signal : SignalDefinition) :
    signal.EncodedBy signal.toFields := by
  rcases signal with ⟨source, key, matcher, weight⟩
  constructor
  · cases matcher <;> rfl
  · cases matcher <;> rfl
  · cases matcher <;> rfl
  · intro expected isExpected
    cases matcher with
    | equalsIgnoreCase text =>
        cases isExpected
        rfl
    | containsIgnoreCase text =>
        cases isExpected
        rfl
    | present => cases isExpected
  · cases matcher <;> rfl

theorem RuleDefinition.encodedBy_toFields (rule : RuleDefinition) :
    rule.EncodedBy rule.toFields := by
  refine ⟨rfl, ⟨rule.signals.map SignalDefinition.toFields, ?_, ?_⟩, rfl⟩
  · rw [List.map_map]
    rfl
  · rw [List.forall₂_map_right_iff, List.forall₂_same]
    intro signal _
    exact signal.encodedBy_toFields

end Encoding

section Agreement

variable {regexes : RegexCrate} {parsed : ParsedArtifacts}

theorem parseSource_sourceName (source : ArtifactSource) :
    parseSource (some (sourceName source)) = .ok source := by
  cases source <;> rfl

theorem strField_of_lookup {fields : List (Text × Json)} {name : String} {value : Text}
    (found : fields.lookup name.toList = some (.string value)) :
    strField fields name = some value := by
  rw [strField, found]
  rfl

theorem positiveField_of_lookup {fields : List (Text × Json)} {name : String} {value : Nat}
    (found : fields.lookup name.toList = some (.number (.posInt value)))
    (bounds : 1 ≤ value ∧ value ≤ 100) : positiveField fields name = some value := by
  have fits : (value < 256 && 0 < value) = true := by
    simp only [Bool.and_eq_true, decide_eq_true_eq]
    omega
  rw [positiveField, found]
  simp only [Option.bind_some, Json.asU64, Option.filter_some, fits, ↓reduceIte]

/-- Both evaluators take the same evidence for a signal. -/
theorem SignalDefinition.EncodedBy.accepts {signal : SignalDefinition}
    {fields : List (Text × Json)} (encoded : signal.EncodedBy fields)
    (item : NormalizedEvidence) :
    (item.source == signal.source && eqIgnoreAsciiCase item.key signal.key &&
      matchesDynamic item.value signal.matcher.name (strField fields "value")) =
        signal.accepts item := by
  have value := encoded.expected
  unfold SignalDefinition.accepts
  congr 1
  cases kind : signal.matcher with
  | equalsIgnoreCase expected =>
      rw [kind] at value
      rw [strField_of_lookup (value expected rfl)]
      rfl
  | containsIgnoreCase expected =>
      rw [kind] at value
      rw [strField_of_lookup (value expected rfl)]
      rfl
  | present => rfl

/-- A signal adds the same to both scores, or stops both with the same error. -/
theorem SignalDefinition.EncodedBy.scoreSignal {signal : SignalDefinition}
    {fields : List (Text × Json)} (encoded : signal.EncodedBy fields) (valid : signal.IsValid)
    (parsed : ParsedArtifacts) (total : Matched) (covered : Bool) :
    scoreSignal parsed (total.withCoverage covered) (.object fields) =
      (addSignal parsed total signal).map fun total => total.withCoverage
        (covered && (parsed.availability signal.source == .available)) := by
  have source := strField_of_lookup encoded.source
  have key := strField_of_lookup encoded.key
  have matcher := strField_of_lookup encoded.matcher
  have weight := positiveField_of_lookup encoded.weight valid.weight
  have present : (!(trim signal.key).isEmpty) = true := by
    simp [valid.key]
  have evidence : (parsed.evidence.filter fun item => item.source == signal.source &&
      eqIgnoreAsciiCase item.key signal.key &&
        matchesDynamic item.value signal.matcher.name (strField fields "value")) =
      parsed.evidence.filter signal.accepts :=
    congrArg (List.filter · parsed.evidence) (funext encoded.accepts)
  unfold Detector.scoreSignal addSignal
  simp only [Json.asObject, orError, source, key, matcher, weight, parseSource_sourceName,
    Option.filter_some, present, ↓reduceIte, bind, Except.bind, evidence]
  cases matched : parsed.evidence.filter signal.accepts with
  | nil => simp [Matched.withCoverage, Except.map, pure, Except.pure]
  | cons first rest =>
      simp only [List.isEmpty_cons, Bool.false_eq_true, ↓reduceIte]
      cases built : (first :: rest).mapM toDetectionEvidence with
      | error reason => rfl
      | ok evidence => rfl

/-- The loops over the signals agree: by induction on the signals, with what the
first ones added. -/
theorem foldlM_scoreSignal {signals : List SignalDefinition} {items : List (List (Text × Json))}
    (encoded : List.Forall₂ SignalDefinition.EncodedBy signals items)
    (valid : ∀ signal ∈ signals, signal.IsValid) (total : Matched) (covered : Bool) :
    (items.map Json.object).foldlM (scoreSignal parsed) (total.withCoverage covered) =
      (signals.foldlM (addSignal parsed) total).map fun total => total.withCoverage
        (covered && signals.all fun signal => parsed.availability signal.source == .available) := by
  induction encoded generalizing total covered with
  | nil => simp [Except.map, pure, Except.pure]
  | @cons signal fields signals items own _ ih =>
      have first := own.scoreSignal (valid signal List.mem_cons_self) parsed total covered
      rw [List.map_cons, List.foldlM_cons, List.foldlM_cons, first]
      cases added : addSignal parsed total signal with
      | error reason => rfl
      | ok after =>
          have later := ih (fun signal member => valid signal (List.mem_cons_of_mem _ member))
            after (covered && (parsed.availability signal.source == .available))
          rw [List.all_cons, ← Bool.and_assoc]
          exact later

/-- The evaluator of the static rules and the evaluator of the published ones
agree on a rule that both can read, in the errors as in the results. -/
theorem evaluateRule_eq_evaluateActiveRule {rule : RuleDefinition} (valid : rule.IsValid)
    {fields : List (Text × Json)} (encoded : rule.EncodedBy fields) (regexes : RegexCrate)
    (parsed : ParsedArtifacts) :
    evaluateRule rule parsed = evaluateActiveRule regexes (rule.published fields) parsed := by
  obtain ⟨items, signals, each⟩ := encoded.signals
  have threshold := positiveField_of_lookup encoded.threshold valid.threshold
  have nonempty : items ≠ [] := by
    intro isEmpty
    rw [isEmpty, List.forall₂_nil_right_iff] at each
    exact valid.present each
  have present : ((fields.lookup "signals".toList).bind Json.asArray).filter
      (fun signals => !signals.isEmpty) = some (items.map Json.object) := by
    rw [signals, Option.bind_some, Json.asArray, Option.filter_some]
    simp [nonempty]
  have scored : (items.map Json.object).foldlM (scoreSignal parsed) initialScore =
      (rule.signals.foldlM (addSignal parsed) ⟨0, []⟩).map fun total =>
        total.withCoverage (rule.hasCompleteCoverage parsed) :=
    foldlM_scoreSignal each valid.signals ⟨0, []⟩ true
  have noVersion : ∀ detection, detectedVersion regexes fields parsed detection = .ok none := by
    intro detection
    cases detection with
    | none => rfl
    | some detection =>
        change extractDynamicVersion regexes fields parsed = .ok none
        rw [extractDynamicVersion, encoded.versionEvidence]
  unfold evaluateRule evaluateActiveRule RuleDefinition.published
  simp only [Json.asObject, threshold, present, scored, noVersion, orError, bind, Except.bind]
  cases rule.signals.foldlM (addSignal parsed) ⟨0, []⟩ with
  | error reason => rfl
  | ok total => rfl

def cloudflareRule : RuleDefinition := ruleOf "cloudflare" "hosting" "cloudflare-v1" cloudflareSignals

def cloudflarePage : ParsedArtifacts := pageWith [⟨.header, "cf-ray".toList, "8a1b-FRA".toList⟩]

theorem evaluateRule_eq_evaluateActiveRule_cloudflare :
    evaluateRule cloudflareRule cloudflarePage = evaluateActiveRule noRegex
      (cloudflareRule.published cloudflareRule.toFields) cloudflarePage ∧
    ∃ evaluation, evaluateRule cloudflareRule cloudflarePage = .ok evaluation ∧
      evaluation.observation.status = .detected ∧
      evaluation.detection.map (fun detection => detection.confidence.1) = some 80 :=
  ⟨evaluateRule_eq_evaluateActiveRule (by decide) cloudflareRule.encodedBy_toFields noRegex
    cloudflarePage, _, rfl, rfl, rfl⟩

/-- The catalogue can be published as it stands: the evaluation of the published
rules is the one of the static rules. -/
theorem evaluate_eq_evaluateActive (regexes : RegexCrate) (parsed : ParsedArtifacts) :
    evaluate parsed = evaluateActive regexes parsed
      (initialRules.map fun rule => rule.published rule.toFields) := by
  have each : initialRules.mapM (fun rule => evaluateRule rule parsed) =
      (initialRules.map fun rule => rule.published rule.toFields).mapM
        fun rule => evaluateActiveRule regexes rule parsed := by
    rw [List.mapM_map]
    apply mapM_congr
    intro rule member
    exact evaluateRule_eq_evaluateActiveRule (initialRules_valid rule member)
      rule.encodedBy_toFields regexes parsed
  unfold evaluate evaluateActive
  rw [each]

end Agreement

end TechAtlas.Detector
