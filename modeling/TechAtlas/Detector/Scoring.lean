import TechAtlas.Detector.Agreement

set_option autoImplicit false

/- What a rule's score is: the capped sum of the weights of the signals that
found evidence, and the evidence they found. -/
namespace TechAtlas.Detector

open Library TechAtlas.Parser

section Signals

/-- The item is one that scoring the signal turns into recorded evidence. -/
def signalAccepts (signal : Json) (item : NormalizedEvidence) : Bool :=
  signal.asObject.any fun fields =>
    (parseSource (strField fields "source")).toOption == some item.source &&
      eqIgnoreAsciiCase item.key ((strField fields "key").getD []) &&
      matchesDynamic item.value ((strField fields "match").getD []) (strField fields "value")

def signalMatched (parsed : ParsedArtifacts) (signal : Json) : Bool :=
  parsed.evidence.any (signalAccepts signal)

def signalWeight (signal : Json) : Nat :=
  (signal.asObject.bind fun fields => positiveField fields "weight").getD 0

def matchedWeight (parsed : ParsedArtifacts) (signals : List Json) : Nat :=
  ((signals.filter (signalMatched parsed)).map signalWeight).sum

def signalAvailable (parsed : ParsedArtifacts) (signal : Json) : Bool :=
  (signalSource signal).any fun source => parsed.availability source == .available

theorem signalAccepts_eq {signal : Json} {fields : List (Text × Json)} {parts : SignalParts}
    (isObject : signal.asObject = some fields) (own : parts.Of fields) (item : NormalizedEvidence) :
    signalAccepts signal item = parts.accepts item := by
  have key := (Option.filter_eq_some_iff.mp own.key).1
  have source : (parts.source == item.source) = (item.source == parts.source) := by
    by_cases same : item.source = parts.source
    · rw [same]
    · rw [beq_eq_false_iff_ne.mpr same, beq_eq_false_iff_ne.mpr (Ne.symm same)]
  rw [signalAccepts, isObject, Option.any_some, own.source, key, own.matcher, own.expected]
  simp only [Except.toOption, Option.getD_some, SignalParts.accepts, Option.some_beq_some, source]

theorem signalMatched_eq {signal : Json} {fields : List (Text × Json)} {parts : SignalParts}
    (isObject : signal.asObject = some fields) (own : parts.Of fields) (parsed : ParsedArtifacts) :
    signalMatched parsed signal = !(parsed.evidence.filter parts.accepts).isEmpty := by
  have same : signalAccepts signal = parts.accepts :=
    funext fun item => signalAccepts_eq isObject own item
  rw [signalMatched, same]
  cases found : parsed.evidence.any parts.accepts with
  | false =>
      have none : parsed.evidence.filter parts.accepts = [] := by
        rw [List.filter_eq_nil_iff]
        rw [List.any_eq_false] at found
        exact found
      rw [none]
      rfl
  | true =>
      obtain ⟨item, member, accepted⟩ := List.any_eq_true.mp found
      have some : parsed.evidence.filter parts.accepts ≠ [] :=
        List.ne_nil_of_mem (List.mem_filter.mpr ⟨member, accepted⟩)
      cases kept : parsed.evidence.filter parts.accepts with
      | nil => exact absurd kept some
      | cons _ _ => rfl

theorem signalWeight_eq {signal : Json} {fields : List (Text × Json)} {parts : SignalParts}
    (isObject : signal.asObject = some fields) (own : parts.Of fields) :
    signalWeight signal = parts.weight := by
  rw [signalWeight, isObject, Option.bind_some, own.weight, Option.getD_some]

theorem signalAvailable_eq {signal : Json} {fields : List (Text × Json)} {parts : SignalParts}
    (isObject : signal.asObject = some fields) (own : parts.Of fields) (parsed : ParsedArtifacts) :
    signalAvailable parsed signal = (parsed.availability parts.source == .available) := by
  rw [signalAvailable, signalSource, isObject, Option.bind_some, own.source]
  rfl

theorem matchedWeight_cons (parsed : ParsedArtifacts) (signal : Json) (rest : List Json) :
    matchedWeight parsed (signal :: rest) =
      (if signalMatched parsed signal then signalWeight signal else 0) +
        matchedWeight parsed rest := by
  by_cases matched : signalMatched parsed signal = true
  · rw [if_pos matched, matchedWeight, List.filter_cons_of_pos matched]
    rfl
  · rw [if_neg matched, matchedWeight, List.filter_cons_of_neg matched, Nat.zero_add]
    rfl

theorem matchedWeight_perm (parsed : ParsedArtifacts) {left right : List Json}
    (permuted : left.Perm right) : matchedWeight parsed left = matchedWeight parsed right :=
  ((permuted.filter _).map _).sum_eq

theorem matchedWeight_mono {few many : ParsedArtifacts}
    (kept : ∀ item ∈ few.evidence, item ∈ many.evidence) (signals : List Json) :
    matchedWeight few signals ≤ matchedWeight many signals := by
  induction signals with
  | nil => exact Nat.le_refl 0
  | cons signal rest ih =>
      rw [matchedWeight_cons, matchedWeight_cons]
      have own : signalMatched few signal = true → signalMatched many signal = true := by
        intro matched
        obtain ⟨item, member, accepted⟩ := List.any_eq_true.mp matched
        exact List.any_eq_true.mpr ⟨item, kept item member, accepted⟩
      by_cases matched : signalMatched few signal = true
      · rw [if_pos matched, if_pos (own matched)]
        omega
      · rw [if_neg matched]
        omega

end Signals

section Scores

variable {parsed : ParsedArtifacts}

/-- The evidence recorded for the items that one of the signals accepts. -/
def IsEvidenceOf (parsed : ParsedArtifacts) (signals : List Json) (evidence : DetectionEvidence) :
    Prop :=
  ∃ item ∈ parsed.evidence, (∃ signal ∈ signals, signalAccepts signal item = true) ∧
    toDetectionEvidence item = .ok evidence

/-- What scoring the signals makes of a score. -/
structure Score.After (before : Score) (parsed : ParsedArtifacts) (signals : List Json)
    (after : Score) : Prop where
  confidence : after.confidence = min 100 (before.confidence + matchedWeight parsed signals)
  evidence : ∀ evidence, evidence ∈ after.matchedEvidence ↔
    evidence ∈ before.matchedEvidence ∨ IsEvidenceOf parsed signals evidence
  coverage : after.completeCoverage =
    (before.completeCoverage && signals.all (signalAvailable parsed))

theorem isEvidenceOf_cons {signal : Json} {rest : List Json} {evidence : DetectionEvidence} :
    IsEvidenceOf parsed (signal :: rest) evidence ↔
      IsEvidenceOf parsed [signal] evidence ∨ IsEvidenceOf parsed rest evidence := by
  constructor
  · rintro ⟨item, present, ⟨other, member, accepted⟩, recorded⟩
    rcases List.mem_cons.mp member with rfl | inRest
    · exact Or.inl ⟨item, present, ⟨other, List.mem_singleton_self other, accepted⟩, recorded⟩
    · exact Or.inr ⟨item, present, ⟨other, inRest, accepted⟩, recorded⟩
  · rintro (⟨item, present, ⟨other, member, accepted⟩, recorded⟩ |
      ⟨item, present, ⟨other, member, accepted⟩, recorded⟩)
    · rw [List.mem_singleton.mp member] at accepted
      exact ⟨item, present, ⟨signal, List.mem_cons_self, accepted⟩, recorded⟩
    · exact ⟨item, present, ⟨other, List.mem_cons_of_mem signal member, accepted⟩, recorded⟩

theorem scoreSignal_after {before after : Score} {signal : Json}
    (bounded : before.confidence ≤ 100)
    (success : scoreSignal parsed before signal = .ok after) :
    before.After parsed [signal] after := by
  obtain ⟨fields, isObject, parts, own, evidence, built, rfl⟩ := scoreSignal_iff.mp success
  constructor
  · rw [matchedWeight_cons, signalMatched_eq isObject own, signalWeight_eq isObject own]
    dsimp only [SignalParts.scored]
    have rest : matchedWeight parsed [] = 0 := rfl
    rw [rest]
    by_cases none : (parsed.evidence.filter parts.accepts).isEmpty = true
    · rw [if_pos none, none]
      simp only [Bool.not_true, Bool.false_eq_true, ↓reduceIte]
      omega
    · rw [if_neg none, Bool.eq_false_of_not_eq_true none]
      simp only [Bool.not_false, ↓reduceIte, addWeight]
      omega
  · intro item
    dsimp only [SignalParts.scored]
    rw [List.mem_append]
    apply or_congr_right
    constructor
    · intro member
      obtain ⟨source, inMatched, recorded⟩ := mem_of_mapM_eq_ok built member
      obtain ⟨present, accepted⟩ := List.mem_filter.mp inMatched
      rw [← signalAccepts_eq isObject own] at accepted
      exact ⟨source, present, ⟨signal, List.mem_singleton_self signal, accepted⟩, recorded⟩
    · rintro ⟨source, present, ⟨other, member, accepted⟩, recorded⟩
      rw [List.mem_singleton.mp member, signalAccepts_eq isObject own] at accepted
      obtain ⟨result, inEvidence, same⟩ :=
        ok_of_mem_of_mapM built (List.mem_filter.mpr ⟨present, accepted⟩)
      rw [recorded] at same
      rw [Except.ok.inj same]
      exact inEvidence
  · dsimp only [SignalParts.scored]
    rw [List.all_cons, List.all_nil, Bool.and_true, signalAvailable_eq isObject own]

/-- The induction over the signals: the cap is kept at every step, so capping
once at the end gives the same confidence. -/
theorem foldlM_after {signals : List Json} {before after : Score}
    (bounded : before.confidence ≤ 100)
    (success : signals.foldlM (scoreSignal parsed) before = .ok after) :
    before.After parsed signals after := by
  induction signals generalizing before with
  | nil =>
      cases success
      refine ⟨?_, ?_, ?_⟩
      · have none : matchedWeight parsed [] = 0 := rfl
        rw [none]
        omega
      · intro evidence
        constructor
        · exact Or.inl
        · rintro (member | ⟨_, _, ⟨_, member, _⟩, _⟩)
          · exact member
          · cases member
      · rw [List.all_nil, Bool.and_true]
  | cons signal rest ih =>
      rw [List.foldlM_cons, bind_eq_ok] at success
      obtain ⟨mid, first, later⟩ := success
      have own := scoreSignal_after bounded first
      have capped : mid.confidence ≤ 100 := by
        rw [own.confidence]
        exact Nat.min_le_left _ _
      have others := ih capped later
      have split := matchedWeight_cons parsed signal []
      have none : matchedWeight parsed [] = 0 := rfl
      constructor
      · rw [others.confidence, own.confidence, matchedWeight_cons parsed signal rest, split, none]
        omega
      · intro evidence
        rw [others.evidence, own.evidence, @isEvidenceOf_cons parsed signal rest, or_assoc]
      · rw [others.coverage, own.coverage]
        simp only [List.all_cons, List.all_nil, Bool.and_true, Bool.and_assoc]

/-- Whether a signal can be scored does not depend on the score so far. -/
theorem scoreSignal_succeeds {before after : Score} {signal : Json}
    (success : scoreSignal parsed before signal = .ok after) (other : Score) :
    ∃ result, scoreSignal parsed other signal = .ok result := by
  obtain ⟨fields, isObject, parts, own, evidence, built, _⟩ := scoreSignal_iff.mp success
  exact ⟨_, scoreSignal_iff.mpr ⟨fields, isObject, parts, own, evidence, built, rfl⟩⟩

theorem foldlM_perm {left right : List Json} (permuted : left.Perm right) {before after : Score}
    (success : left.foldlM (scoreSignal parsed) before = .ok after) :
    ∃ result, right.foldlM (scoreSignal parsed) before = .ok result := by
  have step : ∀ signal ∈ right, ∀ score, True →
      ∃ result, scoreSignal parsed score signal = .ok result ∧ True := by
    intro signal member score _
    obtain ⟨old, new, own⟩ := ok_of_mem_of_foldlM success (permuted.mem_iff.mpr member)
    obtain ⟨result, scored⟩ := scoreSignal_succeeds own score
    exact ⟨result, scored, trivial⟩
  have all : ∃ result, right.foldlM (scoreSignal parsed) before = .ok result ∧ True :=
    foldlM_ok_of_forall step trivial
  obtain ⟨result, scored, _⟩ := all
  exact ⟨result, scored⟩

end Scores

section Evaluation

variable {regexes : RegexCrate} {rule : ActiveDetectionRule} {parsed : ParsedArtifacts}

def ActiveDetectionRule.threshold (rule : ActiveDetectionRule) : Nat :=
  (rule.definition.asObject.bind fun fields => positiveField fields "threshold").getD 0

/-- The score that the loop over the rule's signals ends with. -/
def ActiveDetectionRule.score (rule : ActiveDetectionRule) (parsed : ParsedArtifacts) :
    Except DetectorError Score :=
  rule.signals.foldlM (scoreSignal parsed) initialScore

theorem RuleParts.Of.threshold_eq {parts : RuleParts} (own : parts.Of rule) :
    rule.threshold = parts.threshold := by
  rw [ActiveDetectionRule.threshold, own.definition, Option.bind_some, own.threshold,
    Option.getD_some]

/-- A detection that was built holds the score it was built from. -/
structure Detection.Reports (detection : Detection) (score : Score) : Prop where
  confidence : detection.confidence.1 = score.confidence
  sorted : detection.evidence.Pairwise fun left right => left.le right = true
  distinct : detection.evidence.Nodup
  evidence : ∀ item, item ∈ detection.evidence ↔ item ∈ score.matchedEvidence

theorem detectionFor_reports {technologySlug : TechnologySlug}
    {technologyCategorySlug : TechnologyCategorySlug} {ruleSlug : RuleSlug}
    {ruleVersion : RuleVersion} {threshold : Nat} {score : Score} {detection : Detection}
    (success : detectionFor technologySlug technologyCategorySlug ruleSlug ruleVersion threshold
      score = .ok (some detection)) : Detection.Reports detection score := by
  unfold detectionFor at success
  split at success
  · obtain ⟨confidence, confident, success⟩ := bind_eq_ok.mp success
    obtain ⟨built, new, success⟩ := bind_eq_ok.mp success
    have same := Option.some.inj (Except.ok.inj success)
    rw [mapError_eq_ok] at new
    unfold Detection.new at new
    dsimp only at new
    split at new
    · cases new
    · rw [← same, ← Except.ok.inj new]
      refine ⟨?_, ?_, nodup_destutter_insertionSort _, fun item => mem_destutter_insertionSort⟩
      · have kept := orError_eq_ok.mp confident
        unfold DetectionConfidence.new at kept
        split at kept
        · exact congrArg Subtype.val (Option.some.inj kept).symm
        · cases kept
      · exact (List.pairwise_insertionSort _ _).sublist (List.destutter_sublist _ _)
  · cases success

/-- There is a detection exactly where the score reaches the threshold. -/
theorem detectionFor_isSome {technologySlug : TechnologySlug}
    {technologyCategorySlug : TechnologyCategorySlug} {ruleSlug : RuleSlug}
    {ruleVersion : RuleVersion} {threshold : Nat} {score : Score} {detection : Option Detection}
    (success : detectionFor technologySlug technologyCategorySlug ruleSlug ruleVersion threshold
      score = .ok detection) : detection.isSome = true ↔ threshold ≤ score.confidence := by
  constructor
  · intro present
    obtain ⟨found, rfl⟩ := Option.isSome_iff_exists.mp present
    exact (detectionFor_detected success).1
  · intro reached
    unfold detectionFor at success
    rw [if_pos reached] at success
    obtain ⟨confidence, _, success⟩ := bind_eq_ok.mp success
    obtain ⟨built, _, success⟩ := bind_eq_ok.mp success
    rw [← Except.ok.inj success]
    rfl

/-- What an evaluation says of the rule, in terms of the signals that matched. -/
structure RuleEvaluation.Sound (evaluation : RuleEvaluation) (rule : ActiveDetectionRule)
    (parsed : ParsedArtifacts) (score : Score) : Prop where
  confidence : score.confidence = min 100 (matchedWeight parsed rule.signals)
  ordered : ∀ signals : List Json, signals.Perm rule.signals →
    ∃ other, signals.foldlM (scoreSignal parsed) initialScore = .ok other ∧
      other.confidence = score.confidence
  detected : evaluation.observation.status = .detected ↔ rule.threshold ≤ score.confidence
  detection : evaluation.detection.isSome = true ↔ rule.threshold ≤ score.confidence
  reported : ∀ detection, evaluation.detection = some detection →
    detection.confidence.1 = score.confidence ∧
      detection.evidence.Pairwise (fun left right => left.le right = true) ∧
      detection.evidence.Nodup ∧
      ∀ evidence, evidence ∈ detection.evidence ↔ IsEvidenceOf parsed rule.signals evidence
  absent : evaluation.observation.status = .confirmedAbsent ↔
    (∀ signal ∈ rule.signals, signalMatched parsed signal = false) ∧
      ∀ signal ∈ rule.signals, signalAvailable parsed signal = true

/-- No evidence was recorded exactly where no signal matched: every item that
matched was recorded, or the evaluation had failed. -/
theorem matchedEvidence_eq_nil_iff {signals : List Json} {score : Score}
    (success : signals.foldlM (scoreSignal parsed) initialScore = .ok score) :
    score.matchedEvidence = [] ↔ ∀ signal ∈ signals, signalMatched parsed signal = false := by
  have after := foldlM_after (by decide) success
  constructor
  · intro none signal member
    rw [signalMatched, List.any_eq_false]
    intro item present accepted
    obtain ⟨old, new, step⟩ := ok_of_mem_of_foldlM success member
    obtain ⟨fields, isObject, parts, own, evidence, built, _⟩ := scoreSignal_iff.mp step
    have matched := accepted
    rw [signalAccepts_eq isObject own] at matched
    obtain ⟨result, _, recorded⟩ := ok_of_mem_of_mapM built (List.mem_filter.mpr ⟨present, matched⟩)
    have inScore := (after.evidence result).mpr
      (Or.inr ⟨item, present, ⟨signal, member, accepted⟩, recorded⟩)
    rw [none] at inScore
    cases inScore
  · intro unmatched
    apply List.eq_nil_iff_forall_not_mem.mpr
    intro evidence member
    rcases (after.evidence evidence).mp member with old | ⟨item, present, found, _⟩
    · cases old
    · obtain ⟨signal, inSignals, accepted⟩ := found
      have none := List.any_eq_false.mp (unmatched signal inSignals) item present
      exact none accepted

theorem evaluateActiveRule_sound {evaluation : RuleEvaluation}
    (success : evaluateActiveRule regexes rule parsed = .ok evaluation) :
    ∃ score, rule.score parsed = .ok score ∧ evaluation.Sound rule parsed score := by
  obtain ⟨parts, own, score, scored, detection, built, version, _, rfl⟩ :=
    evaluateActiveRule_iff.mp success
  have after := foldlM_after (by decide) scored
  have start : initialScore.confidence = 0 := rfl
  have confidence : score.confidence = min 100 (matchedWeight parsed parts.signals) := by
    rw [after.confidence, start, Nat.zero_add]
  have reached := detectionFor_isSome built
  refine ⟨score, ?_, ?_⟩
  · rw [ActiveDetectionRule.score, own.signals_eq]
    exact scored
  constructor
  · rw [own.signals_eq]
    exact confidence
  · rw [own.signals_eq]
    intro signals permuted
    obtain ⟨other, result⟩ := foldlM_perm permuted.symm scored
    refine ⟨other, result, ?_⟩
    have others := (foldlM_after (by decide) result).confidence
    rw [others, start, Nat.zero_add, matchedWeight_perm parsed permuted, confidence]
  · rw [own.threshold_eq, ← reached]
    dsimp only [RuleParts.evaluation, observedStatus]
    by_cases present : detection.isSome = true
    · rw [if_pos present]
      exact iff_of_true rfl present
    · rw [if_neg present]
      split
      · exact iff_of_false (by decide) present
      · exact iff_of_false (by decide) present
  · rw [own.threshold_eq]
    exact reached
  · intro found same
    have isDetection : detection = some found := same
    subst isDetection
    have reports := detectionFor_reports built
    refine ⟨reports.confidence, reports.sorted, reports.distinct, ?_⟩
    intro evidence
    rw [reports.evidence, after.evidence, own.signals_eq]
    constructor
    · rintro (none | recorded)
      · cases none
      · exact recorded
    · exact Or.inr
  · rw [own.signals_eq, ← matchedEvidence_eq_nil_iff scored]
    have coverage : score.completeCoverage = parts.signals.all (signalAvailable parsed) := by
      rw [after.coverage]
      exact Bool.true_and _
    dsimp only [RuleParts.evaluation, observedStatus]
    by_cases present : detection.isSome = true
    · rw [if_pos present]
      obtain ⟨found, rfl⟩ := Option.isSome_iff_exists.mp present
      have matched := (detectionFor_detected built).2
      constructor
      · intro contradiction
        cases contradiction
      · rintro ⟨none, _⟩
        exact absurd none matched
    · rw [if_neg present, coverage]
      rw [← List.isEmpty_iff, ← List.all_eq_true, ← Bool.and_eq_true]
      split
      · rename_i covered
        exact iff_of_true rfl covered
      · rename_i covered
        exact iff_of_false (by decide) covered

/-- More evidence never lowers the confidence, so it never loses a detection. -/
theorem evaluateActiveRule_grows {more : ParsedArtifacts} {score grown : Score}
    {evaluation other : RuleEvaluation} (sound : evaluation.Sound rule parsed score)
    (others : other.Sound rule more grown) (kept : ∀ item ∈ parsed.evidence, item ∈ more.evidence) :
    score.confidence ≤ grown.confidence ∧
      (evaluation.observation.status = .detected → other.observation.status = .detected) := by
  have weight := matchedWeight_mono kept rule.signals
  have below : score.confidence ≤ grown.confidence := by
    rw [sound.confidence, others.confidence]
    omega
  refine ⟨below, ?_⟩
  intro detected
  exact others.detected.mpr (le_trans (sound.detected.mp detected) below)

/-- A successful evaluation is the one the weights and the threshold of the rule
ask for, and another successful one on more evidence does not fall below it. -/
theorem evaluateActiveRule_scoring {evaluation : RuleEvaluation}
    (success : evaluateActiveRule regexes rule parsed = .ok evaluation) :
    ∃ score, rule.score parsed = .ok score ∧ evaluation.Sound rule parsed score ∧
      ∀ (more : ParsedArtifacts) (other : RuleEvaluation),
        (∀ item ∈ parsed.evidence, item ∈ more.evidence) →
        evaluateActiveRule regexes rule more = .ok other →
        ∃ grown, rule.score more = .ok grown ∧ score.confidence ≤ grown.confidence ∧
          (evaluation.observation.status = .detected → other.observation.status = .detected) := by
  obtain ⟨score, scored, sound⟩ := evaluateActiveRule_sound success
  refine ⟨score, scored, sound, ?_⟩
  intro more other kept succeeds
  obtain ⟨grown, regrown, others⟩ := evaluateActiveRule_sound succeeds
  exact ⟨grown, regrown, evaluateActiveRule_grows sound others kept⟩

def wordpressSignal (source key matcher : String) (weight : Nat) : Json :=
  .object [("source".toList, .string source.toList), ("key".toList, .string key.toList),
    ("match".toList, .string matcher.toList), ("value".toList, .string "wordpress".toList),
    ("weight".toList, .number (.posInt weight))]

def wordpressRule : ActiveDetectionRule where
  technologySlug := "wordpress".toList
  technologyCategorySlug := "cms".toList
  ruleSlug := "wordpress-generator".toList
  version := 1
  definition := .object [("threshold".toList, .number (.posInt 60)),
    ("signals".toList, .array [
      wordpressSignal "html" "meta.generator" "contains_ignore_case" 50,
      wordpressSignal "header" "x-powered-by" "equals_ignore_case" 70])]

def generatorItem : NormalizedEvidence := ⟨.html, "meta.generator".toList, "WordPress 6.5".toList⟩

def poweredByItem : NormalizedEvidence := ⟨.header, "x-powered-by".toList, "WordPress".toList⟩

def pageWith (evidence : List NormalizedEvidence) : ParsedArtifacts where
  evidence := evidence
  availabilityOf := [(.html, .available), (.header, .available)]

def noRegex : RegexCrate where
  compile _ := none

theorem evaluateActiveRule_scoring_wordpress : ∃ evaluation other,
    evaluateActiveRule noRegex wordpressRule (pageWith [generatorItem]) = .ok evaluation ∧
    evaluateActiveRule noRegex wordpressRule (pageWith [generatorItem, poweredByItem]) =
      .ok other ∧
    ∃ score grown, evaluation.Sound wordpressRule (pageWith [generatorItem]) score ∧
      wordpressRule.score (pageWith [generatorItem, poweredByItem]) = .ok grown ∧
      score.confidence = 50 ∧ grown.confidence = 100 ∧ score.confidence ≤ grown.confidence := by
  have first : ∃ evaluation,
      evaluateActiveRule noRegex wordpressRule (pageWith [generatorItem]) = .ok evaluation :=
    ⟨_, rfl⟩
  have second : ∃ other, evaluateActiveRule noRegex wordpressRule
      (pageWith [generatorItem, poweredByItem]) = .ok other := ⟨_, rfl⟩
  obtain ⟨evaluation, succeeds⟩ := first
  obtain ⟨other, succeeds'⟩ := second
  obtain ⟨score, scored, sound, grows⟩ := evaluateActiveRule_scoring succeeds
  obtain ⟨grown, regrown, below, _⟩ := grows _ other (by decide) succeeds'
  refine ⟨evaluation, other, succeeds, succeeds', score, grown, sound, regrown, ?_, ?_, below⟩
  · rw [sound.confidence]
    decide
  · obtain ⟨same, again, others⟩ := evaluateActiveRule_sound succeeds'
    rw [regrown] at again
    rw [Except.ok.inj again, others.confidence]
    decide

end Evaluation

end TechAtlas.Detector
