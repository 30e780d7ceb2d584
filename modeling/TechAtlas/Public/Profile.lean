import TechAtlas.Library.OrderBy
import TechAtlas.Technologies.Sources
import TechAtlas.Store.SearchIndex
import TechAtlas.Public.Timeline

set_option autoImplicit false

/- The public profile of a domain: its technologies, each with the detection that its
row points to and the evidence of that detection. The repository reads them with
separate statements. -/
namespace TechAtlas

open Library

def DetectionEvidenceSource.asStr : DetectionEvidenceSource → Text
  | .html => "html".toList
  | .header => "header".toList
  | .script => "script".toList
  | .dns => "dns".toList
  | .tls => "tls".toList

namespace Public

open Store Detector Technologies

section Rows

structure PublicEvidence where
  source : Text
  key : Text
  value : Text
  deriving DecidableEq

structure PublicTechnology where
  slug : Text
  displayName : Text
  categorySlug : Text
  categoryName : Text
  confidence : Nat
  method : Text
  ruleVersion : Nat
  firstObservedAt : Time
  lastObservedAt : Time
  evidence : List PublicEvidence
  deriving DecidableEq

structure PublicDomainProfile where
  canonicalDomain : Text
  firstIndexedAt : Time
  lastCrawledAt : Option Time
  countryCode : Option Text
  technologies : List PublicTechnology
  deriving DecidableEq

/-- A row of the technology query. -/
structure ProfileRow where
  current : CurrentRow
  technology : TechnologyRow
  category : CategoryRow
  detection : DetectionRow
  ruleVersion : RuleVersionRow

def profileRow (db : Database) (row : CurrentRow) : Option ProfileRow := do
  let technology ← db.catalogue.technologies.find? fun technology =>
    technology.id == row.technologyId
  let category ← db.catalogue.joinCategory technology
  let detection ← db.history.detections.find? fun detection =>
    detection.id == row.currentDetectionId
  let ruleVersion ← db.catalogue.ruleVersions.find? fun ruleVersion =>
    ruleVersion.id == detection.ruleVersionId
  some ⟨row, technology, category, detection, ruleVersion⟩

/-- The two columns that the rows are ordered by. -/
def ProfileRow.slugs (row : ProfileRow) : Text × Text := (row.category.slug, row.technology.slug)

/-- `ORDER BY technology_categories.slug, technologies.slug`. -/
def slugsBefore (collation : Collation) : Text × Text → Text × Text → Bool :=
  thenBy (fun left right => collation.le left.1 right.1)
    fun left right => collation.le left.2 right.2

def profileRows (collation : Collation) (db : Database) (domainId : Uuid) : List ProfileRow :=
  ((db.history.current.filter fun row => row.domainId == domainId).filterMap
    (profileRow db)).insertionSort fun left right => slugsBefore collation left.slugs right.slugs

def publicEvidence (item : DetectionEvidence) : PublicEvidence where
  source := item.source.asStr
  key := item.key
  value := item.value

/-- `ORDER BY source, evidence_key, evidence_value`. -/
def PublicEvidence.before (collation : Collation) : PublicEvidence → PublicEvidence → Bool :=
  thenBy (fun left right => collation.le left.source right.source)
    (thenBy (fun left right => collation.le left.key right.key)
      fun left right => collation.le left.value right.value)

def evidenceRows (collation : Collation) (db : Database) (detectionId : Uuid) :
    List PublicEvidence :=
  ((evidenceFor db.history detectionId).map publicEvidence).insertionSort fun left right =>
    PublicEvidence.before collation left right

/-- The confidence has to fit a `u8` and the version a `u16`. -/
def publicTechnology (row : ProfileRow) (evidence : List PublicEvidence) :
    Except PublicReadError PublicTechnology :=
  if row.detection.confidence < 2 ^ 8 ∧ row.ruleVersion.version < 2 ^ 16 then
    .ok {
      slug := row.technology.slug
      displayName := row.technology.displayName
      categorySlug := row.category.slug
      categoryName := row.category.displayName
      confidence := row.detection.confidence
      -- the only value that the check of the column admits
      method := "deterministic_rule".toList
      ruleVersion := row.ruleVersion.version
      firstObservedAt := row.current.firstObservedAt
      lastObservedAt := row.current.lastObservedAt
      evidence := evidence }
  else .error .unavailable

/-- The domain, its technologies and the evidence of each detection are read at different
moments; `createdAt` is the column of `domains`. -/
def domainProfile (collation : Collation) (createdAt : Uuid → Time) (first second : Database)
    (third : Uuid → Database) (domain : CanonicalDomain) :
    Except PublicReadError (Option PublicDomainProfile) :=
  match (first.activeDomain domain.text).bind fun row =>
      (first.policyOf row.id).map fun policy => (row, policy) with
  | none => .ok none
  | some (row, policy) => do
      let technologies ← (profileRows collation second row.id).mapM fun joined =>
        publicTechnology joined
          (evidenceRows collation (third joined.detection.id) joined.detection.id)
      .ok (some {
        canonicalDomain := row.canonicalDomain
        firstIndexedAt := createdAt row.id
        lastCrawledAt := policy.lastSuccessfulCrawlAt
        countryCode := latestCountry first row.id
        technologies := technologies })

end Rows

section Shown

variable {catalogue : Catalogue} {successes : List Success} {domainId : Uuid} {db : Database}

theorem collation_orders (collation : Collation) : Orders collation.le :=
  ⟨collation.total, collation.trans⟩

theorem slugsBefore_orders (collation : Collation) : Orders (slugsBefore collation) :=
  ((collation_orders collation).on Prod.fst).thenBy ((collation_orders collation).on Prod.snd)

theorem evidenceBefore_orders (collation : Collation) :
    Orders (PublicEvidence.before collation) :=
  ((collation_orders collation).on PublicEvidence.source).thenBy
    (((collation_orders collation).on PublicEvidence.key).thenBy
      ((collation_orders collation).on PublicEvidence.value))

theorem ruleVersionFor_facts {technologySlug categorySlug ruleSlug : Text} {version : Nat}
    {technology : TechnologyRow} {ruleVersion : RuleVersionRow}
    (found : catalogue.ruleVersionFor technologySlug categorySlug ruleSlug version =
      some (technology, ruleVersion)) :
    technology ∈ catalogue.technologies ∧ technology.slug = technologySlug ∧
      ruleVersion ∈ catalogue.ruleVersions ∧ ruleVersion.version = version ∧ version < 2 ^ 15 ∧
      ∃ category, catalogue.joinCategory technology = some category ∧
        category.slug = categorySlug := by
  simp only [Catalogue.ruleVersionFor, Option.bind_eq_bind, Option.bind_eq_some_iff] at found
  obtain ⟨known, isKnown, category, placed, rest⟩ := found
  split at rest
  · cases rest
  · rename_i sameCategory
    simp only [Option.bind_eq_some_iff] at rest
    obtain ⟨rule, _, version', isVersion, rest⟩ := rest
    split at rest
    · cases rest
    · rename_i small
      cases rest
      obtain ⟨inTechnologies, slug⟩ := find?_eq_some_mem isKnown
      obtain ⟨inVersions, both⟩ := find?_eq_some_mem isVersion
      rw [Bool.and_eq_true] at both
      exact ⟨inTechnologies, beq_iff_eq.mp slug, inVersions, beq_iff_eq.mp both.2,
        Nat.lt_of_not_le small, category, placed, Decidable.not_not.mp sameCategory⟩

/-- The technology is shown as the detection reports it. -/
structure Reported (collation : Collation) (shown : PublicTechnology) (detection : Detection) :
    Prop where
  slug : shown.slug = detection.technologySlug.1
  categorySlug : shown.categorySlug = detection.technologyCategorySlug.1
  confidence : shown.confidence = detection.confidence.1
  ruleVersion : shown.ruleVersion = detection.ruleVersion.1
  evidence : shown.evidence.Perm (detection.evidence.map publicEvidence)
  sorted : shown.evidence.Pairwise fun left right =>
    PublicEvidence.before collation left right = true

/-- The technologies are those that stand on the domain, each as the last success with a
verdict on it reported it. -/
structure Shows (collation : Collation) (catalogue : Catalogue) (successes : List Success)
    (domainId : Uuid) (shown : List PublicTechnology) : Prop where
  distinct : (shown.map PublicTechnology.slug).Nodup
  ordered : shown.Pairwise fun left right =>
    slugsBefore collation (left.categorySlug, left.slug) (right.categorySlug, right.slug) = true
  complete : ∀ technology ∈ catalogue.technologies,
    standing (verdictsOn catalogue technology.id domainId successes) = true →
      technology.slug ∈ shown.map PublicTechnology.slug
  sound : ∀ one ∈ shown, ∃ technology ∈ catalogue.technologies,
    one.slug = technology.slug ∧ one.displayName = technology.displayName ∧
    standing (verdictsOn catalogue technology.id domainId successes) = true ∧
    (∃ first ∈ successes, first.domainId = domainId ∧
      first.capturedAt = one.firstObservedAt) ∧
    ∃ earlier success later, successes = earlier ++ success :: later ∧
      success.domainId = domainId ∧ success.capturedAt = one.lastObservedAt ∧
      (∀ other ∈ later, other.domainId = domainId →
        verdict catalogue technology.id other.record = none) ∧
      ∃ detection ∈ success.record.detections, Reported collation one detection

/-- A row joins to what it was attributed to. -/
theorem profileRow_attributed {row : CurrentRow} {detection : Detection}
    (sameCatalogue : db.catalogue = catalogue) (sourced : Sourced db.history)
    (versionIds : (catalogue.ruleVersions.map RuleVersionRow.id).Nodup)
    (known : idOf catalogue detection.technologySlug.1 = some row.technologyId)
    (filed : Filed catalogue db.history row.currentDetectionId detection) :
    ∃ joined, profileRow db row = some joined ∧ joined.current = row ∧
      joined.technology ∈ catalogue.technologies ∧ joined.technology.id = row.technologyId ∧
      joined.technology.slug = detection.technologySlug.1 ∧
      joined.category.slug = detection.technologyCategorySlug.1 ∧
      joined.detection.id = row.currentDetectionId ∧
      joined.detection.confidence = detection.confidence.1 ∧
      joined.ruleVersion.version = detection.ruleVersion.1 ∧
      joined.ruleVersion.version < 2 ^ 15 := by
  obtain ⟨technology, ruleVersion, stored, found, inDetections, own, _, version, confidence⟩ :=
    filed.row
  obtain ⟨listed, slug, inVersions, number, small, category, placed, sameCategory⟩ :=
    ruleVersionFor_facts found
  have sameId : technology.id = row.technologyId := by
    rw [idOf_of_ruleVersionFor found] at known
    exact Option.some.inj known
  have byId : db.catalogue.technologies.find? (fun other => other.id == row.technologyId) =
      some technology := by
    rw [sameCatalogue]
    exact (find?_key_eq_some catalogue.technologies_id_nodup).mpr ⟨listed, sameId⟩
  have byDetection : db.history.detections.find?
      (fun other => other.id == row.currentDetectionId) = some stored :=
    (find?_key_eq_some sourced.distinct).mpr ⟨inDetections, own⟩
  have byVersion : db.catalogue.ruleVersions.find?
      (fun other => other.id == stored.ruleVersionId) = some ruleVersion := by
    rw [sameCatalogue]
    exact (find?_key_eq_some versionIds).mpr ⟨inVersions, version.symm⟩
  refine ⟨⟨row, technology, category, stored, ruleVersion⟩, ?_, rfl, listed, sameId, slug,
    sameCategory, own, confidence, number, by rw [number]; exact small⟩
  rw [← sameCatalogue] at placed
  simp only [profileRow, byId, placed, byDetection, byVersion, Option.bind_eq_bind,
    Option.bind_some]

theorem mem_profileRows {collation : Collation} {joined : ProfileRow} :
    joined ∈ profileRows collation db domainId ↔ ∃ row ∈ db.history.current,
      row.domainId = domainId ∧ profileRow db row = some joined := by
  simp only [profileRows, List.mem_insertionSort, List.mem_filterMap, List.mem_filter,
    beq_iff_eq, and_assoc]

theorem profileRow_technology {row : CurrentRow} {joined : ProfileRow}
    (found : profileRow db row = some joined) :
    joined.technology ∈ db.catalogue.technologies ∧ joined.technology.id = row.technologyId := by
  simp only [profileRow, Option.bind_eq_bind, Option.bind_eq_some_iff, Option.some.injEq] at found
  obtain ⟨technology, known, _, _, _, _, _, _, rfl⟩ := found
  obtain ⟨listed, same⟩ := find?_eq_some_mem known
  exact ⟨listed, beq_iff_eq.mp same⟩

theorem publicTechnology_eq_ok {joined : ProfileRow} {evidence : List PublicEvidence}
    {one : PublicTechnology} (success : publicTechnology joined evidence = .ok one) :
    one.slug = joined.technology.slug ∧ one.displayName = joined.technology.displayName ∧
      one.categorySlug = joined.category.slug ∧ one.confidence = joined.detection.confidence ∧
      one.ruleVersion = joined.ruleVersion.version ∧
      one.firstObservedAt = joined.current.firstObservedAt ∧
      one.lastObservedAt = joined.current.lastObservedAt ∧ one.evidence = evidence := by
  unfold publicTechnology at success
  split at success
  · cases success
    exact ⟨rfl, rfl, rfl, rfl, rfl, rfl, rfl, rfl⟩
  · cases success

/-- A domain has a row for each of its technologies, so no slug comes twice. -/
theorem profileRows_distinct (collation : Collation)
    (paired : (db.history.current.map fun row => (row.domainId, row.technologyId)).Nodup) :
    ((profileRows collation db domainId).map fun joined => joined.technology.slug).Nodup := by
  have sorted := List.perm_insertionSort
    (fun left right : ProfileRow => (slugsBefore collation left.slugs right.slugs : Prop))
    ((db.history.current.filter fun row => row.domainId == domainId).filterMap (profileRow db))
  apply (sorted.map fun joined => joined.technology.slug).nodup_iff.mpr
  rw [List.Nodup, List.pairwise_map, List.pairwise_filterMap]
  have own := paired.sublist ((List.filter_sublist
    (p := fun row : CurrentRow => row.domainId == domainId)).map fun row =>
      (row.domainId, row.technologyId))
  rw [List.Nodup, List.pairwise_map] at own
  apply own.imp_of_mem
  intro left right inLeft inRight differ first isFirst second isSecond sameSlug
  obtain ⟨listed, firstId⟩ := profileRow_technology isFirst
  obtain ⟨listed', secondId⟩ := profileRow_technology isSecond
  have same : first.technology = second.technology :=
    eq_of_key_eq db.catalogue.technologies_slug_nodup listed listed' sameSlug
  have leftDomain := beq_iff_eq.mp (List.mem_filter.mp inLeft).2
  have rightDomain := beq_iff_eq.mp (List.mem_filter.mp inRight).2
  apply differ
  rw [leftDomain, rightDomain, ← firstId, ← secondId, same]

variable {domains : List DomainRow} {third : Uuid → Database}

theorem profile_shows (collation : Collation) (recorded : Recorded catalogue domains successes db)
    (sourced : Sourced db.history)
    (attributed : ∀ row ∈ db.history.current, Attributed catalogue successes db.history row)
    (versionIds : (catalogue.ruleVersions.map RuleVersionRow.id).Nodup)
    (kept : ∀ id detection, Filed catalogue db.history id detection →
      Filed catalogue (third id).history id detection) :
    ∃ shown, (profileRows collation db domainId).mapM (fun joined => publicTechnology joined
        (evidenceRows collation (third joined.detection.id) joined.detection.id)) = .ok shown ∧
      Shows collation catalogue successes domainId shown := by
  have sameCatalogue := recorded.sameCatalogue
  have succeeds : ∀ joined ∈ profileRows collation db domainId, ∃ one,
      publicTechnology joined
        (evidenceRows collation (third joined.detection.id) joined.detection.id) = .ok one := by
    intro joined member
    obtain ⟨row, stored, _, found⟩ := mem_profileRows.mp member
    obtain ⟨_, _, _, _, _, _, _, detection, _, known, filed⟩ := attributed row stored
    obtain ⟨other, isOther, _, _, _, _, _, _, confidence, _, small⟩ :=
      profileRow_attributed sameCatalogue sourced versionIds known filed
    cases found.symm.trans isOther
    have percent := detection.confidence.2
    have fits : joined.detection.confidence < 2 ^ 8 ∧ joined.ruleVersion.version < 2 ^ 16 := by
      omega
    exact ⟨_, if_pos fits⟩
  obtain ⟨shown, success, _⟩ := mapM_ok_of_forall succeeds
  have both : (profileRows collation db domainId).map ProfileRow.slugs =
      shown.map fun one => (one.categorySlug, one.slug) := by
    refine map_of_mapM_eq_ok ?_ success
    intro joined one made
    obtain ⟨oneSlug, _, oneCategory, _⟩ := publicTechnology_eq_ok made
    rw [ProfileRow.slugs, oneSlug, oneCategory]
  have slugs : (profileRows collation db domainId).map (fun joined => joined.technology.slug) =
      shown.map PublicTechnology.slug := by
    have second := congrArg (List.map Prod.snd) both
    rw [List.map_map, List.map_map] at second
    exact second
  refine ⟨shown, success, ?_, ?_, ?_, ?_⟩
  · rw [← slugs]
    exact profileRows_distinct collation recorded.paired
  · have sorted : (profileRows collation db domainId).Pairwise fun left right =>
        slugsBefore collation left.slugs right.slugs = true :=
      ((slugsBefore_orders collation).on ProfileRow.slugs).sorted _
    have pairs : ((profileRows collation db domainId).map ProfileRow.slugs).Pairwise
        fun left right => slugsBefore collation left right = true :=
      List.pairwise_map.mpr sorted
    rw [both] at pairs
    exact List.pairwise_map.mp pairs
  · intro technology listed stands
    obtain ⟨row, stored, own, sameId⟩ := (recorded.held _ _).mpr stands
    obtain ⟨_, _, _, _, _, _, _, detection, _, known, filed⟩ := attributed row stored
    obtain ⟨joined, found, _, inTechnologies, itsId, _⟩ :=
      profileRow_attributed sameCatalogue sourced versionIds known filed
    have same : joined.technology = technology :=
      eq_of_key_eq catalogue.technologies_id_nodup inTechnologies listed (itsId.trans sameId)
    rw [← slugs, ← same]
    exact List.mem_map_of_mem (mem_profileRows.mpr ⟨row, stored, own, found⟩)
  · intro one inShown
    obtain ⟨joined, member, made⟩ := mem_of_mapM_eq_ok success inShown
    obtain ⟨row, stored, own, found⟩ := mem_profileRows.mp member
    obtain ⟨earlier, success, later, order, domain, captured, undecided, detection, reported,
      known, filed⟩ := attributed row stored
    obtain ⟨other, isOther, sameRow, listed, itsId, slug, category, detectionId, confidence,
      version, _⟩ := profileRow_attributed sameCatalogue sourced versionIds known filed
    cases found.symm.trans isOther
    obtain ⟨oneSlug, oneName, oneCategory, oneConfidence, oneVersion, oneFirst, oneLast,
      oneEvidence⟩ := publicTechnology_eq_ok made
    obtain ⟨first, inSuccesses, firstDomain, firstTime⟩ := recorded.first row stored
    have stands := (recorded.held domainId joined.technology.id).mp ⟨row, stored, own, itsId.symm⟩
    refine ⟨joined.technology, listed, oneSlug, oneName, stands,
      ⟨first, inSuccesses, firstDomain.trans own, ?_⟩, earlier, success, later, order,
      domain.trans own, ?_, ?_, detection, reported, ?_⟩
    · rw [oneFirst, sameRow]
      exact firstTime
    · rw [oneLast, sameRow]
      exact captured
    · rw [itsId, ← own]
      exact undecided
    · refine ⟨oneSlug.trans slug, oneCategory.trans category, oneConfidence.trans confidence,
        oneVersion.trans version, ?_, ?_⟩
      · have evidence := (kept _ _ filed).evidence
        rw [oneEvidence, detectionId, evidenceRows, evidence]
        exact List.perm_insertionSort _ _
      · rw [oneEvidence]
        exact (evidenceBefore_orders collation).sorted _

end Shown

section Runs

variable {catalogue : Catalogue}

/-- The answer reads the second moment by its catalogue and its history alone. -/
theorem profileRows_of_same {collation : Collation} {db same : Database} {domainId : Uuid}
    (catalogues : same.catalogue = db.catalogue) (histories : same.history = db.history) :
    profileRows collation same domainId = profileRows collation db domainId := by
  have rows : profileRow same = profileRow db := by
    funext row
    simp only [profileRow, catalogues, histories]
  rw [profileRows, profileRows, rows, histories]

/-- An active domain is found together with its policy. -/
theorem activeDomain_policy {db : Database} {name : Text} (owned : Owned db) {row : DomainRow}
    (listed : row ∈ db.domains) (isActive : row.isActive = true)
    (named : row.canonicalDomain = name) :
    ((db.activeDomain name).bind fun row =>
      (db.policyOf row.id).map fun policy => (row, policy)) ≠ none := by
  obtain ⟨found, isFound⟩ : ∃ found, db.activeDomain name = some found := by
    rw [← Option.isSome_iff_exists, Database.activeDomain, List.find?_isSome]
    exact ⟨row, listed, Bool.and_eq_true_iff.mpr ⟨beq_iff_eq.mpr named, isActive⟩⟩
  obtain ⟨policy, held⟩ := owned.policyOf (find?_eq_some_mem isFound).1
  rw [isFound, Option.bind_some, held]
  exact Option.some_ne_none _

/-- Whatever calls come between the statements, and before and after them: an active domain
has a profile, which shows exactly the technologies that the successes recorded so far leave
standing on the domain, each as the last success with a verdict on it reported it, with its
evidence. -/
theorem profile_sources (crate : UrlCrate) (regexes : RegexCrate) (catalogue : Catalogue)
    (collation : Collation) (createdAt : Uuid → Time) (calls between : List Call)
    (after : Uuid → List Call) (domain : CanonicalDomain)
    (versionIds : (catalogue.ruleVersions.map RuleVersionRow.id).Nodup)
    (evaluated : ∀ call ∈ calls ++ between, ∀ record, call.records record →
      Evaluated regexes record) :
    ∃ (successes : List Success) (answer : Option PublicDomainProfile),
      (∀ success ∈ successes, ∃ call ∈ calls ++ between, call.records success.record) ∧
      (reached crate catalogue (calls ++ between)).snapshots = successes.map Success.row ∧
      domainProfile collation createdAt (reached crate catalogue calls)
        (reached crate catalogue (calls ++ between))
        (fun id => reached crate catalogue (calls ++ between ++ after id)) domain =
          .ok answer ∧
      (answer.isSome = true ↔ ∃ row ∈ (reached crate catalogue calls).domains,
        row.isActive = true ∧ row.canonicalDomain = domain.text) ∧
      ∀ profile, answer = some profile →
        ∃ row ∈ (reached crate catalogue calls).domains, row.isActive = true ∧
          row.canonicalDomain = domain.text ∧ profile.canonicalDomain = domain.text ∧
          Shows collation catalogue successes row.id profile.technologies := by
  obtain ⟨successes, same, committed, catalogues, snapshots, histories, origin⟩ :=
    reached_commits crate catalogue (calls ++ between)
  have allEvaluated : ∀ success ∈ successes, Evaluated regexes success.record := by
    intro success member
    obtain ⟨call, inCalls, records⟩ := origin success member
    exact evaluated call inCalls success.record records
  have recorded := commitAll_recorded allEvaluated committed
  obtain ⟨sourced, attributed⟩ := commitAll_attributed allEvaluated committed
  have keys : Keys (reached crate catalogue (calls ++ between)) :=
    run_invariant (exec_keys crate) _ _ (initial_keys catalogue)
  have kept : ∀ id detection, Filed catalogue same.history id detection →
      Filed catalogue (reached crate catalogue (calls ++ between ++ after id)).history id
        detection := by
    intro id detection filed
    rw [histories] at filed sourced
    have sameCatalogue : (reached crate catalogue (calls ++ between)).catalogue = catalogue :=
      catalogues.symm.trans recorded.sameCatalogue
    have files := (@run_files _ crate (after id) keys sourced).files
    rw [sameCatalogue] at files
    rw [reached, run_append]
    exact files id detection filed
  refine ⟨successes, ?_⟩
  rw [← snapshots, recorded.snapshots]
  unfold domainProfile
  split
  · rename_i missing
    refine ⟨none, origin, rfl, rfl, iff_of_false (by decide) ?_, ?_⟩
    · rintro ⟨row, listed, isActive, named⟩
      exact absurd missing (activeDomain_policy (reached_owned crate catalogue calls) listed
        isActive named)
    · intro profile impossible
      cases impossible
  · rename_i row policy found
    obtain ⟨active, isActive, joined⟩ := Option.bind_eq_some_iff.mp found
    obtain ⟨_, _, pair⟩ := Option.map_eq_some_iff.mp joined
    cases pair
    obtain ⟨listed, named⟩ := find?_eq_some_mem isActive
    rw [Bool.and_eq_true] at named
    obtain ⟨shown, success, shows⟩ := @profile_shows _ _ row.id _ _ _ collation recorded
      sourced attributed versionIds kept
    rw [profileRows_of_same catalogues histories] at success
    refine ⟨_, origin, rfl, bind_eq_ok.mpr ⟨shown, success, rfl⟩,
      iff_of_true rfl ⟨row, listed, named.2, beq_iff_eq.mp named.1⟩, ?_⟩
    rintro profile same
    cases same
    exact ⟨row, listed, named.2, beq_iff_eq.mp named.1, beq_iff_eq.mp named.1, shows⟩

/-- A crawl that finds the first system, and a second one that is under way. -/
def siteCalls (before : DetectionEvaluation) : List Call :=
  let domain := exampleDomain
  let first : CrawlJobV1 := newJobWithCorrelation 1 12 11
  let second : CrawlJobV1 := newJobWithCorrelation 1 22 21
  [.createWithAudit 1 domain DomainCreationDefaults.crawlPolicy "operator".toList 0,
    .reserveDue 0 10 fun _ => ⟨10, 11, 12⟩,
    .claimAttempt first 5,
    .recordSuccess first (siteRecord 6 before) ⟨40, fun n => 50 + n⟩,
    .requestDomainCrawl domain "operator".toList 7,
    .reserveDue 8 10 fun _ => ⟨20, 21, 22⟩,
    .claimAttempt second 9]

/-- The second crawl finds the other system. -/
def migratedCalls (after : DetectionEvaluation) : List Call :=
  [.recordSuccess (newJobWithCorrelation 1 22 21) (siteRecord 10 after) ⟨60, fun n => 70 + n⟩]

/-- The profile of the site, whose second crawl is recorded while it is read. -/
def siteProfile (before after : DetectionEvaluation) :
    Except PublicReadError (Option PublicDomainProfile) :=
  let calls := siteCalls before
  let between := migratedCalls after
  domainProfile codePoints (fun _ => 0) (reached plainUrlCrate twoSystems calls)
    (reached plainUrlCrate twoSystems (calls ++ between))
    (fun _ => reached plainUrlCrate twoSystems (calls ++ between ++ [])) exampleDomain

theorem migratedSite_profile :
    let before := (siteEvaluation "WordPress 6.8" 1).get wordPress_evaluated
    let after := (siteEvaluation "Drupal 11" 1).get drupal_evaluated
    ∃ (successes : List Success) (profile : PublicDomainProfile),
      siteProfile before after = .ok (some profile) ∧
      profile.lastCrawledAt = some 6 ∧
      profile.technologies.map PublicTechnology.slug = ["drupal".toList] ∧
      Shows codePoints twoSystems successes 1 profile.technologies := by
  intro before after
  have evaluated : ∀ call ∈ siteCalls before ++ migratedCalls after, ∀ record,
      call.records record → Evaluated noRegexes record := by
    simp only [siteCalls, migratedCalls, List.cons_append, List.nil_append, List.forall_mem_cons,
      Call.records]
    refine ⟨?_, ?_, ?_, ?_, ?_, ?_, ?_, ?_, by simp⟩
    case refine_4 =>
      rintro record rfl
      exact siteRecord_evaluated (Option.some_get _).symm 6
    case refine_8 =>
      rintro record rfl
      exact siteRecord_evaluated (Option.some_get _).symm 10
    all_goals exact fun _ recorded => recorded.elim
  obtain ⟨successes, answer, _, _, read, _, shows⟩ := profile_sources plainUrlCrate noRegexes
    twoSystems codePoints (fun _ => 0) (siteCalls before) (migratedCalls after) (fun _ => [])
    exampleDomain (by decide) evaluated
  have crawled : (siteProfile before after).toOption.map (fun answer =>
      answer.map PublicDomainProfile.lastCrawledAt) = some (some (some 6)) := by
    decide +kernel
  have slugs : (siteProfile before after).toOption.map (fun answer => answer.map fun profile =>
      profile.technologies.map PublicTechnology.slug) = some (some ["drupal".toList]) := by
    decide +kernel
  have only : (reached plainUrlCrate twoSystems (siteCalls before)).domains.map DomainRow.id =
      [1] := by
    decide +kernel
  change siteProfile before after = .ok answer at read
  rw [read] at crawled slugs
  cases answer with
  | none => cases slugs
  | some profile =>
      obtain ⟨row, listed, _, _, _, shown⟩ := shows profile rfl
      have sameId : row.id = 1 := by
        have member := List.mem_map_of_mem (f := DomainRow.id) listed
        rw [only] at member
        exact List.mem_singleton.mp member
      rw [sameId] at shown
      exact ⟨successes, profile, read, Option.some.inj (Option.some.inj crawled),
        Option.some.inj (Option.some.inj slugs), shown⟩

end Runs

end Public

end TechAtlas
