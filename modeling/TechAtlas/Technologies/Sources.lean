import TechAtlas.Technologies.Adoption

set_option autoImplicit false

/- Where a current technology comes from: its row points to a stored detection,
which keeps its evidence. -/
namespace TechAtlas.Technologies

open Library Store Detector

section Files

variable {catalogue : Catalogue} {history next : History} {snapshotId : Uuid} {capturedAt : Time}

/-- The evidence stored with the detection. -/
def evidenceFor (history : History) (detectionId : Uuid) : List DetectionEvidence :=
  (history.evidence.filter fun row => row.detectionId == detectionId).map EvidenceRow.evidence

/-- Every piece of evidence is of a stored detection, and detections have their own ids. -/
structure Sourced (history : History) : Prop where
  evidence : ∀ row ∈ history.evidence, ∃ detection ∈ history.detections,
    detection.id = row.detectionId
  distinct : (history.detections.map DetectionRow.id).Nodup

/-- The detection is stored under the id, with its evidence. -/
structure Filed (catalogue : Catalogue) (history : History) (id : Uuid) (detection : Detection) :
    Prop where
  row : ∃ technology ruleVersion stored,
    catalogue.ruleVersionFor detection.technologySlug.1 detection.technologyCategorySlug.1
      detection.ruleSlug.1 detection.ruleVersion.1 = some (technology, ruleVersion) ∧
    stored ∈ history.detections ∧ stored.id = id ∧ stored.technologyId = technology.id ∧
    stored.ruleVersionId = ruleVersion.id ∧ stored.confidence = detection.confidence.1
  evidence : evidenceFor history id = detection.evidence

theorem Filed.of_same {id : Uuid} {detection : Detection}
    (filed : Filed catalogue history id detection)
    (detections : next.detections = history.detections)
    (evidence : next.evidence = history.evidence) : Filed catalogue next id detection := by
  refine ⟨?_, ?_⟩
  · rw [detections]
    exact filed.row
  · rw [evidenceFor, evidence]
    exact filed.evidence

theorem Sourced.of_same (sourced : Sourced history)
    (detections : next.detections = history.detections)
    (evidence : next.evidence = history.evidence) : Sourced next := by
  refine ⟨?_, ?_⟩
  · rw [detections, evidence]
    exact sourced.evidence
  · rw [detections]
    exact sourced.distinct

theorem Sourced.unused (sourced : Sourced history) {id : Uuid}
    (unused : ∀ old ∈ history.detections, old.id ≠ id) : evidenceFor history id = [] := by
  rw [evidenceFor, List.map_eq_nil_iff, List.filter_eq_nil_iff]
  intro row member same
  obtain ⟨detection, stored, own⟩ := sourced.evidence row member
  exact unused detection stored (own.trans (beq_iff_eq.mp same))

theorem evidenceFor_own (id : Uuid) (items : List DetectionEvidence) :
    ((items.map fun item => ({ detectionId := id, evidence := item } : EvidenceRow)).filter
      fun row => row.detectionId == id).map EvidenceRow.evidence = items := by
  induction items with
  | nil => rfl
  | cons item rest ih =>
      rw [List.map_cons, List.filter_cons_of_pos (by simp), List.map_cons, ih]

theorem evidenceFor_other {id other : Uuid} (differs : id ≠ other)
    (items : List DetectionEvidence) :
    ((items.map fun item => ({ detectionId := id, evidence := item } : EvidenceRow)).filter
      fun row => row.detectionId == other).map EvidenceRow.evidence = [] := by
  rw [List.map_eq_nil_iff, List.filter_eq_nil_iff]
  intro row member same
  obtain ⟨item, _, rfl⟩ := List.mem_map.mp member
  exact differs (beq_iff_eq.mp same)

/-- The new detection is filed, and those filed before stay so. -/
theorem insertDetection_files {id : Uuid} {detection : Detection} (sourced : Sourced history)
    (success : insertDetection catalogue snapshotId capturedAt history id detection =
      some next) :
    Sourced next ∧ Filed catalogue next id detection ∧
      ∀ other filed, Filed catalogue history other filed → Filed catalogue next other filed := by
  simp only [insertDetection, Option.bind_eq_bind, Option.bind_eq_some_iff, Option.some.injEq,
    insertChecked_eq_some] at success
  obtain ⟨⟨technology, ruleVersion⟩, found, rows, ⟨admitted, rfl⟩, rfl⟩ := success
  have unused : ∀ old ∈ history.detections, old.id ≠ id := by
    intro old member
    rw [admitsDetection, List.all_eq_true] at admitted
    have both := admitted old member
    rw [Bool.and_eq_true] at both
    exact bne_iff_ne.mp both.1
  refine ⟨⟨?_, ?_⟩, ⟨?_, ?_⟩, ?_⟩
  · intro row member
    rcases List.mem_append.mp member with old | new
    · obtain ⟨stored, inDetections, own⟩ := sourced.evidence row old
      exact ⟨stored, List.mem_append_left _ inDetections, own⟩
    · obtain ⟨item, _, rfl⟩ := List.mem_map.mp new
      exact ⟨_, List.mem_append_right _ (List.mem_singleton.mpr rfl), rfl⟩
  · exact nodup_map_concat sourced.distinct unused
  · exact ⟨technology, ruleVersion, _, found,
      List.mem_append_right _ (List.mem_singleton.mpr rfl), rfl, rfl, rfl, rfl⟩
  · have none := sourced.unused unused
    rw [evidenceFor] at none
    rw [evidenceFor, List.filter_append, List.map_append, none, evidenceFor_own,
      List.nil_append]
  · intro other filed before
    obtain ⟨technology', ruleVersion', stored, found', member, own, rest⟩ := before.row
    refine ⟨⟨technology', ruleVersion', stored, found', List.mem_append_left _ member, own,
      rest⟩, ?_⟩
    have differs : id ≠ other := fun same => unused stored member (own.trans same.symm)
    have kept := before.evidence
    rw [evidenceFor] at kept
    rw [evidenceFor, List.filter_append, List.map_append, kept, evidenceFor_other differs,
      List.append_nil]

/-- Every id that a run of insertions hands on is of a filed detection. -/
theorem recordDetections_files {fresh : Nat → Uuid} {ids stored : DetectionIds} {n : Nat}
    {detections : List Detection} (sourced : Sourced history)
    (success : recordDetections catalogue snapshotId capturedAt fresh history ids n detections =
      some (next, stored)) :
    Sourced next ∧
      (∀ other filed, Filed catalogue history other filed → Filed catalogue next other filed) ∧
      ∀ slug id, stored.lookup slug = some id → ids.lookup slug = some id ∨
        ∃ detection ∈ detections, detection.technologySlug = slug ∧
          Filed catalogue next id detection := by
  induction detections generalizing history ids n with
  | nil =>
      cases success
      exact ⟨sourced, fun _ _ filed => filed, fun _ _ found => Or.inl found⟩
  | cons detection rest ih =>
      simp only [recordDetections, Option.bind_eq_bind, Option.bind_eq_some_iff] at success
      obtain ⟨mid, inserted, success⟩ := success
      obtain ⟨sourcedMid, own, kept⟩ := insertDetection_files sourced inserted
      obtain ⟨sourcedNext, keptNext, listed⟩ := ih sourcedMid success
      refine ⟨sourcedNext, fun other filed before => keptNext _ _ (kept other filed before), ?_⟩
      intro slug id found
      rcases listed slug id found with earlier | ⟨later, member, same, filed⟩
      · rw [List.lookup_cons] at earlier
        split at earlier
        · rename_i equal
          cases earlier
          exact Or.inr ⟨detection, List.mem_cons_self, (beq_iff_eq.mp equal).symm,
            keptNext _ _ own⟩
        · exact Or.inl earlier
      · exact Or.inr ⟨later, List.mem_cons_of_mem detection member, same, filed⟩

theorem insertObservations_evidence {observations : List RuleObservation}
    (success : observations.foldlM (insertObservation catalogue snapshotId capturedAt) history =
      some next) : next.evidence = history.evidence := by
  induction observations generalizing history with
  | nil =>
      cases success
      rfl
  | cons observation rest ih =>
      rw [List.foldlM_cons, Option.bind_eq_bind, Option.bind_eq_some_iff] at success
      obtain ⟨mid, inserted, success⟩ := success
      simp only [insertObservation, Option.bind_eq_bind, Option.bind_eq_some_iff,
        Option.some.injEq] at inserted
      obtain ⟨_, _, _, _, rfl⟩ := inserted
      exact (ih success : next.evidence = _)

/-- What is filed stays filed, whatever is recorded later. -/
theorem recordHistory_files {domainId : Uuid} {fresh : FreshSnapshot}
    {record : SuccessfulCrawlRecord} (sourced : Sourced history)
    (success : recordHistory catalogue domainId fresh record history = .ok next) :
    Sourced next ∧
      ∀ id detection, Filed catalogue history id detection →
        Filed catalogue next id detection := by
  obtain ⟨_, _, _, _, _, _, recorded, inserted, _, _, _, rfl⟩ := recordHistory_eq_ok success
  obtain ⟨sourcedNext, kept, _⟩ := recordDetections_files sourced recorded
  have detections := insertObservations_detections inserted
  have evidence := insertObservations_evidence inserted
  exact ⟨sourcedNext.of_same detections evidence,
    fun id detection filed => (kept id detection filed).of_same detections evidence⟩

end Files

section Rows

variable {catalogue : Catalogue} {domainId snapshotId technologyId detectionId : Uuid}
  {capturedAt : Time} {current after : List CurrentRow} {row : CurrentRow}

/-- A row that an upsert leaves is an old one of another key or what it wrote. -/
theorem upsertCurrent_rows
    (success : upsertCurrent domainId snapshotId capturedAt current technologyId detectionId =
      some after) (member : row ∈ after) :
    (row ∈ current ∧ ¬(row.domainId = domainId ∧ row.technologyId = technologyId)) ∨
      row.domainId = domainId ∧ row.technologyId = technologyId ∧
        row.currentDetectionId = detectionId ∧ row.lastObservedAt = capturedAt := by
  unfold upsertCurrent at success
  dsimp only at success
  split at success
  · obtain ⟨_, rfl⟩ := updateChecked_eq_some.mp success
    rcases mem_updateWhere_cases member with ⟨old, unselected⟩ | ⟨old, _, selected, rfl⟩
    · refine Or.inl ⟨old, ?_⟩
      rintro ⟨own, technology⟩
      simp [own, technology] at unselected
    · simp only [Bool.and_eq_true, beq_iff_eq] at selected
      exact Or.inr ⟨selected.1, selected.2, rfl, rfl⟩
  · rename_i absent
    cases success
    rcases List.mem_append.mp member with old | new
    · refine Or.inl ⟨old, ?_⟩
      rintro ⟨own, technology⟩
      apply absent
      rw [List.any_eq_true]
      exact ⟨row, old, by simp [own, technology]⟩
    · rw [List.mem_singleton.mp new]
      exact Or.inr ⟨rfl, rfl, rfl, rfl⟩

theorem activateAll_rows {ids : DetectionIds} {states : List CurrentTechnology}
    (identified : ∀ state ∈ states, Identified catalogue ids state)
    (success : states.foldlM (activate catalogue domainId snapshotId capturedAt ids) current =
      .ok after) (member : row ∈ after) :
    (row ∈ current ∧ ¬(row.domainId = domainId ∧ ∃ state ∈ states,
        idOf catalogue state.technologySlug.1 = some row.technologyId)) ∨
      row.domainId = domainId ∧ row.lastObservedAt = capturedAt ∧ ∃ state ∈ states,
        idOf catalogue state.technologySlug.1 = some row.technologyId ∧
          ids.lookup state.technologySlug = some row.currentDetectionId := by
  induction states generalizing current with
  | nil =>
      cases success
      exact Or.inl ⟨member, by simp⟩
  | cons state rest ih =>
      obtain ⟨⟨id, listed⟩, detectionId, found⟩ := identified state List.mem_cons_self
      rw [List.foldlM_cons, activate_eq listed found] at success
      obtain ⟨mid, upserted, success⟩ := bind_eq_ok.mp success
      rcases ih (fun other member => identified other (List.mem_cons_of_mem state member))
        success with ⟨inMid, untouched⟩ | ⟨own, time, later, inRest, known, pointed⟩
      · rcases upsertCurrent_rows (orError_eq_ok.mp upserted) inMid with
          ⟨old, other⟩ | ⟨own, technology, pointed, time⟩
        · refine Or.inl ⟨old, ?_⟩
          rintro ⟨own, one, inStates, known⟩
          rcases List.mem_cons.mp inStates with rfl | inRest
          · rw [listed.idOf] at known
            exact other ⟨own, (Option.some.inj known).symm⟩
          · exact untouched ⟨own, one, inRest, known⟩
        · exact Or.inr ⟨own, time, state, List.mem_cons_self, by rw [listed.idOf, technology],
            by rw [found, pointed]⟩
      · exact Or.inr ⟨own, time, later, List.mem_cons_of_mem state inRest, known, pointed⟩

theorem mem_of_deactivated {states : List CurrentTechnology}
    (member : row ∈ states.foldl (deactivate catalogue domainId) current) : row ∈ current := by
  induction states generalizing current with
  | nil => exact member
  | cons state rest ih => exact List.mem_of_mem_filter (ih member)

/-- A row that a record leaves is an old one, on which the record has no verdict, or
points to the detection the record has of its technology. -/
theorem recordHistory_rows {fresh : FreshSnapshot} {record : SuccessfulCrawlRecord}
    {history next : History} (agrees : Agrees catalogue history) (sourced : Sourced history)
    (coherent : Coherent record.detections record.observations)
    (success : recordHistory catalogue domainId fresh record history = .ok next)
    (member : row ∈ next.current) :
    (row ∈ history.current ∧
        (row.domainId = domainId → verdict catalogue row.technologyId record = none)) ∨
      row.domainId = domainId ∧ row.lastObservedAt = record.snapshot.capturedAt ∧
        ∃ detection ∈ record.detections,
          idOf catalogue detection.technologySlug.1 = some row.technologyId ∧
            Filed catalogue next row.currentDetectionId detection := by
  have holds := (recordHistory_holds agrees coherent success).mp ⟨row, member, rfl, rfl⟩
  obtain ⟨_, ids, observed, previous, current, _, recorded, inserted, _, activated, _, rfl⟩ :=
    recordHistory_eq_ok success
  obtain ⟨⟨detectedCurrent, _⟩, stored⟩ := recordDetections_eq_some recorded
  obtain ⟨⟨observedCurrent, _⟩, listed⟩ := insertObservations_eq_some inserted
  obtain ⟨_, _, files⟩ := recordDetections_files sourced recorded
  have identified := identified_of_detected coherent stored listed
  have ready : ∀ state ∈ sortedBySlug (observedAs record.observations .detected),
      Identified catalogue ids state :=
    fun state inStates => identified state (mem_of_mem_sortedBySlug inStates)
  rcases activateAll_rows ready activated member with
    ⟨remaining, inactive⟩ | ⟨own, time, state, _, known, pointed⟩
  · left
    have old := mem_of_deactivated remaining
    rw [observedCurrent, detectedCurrent] at old
    refine ⟨old, ?_⟩
    intro own
    have undetected : ¬observes catalogue row.technologyId .detected record = true := by
      intro detected
      obtain ⟨state, inStates, known⟩ := observes_iff.mp detected
      exact inactive ⟨own, (exists_mem_sortedBySlug
        (P := fun slug => idOf catalogue slug.1 = some row.technologyId)).mpr
          ⟨state, inStates, known⟩⟩
    have notAbsent : ¬observes catalogue row.technologyId .confirmedAbsent record = true := by
      rcases holds with ⟨_, kept⟩ | ⟨_, detected⟩
      · exact fun absent => kept ⟨own, absent⟩
      · exact absurd detected undetected
    simp [verdict, undetected, notAbsent]
  · right
    rcases files state.technologySlug row.currentDetectionId pointed with none | found
    · cases none
    · obtain ⟨detection, inDetections, same, filed⟩ := found
      refine ⟨own, time, detection, inDetections, by rw [same]; exact known, ?_⟩
      have detections := insertObservations_detections inserted
      have evidence := insertObservations_evidence inserted
      exact filed.of_same detections evidence

end Rows

section Runs

variable {regexes : RegexCrate} {catalogue : Catalogue} {domains : List DomainRow}
  {done : List Success} {db : Database}

/-- The last success on the domain of the row with a verdict on its technology detected
it, and the row points to what was filed then. -/
def Attributed (catalogue : Catalogue) (done : List Success) (history : History)
    (row : CurrentRow) : Prop :=
  ∃ earlier success later, done = earlier ++ success :: later ∧
    success.domainId = row.domainId ∧ success.capturedAt = row.lastObservedAt ∧
    (∀ other ∈ later, other.domainId = row.domainId →
      verdict catalogue row.technologyId other.record = none) ∧
    ∃ detection ∈ success.record.detections,
      idOf catalogue detection.technologySlug.1 = some row.technologyId ∧
        Filed catalogue history row.currentDetectionId detection

theorem commitAll_attributed (evaluated : ∀ success ∈ done, Evaluated regexes success.record)
    (committed : commitAll (domainsOnly catalogue domains) done = .ok db) :
    Sourced db.history ∧ ∀ row ∈ db.history.current, Attributed catalogue done db.history row := by
  induction done using List.reverseRecOn generalizing db with
  | nil =>
      cases committed
      exact ⟨⟨by simp [domainsOnly, Database.initial], List.nodup_nil⟩,
        by simp [domainsOnly, Database.initial]⟩
  | append_singleton front last ih =>
      obtain ⟨mid, before, committed⟩ := commitAll_concat.mp committed
      have earlier : ∀ success ∈ front, Evaluated regexes success.record :=
        fun other member => evaluated other (List.mem_append_left _ member)
      obtain ⟨sourced, attributed⟩ := ih earlier before
      have recorded := commitAll_recorded earlier before
      obtain ⟨_, history, stored, rfl⟩ := commit_eq_ok.mp committed
      rw [recorded.sameCatalogue] at stored
      obtain ⟨sourcedNext, kept⟩ := recordHistory_files sourced stored
      refine ⟨sourcedNext, ?_⟩
      intro row member
      have coherent := (evaluated last (by simp)).coherent
      rcases recordHistory_rows recorded.agrees sourced coherent stored member with
        ⟨old, silent⟩ | ⟨own, time, found⟩
      · obtain ⟨before', success, later, rfl, own, time, undecided, detection, inDetections,
          known, filed⟩ := attributed row old
        refine ⟨before', success, later ++ [last], by simp, own, time, ?_, detection,
          inDetections, known, kept _ _ filed⟩
        intro other inLater same
        rcases List.mem_append.mp inLater with sooner | new
        · exact undecided other sooner same
        · rw [List.mem_singleton.mp new] at same ⊢
          exact silent same.symm
      · exact ⟨front, last, [], rfl, own.symm, time.symm, by simp, found⟩

/-- A later store has filed what the store has. -/
structure FiledSince (db now : Database) : Prop where
  keys : Keys now
  sameCatalogue : now.catalogue = db.catalogue
  sourced : Sourced now.history
  files : ∀ id detection, Filed db.catalogue db.history id detection →
    Filed db.catalogue now.history id detection

theorem exec_files {crate : UrlCrate} {now : Database} (since : FiledSince db now) (call : Call) :
    FiledSince db (exec crate now call) := by
  have keys := exec_keys crate now call since.keys
  rcases exec_records since.keys.policyKeys call with quiet |
    ⟨attempt, _, record, fresh, _, stored⟩
  · refine ⟨keys, quiet.catalogue.trans since.sameCatalogue, ?_, ?_⟩
    · rw [quiet.history]
      exact since.sourced
    · rw [quiet.history]
      exact since.files
  · obtain ⟨_, _, _, _, history, recorded, next⟩ := persistSuccess_eq_ok stored
    obtain ⟨sourced, files⟩ := recordHistory_files since.sourced recorded
    rw [since.sameCatalogue] at files
    rw [next] at keys ⊢
    exact ⟨keys, since.sameCatalogue, sourced,
      fun id detection filed => files _ _ (since.files id detection filed)⟩

/-- Later calls leave what is filed as it is. -/
theorem run_files {crate : UrlCrate} (calls : List Call) (keys : Keys db)
    (sourced : Sourced db.history) : FiledSince db (run (exec crate) db calls) :=
  run_invariant (P := FiledSince db) (fun _ call since => exec_files since call) db calls
    ⟨keys, rfl, sourced, fun _ _ filed => filed⟩

end Runs

end TechAtlas.Technologies
