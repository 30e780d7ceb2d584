import TechAtlas.Library.ChangeLog
import TechAtlas.Store.Worker
import TechAtlas.Detector

set_option autoImplicit false

/- What recording one evaluation does to the current technologies of a domain
and to the log of their changes. -/
namespace TechAtlas.Technologies

open Library Store Detector

section Listed

variable {catalogue : Catalogue}

/-- The identifier of the technology with the slug. -/
def idOf (catalogue : Catalogue) (slug : Text) : Option Uuid :=
  (catalogue.technologyFor slug).map TechnologyRow.id

theorem idOf_eq_some {slug : Text} {id : Uuid} :
    idOf catalogue slug = some id ↔
      ∃ technology ∈ catalogue.technologies, technology.slug = slug ∧ technology.id = id := by
  simp only [idOf, Catalogue.technologyFor, Option.map_eq_some_iff,
    find?_key_eq_some catalogue.technologies_slug_nodup, and_assoc]

/-- Two slugs of one technology are one slug. -/
theorem idOf_injective {left right : Text} {id : Uuid} (first : idOf catalogue left = some id)
    (second : idOf catalogue right = some id) : left = right := by
  obtain ⟨one, inOne, rfl, oneId⟩ := idOf_eq_some.mp first
  obtain ⟨other, inOther, rfl, otherId⟩ := idOf_eq_some.mp second
  rw [eq_of_key_eq catalogue.technologies_id_nodup inOne inOther (oneId.trans otherId.symm)]

/-- The catalogue has the technology, under the category it was observed in. -/
def Listed (catalogue : Catalogue) (state : CurrentTechnology) (id : Uuid) : Prop :=
  ∃ technology category, catalogue.technologyFor state.technologySlug.1 = some technology ∧
    technology.id = id ∧ catalogue.categoryOf technology = some category ∧
    category.slug = state.technologyCategorySlug.1

theorem Listed.idOf {state : CurrentTechnology} {id : Uuid} (listed : Listed catalogue state id) :
    idOf catalogue state.technologySlug.1 = some id := by
  obtain ⟨technology, _, found, rfl, _⟩ := listed
  rw [Technologies.idOf, found]
  rfl

theorem listed_of_ruleVersionFor {state : CurrentTechnology} {ruleSlug : Text} {version : Nat}
    {found : TechnologyRow × RuleVersionRow}
    (success : catalogue.ruleVersionFor state.technologySlug.1 state.technologyCategorySlug.1
      ruleSlug version = some found) : ∃ id, Listed catalogue state id := by
  simp only [Catalogue.ruleVersionFor, Option.bind_eq_bind, Option.bind_eq_some_iff] at success
  obtain ⟨technology, known, category, placed, rest⟩ := success
  refine ⟨technology.id, technology, category, known, rfl, placed, ?_⟩
  by_contra differs
  rw [if_pos differs] at rest
  cases rest

theorem idOf_of_ruleVersionFor {technologySlug categorySlug ruleSlug : Text} {version : Nat}
    {found : TechnologyRow × RuleVersionRow}
    (success : catalogue.ruleVersionFor technologySlug categorySlug ruleSlug version =
      some found) : idOf catalogue technologySlug = some found.1.id := by
  simp only [Catalogue.ruleVersionFor, Option.bind_eq_bind, Option.bind_eq_some_iff] at success
  obtain ⟨technology, known, category, _, rest⟩ := success
  rw [idOf, known]
  split at rest
  · cases rest
  · simp only [Option.bind_eq_some_iff] at rest
    obtain ⟨rule, _, row, _, rest⟩ := rest
    split at rest
    · cases rest
    · cases rest
      rfl

/-- The rows of the table belong to technologies the catalogue lists. -/
def AllListed (catalogue : Catalogue) (current : List CurrentRow) : Prop :=
  ∀ row ∈ current, ∃ state, Listed catalogue state row.technologyId

end Listed

section Previous

variable {catalogue : Catalogue} (domainId : Uuid) {current : List CurrentRow}

/-- The domain has the technology. -/
def Holds (current : List CurrentRow) (domainId technologyId : Uuid) : Prop :=
  ∃ row ∈ current, row.domainId = domainId ∧ row.technologyId = technologyId

/-- The entry that a row is read as. -/
structure ReadAs (catalogue : Catalogue) (row : CurrentRow) (entry : PersistedCurrentTechnology) :
    Prop where
  slugText : entry.slugText = entry.state.technologySlug.1
  technologyId : entry.technologyId = row.technologyId
  listed : Listed catalogue entry.state row.technologyId

theorem read_row {row : CurrentRow} {state : CurrentTechnology}
    (listed : Listed catalogue state row.technologyId) :
    ∃ joined entry, joinCurrent catalogue row = some joined ∧
      persistedCurrent joined = some entry ∧ ReadAs catalogue row entry := by
  have origin := listed
  obtain ⟨technology, category, known, sameId, placed, sameCategory⟩ := listed
  obtain ⟨member, sameSlug⟩ :=
    (find?_key_eq_some catalogue.technologies_slug_nodup).mp known
  have byId : catalogue.technologies.find? (fun other => other.id == row.technologyId) =
      some technology :=
    (find?_key_eq_some catalogue.technologies_id_nodup).mpr ⟨member, sameId⟩
  refine ⟨(row, technology, category), {
    slugText := technology.slug
    state := state
    technologyId := row.technologyId
    categoryId := category.id
    detectionId := row.currentDetectionId
    snapshotId := row.lastSnapshotId }, ?_, ?_, ?_⟩
  · simp only [joinCurrent, byId, placed, Option.bind_eq_bind, Option.bind_some]
  · simp only [persistedCurrent, sameSlug, sameCategory, Slug.parse_text, Option.bind_eq_bind,
      Option.bind_some]
  · exact ⟨sameSlug, rfl, origin⟩

/-- The entries are the domain's rows. -/
structure ReadBack (catalogue : Catalogue) (domainId : Uuid) (current : List CurrentRow)
    (previous : List PersistedCurrentTechnology) : Prop where
  sound : ∀ entry ∈ previous, ∃ row ∈ current, row.domainId = domainId ∧
    ReadAs catalogue row entry
  complete : ∀ row ∈ current, row.domainId = domainId → ∃ entry ∈ previous,
    ReadAs catalogue row entry

theorem previousTechnologies_eq_some (listed : AllListed catalogue current) :
    ∃ previous, previousTechnologies catalogue domainId current = some previous ∧
      ReadBack catalogue domainId current previous := by
  unfold previousTechnologies
  induction current with
  | nil => exact ⟨[], rfl, ⟨by simp, by simp⟩⟩
  | cons row rest ih =>
      obtain ⟨previous, success, ⟨sound, complete⟩⟩ :=
        ih fun other member => listed other (List.mem_cons_of_mem row member)
      by_cases own : row.domainId = domainId
      · obtain ⟨state, ownListed⟩ := listed row List.mem_cons_self
        obtain ⟨joined, entry, isJoined, isRead, reads⟩ := read_row ownListed
        refine ⟨entry :: previous, ?_, ⟨?_, ?_⟩⟩
        · rw [List.filter_cons_of_pos (by simpa using own), List.filterMap_cons_some isJoined,
            List.mapM_cons, isRead, success]
          rfl
        · intro other member
          rcases List.mem_cons.mp member with rfl | later
          · exact ⟨row, List.mem_cons_self, own, reads⟩
          · obtain ⟨source, inRest, facts⟩ := sound other later
            exact ⟨source, List.mem_cons_of_mem row inRest, facts⟩
        · intro other member same
          rcases List.mem_cons.mp member with rfl | later
          · exact ⟨entry, List.mem_cons_self, reads⟩
          · obtain ⟨found, inPrevious, facts⟩ := complete other later same
            exact ⟨found, List.mem_cons_of_mem entry inPrevious, facts⟩
      · refine ⟨previous, ?_, ⟨?_, ?_⟩⟩
        · rw [List.filter_cons_of_neg (by simpa using own)]
          exact success
        · intro other member
          obtain ⟨source, inRest, facts⟩ := sound other member
          exact ⟨source, List.mem_cons_of_mem row inRest, facts⟩
        · intro other member same
          rcases List.mem_cons.mp member with rfl | later
          · exact absurd same own
          · exact complete other later same

variable {domainId} {previous : List PersistedCurrentTechnology} {state : CurrentTechnology}
  {id : Uuid}

theorem ReadBack.wasCurrent_iff (reading : ReadBack catalogue domainId current previous)
    (known : idOf catalogue state.technologySlug.1 = some id) :
    wasCurrent (previous.map PersistedCurrentTechnology.state) state.technologySlug = true ↔
      Holds current domainId id := by
  rw [wasCurrent_eq_true]
  constructor
  · rintro ⟨_, member, same⟩
    obtain ⟨entry, inPrevious, rfl⟩ := List.mem_map.mp member
    obtain ⟨row, inCurrent, own, reads⟩ := reading.sound entry inPrevious
    have sameId : some row.technologyId = some id := by
      rw [← reads.listed.idOf, same, known]
    exact ⟨row, inCurrent, own, Option.some.inj sameId⟩
  · rintro ⟨row, inCurrent, own, rfl⟩
    obtain ⟨entry, inPrevious, reads⟩ := reading.complete row inCurrent own
    exact ⟨entry.state, List.mem_map_of_mem inPrevious,
      Subtype.ext (idOf_injective reads.listed.idOf known)⟩

/-- A technology that was current has an entry under its slug. -/
theorem ReadBack.find (reading : ReadBack catalogue domainId current previous)
    (present : wasCurrent (previous.map PersistedCurrentTechnology.state) state.technologySlug = true) :
    ∃ entry, previous.find? (fun entry => entry.slugText == state.technologySlug.1) = some entry ∧
      idOf catalogue state.technologySlug.1 = some entry.technologyId := by
  obtain ⟨_, member, same⟩ := wasCurrent_eq_true.mp present
  obtain ⟨entry, inPrevious, rfl⟩ := List.mem_map.mp member
  have isSome : (previous.find? fun entry => entry.slugText == state.technologySlug.1).isSome := by
    obtain ⟨row, _, _, reads⟩ := reading.sound entry inPrevious
    rw [List.find?_isSome]
    exact ⟨entry, inPrevious, by rw [reads.slugText, same, beq_self_eq_true]⟩
  obtain ⟨found, isFound⟩ := Option.isSome_iff_exists.mp isSome
  obtain ⟨inPrevious, slug⟩ := find?_eq_some_mem isFound
  obtain ⟨row, _, _, reads⟩ := reading.sound found inPrevious
  refine ⟨found, isFound, ?_⟩
  rw [← beq_iff_eq.mp slug, reads.slugText, reads.listed.idOf, reads.technologyId]

end Previous

section Operations

variable {catalogue : Catalogue} {domainId snapshotId : Uuid} {capturedAt : Time}
  {current next : List CurrentRow} {domain technology : Uuid}

theorem deactivate_holds {state : CurrentTechnology} :
    Holds (deactivate catalogue domainId current state) domain technology ↔
      Holds current domain technology ∧
        ¬(domain = domainId ∧ idOf catalogue state.technologySlug.1 = some technology) := by
  have deleted (row : CurrentRow) : (row.domainId == domainId && catalogue.technologies.any
      fun technology => technology.id == row.technologyId &&
        technology.slug == state.technologySlug.1) = true ↔
      row.domainId = domainId ∧
        idOf catalogue state.technologySlug.1 = some row.technologyId := by
    simp only [Bool.and_eq_true, beq_iff_eq, List.any_eq_true, idOf_eq_some]
    constructor
    · rintro ⟨own, technology, member, sameId, sameSlug⟩
      exact ⟨own, technology, member, sameSlug, sameId⟩
    · rintro ⟨own, technology, member, sameSlug, sameId⟩
      exact ⟨own, technology, member, sameId, sameSlug⟩
  constructor
  · rintro ⟨row, member, rfl, rfl⟩
    obtain ⟨inCurrent, kept⟩ := List.mem_filter.mp member
    refine ⟨⟨row, inCurrent, rfl, rfl⟩, ?_⟩
    rw [← deleted row, Bool.not_eq_true]
    exact (Bool.not_eq_true' _).mp kept
  · rintro ⟨⟨row, member, rfl, rfl⟩, kept⟩
    rw [← deleted row, Bool.not_eq_true] at kept
    exact ⟨row, List.mem_filter.mpr ⟨member, (Bool.not_eq_true' _).mpr kept⟩, rfl, rfl⟩

theorem deactivateAll_holds {states : List CurrentTechnology} :
    Holds (states.foldl (deactivate catalogue domainId) current) domain technology ↔
      Holds current domain technology ∧ ¬(domain = domainId ∧ ∃ state ∈ states,
        idOf catalogue state.technologySlug.1 = some technology) := by
  induction states generalizing current with
  | nil => simp
  | cons state rest ih =>
      rw [List.foldl_cons, ih, deactivate_holds, List.exists_mem_cons_iff, and_assoc, ← not_or,
        ← and_or_left]

/-- Only the two columns of the primary key matter. -/
theorem holds_iff_mem : Holds current domain technology ↔
    (domain, technology) ∈ current.map fun row => (row.domainId, row.technologyId) := by
  simp [Holds, List.mem_map]

theorem upsertCurrent_holds {technologyId detectionId : Uuid}
    (success : upsertCurrent domainId snapshotId capturedAt current technologyId detectionId =
      some next) :
    Holds next domain technology ↔
      Holds current domain technology ∨ (domain = domainId ∧ technology = technologyId) := by
  unfold upsertCurrent at success
  dsimp only at success
  split at success
  · rename_i present
    obtain ⟨_, rfl⟩ := updateChecked_eq_some.mp success
    obtain ⟨old, inCurrent, selected⟩ := List.any_eq_true.mp present
    simp only [Bool.and_eq_true, beq_iff_eq] at selected
    rw [holds_iff_mem, updateWhere_map _ fun _ => by rfl, ← holds_iff_mem]
    constructor
    · exact Or.inl
    · rintro (held | ⟨rfl, rfl⟩)
      · exact held
      · exact ⟨old, inCurrent, selected⟩
  · cases success
    rw [holds_iff_mem, List.map_append, List.mem_append, ← holds_iff_mem]
    simp

theorem activate_eq {ids : DetectionIds} {state : CurrentTechnology} {id detectionId : Uuid}
    (listed : Listed catalogue state id)
    (identified : ids.lookup state.technologySlug = some detectionId) :
    activate catalogue domainId snapshotId capturedAt ids current state =
      orError (upsertCurrent domainId snapshotId capturedAt current id detectionId) .database := by
  obtain ⟨technology, category, known, rfl, placed, same⟩ := listed
  simp only [activate, identified, known, placed, same, ↓reduceIte]
  rfl

/-- The detected technologies have identifiers, in the catalogue and among the
detections of the snapshot. -/
def Identified (catalogue : Catalogue) (ids : DetectionIds) (state : CurrentTechnology) : Prop :=
  (∃ id, Listed catalogue state id) ∧ ∃ detectionId, ids.lookup state.technologySlug = some detectionId

theorem activateAll_holds {ids : DetectionIds} {states : List CurrentTechnology}
    (identified : ∀ state ∈ states, Identified catalogue ids state)
    (success : states.foldlM (activate catalogue domainId snapshotId capturedAt ids) current =
      .ok next) :
    Holds next domain technology ↔
      Holds current domain technology ∨ (domain = domainId ∧ ∃ state ∈ states,
        idOf catalogue state.technologySlug.1 = some technology) := by
  induction states generalizing current with
  | nil =>
      cases success
      simp
  | cons state rest ih =>
      obtain ⟨⟨id, listed⟩, detectionId, found⟩ := identified state List.mem_cons_self
      rw [List.foldlM_cons, activate_eq listed found] at success
      obtain ⟨mid, upserted, success⟩ := bind_eq_ok.mp success
      rw [ih (fun other member => identified other (List.mem_cons_of_mem state member)) success,
        upsertCurrent_holds (orError_eq_ok.mp upserted), List.exists_mem_cons_iff, listed.idOf,
        Option.some.injEq, and_or_left, or_assoc, @eq_comm _ id]

theorem activateAll_error {ids : DetectionIds} {states : List CurrentTechnology}
    (identified : ∀ state ∈ states, Identified catalogue ids state) {reason : UnavailableReason}
    (failure : states.foldlM (activate catalogue domainId snapshotId capturedAt ids) current =
      .error reason) : reason = .database := by
  induction states generalizing current with
  | nil => cases failure
  | cons state rest ih =>
      obtain ⟨⟨id, listed⟩, detectionId, found⟩ := identified state List.mem_cons_self
      rw [List.foldlM_cons, activate_eq listed found] at failure
      rcases bind_eq_error.mp failure with here | ⟨mid, _, later⟩
      · exact reason_of_orError here
      · exact ih (fun other member => identified other (List.mem_cons_of_mem state member)) later

end Operations

section Changes

variable {catalogue : Catalogue} (domainId snapshotId : Uuid) (capturedAt : Time)
  {previous : List PersistedCurrentTechnology} {ids : DetectionIds}
  {additions removals : List CurrentTechnology}

/-- What a row of `technology_changes` does to the set of a domain's technologies. -/
def delta (row : ChangeRow) : Delta Uuid :=
  match row.kind with
  | .added => { removed := none, added := row.toTechnologyId }
  | .removed => { removed := row.fromTechnologyId, added := none }
  | .migrated => { removed := row.fromTechnologyId, added := row.toTechnologyId }

def changeDelta (catalogue : Catalogue) (change : TechnologyChange) : Delta Uuid where
  removed := change.source.bind fun state => idOf catalogue state.technologySlug.1
  added := change.target.bind fun state => idOf catalogue state.technologySlug.1

/-- The entry that the slug of a removal is looked up to. -/
def Persisted (catalogue : Catalogue) (previous : List PersistedCurrentTechnology)
    (state : CurrentTechnology) : Prop :=
  ∃ entry, previous.find? (fun entry => entry.slugText == state.technologySlug.1) = some entry ∧
    idOf catalogue state.technologySlug.1 = some entry.technologyId

theorem changeRow_eq_ok {change : TechnologyChange}
    (identified : ∀ addition ∈ additions, Identified catalogue ids addition)
    (persisted : ∀ removal ∈ removals, Persisted catalogue previous removal)
    (member : change ∈ unsortedChanges additions removals) :
    ∃ row, changeRow catalogue domainId snapshotId capturedAt previous ids change = .ok row ∧
      row.domainId = domainId ∧ row.shapeValid = true ∧ delta row = changeDelta catalogue change := by
  rcases mem_unsortedChanges member with ⟨addition, inAdditions, removal, inRemovals, rfl⟩ |
    ⟨addition, inAdditions, rfl⟩ | ⟨removal, inRemovals, rfl⟩
  · obtain ⟨⟨id, listed⟩, detectionId, found⟩ := identified addition inAdditions
    have addedId := listed.idOf
    obtain ⟨technology, _, known, rfl, _⟩ := listed
    obtain ⟨entry, isEntry, entryId⟩ := persisted removal inRemovals
    refine ⟨_, by simp only [changeRow, Option.bind_some, isEntry]; rfl, rfl, ?_, ?_⟩
    · simp [ChangeRow.shapeValid, found, known]
    · simp [delta, changeDelta, entryId, addedId, known]
  · obtain ⟨⟨id, technology, category, known, _, placed, sameSlug⟩, detectionId, found⟩ :=
      identified addition inAdditions
    have inCategories := (find?_eq_some_mem placed).1
    have byCategory : catalogue.categories.find? (fun category =>
        category.slug == addition.technologyCategorySlug.1) = some category :=
      (find?_key_eq_some catalogue.categories_slug_nodup).mpr ⟨inCategories, sameSlug⟩
    refine ⟨_, by simp only [changeRow, Option.bind_none, byCategory]; rfl, rfl, ?_, ?_⟩
    · simp [ChangeRow.shapeValid, found, known]
    · simp [delta, changeDelta, idOf, known]
  · obtain ⟨entry, isEntry, entryId⟩ := persisted removal inRemovals
    refine ⟨_, by simp only [changeRow, Option.bind_some, isEntry]; rfl, rfl, ?_, ?_⟩
    · simp [ChangeRow.shapeValid]
    · simp [delta, changeDelta, entryId]

theorem insertChanges_eq_ok {changes : List TechnologyChange} {rows : List ChangeRow}
    (identified : ∀ addition ∈ additions, Identified catalogue ids addition)
    (persisted : ∀ removal ∈ removals, Persisted catalogue previous removal)
    (derived : ∀ change ∈ changes, change ∈ unsortedChanges additions removals) :
    ∃ added, changes.foldlM (insertChange catalogue domainId snapshotId capturedAt previous ids) rows =
        .ok (rows ++ added) ∧
      (∀ row ∈ added, row.domainId = domainId ∧ row.shapeValid = true) ∧
      added.map delta = changes.map (changeDelta catalogue) := by
  induction changes generalizing rows with
  | nil => exact ⟨[], by rw [List.append_nil]; rfl, by simp, rfl⟩
  | cons change rest ih =>
      obtain ⟨row, built, own, shaped, same⟩ := changeRow_eq_ok domainId snapshotId capturedAt
        identified persisted (derived change List.mem_cons_self)
      have first : insertChange catalogue domainId snapshotId capturedAt previous ids rows change =
          .ok (rows ++ [row]) :=
        bind_eq_ok.mpr ⟨row, built, bind_eq_ok.mpr ⟨(), require_eq_ok.mpr shaped, rfl⟩⟩
      have derivedRest : ∀ other ∈ rest, other ∈ unsortedChanges additions removals :=
        fun other member => derived other (List.mem_cons_of_mem change member)
      obtain ⟨added, inserted, facts, deltas⟩ := @ih (rows ++ [row]) derivedRest
      refine ⟨row :: added, ?_, ?_, ?_⟩
      · rw [List.foldlM_cons, List.append_cons]
        exact bind_eq_ok.mpr ⟨_, first, inserted⟩
      · intro other member
        rcases List.mem_cons.mp member with rfl | later
        · exact ⟨own, shaped⟩
        · exact facts other later
      · rw [List.map_cons, List.map_cons, same, deltas]

end Changes

section Derived

variable {catalogue : Catalogue} {domainId technology : Uuid} {current : List CurrentRow}
  {previous : List PersistedCurrentTechnology} {observations : List RuleObservation}
  {gained lost : List CurrentTechnology}

/-- The technologies of a domain, by its rows. -/
def currentTechnologies (domainId : Uuid) (current : List CurrentRow) : Finset Uuid :=
  ((current.filter fun row => row.domainId == domainId).map CurrentRow.technologyId).toFinset

theorem mem_currentTechnologies :
    technology ∈ currentTechnologies domainId current ↔ Holds current domainId technology := by
  simp [currentTechnologies, Holds, and_assoc]

def sortedDeltas (catalogue : Catalogue) (gained lost : List CurrentTechnology) :
    List (Delta Uuid) :=
  ((unsortedChanges gained lost).insertionSort fun left right => left.le right).map
    (changeDelta catalogue)

theorem mem_sortedDeltas {entry : Delta Uuid} :
    entry ∈ sortedDeltas catalogue gained lost ↔
      ∃ change ∈ unsortedChanges gained lost, changeDelta catalogue change = entry := by
  simp [sortedDeltas, List.mem_insertionSort]

theorem exists_added :
    (∃ entry ∈ sortedDeltas catalogue gained lost, entry.added = some technology) ↔
      ∃ addition ∈ gained, idOf catalogue addition.technologySlug.1 = some technology := by
  constructor
  · rintro ⟨entry, member, added⟩
    obtain ⟨change, inChanges, rfl⟩ := mem_sortedDeltas.mp member
    rcases mem_unsortedChanges inChanges with ⟨addition, inAdditions, _, _, rfl⟩ |
      ⟨addition, inAdditions, rfl⟩ | ⟨_, _, rfl⟩
    · exact ⟨addition, inAdditions, added⟩
    · exact ⟨addition, inAdditions, added⟩
    · cases added
  · rintro ⟨addition, member, known⟩
    obtain ⟨change, inChanges, state, target, same⟩ :=
      exists_change_to lost member
    refine ⟨_, mem_sortedDeltas.mpr ⟨change, inChanges, rfl⟩, ?_⟩
    rw [changeDelta, target, Option.bind_some, same, known]

variable (gained) in
theorem exists_removed :
    (∃ entry ∈ sortedDeltas catalogue gained lost, entry.removed = some technology) ↔
      ∃ removal ∈ lost, idOf catalogue removal.technologySlug.1 = some technology := by
  constructor
  · rintro ⟨entry, member, removed⟩
    obtain ⟨change, inChanges, rfl⟩ := mem_sortedDeltas.mp member
    rcases mem_unsortedChanges inChanges with ⟨_, _, removal, inRemovals, rfl⟩ |
      ⟨_, _, rfl⟩ | ⟨removal, inRemovals, rfl⟩
    · exact ⟨removal, inRemovals, removed⟩
    · cases removed
    · exact ⟨removal, inRemovals, removed⟩
  · rintro ⟨removal, member, known⟩
    obtain ⟨change, inChanges, state, source, same⟩ :=
      exists_change_from gained member
    refine ⟨_, mem_sortedDeltas.mpr ⟨change, inChanges, rfl⟩, ?_⟩
    rw [changeDelta, source, Option.bind_some, same, known]

/-- What is added was not current and what is removed was. -/
theorem sortedDeltas_consistent (states : List CurrentTechnology) :
    Consistent (sortedDeltas catalogue (additions states observations)
      (removals states observations)) := by
  intro technology adds entry member removed
  obtain ⟨addition, inAdditions, addedId⟩ := exists_added.mp adds
  obtain ⟨removal, inRemovals, removedId⟩ := (exists_removed _).mp ⟨entry, member, removed⟩
  have absent := (List.mem_filter.mp inAdditions).2
  have present := (List.mem_filter.mp inRemovals).2
  rw [Subtype.ext (idOf_injective addedId removedId), present] at absent
  cases absent

theorem filterMap_idOf_nodup {slugs : List TechnologySlug} (distinct : slugs.Nodup) :
    (slugs.filterMap fun slug => idOf catalogue slug.1).Nodup := by
  refine distinct.filterMap ?_
  intro left right id inLeft inRight
  exact Subtype.ext (idOf_injective inLeft inRight)

theorem sortedDeltas_added :
    (sortedDeltas catalogue gained lost).filterMap Delta.added =
      (migratedTargets ((unsortedChanges gained lost).insertionSort
        fun left right => left.le right)).filterMap fun slug => idOf catalogue slug.1 := by
  rw [sortedDeltas, migratedTargets, List.filterMap_map, List.filterMap_filterMap]
  apply List.filterMap_congr
  intro change _
  cases target : change.target <;> simp [changeDelta, target]

theorem sortedDeltas_removed :
    (sortedDeltas catalogue gained lost).filterMap Delta.removed =
      (migratedSources ((unsortedChanges gained lost).insertionSort
        fun left right => left.le right)).filterMap fun slug => idOf catalogue slug.1 := by
  rw [sortedDeltas, migratedSources, List.filterMap_map, List.filterMap_filterMap]
  apply List.filterMap_congr
  intro change _
  cases source : change.source <;> simp [changeDelta, source]

/-- The changes of one projection take out what the domain has and put in what
it does not have, each technology once. -/
theorem derived_applicable (reading : ReadBack catalogue domainId current previous)
    (distinct : (observations.map RuleObservation.technologySlug).Nodup)
    {transition : ProjectionTransition}
    (derived : transition =
      deriveProjection (previous.map PersistedCurrentTechnology.state) observations) :
    Applicable (currentTechnologies domainId current)
      (transition.changes.map (changeDelta catalogue)) := by
  subst derived
  let states := previous.map PersistedCurrentTechnology.state
  have gainedOnce : ((additions states observations).map CurrentTechnology.technologySlug).Nodup :=
    observedAs_slugs_nodup distinct
  have lostOnce : ((removals states observations).map CurrentTechnology.technologySlug).Nodup :=
    observedAs_slugs_nodup distinct
  have sorted := List.perm_insertionSort
    (fun left right : TechnologyChange => (left.le right : Prop))
    (unsortedChanges (additions states observations) (removals states observations))
  change Applicable _ (sortedDeltas catalogue (additions states observations)
    (removals states observations))
  refine applicable_of_distinct ?_ ?_ ?_ ?_
  · rw [sortedDeltas_removed]
    apply filterMap_idOf_nodup
    exact (sorted.filterMap _).nodup_iff.mpr (migratedSources_nodup gainedOnce lostOnce)
  · rw [sortedDeltas_added]
    apply filterMap_idOf_nodup
    exact (sorted.filterMap _).nodup_iff.mpr (migratedTargets_nodup _ gainedOnce)
  · intro technology member
    obtain ⟨entry, inLog, removed⟩ := List.mem_filterMap.mp member
    obtain ⟨removal, inRemovals, known⟩ := (exists_removed _).mp ⟨entry, inLog, removed⟩
    rw [mem_currentTechnologies, ← reading.wasCurrent_iff known]
    exact (List.mem_filter.mp inRemovals).2
  · intro technology member
    obtain ⟨entry, inLog, added⟩ := List.mem_filterMap.mp member
    obtain ⟨addition, inAdditions, known⟩ := exists_added.mp ⟨entry, inLog, added⟩
    rw [mem_currentTechnologies, ← reading.wasCurrent_iff known]
    simpa using (List.mem_filter.mp inAdditions).2

/-- A technology is not observed as both detected and absent. -/
theorem detected_not_removed (distinct : (observations.map RuleObservation.technologySlug).Nodup)
    {states : List CurrentTechnology} {state removal : CurrentTechnology}
    (detected : state ∈ observedAs observations .detected)
    (removed : removal ∈ removals states observations) :
    state.technologySlug ≠ removal.technologySlug := by
  intro same
  obtain ⟨first, inFirst, isDetected, rfl⟩ := mem_observedAs.mp detected
  obtain ⟨second, inSecond, isAbsent, rfl⟩ := mem_observedAs.mp (List.mem_of_mem_filter removed)
  rw [eq_of_key_eq distinct inFirst inSecond same, isAbsent] at isDetected
  cases isDetected

/-- Replaying the derived changes on what was current gives what the projection
makes current. -/
theorem replay_derived (reading : ReadBack catalogue domainId current previous)
    (distinct : (observations.map RuleObservation.technologySlug).Nodup)
    {transition : ProjectionTransition}
    (derived : transition =
      deriveProjection (previous.map PersistedCurrentTechnology.state) observations) :
    technology ∈ replay (currentTechnologies domainId current)
        (transition.changes.map (changeDelta catalogue)) ↔
      (Holds current domainId technology ∧ ¬∃ state ∈ transition.deactivate,
          idOf catalogue state.technologySlug.1 = some technology) ∨
        ∃ state ∈ transition.activate, idOf catalogue state.technologySlug.1 = some technology := by
  subst derived
  let states := previous.map PersistedCurrentTechnology.state
  let transition := deriveProjection states observations
  have log : transition.changes.map (changeDelta catalogue) =
      sortedDeltas catalogue (additions states observations) (removals states observations) := rfl
  have untouched : (∀ entry ∈ sortedDeltas catalogue (additions states observations)
      (removals states observations), entry.removed ≠ some technology) ↔
      ¬∃ removal ∈ removals states observations,
        idOf catalogue removal.technologySlug.1 = some technology := by
    rw [← exists_removed (additions states observations)]
    simp only [not_exists, not_and, ne_eq]
  have off : (∃ state ∈ transition.deactivate,
      idOf catalogue state.technologySlug.1 = some technology) ↔
      ∃ removal ∈ removals states observations,
        idOf catalogue removal.technologySlug.1 = some technology :=
    exists_mem_sortedBySlug (P := fun slug => idOf catalogue slug.1 = some technology)
  have on : (∃ state ∈ transition.activate,
      idOf catalogue state.technologySlug.1 = some technology) ↔
      ∃ state ∈ observedAs observations .detected,
        idOf catalogue state.technologySlug.1 = some technology :=
    exists_mem_sortedBySlug (P := fun slug => idOf catalogue slug.1 = some technology)
  change _ ↔ (_ ∧ ¬∃ state ∈ transition.deactivate, _) ∨ ∃ state ∈ transition.activate, _
  rw [log, mem_replay (sortedDeltas_consistent states), exists_added, mem_currentTechnologies,
    untouched, off, on]
  constructor
  · rintro (⟨addition, member, known⟩ | kept)
    · exact Or.inr ⟨addition, List.mem_of_mem_filter member, known⟩
    · exact Or.inl kept
  · rintro (kept | ⟨state, detected, known⟩)
    · exact Or.inr kept
    · by_cases held : Holds current domainId technology
      · refine Or.inr ⟨held, ?_⟩
        rintro ⟨removal, removed, same⟩
        exact detected_not_removed distinct detected removed
          (Subtype.ext (idOf_injective known same))
      · have absent : wasCurrent states state.technologySlug = false := by
          rw [← Bool.not_eq_true, reading.wasCurrent_iff known]
          exact held
        exact Or.inl ⟨state, List.mem_filter.mpr ⟨detected, by rw [absent]; rfl⟩, known⟩

end Derived

section Applied

variable {catalogue : Catalogue} {domainId snapshotId : Uuid} {capturedAt : Time}
  {history next : History} {detections : List Detection} {observations : List RuleObservation}
  {ids : DetectionIds}

theorem insertObservation_eq_some {observation : RuleObservation}
    (success : insertObservation catalogue snapshotId capturedAt history observation = some next) :
    (next.current = history.current ∧ next.changes = history.changes) ∧
      ∃ id, Listed catalogue observation.state id := by
  simp only [insertObservation, Option.bind_eq_bind, Option.bind_eq_some_iff, Option.some.injEq]
    at success
  obtain ⟨_, found, _, _, rfl⟩ := success
  exact ⟨⟨rfl, rfl⟩, listed_of_ruleVersionFor found⟩

/-- Every observation that is stored is of a technology the catalogue lists. -/
theorem insertObservations_eq_some
    (success : observations.foldlM (insertObservation catalogue snapshotId capturedAt) history =
      some next) :
    (next.current = history.current ∧ next.changes = history.changes) ∧
      ∀ observation ∈ observations, ∃ id, Listed catalogue observation.state id := by
  induction observations generalizing history with
  | nil =>
      cases success
      exact ⟨⟨rfl, rfl⟩, by simp⟩
  | cons observation rest ih =>
      rw [List.foldlM_cons, Option.bind_eq_bind, Option.bind_eq_some_iff] at success
      obtain ⟨mid, inserted, success⟩ := success
      obtain ⟨⟨sameCurrent, sameChanges⟩, listed⟩ := insertObservation_eq_some inserted
      obtain ⟨⟨restCurrent, restChanges⟩, restListed⟩ := ih success
      refine ⟨⟨restCurrent.trans sameCurrent, restChanges.trans sameChanges⟩, ?_⟩
      intro other member
      rcases List.mem_cons.mp member with rfl | later
      · exact listed
      · exact restListed other later

/-- Every detection of the snapshot has an identifier under its technology. -/
def AllStored (detections : List Detection) (ids : DetectionIds) : Prop :=
  ∀ detection ∈ detections, ∃ id, ids.lookup detection.technologySlug = some id

theorem lookup_cons_of_some (other : TechnologySlug) (fresh : Uuid) {slug : TechnologySlug}
    {id : Uuid} (found : ids.lookup slug = some id) :
    ∃ newest, ((other, fresh) :: ids).lookup slug = some newest := by
  by_cases same : slug = other
  · exact ⟨fresh, by rw [same, List.lookup_cons_self]⟩
  · refine ⟨id, ?_⟩
    rw [List.lookup_cons, beq_eq_false_iff_ne.mpr same]
    exact found

theorem recordDetections_keeps {fresh : Nat → Uuid} {n : Nat} {stored : DetectionIds}
    (success : recordDetections catalogue snapshotId capturedAt fresh history ids n detections =
      some (next, stored)) {slug : TechnologySlug} {id : Uuid}
    (found : ids.lookup slug = some id) : ∃ kept, stored.lookup slug = some kept := by
  induction detections generalizing history ids n id with
  | nil =>
      cases success
      exact ⟨id, found⟩
  | cons detection rest ih =>
      simp only [recordDetections, Option.bind_eq_bind, Option.bind_eq_some_iff] at success
      obtain ⟨mid, _, success⟩ := success
      obtain ⟨newest, still⟩ := lookup_cons_of_some detection.technologySlug (fresh n) found
      exact ih success still

theorem recordDetections_eq_some {fresh : Nat → Uuid} {n : Nat} {stored : DetectionIds}
    (success : recordDetections catalogue snapshotId capturedAt fresh history ids n detections =
      some (next, stored)) :
    (next.current = history.current ∧ next.changes = history.changes) ∧
      AllStored detections stored := by
  induction detections generalizing history ids n with
  | nil =>
      cases success
      exact ⟨⟨rfl, rfl⟩, by simp [AllStored]⟩
  | cons detection rest ih =>
      simp only [recordDetections, Option.bind_eq_bind, Option.bind_eq_some_iff] at success
      obtain ⟨mid, inserted, success⟩ := success
      have same : mid.current = history.current ∧ mid.changes = history.changes := by
        simp only [insertDetection, Option.bind_eq_bind, Option.bind_eq_some_iff,
          Option.some.injEq] at inserted
        obtain ⟨_, _, _, _, rfl⟩ := inserted
        exact ⟨rfl, rfl⟩
      obtain ⟨restSame, restStored⟩ := ih success
      refine ⟨⟨restSame.1.trans same.1, restSame.2.trans same.2⟩, ?_⟩
      intro other member
      rcases List.mem_cons.mp member with rfl | later
      · exact recordDetections_keeps success List.lookup_cons_self
      · exact restStored other later

theorem insertObservations_detections
    (success : observations.foldlM (insertObservation catalogue snapshotId capturedAt) history =
      some next) : next.detections = history.detections := by
  induction observations generalizing history with
  | nil =>
      cases success
      rfl
  | cons observation rest ih =>
      rw [List.foldlM_cons, Option.bind_eq_bind, Option.bind_eq_some_iff] at success
      obtain ⟨mid, inserted, success⟩ := success
      simp only [insertObservation, Option.bind_eq_bind, Option.bind_eq_some_iff,
        Option.some.injEq] at inserted
      obtain ⟨_, _, _, _, rfl⟩ := inserted
      exact (ih success : next.detections = _)

/-- The rows of the detections are of the snapshot, one for each technology. -/
theorem recordDetections_rows {fresh : Nat → Uuid} {n : Nat} {stored : DetectionIds}
    (success : recordDetections catalogue snapshotId capturedAt fresh history ids n detections =
      some (next, stored)) :
    ∃ added, next.detections = history.detections ++ added ∧
      (∀ row ∈ added, row.crawlSnapshotId = snapshotId) ∧
      ∀ technology, (∃ row ∈ added, row.technologyId = technology) ↔
        ∃ detection ∈ detections, idOf catalogue detection.technologySlug.1 = some technology := by
  induction detections generalizing history ids n with
  | nil =>
      cases success
      exact ⟨[], by simp, by simp, by simp⟩
  | cons detection rest ih =>
      simp only [recordDetections, Option.bind_eq_bind, Option.bind_eq_some_iff] at success
      obtain ⟨mid, inserted, success⟩ := success
      obtain ⟨added, appended, own, technologies⟩ := ih success
      simp only [insertDetection, Option.bind_eq_bind, Option.bind_eq_some_iff,
        Option.some.injEq, insertChecked_eq_some] at inserted
      obtain ⟨⟨technology, version⟩, found, rows, ⟨_, rfl⟩, rfl⟩ := inserted
      have known := idOf_of_ruleVersionFor found
      refine ⟨_ :: added, by rw [appended, List.append_assoc]; rfl, ?_, ?_⟩
      · intro row member
        rcases List.mem_cons.mp member with rfl | later
        · rfl
        · exact own row later
      · intro other
        rw [List.exists_mem_cons_iff, List.exists_mem_cons_iff, technologies other, known,
          Option.some.injEq]

theorem recordHistory_eq_ok {fresh : FreshSnapshot} {record : SuccessfulCrawlRecord}
    (success : recordHistory catalogue domainId fresh record history = .ok next) :
    let capturedAt := record.snapshot.capturedAt
    ∃ detected ids observed previous current changes,
      recordDetections catalogue fresh.snapshotId capturedAt fresh.detectionId history [] 0
        record.detections = some (detected, ids) ∧
      record.observations.foldlM (insertObservation catalogue fresh.snapshotId capturedAt) detected =
        some observed ∧
      previousTechnologies catalogue domainId observed.current = some previous ∧
      (deriveProjection (previous.map PersistedCurrentTechnology.state)
          record.observations).activate.foldlM
        (activate catalogue domainId fresh.snapshotId capturedAt ids)
        ((deriveProjection (previous.map PersistedCurrentTechnology.state)
          record.observations).deactivate.foldl (deactivate catalogue domainId) observed.current) =
        .ok current ∧
      (deriveProjection (previous.map PersistedCurrentTechnology.state)
          record.observations).changes.foldlM
        (insertChange catalogue domainId fresh.snapshotId capturedAt previous ids)
        observed.changes = .ok changes ∧
      next = { observed with current := current, changes := changes } := by
  obtain ⟨⟨detected, ids⟩, recorded, projected⟩ := bind_eq_ok.mp success
  obtain ⟨observed, inserted, projected⟩ := bind_eq_ok.mp projected
  obtain ⟨previous, read, projected⟩ := bind_eq_ok.mp projected
  obtain ⟨current, activated, projected⟩ := bind_eq_ok.mp projected
  obtain ⟨changes, logged, same⟩ := bind_eq_ok.mp projected
  exact ⟨detected, ids, observed, previous, current, changes, orError_eq_ok.mp recorded,
    orError_eq_ok.mp inserted, orError_eq_ok.mp read, activated, logged,
    (Except.ok.inj same).symm⟩

end Applied

end TechAtlas.Technologies
