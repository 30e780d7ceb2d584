import TechAtlas.Store.PublicRead
import TechAtlas.Technologies.Agreement

set_option autoImplicit false

/- The net changes of the public pages, against the technologies the domains
have now and those they had before the time the changes are counted from. -/
namespace TechAtlas.Technologies

open Library Store Detector

section Observed

/-- The snapshots in the order they were captured in. -/
def CapturedInOrder (db : Database) : Prop :=
  (db.snapshots.map SnapshotRow.capturedAt).Pairwise (· ≤ ·)

instance (db : Database) : Decidable (CapturedInOrder db) :=
  inferInstanceAs (Decidable (List.Pairwise _ _))

theorem changeRow_observedAt {catalogue : Catalogue} {domainId snapshotId : Uuid}
    {capturedAt : Time} {previous : List PersistedCurrentTechnology} {ids : DetectionIds}
    {change : TechnologyChange} {row : ChangeRow}
    (success : changeRow catalogue domainId snapshotId capturedAt previous ids change = .ok row) :
    row.observedAt = capturedAt := by
  unfold changeRow at success
  dsimp only at success
  split at success
  · cases success
    rfl
  · obtain ⟨categoryId, _, built⟩ := bind_eq_ok.mp success
    cases built
    rfl
  · cases success

theorem insertChanges_observedAt {catalogue : Catalogue} {domainId snapshotId : Uuid}
    {capturedAt : Time} {previous : List PersistedCurrentTechnology} {ids : DetectionIds}
    {changes : List TechnologyChange} {rows next : List ChangeRow}
    (success : changes.foldlM (insertChange catalogue domainId snapshotId capturedAt previous ids)
      rows = .ok next) :
    ∃ added, next = rows ++ added ∧ ∀ row ∈ added, row.observedAt = capturedAt := by
  induction changes generalizing rows with
  | nil =>
      cases success
      exact ⟨[], by simp, by simp⟩
  | cons change rest ih =>
      rw [List.foldlM_cons] at success
      obtain ⟨mid, inserted, later⟩ := bind_eq_ok.mp success
      obtain ⟨row, built, appended⟩ := bind_eq_ok.mp inserted
      obtain ⟨_, _, same⟩ := bind_eq_ok.mp appended
      cases same
      obtain ⟨added, rfl, times⟩ := ih later
      refine ⟨row :: added, by rw [List.append_assoc]; rfl, ?_⟩
      intro other member
      rcases List.mem_cons.mp member with rfl | inAdded
      · exact changeRow_observedAt built
      · exact times other inAdded

theorem recordHistory_observedAt {catalogue : Catalogue} {domainId : Uuid} {fresh : FreshSnapshot}
    {record : SuccessfulCrawlRecord} {history next : History}
    (success : recordHistory catalogue domainId fresh record history = .ok next) :
    ∃ added, next.changes = history.changes ++ added ∧
      ∀ row ∈ added, row.observedAt = record.snapshot.capturedAt := by
  obtain ⟨_, _, _, _, _, _, recorded, inserted, _, _, logged, rfl⟩ := recordHistory_eq_ok success
  obtain ⟨⟨_, sameChanges⟩, _⟩ := recordDetections_eq_some recorded
  obtain ⟨⟨_, stillChanges⟩, _⟩ := insertObservations_eq_some inserted
  obtain ⟨added, appended, times⟩ := insertChanges_observedAt logged
  refine ⟨added, ?_, times⟩
  rw [appended, stillChanges, sameChanges]

/-- The changes are dated by the snapshots, in their order. -/
structure Dated (db : Database) : Prop where
  dated : ∀ row ∈ db.history.changes, ∃ snapshot ∈ db.snapshots,
    snapshot.capturedAt = row.observedAt
  ordered : CapturedInOrder db →
    (db.history.changes.map ChangeRow.observedAt).Pairwise (· ≤ ·)

theorem Dated.of_same {db next : Database} (dated : Dated db)
    (snapshots : next.snapshots = db.snapshots) (history : next.history = db.history) :
    Dated next := by
  constructor
  · rw [snapshots, history]
    exact dated.dated
  · unfold CapturedInOrder
    rw [snapshots, history]
    exact dated.ordered

/-- A success adds one snapshot and changes of its time. -/
theorem Dated.record {db next : Database} (dated : Dated db) {row : SnapshotRow}
    {added : List ChangeRow} (snapshots : next.snapshots = db.snapshots ++ [row])
    (changes : next.history.changes = db.history.changes ++ added)
    (times : ∀ change ∈ added, change.observedAt = row.capturedAt) : Dated next := by
  constructor
  · rw [snapshots, changes]
    intro change member
    rcases List.mem_append.mp member with old | new
    · obtain ⟨snapshot, stored, same⟩ := dated.dated change old
      exact ⟨snapshot, List.mem_append_left [row] stored, same⟩
    · exact ⟨row, by simp, (times change new).symm⟩
  · unfold CapturedInOrder
    rw [snapshots, changes, List.map_append, List.map_append, List.pairwise_append,
      List.pairwise_append]
    rintro ⟨before, _, latest⟩
    have constant : ∀ time ∈ added.map ChangeRow.observedAt, time = row.capturedAt := by
      intro time member
      obtain ⟨change, inAdded, rfl⟩ := List.mem_map.mp member
      exact times change inAdded
    refine ⟨dated.ordered before, ?_, ?_⟩
    · rw [List.eq_replicate_of_mem constant, List.pairwise_replicate]
      exact Or.inr le_rfl
    · intro old inOld time inAdded
      obtain ⟨change, inChanges, rfl⟩ := List.mem_map.mp inOld
      obtain ⟨snapshot, stored, same⟩ := dated.dated change inChanges
      rw [constant time inAdded, ← same]
      exact latest _ (List.mem_map_of_mem stored) _ (by simp)

theorem step_dated {crate : UrlCrate} (db : Database) (action : Action)
    (both : Keys db ∧ Dated db) : Keys (step crate db action) ∧ Dated (step crate db action) := by
  obtain ⟨keys, dated⟩ := both
  cases action with
  | call call =>
      refine ⟨exec_keys crate db call keys, ?_⟩
      rcases exec_records keys.policyKeys call with same |
        ⟨attempt, _, record, fresh, _, success⟩
      · exact dated.of_same same.snapshots same.history
      · obtain ⟨_, _, _, _, history, stored, next⟩ := persistSuccess_eq_ok success
        obtain ⟨added, changes, times⟩ := recordHistory_observedAt stored
        simp only [step]
        rw [next]
        exact dated.record rfl changes times
  | publish row => exact ⟨keys.of_same rfl rfl, dated.of_same rfl rfl⟩

theorem run_dated (crate : UrlCrate) (catalogue : Catalogue) (actions : List Action) :
    Dated (run (step crate) (Database.initial catalogue) actions) := by
  have start : Dated (Database.initial catalogue) :=
    ⟨by simp [Database.initial], fun _ => List.Pairwise.nil⟩
  exact (run_invariant step_dated (Database.initial catalogue) actions
    ⟨initial_keys catalogue, start⟩).2

end Observed

section Figures

variable (changes : List ChangeRow) (since : Time) (technologyId : Uuid)

/-- Of the selected rows, one side of `change_deltas` keeps those that name the
technology in its column. -/
theorem sum_selected (selected : ChangeRow → Bool) (column : ChangeRow → Option Uuid) (sign : Int) :
    (((((changes.filter selected).filterMap fun row =>
        (column row).map fun id => (id, row.observedAt, sign)).filter fun entry =>
          entry.1 == technologyId).map fun entry => entry.2.2).sum) =
      changes.countP (fun row => selected row && column row == some technologyId) * sign := by
  induction changes with
  | nil => simp
  | cons row rest ih =>
      by_cases chosen : selected row = true
      · rw [List.filter_cons_of_pos chosen]
        cases named : column row with
        | none =>
            rw [List.filterMap_cons_none (by rw [named]; rfl), ih]
            simp [named]
        | some id =>
            rw [List.filterMap_cons_some (by rw [named]; rfl)]
            by_cases own : id = technologyId
            · rw [List.filter_cons_of_pos (by simpa using own), List.map_cons, List.sum_cons, ih,
                List.countP_cons_of_pos (by simp [named, chosen, own])]
              push_cast
              ring
            · rw [List.filter_cons_of_neg (by simpa using own), ih]
              simp [named, own]
      · rw [List.filter_cons_of_neg chosen, ih]
        simp [chosen]

/-- The library and the movers report the figure of the profile. -/
theorem netChange_eq :
    netChange changes since (fun id => id == technologyId) =
      countedNetChange changes since technologyId := by
  have brought : changes.countP (broughtSince since technologyId) =
      changes.countP fun row => ((row.kind == .added || row.kind == .migrated) &&
        decide (since ≤ row.observedAt)) && row.toTechnologyId == some technologyId := by
    apply List.countP_congr
    intro row _
    simp only [broughtSince, Bool.and_eq_true, and_assoc]
    tauto
  have took : changes.countP (tookSince since technologyId) =
      changes.countP fun row => ((row.kind == .removed || row.kind == .migrated) &&
        decide (since ≤ row.observedAt)) && row.fromTechnologyId == some technologyId := by
    apply List.countP_congr
    intro row _
    simp only [tookSince, Bool.and_eq_true, and_assoc]
    tauto
  unfold netChange changeDeltas countedNetChange
  dsimp only
  rw [List.filter_append, List.map_append, List.sum_append, List.filter_filter, List.filter_filter,
    sum_selected, sum_selected, brought, took]
  ring

/-- The points of the history are the deltas, day by day. -/
theorem history_sum :
    ((technologyHistory changes since technologyId).map
        PublicTechnologyHistoryPoint.netChange).sum =
      countedNetChange changes since technologyId := by
  let deltas := technologyDeltas changes since technologyId
  let days := (deltas.map fun entry => dayOf entry.1).dedup
  have total : (deltas.map fun entry => entry.2).sum =
      countedNetChange changes since technologyId := by
    simp only [deltas, technologyDeltas, countedNetChange, List.map_append, List.map_map,
      List.sum_append, Function.comp_def, List.map_const', List.sum_replicate,
      List.countP_eq_length_filter]
    ring
  have covered : ∀ entry ∈ deltas, dayOf entry.1 ∈ days.toFinset := by
    intro entry member
    rw [List.mem_toFinset, List.mem_dedup]
    exact List.mem_map_of_mem member
  have sorted : (days.insertionSort fun left right => left ≤ right).Perm days :=
    List.perm_insertionSort _ days
  rw [← total, sum_map_eq_sum_keys deltas covered,
    List.sum_toFinset _ (List.nodup_dedup (deltas.map fun entry => dayOf entry.1))]
  unfold technologyHistory
  rw [List.map_map]
  exact (sorted.map _).sum_eq

/-- The figure is the sum of what the changes since the time do. -/
theorem countedNetChange_eq_net :
    countedNetChange changes since technologyId =
      net technologyId ((changes.filter fun row => decide (since ≤ row.observedAt)).map delta) := by
  have brought : changes.countP (broughtSince since technologyId) =
      (changes.filter fun row => decide (since ≤ row.observedAt)).countP fun row =>
        (delta row).added == some technologyId := by
    rw [List.countP_filter]
    apply List.countP_congr
    intro row _
    cases kind : row.kind <;> simp [broughtSince, delta, kind, and_comm]
  have took : changes.countP (tookSince since technologyId) =
      (changes.filter fun row => decide (since ≤ row.observedAt)).countP fun row =>
        (delta row).removed == some technologyId := by
    rw [List.countP_filter]
    apply List.countP_congr
    intro row _
    cases kind : row.kind <;> simp [tookSince, delta, kind, and_comm]
  unfold countedNetChange net
  rw [brought, took, List.countP_map, List.countP_map]
  rfl

end Figures

section Difference

variable {changes first second : List ChangeRow} {technologyId : Uuid}

/-- The domains that have the technology, by the rows of the table. -/
def domainsWith (technologyId : Uuid) (current : List CurrentRow) : Finset Uuid :=
  ((current.filter fun row => row.technologyId == technologyId).map CurrentRow.domainId).toFinset

/-- The domains that have the technology after the changes. -/
def domainsAfter (technologyId : Uuid) (changes : List ChangeRow) : Finset Uuid :=
  (changes.map ChangeRow.domainId).toFinset.filter fun domainId =>
    technologyId ∈ replayed domainId changes

def changesBefore (since : Time) (changes : List ChangeRow) : List ChangeRow :=
  changes.filter fun row => decide (row.observedAt < since)

/-- The domains that have the technology now, less those that had it before. -/
def difference (history : History) (since : Time) (technologyId : Uuid) : Int :=
  ((domainsWith technologyId history.current).card : Int) -
    ((domainsAfter technologyId (changesBefore since history.changes)).card : Int)

theorem mem_domainsAfter {domainId : Uuid} :
    domainId ∈ domainsAfter technologyId changes ↔ technologyId ∈ replayed domainId changes := by
  rw [domainsAfter, Finset.mem_filter, List.mem_toFinset, and_iff_right_iff_imp]
  intro held
  by_contra absent
  have none : logOf domainId changes = [] := by
    unfold logOf
    rw [List.map_eq_nil_iff, List.filter_eq_nil_iff]
    intro row member same
    exact absent (List.mem_map.mpr ⟨row, member, beq_iff_eq.mp same⟩)
  rw [replayed_eq, none] at held
  exact (Finset.notMem_empty technologyId) held

/-- Counting the domains one by one, over any set that has them all. -/
theorem sum_indicator {domains : Finset Uuid}
    (covered : ∀ row ∈ changes, row.domainId ∈ domains) :
    ∑ domainId ∈ domains, indicator (technologyId ∈ replayed domainId changes) =
      ((domainsAfter technologyId changes).card : Int) := by
  have same : domains.filter (fun domainId => technologyId ∈ replayed domainId changes) =
      domainsAfter technologyId changes := by
    ext domainId
    rw [Finset.mem_filter, mem_domainsAfter, and_iff_right_iff_imp, ← mem_domainsAfter]
    intro held
    obtain ⟨row, member, own⟩ := List.mem_map.mp (List.mem_toFinset.mp (Finset.mem_filter.mp held).1)
    rw [← own]
    exact covered row member
  unfold indicator
  rw [Finset.sum_boole, same]

theorem logOf_append (domainId : Uuid) :
    logOf domainId (first ++ second) = logOf domainId first ++ logOf domainId second := by
  unfold logOf
  rw [List.filter_append, List.map_append]

/-- What the second part of a log adds up to is the difference it makes. -/
theorem net_second (alternates : ∀ domainId, Applicable ∅ (logOf domainId (first ++ second))) :
    net technologyId (second.map delta) =
      ((domainsAfter technologyId (first ++ second)).card : Int) -
        ((domainsAfter technologyId first).card : Int) := by
  let domains := ((first ++ second).map ChangeRow.domainId).toFinset
  have covered : ∀ row ∈ first ++ second, row.domainId ∈ domains :=
    fun row member => List.mem_toFinset.mpr (List.mem_map_of_mem member)
  have signed (log : List ChangeRow) : net technologyId (log.map delta) =
      (log.map fun row => net technologyId [delta row]).sum := by
    induction log with
    | nil => rfl
    | cons row rest ih => rw [List.map_cons, net_cons, ih, List.map_cons, List.sum_cons]
  have each (domainId : Uuid) : net technologyId (logOf domainId second) =
      indicator (technologyId ∈ replayed domainId (first ++ second)) -
        indicator (technologyId ∈ replayed domainId first) := by
    have applicable := alternates domainId
    rw [logOf_append, applicable_append] at applicable
    rw [net_eq applicable.2, ← replay_append, ← logOf_append]
    rfl
  calc net technologyId (second.map delta)
      = ∑ domainId ∈ domains, net technologyId (logOf domainId second) := by
        rw [signed, sum_map_eq_sum_keys second fun row member =>
          covered row (List.mem_append_right first member)]
        exact Finset.sum_congr rfl fun domainId _ => (signed _).symm
    _ = ∑ domainId ∈ domains, indicator (technologyId ∈ replayed domainId (first ++ second)) -
          ∑ domainId ∈ domains, indicator (technologyId ∈ replayed domainId first) := by
        rw [← Finset.sum_sub_distrib]
        exact Finset.sum_congr rfl fun domainId _ => each domainId
    _ = _ := by
        rw [sum_indicator covered,
          sum_indicator fun row member => covered row (List.mem_append_left second member)]

/-- A log in the order of its times is cut by a time into two parts. -/
theorem split_at (since : Time)
    (ordered : (changes.map ChangeRow.observedAt).Pairwise (· ≤ ·)) :
    changes = changesBefore since changes ++
      changes.filter fun row => decide (since ≤ row.observedAt) := by
  induction changes with
  | nil => rfl
  | cons row rest ih =>
      rw [List.map_cons, List.pairwise_cons] at ordered
      obtain ⟨first, ordered⟩ := ordered
      unfold changesBefore at ih ⊢
      by_cases early : row.observedAt < since
      · rw [List.filter_cons_of_pos (by simpa using early),
          List.filter_cons_of_neg (by simpa using early), List.cons_append, ← ih ordered]
      · have late : ∀ other ∈ row :: rest, since ≤ other.observedAt := by
          intro other member
          rcases List.mem_cons.mp member with rfl | later
          · exact not_lt.mp early
          · exact (not_lt.mp early).trans (first _ (List.mem_map_of_mem later))
        have none : (row :: rest).filter (fun other => decide (other.observedAt < since)) = [] := by
          rw [List.filter_eq_nil_iff]
          intro other member
          simpa using late other member
        have all : (row :: rest).filter (fun other => decide (since ≤ other.observedAt)) =
            row :: rest := by
          rw [List.filter_eq_self]
          intro other member
          simpa using late other member
        rw [none, all, List.nil_append]

theorem countedNetChange_eq_difference {catalogue : Catalogue} {history : History}
    (agrees : Agrees catalogue history)
    (ordered : (history.changes.map ChangeRow.observedAt).Pairwise (· ≤ ·)) (since : Time)
    (technologyId : Uuid) :
    countedNetChange history.changes since technologyId = difference history since technologyId := by
  have cut := split_at since ordered
  have now : domainsAfter technologyId history.changes =
      domainsWith technologyId history.current := by
    ext domainId
    rw [mem_domainsAfter, agrees.agree, mem_currentTechnologies]
    simp [domainsWith, Holds, and_assoc, and_comm]
  have alternates := agrees.alternates
  rw [cut] at alternates
  rw [countedNetChange_eq_net, net_second alternates, ← cut, now]
  rfl

end Difference

section Reported

variable {db : Database} {since : Time} {technology : TechnologyRow} {change : Int}

/-- What the pages report of the technology, wherever they list it. -/
structure Reported (db : Database) (since : Time) (technology : TechnologyRow) (change : Int) :
    Prop where
  library : ∀ collation category trend cursor limit page,
    technologies collation db category trend cursor limit since = .ok page →
      ∀ item ∈ page.items, item.slug = technology.slug → item.netChange = change
  unfiltered : ∀ collation limit, db.catalogue.technologies.length ≤ limit → limit + 1 < 2 ^ 63 →
    ∃ page, technologies collation db none none none limit since = .ok page ∧
      ∃ item ∈ page.items, item.slug = technology.slug
  profile : ∀ collation cursor limit, limit + 1 < 2 ^ 63 → ∃ profile,
    technologyProfile collation db technology.slug cursor limit since = .ok (some profile) ∧
      profile.item.netChange = change ∧
      (profile.history.map PublicTechnologyHistoryPoint.netChange).sum = change
  movers : ∀ collation limit growing listed,
    technologyMovers collation db since limit growing = .ok listed →
      ∀ mover ∈ listed, mover.slug = technology.slug → mover.netChange = change

theorem lookAhead_of_lt {limit : Nat} (bounded : limit + 1 < 2 ^ 63) :
    lookAhead limit = .ok (limit + 1) := by
  rw [lookAhead, if_pos bounded]

theorem library_change (member : technology ∈ db.catalogue.technologies) {collation : Collation}
    {category cursor : Option Text} {trend : Option PublicTechnologyTrend}
    {item : PublicTechnologyLibraryItem}
    (listed : item ∈ technologyRows collation db category trend since cursor)
    (same : item.slug = technology.slug) :
    item.netChange = countedNetChange db.history.changes since technology.id := by
  rw [technologyRows, List.mem_insertionSort, List.mem_filter, List.mem_filterMap] at listed
  obtain ⟨⟨row, inCatalogue, joined⟩, _⟩ := listed
  obtain ⟨found, _, rfl⟩ := Option.map_eq_some_iff.mp joined
  have own : row = technology :=
    eq_of_key_eq db.catalogue.technologies_slug_nodup inCatalogue member same
  subst own
  exact netChange_eq _ _ _

theorem mover_change (member : technology ∈ db.catalogue.technologies)
    {row : TechnologyRow} (inCatalogue : row ∈ db.catalogue.technologies)
    {mover : PublicAnalyticsTechnologyMover} (joined : technologyMover db since row = some mover)
    (same : mover.slug = technology.slug) :
    mover.netChange = countedNetChange db.history.changes since technology.id := by
  unfold technologyMover at joined
  split at joined
  · obtain ⟨found, _, rfl⟩ := Option.map_eq_some_iff.mp joined
    have own : row = technology :=
      eq_of_key_eq db.catalogue.technologies_slug_nodup inCatalogue member same
    subst own
    exact netChange_eq _ _ _
  · cases joined

theorem library_lists (member : technology ∈ db.catalogue.technologies) (collation : Collation)
    (since : Time) :
    ∃ item ∈ technologyRows collation db none none since none, item.slug = technology.slug := by
  obtain ⟨item, joined⟩ := Option.isSome_iff_exists.mp (libraryItemWith_isSome member
    (netChange db.history.changes since fun id => id == technology.id))
  refine ⟨item, ?_, ?_⟩
  · rw [technologyRows, List.mem_insertionSort, List.mem_filter, List.mem_filterMap]
    exact ⟨⟨technology, member, joined⟩, rfl⟩
  · obtain ⟨found, _, rfl⟩ := Option.map_eq_some_iff.mp joined
    rfl

theorem profile_change (member : technology ∈ db.catalogue.technologies) (collation : Collation)
    (cursor : Option Text) {limit : Nat} (bounded : limit + 1 < 2 ^ 63) :
    ∃ profile,
      technologyProfile collation db technology.slug cursor limit since = .ok (some profile) ∧
        profile.item.netChange = countedNetChange db.history.changes since technology.id ∧
        profile.history = technologyHistory db.history.changes since technology.id := by
  have known : db.catalogue.technologyBySlug technology.slug = some technology :=
    (find?_key_eq_some db.catalogue.technologies_slug_nodup).mpr ⟨member, rfl⟩
  obtain ⟨item, joined⟩ := Option.isSome_iff_exists.mp (libraryItemWith_isSome member
    (countedNetChange db.history.changes since technology.id))
  have counted : item.netChange = countedNetChange db.history.changes since technology.id := by
    obtain ⟨found, _, rfl⟩ := Option.map_eq_some_iff.mp joined
    rfl
  refine ⟨{
    item := item
    history := technologyHistory db.history.changes since technology.id
    relatedTechnologies := relatedTechnologies collation db technology.id
    domains := poppedPage PublicDomainSummary.canonicalDomain limit
      ((technologyDomainRows collation db technology.slug cursor).take (limit + 1)) },
    ?_, counted, rfl⟩
  simp only [technologyProfile, technologyDomains, known, joined, lookAhead_of_lt bounded,
    Option.bind_some, Option.map_some]
  rfl

/-- Every page takes its figure from the same changes. -/
theorem reported (member : technology ∈ db.catalogue.technologies) :
    Reported db since technology (countedNetChange db.history.changes since technology.id) := by
  constructor
  · intro collation category trend cursor limit page served item inPage same
    obtain ⟨wanted, _, built⟩ := bind_eq_ok.mp served
    cases built
    exact library_change member (List.mem_of_mem_take (mem_of_mem_poppedPage inPage)) same
  · intro collation limit fits bounded
    obtain ⟨item, listed, same⟩ := library_lists member collation since
    refine ⟨_, bind_eq_ok.mpr ⟨_, lookAhead_of_lt bounded, rfl⟩, item, ?_, same⟩
    have short : (technologyRows collation db none none since none).length ≤ limit := by
      rw [technologyRows, List.length_insertionSort]
      exact (List.length_filter_le _ _).trans ((List.length_filterMap_le _ _).trans fits)
    rw [List.take_of_length_le (Nat.le_succ_of_le short), poppedPage_items_of_le short]
    exact listed
  · intro collation cursor limit bounded
    obtain ⟨profile, served, counted, history⟩ := profile_change member collation cursor bounded
    refine ⟨profile, served, counted, ?_⟩
    rw [history, history_sum]
  · intro collation limit growing listed served mover inListed same
    unfold technologyMovers at served
    split at served
    · cases served
      have chosen := List.mem_of_mem_take inListed
      rw [List.mem_insertionSort, List.mem_filter, List.mem_filterMap] at chosen
      obtain ⟨⟨row, inCatalogue, joined⟩, _⟩ := chosen
      exact mover_change member inCatalogue joined same
    · cases served

end Reported

/-- In every state of a run whose successes record evaluations, captured in
order, all pages report of a technology how many more domains have it than had
it before. -/
theorem trends_are_differences (crate : UrlCrate) (regexes : RegexCrate) (catalogue : Catalogue)
    (actions : List Action) (evaluated : ∀ action ∈ actions, action.evaluated regexes) :
    let db := run (step crate) (Database.initial catalogue) actions
    CapturedInOrder db → ∀ since, ∀ technology ∈ db.catalogue.technologies,
      Reported db since technology (difference db.history since technology.id) := by
  intro db inOrder since technology member
  have sound : Sound db := run_invariant_of_guarded step_agrees (Database.initial catalogue) actions
    (guarded_of_forall (step crate) _ actions evaluated) (initial_agrees catalogue)
  have dated : Dated db := run_dated crate catalogue actions
  rw [← countedNetChange_eq_difference sound.agrees (dated.ordered inOrder)]
  exact reported member

theorem migratedSite_trends :
    let before := (siteEvaluation "WordPress 6.8" 1).get wordPress_evaluated
    let after := (siteEvaluation "Drupal 11" 2).get drupal_evaluated_again
    let db := run (step plainUrlCrate) (Database.initial twoSystems) (migratedSite before after)
    (difference db.history 7 11 = -1 ∧ difference db.history 7 12 = 1) ∧
      ∀ technology ∈ db.catalogue.technologies,
        Reported db 7 technology (difference db.history 7 technology.id) :=
  ⟨by decide +kernel,
    trends_are_differences plainUrlCrate noRegexes twoSystems _ (migratedSite_evaluated
      (siteRecord_evaluated (Option.some_get _).symm 6)
      (siteRecord_evaluated (Option.some_get _).symm 10)) (by decide +kernel) 7⟩

end TechAtlas.Technologies
