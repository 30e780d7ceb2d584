import TechAtlas.Reprocessing.Repository
import TechAtlas.Store.PublicRead

set_option autoImplicit false

/- The timelines of a domain: its technology changes and its crawls. The cursor
of a page is the time of its surplus row as the repository displays it, and the
API reads a cursor as a number of seconds. -/
namespace TechAtlas.Public

open Library Store Reprocessing

section ParseTime

inductive PublicApiError
  | validation
  | notFound
  | refreshUnavailable
  | rateLimited (retryAfterSeconds : Nat)
  | unavailable
  deriving DecidableEq, Repr

def decimalValue (digits : Text) : Nat := digits.foldl (fun n c => n * 10 + (c.toNat - 48)) 0

/-- `str::parse::<i64>`. -/
def parseI64 (text : Text) : Option Int :=
  let (negative, digits) := match text with
    | '-' :: rest => (true, rest)
    | '+' :: rest => (false, rest)
    | _ => (false, text)
  if digits.isEmpty || !digits.all Char.isDigit then none
  else
    let value : Int := if negative then -(decimalValue digits) else decimalValue digits
    if -2 ^ 63 ≤ value ∧ value < 2 ^ 63 then some value else none

/-- `OffsetDateTime::from_unix_timestamp`. -/
def fromUnixTimestamp (seconds : Int) : Option Time :=
  let t : Time := seconds * 1000000
  if offsetDateTimeInRange t then some t else none

def parseTime : Option Text → Except PublicApiError (Option Time)
  | none => .ok none
  | some value =>
      match (parseI64 value).bind fromUnixTimestamp with
      | some time => .ok (some time)
      | none => .error .validation

theorem parseI64_of_space {text : Text} (spaced : ' ' ∈ text) : parseI64 text = none := by
  have refused : ∀ digits : Text, ' ' ∈ digits →
      (digits.isEmpty || !digits.all Char.isDigit) = true := by
    intro digits member
    rw [Bool.or_eq_true, Bool.not_eq_true', List.all_eq_false]
    exact Or.inr ⟨' ', member, by decide⟩
  unfold parseI64
  split
  rename_i negative digits found
  have kept : ' ' ∈ digits := by
    split at found
    · cases found
      simpa using spaced
    · cases found
      simpa using spaced
    · cases found
      exact spaced
  rw [if_pos (refused digits kept)]

theorem parseTime_of_space {text : Text} (spaced : ' ' ∈ text) :
    parseTime (some text) = .error .validation := by
  rw [parseTime, parseI64_of_space spaced]
  rfl

end ParseTime

section Repository

/-- What the timelines use of the `time` and `uuid` crates. -/
structure TimelineCrates where
  display : Time → Text
  uuidToString : Uuid → Text

/-- The order in which a statement returns the rows it sorts by time, the latest
first. Rows of one time come in any order. -/
structure LatestFirst {ρ : Type} (time : ρ → Time) where
  order : List ρ → List ρ
  perm : ∀ rows, (order rows).Perm rows
  sorted : ∀ rows, (order rows).Pairwise fun first second => time second ≤ time first

structure PublicChange where
  kind : Text
  categorySlug : Text
  fromTechnologySlug : Option Text
  toTechnologySlug : Option Text
  technologySlug : Option Text
  fromVersion : Option Text
  toVersion : Option Text
  reprocessingRunId : Option Text
  observedAt : Time
  deriving DecidableEq, Repr

structure PublicCrawl where
  id : Text
  requestedUrl : Text
  finalUrl : Text
  responseStatus : Nat
  capturedAt : Time
  deriving DecidableEq, Repr

/-- The tables that the timelines read, with the foreign keys of the changes. -/
structure Content where
  db : Database
  versionChanges : List VersionChangeRow
  changes_category : ∀ row ∈ db.history.changes,
    ∃ category ∈ db.catalogue.categories, category.id = row.categoryId
  versionChanges_technology : ∀ row ∈ versionChanges,
    ∃ technology ∈ db.catalogue.technologies, technology.id = row.technologyId

def Content.technologySlug (content : Content) (id : Uuid) : Option Text :=
  (content.db.catalogue.technologies.find? fun technology => technology.id == id).map
    TechnologyRow.slug

/-- A row of `technology_changes`, joined with its category and technologies. -/
def Content.change (content : Content) (row : ChangeRow) : Option PublicChange :=
  (content.db.catalogue.categories.find? fun category => category.id == row.categoryId).map
    fun category => {
      kind := row.kind.asStr
      categorySlug := category.slug
      fromTechnologySlug := row.fromTechnologyId.bind content.technologySlug
      toTechnologySlug := row.toTechnologyId.bind content.technologySlug
      technologySlug := none
      fromVersion := none
      toVersion := none
      reprocessingRunId := none
      observedAt := row.observedAt }

variable (crates : TimelineCrates)

/-- A row of `technology_version_changes`, joined with its technology and category. -/
def Content.versionChange (content : Content) (row : VersionChangeRow) : Option PublicChange := do
  let technology ← content.db.catalogue.technologies.find? fun technology =>
    technology.id == row.technologyId
  let category ← content.db.catalogue.joinCategory technology
  some {
    kind := "version_changed".toList
    categorySlug := category.slug
    fromTechnologySlug := some technology.slug
    toTechnologySlug := some technology.slug
    technologySlug := some technology.slug
    fromVersion := some row.fromVersion
    toVersion := some row.toVersion
    reprocessingRunId := some (crates.uuidToString row.reprocessingRunId)
    observedAt := row.observedAt }

/-- The rows of the union, unordered. -/
def Content.changes (content : Content) (domainId : Uuid) : List PublicChange :=
  (content.db.history.changes.filter fun row => row.domainId == domainId).filterMap
      content.change ++
    (content.versionChanges.filter fun row => row.domainId == domainId).filterMap
      (content.versionChange crates)

def crawlFromRow (row : SnapshotRow) : PublicCrawl where
  id := crates.uuidToString row.id
  requestedUrl := row.requestedUrl
  finalUrl := row.finalUrl
  responseStatus := row.responseStatus
  capturedAt := row.capturedAt

def Content.crawls (content : Content) (domainId : Uuid) : List PublicCrawl :=
  (content.db.snapshots.filter fun row => row.domainId == domainId).map (crawlFromRow crates)

/-- The part that both listings share: the rows before the cursor, the latest
first, one more than the limit; the surplus row is popped and its time displayed. -/
def timelinePage {ρ : Type} {time : ρ → Time} (latestFirst : LatestFirst time) (rows : List ρ)
    (cursor : Option Time) (limit : Nat) : Except PublicReadError (Page ρ Text) := do
  let wanted ← lookAhead limit
  .ok (poppedPage (fun row => crates.display (time row)) limit
    ((latestFirst.order (rows.filter fun row =>
      cursor.all fun cursor => decide (time row < cursor))).take wanted))

def domainChanges (latestFirst : Option Time → LatestFirst PublicChange.observedAt)
    (content : Content) (domain : CanonicalDomain) (cursor : Option Time) (limit : Nat) :
    Except PublicReadError (Page PublicChange Text) :=
  match content.db.activeDomain domain.text with
  | none => .ok { items := [], nextCursor := none }
  | some row => timelinePage crates (latestFirst cursor) (content.changes crates row.id) cursor limit

def domainCrawls (latestFirst : Option Time → LatestFirst PublicCrawl.capturedAt)
    (content : Content) (domain : CanonicalDomain) (cursor : Option Time) (limit : Nat) :
    Except PublicReadError (Page PublicCrawl Text) :=
  match content.db.activeDomain domain.text with
  | none => .ok { items := [], nextCursor := none }
  | some row => timelinePage crates (latestFirst cursor) (content.crawls crates row.id) cursor limit

end Repository

section Following

variable {ρ : Type}

/-- A page of a timeline, as a client follows it through the API. -/
def followed (repository : Option Time → Except PublicReadError (Page ρ Text))
    (cursor : Option Text) : Option (Page ρ Text) := do
  let cursor ← (parseTime cursor).toOption
  (repository cursor).toOption

/-- Every cursor of the listing is accepted when it is sent back, and following
the cursors returns every row once, the latest first. -/
structure CursorsWork (time : ρ → Time)
    (repository : Option Time → Except PublicReadError (Page ρ Text)) (rows : List ρ) : Prop where
  accepted : ∀ cursor page, repository cursor = .ok page → ∀ next ∈ page.nextCursor,
    ∃ parsed, parseTime (some next) = .ok parsed
  complete : ∃ pages items, collect (followed repository) pages none = some items ∧
    items.Perm rows ∧ items.Pairwise fun first second => time second ≤ time first

variable {crates : TimelineCrates} {time : ρ → Time} {limit : Nat}
  {latestFirst : Option Time → LatestFirst time} {rows : List ρ}

theorem timelinePage_eq (bounded : limit ≤ 100) (cursor : Option Time) :
    timelinePage crates (latestFirst cursor) rows cursor limit =
      .ok (poppedPage (fun row => crates.display (time row)) limit
        (((latestFirst cursor).order (rows.filter fun row =>
          cursor.all fun cursor => decide (time row < cursor))).take (limit + 1))) := by
  have small : limit + 1 < 2 ^ 63 := by omega
  simp only [timelinePage, lookAhead, if_pos small]
  rfl

/-- The first page reads all rows. -/
theorem firstPage_eq (bounded : limit ≤ 100) :
    timelinePage crates (latestFirst none) rows none limit =
      .ok (poppedPage (fun row => crates.display (time row)) limit
        (((latestFirst none).order rows).take (limit + 1))) := by
  have everything : (rows.filter fun row =>
      (none : Option Time).all fun cursor => decide (time row < cursor)) = rows :=
    List.filter_eq_self.mpr fun _ _ => rfl
  rw [timelinePage_eq bounded, everything]

/-- A first page with a surplus row emits a cursor that the API refuses. -/
theorem not_cursorsWork_of_lt (bounded : limit ≤ 100) (spaced : ∀ t, ' ' ∈ crates.display t)
    (more : limit < rows.length) :
    ¬CursorsWork time (fun cursor => timelinePage crates (latestFirst cursor) rows cursor limit)
      rows := by
  intro works
  have surplus : limit < (((latestFirst none).order rows).take (limit + 1)).length := by
    rw [List.length_take, ((latestFirst none).perm rows).length_eq]
    omega
  have nonempty : ((latestFirst none).order rows).take (limit + 1) ≠ [] :=
    List.ne_nil_of_length_pos (Nat.zero_lt_of_lt surplus)
  have emitted : crates.display (time ((((latestFirst none).order rows).take (limit + 1)).getLast
      nonempty)) ∈ (poppedPage (fun row => crates.display (time row)) limit
        (((latestFirst none).order rows).take (limit + 1))).nextCursor := by
    rw [poppedPage, if_pos surplus, List.getLast?_eq_some_getLast nonempty]
    rfl
  obtain ⟨parsed, accepted⟩ := works.accepted none _ (firstPage_eq bounded) _ emitted
  rw [parseTime_of_space (spaced _)] at accepted
  cases accepted

theorem cursorsWork_of_le (bounded : limit ≤ 100) (few : rows.length ≤ limit) :
    CursorsWork time (fun cursor => timelinePage crates (latestFirst cursor) rows cursor limit)
      rows where
  accepted := by
    intro cursor page served next emitted
    have listed : ((latestFirst cursor).order (rows.filter fun row =>
        cursor.all fun cursor => decide (time row < cursor))).length ≤ rows.length := by
      rw [((latestFirst cursor).perm _).length_eq]
      exact List.length_filter_le _ _
    rw [timelinePage_eq bounded] at served
    cases served
    rw [poppedPage, if_neg (by rw [List.length_take]; omega)] at emitted
    cases emitted
  complete := by
    have length := ((latestFirst none).perm rows).length_eq
    have whole : ((latestFirst none).order rows).take (limit + 1) =
        (latestFirst none).order rows := List.take_of_length_le (by omega)
    have fits : ¬limit < ((latestFirst none).order rows).length := by omega
    refine ⟨1, (latestFirst none).order rows, ?_, (latestFirst none).perm rows,
      (latestFirst none).sorted rows⟩
    change (timelinePage crates (latestFirst none) rows none limit).toOption.bind _ = _
    rw [firstPage_eq bounded, whole, poppedPage, if_neg fits]
    rfl

/-- A timeline can be followed exactly when it fits on its first page. -/
theorem cursorsWork_iff (bounded : limit ≤ 100) (spaced : ∀ t, ' ' ∈ crates.display t) :
    CursorsWork time (fun cursor => timelinePage crates (latestFirst cursor) rows cursor limit)
      rows ↔ rows.length ≤ limit := by
  constructor
  · intro works
    by_contra more
    exact not_cursorsWork_of_lt bounded spaced (Nat.lt_of_not_le more) works
  · exact cursorsWork_of_le bounded

theorem cursorsWork_empty :
    CursorsWork time (fun _ => .ok { items := [], nextCursor := none }) [] where
  accepted := by
    intro cursor page served next emitted
    cases served
    cases emitted
  complete := ⟨1, [], rfl, List.Perm.refl _, List.Pairwise.nil⟩

theorem length_filterMap_of_isSome {σ : Type} {f : ρ → Option σ}
    (all : ∀ row ∈ rows, (f row).isSome = true) : (rows.filterMap f).length = rows.length := by
  induction rows with
  | nil => rfl
  | cons row rest ih =>
      obtain ⟨value, found⟩ := Option.isSome_iff_exists.mp (all row List.mem_cons_self)
      have later := ih fun other member => all other (List.mem_cons_of_mem row member)
      rw [List.filterMap_cons_some found, List.length_cons, List.length_cons, later]

end Following

section Timelines

variable (crates : TimelineCrates) (content : Content)

/-- The rows of the domain's timelines; an unknown or archived domain has none. -/
def timelineOf {ρ : Type} (domain : CanonicalDomain) (rows : Uuid → List ρ) : List ρ :=
  match content.db.activeDomain domain.text with
  | none => []
  | some row => rows row.id

/-- Every change joins, by its foreign keys, so none is missing in the union. -/
theorem length_changes (domainId : Uuid) :
    (content.changes crates domainId).length =
      content.db.history.changes.countP (fun row => row.domainId == domainId) +
        content.versionChanges.countP (fun row => row.domainId == domainId) := by
  have joined : ∀ row ∈ content.db.history.changes, (content.change row).isSome = true := by
    intro row member
    obtain ⟨category, inCatalogue, same⟩ := content.changes_category row member
    rw [Content.change, Option.isSome_map, List.find?_isSome]
    exact ⟨category, inCatalogue, by simpa using same⟩
  have versionsJoined : ∀ row ∈ content.versionChanges,
      (content.versionChange crates row).isSome = true := by
    intro row member
    obtain ⟨technology, inCatalogue, same⟩ := content.versionChanges_technology row member
    obtain ⟨found, lookup⟩ := Option.isSome_iff_exists.mp (List.find?_isSome.mpr
      ⟨technology, inCatalogue, by simpa using same⟩ :
        (content.db.catalogue.technologies.find? fun technology =>
          technology.id == row.technologyId).isSome = true)
    obtain ⟨category, inCategories, own⟩ :=
      content.db.catalogue.technologies_category found (find?_eq_some_mem lookup).1
    have joins : (content.db.catalogue.joinCategory found).isSome = true := by
      rw [Catalogue.joinCategory, List.find?_isSome]
      exact ⟨category, inCategories, by simpa using own⟩
    obtain ⟨_, joinedTo⟩ := Option.isSome_iff_exists.mp joins
    simp [Content.versionChange, lookup, joinedTo]
  rw [Content.changes, List.length_append, List.countP_eq_length_filter,
    List.countP_eq_length_filter]
  congr 1
  · exact length_filterMap_of_isSome fun row member => joined row (List.mem_of_mem_filter member)
  · exact length_filterMap_of_isSome fun row member =>
      versionsJoined row (List.mem_of_mem_filter member)

end Timelines

/-- For every content and domain and every limit of the API, the cursors of the
changes, or of the crawls, work exactly if the domain has no more of them than fit
on one page. -/
theorem timeline_cursors_work_iff (crates : TimelineCrates)
    (spaced : ∀ t, ' ' ∈ crates.display t) (content : Content) (domain : CanonicalDomain)
    (limit : Nat) (bounded : 1 ≤ limit ∧ limit ≤ 100)
    (changesFirst : Option Time → LatestFirst PublicChange.observedAt)
    (crawlsFirst : Option Time → LatestFirst PublicCrawl.capturedAt) :
    (CursorsWork PublicChange.observedAt
      (fun cursor => domainChanges crates changesFirst content domain cursor limit)
      (timelineOf content domain (content.changes crates)) ↔
      ∀ row ∈ content.db.activeDomain domain.text,
        content.db.history.changes.countP (fun change => change.domainId == row.id) +
          content.versionChanges.countP (fun change => change.domainId == row.id) ≤ limit) ∧
    (CursorsWork PublicCrawl.capturedAt
      (fun cursor => domainCrawls crates crawlsFirst content domain cursor limit)
      (timelineOf content domain (content.crawls crates)) ↔
      ∀ row ∈ content.db.activeDomain domain.text,
        content.db.snapshots.countP (fun snapshot => snapshot.domainId == row.id) ≤ limit) := by
  unfold domainChanges domainCrawls timelineOf
  cases content.db.activeDomain domain.text with
  | none =>
      constructor
      · simp [cursorsWork_empty]
      · simp [cursorsWork_empty]
  | some row =>
      constructor
      · rw [cursorsWork_iff bounded.2 spaced, length_changes]
        simp
      · rw [cursorsWork_iff bounded.2 spaced, Content.crawls, List.length_map,
          ← List.countP_eq_length_filter]
        simp

section Sample

/-- The crates at noon of 5 August 2026. -/
def noonDisplay : TimelineCrates where
  display := fun _ => "2026-08-05 12:00:00.0 +00:00:00".toList
  uuidToString := fun _ => "00000000-0000-0000-0000-000000000001".toList

/-- Rows of one time in the order in which they were found. -/
def asFound {ρ : Type} (time : ρ → Time) : LatestFirst time where
  order := fun rows => rows.insertionSort fun first second => time second ≤ time first
  perm := fun rows => List.perm_insertionSort _ rows
  sorted := by
    intro rows
    have total : Std.Total fun first second : ρ => time second ≤ time first :=
      ⟨fun first second => le_total (time second) (time first)⟩
    have trans : IsTrans ρ fun first second => time second ≤ time first :=
      ⟨fun _ _ _ first second => le_trans second first⟩
    exact List.pairwise_insertionSort _ rows

def noonSnapshot (id : Uuid) : SnapshotRow where
  id := id
  crawlAttemptId := id
  domainId := 1
  requestedUrl := "https://example.com/".toList
  finalUrl := "https://example.com/".toList
  redirectChain := []
  responseStatus := 200
  responseHeaders := []
  responseBodyBytes := 0
  capturedAt := 1785931200000000

/-- A domain with two crawls of one time. -/
def twoCrawls : Content where
  db := { Database.initial Catalogue.empty with
    domains := [⟨1, "example.com".toList, none⟩]
    snapshots := [noonSnapshot 1, noonSnapshot 2] }
  versionChanges := []
  changes_category := by
    intro row member
    cases member
  versionChanges_technology := by
    intro row member
    cases member

theorem noonDisplay_spaced : ∀ t, ' ' ∈ noonDisplay.display t := by
  intro t
  change ' ' ∈ "2026-08-05 12:00:00.0 +00:00:00".toList
  decide

theorem twoCrawls_on_one_page :
    CursorsWork PublicCrawl.capturedAt
      (fun cursor => domainCrawls noonDisplay (fun _ => asFound _) twoCrawls exampleDomain cursor 2)
      (timelineOf twoCrawls exampleDomain (twoCrawls.crawls noonDisplay)) :=
  (timeline_cursors_work_iff noonDisplay noonDisplay_spaced twoCrawls exampleDomain 2 (by decide)
    (fun _ => asFound _) fun _ => asFound _).2.mpr (by decide)

/-- With one crawl a page, the cursor of the first page is refused. -/
theorem twoCrawls_cursor_refused :
    (∃ page next, domainCrawls noonDisplay (fun _ => asFound _) twoCrawls exampleDomain none 1 =
        .ok page ∧ page.nextCursor = some next ∧
        parseTime (some next) = .error .validation) ∧
      ¬CursorsWork PublicCrawl.capturedAt
        (fun cursor => domainCrawls noonDisplay (fun _ => asFound _) twoCrawls exampleDomain cursor 1)
        (timelineOf twoCrawls exampleDomain (twoCrawls.crawls noonDisplay)) := by
  have emitted : ∃ page next, domainCrawls noonDisplay (fun _ => asFound _) twoCrawls exampleDomain
      none 1 = .ok page ∧ page.nextCursor = some next ∧
      parseTime (some next) = .error .validation :=
    ⟨_, "2026-08-05 12:00:00.0 +00:00:00".toList, rfl, rfl, rfl⟩
  refine ⟨emitted, ?_⟩
  intro works
  obtain ⟨page, next, served, isNext, refused⟩ := emitted
  obtain ⟨parsed, accepted⟩ := works.accepted none page served next isNext
  rw [refused] at accepted
  cases accepted

end Sample

end TechAtlas.Public
