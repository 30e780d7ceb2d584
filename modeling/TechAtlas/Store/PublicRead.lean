import TechAtlas.Library.Paging
import TechAtlas.Store.Statements

set_option autoImplicit false

/- `PostgresPublicReadRepository`: the technology library, the domains of a
technology and the profiles, each with its cursor. -/
namespace TechAtlas.Store

open Library

/-- The order the database compares text in. -/
structure Collation where
  le : Text → Text → Bool
  total : ∀ left right, le left right = true ∨ le right left = true
  trans : ∀ left middle right, le left middle = true → le middle right = true →
    le left right = true

/-- The order of the code points. -/
def codePoints : Collation where
  le := fun left right => decide (left.map Char.toNat ≤ right.map Char.toNat)
  total := by
    intro left right
    simpa using le_total (left.map Char.toNat) (right.map Char.toNat)
  trans := by
    intro left middle right first second
    simp only [decide_eq_true_eq] at first second ⊢
    exact le_trans first second

inductive PublicReadError
  | unavailable
  deriving DecidableEq, Repr

section Trend

inductive PublicTechnologyTrend
  | growing
  | declining
  | stable
  deriving DecidableEq, Repr

def PublicTechnologyTrend.fromNetChange (netChange : Int) : PublicTechnologyTrend :=
  if 0 < netChange then .growing else if netChange < 0 then .declining else .stable

/-- `change_deltas`: what each change since the time adds to a technology. -/
def changeDeltas (changes : List ChangeRow) (since : Time) : List (Uuid × Time × Int) :=
  let recent := changes.filter fun row => decide (since ≤ row.observedAt)
  (recent.filter fun row => row.kind == .added || row.kind == .migrated).filterMap
      (fun row => row.toTechnologyId.map fun id => (id, row.observedAt, 1)) ++
    (recent.filter fun row => row.kind == .removed || row.kind == .migrated).filterMap
      (fun row => row.fromTechnologyId.map fun id => (id, row.observedAt, -1))

/-- `COALESCE(SUM(delta), 0)` over the technologies the condition selects. -/
def netChange (changes : List ChangeRow) (since : Time) (selected : Uuid → Bool) : Int :=
  (((changeDeltas changes since).filter fun delta => selected delta.1).map fun delta =>
    delta.2.2).sum

/-- The changes since the time that brought the technology to a domain. -/
def broughtSince (since : Time) (technologyId : Uuid) (row : ChangeRow) : Bool :=
  decide (since ≤ row.observedAt) && row.toTechnologyId == some technologyId &&
    (row.kind == .added || row.kind == .migrated)

/-- The changes since the time that took the technology from a domain. -/
def tookSince (since : Time) (technologyId : Uuid) (row : ChangeRow) : Bool :=
  decide (since ≤ row.observedAt) && row.fromTechnologyId == some technologyId &&
    (row.kind == .removed || row.kind == .migrated)

/-- The figure of `technology_profile`: a difference of two counts. -/
def countedNetChange (changes : List ChangeRow) (since : Time) (technologyId : Uuid) : Int :=
  (changes.countP (broughtSince since technologyId) : Int) -
    (changes.countP (tookSince since technologyId) : Int)

end Trend

section Rows

structure PublicTechnologyCategory where
  slug : Text
  displayName : Text
  deriving DecidableEq

structure PublicTechnologyLibraryItem where
  slug : Text
  displayName : Text
  categorySlug : Text
  categoryName : Text
  adoptionCount : Nat
  netChange : Int
  trend : PublicTechnologyTrend
  deriving DecidableEq

structure PublicDomainSummary where
  canonicalDomain : Text
  lastCrawledAt : Option Time
  deriving DecidableEq

def Catalogue.joinCategory (catalogue : Catalogue) (technology : TechnologyRow) :
    Option CategoryRow :=
  catalogue.categories.find? fun category => category.id == technology.categoryId

def Catalogue.technologyBySlug (catalogue : Catalogue) (slug : Text) : Option TechnologyRow :=
  catalogue.technologies.find? fun technology => technology.slug == slug

def Catalogue.providerBySlug (catalogue : Catalogue) (slug : Text) : Option ProviderRow :=
  catalogue.providers.find? fun provider => provider.slug == slug

def Catalogue.mapsTo (catalogue : Catalogue) (providerId technologyId : Uuid) : Bool :=
  catalogue.providerMappings.any fun mapping =>
    mapping.technologyId == technologyId && mapping.providerId == providerId

/-- `COUNT(domain_current_technologies.domain_id)`. -/
def Database.adoptionCount (db : Database) (technologyId : Uuid) : Nat :=
  db.history.current.countP fun row => row.technologyId == technologyId

/-- The joined row of a technology with its net change. -/
def libraryItemWith (db : Database) (technology : TechnologyRow) (change : Int) :
    Option PublicTechnologyLibraryItem :=
  (db.catalogue.joinCategory technology).map fun category =>
    { slug := technology.slug
      displayName := technology.displayName
      categorySlug := category.slug
      categoryName := category.displayName
      adoptionCount := db.adoptionCount technology.id
      netChange := change
      trend := .fromNetChange change }

/-- A technology of the catalogue has a category, so its row joins. -/
theorem libraryItemWith_isSome {db : Database} {row : TechnologyRow}
    (member : row ∈ db.catalogue.technologies) (change : Int) :
    (libraryItemWith db row change).isSome = true := by
  obtain ⟨category, inCatalogue, same⟩ := db.catalogue.technologies_category row member
  rw [libraryItemWith, Option.isSome_map, Catalogue.joinCategory, List.find?_isSome]
  exact ⟨category, inCatalogue, by simpa using same⟩

/-- The joined row of a technology, as `technology_library_item_from_row` reads it. -/
def libraryItem (db : Database) (since : Time) (technology : TechnologyRow) :
    Option PublicTechnologyLibraryItem :=
  libraryItemWith db technology (netChange db.history.changes since fun id => id == technology.id)

/-- `$1::text IS NULL OR key > $1`. -/
def Collation.isAfter (collation : Collation) (cursor : Option Text) (key : Text) : Bool :=
  cursor.all fun cursor => !collation.le key cursor

/-- The number of rows a look-ahead page asks for, as a `BIGINT`. -/
def lookAhead (limit : Nat) : Except PublicReadError Nat :=
  if limit + 1 < 2 ^ 63 then .ok (limit + 1) else .error .unavailable

end Rows

section Technologies

structure PublicTechnologyLibraryPage where
  items : List PublicTechnologyLibraryItem
  categories : List PublicTechnologyCategory
  nextCursor : Option Text

def technologyCategories (collation : Collation) (catalogue : Catalogue) :
    List PublicTechnologyCategory :=
  (catalogue.categories.insertionSort fun left right => collation.le left.slug right.slug).map
    fun category => { slug := category.slug, displayName := category.displayName }

/-- The library query without its `LIMIT`. -/
def technologyRows (collation : Collation) (db : Database) (category : Option Text)
    (trend : Option PublicTechnologyTrend) (since : Time) (cursor : Option Text) :
    List PublicTechnologyLibraryItem :=
  ((db.catalogue.technologies.filterMap (libraryItem db since)).filter fun item =>
    category.all (fun slug => item.categorySlug == slug) && collation.isAfter cursor item.slug &&
      trend.all fun wanted => item.trend == wanted).insertionSort
    fun left right => collation.le left.slug right.slug

def technologies (collation : Collation) (db : Database) (category : Option Text)
    (trend : Option PublicTechnologyTrend) (cursor : Option Text) (limit : Nat) (since : Time) :
    Except PublicReadError PublicTechnologyLibraryPage := do
  let wanted ← lookAhead limit
  let page := poppedPage PublicTechnologyLibraryItem.slug limit
    ((technologyRows collation db category trend since cursor).take wanted)
  .ok {
    items := page.items
    categories := technologyCategories collation db.catalogue
    nextCursor := page.nextCursor }

end Technologies

section Domains

/-- The query of `technology_domains` without its `LIMIT`; archived domains are
not left out. -/
def technologyDomainRows (collation : Collation) (db : Database) (technology : Text)
    (cursor : Option Text) : List PublicDomainSummary :=
  ((db.history.current.filterMap fun row => do
    let found ← db.catalogue.technologyBySlug technology
    let domain ← if row.technologyId == found.id then db.domainOf row.domainId else none
    let policy ← db.policyOf domain.id
    some { canonicalDomain := domain.canonicalDomain
           lastCrawledAt := policy.lastSuccessfulCrawlAt }).filter fun summary =>
    collation.isAfter cursor summary.canonicalDomain).insertionSort
    fun left right => collation.le left.canonicalDomain right.canonicalDomain

def technologyDomains (collation : Collation) (db : Database) (technology : Text)
    (cursor : Option Text) (limit : Nat) :
    Except PublicReadError (Option (Page PublicDomainSummary Text)) := do
  match db.catalogue.technologyBySlug technology with
  | none => .ok none
  | some _ =>
      let wanted ← lookAhead limit
      .ok (some (poppedPage PublicDomainSummary.canonicalDomain limit
        ((technologyDomainRows collation db technology cursor).take wanted)))

structure PublicTechnologyHistoryPoint where
  day : Int
  netChange : Int
  deriving DecidableEq

structure PublicRelatedTechnology where
  slug : Text
  displayName : Text
  categorySlug : Text
  categoryName : Text
  sharedDomainCount : Nat
  deriving DecidableEq

structure PublicTechnologyProfile where
  item : PublicTechnologyLibraryItem
  history : List PublicTechnologyHistoryPoint
  relatedTechnologies : List PublicRelatedTechnology
  domains : Page PublicDomainSummary Text

/-- `date_trunc('day', ...)`, as the number of the day. -/
def dayOf (time : Time) : Int := time / 86400000000

/-- The `deltas` of one technology, with the times they were observed at. -/
def technologyDeltas (changes : List ChangeRow) (since : Time) (technologyId : Uuid) :
    List (Time × Int) :=
  ((changes.filter (broughtSince since technologyId)).map fun row => (row.observedAt, 1)) ++
    ((changes.filter (tookSince since technologyId)).map fun row => (row.observedAt, -1))

def technologyHistory (changes : List ChangeRow) (since : Time) (technologyId : Uuid) :
    List PublicTechnologyHistoryPoint :=
  let deltas := technologyDeltas changes since technologyId
  ((deltas.map fun delta => dayOf delta.1).dedup.insertionSort fun left right =>
    left ≤ right).map fun day =>
      { day := day
        netChange := ((deltas.filter fun delta => dayOf delta.1 == day).map fun delta =>
          delta.2).sum }

/-- `COUNT(DISTINCT domain_id)` of the domains that use both technologies. -/
def sharedDomainCount (current : List CurrentRow) (selected other : Uuid) : Nat :=
  (((current.filter fun row => row.technologyId == other).map CurrentRow.domainId).filter
    fun domainId => current.any fun row =>
      row.domainId == domainId && row.technologyId == selected).dedup.length

def relatedTechnologies (collation : Collation) (db : Database) (technologyId : Uuid) :
    List PublicRelatedTechnology :=
  (((db.catalogue.technologies.filterMap fun related => do
    let category ← db.catalogue.joinCategory related
    let shared := sharedDomainCount db.history.current technologyId related.id
    if related.id == technologyId || shared == 0 then none
    else some {
      slug := related.slug
      displayName := related.displayName
      categorySlug := category.slug
      categoryName := category.displayName
      sharedDomainCount := shared }).insertionSort fun left right =>
    decide (right.sharedDomainCount < left.sharedDomainCount) ||
      (left.sharedDomainCount == right.sharedDomainCount && collation.le left.slug right.slug))).take 6

def technologyProfile (collation : Collation) (db : Database) (technology : Text)
    (cursor : Option Text) (limit : Nat) (since : Time) :
    Except PublicReadError (Option PublicTechnologyProfile) := do
  match (db.catalogue.technologyBySlug technology).bind fun row =>
      (libraryItemWith db row (countedNetChange db.history.changes since row.id)).map
        fun item => (row, item) with
  | none => .ok none
  | some (row, item) =>
      let domains ← technologyDomains collation db technology cursor limit
      let domains ← orError domains .unavailable
      .ok (some {
        item := item
        history := technologyHistory db.history.changes since row.id
        relatedTechnologies := relatedTechnologies collation db row.id
        domains := domains })

end Domains

section Movers

structure PublicAnalyticsTechnologyMover where
  slug : Text
  displayName : Text
  categorySlug : Text
  categoryName : Text
  adoptionCount : Nat
  netChange : Int
  deriving DecidableEq

/-- The joined row of a technology that has a trend score at all. -/
def technologyMover (db : Database) (since : Time) (technology : TechnologyRow) :
    Option PublicAnalyticsTechnologyMover :=
  if (changeDeltas db.history.changes since).any fun delta => delta.1 == technology.id then
    (db.catalogue.joinCategory technology).map fun category =>
      { slug := technology.slug
        displayName := technology.displayName
        categorySlug := category.slug
        categoryName := category.displayName
        adoptionCount := db.adoptionCount technology.id
        netChange := netChange db.history.changes since fun id => id == technology.id }
  else none

/-- The order of the growing technologies, and the reverse one for the others. -/
def PublicAnalyticsTechnologyMover.before (collation : Collation) (growing : Bool)
    (left right : PublicAnalyticsTechnologyMover) : Bool :=
  (if growing then decide (right.netChange < left.netChange)
    else decide (left.netChange < right.netChange)) ||
    (left.netChange == right.netChange && collation.le left.slug right.slug)

def technologyMovers (collation : Collation) (db : Database) (since : Time) (limit : Nat)
    (growing : Bool) : Except PublicReadError (List PublicAnalyticsTechnologyMover) :=
  if limit < 2 ^ 63 then
    .ok ((((db.catalogue.technologies.filterMap (technologyMover db since)).filter fun mover =>
      if growing then decide (0 < mover.netChange) else decide (mover.netChange < 0)).insertionSort
        fun left right => left.before collation growing right).take limit)
  else .error .unavailable

end Movers

section Providers

structure PublicProviderProfile where
  slug : Text
  displayName : Text
  adoptionCount : Nat
  netChange : Int
  trend : PublicTechnologyTrend
  technologies : List PublicTechnologyLibraryItem
  domains : Page PublicDomainSummary Text

/-- The domain query of `provider_profile` without its `LIMIT`: each active
domain once, however many of the provider's technologies it uses. -/
def providerDomainRows (collation : Collation) (db : Database) (providerId : Uuid)
    (cursor : Option Text) : List PublicDomainSummary :=
  (((db.domains.filter fun domain => domain.isActive &&
      db.history.current.any fun row => row.domainId == domain.id &&
        db.catalogue.mapsTo providerId row.technologyId).map fun domain =>
    { canonicalDomain := domain.canonicalDomain
      lastCrawledAt := (db.policyOf domain.id).bind PolicyRow.lastSuccessfulCrawlAt :
        PublicDomainSummary }).filter fun summary =>
    collation.isAfter cursor summary.canonicalDomain).insertionSort
    fun left right => collation.le left.canonicalDomain right.canonicalDomain

def providerProfile (collation : Collation) (db : Database) (provider : Text)
    (cursor : Option Text) (limit : Nat) (since : Time) :
    Except PublicReadError (Option PublicProviderProfile) := do
  match db.catalogue.providerBySlug provider with
  | none => .ok none
  | some row =>
      let wanted ← lookAhead limit
      let mapped := db.catalogue.mapsTo row.id
      let change := netChange db.history.changes since mapped
      .ok (some {
        slug := row.slug
        displayName := row.displayName
        adoptionCount := ((db.history.current.filter fun row => mapped row.technologyId).map
          CurrentRow.domainId).dedup.length
        netChange := change
        trend := .fromNetChange change
        technologies := (((db.catalogue.technologies.filter fun technology =>
          mapped technology.id).filterMap (libraryItem db since)).insertionSort
            fun left right => collation.le left.slug right.slug)
        domains := poppedPage PublicDomainSummary.canonicalDomain limit
          ((providerDomainRows collation db row.id cursor).take wanted) })

end Providers

end TechAtlas.Store
