import TechAtlas.Store.Statements

set_option autoImplicit false

/- `PostgresDomainRepository` and `PostgresCsvImportRepository`: how domain
rows come to exist and how they are read back. -/
namespace TechAtlas.Store

open Library

/-- A priority and a positive interval, as `CrawlPolicy::new` checks. -/
structure CrawlPolicy where
  priority : CrawlPriority
  desiredInterval : Duration
  desiredInterval_pos : 0 < desiredInterval

def DomainCreationDefaults.crawlPolicy : CrawlPolicy where
  priority := .medium
  desiredInterval := CrawlPriority.medium.defaultInterval
  desiredInterval_pos := by decide

inductive DomainRepositoryError
  | duplicate
  | unavailable
  deriving DecidableEq, Repr

/-- `domains_active_canonical_domain_key`. -/
def nameTaken (domains : List DomainRow) (name : Text) : Bool :=
  domains.any fun domain => domain.canonicalDomain == name && domain.isActive

def newPolicy (domainId : Uuid) (policy : CrawlPolicy) (now : Time) : PolicyRow where
  domainId := domainId
  isEnabled := true
  priority := policy.priority
  desiredInterval := policy.desiredInterval
  lastCrawlAt := none
  lastSuccessfulCrawlAt := none
  nextCrawlAt := none
  consecutiveFailureCount := 0
  lastFailureAt := none
  terminalFailureAt := none
  createdAt := now
  updatedAt := now

/-- The two insertions of a new domain, given that its name is free. -/
def insertDomainRows (db : Database) (id : Uuid) (name : Text) (policy : CrawlPolicy)
    (now : Time) : Option Database := do
  let domains ← insertChecked
    (fun rows row => row.valid && rows.all fun old => old.id != row.id)
    { id := id, canonicalDomain := name, archivedAt := none } db.domains
  let policies ← insertChecked
    (fun rows row => row.valid && rows.all fun old => old.domainId != row.domainId)
    (newPolicy id policy now) db.policies
  some { db with domains := domains, policies := policies }

structure Domain where
  id : Uuid
  canonicalDomain : CanonicalDomain

/-- The stored name is parsed again, and a failure rolls the insertion back. -/
def insertDomain (crate : UrlCrate) (db : Database) (id : Uuid) (domain : CanonicalDomain)
    (policy : CrawlPolicy) (now : Time) : Except DomainRepositoryError (Database × Domain) := do
  require (!nameTaken db.domains domain.text) .duplicate
  let db ← orError (insertDomainRows db id domain.text policy now) .unavailable
  match CanonicalDomain.parse crate domain.text with
  | .error _ => .error .unavailable
  | .ok stored => .ok (db, { id := id, canonicalDomain := stored })

def createWithAudit (crate : UrlCrate) (db : Database) (id : Uuid) (domain : CanonicalDomain)
    (policy : CrawlPolicy) (actorSubject : Text) (now : Time) :
    Except DomainRepositoryError (Database × Domain) := do
  let (db, created) ← insertDomain crate db id domain policy now
  let db ← orError (db.audit {
    actorSubject := actorSubject
    action := "domain.created"
    resourceKind := "domain"
    resourceId := created.id }) .unavailable
  .ok (db, created)

def rowToDomain (crate : UrlCrate) (row : DomainRow) : Except DomainRepositoryError Domain :=
  match CanonicalDomain.parse crate row.canonicalDomain with
  | .error _ => .error .unavailable
  | .ok canonicalDomain => .ok { id := row.id, canonicalDomain := canonicalDomain }

/-- The active domains after the cursor, by name. -/
def activeDomains (db : Database) (after : Option Text) (limit : Nat) : List DomainRow :=
  ((db.domains.filter fun domain =>
    domain.isActive && after.all fun cursor => decide (cursor < domain.canonicalDomain)).insertionSort
      fun left right => left.canonicalDomain ≤ right.canonicalDomain).take limit

def listActive (crate : UrlCrate) (db : Database) (after : Option Text) (limit : Nat) :
    Except DomainRepositoryError (List Domain) :=
  if 2 ^ 63 ≤ limit then .error .unavailable
  else (activeDomains db after limit).mapM (rowToDomain crate)

section CsvImport

inductive CsvImportRowError
  | emptyDomain
  | invalidDomain
  deriving DecidableEq, Repr

def CsvImportRowError.asStr : CsvImportRowError → Text
  | .emptyDomain => "empty_domain".toList
  | .invalidDomain => "invalid_domain".toList

def classifyDomainError : CanonicalDomainError → CsvImportRowError
  | .empty => .emptyDomain
  | _ => .invalidDomain

def parseRowDomain (crate : UrlCrate) (input : Text) :
    Except CsvImportRowError CanonicalDomain :=
  (CanonicalDomain.parse crate input).mapError classifyDomainError

structure CsvImportRowInput where
  rowNumber : Nat
  domain : Text
  deriving DecidableEq, Repr

structure CsvImportCommand where
  sourceName : Text
  initiatedBy : Text
  rows : List CsvImportRowInput

/-- The identifiers of an import: its source if that is new, the batch, and one
per accepted row. -/
structure FreshImport where
  sourceId : Uuid
  importId : Uuid
  domainId : Nat → Uuid

def findOrCreateSource (db : Database) (name : Text) (id : Uuid) : Option (Database × Uuid) :=
  match db.sources.find? fun source => source.name == name with
  | some source => some (db, source.id)
  | none =>
      (insertChecked
        (fun rows row => !(btrim row.name).isEmpty && rows.all fun old => old.id != row.id)
        { id := id, name := name } db.sources).map fun sources => ({ db with sources := sources }, id)

def createImport (db : Database) (id sourceId : Uuid) (initiatedBy : Text) : Option Database :=
  (insertChecked
    (fun rows row => !(btrim row.initiatedBy).isEmpty && rows.all fun old => old.id != row.id)
    { id := id
      sourceId := sourceId
      initiatedBy := initiatedBy
      status := .processing
      acceptedRowCount := 0
      duplicateRowCount := 0
      rejectedRowCount := 0 } db.imports).map fun imports => { db with imports := imports }

/-- `ON CONFLICT DO NOTHING`: no row for a name that is taken. -/
def insertDomainIfAbsent (db : Database) (id : Uuid) (domain : CanonicalDomain)
    (policy : CrawlPolicy) (now : Time) : Option (Database × Option Uuid) :=
  if nameTaken db.domains domain.text then some (db, none)
  else (insertDomainRows db id domain.text policy now).map fun db => (db, some id)

def upsertSourceMembership (db : Database) (domainId sourceId : Uuid) : Database :=
  if db.memberships.contains (domainId, sourceId) then db
  else { db with memberships := db.memberships ++ [(domainId, sourceId)] }

/-- The domain of a row that parsed: inserted, or the one already active. -/
def importedDomain (db : Database) (domain : CanonicalDomain) :
    Option Uuid → Option (Uuid × CsvImportRowStatus)
  | some domainId => some (domainId, .accepted)
  | none => (db.activeDomain domain.text).map fun row => (row.id, .duplicate)

def importDomain (db : Database) (sourceId id : Uuid) (domain : CanonicalDomain)
    (policy : CrawlPolicy) (now : Time) : Option (Database × Uuid × CsvImportRowStatus) := do
  let (db, inserted) ← insertDomainIfAbsent db id domain policy now
  let (domainId, status) ← importedDomain db domain inserted
  some (upsertSourceMembership db domainId sourceId, domainId, status)

def insertRow (db : Database) (row : ImportRow) : Option Database :=
  (insertChecked
    (fun rows row => decide (0 < row.rowNumber) && decide (row.rowNumber < 2 ^ 31) &&
      rows.all fun old => old.importId != row.importId || old.rowNumber != row.rowNumber)
    row db.importRows).map fun rows => { db with importRows := rows }

def processRow (crate : UrlCrate) (policy : CrawlPolicy) (now : Time) (importId sourceId id : Uuid)
    (db : Database) (input : CsvImportRowInput) : Option (Database × ImportRow) := do
  match parseRowDomain crate input.domain with
  | .error reason =>
      let row : ImportRow := {
        importId := importId
        rowNumber := input.rowNumber
        inputDomain := input.domain
        canonicalDomain := none
        domainId := none
        status := .rejected
        errorCode := some reason.asStr }
      let db ← insertRow db row
      some (db, row)
  | .ok domain =>
      let (db, domainId, status) ← importDomain db sourceId id domain policy now
      let row : ImportRow := {
        importId := importId
        rowNumber := input.rowNumber
        inputDomain := input.domain
        canonicalDomain := some domain.text
        domainId := some domainId
        status := status
        errorCode := none }
      let db ← insertRow db row
      some (db, row)

def processRows (crate : UrlCrate) (policy : CrawlPolicy) (now : Time) (importId sourceId : Uuid)
    (fresh : Nat → Uuid) : Database → Nat → List CsvImportRowInput →
    Option (Database × List ImportRow)
  | db, _, [] => some (db, [])
  | db, n, input :: rest => do
      let (db, row) ← processRow crate policy now importId sourceId (fresh n) db input
      let (db, rows) ← processRows crate policy now importId sourceId fresh db (n + 1) rest
      some (db, row :: rows)

def rowCount (status : CsvImportRowStatus) (rows : List ImportRow) : Nat :=
  rows.countP fun row => row.status == status

/-- The row counts are `INTEGER` columns. -/
def completeImport (db : Database) (importId : Uuid) (rows : List ImportRow) : Option Database :=
  if 2 ^ 31 ≤ rows.length then none
  else
    some { db with
      imports := updateWhere (fun batch => batch.id == importId)
        (fun batch => { batch with
          status := .completed
          acceptedRowCount := rowCount .accepted rows
          duplicateRowCount := rowCount .duplicate rows
          rejectedRowCount := rowCount .rejected rows }) db.imports }

def importCsv (crate : UrlCrate) (db : Database) (command : CsvImportCommand)
    (policy : CrawlPolicy) (fresh : FreshImport) (now : Time) : Option (Database × List ImportRow) := do
  let (db, sourceId) ← findOrCreateSource db command.sourceName fresh.sourceId
  let db ← createImport db fresh.importId sourceId command.initiatedBy
  let (db, rows) ← processRows crate policy now fresh.importId sourceId fresh.domainId db 0
    command.rows
  let db ← completeImport db fresh.importId rows
  let db ← db.audit {
    actorSubject := command.initiatedBy
    action := "import.created"
    resourceKind := "import"
    resourceId := fresh.importId }
  some (db, rows)

end CsvImport

end TechAtlas.Store
