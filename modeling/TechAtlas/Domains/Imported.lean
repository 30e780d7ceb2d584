import TechAtlas.Store.Moves

set_option autoImplicit false

/- What a CSV import makes of its rows. The rows meet in the table of domains: a
row that is accepted takes its name from the rows after it. -/
namespace TechAtlas.Domains

open Library Store

section Definitions

structure CsvImportResult where
  importId : Uuid
  sourceName : Text
  acceptedRowCount : Nat
  duplicateRowCount : Nat
  rejectedRowCount : Nat
  rows : List ImportRow

/-- `checked_add(1)` of a `u32`. -/
def checkedSucc (count : Nat) : Option Nat := if count + 1 < 2 ^ 32 then some (count + 1) else none

def CsvImportResult.push (result : CsvImportResult) (row : ImportRow) : Option CsvImportResult :=
  match row.status with
  | .accepted => (checkedSucc result.acceptedRowCount).map fun count =>
      { result with acceptedRowCount := count, rows := result.rows ++ [row] }
  | .duplicate => (checkedSucc result.duplicateRowCount).map fun count =>
      { result with duplicateRowCount := count, rows := result.rows ++ [row] }
  | .rejected => (checkedSucc result.rejectedRowCount).map fun count =>
      { result with rejectedRowCount := count, rows := result.rows ++ [row] }

/-- The loop of `import_csv`. -/
def importRows (crate : UrlCrate) (policy : CrawlPolicy) (now : Time) (importId sourceId : Uuid)
    (fresh : Nat → Uuid) : Database → CsvImportResult → Nat → List CsvImportRowInput →
    Option (Database × CsvImportResult)
  | db, result, _, [] => some (db, result)
  | db, result, n, input :: rest => do
      let (db, row) ← processRow crate policy now importId sourceId (fresh n) db input
      let result ← result.push row
      importRows crate policy now importId sourceId fresh db result (n + 1) rest

/-- `complete_import`, whose counts are `i32`s. -/
def completeImportOf (db : Database) (result : CsvImportResult) : Option Database :=
  if result.acceptedRowCount < 2 ^ 31 ∧ result.duplicateRowCount < 2 ^ 31 ∧
      result.rejectedRowCount < 2 ^ 31 then
    some { db with
      imports := updateWhere (fun batch => batch.id == result.importId)
        (fun batch => { batch with
          status := .completed
          acceptedRowCount := result.acceptedRowCount
          duplicateRowCount := result.duplicateRowCount
          rejectedRowCount := result.rejectedRowCount }) db.imports }
  else none

/-- `import_csv` with the result it returns. -/
def importCsvResult (crate : UrlCrate) (db : Database) (command : CsvImportCommand)
    (policy : CrawlPolicy) (fresh : FreshImport) (now : Time) :
    Option (Database × CsvImportResult) := do
  let (db, sourceId) ← findOrCreateSource db command.sourceName fresh.sourceId
  let db ← createImport db fresh.importId sourceId command.initiatedBy
  let (db, result) ← importRows crate policy now fresh.importId sourceId fresh.domainId db
    { importId := fresh.importId
      sourceName := command.sourceName
      acceptedRowCount := 0
      duplicateRowCount := 0
      rejectedRowCount := 0
      rows := [] } 0 command.rows
  let db ← completeImportOf db result
  let db ← db.audit {
    actorSubject := command.initiatedBy
    action := "import.created"
    resourceKind := "import"
    resourceId := fresh.importId }
  some (db, result)

/-- The row is for a domain with the given canonical name. -/
def Names (crate : UrlCrate) (input : CsvImportRowInput) (name : Text) : Prop :=
  ∃ domain, CanonicalDomain.parse crate input.domain = .ok domain ∧ domain.text = name

/-- The domain row that an accepted row inserts. -/
def acceptedDomain (row : ImportRow) : Option DomainRow :=
  match row.status, row.domainId, row.canonicalDomain with
  | .accepted, some id, some name =>
      some { id := id, canonicalDomain := name, archivedAt := none }
  | _, _, _ => none

/-- What one row does to the store. -/
structure Processed (crate : UrlCrate) (policy : CrawlPolicy) (now : Time)
    (importId sourceId : Uuid) (db : Database) (input : CsvImportRowInput) (row : ImportRow)
    (next : Database) : Prop where
  batch : row.importId = importId
  echo : (row.rowNumber, row.inputDomain) = (input.rowNumber, input.domain)
  canonical : ∀ name, row.canonicalDomain = some name ↔ Names crate input name
  rejected : row.status = .rejected ↔ row.canonicalDomain = none
  accepted : row.status = .accepted ↔
    ∃ name, row.canonicalDomain = some name ∧ nameTaken db.domains name = false
  duplicate : row.status = .duplicate ↔
    ∃ name, row.canonicalDomain = some name ∧ nameTaken db.domains name = true
  inserted : row.status = .accepted ↔ ∃ domain, acceptedDomain row = some domain
  domains : next.domains = db.domains ++ (acceptedDomain row).toList
  policies : next.policies =
    db.policies ++ (acceptedDomain row).toList.map fun domain => newPolicy domain.id policy now
  fresh : ∀ domain ∈ (acceptedDomain row).toList, ∀ old ∈ db.policies, old.domainId ≠ domain.id
  numbered : 0 < row.rowNumber ∧ row.rowNumber < 2 ^ 31 ∧
    ∀ old ∈ db.importRows, old.importId = row.importId → old.rowNumber ≠ row.rowNumber
  stored : next.importRows = db.importRows ++ [row]
  members : db.memberships ⊆ next.memberships
  member : ∀ name, row.canonicalDomain = some name → ∃ domain ∈ next.domains,
    domain.isActive = true ∧ domain.canonicalDomain = name ∧ row.domainId = some domain.id ∧
      (domain.id, sourceId) ∈ next.memberships
  sources : next.sources = db.sources

end Definitions

section Rows

variable {crate : UrlCrate} {policy : CrawlPolicy} {now : Time} {importId sourceId : Uuid}
  {db mid next : Database} {input : CsvImportRowInput} {row : ImportRow}

theorem nameTaken_eq_true {domains : List DomainRow} {name : Text} :
    nameTaken domains name = true ↔
      ∃ domain ∈ domains, domain.canonicalDomain = name ∧ domain.isActive = true := by
  simp [nameTaken]

theorem nameTaken_append (first second : List DomainRow) (name : Text) :
    nameTaken (first ++ second) name = (nameTaken first name || nameTaken second name) :=
  List.any_append

theorem insertRow_eq_some (success : insertRow db row = some next) :
    (0 < row.rowNumber ∧ row.rowNumber < 2 ^ 31 ∧
      ∀ old ∈ db.importRows, old.importId = row.importId → old.rowNumber ≠ row.rowNumber) ∧
      next = { db with importRows := db.importRows ++ [row] } := by
  obtain ⟨rows, inserted, rfl⟩ := Option.map_eq_some_iff.mp success
  obtain ⟨admitted, rfl⟩ := insertChecked_eq_some.mp inserted
  simp only [Bool.and_eq_true, decide_eq_true_eq, List.all_eq_true, Bool.or_eq_true,
    bne_iff_ne] at admitted
  refine ⟨⟨admitted.1.1, admitted.1.2, ?_⟩, rfl⟩
  intro old member same
  exact (admitted.2 old member).resolve_left (absurd same)

theorem activeDomain_eq_some {name : Text} {domain : DomainRow}
    (found : db.activeDomain name = some domain) :
    domain ∈ db.domains ∧ domain.canonicalDomain = name ∧ domain.isActive = true := by
  obtain ⟨member, named⟩ := find?_eq_some_mem found
  rw [Bool.and_eq_true, beq_iff_eq] at named
  exact ⟨member, named⟩

theorem mem_upsertSourceMembership (db : Database) (domainId sourceId : Uuid) :
    db.memberships ⊆ (upsertSourceMembership db domainId sourceId).memberships ∧
      (domainId, sourceId) ∈ (upsertSourceMembership db domainId sourceId).memberships := by
  unfold upsertSourceMembership
  split
  next held => exact ⟨List.Subset.refl _, List.contains_iff_mem.mp held⟩
  next =>
    exact ⟨List.subset_append_left _ _, List.mem_append_right _ (List.mem_singleton_self _)⟩

@[simp] theorem upsertSourceMembership_domains (domainId : Uuid) :
    (upsertSourceMembership db domainId sourceId).domains = db.domains := by
  unfold upsertSourceMembership
  split <;> rfl

@[simp] theorem upsertSourceMembership_policies (domainId : Uuid) :
    (upsertSourceMembership db domainId sourceId).policies = db.policies := by
  unfold upsertSourceMembership
  split <;> rfl

@[simp] theorem upsertSourceMembership_importRows (domainId : Uuid) :
    (upsertSourceMembership db domainId sourceId).importRows = db.importRows := by
  unfold upsertSourceMembership
  split <;> rfl

@[simp] theorem upsertSourceMembership_sources (domainId : Uuid) :
    (upsertSourceMembership db domainId sourceId).sources = db.sources := by
  unfold upsertSourceMembership
  split <;> rfl

/-- A name that is free is inserted, and one that is taken has an active domain. -/
theorem importDomain_cases {id domainId : Uuid} {domain : CanonicalDomain}
    {status : CsvImportRowStatus}
    (success : importDomain db sourceId id domain policy now = some (mid, domainId, status)) :
    (mid.importRows = db.importRows ∧ mid.sources = db.sources ∧
      db.memberships ⊆ mid.memberships ∧ (domainId, sourceId) ∈ mid.memberships) ∧
    ((nameTaken db.domains domain.text = false ∧ status = .accepted ∧
      (∀ old ∈ db.policies, old.domainId ≠ domainId) ∧
      mid.domains = db.domains ++
        [{ id := domainId, canonicalDomain := domain.text, archivedAt := none }] ∧
      mid.policies = db.policies ++ [newPolicy domainId policy now]) ∨
    (nameTaken db.domains domain.text = true ∧ status = .duplicate ∧
      (∃ row ∈ db.domains, row.canonicalDomain = domain.text ∧ row.isActive = true ∧
        row.id = domainId) ∧ mid.domains = db.domains ∧ mid.policies = db.policies)) := by
  obtain ⟨⟨stored, inserted⟩, insertion, success⟩ := Option.bind_eq_some_iff.mp success
  obtain ⟨⟨found, result⟩, lookup, success⟩ := Option.bind_eq_some_iff.mp success
  cases success
  have joined := mem_upsertSourceMembership stored domainId sourceId
  simp only [upsertSourceMembership_domains, upsertSourceMembership_policies,
    upsertSourceMembership_importRows, upsertSourceMembership_sources]
  unfold insertDomainIfAbsent at insertion
  split at insertion
  next taken =>
    cases insertion
    obtain ⟨row, active, same⟩ := Option.map_eq_some_iff.mp lookup
    cases same
    obtain ⟨member, named, isActive⟩ := activeDomain_eq_some active
    exact ⟨⟨rfl, rfl, joined⟩, .inr ⟨taken, rfl, ⟨row, member, named, isActive, rfl⟩, rfl, rfl⟩⟩
  next free =>
    obtain ⟨rows, both, same⟩ := Option.map_eq_some_iff.mp insertion
    cases same
    cases lookup
    obtain ⟨fresh, _, _, rfl⟩ := insertDomainRows_eq_some both
    exact ⟨⟨rfl, rfl, joined⟩, .inl ⟨Bool.not_eq_true _ ▸ free, rfl, fresh, rfl, rfl⟩⟩

theorem processRow_spec {id : Uuid}
    (success : processRow crate policy now importId sourceId id db input = some (next, row)) :
    Processed crate policy now importId sourceId db input row next := by
  unfold processRow at success
  split at success
  next reason failed =>
    obtain ⟨stored, insertion, success⟩ := Option.bind_eq_some_iff.mp success
    cases success
    obtain ⟨numbered, rfl⟩ := insertRow_eq_some insertion
    have unnamed : ∀ name, ¬Names crate input name := by
      intro name named
      obtain ⟨domain, parsed, _⟩ := named
      rw [parseRowDomain, parsed] at failed
      cases failed
    constructor <;> simp [acceptedDomain, unnamed]
    exact numbered
  next domain parsed =>
    obtain ⟨⟨stored, domainId, status⟩, imported, success⟩ := Option.bind_eq_some_iff.mp success
    obtain ⟨written, insertion, success⟩ := Option.bind_eq_some_iff.mp success
    cases success
    obtain ⟨numbered, rfl⟩ := insertRow_eq_some insertion
    have named : ∀ name, domain.text = name ↔ Names crate input name := by
      intro name
      constructor
      · exact fun same => ⟨domain, mapError_eq_ok.mp parsed, same⟩
      · rintro ⟨other, parsedOther, same⟩
        rw [mapError_eq_ok.mp parsed] at parsedOther
        cases parsedOther
        exact same
    obtain ⟨⟨sameRows, sameSources, subset, joined⟩, changed⟩ := importDomain_cases imported
    rw [sameRows] at numbered
    rcases changed with ⟨free, rfl, fresh, domains, policies⟩ |
      ⟨taken, rfl, ⟨held, member, name, active, rfl⟩, domains, policies⟩
    · constructor
      · rfl
      · rfl
      · simpa using named
      · simp
      · simp [free]
      · simp [free]
      · simp [acceptedDomain]
      · simpa [acceptedDomain] using domains
      · simpa [acceptedDomain] using policies
      · simpa [acceptedDomain] using fresh
      · exact numbered
      · simp [sameRows]
      · exact subset
      · intro name same
        cases same
        refine ⟨{ id := domainId, canonicalDomain := domain.text, archivedAt := none }, ?_, rfl,
          rfl, rfl, joined⟩
        simp [domains]
      · exact sameSources
    · constructor
      · rfl
      · rfl
      · simpa using named
      · simp
      · simp [taken]
      · simp [taken]
      · simp [acceptedDomain]
      · simpa [acceptedDomain] using domains
      · simpa [acceptedDomain] using policies
      · simp [acceptedDomain]
      · exact numbered
      · simp [sameRows]
      · exact subset
      · intro other same
        cases same
        refine ⟨held, ?_, active, name, rfl, joined⟩
        simpa [domains] using member
      · exact sameSources

/-- The names that are taken after a row: those taken before it, and its own. -/
theorem Processed.taken (processed : Processed crate policy now importId sourceId db input row next)
    (name : Text) : nameTaken next.domains name = true ↔
      nameTaken db.domains name = true ∨ Names crate input name := by
  rw [processed.domains, nameTaken_append, Bool.or_eq_true]
  constructor
  · rintro (old | new)
    · exact .inl old
    · obtain ⟨domain, member, named, _⟩ := nameTaken_eq_true.mp new
      rw [Option.mem_toList] at member
      unfold acceptedDomain at member
      split at member
      next canonical =>
        cases member
        exact .inr ((processed.canonical name).mp (named ▸ canonical))
      next => cases member
  · rintro (old | named)
    · exact .inl old
    · have canonical := (processed.canonical name).mpr named
      by_cases taken : nameTaken db.domains name = true
      · exact .inl taken
      · obtain ⟨domain, member, active, same, _⟩ := processed.member name canonical
        rw [← Bool.or_eq_true, ← nameTaken_append, ← processed.domains]
        exact nameTaken_eq_true.mpr ⟨domain, member, same, active⟩

end Rows

section Documents

/-- The status of a row: the domains there were and the rows before it decide. -/
structure Classified (crate : UrlCrate) (db : Database) (before : List CsvImportRowInput)
    (input : CsvImportRowInput) (row : ImportRow) : Prop where
  rejected : row.status = .rejected ↔ ¬∃ name, Names crate input name
  accepted : row.status = .accepted ↔ ∃ name, Names crate input name ∧
    (∀ earlier ∈ before, ¬Names crate earlier name) ∧ nameTaken db.domains name = false
  duplicate : row.status = .duplicate ↔ ∃ name, Names crate input name ∧
    ((∃ earlier ∈ before, Names crate earlier name) ∨ nameTaken db.domains name = true)

/-- What the rows of a document do to the store, one after the other. -/
structure ProcessedRows (crate : UrlCrate) (policy : CrawlPolicy) (now : Time)
    (importId sourceId : Uuid) (db : Database) (inputs : List CsvImportRowInput)
    (rows : List ImportRow) (next : Database) : Prop where
  batch : ∀ row ∈ rows, row.importId = importId
  echo : rows.map (fun row => (row.rowNumber, row.inputDomain)) =
    inputs.map fun input => (input.rowNumber, input.domain)
  classified : ∀ before input later, inputs = before ++ input :: later →
    ∀ row, rows[before.length]? = some row → Classified crate db before input row
  rejected : ∀ row ∈ rows, row.status = .rejected ↔ row.canonicalDomain = none
  inserted : ∀ row ∈ rows, row.status = .accepted ↔ ∃ domain, acceptedDomain row = some domain
  domains : next.domains = db.domains ++ rows.filterMap acceptedDomain
  policies : next.policies =
    db.policies ++ (rows.filterMap acceptedDomain).map fun domain => newPolicy domain.id policy now
  fresh : ∀ domain ∈ rows.filterMap acceptedDomain, ∀ old ∈ db.policies, old.domainId ≠ domain.id
  single : ∀ domain ∈ rows.filterMap acceptedDomain,
    next.policies.filter (fun held => held.domainId == domain.id) = [newPolicy domain.id policy now]
  numbered : (rows.map ImportRow.rowNumber).Nodup ∧
    ∀ row ∈ rows, 0 < row.rowNumber ∧ row.rowNumber < 2 ^ 31
  unstored : ∀ row ∈ rows, ∀ old ∈ db.importRows, old.importId = row.importId →
    old.rowNumber ≠ row.rowNumber
  members : db.memberships ⊆ next.memberships
  member : ∀ row ∈ rows, ∀ name, row.canonicalDomain = some name → ∃ domain ∈ next.domains,
    domain.isActive = true ∧ domain.canonicalDomain = name ∧ row.domainId = some domain.id ∧
      (domain.id, sourceId) ∈ next.memberships
  taken : ∀ name, nameTaken next.domains name = true ↔
    nameTaken db.domains name = true ∨ ∃ input ∈ inputs, Names crate input name
  sources : next.sources = db.sources

variable {crate : UrlCrate} {policy : CrawlPolicy} {now : Time} {importId sourceId : Uuid}
  {db mid next : Database} {input : CsvImportRowInput} {row : ImportRow}
  {inputs : List CsvImportRowInput} {rows : List ImportRow}

theorem Processed.classified
    (processed : Processed crate policy now importId sourceId db input row next) :
    Classified crate db [] input row where
  rejected := by
    rw [processed.rejected, Option.eq_none_iff_forall_ne_some]
    simp only [ne_eq, processed.canonical, not_exists]
  accepted := by
    rw [processed.accepted]
    simp only [processed.canonical, List.not_mem_nil, false_implies, implies_true, true_and]
  duplicate := by
    rw [processed.duplicate]
    simp only [processed.canonical, List.not_mem_nil, false_and, exists_false, false_or]

/-- The rows already processed stand before the row as well. -/
theorem Classified.cons {first : CsvImportRowInput} {before : List CsvImportRowInput}
    (taken : ∀ name, nameTaken mid.domains name = true ↔
      nameTaken db.domains name = true ∨ Names crate first name)
    (classified : Classified crate mid before input row) :
    Classified crate db (first :: before) input row where
  rejected := classified.rejected
  accepted := by
    rw [classified.accepted]
    apply exists_congr
    intro name
    rw [← Bool.not_eq_true, taken, not_or, ← Bool.not_eq_true]
    simp only [List.mem_cons, forall_eq_or_imp]
    tauto
  duplicate := by
    rw [classified.duplicate]
    apply exists_congr
    intro name
    rw [taken]
    simp only [List.mem_cons, exists_eq_or_imp]
    generalize (∃ earlier ∈ before, Names crate earlier name) = repeated
    tauto

theorem ProcessedRows.nil : ProcessedRows crate policy now importId sourceId db [] [] db := by
  constructor <;> simp

theorem ProcessedRows.cons
    (processed : Processed crate policy now importId sourceId db input row mid)
    (rest : ProcessedRows crate policy now importId sourceId mid inputs rows next) :
    ProcessedRows crate policy now importId sourceId db (input :: inputs) (row :: rows) next := by
  have split : (row :: rows).filterMap acceptedDomain =
      (acceptedDomain row).toList ++ rows.filterMap acceptedDomain := by
    cases accepted : acceptedDomain row <;> simp [accepted]
  have stored : row ∈ mid.importRows := by
    rw [processed.stored]
    exact List.mem_append_right _ (List.mem_singleton_self _)
  constructor
  · exact List.forall_mem_cons.mpr ⟨processed.batch, rest.batch⟩
  · rw [List.map_cons, List.map_cons, rest.echo, processed.echo]
  · intro before other later same row' found
    cases before with
    | nil =>
        cases same
        cases found
        exact processed.classified
    | cons first before =>
        cases same
        exact (rest.classified before other later rfl row' found).cons processed.taken
  · exact List.forall_mem_cons.mpr ⟨processed.rejected, rest.rejected⟩
  · exact List.forall_mem_cons.mpr ⟨processed.inserted, rest.inserted⟩
  · rw [rest.domains, processed.domains, split, List.append_assoc]
  · rw [rest.policies, processed.policies, split, List.map_append, List.append_assoc]
  · intro domain member old held
    rw [split] at member
    rcases List.mem_append.mp member with own | later
    · exact processed.fresh domain own old held
    · apply rest.fresh domain later old
      rw [processed.policies]
      exact List.mem_append_left _ held
  · intro domain member
    rw [split] at member
    rcases List.mem_append.mp member with own | later
    · have alone : (acceptedDomain row).toList = [domain] := by
        rw [Option.mem_toList] at own
        rw [own]
        rfl
      have kept : newPolicy domain.id policy now ∈ mid.policies := by
        rw [processed.policies, alone]
        exact List.mem_append_right _ (List.mem_singleton_self _)
      have old : db.policies.filter (fun held => held.domainId == domain.id) = [] := by
        rw [List.filter_eq_nil_iff]
        intro held member same
        exact processed.fresh domain own held member (beq_iff_eq.mp same)
      have later : ((rows.filterMap acceptedDomain).map fun other =>
          newPolicy other.id policy now).filter (fun held => held.domainId == domain.id) = [] := by
        rw [List.filter_eq_nil_iff]
        intro held member same
        obtain ⟨other, accepted, rfl⟩ := List.mem_map.mp member
        exact rest.fresh other accepted _ kept (beq_iff_eq.mp same).symm
      rw [rest.policies, processed.policies, alone, List.filter_append, List.filter_append, old,
        later]
      simp [newPolicy]
    · exact rest.single domain later
  · constructor
    · rw [List.map_cons, List.nodup_cons]
      refine ⟨?_, rest.numbered.1⟩
      intro member
      obtain ⟨other, later, same⟩ := List.mem_map.mp member
      exact rest.unstored other later row stored
        (processed.batch.trans (rest.batch other later).symm) same.symm
    · exact List.forall_mem_cons.mpr ⟨⟨processed.numbered.1, processed.numbered.2.1⟩,
        rest.numbered.2⟩
  · refine List.forall_mem_cons.mpr ⟨processed.numbered.2.2, ?_⟩
    intro other later old held
    apply rest.unstored other later old
    rw [processed.stored]
    exact List.mem_append_left _ held
  · exact fun pair held => rest.members (processed.members held)
  · refine List.forall_mem_cons.mpr ⟨?_, rest.member⟩
    intro name canonical
    obtain ⟨domain, member, active, named, same, joined⟩ := processed.member name canonical
    refine ⟨domain, ?_, active, named, same, rest.members joined⟩
    rw [rest.domains]
    exact List.mem_append_left _ member
  · intro name
    rw [rest.taken, processed.taken, or_assoc]
    simp only [List.mem_cons, exists_eq_or_imp]
  · rw [rest.sources, processed.sources]

theorem processRows_spec {fresh : Nat → Uuid} {n : Nat}
    (success : processRows crate policy now importId sourceId fresh db n inputs =
      some (next, rows)) : ProcessedRows crate policy now importId sourceId db inputs rows next := by
  induction inputs generalizing db n rows with
  | nil =>
      cases success
      exact .nil
  | cons input rest ih =>
      obtain ⟨⟨mid, row⟩, first, success⟩ := Option.bind_eq_some_iff.mp success
      obtain ⟨⟨last, others⟩, remaining, success⟩ := Option.bind_eq_some_iff.mp success
      cases success
      exact .cons (processRow_spec first) (ih remaining)

/-- Row numbers are positive `i32`s and differ, which bounds the document. -/
theorem ProcessedRows.length_lt
    (processed : ProcessedRows crate policy now importId sourceId db inputs rows next) :
    rows.length < 2 ^ 31 := by
  have subset : 0 :: rows.map ImportRow.rowNumber ⊆ List.range (2 ^ 31) := by
    intro number member
    rw [List.mem_range]
    rcases List.mem_cons.mp member with rfl | later
    · exact Nat.two_pow_pos 31
    · obtain ⟨row, held, rfl⟩ := List.mem_map.mp later
      exact (processed.numbered.2 row held).2
  have distinct : (0 :: rows.map ImportRow.rowNumber).Nodup := by
    rw [List.nodup_cons]
    refine ⟨?_, processed.numbered.1⟩
    intro member
    obtain ⟨row, held, zero⟩ := List.mem_map.mp member
    exact (processed.numbered.2 row held).1.ne' zero
  have bound := (List.subperm_of_subset distinct subset).length_le
  rw [List.length_cons, List.length_map, List.length_range] at bound
  exact bound

end Documents

section Counts

variable {crate : UrlCrate} {policy : CrawlPolicy} {now : Time} {importId sourceId : Uuid}
  {db next : Database} {result result' : CsvImportResult} {row : ImportRow}
  {inputs : List CsvImportRowInput} {rows : List ImportRow}

/-- The result after more rows. -/
def CsvImportResult.extended (result : CsvImportResult) (rows : List ImportRow) :
    CsvImportResult where
  importId := result.importId
  sourceName := result.sourceName
  acceptedRowCount := result.acceptedRowCount + rowCount .accepted rows
  duplicateRowCount := result.duplicateRowCount + rowCount .duplicate rows
  rejectedRowCount := result.rejectedRowCount + rowCount .rejected rows
  rows := result.rows ++ rows

theorem checkedSucc_eq_some {count next : Nat} (success : checkedSucc count = some next) :
    next = count + 1 := by
  unfold checkedSucc at success
  split at success
  · exact (Option.some.inj success).symm
  · cases success

theorem checkedSucc_of_lt {count : Nat} (small : count + 1 < 2 ^ 32) :
    checkedSucc count = some (count + 1) := if_pos small

theorem push_eq_some (success : result.push row = some result') :
    result' = result.extended [row] := by
  unfold CsvImportResult.push at success
  split at success <;>
    (next status =>
      obtain ⟨count, increased, rfl⟩ := Option.map_eq_some_iff.mp success
      rw [checkedSucc_eq_some increased]
      simp [CsvImportResult.extended, rowCount, status])

theorem push_of_lt (accepted : result.acceptedRowCount + 1 < 2 ^ 32)
    (duplicate : result.duplicateRowCount + 1 < 2 ^ 32)
    (rejected : result.rejectedRowCount + 1 < 2 ^ 32) :
    result.push row = some (result.extended [row]) := by
  unfold CsvImportResult.push
  split
  next status =>
    rw [checkedSucc_of_lt accepted]
    simp [CsvImportResult.extended, rowCount, status]
  next status =>
    rw [checkedSucc_of_lt duplicate]
    simp [CsvImportResult.extended, rowCount, status]
  next status =>
    rw [checkedSucc_of_lt rejected]
    simp [CsvImportResult.extended, rowCount, status]

theorem extended_extended (result : CsvImportResult) (row : ImportRow) (rows : List ImportRow) :
    (result.extended [row]).extended rows = result.extended (row :: rows) := by
  simp [CsvImportResult.extended, rowCount, List.countP_cons]
  omega

theorem importRows_eq_some {fresh : Nat → Uuid} {n : Nat}
    (success : importRows crate policy now importId sourceId fresh db result n inputs =
      some (next, result')) : ∃ rows, result' = result.extended rows ∧
        processRows crate policy now importId sourceId fresh db n inputs = some (next, rows) := by
  induction inputs generalizing db n result with
  | nil =>
      cases success
      exact ⟨[], by simp [CsvImportResult.extended, rowCount], rfl⟩
  | cons input rest ih =>
      obtain ⟨⟨mid, row⟩, first, success⟩ := Option.bind_eq_some_iff.mp success
      obtain ⟨counted, pushed, success⟩ := Option.bind_eq_some_iff.mp success
      obtain ⟨rows, same, remaining⟩ := ih success
      refine ⟨row :: rows, ?_, ?_⟩
      · rw [same, push_eq_some pushed, extended_extended]
      · rw [processRows, first]
        change (processRows crate policy now importId sourceId fresh mid (n + 1) rest).bind _ = _
        rw [remaining]
        rfl

theorem importRows_of_processRows {fresh : Nat → Uuid} {n : Nat}
    (accepted : result.acceptedRowCount + rows.length < 2 ^ 32)
    (duplicate : result.duplicateRowCount + rows.length < 2 ^ 32)
    (rejected : result.rejectedRowCount + rows.length < 2 ^ 32)
    (success : processRows crate policy now importId sourceId fresh db n inputs =
      some (next, rows)) :
    importRows crate policy now importId sourceId fresh db result n inputs =
      some (next, result.extended rows) := by
  induction inputs generalizing db n result rows with
  | nil =>
      cases success
      simp [importRows, CsvImportResult.extended, rowCount]
  | cons input rest ih =>
      obtain ⟨⟨mid, row⟩, first, success⟩ := Option.bind_eq_some_iff.mp success
      obtain ⟨⟨last, others⟩, remaining, success⟩ := Option.bind_eq_some_iff.mp success
      cases success
      rw [List.length_cons] at accepted duplicate rejected
      have pushed : result.push row = some (result.extended [row]) :=
        push_of_lt (by omega) (by omega) (by omega)
      have counted : ∀ status, rowCount status [row] ≤ 1 := fun status => List.countP_le_length
      have more : importRows crate policy now importId sourceId fresh mid (result.extended [row])
          (n + 1) rest = some (next, (result.extended [row]).extended others) := by
        have accepting := counted .accepted
        have duplicating := counted .duplicate
        have rejecting := counted .rejected
        apply ih _ _ _ remaining
        · change result.acceptedRowCount + rowCount .accepted [row] + others.length < _
          omega
        · change result.duplicateRowCount + rowCount .duplicate [row] + others.length < _
          omega
        · change result.rejectedRowCount + rowCount .rejected [row] + others.length < _
          omega
      rw [importRows, first]
      change (result.push row).bind _ = _
      rw [pushed]
      change importRows _ _ _ _ _ _ _ _ _ _ = _
      rw [more, extended_extended]

theorem completeImportOf_extended {sourceName : Text} (small : rows.length < 2 ^ 31) :
    completeImportOf db (CsvImportResult.extended
      { importId := importId
        sourceName := sourceName
        acceptedRowCount := 0
        duplicateRowCount := 0
        rejectedRowCount := 0
        rows := [] } rows) = completeImport db importId rows := by
  have bounded : ∀ status, rowCount status rows < 2 ^ 31 :=
    fun status => lt_of_le_of_lt List.countP_le_length small
  simp only [completeImportOf, completeImport, CsvImportResult.extended, Nat.zero_add]
  rw [if_pos ⟨bounded _, bounded _, bounded _⟩, if_neg (Nat.not_le.mpr small)]

/-- The counters agree with the rows, so both readings of the import commit the
same store. -/
theorem importCsvResult_eq (crate : UrlCrate) (db : Database) (command : CsvImportCommand)
    (policy : CrawlPolicy) (fresh : FreshImport) (now : Time) :
    importCsvResult crate db command policy fresh now =
      (importCsv crate db command policy fresh now).map fun (db, rows) =>
        (db, CsvImportResult.extended
          { importId := fresh.importId
            sourceName := command.sourceName
            acceptedRowCount := 0
            duplicateRowCount := 0
            rejectedRowCount := 0
            rows := [] } rows) := by
  simp only [importCsvResult, importCsv, Option.bind_eq_bind]
  cases findOrCreateSource db command.sourceName fresh.sourceId with
  | none => rfl
  | some sourced =>
      simp only [Option.bind_some]
      cases createImport sourced.1 fresh.importId sourced.2 command.initiatedBy with
      | none => rfl
      | some created =>
          simp only [Option.bind_some]
          cases processed : processRows crate policy now fresh.importId sourced.2 fresh.domainId
            created 0 command.rows with
          | none =>
              cases counted : importRows crate policy now fresh.importId sourced.2 fresh.domainId
                created _ 0 command.rows with
              | none => rfl
              | some answer =>
                  obtain ⟨rows, _, some⟩ := importRows_eq_some counted
                  rw [processed] at some
                  cases some
          | some answer =>
              have small := (processRows_spec processed).length_lt
              rw [importRows_of_processRows _ _ _ processed]
              · simp only [Option.bind_some, completeImportOf_extended small]
                cases completeImport answer.1 fresh.importId answer.2 with
                | none => rfl
                | some completed =>
                    simp only [Option.bind_some]
                    cases completed.audit _ <;> rfl
              all_goals
                simp only [Nat.zero_add]
                omega

end Counts

section Imports

/-- What an import that succeeds returns and commits. -/
structure Imported (crate : UrlCrate) (db : Database) (command : CsvImportCommand)
    (policy : CrawlPolicy) (now : Time) (next : Database) (result : CsvImportResult) : Prop where
  echo : result.rows.map (fun row => (row.rowNumber, row.inputDomain)) =
    command.rows.map fun input => (input.rowNumber, input.domain)
  classified : ∀ before input later, command.rows = before ++ input :: later →
    ∀ row, result.rows[before.length]? = some row → Classified crate db before input row
  counts : result.acceptedRowCount = rowCount .accepted result.rows ∧
    result.duplicateRowCount = rowCount .duplicate result.rows ∧
    result.rejectedRowCount = rowCount .rejected result.rows
  active : (next.domains.filter DomainRow.isActive).map DomainRow.canonicalDomain =
    (db.domains.filter DomainRow.isActive).map DomainRow.canonicalDomain ++
      (result.rows.filter fun row => row.status == .accepted).filterMap ImportRow.canonicalDomain
  policies : ∀ row ∈ result.rows, row.status = .accepted → ∃ id, row.domainId = some id ∧
    next.policies.filter (fun held => held.domainId == id) = [newPolicy id policy now]
  members : ∃ source ∈ next.sources, source.name = command.sourceName ∧
    ∀ row ∈ result.rows, row.status ≠ .rejected → ∃ domain ∈ next.domains,
      domain.isActive = true ∧ row.canonicalDomain = some domain.canonicalDomain ∧
        row.domainId = some domain.id ∧ (domain.id, source.id) ∈ next.memberships

variable {crate : UrlCrate} {policy : CrawlPolicy} {now : Time} {importId sourceId : Uuid}
  {db mid next : Database} {row : ImportRow} {inputs : List CsvImportRowInput}
  {rows : List ImportRow}

theorem acceptedDomain_eq_some {domain : DomainRow} (accepted : acceptedDomain row = some domain) :
    row.canonicalDomain = some domain.canonicalDomain ∧ row.domainId = some domain.id ∧
      domain.isActive = true := by
  unfold acceptedDomain at accepted
  split at accepted
  next canonical =>
    cases accepted
    exact ⟨canonical, ‹_›, rfl⟩
  next => cases accepted

/-- The accepted rows insert the domains they name. -/
theorem acceptedDomains_names
    (inserted : ∀ row ∈ rows, row.status = .accepted ↔ ∃ domain, acceptedDomain row = some domain) :
    ((rows.filterMap acceptedDomain).filter DomainRow.isActive).map DomainRow.canonicalDomain =
      (rows.filter fun row => row.status == .accepted).filterMap ImportRow.canonicalDomain := by
  induction rows with
  | nil => rfl
  | cons row rest ih =>
      have own := inserted row List.mem_cons_self
      have others := ih fun other member => inserted other (List.mem_cons_of_mem row member)
      cases accepted : acceptedDomain row with
      | none =>
          have status : ¬row.status = .accepted := by
            rw [own, accepted]
            exact fun found => nomatch found
          rw [List.filterMap_cons_none accepted, others, List.filter_cons_of_neg]
          rw [beq_iff_eq]
          exact status
      | some domain =>
          obtain ⟨canonical, _, active⟩ := acceptedDomain_eq_some accepted
          have status : (row.status == .accepted) = true := beq_iff_eq.mpr (own.mpr ⟨domain, accepted⟩)
          rw [List.filterMap_cons_some accepted, List.filter_cons_of_pos active, List.map_cons,
            others, List.filter_cons_of_pos (p := fun row : ImportRow => row.status == .accepted)
              status, List.filterMap_cons_some canonical]

theorem findOrCreateSource_spec {name : Text} {id : Uuid}
    (success : findOrCreateSource db name id = some (next, sourceId)) :
    (next.domains = db.domains ∧ next.policies = db.policies) ∧
      ∃ source ∈ next.sources, source.name = name ∧ source.id = sourceId := by
  unfold findOrCreateSource at success
  split at success
  next source found =>
    cases success
    obtain ⟨member, named⟩ := find?_eq_some_mem found
    exact ⟨⟨rfl, rfl⟩, source, member, beq_iff_eq.mp named, rfl⟩
  next =>
    obtain ⟨sources, inserted, same⟩ := Option.map_eq_some_iff.mp success
    cases same
    obtain ⟨_, rfl⟩ := insertChecked_eq_some.mp inserted
    exact ⟨⟨rfl, rfl⟩, _, List.mem_append_right _ (List.mem_singleton_self _), rfl, rfl⟩

/-- An import is its rows, between steps that leave domains, policies and
memberships alone. -/
theorem importCsv_rows {command : CsvImportCommand} {fresh : FreshImport}
    (success : importCsv crate db command policy fresh now = some (next, rows)) :
    ∃ mid last source, (mid.domains = db.domains ∧ mid.policies = db.policies) ∧
      (next.domains = last.domains ∧ next.policies = last.policies ∧
        next.memberships = last.memberships) ∧
      (source ∈ next.sources ∧ source.name = command.sourceName) ∧
      ProcessedRows crate policy now fresh.importId source.id mid command.rows rows last := by
  obtain ⟨⟨first, sourceId⟩, sourced, success⟩ := Option.bind_eq_some_iff.mp success
  obtain ⟨second, created, success⟩ := Option.bind_eq_some_iff.mp success
  obtain ⟨⟨last, found⟩, processed, success⟩ := Option.bind_eq_some_iff.mp success
  obtain ⟨completed, completion, success⟩ := Option.bind_eq_some_iff.mp success
  obtain ⟨audited, audit, success⟩ := Option.bind_eq_some_iff.mp success
  cases success
  obtain ⟨⟨domains, policies⟩, source, member, named, rfl⟩ := findOrCreateSource_spec sourced
  obtain ⟨_, _, rfl⟩ := Option.map_eq_some_iff.mp created
  have rowsProcessed := processRows_spec processed
  have kept : (next.domains = last.domains ∧ next.policies = last.policies ∧
      next.memberships = last.memberships) ∧ next.sources = last.sources := by
    unfold completeImport at completion
    unfold Database.audit at audit
    split at completion
    · cases completion
    · cases completion
      split at audit
      · cases audit
      · cases audit
        exact ⟨⟨rfl, rfl, rfl⟩, rfl⟩
  refine ⟨_, last, source, ?_, kept.1, ⟨?_, named⟩, rowsProcessed⟩
  · exact ⟨domains, policies⟩
  · rw [kept.2, rowsProcessed.sources]
    exact member

theorem importCsv_imported {command : CsvImportCommand} {fresh : FreshImport}
    {result : CsvImportResult}
    (success : importCsvResult crate db command policy fresh now = some (next, result)) :
    Imported crate db command policy now next result ∧
      ∀ input ∈ command.rows, ∀ name, Names crate input name →
        nameTaken next.domains name = true := by
  rw [importCsvResult_eq] at success
  obtain ⟨⟨last, rows⟩, imported, same⟩ := Option.map_eq_some_iff.mp success
  cases same
  obtain ⟨mid, last, source, ⟨before, beforePolicies⟩, ⟨after, afterPolicies, memberships⟩,
    ⟨sourced, named⟩, processed⟩ := importCsv_rows imported
  constructor
  · constructor
    · exact processed.echo
    · intro before' input later split row found
      have classified := processed.classified before' input later split row found
      exact ⟨classified.rejected, before ▸ classified.accepted, before ▸ classified.duplicate⟩
    · simp [CsvImportResult.extended]
    · rw [after, processed.domains, before, List.filter_append, List.map_append,
        acceptedDomains_names processed.inserted]
      rfl
    · intro row member accepted
      obtain ⟨domain, inserted⟩ := (processed.inserted row member).mp accepted
      obtain ⟨_, id, _⟩ := acceptedDomain_eq_some inserted
      refine ⟨domain.id, id, ?_⟩
      rw [afterPolicies]
      exact processed.single domain (List.mem_filterMap.mpr ⟨row, member, inserted⟩)
    · refine ⟨source, sourced, named, ?_⟩
      intro row member valid
      rw [ne_eq, processed.rejected row member] at valid
      obtain ⟨name, canonical⟩ := Option.ne_none_iff_exists'.mp valid
      obtain ⟨domain, held, active, same, id, joined⟩ := processed.member row member name canonical
      rw [after, memberships]
      exact ⟨domain, held, active, same ▸ canonical, id, joined⟩
  · intro input member name names
    rw [after, processed.taken]
    exact .inr ⟨input, member, names⟩

/-- A failed import leaves the store as it was. One that succeeds classifies every
row, and repeating its document accepts none. -/
theorem importCsv_classifies (crate : UrlCrate) (db : Database) (command : CsvImportCommand)
    (policy : CrawlPolicy) (fresh : FreshImport) (now : Time) :
    match importCsvResult crate db command policy fresh now with
    | none => exec crate db (.importCsv command policy fresh now) = db
    | some (next, result) =>
        exec crate db (.importCsv command policy fresh now) = next ∧
          Imported crate db command policy now next result ∧
          ∀ (again : CsvImportCommand) laterPolicy laterFresh laterNow last second,
            again.rows = command.rows →
            importCsvResult crate next again laterPolicy laterFresh laterNow =
              some (last, second) → ∀ row ∈ second.rows, row.status ≠ .accepted := by
  have committed : exec crate db (.importCsv command policy fresh now) =
      ((importCsvResult crate db command policy fresh now).map Prod.fst).getD db := by
    rw [importCsvResult_eq, Option.map_map]
    rfl
  cases success : importCsvResult crate db command policy fresh now with
  | none =>
      rw [success] at committed
      exact committed
  | some answer =>
      rw [success] at committed
      obtain ⟨imported, taken⟩ := importCsv_imported success
      refine ⟨committed, imported, ?_⟩
      intro again laterPolicy laterFresh laterNow last second sameRows repeated row member accepted
      have repeatedImport := (importCsv_imported repeated).1
      have sameLength := congrArg List.length repeatedImport.echo
      rw [List.length_map, List.length_map] at sameLength
      obtain ⟨i, bound, rfl⟩ := List.mem_iff_getElem.mp member
      have within : i < again.rows.length := sameLength ▸ bound
      have split : again.rows =
          again.rows.take i ++ again.rows[i] :: again.rows.drop (i + 1) := by
        rw [List.getElem_cons_drop, List.take_append_drop]
      have classified := repeatedImport.classified _ _ _ split second.rows[i] (by
        rw [List.length_take, Nat.min_eq_left within.le]
        exact List.getElem?_eq_getElem bound)
      obtain ⟨name, names, _, free⟩ := classified.accepted.mp accepted
      have listed : again.rows[i] ∈ command.rows := by
        rw [← sameRows]
        exact List.getElem_mem within
      have held := taken again.rows[i] listed name names
      rw [free] at held
      cases held

end Imports

end TechAtlas.Domains
