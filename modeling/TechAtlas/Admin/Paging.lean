import TechAtlas.Domains.Stored
import TechAtlas.Rules.Definition
import TechAtlas.Store.PublicRead

set_option autoImplicit false

/- The paged listings of the admin API. Both cut the surplus row of their
look-ahead and continue strictly after the last row they show; the cursor passes
through text in between. -/
namespace TechAtlas.Admin

open Library Store Rules

section AuditEvents

structure AuditEventRow where
  id : Uuid
  actorSubject : Text
  action : Text
  resourceKind : Text
  resourceId : Uuid
  occurredAt : Time
  deriving DecidableEq, Repr

/-- The years 0 to 9999, which RFC 3339 can write. -/
def rfc3339InRange (t : Time) : Bool :=
  decide (-62167219200000000 ≤ t) && decide (t ≤ 253402300799999999)

/-- `admin_audit_events`. No statement sets `occurred_at`, so each is the time of
the server's clock when its row was inserted. -/
structure AuditLog where
  rows : List AuditEventRow
  unique : (rows.map AuditEventRow.id).Nodup
  dated : ∀ row ∈ rows, rfc3339InRange row.occurredAt = true

/-- What the listing uses of the `time` and `uuid` crates. -/
structure TextCrates where
  formatRfc3339 : Time → Option Text
  parseRfc3339 : Text → Option Time
  uuidToString : Uuid → Text
  uuidParseStr : Text → Option Uuid

structure AdminAuditEvent where
  id : Text
  actorSubject : Text
  action : Text
  resourceKind : Text
  resourceId : Text
  occurredAt : Time
  deriving DecidableEq, Repr

structure AdminAuditCursor where
  occurredAt : Time
  id : Text
  id_present : trim id ≠ []

def AdminAuditCursor.new (occurredAt : Time) (id : Text) :
    Except AdminOperationError AdminAuditCursor :=
  if present : trim id ≠ [] then .ok ⟨occurredAt, id, present⟩ else .error .validation

/-- `ORDER BY occurred_at DESC, id DESC`. -/
def NewestFirst (left right : AuditEventRow) : Prop :=
  right.occurredAt < left.occurredAt ∨
    (right.occurredAt = left.occurredAt ∧ right.id ≤ left.id)

instance : DecidableRel NewestFirst := fun left right =>
  inferInstanceAs (Decidable (right.occurredAt < left.occurredAt ∨
    (right.occurredAt = left.occurredAt ∧ right.id ≤ left.id)))

/-- `(occurred_at, id) < ($1, $2)`. -/
def AuditEventRow.isBefore (position : Time × Uuid) (row : AuditEventRow) : Bool :=
  decide (row.occurredAt < position.1) ||
    (decide (row.occurredAt = position.1) && decide (row.id < position.2))

/-- The events before the position of a cursor, the newest first. -/
def auditRows (log : AuditLog) (position : Option (Time × Uuid)) : List AuditEventRow :=
  (log.rows.filter fun row => position.all fun position => row.isBefore position).insertionSort
    NewestFirst

variable (crates : TextCrates)

def AuditEventRow.event (row : AuditEventRow) : AdminAuditEvent where
  id := crates.uuidToString row.id
  actorSubject := row.actorSubject
  action := row.action
  resourceKind := row.resourceKind
  resourceId := crates.uuidToString row.resourceId
  occurredAt := row.occurredAt

def cursorPosition : Option AdminAuditCursor → Except AdminOperationError (Option (Time × Uuid))
  | none => .ok none
  | some cursor =>
      match crates.uuidParseStr cursor.id with
      | some id => .ok (some (cursor.occurredAt, id))
      | none => .error .validation

def lastCursor (events : List AdminAuditEvent) :
    Except AdminOperationError (Option AdminAuditCursor) :=
  match events.getLast? with
  | none => .ok none
  | some event => (AdminAuditCursor.new event.occurredAt event.id).map some

def auditEvents (log : AuditLog) (cursor : Option AdminAuditCursor) (limit : Nat) :
    Except AdminOperationError (List AdminAuditEvent × Option AdminAuditCursor) := do
  let position ← cursorPosition crates cursor
  -- `saturating_add`, then the conversion to a `BIGINT`
  let fetched := min (limit + 1) (2 ^ 64 - 1)
  require (decide (fetched < 2 ^ 63)) .unavailable
  let events := ((auditRows log position).take fetched).map (AuditEventRow.event crates)
  if limit < events.length then do
    let next ← lastCursor events.dropLast
    .ok (events.dropLast, next)
  else .ok (events, none)

def mapOperation : AdminOperationError → AdminApiError
  | .notFound => .notFound
  | .validation => .validation
  | .conflict => .conflict
  | .unavailable => .unavailable

def parseAuditCursor (value : Text) : Except AdminApiError AdminAuditCursor := do
  let (occurredAt, id) ← orError (rsplitOnce ',' value) .validation
  let occurredAt ← orError (crates.parseRfc3339 occurredAt) .validation
  (AdminAuditCursor.new occurredAt id).mapError mapOperation

def formatAuditCursor (cursor : AdminAuditCursor) : Except AdminApiError Text := do
  let occurredAt ← orError (crates.formatRfc3339 cursor.occurredAt) .unavailable
  .ok (occurredAt ++ ',' :: cursor.id)

/-- A page of the audit events, as a client follows it. -/
def auditPage (log : AuditLog) (limit : Nat) (cursor : Option Text) :
    Option (Page AdminAuditEvent Text) := do
  let cursor ← match cursor with
    | none => some none
    | some value => (parseAuditCursor crates value).toOption.map some
  let (events, next) ← (auditEvents crates log cursor limit).toOption
  match next with
  | none => some { items := events, nextCursor := none }
  | some next =>
      (formatAuditCursor crates next).toOption.map fun text =>
        { items := events, nextCursor := some text }

end AuditEvents

section Domains

variable (collation : Collation) (crate : UrlCrate) (db : Database)

/-- `ORDER BY canonical_domain ASC`. -/
def ByName (left right : DomainRow) : Prop :=
  collation.le left.canonicalDomain right.canonicalDomain = true

instance : DecidableRel (ByName collation) := fun left right =>
  inferInstanceAs (Decidable (collation.le left.canonicalDomain right.canonicalDomain = true))

/-- The active domains after the cursor, in the order of the database. -/
def activeAfter (after : Option Text) : List DomainRow :=
  (db.domains.filter fun domain =>
    domain.isActive && collation.isAfter after domain.canonicalDomain).insertionSort
      (ByName collation)

/-- `list_active` of the repository. -/
def listActiveIn (after : Option Text) (limit : Nat) :
    Except DomainRepositoryError (List Domain) :=
  if 2 ^ 63 ≤ limit then .error .unavailable
  else ((activeAfter collation db after).take limit).mapM (rowToDomain crate)

inductive DomainServiceError
  | invalidInput (error : CanonicalDomainError)
  | duplicate
  | unavailable
  deriving DecidableEq, Repr

def DomainServiceError.ofRepository : DomainRepositoryError → DomainServiceError
  | .duplicate => .duplicate
  | .unavailable => .unavailable

/-- `list_active` of `DomainService`. -/
def serviceListActive (after : Option CanonicalDomain) (limit : Nat) :
    Except DomainServiceError (Page Domain CanonicalDomain) := do
  -- `checked_add`
  require (decide (limit + 1 < 2 ^ 64)) .unavailable
  let domains ← (listActiveIn collation crate db (after.map CanonicalDomain.text)
    (limit + 1)).mapError DomainServiceError.ofRepository
  .ok {
    items := domains.take limit
    nextCursor :=
      if limit < domains.length then domains[limit - 1]?.map Domain.canonicalDomain else none }

/-- A page of the domains, as a client follows it. -/
def domainsPage (limit : Nat) (cursor : Option Text) : Option (Page Domain Text) := do
  let after ← match cursor with
    | none => some none
    | some value => (CanonicalDomain.parse crate value).toOption.map some
  let page ← (serviceListActive collation crate db after limit).toOption
  some { items := page.items, nextCursor := page.nextCursor.map CanonicalDomain.text }

end Domains

section Order

theorem newestFirst_total (left right : AuditEventRow) :
    NewestFirst left right ∨ NewestFirst right left := by
  unfold NewestFirst
  rcases lt_trichotomy left.occurredAt right.occurredAt with earlier | same | later
  · exact Or.inr (Or.inl earlier)
  · rcases le_total left.id right.id with below | above
    · exact Or.inr (Or.inr ⟨same, below⟩)
    · exact Or.inl (Or.inr ⟨same.symm, above⟩)
  · exact Or.inl (Or.inl later)

theorem newestFirst_trans {left middle right : AuditEventRow} (first : NewestFirst left middle)
    (second : NewestFirst middle right) : NewestFirst left right := by
  unfold NewestFirst at first second ⊢
  rcases first with later | ⟨same, above⟩
  · rcases second with before | ⟨same, _⟩
    · exact Or.inl (lt_trans before later)
    · exact Or.inl (same ▸ later)
  · rcases second with before | ⟨again, below⟩
    · exact Or.inl (same ▸ before)
    · exact Or.inr ⟨again.trans same, le_trans below above⟩

instance : Std.Total NewestFirst := ⟨newestFirst_total⟩

instance : IsTrans AuditEventRow NewestFirst := ⟨fun _ _ _ => newestFirst_trans⟩

theorem isBefore_position (row other : AuditEventRow) :
    other.isBefore (row.occurredAt, row.id) = !decide (NewestFirst other row) := by
  rw [Bool.eq_iff_iff, Bool.not_eq_true', decide_eq_false_iff_not]
  simp only [AuditEventRow.isBefore, NewestFirst, Bool.or_eq_true, Bool.and_eq_true,
    decide_eq_true_eq, not_or, not_and, not_lt, not_le]
  constructor
  · intro before
    rcases before with earlier | ⟨same, below⟩
    · exact ⟨earlier.le, fun equal => absurd equal.symm (ne_of_lt earlier)⟩
    · exact ⟨same.le, fun _ => below⟩
  · intro notAfter
    rcases lt_or_eq_of_le notAfter.1 with earlier | same
    · exact Or.inl earlier
    · exact Or.inr ⟨same, notAfter.2 same.symm⟩

/-- No two events of the log have the same place in the order. -/
theorem newestFirst_antisymm (log : AuditLog) : ∀ left ∈ log.rows, ∀ right ∈ log.rows,
    NewestFirst left right → NewestFirst right left → left = right := by
  intro left inLeft right inRight first second
  unfold NewestFirst at first second
  have sameTime : left.occurredAt = right.occurredAt := by
    rcases first with later | ⟨same, _⟩
    · rcases second with before | ⟨same, _⟩
      · exact absurd before (lt_asymm later)
      · exact same
    · exact same.symm
  have sameId : left.id = right.id := by
    rcases first with later | ⟨_, below⟩
    · exact absurd sameTime.symm (ne_of_lt later)
    · rcases second with before | ⟨_, above⟩
      · exact absurd sameTime (ne_of_lt before)
      · exact le_antisymm above below
  exact eq_of_key_eq log.unique inLeft inRight sameId

end Order

section Codec

/-- What the listing relies on for a row: its identifier is written without a
comma and read back, and so is its time if RFC 3339 can write it. -/
structure ReadsBack (crates : TextCrates) (row : AuditEventRow) : Prop where
  time : rfc3339InRange row.occurredAt = true → ∃ text,
    crates.formatRfc3339 row.occurredAt = some text ∧
      crates.parseRfc3339 text = some row.occurredAt
  id : crates.uuidParseStr (crates.uuidToString row.id) = some row.id
  plain : ',' ∉ crates.uuidToString row.id
  present : trim (crates.uuidToString row.id) ≠ []

variable {crates : TextCrates} {log : AuditLog} {row : AuditEventRow}

/-- The cursor of a row. -/
def AuditEventRow.cursor (row : AuditEventRow) (reads : ReadsBack crates row) :
    AdminAuditCursor :=
  ⟨row.occurredAt, crates.uuidToString row.id, reads.present⟩

theorem new_eq (reads : ReadsBack crates row) :
    AdminAuditCursor.new row.occurredAt (crates.uuidToString row.id) = .ok (row.cursor reads) :=
  dif_pos reads.present

/-- The text of an event's cursor. -/
def cursorText (crates : TextCrates) (event : AdminAuditEvent) : Text :=
  (crates.formatRfc3339 event.occurredAt).getD [] ++ ',' :: event.id

theorem formatAuditCursor_eq (reads : ReadsBack crates row)
    (dated : rfc3339InRange row.occurredAt = true) :
    formatAuditCursor crates (row.cursor reads) = .ok (cursorText crates (row.event crates)) := by
  obtain ⟨text, written, _⟩ := reads.time dated
  rw [cursorText, AuditEventRow.event, written]
  simp only [formatAuditCursor, AuditEventRow.cursor, written]
  rfl

theorem parseAuditCursor_eq (reads : ReadsBack crates row)
    (dated : rfc3339InRange row.occurredAt = true) :
    parseAuditCursor crates (cursorText crates (row.event crates)) = .ok (row.cursor reads) := by
  obtain ⟨text, written, read⟩ := reads.time dated
  have split : rsplitOnce ',' (cursorText crates (row.event crates)) =
      some (text, crates.uuidToString row.id) := by
    rw [cursorText, AuditEventRow.event, written]
    exact rsplitOnce_append reads.plain text
  rw [parseAuditCursor, split]
  change (orError (crates.parseRfc3339 text) _ >>= _) = _
  rw [read]
  change (AdminAuditCursor.new row.occurredAt (crates.uuidToString row.id)).mapError _ = _
  rw [new_eq reads]
  rfl

end Codec

section AuditPages

variable {crates : TextCrates} {log : AuditLog} {row : AuditEventRow} {limit : Nat}

theorem fetched_eq (bounded : limit + 1 < 2 ^ 63) : min (limit + 1) (2 ^ 64 - 1) = limit + 1 := by
  omega

theorem lastCursor_eq {rows : List AuditEventRow} (last : rows.getLast? = some row)
    (reads : ReadsBack crates row) :
    lastCursor (rows.map (AuditEventRow.event crates)) = .ok (some (row.cursor reads)) := by
  rw [lastCursor, List.getLast?_map, last]
  change (AdminAuditCursor.new row.occurredAt (crates.uuidToString row.id)).map some = _
  rw [new_eq reads]
  rfl

theorem mem_of_mem_auditRows {position : Option (Time × Uuid)}
    (member : row ∈ auditRows log position) : row ∈ log.rows := by
  rw [auditRows, List.mem_insertionSort] at member
  exact List.mem_of_mem_filter member

/-- What is left of a look-ahead without its surplus row. -/
theorem dropLast_lookAhead {ρ : Type} {rows : List ρ} (more : limit < rows.length) :
    (rows.take (limit + 1)).dropLast = rows.take limit := by
  have length : (rows.take (limit + 1)).length - 1 = limit := by
    rw [List.length_take]
    omega
  rw [List.dropLast_eq_take, length, List.take_take, Nat.min_eq_left (Nat.le_succ limit)]

/-- The page of a successful look-ahead. -/
theorem auditEvents_eq (bounded : limit + 1 < 2 ^ 63) {cursor : Option AdminAuditCursor}
    {position : Option (Time × Uuid)} (found : cursorPosition crates cursor = .ok position) :
    auditEvents crates log cursor limit =
      (let events := (auditRows log position).map (AuditEventRow.event crates)
      if limit < events.length then
        (lastCursor (events.take limit)).map fun next => (events.take limit, next)
      else .ok (events, none)) := by
  have admitted : decide (min (limit + 1) (2 ^ 64 - 1) < 2 ^ 63) = true := by
    rw [fetched_eq bounded]
    exact decide_eq_true bounded
  rw [auditEvents, found]
  change (require (decide (min (limit + 1) (2 ^ 64 - 1) < 2 ^ 63)) AdminOperationError.unavailable
    >>= _) = _
  rw [admitted, fetched_eq bounded]
  change (if _ then _ else _) = (if _ then _ else _)
  rw [List.map_take]
  generalize (auditRows log position).map (AuditEventRow.event crates) = events
  by_cases more : limit < events.length
  · have ahead : limit < (events.take (limit + 1)).length := by
      rw [List.length_take]
      omega
    rw [if_pos more, if_pos ahead, dropLast_lookAhead more]
    cases lastCursor (events.take limit) <;> rfl
  · have all : events.take (limit + 1) = events := List.take_of_length_le (by omega)
    rw [if_neg more, all, if_neg more]

/-- A page shows the first rows and continues after the last of them. -/
theorem auditPage_of_position (bounded : limit + 1 < 2 ^ 63) (positive : 0 < limit)
    (reads : ∀ row ∈ log.rows, ReadsBack crates row) {cursor : Option AdminAuditCursor}
    {position : Option (Time × Uuid)} (found : cursorPosition crates cursor = .ok position) :
    ((auditEvents crates log cursor limit).toOption.bind fun (events, next) =>
      match next with
      | none => some ⟨events, none⟩
      | some next => (formatAuditCursor crates next).toOption.map fun text => ⟨events, some text⟩) =
    some (cutPage (cursorText crates) limit
      ((auditRows log position).map (AuditEventRow.event crates))) := by
  rw [auditEvents_eq bounded found]
  dsimp only
  by_cases more : limit < ((auditRows log position).map (AuditEventRow.event crates)).length
  · rw [if_pos more, ← List.map_take]
    have kept : (auditRows log position).take limit ≠ [] := by
      rw [List.length_map] at more
      rw [ne_eq, List.take_eq_nil_iff, not_or]
      exact ⟨by omega, List.ne_nil_of_length_pos (by omega)⟩
    have last := List.getLast?_eq_some_getLast kept
    have inLog := mem_of_mem_auditRows (List.mem_of_mem_take (List.getLast_mem kept))
    have own := reads _ inLog
    have emitted : lastCursor (((auditRows log position).take limit).map
        (AuditEventRow.event crates)) = .ok (some (AuditEventRow.cursor _ own)) :=
      lastCursor_eq last own
    rw [emitted]
    simp only [Except.map, Except.toOption, Option.bind_some,
      formatAuditCursor_eq own (log.dated _ inLog), Option.map_some, cutPage, if_pos more,
      ← List.map_take, List.getLast?_map, last]
  · rw [if_neg more]
    have all : ((auditRows log position).map (AuditEventRow.event crates)).take limit =
        (auditRows log position).map (AuditEventRow.event crates) :=
      List.take_of_length_le (Nat.le_of_not_lt more)
    simp only [Except.toOption, Option.bind_some, cutPage, if_neg more, all]

/-- The cursor of a row stands for its place in the order. -/
theorem auditRows_after {before rest : List AuditEventRow}
    (split : auditRows log none = before ++ row :: rest) :
    auditRows log (some (row.occurredAt, row.id)) = rest := by
  have all : log.rows.insertionSort NewestFirst = before ++ row :: rest := by
    rw [← split, auditRows]
    congr 1
    exact (List.filter_eq_self.mpr fun _ _ => rfl).symm
  rw [auditRows]
  have same : (log.rows.filter fun other =>
      (some (row.occurredAt, row.id)).all fun position => other.isBefore position) =
      log.rows.filter fun other => !decide (NewestFirst other row) := by
    apply List.filter_congr
    intro other _
    exact isBefore_position row other
  rw [same]
  exact insertionSort_following log.unique.of_map (newestFirst_antisymm log) all

/-- Following the cursors of the audit events lists all of them. -/
theorem auditPage_complete (bounded : limit + 1 < 2 ^ 63) (positive : 0 < limit)
    (reads : ∀ row ∈ log.rows, ReadsBack crates row) :
    ∃ pages, collect (auditPage crates log limit) pages none =
      some ((auditRows log none).map (AuditEventRow.event crates)) := by
  have start : auditPage crates log limit none = some (cutPage (cursorText crates) limit
      ((auditRows log none).map (AuditEventRow.event crates))) :=
    auditPage_of_position bounded positive reads rfl
  refine collect_cut positive ?_ [] _ rfl none start
  intro before event rest split
  obtain ⟨rowsBefore, others, whole, rfl, tail⟩ := List.map_eq_append_iff.mp split
  obtain ⟨row, rowsAfter, rfl, rfl, rfl⟩ := List.map_eq_cons_iff.mp tail
  have listed : row ∈ auditRows log none := by
    rw [whole]
    exact List.mem_append_right rowsBefore List.mem_cons_self
  have inLog := mem_of_mem_auditRows listed
  have own := reads row inLog
  have position : cursorPosition crates (some (row.cursor own)) =
      .ok (some (row.occurredAt, row.id)) := by
    rw [cursorPosition]
    change (match crates.uuidParseStr (crates.uuidToString row.id) with
      | some id => _
      | none => _) = _
    rw [own.id]
    rfl
  have served := auditPage_of_position bounded positive reads position
  rw [auditRows_after whole] at served
  rw [← served, auditPage]
  simp only [parseAuditCursor_eq own (log.dated row inLog), Except.toOption, Option.map_some]
  rfl

/-- Every cursor that the repository emits is read back. -/
theorem emitted_cursor_reads (bounded : limit + 1 < 2 ^ 63)
    (reads : ∀ row ∈ log.rows, ReadsBack crates row) {cursor : Option AdminAuditCursor}
    {events : List AdminAuditEvent} {next : AdminAuditCursor}
    (success : auditEvents crates log cursor limit = .ok (events, some next)) :
    ∃ text, formatAuditCursor crates next = .ok text ∧ parseAuditCursor crates text = .ok next := by
  cases found : cursorPosition crates cursor with
  | error reason =>
      rw [auditEvents, found] at success
      cases success
  | ok position =>
      rw [auditEvents_eq bounded found] at success
      dsimp only at success
      split at success
      · rw [← List.map_take] at success
        cases last : ((auditRows log position).take limit).getLast? with
        | none =>
            rw [List.getLast?_eq_none_iff] at last
            rw [last] at success
            cases success
        | some row =>
            have inLog := mem_of_mem_auditRows
              (List.mem_of_mem_take (List.mem_of_getLast? last))
            have own := reads row inLog
            rw [lastCursor_eq last own] at success
            cases success
            exact ⟨_, formatAuditCursor_eq own (log.dated row inLog),
              parseAuditCursor_eq own (log.dated row inLog)⟩
      · cases success

end AuditPages

section DomainPages

variable {collation : Collation} {crate : UrlCrate} {db : Database} {limit : Nat}

/-- Every active name is a fixed point of the parser, and no two are the same. -/
structure Listable (crate : UrlCrate) (db : Database) : Prop where
  fixed : ∀ row ∈ db.domains, row.isActive = true → ∃ domain,
    CanonicalDomain.parse crate row.canonicalDomain = .ok domain ∧
      domain.text = row.canonicalDomain
  distinct : ((db.domains.filter DomainRow.isActive).map DomainRow.canonicalDomain).Nodup

/-- The domain that a row is read as. -/
def readDomain (crate : UrlCrate) (row : DomainRow) : Domain :=
  (rowToDomain crate row).toOption.getD ⟨row.id, exampleDomain⟩

theorem Listable.rowToDomain (listable : Listable crate db) {row : DomainRow}
    (member : row ∈ db.domains) (active : row.isActive = true) :
    Store.rowToDomain crate row = .ok (readDomain crate row) ∧
      (readDomain crate row).id = row.id ∧
      (readDomain crate row).canonicalDomain.text = row.canonicalDomain ∧
      CanonicalDomain.parse crate row.canonicalDomain =
        .ok (readDomain crate row).canonicalDomain := by
  obtain ⟨domain, parsed, text⟩ := listable.fixed row member active
  have read : Store.rowToDomain crate row = .ok ⟨row.id, domain⟩ := by
    rw [Store.rowToDomain, parsed]
  have same : readDomain crate row = ⟨row.id, domain⟩ := by
    rw [readDomain, read]
    rfl
  rw [same]
  exact ⟨read, rfl, text, parsed⟩

theorem activeAfter_mem {after : Option Text} {row : DomainRow}
    (member : row ∈ activeAfter collation db after) :
    row ∈ db.domains ∧ row.isActive = true := by
  rw [activeAfter, List.mem_insertionSort, List.mem_filter, Bool.and_eq_true] at member
  exact ⟨member.1, member.2.1⟩

theorem mapM_eq_ok_map {ε α β : Type} {f : α → Except ε β} {g : α → β} {items : List α}
    (agree : ∀ item ∈ items, f item = .ok (g item)) : items.mapM f = .ok (items.map g) := by
  induction items with
  | nil => rfl
  | cons item rest ih =>
      have later := ih fun other member => agree other (List.mem_cons_of_mem item member)
      rw [List.mapM_cons, agree item List.mem_cons_self, later]
      rfl

/-- A page shows the first domains and continues after the last of them. -/
theorem serviceListActive_eq (listable : Listable crate db) (bounded : limit + 1 < 2 ^ 63)
    (positive : 0 < limit) (after : Option CanonicalDomain) :
    serviceListActive collation crate db after limit = .ok (cutPage Domain.canonicalDomain limit
      ((activeAfter collation db (after.map CanonicalDomain.text)).map (readDomain crate))) := by
  have fits : decide (limit + 1 < 2 ^ 64) = true := decide_eq_true (by omega)
  have fetched : listActiveIn collation crate db (after.map CanonicalDomain.text) (limit + 1) =
      .ok (((activeAfter collation db (after.map CanonicalDomain.text)).take (limit + 1)).map
        (readDomain crate)) := by
    rw [listActiveIn, if_neg (Nat.not_le.mpr bounded)]
    apply mapM_eq_ok_map
    intro row member
    obtain ⟨inTable, active⟩ := activeAfter_mem (List.mem_of_mem_take member)
    exact (listable.rowToDomain inTable active).1
  rw [serviceListActive, fits, fetched, List.map_take]
  generalize (activeAfter collation db (after.map CanonicalDomain.text)).map (readDomain crate) =
    domains
  rw [← cutPage_take Domain.canonicalDomain (Nat.lt_succ_self limit)]
  generalize domains.take (limit + 1) = ahead
  have last : limit < ahead.length → ahead[limit - 1]? = (ahead.take limit).getLast? := by
    intro more
    rw [List.getLast?_eq_getElem?, List.length_take, Nat.min_eq_left more.le,
      List.getElem?_take_of_lt (by omega)]
  change Except.ok (Page.mk (ahead.take limit) _) = Except.ok (Page.mk (ahead.take limit) _)
  by_cases more : limit < ahead.length
  · rw [if_pos more, if_pos more, last more]
  · rw [if_neg more, if_neg more]

instance : Std.Total (ByName collation) := ⟨fun left right =>
  collation.total left.canonicalDomain right.canonicalDomain⟩

instance : IsTrans DomainRow (ByName collation) := ⟨fun left middle right =>
  collation.trans left.canonicalDomain middle.canonicalDomain right.canonicalDomain⟩

theorem activeAfter_none : activeAfter collation db none =
    (db.domains.filter DomainRow.isActive).insertionSort (ByName collation) := by
  rw [activeAfter]
  congr 1
  apply List.filter_congr
  intro row _
  exact Bool.and_true _

/-- The name of a domain stands for its place in the order. -/
theorem activeAfter_name
    (deterministic : ∀ left right, collation.le left right = true →
      collation.le right left = true → left = right)
    (listable : Listable crate db) {before rest : List DomainRow} {row : DomainRow}
    (split : activeAfter collation db none = before ++ row :: rest) :
    activeAfter collation db (some row.canonicalDomain) = rest := by
  rw [activeAfter_none] at split
  have same : (db.domains.filter fun domain => domain.isActive &&
      collation.isAfter (some row.canonicalDomain) domain.canonicalDomain) =
      (db.domains.filter DomainRow.isActive).filter fun other =>
        !decide (ByName collation other row) := by
    rw [List.filter_filter]
    apply List.filter_congr
    intro other _
    have own : decide (ByName collation other row) =
        collation.le other.canonicalDomain row.canonicalDomain := Bool.decide_eq_true
    rw [own, Bool.and_comm]
    rfl
  rw [activeAfter, same]
  refine insertionSort_following listable.distinct.of_map ?_ split
  intro left inLeft right inRight first second
  exact eq_of_key_eq listable.distinct inLeft inRight (deterministic _ _ first second)

/-- Following the cursors of the domains lists all active ones. -/
theorem domainsPage_complete
    (deterministic : ∀ left right, collation.le left right = true →
      collation.le right left = true → left = right)
    (listable : Listable crate db) (bounded : limit + 1 < 2 ^ 63) (positive : 0 < limit) :
    ∃ pages, collect (domainsPage collation crate db limit) pages none =
      some ((activeAfter collation db none).map (readDomain crate)) := by
  have served : ∀ after : Option CanonicalDomain,
      ((serviceListActive collation crate db after limit).toOption.bind fun page =>
        some (Page.mk page.items (page.nextCursor.map CanonicalDomain.text))) =
      some (cutPage (fun domain => domain.canonicalDomain.text) limit
        ((activeAfter collation db (after.map CanonicalDomain.text)).map (readDomain crate))) := by
    intro after
    rw [serviceListActive_eq listable bounded positive]
    simp only [Except.toOption, Option.bind_some, cutPage]
    split
    · rw [Option.map_map]
      rfl
    · rfl
  refine collect_cut positive ?_ [] _ rfl none (served none)
  intro before domain rest split
  obtain ⟨rowsBefore, others, whole, rfl, tail⟩ := List.map_eq_append_iff.mp split
  obtain ⟨row, rowsAfter, rfl, rfl, rfl⟩ := List.map_eq_cons_iff.mp tail
  have listed : row ∈ activeAfter collation db none := by
    rw [whole]
    exact List.mem_append_right rowsBefore List.mem_cons_self
  obtain ⟨inTable, active⟩ := activeAfter_mem listed
  obtain ⟨_, _, text, parsed⟩ := listable.rowToDomain inTable active
  have page := served (some (readDomain crate row).canonicalDomain)
  rw [Option.map_some, text, activeAfter_name deterministic listable whole] at page
  rw [← page, domainsPage, text]
  simp only [parsed, Except.toOption, Option.map_some]
  rfl

end DomainPages

section Stored

/-- The order of the characters, which the store's other listings use. -/
def characters : Collation where
  le := fun left right => decide (left ≤ right)
  total := by
    intro left right
    simpa using le_total left right
  trans := by
    intro left middle right first second
    simp only [decide_eq_true_eq] at first second ⊢
    exact le_trans first second

theorem characters_deterministic : ∀ left right, characters.le left right = true →
    characters.le right left = true → left = right := by
  intro left right first second
  exact le_antisymm (of_decide_eq_true first) (of_decide_eq_true second)

/-- The names of a run with clean inputs can be listed. -/
theorem listable_of_readable {crate : UrlCrate} {db : Database}
    (readable : Domains.Readable crate db) : Listable crate db where
  fixed := by
    intro row member _
    obtain ⟨domain, text, reread⟩ := readable.reread row member
    exact ⟨domain, text ▸ reread.1, text⟩
  distinct := readable.distinct

end Stored

section Statements

/-- Following the cursors returns every audit event once, the newest first. -/
def AuditEventsListed (crates : TextCrates) (log : AuditLog) (limit : Nat) : Prop :=
  ∃ rows : List AuditEventRow, rows.Perm log.rows ∧ rows.Pairwise NewestFirst ∧
    ∃ pages, collect (auditPage crates log limit) pages none =
      some (rows.map (AuditEventRow.event crates))

/-- Following the cursors returns every active domain once, by name. -/
def DomainsListed (collation : Collation) (crate : UrlCrate) (db : Database) (limit : Nat) : Prop :=
  ∃ rows : List DomainRow, rows.Perm (db.domains.filter DomainRow.isActive) ∧
    rows.Pairwise (ByName collation) ∧
    ∃ pages domains, collect (domainsPage collation crate db limit) pages none = some domains ∧
      domains.map (fun domain => (domain.id, domain.canonicalDomain.text)) =
        rows.map fun row => (row.id, row.canonicalDomain)

/-- Every cursor that the audit events emit is read back. -/
def AuditCursorsReadBack (crates : TextCrates) (log : AuditLog) (limit : Nat) : Prop :=
  ∀ cursor events next, auditEvents crates log cursor limit = .ok (events, some next) →
    ∃ text, formatAuditCursor crates next = .ok text ∧ parseAuditCursor crates text = .ok next

end Statements

/-- For every limit that the look-ahead accepts, following the cursors lists all
audit events and all active domains. The collation is one under which only equal
names are equivalent. -/
theorem admin_paging_complete (collation : Collation) (crate : UrlCrate) (crates : TextCrates)
    (log : AuditLog) (db : Database) (limit : Nat) (positive : 1 ≤ limit)
    (bounded : limit + 1 < 2 ^ 63) (reads : ∀ row ∈ log.rows, ReadsBack crates row)
    (deterministic : ∀ left right, collation.le left right = true →
      collation.le right left = true → left = right)
    (listable : Listable crate db) :
    AuditEventsListed crates log limit ∧ DomainsListed collation crate db limit ∧
      AuditCursorsReadBack crates log limit := by
  refine ⟨?_, ?_, ?_⟩
  · refine ⟨auditRows log none, ?_, List.pairwise_insertionSort NewestFirst _,
      auditPage_complete bounded positive reads⟩
    have all : log.rows.filter (fun row =>
        (none : Option (Time × Uuid)).all fun position => row.isBefore position) = log.rows :=
      List.filter_eq_self.mpr fun _ _ => rfl
    rw [auditRows, all]
    exact List.perm_insertionSort NewestFirst log.rows
  · obtain ⟨pages, collected⟩ := domainsPage_complete deterministic listable bounded positive
    refine ⟨activeAfter collation db none, ?_, List.pairwise_insertionSort _ _, pages, _,
      collected, ?_⟩
    · rw [activeAfter_none]
      exact List.perm_insertionSort _ _
    · rw [List.map_map]
      apply List.map_congr_left
      intro row member
      obtain ⟨inTable, active⟩ := activeAfter_mem member
      obtain ⟨_, id, text, _⟩ := listable.rowToDomain inTable active
      exact Prod.ext id text
  · intro cursor events next success
    exact emitted_cursor_reads bounded reads success

section Sample

/-- The hyphenated form of an identifier below `2 ^ 48`. -/
def smallUuidText (id : Uuid) : Text :=
  "00000000-0000-0000-0000-".toList ++
    (List.range 12).map fun place => Nat.digitChar (id / 16 ^ (11 - place) % 16)

/-- The crates on noon of 5 August 2026 and the first identifiers. -/
def noonCrates : TextCrates where
  formatRfc3339 := fun t =>
    if t = 1785931200000000 then some "2026-08-05T12:00:00Z".toList else none
  parseRfc3339 := fun text =>
    if text = "2026-08-05T12:00:00Z".toList then some 1785931200000000 else none
  uuidToString := smallUuidText
  uuidParseStr := fun text => (List.range 16).find? fun id => smallUuidText id == text

def noonEvent (id : Uuid) : AuditEventRow :=
  ⟨id, "operator".toList, "domain.created".toList, "domain".toList, 10, 1785931200000000⟩

/-- Three events of one moment. -/
def noonLog : AuditLog where
  rows := [noonEvent 2, noonEvent 3, noonEvent 1]
  unique := by decide
  dated := by decide

theorem noonLog_reads : ∀ row ∈ noonLog.rows, ReadsBack noonCrates row := by
  intro row member
  have known : row = noonEvent 2 ∨ row = noonEvent 3 ∨ row = noonEvent 1 := by
    simpa [noonLog] using member
  have codec : ∀ id ∈ [1, 2, 3], ReadsBack noonCrates (noonEvent id) := by
    intro id inRange
    refine ⟨fun _ => ⟨"2026-08-05T12:00:00Z".toList, rfl, rfl⟩, ?_, ?_, ?_⟩
    · revert id
      decide
    · revert id
      decide
    · revert id
      decide
  rcases known with rfl | rfl | rfl
  · exact codec 2 (by decide)
  · exact codec 3 (by decide)
  · exact codec 1 (by decide)

/-- The events of one moment and two domains, one to a page. -/
theorem noonLog_listed :
    let db := reached plainUrlCrate Catalogue.empty [Domains.plainImport]
    AuditEventsListed noonCrates noonLog 1 ∧ DomainsListed characters plainUrlCrate db 1 ∧
      AuditCursorsReadBack noonCrates noonLog 1 :=
  admin_paging_complete characters plainUrlCrate noonCrates noonLog _ 1 (by decide) (by decide)
    noonLog_reads characters_deterministic
    (listable_of_readable (Domains.reached_readable Domains.plainUrlCrate_hosts Catalogue.empty _
      Domains.plainImport_clean))

/-- A limit whose look-ahead is no `BIGINT` lists nothing. -/
theorem greatestLimit_refused : ¬AuditEventsListed noonCrates noonLog (2 ^ 63 - 1) := by
  rintro ⟨rows, _, _, pages, collected⟩
  have refused : auditPage noonCrates noonLog (2 ^ 63 - 1) none = none := rfl
  cases pages with
  | zero => cases collected
  | succ pages =>
      rw [collect, refused] at collected
      cases collected

end Sample

end TechAtlas.Admin
