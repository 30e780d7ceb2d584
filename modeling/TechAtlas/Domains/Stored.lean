import TechAtlas.Domains.Hosts
import TechAtlas.Store.Keys

set_option autoImplicit false

/- The names in the domain table. They are parsed again by every listing and
every claim, so a name that does not read back blocks both. -/
namespace TechAtlas.Domains

open Library Store

variable {crate : UrlCrate} {db next : Database}

section Definitions

/-- No input of the call has a URL host that ends with two dots. A domain to be
created was parsed from some input. -/
def Clean (crate : UrlCrate) : Call → Prop
  | .importCsv command _ _ _ => ∀ row ∈ command.rows, keepsDot crate row.domain = false
  | .createWithAudit _ domain _ _ _ => ∃ input, CanonicalDomain.parse crate input = .ok domain ∧
      keepsDot crate input = false
  | _ => True

def withoutDots (name : Text) : Text := name.rdropWhile (· == '.')

/-- Every stored name reads back, and the active ones differ. -/
structure Readable (crate : UrlCrate) (db : Database) : Prop where
  reread : ∀ row ∈ db.domains, ∃ domain, domain.text = row.canonicalDomain ∧ Reread crate domain
  undotted : ∀ row ∈ db.domains, row.canonicalDomain.getLast? ≠ some '.'
  distinct : ((db.domains.filter DomainRow.isActive).map DomainRow.canonicalDomain).Nodup

end Definitions

section Steps

variable {names : Text → Prop}

theorem move_domains (move : Move names db next) : next.domains = db.domains ∨
    ∃ domain, next.domains = db.domains ++ [domain] ∧ names domain.canonicalDomain ∧
      nameTaken db.domains domain.canonicalDomain = false := by
  cases move with
  | reserve _ _ success =>
      obtain ⟨_, _, rfl⟩ := reserveDomain_eq_ok success
      exact Or.inl rfl
  | claim _ success =>
      obtain ⟨_, rfl⟩ := updateAttempt_eq_some.mp success
      exact Or.inl rfl
  | retry success =>
      obtain ⟨_, _, _, _, _, _, _, _, _, _, _, rfl⟩ := retryTerminalAttempt_eq_ok success
      exact Or.inl rfl
  | reschedule _ same => exact Or.inl same.domains
  | register _ _ _ _ named free same => exact Or.inr ⟨_, same.domains, named, free⟩

theorem resolution_domains {records : SuccessfulCrawlRecord → Prop} {bare : Bool}
    (resolution : Resolution records db bare next) :
    next.domains = db.domains := by
  cases resolution with
  | succeed _ _ success =>
      obtain ⟨_, _, _, _, _, _, rfl⟩ := persistSuccess_eq_ok success
      rfl
  | bare _ success =>
      obtain ⟨_, rfl⟩ := recordSucceeded_eq_ok success
      rfl
  | fail _ success =>
      obtain ⟨_, ⟨_, _, _, _, rfl⟩ | ⟨_, rfl⟩⟩ := recordFailed_cases success <;> rfl

theorem Readable.of_same (readable : Readable crate db) (same : next.domains = db.domains) :
    Readable crate next := by
  constructor <;> rw [same]
  · exact readable.reread
  · exact readable.undotted
  · exact readable.distinct

theorem Readable.register (readable : Readable crate db) {row : DomainRow}
    (same : next.domains = db.domains ++ [row]) {domain : CanonicalDomain}
    (text : domain.text = row.canonicalDomain) (reread : Reread crate domain)
    (undotted : row.canonicalDomain.getLast? ≠ some '.')
    (free : nameTaken db.domains row.canonicalDomain = false) : Readable crate next := by
  constructor
  · rw [same]
    intro other member
    rcases List.mem_append.mp member with old | new
    · exact readable.reread other old
    · rw [List.mem_singleton.mp new]
      exact ⟨domain, text, reread⟩
  · rw [same]
    intro other member
    rcases List.mem_append.mp member with old | new
    · exact readable.undotted other old
    · rw [List.mem_singleton.mp new]
      exact undotted
  · rw [same, List.filter_append]
    by_cases active : row.isActive = true
    · rw [List.filter_cons_of_pos active, List.filter_nil]
      refine nodup_map_concat readable.distinct ?_
      intro old member sameName
      obtain ⟨inTable, oldActive⟩ := List.mem_filter.mp member
      have taken : nameTaken db.domains row.canonicalDomain = true := by
        rw [nameTaken, List.any_eq_true]
        exact ⟨old, inTable, by simp [sameName, oldActive]⟩
      rw [free] at taken
      cases taken
    · rw [List.filter_cons_of_neg active, List.filter_nil, List.append_nil]
      exact readable.distinct

theorem exec_readable (hosts : WhatwgHosts crate) (db : Database) (call : Call)
    (clean : Clean crate call) (keys : Keys db) (readable : Readable crate db) :
    Readable crate (exec crate db call) := by
  -- a name that the call registers comes from a clean input
  have registered : ∀ name, registers crate call name → ∃ domain input, domain.text = name ∧
      CanonicalDomain.parse crate input = .ok domain ∧ keepsDot crate input = false := by
    intro name named
    cases call <;> first | exact absurd named id | skip
    case createWithAudit id domain policy actorSubject now =>
      obtain ⟨input, parsed, undotted⟩ := clean
      exact ⟨domain, input, named.symm, parsed, undotted⟩
    case importCsv command policy fresh now =>
      obtain ⟨row, member, domain, parsed, rfl⟩ := named
      exact ⟨domain, row.domain, rfl, parsed, clean row member⟩
  cases exec_effect keys.policyKeys call with
  | moves moves =>
      refine Moves.invariant (P := Readable crate) ?_ moves readable
      intro before after move holds
      rcases move_domains move with same | ⟨row, same, named, free⟩
      · exact holds.of_same same
      · obtain ⟨domain, input, text, parsed, undotted⟩ := registered _ named
        refine holds.register same text ((reread_iff hosts parsed).mpr undotted) ?_ free
        rw [← text]
        exact undotted_of_clean parsed undotted
  | resolution resolution => exact readable.of_same (resolution_domains resolution)
  | publication _ same _ =>
      rw [same]
      exact readable.of_same rfl

theorem initial_readable (crate : UrlCrate) (catalogue : Catalogue) :
    Readable crate (Database.initial catalogue) where
  reread := fun _ member => nomatch member
  undotted := fun _ member => nomatch member
  distinct := List.nodup_nil

theorem reached_readable (hosts : WhatwgHosts crate) (catalogue : Catalogue) (calls : List Call)
    (clean : ∀ call ∈ calls, Clean crate call) : Readable crate (reached crate catalogue calls) := by
  have step : ∀ db call, Clean crate call → Keys db ∧ Readable crate db →
      Keys (exec crate db call) ∧ Readable crate (exec crate db call) :=
    fun db call ok holds => ⟨exec_keys crate db call holds.1,
      exec_readable hosts db call ok holds.1 holds.2⟩
  have both := run_invariant_of_guarded step (Database.initial catalogue) calls
    (guarded_of_forall _ _ _ clean) ⟨initial_keys catalogue, initial_readable crate catalogue⟩
  exact both.2

end Steps

section Reads

theorem Readable.rowToDomain (readable : Readable crate db) {row : DomainRow}
    (member : row ∈ db.domains) :
    ∃ domain, domain.text = row.canonicalDomain ∧
      Store.rowToDomain crate row = .ok ⟨row.id, domain⟩ := by
  obtain ⟨domain, text, reread⟩ := readable.reread row member
  refine ⟨domain, text, ?_⟩
  rw [Store.rowToDomain, ← text, reread.1]

/-- No stored name blocks a listing, and a listing that is long enough holds
every active domain. -/
theorem Readable.listActive (readable : Readable crate db) (after : Option Text) {limit : Nat}
    (bounded : limit < 2 ^ 63) :
    ∃ domains, Store.listActive crate db after limit = .ok domains ∧
      (after = none → db.domains.length ≤ limit → ∀ row ∈ db.domains, row.isActive = true →
        ∃ listed ∈ domains, listed.id = row.id ∧
          listed.canonicalDomain.text = row.canonicalDomain) := by
  have reads : ∀ row ∈ activeDomains db after limit, ∃ domain,
      Store.rowToDomain crate row = .ok domain := by
    intro row member
    have sorted := List.mem_of_mem_take member
    rw [List.mem_insertionSort] at sorted
    obtain ⟨domain, _, read⟩ := readable.rowToDomain (List.mem_of_mem_filter sorted)
    exact ⟨_, read⟩
  obtain ⟨domains, listed, found⟩ := mapM_ok_of_forall reads
  refine ⟨domains, ?_, ?_⟩
  · rw [Store.listActive, if_neg (Nat.not_le.mpr bounded)]
    exact listed
  · rintro rfl enough row member active
    have chosen : row ∈ activeDomains db none limit := by
      rw [activeDomains, List.take_of_length_le, List.mem_insertionSort, List.mem_filter]
      · exact ⟨member, by simp [active]⟩
      · rw [List.length_insertionSort]
        exact Nat.le_trans (List.length_filter_le _ _) enough
    obtain ⟨domain, inDomains, read⟩ := found row chosen
    obtain ⟨stored, text, own⟩ := readable.rowToDomain member
    rw [read] at own
    cases own
    exact ⟨_, inDomains, rfl, text⟩

theorem Readable.claimAttempt (readable : Readable crate db) {job : CrawlJobV1} {startedAt : Time}
    {attempt : AttemptRow} {row : DomainRow} (found : db.attemptWithDomain job = some (attempt, row))
    (live : attempt.status.isTerminal = false)
    (updated : db.updateAttempt attempt.id (AttemptRow.claimedAt startedAt) = some next) :
    ∃ domain, domain.text = row.canonicalDomain ∧
      Store.claimAttempt crate db job startedAt = .ok (next, .ready domain) := by
  have member : row ∈ db.domains := by
    obtain ⟨_, _, joined⟩ := attemptWithDomain_eq_some found
    exact (find?_eq_some_mem joined).1
  obtain ⟨domain, text, reread⟩ := readable.reread row member
  refine ⟨domain, text, ?_⟩
  rw [Store.claimAttempt, found]
  change (if attempt.status.isTerminal = true then _ else _) = _
  rw [live, if_neg Bool.false_ne_true, ← text, reread.1]
  simp only [updated]
  rfl

theorem Readable.name_eq (readable : Readable crate db) {left right : DomainRow}
    (inLeft : left ∈ db.domains) (inRight : right ∈ db.domains) (leftActive : left.isActive = true)
    (rightActive : right.isActive = true)
    (same : withoutDots left.canonicalDomain = withoutDots right.canonicalDomain) :
    left = right := by
  have kept : ∀ row ∈ db.domains, withoutDots row.canonicalDomain = row.canonicalDomain := by
    intro row member
    rw [withoutDots, List.rdropWhile_eq_self_iff]
    intro nonempty dotted
    apply readable.undotted row member
    rw [List.getLast?_eq_some_getLast nonempty]
    exact congrArg some (beq_iff_eq.mp dotted)
  rw [kept left inLeft, kept right inRight] at same
  exact eq_of_key_eq readable.distinct (List.mem_filter.mpr ⟨inLeft, leftActive⟩)
    (List.mem_filter.mpr ⟨inRight, rightActive⟩) same

end Reads

section Runs

/-- Under the host rules of the url crate, an accepted input gives a fixed point
of both readers exactly when its URL host does not end with two dots; and when no
input of a run has such a host, every stored name can be listed and claimed, and
no two active names differ only by dots at their end. -/
theorem canonical_names_read_back (crate : UrlCrate) (hosts : WhatwgHosts crate) :
    (∀ input domain, CanonicalDomain.parse crate input = .ok domain →
      (Reread crate domain ↔ keepsDot crate input = false)) ∧
    ∀ catalogue calls, (∀ call ∈ calls, Clean crate call) →
      let db := reached crate catalogue calls
      (∀ after limit, limit < 2 ^ 63 → ∃ domains, listActive crate db after limit = .ok domains ∧
        (after = none → db.domains.length ≤ limit → ∀ row ∈ db.domains, row.isActive = true →
          ∃ listed ∈ domains, listed.id = row.id ∧
            listed.canonicalDomain.text = row.canonicalDomain)) ∧
      (∀ job startedAt attempt row next, db.attemptWithDomain job = some (attempt, row) →
        attempt.status.isTerminal = false →
        db.updateAttempt attempt.id (AttemptRow.claimedAt startedAt) = some next →
        ∃ domain, domain.text = row.canonicalDomain ∧
          claimAttempt crate db job startedAt = .ok (next, .ready domain)) ∧
      (∀ left ∈ db.domains, ∀ right ∈ db.domains, left.isActive = true → right.isActive = true →
        withoutDots left.canonicalDomain = withoutDots right.canonicalDomain → left = right) := by
  refine ⟨fun input domain success => reread_iff hosts success, ?_⟩
  intro catalogue calls clean db
  have readable : Readable crate db := reached_readable hosts catalogue calls clean
  refine ⟨?_, ?_, ?_⟩
  · intro after limit bounded
    exact readable.listActive after bounded
  · intro job startedAt attempt row next found live updated
    exact readable.claimAttempt found live updated
  · intro left inLeft right inRight leftActive rightActive same
    exact readable.name_eq inLeft inRight leftActive rightActive same

def importOf (inputs : List Text) : Call :=
  .importCsv ⟨"list.csv".toList, "operator".toList,
    (List.range inputs.length).zipWith (fun n input => ⟨n + 1, input⟩) inputs⟩
    DomainCreationDefaults.crawlPolicy ⟨1, 2, fun n => n + 10⟩ 0

/-- Two inputs with one dot at most at the end. -/
def plainImport : Call := importOf [" Example.COM. ".toList, "example.org".toList]

theorem plainImport_clean : ∀ call ∈ [plainImport], Clean plainUrlCrate call := by
  intro call member
  rw [List.mem_singleton.mp member]
  change ∀ row : CsvImportRowInput, row ∈ _ → keepsDot plainUrlCrate row.domain = false
  decide

theorem plainImport_readable :
    let db := reached plainUrlCrate Catalogue.empty [plainImport]
    db.domains.map (fun row => (row.id, row.canonicalDomain)) =
        [(10, "example.com".toList), (11, "example.org".toList)] ∧
      ∃ domains, listActive plainUrlCrate db none 10 = .ok domains ∧
        (none = (none : Option Text) → db.domains.length ≤ 10 →
          ∀ row ∈ db.domains, row.isActive = true → ∃ listed ∈ domains, listed.id = row.id ∧
            listed.canonicalDomain.text = row.canonicalDomain) :=
  ⟨by decide, And.left (And.right (canonical_names_read_back plainUrlCrate plainUrlCrate_hosts)
    Catalogue.empty [plainImport] plainImport_clean) none 10 (by decide)⟩

/-- The input `..` is stored as `.`, which is not read back; from then on the
domains cannot be listed. -/
theorem dottedImport_unreadable :
    (∃ domain, CanonicalDomain.parse plainUrlCrate "..".toList = .ok domain ∧
      ¬Reread plainUrlCrate domain) ∧
      listActive plainUrlCrate (reached plainUrlCrate Catalogue.empty
        [importOf ["example.org".toList, "..".toList]]) none 10 = .error .unavailable := by
  refine ⟨⟨⟨".".toList, by decide, by decide, by decide⟩, rfl, ?_⟩, rfl⟩
  rintro ⟨parsed, _⟩
  have refused : CanonicalDomain.parse plainUrlCrate ".".toList = .error .invalidHost := rfl
  rw [refused] at parsed
  cases parsed

end Runs

end TechAtlas.Domains
