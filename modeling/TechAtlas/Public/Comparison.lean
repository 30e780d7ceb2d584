import TechAtlas.Library.Join
import TechAtlas.Store.PublicRead

set_option autoImplicit false

/- The comparison of domains by category. The category is a condition of the last
of three left joins only, so a technology of another category leaves a row of its
own, without the technology. -/
namespace TechAtlas.Public

open Library Store

section Query

/-- The tables that the comparison reads, with their unique indexes and the
foreign key of the current technologies. -/
structure ComparedContent where
  db : Database
  names_nodup : ((db.domains.filter DomainRow.isActive).map DomainRow.canonicalDomain).Nodup
  policies_nodup : (db.policies.map PolicyRow.domainId).Nodup
  current_nodup : (db.history.current.map fun row => (row.domainId, row.technologyId)).Nodup
  current_technology : ∀ row ∈ db.history.current,
    ∃ technology ∈ db.catalogue.technologies, technology.id = row.technologyId

structure ComparisonRow where
  canonicalDomain : Text
  categorySlug : Text
  technologySlug : Option Text
  lastObservedAt : Option Time
  lastSuccessfulCrawlAt : Option Time
  deriving DecidableEq, Repr

structure PublicComparisonCell where
  categorySlug : Text
  canonicalDomain : Text
  technologySlug : Option Text
  state : Text
  lastObservedAt : Option Time
  deriving DecidableEq, Repr

/-- `(SELECT id FROM technology_categories WHERE slug = categories.slug)`. -/
def Catalogue.categoryId (catalogue : Catalogue) (slug : Text) : Option Uuid :=
  (catalogue.categories.find? fun category => category.slug == slug).map CategoryRow.id

/-- The left joins of one requested name and one category. -/
def joinedRows (db : Database) (name categorySlug : Text) : List ComparisonRow :=
  (leftMatches (db.domains.filter fun domain =>
      domain.canonicalDomain == name && domain.isActive)).flatMap fun domain =>
    (leftMatches (db.policies.filter fun policy =>
        domain.any fun domain => policy.domainId == domain.id)).flatMap fun policy =>
      (leftMatches (db.history.current.filter fun current =>
          domain.any fun domain => current.domainId == domain.id)).flatMap fun current =>
        (leftMatches (db.catalogue.technologies.filter fun technology =>
            current.any (fun current => technology.id == current.technologyId) &&
              Catalogue.categoryId db.catalogue categorySlug == some technology.categoryId)).map
          fun technology => {
            canonicalDomain := name
            categorySlug := categorySlug
            technologySlug := technology.map TechnologyRow.slug
            lastObservedAt := current.map CurrentRow.lastObservedAt
            lastSuccessfulCrawlAt := policy.bind PolicyRow.lastSuccessfulCrawlAt }

/-- `ORDER BY`, with a missing technology last. -/
def ComparisonRow.upTo (collation : Collation) (left right : ComparisonRow) : Bool :=
  if left.categorySlug != right.categorySlug then
    collation.le left.categorySlug right.categorySlug
  else if left.canonicalDomain != right.canonicalDomain then
    collation.le left.canonicalDomain right.canonicalDomain
  else
    match left.technologySlug, right.technologySlug with
    | some first, some second => collation.le first second
    | some _, none => true
    | none, some _ => false
    | none, none => true

def comparisonRows (collation : Collation) (db : Database) (names : List Text) :
    List ComparisonRow :=
  ((names ×ˢ db.catalogue.categories.map CategoryRow.slug).flatMap fun (name, categorySlug) =>
    joinedRows db name categorySlug).insertionSort
      fun left right => left.upTo collation right = true

def cellState (staleBefore : Time) (observed crawl : Option Time) : Text :=
  if observed.isNone then "unknown".toList
  else if crawl.all fun t => decide (t < staleBefore) then "stale".toList
  else "current".toList

def ComparisonRow.cell (staleBefore : Time) (row : ComparisonRow) : PublicComparisonCell where
  categorySlug := row.categorySlug
  canonicalDomain := row.canonicalDomain
  technologySlug := row.technologySlug
  state := cellState staleBefore row.lastObservedAt row.lastSuccessfulCrawlAt
  lastObservedAt := row.lastObservedAt

/-- No column of the result fails to decode. -/
def comparison (collation : Collation) (db : Database) (domains : List CanonicalDomain)
    (staleBefore : Time) : List PublicComparisonCell :=
  (comparisonRows collation db (domains.map CanonicalDomain.text)).map
    (ComparisonRow.cell staleBefore)

end Query

section Meaning

/-- The current technologies of a domain that are in the category. -/
def currentIn (db : Database) (domain : DomainRow) (category : CategoryRow) :
    List (CurrentRow × TechnologyRow) :=
  (db.history.current.filter fun row => row.domainId == domain.id).filterMap fun row =>
    ((db.catalogue.technologies.find? fun technology => technology.id == row.technologyId).filter
      fun technology => technology.categoryId == category.id).map fun technology => (row, technology)

/-- The cell of a domain without a technology in the category. -/
def unknownCell (name : Text) (category : CategoryRow) : PublicComparisonCell :=
  ⟨category.slug, name, none, "unknown".toList, none⟩

/-- The state of a technology by the last successful crawl of its domain. -/
def freshness (db : Database) (domain : DomainRow) (staleBefore : Time) : Text :=
  match (db.policyOf domain.id).bind PolicyRow.lastSuccessfulCrawlAt with
  | none => "stale".toList
  | some t => if t < staleBefore then "stale".toList else "current".toList

/-- What a comparison is for: one cell for each current technology of the domain
in the category, and one without a technology if there is none. -/
def exactCells (db : Database) (staleBefore : Time) (name : Text) (category : CategoryRow) :
    List PublicComparisonCell :=
  match db.activeDomain name with
  | none => [unknownCell name category]
  | some domain =>
      match currentIn db domain category with
      | [] => [unknownCell name category]
      | found => found.map fun (row, technology) => {
          categorySlug := category.slug
          canonicalDomain := name
          technologySlug := some technology.slug
          state := freshness db domain staleBefore
          lastObservedAt := some row.lastObservedAt }

def cellsOf (name : Text) (category : CategoryRow) (cells : List PublicComparisonCell) :
    List PublicComparisonCell :=
  cells.filter fun cell => cell.canonicalDomain == name && cell.categorySlug == category.slug

/-- The cells of a domain and a category are the exact ones, without duplicates. -/
def Exact (collation : Collation) (db : Database) (domains : List CanonicalDomain)
    (staleBefore : Time) (domain : CanonicalDomain) (category : CategoryRow) : Prop :=
  let cells := cellsOf domain.text category (comparison collation db domains staleBefore)
  cells.Perm (exactCells db staleBefore domain.text category) ∧ cells.Nodup

/-- The domain has no current technology outside the category. -/
def Confined (db : Database) (name : Text) (category : CategoryRow) : Prop :=
  ∀ domain ∈ db.activeDomain name, ∀ row ∈ db.history.current, row.domainId = domain.id →
    ∀ technology ∈ db.catalogue.technologies, technology.id = row.technologyId →
      technology.categoryId = category.id

end Meaning

section Joins

variable {content : ComparedContent} {name : Text} {category : CategoryRow} {domain : DomainRow}
  {staleBefore : Time}

theorem activeDomain_toList (content : ComparedContent) (name : Text) :
    (content.db.domains.filter fun domain => domain.canonicalDomain == name && domain.isActive) =
      (content.db.activeDomain name).toList := by
  have found := filter_key_eq_toList content.names_nodup name
  rw [List.filter_filter, List.find?_filter] at found
  rw [found, Database.activeDomain]
  congr 2
  funext domain
  rw [Bool.eq_iff_iff]
  simp [and_comm]

theorem policyOf_toList (content : ComparedContent) (domainId : Uuid) :
    (content.db.policies.filter fun policy => policy.domainId == domainId) =
      (content.db.policyOf domainId).toList :=
  filter_key_eq_toList content.policies_nodup domainId

theorem categoryId_eq (member : category ∈ content.db.catalogue.categories) :
    Catalogue.categoryId content.db.catalogue category.slug = some category.id := by
  have found : (content.db.catalogue.categories.find? fun other => other.slug == category.slug) =
      some category :=
    (find?_key_eq_some content.db.catalogue.categories_slug_nodup).mpr ⟨member, rfl⟩
  rw [Catalogue.categoryId, found]
  rfl

/-- The technology of a current row, unless it is in another category. -/
def technologyIn (db : Database) (category : CategoryRow) (row : CurrentRow) :
    Option TechnologyRow :=
  (db.catalogue.technologies.find? fun technology => technology.id == row.technologyId).filter
    fun technology => technology.categoryId == category.id

theorem technologies_toList (member : category ∈ content.db.catalogue.categories)
    (row : CurrentRow) :
    (content.db.catalogue.technologies.filter fun technology =>
      technology.id == row.technologyId &&
        Catalogue.categoryId content.db.catalogue category.slug == some technology.categoryId) =
      (technologyIn content.db category row).toList := by
  have found := filter_key_eq_toList content.db.catalogue.technologies_id_nodup row.technologyId
  rw [technologyIn, Option.toList_filter, ← found, List.filter_filter, categoryId_eq member]
  apply List.filter_congr
  intro technology _
  rw [Bool.and_comm]
  congr 1
  rw [Bool.eq_iff_iff]
  simp only [beq_iff_eq, Option.some.injEq]
  exact eq_comm

theorem joinedRows_of_none (unknown : content.db.activeDomain name = none) :
    joinedRows content.db name category.slug = [⟨name, category.slug, none, none, none⟩] := by
  have absent := activeDomain_toList content name
  rw [unknown] at absent
  simp [joinedRows, absent]

theorem joinedRows_of_some (member : category ∈ content.db.catalogue.categories)
    (active : content.db.activeDomain name = some domain) :
    joinedRows content.db name category.slug =
      (leftMatches (content.db.history.current.filter fun row => row.domainId == domain.id)).map
        fun current => {
          canonicalDomain := name
          categorySlug := category.slug
          technologySlug := (current.bind (technologyIn content.db category)).map TechnologyRow.slug
          lastObservedAt := current.map CurrentRow.lastObservedAt
          lastSuccessfulCrawlAt := (content.db.policyOf domain.id).bind
            PolicyRow.lastSuccessfulCrawlAt } := by
  have found := activeDomain_toList content name
  rw [active] at found
  have policies := policyOf_toList content domain.id
  have technologies : ∀ current : Option CurrentRow,
      (content.db.catalogue.technologies.filter fun technology =>
        current.any (fun row => technology.id == row.technologyId) &&
          Catalogue.categoryId content.db.catalogue category.slug == some technology.categoryId) =
        (current.bind (technologyIn content.db category)).toList := by
    intro current
    cases current with
    | none => simp
    | some row => exact technologies_toList member row
  simp only [joinedRows, found, leftMatches_toList, List.map_cons, List.map_nil,
    List.flatMap_cons, List.flatMap_nil, List.append_nil, Option.any_some, policies,
    technologies]
  exact (List.map_eq_flatMap).symm

end Joins

section Cells

variable {content : ComparedContent} {name : Text} {category : CategoryRow} {domain : DomainRow}
  {staleBefore : Time}

theorem mem_joinedRows {db : Database} {slug : Text} {row : ComparisonRow}
    (member : row ∈ joinedRows db name slug) :
    row.canonicalDomain = name ∧ row.categorySlug = slug := by
  obtain ⟨_, _, member⟩ := List.mem_flatMap.mp member
  obtain ⟨_, _, member⟩ := List.mem_flatMap.mp member
  obtain ⟨_, _, member⟩ := List.mem_flatMap.mp member
  obtain ⟨_, _, rfl⟩ := List.mem_map.mp member
  exact ⟨rfl, rfl⟩

/-- The cells of a requested domain and a category come from their own joins. -/
theorem cellsOf_comparison (collation : Collation) {domains : List CanonicalDomain}
    (distinct : (domains.map CanonicalDomain.text).Nodup) {requested : CanonicalDomain}
    (isRequested : requested ∈ domains) (member : category ∈ content.db.catalogue.categories) :
    (cellsOf requested.text category (comparison collation content.db domains staleBefore)).Perm
      ((joinedRows content.db requested.text category.slug).map
        (ComparisonRow.cell staleBefore)) := by
  have pairs : (domains.map CanonicalDomain.text ×ˢ
      content.db.catalogue.categories.map CategoryRow.slug).Nodup :=
    distinct.product content.db.catalogue.categories_slug_nodup
  have isPair : (requested.text, category.slug) ∈ domains.map CanonicalDomain.text ×ˢ
      content.db.catalogue.categories.map CategoryRow.slug :=
    List.mem_product.mpr ⟨List.mem_map_of_mem isRequested, List.mem_map_of_mem member⟩
  rw [cellsOf, comparison, comparisonRows, List.filter_map]
  refine List.Perm.map _ (((List.perm_insertionSort _ _).filter _).trans ?_)
  apply List.Perm.of_eq
  refine filter_flatMap_of_key pairs isPair ?_ ?_
  · intro row inRows
    obtain ⟨sameName, sameSlug⟩ := mem_joinedRows inRows
    simp [ComparisonRow.cell, sameName, sameSlug]
  · intro other _ different row inRows
    obtain ⟨sameName, sameSlug⟩ := mem_joinedRows inRows
    by_contra matching
    rw [Bool.not_eq_false] at matching
    simp only [Function.comp_apply, ComparisonRow.cell, Bool.and_eq_true, beq_iff_eq, sameName,
      sameSlug] at matching
    exact different (Prod.ext matching.1 matching.2)

/-- The cell of a current row in the joins of a category. -/
def rowCell (db : Database) (staleBefore : Time) (name : Text) (domain : DomainRow)
    (category : CategoryRow) (row : CurrentRow) : PublicComparisonCell where
  categorySlug := category.slug
  canonicalDomain := name
  technologySlug := (technologyIn db category row).map TechnologyRow.slug
  state := freshness db domain staleBefore
  lastObservedAt := some row.lastObservedAt

theorem cellState_some (db : Database) (domain : DomainRow) (staleBefore observed : Time) :
    cellState staleBefore (some observed)
      ((db.policyOf domain.id).bind PolicyRow.lastSuccessfulCrawlAt) =
      freshness db domain staleBefore := by
  rw [cellState, freshness]
  cases (db.policyOf domain.id).bind PolicyRow.lastSuccessfulCrawlAt with
  | none => rfl
  | some crawl => simp

/-- The joins of a domain: one cell for each current technology, of whatever
category, and the unknown cell if there is none. -/
theorem joinedCells_of_some (member : category ∈ content.db.catalogue.categories)
    (active : content.db.activeDomain name = some domain) :
    (joinedRows content.db name category.slug).map (ComparisonRow.cell staleBefore) =
      match content.db.history.current.filter fun row => row.domainId == domain.id with
      | [] => [unknownCell name category]
      | found => found.map (rowCell content.db staleBefore name domain category) := by
  rw [joinedRows_of_some member active, List.map_map]
  cases content.db.history.current.filter fun row => row.domainId == domain.id with
  | nil => rfl
  | cons first rest =>
      rw [leftMatches_of_ne_nil (List.cons_ne_nil first rest), List.map_map]
      apply List.map_congr_left
      intro row _
      have state := cellState_some content.db domain staleBefore row.lastObservedAt
      simp only [Function.comp_apply, ComparisonRow.cell, rowCell, Option.bind_some, Option.map_some,
        state]

/-- By its foreign key, a current row has one technology. -/
theorem exists_technology (content : ComparedContent) {row : CurrentRow}
    (member : row ∈ content.db.history.current) :
    ∃ technology ∈ content.db.catalogue.technologies, technology.id = row.technologyId ∧
      ∀ category, technologyIn content.db category row =
        if technology.categoryId = category.id then some technology else none := by
  obtain ⟨technology, inCatalogue, same⟩ := content.current_technology row member
  have found : (content.db.catalogue.technologies.find? fun technology =>
      technology.id == row.technologyId) = some technology :=
    (find?_key_eq_some content.db.catalogue.technologies_id_nodup).mpr ⟨inCatalogue, same⟩
  refine ⟨technology, inCatalogue, same, ?_⟩
  intro category
  rw [technologyIn, found, Option.filter_some]
  simp only [beq_iff_eq]

theorem confined_iff (active : content.db.activeDomain name = some domain) :
    Confined content.db name category ↔
      ∀ row ∈ content.db.history.current.filter fun row => row.domainId == domain.id,
        (technologyIn content.db category row).isSome = true := by
  constructor
  · intro confined row listed
    obtain ⟨member, own⟩ := List.mem_filter.mp listed
    obtain ⟨technology, inCatalogue, same, isIn⟩ := exists_technology content member
    have inCategory := confined domain active row member (beq_iff_eq.mp own) technology inCatalogue
      same
    rw [isIn, if_pos inCategory]
    rfl
  · intro all other isActive row member own technology inCatalogue same
    rw [active] at isActive
    cases isActive
    have present := all row (List.mem_filter.mpr ⟨member, beq_iff_eq.mpr own⟩)
    obtain ⟨found, foundIn, foundSame, isIn⟩ := exists_technology content member
    have one : found = technology := eq_of_key_eq content.db.catalogue.technologies_id_nodup
      foundIn inCatalogue (foundSame.trans same.symm)
    rw [isIn] at present
    by_contra outside
    rw [← one] at outside
    rw [if_neg outside] at present
    cases present

/-- If all its technologies are in the category, the cells of a domain differ. -/
theorem rowCells_nodup
    (all : ∀ row ∈ content.db.history.current.filter fun row => row.domainId == domain.id,
      (technologyIn content.db category row).isSome = true) :
    ((content.db.history.current.filter fun row => row.domainId == domain.id).map
      (rowCell content.db staleBefore name domain category)).Nodup := by
  have rows : (content.db.history.current.filter fun row => row.domainId == domain.id).Nodup :=
    content.current_nodup.of_map.filter _
  refine List.Nodup.map_on ?_ rows
  intro left inLeft right inRight same
  obtain ⟨leftMember, leftOwn⟩ := List.mem_filter.mp inLeft
  obtain ⟨rightMember, rightOwn⟩ := List.mem_filter.mp inRight
  obtain ⟨first, firstIn, firstSame, firstFound⟩ := exists_technology content leftMember
  obtain ⟨second, secondIn, secondSame, secondFound⟩ := exists_technology content rightMember
  have leftPresent := all left inLeft
  have rightPresent := all right inRight
  have slugs := congrArg PublicComparisonCell.technologySlug same
  rw [firstFound] at leftPresent
  rw [secondFound] at rightPresent
  simp only [rowCell, firstFound, secondFound] at slugs
  split at slugs
  · split at slugs
    · have one : first = second := eq_of_key_eq content.db.catalogue.technologies_slug_nodup
        firstIn secondIn (Option.some.inj slugs)
      have sameTechnology : left.technologyId = right.technologyId := by
        rw [← firstSame, ← secondSame, one]
      have sameDomain : left.domainId = right.domainId :=
        (beq_iff_eq.mp leftOwn).trans (beq_iff_eq.mp rightOwn).symm
      exact eq_of_key_eq content.current_nodup leftMember rightMember
        (Prod.ext sameDomain sameTechnology)
    · rename_i outside
      rw [if_neg outside] at rightPresent
      cases rightPresent
  · rename_i outside
    rw [if_neg outside] at leftPresent
    cases leftPresent

/-- The cells that should be there, if all technologies are in the category. -/
theorem exactCells_of_confined (active : content.db.activeDomain name = some domain)
    (all : ∀ row ∈ content.db.history.current.filter fun row => row.domainId == domain.id,
      (technologyIn content.db category row).isSome = true) :
    exactCells content.db staleBefore name category =
      match content.db.history.current.filter fun row => row.domainId == domain.id with
      | [] => [unknownCell name category]
      | found => found.map (rowCell content.db staleBefore name domain category) := by
  have kept : ∀ rows : List CurrentRow,
      (∀ row ∈ rows, (technologyIn content.db category row).isSome = true) →
      (rows.filterMap fun row => (technologyIn content.db category row).map fun technology =>
        (row, technology)).map (fun (row, technology) => PublicComparisonCell.mk category.slug name
          (some technology.slug) (freshness content.db domain staleBefore)
          (some row.lastObservedAt)) =
        rows.map (rowCell content.db staleBefore name domain category) := by
    intro rows present
    induction rows with
    | nil => rfl
    | cons row rest ih =>
        obtain ⟨technology, found⟩ := Option.isSome_iff_exists.mp (present row List.mem_cons_self)
        have later := ih fun other member => present other (List.mem_cons_of_mem row member)
        rw [List.filterMap_cons, found]
        simp only [Option.map_some, List.map_cons, later, rowCell, found]
  rw [exactCells, active]
  change (match (content.db.history.current.filter fun row => row.domainId == domain.id).filterMap
    (fun row => (technologyIn content.db category row).map fun technology => (row, technology)) with
    | [] => _
    | found => found.map _) = _
  generalize content.db.history.current.filter (fun row => row.domainId == domain.id) = rows at all
  cases rows with
  | nil => rfl
  | cons first rest =>
      obtain ⟨technology, found⟩ := Option.isSome_iff_exists.mp (all first List.mem_cons_self)
      have same := kept (first :: rest) all
      rw [List.filterMap_cons, found] at same ⊢
      exact same

/-- A technology outside the category leaves a cell that should not be there. -/
theorem not_exact_of_outside {row : CurrentRow}
    (outside : technologyIn content.db category row = none) :
    rowCell content.db staleBefore name domain category row ∉
      exactCells content.db staleBefore name category := by
  have known : freshness content.db domain staleBefore ≠ "unknown".toList := by
    unfold freshness
    split
    · decide
    · split <;> decide
  intro member
  have noTechnology : (rowCell content.db staleBefore name domain category row).technologySlug =
      none := by
    rw [rowCell, outside]
    rfl
  have isUnknown : ∀ cell ∈ exactCells content.db staleBefore name category,
      cell.technologySlug = none → cell.state = "unknown".toList := by
    intro cell inExact absent
    unfold exactCells at inExact
    split at inExact
    · rw [List.mem_singleton.mp inExact]
      rfl
    · split at inExact
      · rw [List.mem_singleton.mp inExact]
        rfl
      · obtain ⟨pair, _, rfl⟩ := List.mem_map.mp inExact
        cases absent
  exact known (isUnknown _ member noTechnology)

end Cells

/-- For every content, every list of different requested domains and every
category: the cells of a domain and the category are the exact ones if and only if
the domain has no current technology outside the category. -/
theorem comparison_exact_iff (collation : Collation) (content : ComparedContent)
    (domains : List CanonicalDomain) (distinct : (domains.map CanonicalDomain.text).Nodup)
    (staleBefore : Time) (domain : CanonicalDomain) (requested : domain ∈ domains)
    (category : CategoryRow) (member : category ∈ content.db.catalogue.categories) :
    Exact collation content.db domains staleBefore domain category ↔
      Confined content.db domain.text category := by
  have cells : (cellsOf domain.text category
      (comparison collation content.db domains staleBefore)).Perm
        ((joinedRows content.db domain.text category.slug).map (ComparisonRow.cell staleBefore)) :=
    cellsOf_comparison collation distinct requested member
  have moved : Exact collation content.db domains staleBefore domain category ↔
      ((joinedRows content.db domain.text category.slug).map (ComparisonRow.cell staleBefore)).Perm
          (exactCells content.db staleBefore domain.text category) ∧
        ((joinedRows content.db domain.text category.slug).map
          (ComparisonRow.cell staleBefore)).Nodup :=
    and_congr ⟨cells.symm.trans, cells.trans⟩ cells.nodup_iff
  rw [moved]
  cases active : content.db.activeDomain domain.text with
  | none =>
      have single : (joinedRows content.db domain.text category.slug).map
          (ComparisonRow.cell staleBefore) = [unknownCell domain.text category] := by
        rw [joinedRows_of_none active]
        rfl
      have expected : exactCells content.db staleBefore domain.text category =
          [unknownCell domain.text category] := by
        rw [exactCells, active]
      rw [single, expected]
      refine iff_of_true ⟨List.Perm.refl _, List.nodup_singleton _⟩ ?_
      intro row isActive
      rw [active] at isActive
      cases isActive
  | some row =>
      rw [joinedCells_of_some member active, confined_iff active]
      constructor
      · intro exact_cells current listed
        by_contra outside
        rw [Option.not_isSome_iff_eq_none] at outside
        apply not_exact_of_outside outside
        apply exact_cells.1.subset
        cases rows : content.db.history.current.filter fun other => other.domainId == row.id with
        | nil =>
            rw [rows] at listed
            cases listed
        | cons first rest =>
            rw [rows] at listed
            exact List.mem_map_of_mem listed
      · intro all
        rw [exactCells_of_confined active all]
        refine ⟨List.Perm.refl _, ?_⟩
        have differ : ((content.db.history.current.filter fun other =>
            other.domainId == row.id).map
              (rowCell content.db staleBefore domain.text row category)).Nodup := rowCells_nodup all
        cases rows : content.db.history.current.filter fun other => other.domainId == row.id with
        | nil => exact List.nodup_singleton _
        | cons first rest =>
            rw [rows] at differ
            exact differ

section Sample

/-- A domain that currently uses one technology, of the first of two categories. -/
def oneTechnology : ComparedContent where
  db := { Database.initial { Catalogue.empty with
      categories := [⟨1, "cdn".toList, "CDN".toList⟩, ⟨2, "cms".toList, "CMS".toList⟩]
      technologies := [⟨3, 1, "fastly".toList, "Fastly".toList⟩]
      categories_id_nodup := by decide
      categories_slug_nodup := by decide
      technologies_id_nodup := by decide
      technologies_slug_nodup := by decide
      technologies_category := by decide } with
    domains := [⟨4, "example.com".toList, none⟩]
    history := {
      detections := [], evidence := [], observations := [], changes := []
      current := [⟨4, 3, 5, 6, 6, 0, 0⟩] } }
  names_nodup := by decide
  policies_nodup := by decide
  current_nodup := by decide
  current_technology := by decide

/-- The domain and one that is not known. -/
def comparedDomains : List CanonicalDomain :=
  [exampleDomain, ⟨"example.org".toList, by decide, by decide, by decide⟩]

theorem oneTechnology_own_category :
    Exact codePoints oneTechnology.db comparedDomains 10 exampleDomain
      ⟨1, "cdn".toList, "CDN".toList⟩ :=
  (comparison_exact_iff codePoints oneTechnology comparedDomains (by decide) 10 exampleDomain
    List.mem_cons_self ⟨1, "cdn".toList, "CDN".toList⟩ (by decide)).mpr (by
      unfold Confined
      decide)

/-- In the other category the domain has a cell without a technology that is not
unknown. -/
theorem oneTechnology_other_category :
    cellsOf exampleDomain.text ⟨2, "cms".toList, "CMS".toList⟩
        (comparison codePoints oneTechnology.db comparedDomains 10) =
      [⟨"cms".toList, "example.com".toList, none, "stale".toList, some 0⟩] ∧
    ¬Exact codePoints oneTechnology.db comparedDomains 10 exampleDomain
      ⟨2, "cms".toList, "CMS".toList⟩ := by
  have cells : cellsOf exampleDomain.text ⟨2, "cms".toList, "CMS".toList⟩
      (comparison codePoints oneTechnology.db comparedDomains 10) =
      [⟨"cms".toList, "example.com".toList, none, "stale".toList, some 0⟩] := by decide +kernel
  refine ⟨cells, ?_⟩
  intro exact_cells
  have expected := exact_cells.1
  rw [cells] at expected
  revert expected
  decide +kernel

end Sample

end TechAtlas.Public
