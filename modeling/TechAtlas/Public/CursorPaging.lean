import TechAtlas.Store.PublicRead

set_option autoImplicit false

/- Following the cursors of the public listings. Each listing pops the surplus
row of its look-ahead and continues strictly after it, so the row is skipped as
soon as there is a second page. -/
namespace TechAtlas.Public

open Library Store

variable (collation : Collation) (db : Database)

section Pages

/-- A page of `technologies`, as a client follows it. -/
def technologiesPage (category : Option Text) (trend : Option PublicTechnologyTrend) (limit : Nat)
    (since : Time) (cursor : Option Text) : Option (Page PublicTechnologyLibraryItem Text) :=
  (technologies collation db category trend cursor limit since).toOption.map fun page =>
    { items := page.items, nextCursor := page.nextCursor }

def technologyDomainsPage (technology : Text) (limit : Nat) (cursor : Option Text) :
    Option (Page PublicDomainSummary Text) :=
  (technologyDomains collation db technology cursor limit).toOption.join

def technologyProfilePage (technology : Text) (limit : Nat) (since : Time)
    (cursor : Option Text) : Option (Page PublicDomainSummary Text) :=
  (technologyProfile collation db technology cursor limit since).toOption.join.map
    PublicTechnologyProfile.domains

def providerDomainsPage (provider : Text) (limit : Nat) (since : Time) (cursor : Option Text) :
    Option (Page PublicDomainSummary Text) :=
  (providerProfile collation db provider cursor limit since).toOption.join.map
    PublicProviderProfile.domains

end Pages

section Order

variable {collation} {ρ : Type} (key : ρ → Text)

/-- The row lies strictly after the cursor. -/
def After (collation : Collation) (key : ρ → Text) (cursor : Text) (row : ρ) : Prop :=
  collation.le (key row) cursor = false

theorem after_strict (row : ρ) : ¬After collation key (key row) row := by
  rcases collation.total (key row) (key row) with same | same <;> simp [After, same]

theorem after_transitive (cursor : Text) (next row : ρ) (first : After collation key cursor next)
    (second : After collation key (key next) row) : After collation key cursor row := by
  unfold After at first second ⊢
  by_contra before
  rw [Bool.not_eq_false] at before
  rcases collation.total (key next) cursor with early | late
  · rw [early] at first
    cases first
  · rw [collation.trans _ _ _ before late] at second
    cases second

theorem isAfter_some {cursor : Text} {row : ρ}
    (later : collation.isAfter (some cursor) (key row) = true) : After collation key cursor row := by
  simpa [Collation.isAfter, After] using later

theorem lookAhead_eq {limit : Nat} (bounded : limit ≤ 100) : lookAhead limit = .ok (limit + 1) := by
  have small : limit + 1 < 2 ^ 63 := by omega
  rw [lookAhead, if_pos small]

end Order

section Queries

variable {collation db}

theorem technologyRows_after {category : Option Text} {trend : Option PublicTechnologyTrend}
    {since : Time} (cursor : Text) :
    ∀ item ∈ technologyRows collation db category trend since (some cursor),
      After collation PublicTechnologyLibraryItem.slug cursor item := by
  intro item member
  rw [technologyRows, List.mem_insertionSort, List.mem_filter] at member
  simp only [Bool.and_eq_true] at member
  exact isAfter_some _ member.2.1.2

theorem technologyDomainRows_after {technology : Text} (cursor : Text) :
    ∀ summary ∈ technologyDomainRows collation db technology (some cursor),
      After collation PublicDomainSummary.canonicalDomain cursor summary := by
  intro summary member
  rw [technologyDomainRows, List.mem_insertionSort, List.mem_filter] at member
  exact isAfter_some _ member.2

theorem providerDomainRows_after {providerId : Uuid} (cursor : Text) :
    ∀ summary ∈ providerDomainRows collation db providerId (some cursor),
      After collation PublicDomainSummary.canonicalDomain cursor summary := by
  intro summary member
  rw [providerDomainRows, List.mem_insertionSort, List.mem_filter] at member
  exact isAfter_some _ member.2

theorem technologiesPage_eq {category : Option Text} {trend : Option PublicTechnologyTrend}
    {limit : Nat} {since : Time} (bounded : limit ≤ 100) :
    technologiesPage collation db category trend limit since = fun cursor =>
      some (poppedPage PublicTechnologyLibraryItem.slug limit
        ((technologyRows collation db category trend since cursor).take (limit + 1))) := by
  funext cursor
  simp only [technologiesPage, technologies, lookAhead_eq bounded]
  rfl

theorem technologyDomainsPage_eq {technology : Text} {limit : Nat} {row : TechnologyRow}
    (known : db.catalogue.technologyBySlug technology = some row) (bounded : limit ≤ 100) :
    technologyDomainsPage collation db technology limit = fun cursor =>
      some (poppedPage PublicDomainSummary.canonicalDomain limit
        ((technologyDomainRows collation db technology cursor).take (limit + 1))) := by
  funext cursor
  simp only [technologyDomainsPage, technologyDomains, known, lookAhead_eq bounded]
  rfl

theorem technologyProfilePage_eq {technology : Text} {limit : Nat} {since : Time}
    {row : TechnologyRow} (known : db.catalogue.technologyBySlug technology = some row)
    (bounded : limit ≤ 100) :
    technologyProfilePage collation db technology limit since = fun cursor =>
      some (poppedPage PublicDomainSummary.canonicalDomain limit
        ((technologyDomainRows collation db technology cursor).take (limit + 1))) := by
  have member := (find?_eq_some_mem known).1
  obtain ⟨item, joined⟩ := Option.isSome_iff_exists.mp
    (libraryItemWith_isSome member (countedNetChange db.history.changes since row.id))
  funext cursor
  simp only [technologyProfilePage, technologyProfile, technologyDomains, known, joined,
    lookAhead_eq bounded, Option.bind_some, Option.map_some]
  rfl

theorem providerDomainsPage_eq {provider : Text} {limit : Nat} {since : Time} {row : ProviderRow}
    (known : db.catalogue.providerBySlug provider = some row) (bounded : limit ≤ 100) :
    providerDomainsPage collation db provider limit since = fun cursor =>
      some (poppedPage PublicDomainSummary.canonicalDomain limit
        ((providerDomainRows collation db row.id cursor).take (limit + 1))) := by
  funext cursor
  simp only [providerDomainsPage, providerProfile, known, lookAhead_eq bounded]
  rfl

end Queries

/-- Following the cursors of a listing returns its rows, each once and in order,
exactly when they fit on one page. -/
theorem cursor_paging_complete_iff (collation : Collation) (db : Database) (limit : Nat)
    (bounded : limit ≤ 100) (since : Time) :
    (∀ category trend,
      (∃ pages, collect (technologiesPage collation db category trend limit since) pages none =
        some (technologyRows collation db category trend since none)) ↔
      (technologyRows collation db category trend since none).length ≤ limit) ∧
    (∀ technology row, db.catalogue.technologyBySlug technology = some row →
      ((∃ pages, collect (technologyDomainsPage collation db technology limit) pages none =
        some (technologyDomainRows collation db technology none)) ↔
        (technologyDomainRows collation db technology none).length ≤ limit) ∧
      ((∃ pages, collect (technologyProfilePage collation db technology limit since) pages none =
        some (technologyDomainRows collation db technology none)) ↔
        (technologyDomainRows collation db technology none).length ≤ limit)) ∧
    ∀ provider row, db.catalogue.providerBySlug provider = some row →
      ((∃ pages, collect (providerDomainsPage collation db provider limit since) pages none =
        some (providerDomainRows collation db row.id none)) ↔
        (providerDomainRows collation db row.id none).length ≤ limit) := by
  refine ⟨?_, ?_, ?_⟩
  · intro category trend
    rw [technologiesPage_eq bounded]
    exact poppedPage_complete_iff (after_strict _) (after_transitive _) technologyRows_after
  · intro technology row known
    rw [technologyDomainsPage_eq known bounded, technologyProfilePage_eq known bounded]
    constructor <;>
      exact poppedPage_complete_iff (after_strict _) (after_transitive _) technologyDomainRows_after
  · intro provider row known
    rw [providerDomainsPage_eq known bounded]
    exact poppedPage_complete_iff (after_strict _) (after_transitive _) providerDomainRows_after

section Sample

/-- Two technologies of one category. -/
def twoTechnologies : Database :=
  Database.initial { Catalogue.empty with
    categories := [⟨1, "cdn".toList, "CDN".toList⟩]
    technologies := [⟨2, 1, "akamai".toList, "Akamai".toList⟩, ⟨3, 1, "fastly".toList, "Fastly".toList⟩]
    categories_id_nodup := by decide
    categories_slug_nodup := by decide
    technologies_id_nodup := by decide
    technologies_slug_nodup := by decide
    technologies_category := by decide }

theorem twoTechnologies_on_one_page :
    ∃ pages, collect (technologiesPage codePoints twoTechnologies none none 2 0) pages none =
      some (technologyRows codePoints twoTechnologies none none 0 none) :=
  ((cursor_paging_complete_iff codePoints twoTechnologies 2 (by decide) 0).1 none none).mpr
    (by decide)

/-- With one technology a page, the second one is never listed. -/
theorem twoTechnologies_skipped :
    (technologyRows codePoints twoTechnologies none none 0 none).map
        PublicTechnologyLibraryItem.slug = ["akamai".toList, "fastly".toList] ∧
      ¬∃ pages, collect (technologiesPage codePoints twoTechnologies none none 1 0) pages none =
        some (technologyRows codePoints twoTechnologies none none 0 none) := by
  refine ⟨by decide, ?_⟩
  rw [technologiesPage_eq (by decide), poppedPage_complete_iff (after_strict _)
    (after_transitive _) technologyRows_after]
  decide

end Sample

end TechAtlas.Public
