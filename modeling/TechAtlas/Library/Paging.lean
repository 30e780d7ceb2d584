import Mathlib.Tactic
import Mathlib.Data.List.Sort

set_option autoImplicit false

/- Paging by a cursor. A query returns the rows after the cursor; a page holds
some of them and the cursor of the next page. -/
namespace Library

universe u v

variable {ρ : Type u} {κ : Type v}

structure Page (ρ : Type u) (κ : Type v) where
  items : List ρ
  nextCursor : Option κ

/-- The items of at most the given number of pages, followed until no cursor is
returned; `none` when a page is missing or a cursor is left. -/
def collect (page : Option κ → Option (Page ρ κ)) : Nat → Option κ → Option (List ρ)
  | 0, _ => none
  | pages + 1, cursor =>
      (page cursor).bind fun found =>
        match found.nextCursor with
        | none => some found.items
        | some next => (collect page pages (some next)).map fun rest => found.items ++ rest

/-- A page of a look-ahead query whose surplus row is popped and lends its key
to the cursor. -/
def poppedPage (key : ρ → κ) (limit : Nat) (fetched : List ρ) : Page ρ κ :=
  if limit < fetched.length then
    { items := fetched.dropLast, nextCursor := fetched.getLast?.map key }
  else { items := fetched, nextCursor := none }

theorem mem_of_mem_poppedPage {key : ρ → κ} {limit : Nat} {fetched : List ρ} {row : ρ}
    (member : row ∈ (poppedPage key limit fetched).items) : row ∈ fetched := by
  unfold poppedPage at member
  split at member
  · exact List.dropLast_subset fetched member
  · exact member

theorem poppedPage_items_of_le {key : ρ → κ} {limit : Nat} {fetched : List ρ}
    (fits : fetched.length ≤ limit) : (poppedPage key limit fetched).items = fetched := by
  rw [poppedPage, if_neg (Nat.not_lt.mpr fits)]

/-- Every row of a collection that starts at a cursor lies after the cursor. -/
theorem collect_after {page : Option κ → Option (Page ρ κ)} {after : κ → ρ → Prop}
    (beyond : ∀ cursor found, page (some cursor) = some found →
      (∀ row ∈ found.items, after cursor row) ∧
        ∀ next ∈ found.nextCursor, ∀ row, after next row → after cursor row)
    {pages : Nat} {cursor : κ} {rows : List ρ}
    (collected : collect page pages (some cursor) = some rows) :
    ∀ row ∈ rows, after cursor row := by
  induction pages generalizing cursor rows with
  | zero => cases collected
  | succ pages ih =>
      rw [collect, Option.bind_eq_some_iff] at collected
      obtain ⟨found, served, continued⟩ := collected
      obtain ⟨here, later⟩ := beyond cursor found served
      split at continued
      · cases continued
        exact here
      · rename_i next emitted
        obtain ⟨rest, followed, same⟩ := Option.map_eq_some_iff.mp continued
        subst same
        intro row member
        rcases List.mem_append.mp member with first | second
        · exact here row first
        · exact later next (Option.mem_def.mpr emitted) row (ih followed row second)

/-- The pages of such a query only move forward. -/
theorem beyond_popped {query : Option κ → List ρ} {key : ρ → κ} {limit : Nat}
    {after : κ → ρ → Prop}
    (transitive : ∀ cursor next row, after cursor next → after (key next) row → after cursor row)
    (beyond : ∀ cursor, ∀ row ∈ query (some cursor), after cursor row) :
    ∀ cursor found, some (poppedPage key limit ((query (some cursor)).take (limit + 1))) =
      some found →
      (∀ row ∈ found.items, after cursor row) ∧
        ∀ next ∈ found.nextCursor, ∀ row, after next row → after cursor row := by
  intro cursor found served
  cases served
  constructor
  · intro row member
    exact beyond cursor row (List.mem_of_mem_take (mem_of_mem_poppedPage member))
  · intro next emitted row later
    unfold poppedPage at emitted
    split at emitted
    · obtain ⟨last, isLast, rfl⟩ := Option.map_eq_some_iff.mp emitted
      have listed := List.mem_of_mem_take (List.mem_of_getLast? isLast)
      exact transitive cursor last row (beyond cursor last listed) later
    · cases emitted

theorem poppedPage_surplus (key : ρ → κ) (first : List ρ) (surplus : ρ) :
    poppedPage key first.length (first ++ [surplus]) =
      { items := first, nextCursor := some (key surplus) } := by
  simp [poppedPage]

/-- When the surplus row lends its key to the cursor and the query continues
strictly after the cursor, that row is skipped: paging is complete exactly when
one page holds everything. -/
theorem poppedPage_complete_iff {query : Option κ → List ρ} {key : ρ → κ} {limit : Nat}
    {after : κ → ρ → Prop} (strict : ∀ row, ¬after (key row) row)
    (transitive : ∀ cursor next row, after cursor next → after (key next) row → after cursor row)
    (beyond : ∀ cursor, ∀ row ∈ query (some cursor), after cursor row) :
    (∃ pages, collect (fun cursor =>
        some (poppedPage key limit ((query cursor).take (limit + 1)))) pages none =
      some (query none)) ↔ (query none).length ≤ limit := by
  constructor
  · rintro ⟨pages, collected⟩
    by_contra more
    obtain ⟨surplus, rest, split⟩ : ∃ surplus rest, (query none).drop limit = surplus :: rest :=
      List.exists_cons_of_ne_nil (by rw [ne_eq, List.drop_eq_nil_iff]; exact more)
    have whole : query none = (query none).take limit ++ surplus :: rest := by
      rw [← split, List.take_append_drop]
    have firstLength : ((query none).take limit).length = limit := by
      rw [List.length_take]
      omega
    have fetched : (query none).take (limit + 1) = (query none).take limit ++ [surplus] := by
      rw [List.take_add, split]
      rfl
    have firstPage : poppedPage key limit ((query none).take (limit + 1)) =
        { items := (query none).take limit, nextCursor := some (key surplus) } := by
      have surplusPage := poppedPage_surplus key ((query none).take limit) surplus
      rwa [firstLength, ← fetched] at surplusPage
    cases pages with
    | zero => cases collected
    | succ pages =>
        simp only [collect, Option.bind_some, firstPage] at collected
        obtain ⟨others, followed, same⟩ := Option.map_eq_some_iff.mp collected
        have suffix : others = surplus :: rest := by
          rw [whole] at same
          simpa [firstLength] using same
        -- the next pages start strictly after the surplus row, so they do not hold it
        have later := collect_after (beyond_popped transitive beyond) followed
        exact strict surplus (later surplus (by rw [suffix]; exact List.mem_cons_self))
  · intro few
    refine ⟨1, ?_⟩
    have fetched : (query none).take (limit + 1) = query none :=
      List.take_of_length_le (by omega)
    simp [collect, fetched, poppedPage, Nat.not_lt.mpr few]

section Cut

/-- A page of a look-ahead query whose surplus row is cut off; the last row that
stays lends its key to the cursor. -/
def cutPage (key : ρ → κ) (limit : Nat) (rows : List ρ) : Page ρ κ where
  items := rows.take limit
  nextCursor := if limit < rows.length then (rows.take limit).getLast?.map key else none

theorem cutPage_take (key : ρ → κ) {limit fetched : Nat} (ahead : limit < fetched)
    (rows : List ρ) : cutPage key limit (rows.take fetched) = cutPage key limit rows := by
  have cut : (rows.take fetched).take limit = rows.take limit := by
    rw [List.take_take, Nat.min_eq_left ahead.le]
  have more : limit < (rows.take fetched).length ↔ limit < rows.length := by
    rw [List.length_take, lt_min_iff]
    exact and_iff_right ahead
  simp only [cutPage, cut, more]

variable {page : Option κ → Option (Page ρ κ)} {key : ρ → κ} {limit : Nat} {rows : List ρ}

/-- When the page at the cursor of a row is made of the rows after it, following
the cursors returns every row once and in order. -/
theorem collect_cut (positive : 0 < limit)
    (continues : ∀ before row rest, rows = before ++ row :: rest →
      page (some (key row)) = some (cutPage key limit rest))
    (before rest : List ρ) (split : rows = before ++ rest) (cursor : Option κ)
    (served : page cursor = some (cutPage key limit rest)) :
    ∃ pages, collect page pages cursor = some rest := by
  induction size : rest.length using Nat.strong_induction_on generalizing before rest cursor with
  | _ length ih =>
      by_cases more : limit < rest.length
      · have kept : rest.take limit ≠ [] := by
          rw [ne_eq, List.take_eq_nil_iff]
          rintro (zero | empty)
          · omega
          · rw [empty] at more
            cases more
        obtain ⟨first, last, taken⟩ := (List.eq_nil_or_concat (rest.take limit)).resolve_left kept
        rw [List.concat_eq_append] at taken
        have whole : rest = (first ++ [last]) ++ rest.drop limit := by
          rw [← taken, List.take_append_drop]
        have here : rows = (before ++ first) ++ last :: rest.drop limit := by
          calc rows = before ++ rest := split
            _ = before ++ (first ++ [last] ++ rest.drop limit) := congrArg (before ++ ·) whole
            _ = (before ++ first) ++ last :: rest.drop limit := by simp
        have shorter : (rest.drop limit).length < length := by
          rw [List.length_drop]
          omega
        obtain ⟨pages, followed⟩ := ih _ shorter (before ++ first ++ [last]) (rest.drop limit)
          (by rw [here]; simp) (some (key last)) (continues _ _ _ here) rfl
        have emitted : (cutPage key limit rest).nextCursor = some (key last) := by
          simp [cutPage, more, taken]
        refine ⟨pages + 1, ?_⟩
        rw [collect, served, Option.bind_some, emitted]
        change (collect page pages (some (key last))).map _ = _
        rw [followed, Option.map_some]
        exact congrArg some (List.take_append_drop limit rest)
      · have all : rest.take limit = rest := List.take_of_length_le (Nat.le_of_not_lt more)
        exact ⟨1, by simp [collect, served, cutPage, more, all]⟩

end Cut

section Ordered

variable {le : ρ → ρ → Prop} [DecidableRel le] [Std.Total le] [IsTrans ρ le]

/-- In a table without equivalent rows, the rows that are not up to a row are
those sorted after it. -/
theorem insertionSort_following {table before rest : List ρ} {row : ρ} (distinct : table.Nodup)
    (antisymmetric : ∀ left ∈ table, ∀ right ∈ table, le left right → le right left → left = right)
    (sorted : table.insertionSort le = before ++ row :: rest) :
    (table.filter fun other => !decide (le other row)).insertionSort le = rest := by
  have inOrder : (before ++ row :: rest).Pairwise le := sorted ▸ List.pairwise_insertionSort le table
  have listed : (before ++ row :: rest).Perm table := sorted ▸ List.perm_insertionSort le table
  have unlike : (before ++ row :: rest).Nodup := listed.nodup_iff.mpr distinct
  rw [List.pairwise_append, List.pairwise_cons] at inOrder
  obtain ⟨_, ⟨later, restInOrder⟩, earlier⟩ := inOrder
  have keeps : (before ++ row :: rest).filter (fun other => !decide (le other row)) = rest := by
    have early : before.filter (fun other => !decide (le other row)) = [] := by
      rw [List.filter_eq_nil_iff]
      intro other member
      simp [earlier other member row List.mem_cons_self]
    have own : le row row := (Std.Total.total (r := le) row row).elim id id
    have late : rest.filter (fun other => !decide (le other row)) = rest := by
      rw [List.filter_eq_self]
      intro other member
      rw [Bool.not_eq_true', decide_eq_false_iff_not]
      intro back
      have inTable : ∀ item ∈ row :: rest, item ∈ table := fun item inTail =>
        listed.subset (List.mem_append_right before inTail)
      have same := antisymmetric other (inTable other (List.mem_cons_of_mem row member)) row
        (inTable row List.mem_cons_self) back (later other member)
      rw [List.nodup_append, List.nodup_cons] at unlike
      exact unlike.2.1.1 (same ▸ member)
    rw [List.filter_append, early, List.filter_cons_of_neg (by simp [own]), late, List.nil_append]
  have found : ((table.filter fun other => !decide (le other row)).insertionSort le).Perm rest := by
    rw [← keeps]
    exact (List.perm_insertionSort le _).trans (listed.filter _).symm
  refine found.eq_of_pairwise ?_ (List.pairwise_insertionSort le _) restInOrder
  intro left right inLeft inRight
  rw [List.mem_insertionSort, List.mem_filter] at inLeft
  have inTable := listed.subset (List.mem_append_right before (List.mem_cons_of_mem row inRight))
  exact antisymmetric left inLeft.1 right inTable

end Ordered
end Library
