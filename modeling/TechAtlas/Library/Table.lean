import Mathlib.Tactic
import Mathlib.Data.List.Destutter
import Mathlib.Data.List.Sort

set_option autoImplicit false

/- Tables are lists of rows in insertion order. An update rewrites the rows its
condition selects and keeps every other row and the order. -/
namespace Library

universe u v

variable {α : Type u} {κ : Type v}

/-- `UPDATE table SET ... WHERE selected`. -/
def updateWhere (selected : α → Bool) (change : α → α) (table : List α) : List α :=
  table.map fun row => if selected row then change row else row

@[simp] theorem updateWhere_length (selected : α → Bool) (change : α → α) (table : List α) :
    (updateWhere selected change table).length = table.length :=
  List.length_map ..

theorem mem_updateWhere {selected : α → Bool} {change : α → α} {table : List α} {row : α} :
    row ∈ updateWhere selected change table ↔
      ∃ old ∈ table, (if selected old then change old else old) = row :=
  List.mem_map

/-- A row of the updated table is an old row that was not selected, or the
change of one that was. -/
theorem mem_updateWhere_cases {selected : α → Bool} {change : α → α} {table : List α} {row : α}
    (member : row ∈ updateWhere selected change table) :
    (row ∈ table ∧ selected row = false) ∨
      ∃ old ∈ table, selected old = true ∧ row = change old := by
  obtain ⟨old, inTable, same⟩ := mem_updateWhere.mp member
  by_cases chosen : selected old = true
  · rw [if_pos chosen] at same
    exact Or.inr ⟨old, inTable, chosen, same.symm⟩
  · rw [if_neg chosen] at same
    subst same
    exact Or.inl ⟨inTable, by simpa using chosen⟩

/-- Rows the condition does not select survive the update. -/
theorem mem_updateWhere_of_not {selected : α → Bool} {change : α → α} {table : List α} {row : α}
    (member : row ∈ table) (skipped : selected row = false) :
    row ∈ updateWhere selected change table :=
  mem_updateWhere.mpr ⟨row, member, by simp [skipped]⟩

theorem mem_updateWhere_of_selected {selected : α → Bool} {change : α → α} {table : List α}
    {row : α} (member : row ∈ table) (chosen : selected row = true) :
    change row ∈ updateWhere selected change table :=
  mem_updateWhere.mpr ⟨row, member, by simp [chosen]⟩

/-- An update that keeps a column keeps the whole column. -/
theorem updateWhere_map (column : α → κ) {selected : α → Bool} {change : α → α}
    (keeps : ∀ row, column (change row) = column row) (table : List α) :
    (updateWhere selected change table).map column = table.map column := by
  simp only [updateWhere, List.map_map]
  apply List.map_congr_left
  intro row _
  by_cases chosen : selected row = true <;> simp [chosen, keeps]

theorem updateWhere_append (selected : α → Bool) (change : α → α) (first second : List α) :
    updateWhere selected change (first ++ second) =
      updateWhere selected change first ++ updateWhere selected change second :=
  List.map_append

theorem updateWhere_congr {selected other : α → Bool} {change : α → α} {table : List α}
    (same : ∀ row ∈ table, selected row = other row) :
    updateWhere selected change table = updateWhere other change table := by
  apply List.map_congr_left
  intro row member
  rw [same row member]

theorem filter_updateWhere {selected q : α → Bool} {change : α → α}
    (keeps : ∀ row, q (change row) = q row) (table : List α) :
    (updateWhere selected change table).filter q =
      updateWhere selected change (table.filter q) := by
  have same : ∀ row, q (if selected row then change row else row) = q row := by
    intro row
    split
    · exact keeps row
    · rfl
  unfold updateWhere
  rw [List.filter_map]
  congr 2
  funext row
  exact same row

theorem updateWhere_updateWhere {selected : α → Bool} {first second : α → α}
    (keeps : ∀ row, selected (first row) = selected row) (table : List α) :
    updateWhere selected second (updateWhere selected first table) =
      updateWhere selected (fun row => second (first row)) table := by
  unfold updateWhere
  rw [List.map_map]
  apply List.map_congr_left
  intro row _
  by_cases chosen : selected row = true
  · simp [chosen, keeps]
  · simp [chosen]

theorem updateWhere_eq_self {selected : α → Bool} {change : α → α} {table : List α}
    (skipped : ∀ row ∈ table, selected row = false) : updateWhere selected change table = table := by
  have same : ∀ row ∈ table, (if selected row then change row else row) = row := by
    intro row member
    simp [skipped row member]
  rw [updateWhere, List.map_congr_left same, List.map_id']

/-- In a keyed table an update of one row makes one new row. -/
theorem filter_updateWhere_single [DecidableEq κ] {key : α → κ} {change : α → α} {table : List α}
    (unique : (table.map key).Nodup) {row : α} (member : row ∈ table) {q : α → Bool}
    (new : q (change row) = true) (old : ∀ other ∈ table, q other = false) :
    (updateWhere (fun other => key other == key row) change table).filter q = [change row] := by
  obtain ⟨before, after, rfl⟩ := List.append_of_mem member
  rw [List.map_append, List.map_cons, List.nodup_append] at unique
  obtain ⟨_, uniqueAfter, disjoint⟩ := unique
  have skippedBefore : ∀ other ∈ before, (key other == key row) = false := by
    intro other inBefore
    have apart := disjoint (key other) (List.mem_map.mpr ⟨other, inBefore, rfl⟩) (key row)
      List.mem_cons_self
    simpa using apart
  have skippedAfter : ∀ other ∈ after, (key other == key row) = false := by
    intro other inAfter
    have apart := (List.nodup_cons.mp uniqueAfter).1
    rw [beq_eq_false_iff_ne]
    intro same
    exact apart (List.mem_map.mpr ⟨other, inAfter, same⟩)
  have selectedRow : updateWhere (fun other => key other == key row) change (row :: after) =
      change row :: after := by
    rw [← List.singleton_append, updateWhere_append, updateWhere_eq_self skippedAfter]
    simp [updateWhere]
  have dropped : ∀ other ∈ before ++ row :: after, ¬ q other = true := by
    intro other inTable
    simp [old other inTable]
  rw [updateWhere_append, updateWhere_eq_self skippedBefore, selectedRow, List.filter_append,
    List.filter_cons_of_pos new, List.filter_eq_nil_iff.mpr, List.filter_eq_nil_iff.mpr]
  · rfl
  · intro other inAfter
    exact dropped other (List.mem_append_right _ (List.mem_cons_of_mem row inAfter))
  · intro other inBefore
    exact dropped other (List.mem_append_left _ inBefore)

/-- Counting a property that the update cannot give to a row it selects. -/
theorem countP_updateWhere_le (p selected : α → Bool) (change : α → α) (table : List α)
    (shrinks : ∀ row, selected row = true → p (change row) = true → p row = true) :
    (updateWhere selected change table).countP p ≤ table.countP p := by
  rw [updateWhere, List.countP_map]
  apply List.countP_mono_left
  intro row _ holds
  by_cases chosen : selected row = true
  · exact shrinks row chosen (by simpa [Function.comp, chosen] using holds)
  · simpa [Function.comp, chosen] using holds

/-- An update that takes the property from one row that had it. -/
theorem countP_updateWhere_lt (p selected : α → Bool) (change : α → α) (table : List α)
    (shrinks : ∀ row, selected row = true → p (change row) = true → p row = true)
    {lost : α} (member : lost ∈ table) (chosen : selected lost = true) (had : p lost = true)
    (gone : p (change lost) = false) :
    (updateWhere selected change table).countP p < table.countP p := by
  induction table with
  | nil => cases member
  | cons row rest ih =>
      have step := countP_updateWhere_le p selected change rest shrinks
      rcases List.mem_cons.mp member with rfl | inRest
      · simp only [updateWhere, List.map_cons, chosen, ↓reduceIte, List.countP_cons, gone, had,
          Bool.false_eq_true] at step ⊢
        omega
      · have strict := ih inRest
        have head : p (if selected row then change row else row) = true → p row = true := by
          intro holds
          by_cases here : selected row = true
          · exact shrinks row here (by simpa [here] using holds)
          · simpa [here] using holds
        simp only [updateWhere, List.map_cons, List.countP_cons] at strict ⊢
        by_cases new : p (if selected row then change row else row) = true
        · simp only [new, head new, ↓reduceIte]
          omega
        · simp only [new, Bool.false_eq_true, ↓reduceIte]
          omega

/-- Counting a property that the update leaves alone. -/
theorem countP_updateWhere_eq (p selected : α → Bool) (change : α → α) (table : List α)
    (keeps : ∀ row ∈ table, selected row = true → p (change row) = p row) :
    (updateWhere selected change table).countP p = table.countP p := by
  rw [updateWhere, List.countP_map]
  apply List.countP_congr
  intro row member
  by_cases chosen : selected row = true
  · simp [Function.comp, chosen, keeps row member chosen]
  · simp [Function.comp, chosen]

/-- An update under row constraints: it fails when a selected row may not be
changed or its change is not a valid row. -/
def updateChecked (selected allowed valid : α → Bool) (change : α → α) (table : List α) :
    Option (List α) :=
  if table.all fun row => !selected row || (allowed row && valid (change row)) then
    some (updateWhere selected change table)
  else none

theorem updateChecked_eq_some {selected allowed valid : α → Bool} {change : α → α}
    {table result : List α} :
    updateChecked selected allowed valid change table = some result ↔
      (∀ row ∈ table, selected row = true → allowed row = true ∧ valid (change row) = true) ∧
        result = updateWhere selected change table := by
  unfold updateChecked
  constructor
  · intro success
    split at success
    · rename_i checked
      refine ⟨?_, (Option.some.inj success).symm⟩
      intro row member chosen
      have here := List.all_eq_true.mp checked row member
      simpa [chosen] using here
    · cases success
  · rintro ⟨checked, rfl⟩
    rw [if_pos]
    rw [List.all_eq_true]
    intro row member
    by_cases chosen : selected row = true
    · simp [checked row member chosen]
    · simp [chosen]

/-- An insertion under a constraint on the new row and the rows already there. -/
def insertChecked (admits : List α → α → Bool) (row : α) (table : List α) : Option (List α) :=
  if admits table row then some (table ++ [row]) else none

theorem insertChecked_eq_some {admits : List α → α → Bool} {row : α} {table result : List α} :
    insertChecked admits row table = some result ↔
      admits table row = true ∧ result = table ++ [row] := by
  unfold insertChecked
  split
  · rename_i admitted
    simp [admitted, eq_comm]
  · rename_i refused
    simp [refused]

/-- Two rows that share the key of a keyed table are one row. -/
theorem eq_of_key_eq {key : α → κ} {table : List α} (unique : (table.map key).Nodup)
    {first second : α} (left : first ∈ table) (right : second ∈ table)
    (same : key first = key second) : first = second :=
  List.inj_on_of_nodup_map unique left right same

theorem nodup_map_concat {key : α → κ} {table : List α} (unique : (table.map key).Nodup)
    {row : α} (fresh : ∀ old ∈ table, key old ≠ key row) :
    ((table ++ [row]).map key).Nodup := by
  rw [List.map_append, List.nodup_append]
  refine ⟨unique, by simp, ?_⟩
  intro left inOld right inNew same
  obtain ⟨old, member, rfl⟩ := List.mem_map.mp inOld
  simp only [List.map_cons, List.map_nil, List.mem_singleton] at inNew
  exact fresh old member (same.trans inNew)

/-- In a keyed table, the rows that a condition selects are as many as their keys. -/
theorem countP_eq_length_of_keys {key : α → κ} {p : α → Bool} {table : List α}
    (unique : (table.map key).Nodup) {chosen : List κ} (distinct : chosen.Nodup)
    (selects : ∀ row ∈ table, p row = true ↔ key row ∈ chosen)
    (known : ∀ value ∈ chosen, ∃ row ∈ table, key row = value) :
    table.countP p = chosen.length := by
  have perm : ((table.filter p).map key).Perm chosen := by
    rw [List.perm_ext_iff_of_nodup (unique.sublist (List.filter_sublist.map _)) distinct]
    intro value
    rw [List.mem_map]
    constructor
    · rintro ⟨row, member, rfl⟩
      obtain ⟨inTable, selected⟩ := List.mem_filter.mp member
      exact (selects row inTable).mp selected
    · intro member
      obtain ⟨row, inTable, rfl⟩ := known value member
      exact ⟨row, List.mem_filter.mpr ⟨inTable, (selects row inTable).mpr member⟩, rfl⟩
  rw [← perm.length_eq, List.length_map, List.countP_eq_length_filter]

theorem find?_eq_some_mem {p : α → Bool} {table : List α} {row : α}
    (found : table.find? p = some row) : row ∈ table ∧ p row = true :=
  ⟨List.mem_of_find?_eq_some found, by simpa using List.find?_some found⟩

/-- A row at most, with a key that is not there yet. -/
theorem nodup_map_append_few {key : α → κ} {table added : List α}
    (unique : (table.map key).Nodup) (few : added.length ≤ 1)
    (fresh : ∀ old ∈ table, ∀ new ∈ added, key old ≠ key new) :
    ((table ++ added).map key).Nodup := by
  match added with
  | [] => rwa [List.append_nil]
  | [row] => exact nodup_map_concat unique fun old member => fresh old member row List.mem_cons_self
  | _ :: _ :: _ =>
      rw [List.length_cons, List.length_cons] at few
      omega

/-- Rows of distinct keys, each with the key of another table's row, are no more than those. -/
theorem countP_le_of_keys {β : Type*} {key : α → κ} {otherKey : β → κ} {table : List α}
    {others : List β} {p : α → Bool} {q : β → Bool} (unique : (table.map key).Nodup)
    (found : ∀ row ∈ table, p row = true →
      ∃ other ∈ others, q other = true ∧ otherKey other = key row) :
    table.countP p ≤ others.countP q := by
  have distinct : ((table.filter p).map key).Nodup := (List.filter_sublist.map key).nodup unique
  have among : (table.filter p).map key ⊆ (others.filter q).map otherKey := by
    intro place member
    obtain ⟨row, inFiltered, rfl⟩ := List.mem_map.mp member
    obtain ⟨inTable, chosen⟩ := List.mem_filter.mp inFiltered
    obtain ⟨other, inOthers, selected, same⟩ := found row inTable chosen
    exact List.mem_map.mpr ⟨other, List.mem_filter.mpr ⟨inOthers, selected⟩, same⟩
  have few := (List.subperm_of_subset distinct among).length_le
  rw [List.length_map, List.length_map] at few
  rw [List.countP_eq_length_filter, List.countP_eq_length_filter]
  exact few

theorem find?_of_prefix {p : α → Bool} {table later : List α} (isPrefix : table <+: later) {row : α}
    (found : table.find? p = some row) : later.find? p = some row := by
  obtain ⟨added, rfl⟩ := isPrefix
  rw [List.find?_append, found, Option.some_or]

/-- The lookup of a key in a keyed table finds the row that has it. -/
theorem find?_key_eq_some [BEq κ] [LawfulBEq κ] {key : α → κ} {table : List α}
    (unique : (table.map key).Nodup) {value : κ} {row : α} :
    table.find? (fun other => key other == value) = some row ↔ row ∈ table ∧ key row = value := by
  constructor
  · intro found
    obtain ⟨member, same⟩ := find?_eq_some_mem found
    exact ⟨member, beq_iff_eq.mp same⟩
  · rintro ⟨member, rfl⟩
    cases found : table.find? fun other => key other == key row with
    | none =>
        have absent := List.find?_eq_none.mp found row member
        simp at absent
    | some other =>
        obtain ⟨inTable, same⟩ := find?_eq_some_mem found
        rw [eq_of_key_eq unique inTable member (beq_iff_eq.mp same)]

/-- Where keys are distinct, taking a row out takes its key out. -/
theorem key_ne_of_mem_eraseIdx {key : α → κ} {table : List α} (unique : (table.map key).Nodup)
    {place : Nat} {row other : α} (found : table[place]? = some row)
    (member : other ∈ table.eraseIdx place) : key other ≠ key row := by
  obtain ⟨inside, same⟩ := List.getElem?_eq_some_iff.mp found
  have split : table = table.take place ++ row :: table.drop (place + 1) := by
    rw [← same, List.getElem_cons_drop, List.take_append_drop]
  rw [split, List.map_append, List.map_cons, List.nodup_middle, List.nodup_cons] at unique
  intro sameKey
  apply unique.1
  rw [← List.map_append, ← sameKey]
  rw [List.eraseIdx_eq_take_drop_succ] at member
  exact List.mem_map_of_mem member

section Greatest

variable [LT κ] [DecidableLT κ] {key : α → κ}

/-- The row with the greatest key; of several, the first. -/
def greatest (key : α → κ) (table : List α) : Option α :=
  table.foldl (fun best row => match best with
    | some found => if key found < key row then some row else some found
    | none => some row) none

theorem greatest_concat (table : List α) (row : α) :
    greatest key (table ++ [row]) = match greatest key table with
      | some found => if key found < key row then some row else some found
      | none => some row := by
  unfold greatest
  rw [List.foldl_append]
  rfl

/-- Of rows in strictly increasing order the greatest is the last. -/
theorem greatest_eq_getLast? {table : List α}
    (increasing : (table.map key).Pairwise (· < ·)) : greatest key table = table.getLast? := by
  induction table using List.reverseRecOn with
  | nil => rfl
  | append_singleton front last ih =>
      rw [List.map_append, List.pairwise_append] at increasing
      obtain ⟨before, _, latest⟩ := increasing
      rw [greatest_concat, ih before, List.getLast?_concat]
      cases found : front.getLast? with
      | none => rfl
      | some row =>
          have earlier : key row < key last :=
            latest _ (List.mem_map_of_mem (List.mem_of_getLast? found)) _ (by simp)
          exact if_pos earlier

/-- The largest of the values in a table, which are bounded; zero if it is empty. -/
theorem exists_greatest (table : List α) (size : α → Nat) {bound : Nat}
    (bounded : ∀ row ∈ table, size row ≤ bound) :
    ∃ top ≤ bound, (∀ row ∈ table, size row ≤ top) ∧
      (0 < top → ∃ row ∈ table, size row = top) := by
  induction table with
  | nil => exact ⟨0, Nat.zero_le bound, by simp, by simp⟩
  | cons first rest ih =>
      obtain ⟨top, small, above, attained⟩ :=
        ih fun row member => bounded row (List.mem_cons_of_mem first member)
      by_cases larger : top < size first
      · refine ⟨size first, bounded first List.mem_cons_self, ?_, fun _ => ⟨first, by simp, rfl⟩⟩
        intro row member
        rcases List.mem_cons.mp member with rfl | later
        · exact Nat.le_refl _
        · exact Nat.le_of_lt (Nat.lt_of_le_of_lt (above row later) larger)
      · refine ⟨top, small, ?_, ?_⟩
        · intro row member
          rcases List.mem_cons.mp member with rfl | later
          · omega
          · exact above row later
        · intro positive
          obtain ⟨row, member, same⟩ := attained positive
          exact ⟨row, List.mem_cons_of_mem first member, same⟩

end Greatest

section Sorted

variable {r : α → α → Prop}

/-- In a list sorted by an antisymmetric relation equal items are neighbours. -/
theorem nodup_of_pairwise_of_chain [Std.Antisymm r] {items : List α} (sorted : items.Pairwise r)
    (apart : items.IsChain (· ≠ ·)) : items.Nodup := by
  induction items with
  | nil => exact List.nodup_nil
  | cons first rest ih =>
      have later := List.pairwise_cons.mp sorted
      refine List.nodup_cons.mpr ⟨?_, ih later.2 apart.of_cons⟩
      intro again
      cases rest with
      | nil => cases again
      | cons second others =>
          have ne : first ≠ second := by simpa using (List.isChain_cons_cons.mp apart).1
          rcases List.mem_cons.mp again with same | inOthers
          · exact ne same
          · have back := (List.pairwise_cons.mp later.2).1 first inOthers
            exact ne (Std.Antisymm.antisymm first second (later.1 second List.mem_cons_self) back)

/-- Where no two items tie, the order they come in does not matter to the sorting. -/
theorem insertionSort_perm [DecidableRel r] [IsTrans α r] [Std.Total r] {items items' : List α}
    (permuted : items.Perm items')
    (apart : ∀ left ∈ items, ∀ right ∈ items, r left right → r right left → left = right) :
    items.insertionSort r = items'.insertionSort r := by
  have first := List.perm_insertionSort r items
  have second := List.perm_insertionSort r items'
  apply List.Perm.eq_of_pairwise _ (List.pairwise_insertionSort r items)
    (List.pairwise_insertionSort r items') (first.trans (permuted.trans second.symm))
  intro left right inLeft inRight
  exact apart left (first.mem_iff.mp inLeft) right
    (permuted.mem_iff.mpr (second.mem_iff.mp inRight))

/-- Sorting and then dropping equal neighbours leaves no item twice. -/
theorem nodup_destutter_insertionSort [DecidableEq α] [DecidableRel r] [IsTrans α r]
    [Std.Total r] [Std.Antisymm r] (items : List α) :
    ((items.insertionSort r).destutter (· ≠ ·)).Nodup := by
  apply nodup_of_pairwise_of_chain (r := r)
  · exact (List.pairwise_insertionSort r items).sublist (List.destutter_sublist _ _)
  · exact List.isChain_destutter _ _

/-- Of neighbours with the same key one is kept. -/
theorem exists_mem_destutter' {κ : Type*} [DecidableEq κ] (key : α → κ) {first item : α}
    {items : List α} (member : item ∈ first :: items) :
    ∃ kept ∈ List.destutter' (fun left right => key left ≠ key right) first items,
      key kept = key item := by
  induction items generalizing first with
  | nil => exact ⟨item, by simpa using member, rfl⟩
  | cons next rest ih =>
      rcases List.mem_cons.mp member with rfl | later
      · exact ⟨item, List.mem_destutter' _ _ _, rfl⟩
      · by_cases differs : key first ≠ key next
        · obtain ⟨kept, inRest, same⟩ := ih later
          rw [List.destutter'_cons_pos rest differs]
          exact ⟨kept, List.mem_cons_of_mem first inRest, same⟩
        · -- a skipped item has the key of the one that was kept
          rw [List.destutter'_cons_neg rest differs]
          rcases List.mem_cons.mp later with rfl | beyond
          · exact ⟨first, List.mem_destutter' _ _ _, not_ne_iff.mp differs⟩
          · exact ih (List.mem_cons_of_mem first beyond)

theorem mem_destutter_insertionSort [DecidableEq α] [DecidableRel r] {items : List α} {item : α} :
    item ∈ (items.insertionSort r).destutter (· ≠ ·) ↔ item ∈ items := by
  constructor
  · intro member
    exact (List.mem_insertionSort r).mp ((List.destutter_sublist _ _).subset member)
  · intro member
    have sorted : item ∈ items.insertionSort r := (List.mem_insertionSort r).mpr member
    cases order : items.insertionSort r with
    | nil =>
        rw [order] at sorted
        cases sorted
    | cons first rest =>
        rw [order] at sorted
        obtain ⟨kept, inKept, same⟩ := exists_mem_destutter' id sorted
        have own : kept = item := same
        rw [← own]
        exact inKept

/-- Two lists with the same items of a kind have, sorted and without duplicates,
the same list of that kind. -/
theorem filter_destutter_insertionSort [DecidableEq α] [DecidableRel r] [IsTrans α r]
    [Std.Total r] [Std.Antisymm r] {p : α → Bool} {left right : List α}
    (same : ∀ item, p item = true → (item ∈ left ↔ item ∈ right)) :
    ((left.insertionSort r).destutter (· ≠ ·)).filter p =
      ((right.insertionSort r).destutter (· ≠ ·)).filter p := by
  have sorted : ∀ items : List α,
      (((items.insertionSort r).destutter (· ≠ ·)).filter p).Pairwise r := fun items =>
    ((List.pairwise_insertionSort r items).sublist (List.destutter_sublist _ _)).filter p
  apply List.Perm.eq_of_pairwise' (r := r) (sorted left) (sorted right)
  rw [List.perm_ext_iff_of_nodup ((nodup_destutter_insertionSort left).filter p)
    ((nodup_destutter_insertionSort right).filter p)]
  intro item
  simp only [List.mem_filter, mem_destutter_insertionSort]
  constructor
  · rintro ⟨member, kind⟩
    exact ⟨(same item kind).mp member, kind⟩
  · rintro ⟨member, kind⟩
    exact ⟨(same item kind).mpr member, kind⟩

end Sorted

end Library
