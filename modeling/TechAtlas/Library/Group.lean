import Mathlib.Tactic

set_option autoImplicit false

/- A loop that collects rows into groups: a row joins the last group when it belongs to
it, and starts a new one otherwise. -/
namespace Library

universe u v w

variable {α : Type u} {γ : Type v} {β : Type w} (start : α → γ) (same : γ → α → Bool)
  (item : α → β)

/-- One turn of the loop. -/
def pushGroup (groups : List (γ × List β)) (row : α) : List (γ × List β) :=
  match groups.getLast? with
  | some last =>
      if same last.1 row then groups.dropLast ++ [(last.1, last.2 ++ [item row])]
      else groups ++ [(start row, [item row])]
  | none => [(start row, [item row])]

/-- Rows in blocks: those of a block belong to it, and those of a later one do not. -/
structure Blocks (blocks : List (γ × List α)) : Prop where
  own : ∀ block ∈ blocks, ∀ row ∈ block.2, start row = block.1 ∧ same block.1 row = true
  other : blocks.Pairwise fun first second => ∀ row ∈ second.2, same first.1 row = false

variable {start same item}

theorem pushGroup_same {header : γ} {row : α} (belongs : same header row = true)
    (groups : List (γ × List β)) (items : List β) :
    pushGroup start same item (groups ++ [(header, items)]) row =
      groups ++ [(header, items ++ [item row])] := by
  simp [pushGroup, belongs]

theorem pushGroup_new {groups : List (γ × List β)} {row : α}
    (fresh : ∀ last ∈ groups.getLast?, same last.1 row = false) :
    pushGroup start same item groups row = groups ++ [(start row, [item row])] := by
  unfold pushGroup
  split
  · rename_i last found
    rw [fresh last found]
    rfl
  · rename_i empty
    rw [List.getLast?_eq_none_iff.mp empty]
    rfl

/-- The rows of one block, after the first of them. -/
theorem foldl_pushGroup_same {header : γ} {rows : List α}
    (belong : ∀ row ∈ rows, same header row = true) (groups : List (γ × List β))
    (items : List β) :
    rows.foldl (pushGroup start same item) (groups ++ [(header, items)]) =
      groups ++ [(header, items ++ rows.map item)] := by
  induction rows generalizing items with
  | nil => simp
  | cons row rows ih =>
    rw [List.foldl_cons, pushGroup_same (belong row List.mem_cons_self),
      ih fun other member => belong other (List.mem_cons_of_mem _ member), List.map_cons,
      List.append_assoc, List.singleton_append]

theorem foldl_pushGroup_new {groups : List (γ × List β)} {block : γ × List α}
    (own : ∀ row ∈ block.2, start row = block.1 ∧ same block.1 row = true)
    (fresh : ∀ last ∈ groups.getLast?, ∀ row ∈ block.2, same last.1 row = false)
    (filled : block.2 ≠ []) :
    block.2.foldl (pushGroup start same item) groups =
      groups ++ [(block.1, block.2.map item)] := by
  obtain ⟨header, rows⟩ := block
  cases rows with
  | nil => exact absurd rfl filled
  | cons first rest =>
    have named := (own first List.mem_cons_self).1
    dsimp only at named ⊢
    rw [List.foldl_cons, pushGroup_new fun last member => fresh last member first
        List.mem_cons_self, named,
      foldl_pushGroup_same fun row member => (own row (List.mem_cons_of_mem _ member)).2]
    rfl

/-- The loop finds the blocks again; an empty one leaves no group. -/
theorem foldl_pushGroup (item : α → β) {blocks : List (γ × List α)}
    (sorted : Blocks start same blocks) :
    (blocks.flatMap Prod.snd).foldl (pushGroup start same item) [] =
      (blocks.filter fun block => !block.2.isEmpty).map fun block =>
        (block.1, block.2.map item) := by
  have general : ∀ groups : List (γ × List β),
      (∀ last ∈ groups.getLast?, ∀ block ∈ blocks, ∀ row ∈ block.2, same last.1 row = false) →
      (blocks.flatMap Prod.snd).foldl (pushGroup start same item) groups =
        groups ++ (blocks.filter fun block => !block.2.isEmpty).map fun block =>
          (block.1, block.2.map item) := by
    induction blocks with
    | nil => simp
    | cons block blocks ih =>
      intro groups fresh
      have later := (List.pairwise_cons.mp sorted.other).1
      have tail : Blocks start same blocks :=
        ⟨fun other member => sorted.own other (List.mem_cons_of_mem _ member),
          (List.pairwise_cons.mp sorted.other).2⟩
      rw [List.flatMap_cons, List.foldl_append]
      by_cases empty : block.2 = []
      · rw [empty, List.foldl_nil, List.filter_cons_of_neg (by simp [empty])]
        exact ih tail groups fun last member other inBlocks =>
          fresh last member other (List.mem_cons_of_mem _ inBlocks)
      · have kept : ((block :: blocks).filter fun block => !block.2.isEmpty) =
            block :: blocks.filter fun block => !block.2.isEmpty := by simp [empty]
        rw [foldl_pushGroup_new (sorted.own block List.mem_cons_self)
          (fun last member => fresh last member block List.mem_cons_self) empty, kept, ih tail,
          List.append_assoc, List.map_cons, List.singleton_append]
        intro last member other inBlocks
        rw [List.getLast?_concat, Option.mem_some_iff] at member
        rw [← member]
        exact later other inBlocks
  have whole := general [] fun last member => (nomatch member)
  rwa [List.nil_append] at whole

end Library
