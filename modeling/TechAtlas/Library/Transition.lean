import Mathlib.Tactic

set_option autoImplicit false

/- Deterministic transition systems. Every choice the environment makes is part
of the action, so an interleaving is a list of actions and its outcome a fold. -/
namespace Library

universe u v w

variable {σ : Type u} {α : Type v}

/-- The state after the actions, taken in order. -/
def run (step : σ → α → σ) (s : σ) (actions : List α) : σ := actions.foldl step s

@[simp] theorem run_nil (step : σ → α → σ) (s : σ) : run step s [] = s := rfl

@[simp] theorem run_cons (step : σ → α → σ) (s : σ) (a : α) (rest : List α) :
    run step s (a :: rest) = run step (step s a) rest := rfl

theorem run_append (step : σ → α → σ) (s : σ) (first second : List α) :
    run step s (first ++ second) = run step (run step s first) second :=
  List.foldl_append

/-- What one step preserves, every run preserves. -/
theorem run_invariant {step : σ → α → σ} {P : σ → Prop}
    (preserved : ∀ s a, P s → P (step s a)) (s : σ) (actions : List α) (start : P s) :
    P (run step s actions) := by
  induction actions generalizing s with
  | nil => exact start
  | cons a rest ih => exact ih (step s a) (preserved s a start)

/-- Every action of the run meets the condition in the state it is taken from. -/
def Guarded (step : σ → α → σ) (ok : σ → α → Prop) : σ → List α → Prop
  | _, [] => True
  | s, a :: rest => ok s a ∧ Guarded step ok (step s a) rest

instance instDecidableGuarded (step : σ → α → σ) (ok : σ → α → Prop)
    [∀ s a, Decidable (ok s a)] :
    (s : σ) → (actions : List α) → Decidable (Guarded step ok s actions)
  | _, [] => isTrue trivial
  | s, a :: rest =>
      have := instDecidableGuarded step ok (step s a) rest
      inferInstanceAs (Decidable (ok s a ∧ Guarded step ok (step s a) rest))

/-- The guarded form of `run_invariant`. -/
theorem run_invariant_of_guarded {step : σ → α → σ} {ok : σ → α → Prop} {P : σ → Prop}
    (preserved : ∀ s a, ok s a → P s → P (step s a)) (s : σ) (actions : List α)
    (guarded : Guarded step ok s actions) (start : P s) : P (run step s actions) := by
  induction actions generalizing s with
  | nil => exact start
  | cons a rest ih => exact ih (step s a) guarded.2 (preserved s a guarded.1 start)

theorem Guarded.and {step : σ → α → σ} {ok also : σ → α → Prop} {s : σ} {actions : List α}
    (first : Guarded step ok s actions) (second : Guarded step also s actions) :
    Guarded step (fun s a => ok s a ∧ also s a) s actions := by
  induction actions generalizing s with
  | nil => trivial
  | cons a rest ih => exact ⟨⟨first.1, second.1⟩, ih first.2 second.2⟩

/-- A guard may be replaced by one that it implies in the states of the run. -/
theorem Guarded.imp {step : σ → α → σ} {ok also : σ → α → Prop} {P : σ → Prop}
    (preserved : ∀ s a, P s → P (step s a)) (implies : ∀ s a, P s → ok s a → also s a)
    {s : σ} {actions : List α} (guarded : Guarded step ok s actions) (start : P s) :
    Guarded step also s actions := by
  induction actions generalizing s with
  | nil => trivial
  | cons a rest ih =>
      exact ⟨implies s a start guarded.1, ih guarded.2 (preserved s a start)⟩

/-- A condition on the actions alone is a guard of every run made of such actions. -/
theorem guarded_of_forall (step : σ → α → σ) {ok : α → Prop} (s : σ) (actions : List α)
    (all : ∀ a ∈ actions, ok a) : Guarded step (fun _ a => ok a) s actions := by
  induction actions generalizing s with
  | nil => trivial
  | cons a rest ih =>
      exact ⟨all a List.mem_cons_self,
        ih (step s a) (fun b member => all b (List.mem_cons_of_mem a member))⟩

theorem guarded_append {step : σ → α → σ} {ok : σ → α → Prop} {s : σ} {first second : List α} :
    Guarded step ok s (first ++ second) ↔
      Guarded step ok s first ∧ Guarded step ok (run step s first) second := by
  induction first generalizing s with
  | nil => simp [Guarded]
  | cons a rest ih => simp [Guarded, ih, and_assoc]

/-- Progress: where the goal is not reached, some guarded run makes the measure
smaller, so that in the end the goal is reached. -/
theorem exists_run_of_measure {step : σ → α → σ} {ok : σ → α → Prop} {P Goal : σ → Prop}
    (measure : σ → Nat)
    (progress : ∀ s, P s → ¬ Goal s → ∃ actions, Guarded step ok s actions ∧
      P (run step s actions) ∧ measure (run step s actions) < measure s)
    (s : σ) (start : P s) :
    ∃ actions, Guarded step ok s actions ∧ P (run step s actions) ∧ Goal (run step s actions) := by
  induction left : measure s using Nat.strongRecOn generalizing s with
  | ind n ih =>
    by_cases reached : Goal s
    · exact ⟨[], trivial, start, reached⟩
    · obtain ⟨first, guarded, kept, smaller⟩ := progress s start reached
      obtain ⟨second, laterGuarded, laterKept, goal⟩ :=
        ih _ (by omega) (run step s first) kept rfl
      refine ⟨first ++ second, guarded_append.mpr ⟨guarded, laterGuarded⟩, ?_, ?_⟩
      · rw [run_append]
        exact laterKept
      · rw [run_append]
        exact goal

section Bind

/-- Renaming the error of a computation does not change when it succeeds. -/
theorem mapError_eq_ok {ε ε' : Type u} {β : Type v} {rename : ε → ε'} {result : Except ε β}
    {value : β} : result.mapError rename = .ok value ↔ result = .ok value := by
  cases result <;> simp [Except.mapError]

theorem mapError_eq_error {ε ε' : Type u} {β : Type v} {rename : ε → ε'} {result : Except ε β}
    {reason : ε'} : result.mapError rename = .error reason ↔
      ∃ own, result = .error own ∧ rename own = reason := by
  cases result <;> simp [Except.mapError]

theorem toOption_eq_some {ε : Type u} {β : Type v} {result : Except ε β} {value : β} :
    result.toOption = some value ↔ result = .ok value := by
  cases result <;> simp [Except.toOption]

theorem map_eq_ok {ε : Type u} {β γ : Type v} {f : β → γ} {result : Except ε β} {value : γ} :
    result.map f = .ok value ↔ ∃ b, result = .ok b ∧ f b = value := by
  cases result <;> simp [Except.map]

variable {ε : Type u} {β γ : Type v}

/-- A sequence succeeds exactly when its first part does and the rest does on
its value. -/
theorem bind_eq_ok {first : Except ε β} {next : β → Except ε γ} {value : γ} :
    first >>= next = .ok value ↔ ∃ b, first = .ok b ∧ next b = .ok value := by
  cases first with
  | ok b =>
      constructor
      · intro success
        exact ⟨b, rfl, success⟩
      · rintro ⟨b', same, success⟩
        cases same
        exact success
  | error reason =>
      constructor
      · intro success
        cases success
      · rintro ⟨b', same, _⟩
        cases same

theorem exists_bind_ok {first : Except ε β} {next : β → Except ε γ} {b : β}
    (success : first = .ok b) (rest : ∃ value, next b = .ok value) :
    ∃ value, first >>= next = .ok value := by
  rw [success]
  exact rest

/-- The value of an optional lookup, or the given error. -/
def orError (lookup : Option β) (reason : ε) : Except ε β :=
  match lookup with
  | some value => .ok value
  | none => .error reason

theorem orError_eq_ok {lookup : Option β} {reason : ε} {value : β} :
    orError lookup reason = .ok value ↔ lookup = some value := by
  cases lookup <;> simp [orError]

theorem bind_eq_error {first : Except ε β} {next : β → Except ε γ} {reason : ε} :
    first >>= next = .error reason ↔
      first = .error reason ∨ ∃ b, first = .ok b ∧ next b = .error reason := by
  cases first with
  | ok b =>
      constructor
      · intro failure
        exact Or.inr ⟨b, rfl, failure⟩
      · rintro (same | ⟨b', same, failure⟩)
        · cases same
        · cases same
          exact failure
  | error other =>
      constructor
      · intro failure
        cases failure
        exact Or.inl rfl
      · rintro (same | ⟨b', same, _⟩)
        · cases same
          rfl
        · cases same

theorem reason_of_orError {lookup : Option β} {reason other : ε}
    (failure : orError lookup reason = .error other) : other = reason := by
  cases lookup with
  | none => exact (Except.error.inj failure).symm
  | some value => cases failure

/-- Continue only when the condition holds. -/
def require (condition : Bool) (reason : ε) : Except ε Unit :=
  if condition then .ok () else .error reason

theorem require_eq_ok {condition : Bool} {reason : ε} {value : Unit} :
    require condition reason = .ok value ↔ condition = true := by
  cases condition <;> simp [require]

/-- A fold that succeeds is followed by one whose steps keep it related. -/
theorem foldlM_related {α : Type u} {f g : β → α → Except ε β} {R : β → β → Prop}
    {items : List α}
    (step : ∀ item ∈ items, ∀ before before' after, R before before' → f before item = .ok after →
      ∃ after', g before' item = .ok after' ∧ R after after')
    {before before' after : β} (related : R before before')
    (success : items.foldlM f before = .ok after) :
    ∃ after', items.foldlM g before' = .ok after' ∧ R after after' := by
  induction items generalizing before before' with
  | nil =>
      cases success
      exact ⟨before', rfl, related⟩
  | cons item rest ih =>
      rw [List.foldlM_cons, bind_eq_ok] at success
      obtain ⟨mid, first, later⟩ := success
      obtain ⟨mid', first', relatedMid⟩ := step item List.mem_cons_self _ _ _ related first
      rw [List.foldlM_cons, first']
      exact ih (fun other member => step other (List.mem_cons_of_mem item member)) relatedMid later

/-- A fold succeeds where every step does, from the states its steps lead to. -/
theorem foldlM_ok_of_forall {α : Type u} {f : β → α → Except ε β} {P : β → Prop} {items : List α}
    (step : ∀ item ∈ items, ∀ before, P before → ∃ after, f before item = .ok after ∧ P after)
    {before : β} (start : P before) : ∃ after, items.foldlM f before = .ok after ∧ P after := by
  induction items generalizing before with
  | nil => exact ⟨before, rfl, start⟩
  | cons item rest ih =>
      obtain ⟨mid, first, kept⟩ := step item List.mem_cons_self before start
      rw [List.foldlM_cons, first]
      exact ih (fun other member => step other (List.mem_cons_of_mem item member)) kept

/-- A fold that succeeds has taken a step for every item. -/
theorem ok_of_mem_of_foldlM {α : Type u} {f : β → α → Except ε β} {items : List α}
    {before after : β} (success : items.foldlM f before = .ok after) {item : α}
    (member : item ∈ items) : ∃ old new, f old item = .ok new := by
  induction items generalizing before with
  | nil => cases member
  | cons first rest ih =>
      rw [List.foldlM_cons, bind_eq_ok] at success
      obtain ⟨mid, own, later⟩ := success
      rcases List.mem_cons.mp member with rfl | inRest
      · exact ⟨before, mid, own⟩
      · exact ih later inRest

/-- What every step of a fold preserves, the fold preserves. -/
theorem foldlM_invariant {α : Type u} {f : β → α → Except ε β} {P : β → Prop}
    (preserved : ∀ before item after, f before item = .ok after → P before → P after)
    {items : List α} {before after : β} (success : items.foldlM f before = .ok after)
    (start : P before) : P after := by
  induction items generalizing before with
  | nil =>
      cases success
      exact start
  | cons item rest ih =>
      rw [List.foldlM_cons, bind_eq_ok] at success
      obtain ⟨mid, first, later⟩ := success
      exact ih later (preserved before item mid first start)

/-- A function that succeeds on every item has a result for each. -/
theorem mapM_ok_of_forall {α : Type u} {f : α → Except ε β} {items : List α}
    (succeeds : ∀ item ∈ items, ∃ result, f item = .ok result) :
    ∃ results, items.mapM f = .ok results ∧
      ∀ item ∈ items, ∃ result ∈ results, f item = .ok result := by
  induction items with
  | nil => exact ⟨[], rfl, fun _ member => nomatch member⟩
  | cons item rest ih =>
      obtain ⟨first, own⟩ := succeeds item List.mem_cons_self
      obtain ⟨results, all, found⟩ := ih fun other member =>
        succeeds other (List.mem_cons_of_mem item member)
      refine ⟨first :: results, ?_, ?_⟩
      · rw [List.mapM_cons, own, all]
        rfl
      · intro other member
        rcases List.mem_cons.mp member with rfl | inRest
        · exact ⟨first, List.mem_cons_self, own⟩
        · obtain ⟨result, inResults, same⟩ := found other inRest
          exact ⟨result, List.mem_cons_of_mem first inResults, same⟩

/-- A pass that succeeds has a result for every item. -/
theorem ok_of_mem_of_mapM {α : Type u} {f : α → Except ε β} {items : List α} {results : List β}
    (success : items.mapM f = .ok results) {item : α} (member : item ∈ items) :
    ∃ result ∈ results, f item = .ok result := by
  induction items generalizing results with
  | nil => cases member
  | cons first rest ih =>
      rw [List.mapM_cons] at success
      obtain ⟨own, head, success⟩ := bind_eq_ok.mp success
      obtain ⟨others, tail, same⟩ := bind_eq_ok.mp success
      cases same
      rcases List.mem_cons.mp member with rfl | later
      · exact ⟨own, List.mem_cons_self, head⟩
      · obtain ⟨result, inOthers, found⟩ := ih tail later
        exact ⟨result, List.mem_cons_of_mem own inOthers, found⟩

/-- Every result of a pass over a list comes from one of its elements. -/
theorem mem_of_mapM_eq_ok {α : Type u} {f : α → Except ε β} {items : List α} {results : List β}
    (success : items.mapM f = .ok results) {result : β} (member : result ∈ results) :
    ∃ item ∈ items, f item = .ok result := by
  induction items generalizing results with
  | nil =>
      cases success
      cases member
  | cons item rest ih =>
      rw [List.mapM_cons, bind_eq_ok] at success
      obtain ⟨first, head, success⟩ := success
      rw [bind_eq_ok] at success
      obtain ⟨others, tail, same⟩ := success
      cases same
      rcases List.mem_cons.mp member with rfl | later
      · exact ⟨item, List.mem_cons_self, head⟩
      · obtain ⟨source, inRest, found⟩ := ih tail later
        exact ⟨source, List.mem_cons_of_mem item inRest, found⟩

/-- A pass whose results agree with their items agrees as a whole. -/
theorem map_of_mapM_eq_ok {α : Type u} {δ : Type w} {f : α → Except ε β} {ofItem : α → δ}
    {ofResult : β → δ} {items : List α} {results : List β}
    (agree : ∀ item result, f item = .ok result → ofItem item = ofResult result)
    (success : items.mapM f = .ok results) : items.map ofItem = results.map ofResult := by
  induction items generalizing results with
  | nil =>
      cases success
      rfl
  | cons item rest ih =>
      rw [List.mapM_cons] at success
      obtain ⟨first, head, success⟩ := bind_eq_ok.mp success
      obtain ⟨others, tail, same⟩ := bind_eq_ok.mp success
      cases same
      rw [List.map_cons, List.map_cons, agree item first head, ih tail]

theorem mapM_congr {α : Type u} {f g : α → Except ε β} {items : List α}
    (same : ∀ item ∈ items, f item = g item) : items.mapM f = items.mapM g := by
  induction items with
  | nil => rfl
  | cons item rest ih =>
      rw [List.mapM_cons, List.mapM_cons, same item List.mem_cons_self,
        ih fun item member => same item (List.mem_cons_of_mem _ member)]

end Bind

end Library
