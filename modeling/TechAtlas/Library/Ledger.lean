import Mathlib.Tactic
import TechAtlas.Library.Transition

set_option autoImplicit false

/- A log that a system keeps of itself. Each step appends entries, and whatever it
changes in the view that the log accounts for is named by one of them. -/
namespace Library

universe u v w x y z

structure Ledger (σ : Type u) (ε : Type v) (κ : Type w) (β : Type x) (δ : Type y) where
  log : σ → List ε
  label : ε → δ
  view : σ → κ → β
  names : σ → ε → κ → Prop

variable {σ : Type u} {ε : Type v} {κ : Type w} {β : Type x} {δ : Type y} {α : Type z}
  {ledger : Ledger σ ε κ β δ} {s mid next : σ}

/-- The entries that lead from one state to the next, with their labels. -/
structure Ledger.Accounts (ledger : Ledger σ ε κ β δ) (labels : List δ) (entries : List ε)
    (s next : σ) : Prop where
  log : ledger.log next = ledger.log s ++ entries
  labels : entries.map ledger.label = labels
  named : ∀ key, ledger.view next key ≠ ledger.view s key →
    ∃ entry ∈ entries, ledger.names next entry key
  kept : ∀ entry key, ledger.names s entry key → ledger.names next entry key

theorem Ledger.Accounts.refl (s : σ) : ledger.Accounts [] [] s s where
  log := (List.append_nil _).symm
  labels := rfl
  named := fun _ changed => absurd rfl changed
  kept := fun _ _ names => names

theorem Ledger.Accounts.trans {labels more : List δ} {entries added : List ε}
    (first : ledger.Accounts labels entries s mid) (second : ledger.Accounts more added mid next) :
    ledger.Accounts (labels ++ more) (entries ++ added) s next where
  log := by rw [second.log, first.log, List.append_assoc]
  labels := by rw [List.map_append, first.labels, second.labels]
  named := by
    intro key changed
    by_cases later : ledger.view next key = ledger.view mid key
    · rw [later] at changed
      obtain ⟨entry, member, names⟩ := first.named key changed
      exact ⟨entry, List.mem_append_left _ member, second.kept entry key names⟩
    · obtain ⟨entry, member, names⟩ := second.named key later
      exact ⟨entry, List.mem_append_right _ member, names⟩
  kept := fun entry key names => second.kept entry key (first.kept entry key names)

/-- The labels that a run owes, each step in the state it is taken from. -/
def owed (step : σ → α → σ) (labels : σ → α → List δ) : σ → List α → List δ
  | _, [] => []
  | s, a :: rest => labels s a ++ owed step labels (step s a) rest

/-- What accounts for every step accounts for every run. -/
theorem Ledger.run_accounts {step : σ → α → σ} {labels : σ → α → List δ}
    (accounts : ∀ s a, ∃ entries, ledger.Accounts (labels s a) entries s (step s a)) (s : σ)
    (actions : List α) :
    ∃ entries, ledger.Accounts (owed step labels s actions) entries s (run step s actions) := by
  induction actions generalizing s with
  | nil => exact ⟨[], Accounts.refl s⟩
  | cons a rest ih =>
    obtain ⟨entries, first⟩ := accounts s a
    obtain ⟨added, later⟩ := ih (step s a)
    exact ⟨entries ++ added, first.trans later⟩

end Library
