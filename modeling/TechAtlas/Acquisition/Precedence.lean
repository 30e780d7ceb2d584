import TechAtlas.Acquisition.Robots

set_option autoImplicit false

/- The decision of a robots.txt policy: among the rules that match, the most
specific ones count, and one of them that allows is enough. -/
namespace TechAtlas.Acquisition

open Library

section Winner

variable {path : Text}

def RobotsRule.matchesPath (rule : RobotsRule) (path : Text) : Bool :=
  robotsPatternMatches rule.pattern path

/-- A rule that matches and that no matching rule is more specific than. -/
structure MostSpecific (rules : List RobotsRule) (path : Text) (rule : RobotsRule) : Prop where
  member : rule ∈ rules
  matched : rule.matchesPath path = true
  most : ∀ other ∈ rules, other.matchesPath path = true → other.specificity ≤ rule.specificity

/-- What the winner so far tells of the rules that were read. -/
def Decides (rules : List RobotsRule) (path : Text) : Option (Nat × Bool) → Prop
  | none => ∀ rule ∈ rules, rule.matchesPath path = false
  | some (specificity, allow) =>
      (∃ rule, MostSpecific rules path rule ∧ rule.specificity = specificity) ∧
        (allow = true ↔ ∃ rule, MostSpecific rules path rule ∧ rule.allow = true)

def nextWinner (path : Text) (winner : Option (Nat × Bool)) (rule : RobotsRule) :
    Option (Nat × Bool) :=
  if rule.matchesPath path && rule.beats winner then some (rule.specificity, rule.allow)
  else winner

theorem MostSpecific.eq_specificity {rules : List RobotsRule} {left right : RobotsRule}
    (own : MostSpecific rules path left) (other : MostSpecific rules path right) :
    left.specificity = right.specificity :=
  Nat.le_antisymm (other.most left own.member own.matched) (own.most right other.member other.matched)

/-- A rule that does not match leaves the most specific ones as they are. -/
theorem mostSpecific_skip {rules : List RobotsRule} {last rule : RobotsRule}
    (unmatched : last.matchesPath path = false) :
    MostSpecific (rules ++ [last]) path rule ↔ MostSpecific rules path rule := by
  constructor
  · intro own
    refine ⟨?_, own.matched, fun other member => own.most other (List.mem_append_left _ member)⟩
    rcases List.mem_append.mp own.member with old | new
    · exact old
    · have matched := own.matched
      rw [List.mem_singleton.mp new, unmatched] at matched
      cases matched
  · intro own
    refine ⟨List.mem_append_left _ own.member, own.matched, ?_⟩
    intro other member matched
    rcases List.mem_append.mp member with old | new
    · exact own.most other old matched
    · rw [List.mem_singleton.mp new, unmatched] at matched
      cases matched

/-- A matching rule that is more specific than all before it is the only most
specific one. -/
theorem mostSpecific_last (rules : List RobotsRule) {last : RobotsRule}
    (matched : last.matchesPath path = true)
    (above : ∀ rule ∈ rules, rule.matchesPath path = true → rule.specificity < last.specificity)
    (rule : RobotsRule) : MostSpecific (rules ++ [last]) path rule ↔ rule = last := by
  constructor
  · intro own
    rcases List.mem_append.mp own.member with old | new
    · have below := above rule old own.matched
      have most := own.most last (List.mem_append_right _ (List.mem_singleton_self last)) matched
      omega
    · exact List.mem_singleton.mp new
  · rintro rfl
    refine ⟨List.mem_append_right _ (List.mem_singleton_self rule), matched, ?_⟩
    intro other member otherMatched
    rcases List.mem_append.mp member with old | new
    · exact Nat.le_of_lt (above other old otherMatched)
    · rw [List.mem_singleton.mp new]

/-- One as specific as the most specific before it joins them. -/
theorem mostSpecific_join {rules : List RobotsRule} {best last rule : RobotsRule}
    (own : MostSpecific rules path best) (matched : last.matchesPath path = true)
    (same : last.specificity = best.specificity) :
    MostSpecific (rules ++ [last]) path rule ↔ MostSpecific rules path rule ∨ rule = last := by
  constructor
  · intro member
    rcases List.mem_append.mp member.member with old | new
    · exact Or.inl ⟨old, member.matched,
        fun other inRules => member.most other (List.mem_append_left _ inRules)⟩
    · exact Or.inr (List.mem_singleton.mp new)
  · rintro (member | rfl)
    · refine ⟨List.mem_append_left _ member.member, member.matched, ?_⟩
      intro other inAll otherMatched
      rcases List.mem_append.mp inAll with old | new
      · exact member.most other old otherMatched
      · rw [List.mem_singleton.mp new, same, own.eq_specificity member]
    · refine ⟨List.mem_append_right _ (List.mem_singleton_self rule), matched, ?_⟩
      intro other inAll otherMatched
      rcases List.mem_append.mp inAll with old | new
      · rw [same]
        exact own.most other old otherMatched
      · rw [List.mem_singleton.mp new]

/-- One that is less specific changes nothing. -/
theorem mostSpecific_below {rules : List RobotsRule} {best last rule : RobotsRule}
    (own : MostSpecific rules path best) (less : last.specificity < best.specificity) :
    MostSpecific (rules ++ [last]) path rule ↔ MostSpecific rules path rule := by
  constructor
  · intro member
    have most := member.most best (List.mem_append_left _ own.member) own.matched
    refine ⟨?_, member.matched, fun other inRules => member.most other (List.mem_append_left _ inRules)⟩
    rcases List.mem_append.mp member.member with old | new
    · exact old
    · rw [List.mem_singleton.mp new] at most
      omega
  · intro member
    refine ⟨List.mem_append_left _ member.member, member.matched, ?_⟩
    intro other inAll otherMatched
    rcases List.mem_append.mp inAll with old | new
    · exact member.most other old otherMatched
    · rw [List.mem_singleton.mp new]
      have same := own.eq_specificity member
      omega

theorem Decides.next {rules : List RobotsRule} {winner : Option (Nat × Bool)}
    (decides : Decides rules path winner) (last : RobotsRule) :
    Decides (rules ++ [last]) path (nextWinner path winner last) := by
  unfold nextWinner
  cases matched : last.matchesPath path with
  | false =>
      rw [Bool.false_and, if_neg Bool.false_ne_true]
      cases winner with
      | none =>
          intro rule member
          rcases List.mem_append.mp member with old | new
          · exact decides rule old
          · rw [List.mem_singleton.mp new]
            exact matched
      | some best => simpa only [Decides, mostSpecific_skip matched] using decides
  | true =>
      rw [Bool.true_and]
      cases winner with
      | none =>
          have only := mostSpecific_last rules matched fun rule member own => by
            rw [decides rule member] at own
            cases own
          rw [RobotsRule.beats, if_pos rfl]
          simp only [Decides, only, exists_eq_left, true_and]
      | some best =>
          obtain ⟨specificity, allow⟩ := best
          obtain ⟨⟨rule, own, rfl⟩, allows⟩ := decides
          rcases Nat.lt_trichotomy rule.specificity last.specificity with more | same | less
          · have beats : last.beats (some (rule.specificity, allow)) = true := by
              simp [RobotsRule.beats, more]
            have only := mostSpecific_last rules matched fun other member otherMatched =>
              lt_of_le_of_lt (own.most other member otherMatched) more
            rw [beats, if_pos rfl]
            simp only [Decides, only, exists_eq_left, true_and]
          · have joined : ∀ {other}, MostSpecific (rules ++ [last]) path other ↔
                MostSpecific rules path other ∨ other = last :=
              mostSpecific_join own matched same.symm
            have exists' : (∃ other, MostSpecific (rules ++ [last]) path other ∧
                other.allow = true) ↔ allow = true ∨ last.allow = true := by
              rw [allows]
              constructor
              · rintro ⟨other, member, permits⟩
                rcases joined.mp member with old | rfl
                · exact Or.inl ⟨other, old, permits⟩
                · exact Or.inr permits
              · rintro (⟨other, old, permits⟩ | permits)
                · exact ⟨other, joined.mpr (Or.inl old), permits⟩
                · exact ⟨last, joined.mpr (Or.inr rfl), permits⟩
            have beats : last.beats (some (rule.specificity, allow)) = (last.allow && !allow) := by
              simp [RobotsRule.beats, same]
            rw [beats]
            by_cases replaces : (last.allow && !allow) = true
            · rw [if_pos replaces]
              simp only [Bool.and_eq_true, Bool.not_eq_true'] at replaces
              refine ⟨⟨last, joined.mpr (Or.inr rfl), rfl⟩, ?_⟩
              rw [exists', replaces.1]
              simp
            · rw [if_neg replaces]
              refine ⟨⟨rule, joined.mpr (Or.inl own), rfl⟩, ?_⟩
              rw [exists']
              revert replaces
              cases last.allow <;> cases allow <;> decide
          · have beats : last.beats (some (rule.specificity, allow)) = false := by
              have notEqual : rule.specificity ≠ last.specificity := by omega
              have notMore : ¬ rule.specificity < last.specificity := by omega
              simp only [RobotsRule.beats, decide_eq_false notMore, Bool.false_or,
                beq_eq_false_iff_ne.mpr (Ne.symm notEqual), Bool.false_and]
            rw [beats, if_neg Bool.false_ne_true]
            simp only [Decides, mostSpecific_below own less]
            exact ⟨⟨rule, own, rfl⟩, allows⟩

theorem winner_decides (policy : RobotsPolicy) (path : Text) :
    Decides policy.rules path (policy.winner path) := by
  obtain ⟨rules⟩ := policy
  change Decides rules path (rules.foldl (nextWinner path) none)
  induction rules using List.reverseRecOn with
  | nil =>
      intro rule member
      cases member
  | append_singleton rules last ih =>
      rw [List.foldl_append]
      exact ih.next last

end Winner

section Decision

/-- No rule matches, or one of the most specific matching rules allows. -/
theorem winner_permits_iff (policy : RobotsPolicy) (path : Text) :
    ((policy.winner path).all Prod.snd) = true ↔
      (∀ rule ∈ policy.rules, rule.matchesPath path = false) ∨
        ∃ rule, MostSpecific policy.rules path rule ∧ rule.allow = true := by
  have decides := winner_decides policy path
  cases found : policy.winner path with
  | none =>
      rw [found] at decides
      exact iff_of_true rfl (Or.inl decides)
  | some best =>
      rw [found] at decides
      obtain ⟨specificity, allow⟩ := best
      obtain ⟨⟨rule, own, _⟩, allows⟩ := decides
      change allow = true ↔ _
      rw [allows]
      constructor
      · exact Or.inr
      · rintro (unmatched | permits)
        · have matched := own.matched
          rw [unmatched rule own.member] at matched
          cases matched
        · exact permits

theorem RobotsPolicy.allows_eq (policy : RobotsPolicy) (target : CrawlUrl) :
    policy.allows target = (policy.winner (robotsPath target)).all Prod.snd := by
  unfold RobotsPolicy.allows
  cases policy.winner (robotsPath target) <;> rfl

theorem mostSpecific_congr {left right : List RobotsRule} {path : Text} {rule : RobotsRule}
    (same : ∀ rule, rule ∈ left ↔ rule ∈ right) :
    MostSpecific left path rule ↔ MostSpecific right path rule :=
  ⟨fun own => ⟨(same rule).mp own.member, own.matched,
      fun other member => own.most other ((same other).mpr member)⟩,
    fun own => ⟨(same rule).mpr own.member, own.matched,
      fun other member => own.most other ((same other).mp member)⟩⟩

/-- One more rule that allows: it is as specific as the others, and permits, or it
leaves a most specific rule that permitted before. -/
theorem permits_of_cons {rules : List RobotsRule} {path : Text} {rule : RobotsRule}
    (allow : rule.allow = true)
    (permitted : (∀ other ∈ rules, other.matchesPath path = false) ∨
      ∃ other, MostSpecific rules path other ∧ other.allow = true) :
    (∀ other ∈ rule :: rules, other.matchesPath path = false) ∨
      ∃ other, MostSpecific (rule :: rules) path other ∧ other.allow = true := by
  by_cases matched : rule.matchesPath path = true
  · rcases permitted with unmatched | ⟨best, own, permits⟩
    · refine Or.inr ⟨rule, ⟨List.mem_cons_self, matched, ?_⟩, allow⟩
      intro other member otherMatched
      rcases List.mem_cons.mp member with rfl | inRules
      · exact le_refl _
      · rw [unmatched other inRules] at otherMatched
        cases otherMatched
    · by_cases below : rule.specificity ≤ best.specificity
      · refine Or.inr ⟨best, ⟨List.mem_cons_of_mem _ own.member, own.matched, ?_⟩, permits⟩
        intro other member otherMatched
        rcases List.mem_cons.mp member with rfl | inRules
        · exact below
        · exact own.most other inRules otherMatched
      · refine Or.inr ⟨rule, ⟨List.mem_cons_self, matched, ?_⟩, allow⟩
        intro other member otherMatched
        rcases List.mem_cons.mp member with rfl | inRules
        · exact le_refl _
        · have most := own.most other inRules otherMatched
          omega
  · have unmatchedRule := Bool.eq_false_of_not_eq_true matched
    rcases permitted with unmatched | ⟨best, own, permits⟩
    · refine Or.inl ?_
      intro other member
      rcases List.mem_cons.mp member with rfl | inRules
      · exact unmatchedRule
      · exact unmatched other inRules
    · refine Or.inr ⟨best, ⟨List.mem_cons_of_mem _ own.member, own.matched, ?_⟩, permits⟩
      intro other member otherMatched
      rcases List.mem_cons.mp member with rfl | inRules
      · exact absurd otherMatched matched
      · exact own.most other inRules otherMatched

/-- The decision depends on the rules as a set, and an allowing rule, wherever it
is added, never takes an allowed target away. -/
theorem RobotsPolicy.allows_decision (policy : RobotsPolicy) (target : CrawlUrl) :
    (policy.allows target = true ↔
      (∀ rule ∈ policy.rules, rule.matchesPath (robotsPath target) = false) ∨
        ∃ rule, MostSpecific policy.rules (robotsPath target) rule ∧ rule.allow = true) ∧
    (∀ rules : List RobotsRule, rules.Perm policy.rules →
      RobotsPolicy.allows ⟨rules⟩ target = policy.allows target) ∧
    ∀ (before after : List RobotsRule) (rule : RobotsRule), policy.rules = before ++ after →
      rule.allow = true → policy.allows target = true →
        RobotsPolicy.allows ⟨before ++ rule :: after⟩ target = true := by
  have decision : ∀ policy : RobotsPolicy, policy.allows target = true ↔
      (∀ rule ∈ policy.rules, rule.matchesPath (robotsPath target) = false) ∨
        ∃ rule, MostSpecific policy.rules (robotsPath target) rule ∧ rule.allow = true := by
    intro policy
    rw [RobotsPolicy.allows_eq]
    exact winner_permits_iff policy (robotsPath target)
  have congruent : ∀ left right : List RobotsRule, (∀ rule, rule ∈ left ↔ rule ∈ right) →
      RobotsPolicy.allows ⟨left⟩ target = RobotsPolicy.allows ⟨right⟩ target := by
    intro left right same
    rw [Bool.eq_iff_iff, decision, decision]
    simp only [same, mostSpecific_congr same]
  refine ⟨decision policy, ?_, ?_⟩
  · intro rules permuted
    exact congruent rules policy.rules fun rule => permuted.mem_iff
  · intro before after rule split allow allowed
    have cons := (decision ⟨rule :: policy.rules⟩).mpr
      (permits_of_cons allow ((decision policy).mp allowed))
    rw [← cons]
    apply congruent
    intro other
    rw [split]
    simp only [List.mem_append, List.mem_cons]
    tauto

end Decision

end TechAtlas.Acquisition
