import TechAtlas.Library.Text

set_option autoImplicit false

/- Detections and rule observations: what evaluating the published rules
against one snapshot returns. -/
namespace TechAtlas

open Library

/-- `valid_slug` on text that has been trimmed: at most 64 bytes of lowercase
letters, digits and inner hyphens. -/
def isSlug (text : Text) : Bool :=
  !text.isEmpty && decide (utf8Length text ≤ 64) && (text.head? != some '-') &&
    (text.getLast? != some '-') && text.all fun c => c.isLower || c.isDigit || c == '-'

/-- The three slug types of the catalogue hold text that passed `valid_slug`. -/
abbrev Slug := { text : Text // isSlug text = true }

abbrev TechnologySlug := Slug
abbrev TechnologyCategorySlug := Slug
abbrev RuleSlug := Slug

def Slug.parse (value : Text) : Option Slug :=
  if valid : isSlug (trim value) = true then some ⟨trim value, valid⟩ else none

theorem not_isWhitespace_of_slugChar {c : Char}
    (allowed : (c.isLower || c.isDigit || c == '-') = true) : isWhitespace c = false := by
  have bounds : c.toNat = 45 ∨ (48 ≤ c.toNat ∧ c.toNat ≤ 57) ∨ (97 ≤ c.toNat ∧ c.toNat ≤ 122) := by
    simp only [Bool.or_eq_true, beq_iff_eq] at allowed
    rcases allowed with (lower | digit) | hyphen
    · exact Or.inr (Or.inr (isLower_iff.mp lower))
    · exact Or.inr (Or.inl (Char.isDigit_iff_toNat.mp digit))
    · exact Or.inl (by rw [hyphen]; rfl)
  unfold isWhitespace
  simp only [Bool.or_eq_false_iff, Bool.and_eq_false_imp, decide_eq_true_eq, decide_eq_false_iff_not,
    beq_eq_false_iff_ne]
  omega

theorem trim_of_isSlug {text : Text} (valid : isSlug text = true) : trim text = text := by
  have characters : ∀ c ∈ text, isWhitespace c = false := by
    intro c member
    have all := (Bool.and_eq_true _ _ ▸ valid : _ ∧ _).2
    exact not_isWhitespace_of_slugChar (List.all_eq_true.mp all c member)
  exact trim_eq_self characters

/-- A slug read back from the store is the slug that was written. -/
theorem Slug.parse_text (slug : Slug) : Slug.parse slug.1 = some slug := by
  have same := trim_of_isSlug slug.2
  unfold Slug.parse
  rw [dif_pos (by rw [same]; exact slug.2)]
  exact congrArg some (Subtype.ext same)

/-- A positive `u16`. -/
abbrev RuleVersion := { version : Nat // 0 < version ∧ version < 2 ^ 16 }

def RuleVersion.new (value : Nat) : Option RuleVersion :=
  if valid : 0 < value ∧ value < 2 ^ 16 then some ⟨value, valid⟩ else none

abbrev DetectionConfidence := { percent : Nat // percent ≤ 100 }

def DetectionConfidence.new (value : Nat) : Option DetectionConfidence :=
  if valid : value ≤ 100 then some ⟨value, valid⟩ else none

inductive DetectionEvidenceSource
  | html
  | header
  | script
  | dns
  | tls
  deriving DecidableEq, Repr

/-- The declaration order, which is the order the evidence is sorted by. -/
def DetectionEvidenceSource.rank : DetectionEvidenceSource → Nat
  | .html => 0
  | .header => 1
  | .script => 2
  | .dns => 3
  | .tls => 4

structure DetectionEvidence where
  source : DetectionEvidenceSource
  key : Text
  value : Text
  deriving DecidableEq, Repr

def boundedRequired (value : Text) (limit : Nat) : Option Text :=
  if trim value ≠ [] ∧ (trim value).length ≤ limit then some (trim value) else none

inductive DetectionError
  | invalidTechnologySlug
  | invalidTechnologyCategorySlug
  | invalidRuleSlug
  | invalidRuleVersion
  | invalidConfidence
  | invalidEvidenceKey
  | invalidEvidenceValue
  | missingEvidence
  deriving DecidableEq, Repr

def DetectionEvidence.new (source : DetectionEvidenceSource) (key value : Text) :
    Except DetectionError DetectionEvidence :=
  match boundedRequired key 128 with
  | none => .error .invalidEvidenceKey
  | some key =>
      match boundedRequired value 2048 with
      | none => .error .invalidEvidenceValue
      | some value => .ok { source := source, key := key, value := value }

/-- The derived lexicographic order on source, key and value. -/
def DetectionEvidence.le (left right : DetectionEvidence) : Bool :=
  decide (left.source.rank < right.source.rank) ||
    (left.source == right.source &&
      (decide (left.key < right.key) ||
        (left.key == right.key && decide (left.value ≤ right.value))))

structure Detection where
  technologySlug : TechnologySlug
  technologyCategorySlug : TechnologyCategorySlug
  ruleSlug : RuleSlug
  ruleVersion : RuleVersion
  confidence : DetectionConfidence
  evidence : List DetectionEvidence
  evidence_present : evidence ≠ []

def Detection.new (technologySlug : TechnologySlug)
    (technologyCategorySlug : TechnologyCategorySlug) (ruleSlug : RuleSlug)
    (ruleVersion : RuleVersion) (confidence : DetectionConfidence)
    (evidence : List DetectionEvidence) : Except DetectionError Detection :=
  let sorted := (evidence.insertionSort fun left right => left.le right).destutter (· ≠ ·)
  if missing : sorted = [] then .error .missingEvidence
  else .ok {
    technologySlug := technologySlug
    technologyCategorySlug := technologyCategorySlug
    ruleSlug := ruleSlug
    ruleVersion := ruleVersion
    confidence := confidence
    evidence := sorted
    evidence_present := missing }

inductive RuleObservationStatus
  | detected
  | confirmedAbsent
  | unknown
  deriving DecidableEq, Repr

structure RuleObservation where
  technologySlug : TechnologySlug
  technologyCategorySlug : TechnologyCategorySlug
  ruleSlug : RuleSlug
  ruleVersion : RuleVersion
  status : RuleObservationStatus
  deriving DecidableEq

structure CurrentTechnology where
  technologySlug : TechnologySlug
  technologyCategorySlug : TechnologyCategorySlug
  deriving DecidableEq

end TechAtlas
