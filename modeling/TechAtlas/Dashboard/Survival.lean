import TechAtlas.Dashboard.SearchState

set_option autoImplicit false

/- When a search state is stable and comes back from its address: property by
property, then as a whole. -/
namespace TechAtlas.Dashboard

open Library

section Query

def keptQuery (value : JsValue) : Option Units :=
  ((optionalString value).map fun text => (trimUnits text).take 200).filter fun q => !q.isEmpty

theorem keptQuery_eq_some {value : JsValue} {q : Units} (kept : keptQuery value = some q) :
    q ≠ [] ∧ ∃ text, value = .text text ∧ (trimUnits text).take 200 = q := by
  unfold keptQuery at kept
  rw [Option.filter_eq_some_iff] at kept
  obtain ⟨cut, nonempty⟩ := kept
  rw [Option.map_eq_some_iff] at cut
  obtain ⟨text, present, cut⟩ := cut
  refine ⟨?_, text, ?_, cut⟩
  · intro empty
    rw [empty] at nonempty
    cases nonempty
  · cases value <;> cases present
    rfl

theorem keptQuery_eq_none {text : Units} (absent : keptQuery (.text text) = none) :
    trimUnits text = [] := by
  change Option.filter (fun q => !q.isEmpty) (some ((trimUnits text).take 200)) = none at absent
  rw [Option.filter_some] at absent
  split at absent
  · cases absent
  · rename_i empty
    rw [Bool.not_eq_true', Bool.not_eq_false, List.isEmpty_iff, List.take_eq_nil_iff] at empty
    exact empty.resolve_left (by decide)

/-- A text that is short and not empty is kept exactly when it is trimmed. -/
theorem keptQuery_text {q : Units} (nonempty : q ≠ []) (short : q.length ≤ 200) :
    keptQuery (.text q) = some q ↔ Trimmed q := by
  have shorter : (trimUnits q).take 200 = trimUnits q := by
    apply List.take_of_length_le
    have bound : (trimUnits q).length ≤ q.length :=
      Nat.le_trans (List.rdropWhile_prefix _ _).length_le (List.dropWhile_suffix _).length_le
    omega
  rw [← trimUnits_eq_self_iff]
  change Option.filter (fun q => !q.isEmpty) (some ((trimUnits q).take 200)) = some q ↔ _
  rw [shorter, Option.filter_some]
  constructor
  · intro kept
    split at kept
    · exact Option.some.inj kept
    · cases kept
  · intro trimmed
    rw [trimmed, if_pos]
    simpa using nonempty

variable {value : JsValue}

theorem keptQuery_record :
    keptQuery ((keptQuery value).elim .undefined JsValue.text) = keptQuery value ↔
      ∀ text, value = .text text →
        ∀ unit, (trimUnits text)[199]? = some unit → isSpaceUnit unit = false := by
  cases kept : keptQuery value with
  | none =>
      constructor
      · intro _ text isText unit found
        rw [isText] at kept
        rw [keptQuery_eq_none kept] at found
        cases found
      · intro _
        rfl
  | some q =>
      obtain ⟨nonempty, text, isText, cut⟩ := keptQuery_eq_some kept
      have short : q.length ≤ 200 := by
        rw [← cut, List.length_take]
        omega
      rw [Option.elim_some, keptQuery_text nonempty short, ← cut,
        (trimmed_trimUnits text).take_iff 199]
      constructor
      · intro holds other isOther
        rw [isText] at isOther
        cases isOther
        exact holds
      · intro holds
        exact holds text isText

theorem keptQuery_address
    (stable : ∀ q, keptQuery value = some q → Trimmed q) :
    keptQuery (gathered (((keptQuery value).elim [] fun q =>
        [q].filter fun item => !item.isEmpty).map toWellFormed)) = keptQuery value ↔
      ∀ text, value = .text text →
        toWellFormed ((trimUnits text).take 200) = (trimUnits text).take 200 := by
  cases kept : keptQuery value with
  | none =>
      constructor
      · intro _ text isText
        rw [isText] at kept
        rw [keptQuery_eq_none kept]
        rfl
      · intro _
        rfl
  | some q =>
      obtain ⟨nonempty, text, isText, cut⟩ := keptQuery_eq_some kept
      have short : (toWellFormed q).length ≤ 200 := by
        rw [length_toWellFormed, ← cut, List.length_take]
        omega
      have stays : keptQuery (.text (toWellFormed q)) = some (toWellFormed q) := by
        rw [keptQuery_text (fun empty => nonempty (toWellFormed_eq_nil_iff.mp empty)) short]
        exact (stable q kept).toWellFormed
      have one : ([q].filter fun item => !item.isEmpty).map toWellFormed = [toWellFormed q] := by
        simp [nonempty]
      rw [Option.elim_some, one]
      change keptQuery (.text (toWellFormed q)) = some q ↔ _
      rw [stays, Option.some_inj]
      constructor
      · intro same other isOther
        rw [isText] at isOther
        cases isOther
        rw [cut, same]
      · intro holds
        have same := holds text isText
        rwa [cut] at same

end Query

section Lists

def keptList (value : JsValue) : Option (List Units) :=
  if 0 < (stringList value).length then some (stringList value) else none

theorem mem_stringList {value : JsValue} {item : Units} :
    item ∈ stringList value ↔ (∃ text ∈ textsIn value, trimUnits text = item) ∧ item ≠ [] := by
  rw [stringList, mem_distinct, List.mem_filter, List.mem_map, Bool.not_eq_true',
    List.isEmpty_eq_false_iff]

theorem nodup_stringList (value : JsValue) : (stringList value).Nodup := nodup_distinct _

theorem stringList_of_texts {value : JsValue} {items : List Units} (texts : textsIn value = items)
    (trimmed : ∀ item ∈ items, Trimmed item) (nonempty : ∀ item ∈ items, item ≠ []) :
    stringList value = distinct items := by
  have same : items.map trimUnits = items.map id :=
    List.map_congr_left fun item member => (trimmed item member).trimUnits_eq
  rw [stringList, texts, same, List.map_id, List.filter_eq_self.mpr]
  intro item member
  rw [Bool.not_eq_true', List.isEmpty_eq_false_iff]
  exact nonempty item member

theorem textsIn_array (items : List Units) : textsIn (.array (items.map JsValue.text)) = items := by
  unfold textsIn
  rw [List.filterMap_map]
  exact List.filterMap_some

theorem textsIn_gathered (texts : List Units) : textsIn (gathered texts) = texts := by
  match texts with
  | [] => rfl
  | [_] => rfl
  | first :: second :: rest => exact textsIn_array _

variable {value : JsValue}

theorem keptList_eq_some {items : List Units} (kept : keptList value = some items) :
    items ≠ [] ∧ items = stringList value := by
  unfold keptList at kept
  split at kept
  · rename_i present
    rw [← Option.some.inj kept]
    exact ⟨List.ne_nil_of_length_pos present, rfl⟩
  · cases kept

theorem keptList_of_stringList {other : JsValue} {items : List Units}
    (list : stringList other = items) (present : items ≠ []) : keptList other = some items := by
  rw [keptList, list, if_pos (List.length_pos_of_ne_nil present)]

theorem keptList_record :
    keptList ((keptList value).elim .undefined fun items => .array (items.map JsValue.text)) =
      keptList value := by
  cases kept : keptList value with
  | none => rfl
  | some items =>
      obtain ⟨present, rfl⟩ := keptList_eq_some kept
      apply keptList_of_stringList _ present
      rw [Option.elim_some, stringList_of_texts (textsIn_array _),
        distinct_eq_self (nodup_stringList value)]
      · intro item member
        obtain ⟨⟨text, _, rfl⟩, _⟩ := mem_stringList.mp member
        exact trimmed_trimUnits text
      · intro item member
        exact (mem_stringList.mp member).2

theorem keptList_address :
    keptList (gathered (((keptList value).elim [] fun items =>
        items.filter fun item => !item.isEmpty).map toWellFormed)) = keptList value ↔
      ∀ text ∈ textsIn value, toWellFormed (trimUnits text) = trimUnits text := by
  cases kept : keptList value with
  | none =>
      constructor
      · intro _ text member
        by_contra changed
        have inList : trimUnits text ∈ stringList value := by
          rw [mem_stringList]
          refine ⟨⟨text, member, rfl⟩, ?_⟩
          intro empty
          rw [empty] at changed
          exact changed rfl
        rw [keptList, if_pos (List.length_pos_of_mem inList)] at kept
        cases kept
      · intro _
        rfl
  | some items =>
      obtain ⟨present, rfl⟩ := keptList_eq_some kept
      have nonempty : ∀ item ∈ stringList value, item ≠ [] :=
        fun item member => (mem_stringList.mp member).2
      have whole : (stringList value).filter (fun item => !item.isEmpty) = stringList value := by
        rw [List.filter_eq_self]
        intro item member
        rw [Bool.not_eq_true', List.isEmpty_eq_false_iff]
        exact nonempty item member
      have read : stringList (gathered ((stringList value).map toWellFormed)) =
          distinct ((stringList value).map toWellFormed) := by
        apply stringList_of_texts (textsIn_gathered _)
        · intro item member
          obtain ⟨own, inList, rfl⟩ := List.mem_map.mp member
          obtain ⟨⟨text, _, rfl⟩, _⟩ := mem_stringList.mp inList
          exact (trimmed_trimUnits text).toWellFormed
        · intro item member
          obtain ⟨own, inList, rfl⟩ := List.mem_map.mp member
          exact fun empty => nonempty own inList (toWellFormed_eq_nil_iff.mp empty)
      rw [Option.elim_some, whole]
      constructor
      · intro same text member
        obtain ⟨_, list⟩ := keptList_eq_some same
        have mapped : (stringList value).map toWellFormed = stringList value :=
          distinct_eq_of_length (read.symm.trans list.symm) (List.length_map _).symm
        by_cases empty : trimUnits text = []
        · rw [empty]
          rfl
        · have inList : trimUnits text ∈ stringList value :=
            mem_stringList.mpr ⟨⟨text, member, rfl⟩, empty⟩
          rw [← List.map_id (stringList value), List.map_map] at mapped
          exact List.map_inj_left.mp mapped _ inList
      · intro wellFormed
        have mapped : (stringList value).map toWellFormed = (stringList value).map id := by
          apply List.map_congr_left
          intro item member
          obtain ⟨⟨text, inTexts, rfl⟩, _⟩ := mem_stringList.mp member
          exact wellFormed text inTexts
        apply keptList_of_stringList _ present
        rw [read, mapped, List.map_id, distinct_eq_self (nodup_stringList value)]

end Lists

section Numbers

variable {value : JsValue} {minimum maximum : Nat}

theorem boundedInteger_bounds {n : Nat} (kept : boundedInteger value minimum maximum = some n) :
    minimum ≤ n ∧ n ≤ maximum := by
  unfold boundedInteger at kept
  dsimp only at kept
  rw [Option.bind_eq_some_iff] at kept
  obtain ⟨candidate, _, kept⟩ := kept
  split at kept
  · rename_i bounds
    obtain ⟨whole, lower, upper⟩ := bounds
    have same : ((candidate.num.toNat : ℕ) : ℚ) = candidate := by
      have nonneg : 0 ≤ candidate.num :=
        Rat.num_nonneg.mpr (le_trans (Nat.cast_nonneg minimum) lower)
      rw [← Int.cast_natCast, Int.toNat_of_nonneg nonneg]
      exact Rat.coe_int_num_of_den_eq_one whole
    rw [← Option.some.inj kept]
    rw [← same] at lower upper
    exact ⟨by exact_mod_cast lower, by exact_mod_cast upper⟩
  · cases kept

theorem boundedInteger_natCast {n : Nat} (lower : minimum ≤ n) (upper : n ≤ maximum) :
    (some (n : ℚ)).bind (fun candidate : ℚ =>
      if candidate.den = 1 ∧ (minimum : ℚ) ≤ candidate ∧ candidate ≤ maximum then
        some candidate.num.toNat
      else none) = some n := by
  rw [Option.bind_some, if_pos]
  · simp
  · exact ⟨Rat.den_natCast n, by exact_mod_cast lower, by exact_mod_cast upper⟩

theorem boundedInteger_record :
    boundedInteger ((boundedInteger value minimum maximum).elim .undefined fun n =>
      .number (some n)) minimum maximum = boundedInteger value minimum maximum := by
  cases kept : boundedInteger value minimum maximum with
  | none => rfl
  | some n =>
      obtain ⟨lower, upper⟩ := boundedInteger_bounds kept
      exact boundedInteger_natCast lower upper

theorem boundedInteger_address (safe : maximum ≤ maxSafeInteger) :
    boundedInteger (gathered (((boundedInteger value minimum maximum).elim [] fun n =>
      [decimalUnits n]).map toWellFormed)) minimum maximum =
        boundedInteger value minimum maximum := by
  cases kept : boundedInteger value minimum maximum with
  | none => rfl
  | some n =>
      obtain ⟨lower, upper⟩ := boundedInteger_bounds kept
      have nonempty : ¬(trimUnits (decimalUnits n)).isEmpty = true := by
        rw [(trimmed_decimalUnits n).trimUnits_eq, List.isEmpty_iff]
        exact decimalUnits_ne_nil n
      have small : n < 2 ^ 53 := by
        unfold maxSafeInteger at safe
        omega
      rw [Option.elim_some, List.map_singleton, toWellFormed_decimalUnits]
      unfold boundedInteger gathered
      dsimp only
      rw [if_neg nonempty, stringToNumber_decimalUnits small]
      exact boundedInteger_natCast lower upper

end Numbers

section Sorts

theorem isSearchSort_name (sort : DomainSearchSort) : isSearchSort (some sort.name) = some sort := by
  cases sort <;> decide +kernel

theorem sortName_plain (sort : DomainSearchSort) :
    toWellFormed sort.name = sort.name ∧ sort.name.isEmpty = false := by
  cases sort <;> decide +kernel

variable (stored : Option DomainSearchSort)

theorem isSearchSort_record :
    isSearchSort (optionalString (stored.elim .undefined fun sort => .text sort.name)) = stored := by
  cases stored with
  | none => rfl
  | some sort => exact isSearchSort_name sort

theorem isSearchSort_address :
    isSearchSort (optionalString (gathered ((stored.elim [] fun sort =>
      [sort.name].filter fun item => !item.isEmpty).map toWellFormed))) = stored := by
  cases stored with
  | none => rfl
  | some sort =>
      have one : (([sort.name].filter fun item => !item.isEmpty).map toWellFormed) =
          [sort.name] := by
        simp [sortName_plain sort]
      rw [Option.elim_some, one]
      exact isSearchSort_name sort

end Sorts

section Survival

/-- The properties that are lists. -/
def listKeys : List SearchKey := [.technology, .category, .country]

/-- The cut of the query leaves no white space at its end and no half of a pair,
and no text holds a surrogate that stands alone. -/
structure Survives (value : Record) : Prop where
  cut : ∀ text, value SearchKey.q.name = .text text →
    ∀ unit, (trimUnits text)[199]? = some unit → isSpaceUnit unit = false
  query : ∀ text, value SearchKey.q.name = .text text →
    toWellFormed ((trimUnits text).take 200) = (trimUnits text).take 200
  lists : ∀ key ∈ listKeys, ∀ text ∈ textsIn (value key.name),
    toWellFormed (trimUnits text) = trimUnits text

/-- The properties that are numbers, with their bounds. -/
def boundedKeys : List (SearchKey × Nat × Nat) :=
  [(.crawledSince, 0, maxSafeInteger), (.minConfidence, 0, 100), (.limit, 1, 100),
    (.offset, 0, 10000)]

variable (value : Record)

theorem validate_eq :
    validateDomainSearchState value =
      { q := keptQuery (value SearchKey.q.name)
        technology := keptList (value SearchKey.technology.name)
        category := keptList (value SearchKey.category.name)
        country := keptList (value SearchKey.country.name)
        crawledSince := boundedInteger (value SearchKey.crawledSince.name) 0 maxSafeInteger
        minConfidence := boundedInteger (value SearchKey.minConfidence.name) 0 100
        limit := boundedInteger (value SearchKey.limit.name) 1 100
        offset := boundedInteger (value SearchKey.offset.name) 0 10000
        sort := isSearchSort (optionalString (value SearchKey.sort.name)) } := rfl

/-- The properties one by one. -/
theorem validate_eq_iff (other : Record) :
    validateDomainSearchState other = validateDomainSearchState value ↔
      keptQuery (other SearchKey.q.name) = keptQuery (value SearchKey.q.name) ∧
      (∀ key ∈ listKeys, keptList (other key.name) = keptList (value key.name)) ∧
      (∀ bounded ∈ boundedKeys,
        boundedInteger (other bounded.1.name) bounded.2.1 bounded.2.2 =
          boundedInteger (value bounded.1.name) bounded.2.1 bounded.2.2) ∧
      isSearchSort (optionalString (other SearchKey.sort.name)) =
        isSearchSort (optionalString (value SearchKey.sort.name)) := by
  rw [validate_eq, validate_eq, listKeys, boundedKeys]
  simp only [DomainSearchState.mk.injEq, List.forall_mem_cons, List.not_mem_nil, false_imp_iff,
    implies_true, true_and, and_assoc]

theorem value_query :
    (validateDomainSearchState value).value .q = (keptQuery (value SearchKey.q.name)).map .text :=
  rfl

theorem value_list : ∀ key ∈ listKeys,
    (validateDomainSearchState value).value key = (keptList (value key.name)).map .list := by
  rw [validate_eq, listKeys]
  simp only [List.forall_mem_cons, List.not_mem_nil, false_imp_iff, implies_true, and_true,
    DomainSearchState.value]

theorem value_number : ∀ bounded ∈ boundedKeys,
    (validateDomainSearchState value).value bounded.1 =
      (boundedInteger (value bounded.1.name) bounded.2.1 bounded.2.2).map .number := by
  rw [validate_eq, boundedKeys]
  simp only [List.forall_mem_cons, List.not_mem_nil, false_imp_iff, implies_true, and_true,
    DomainSearchState.value]

theorem value_sort :
    (validateDomainSearchState value).value .sort =
      (isSearchSort (optionalString (value SearchKey.sort.name))).map fun sort =>
        .text sort.name :=
  rfl

theorem boundedKeys_safe : ∀ bounded ∈ boundedKeys, bounded.2.2 ≤ maxSafeInteger := by
  decide

/-- What is kept of a state is the state, but for a query whose cut ends in white
space. -/
theorem validate_record_iff :
    validateDomainSearchState (validateDomainSearchState value).record =
        validateDomainSearchState value ↔
      ∀ text, value SearchKey.q.name = .text text →
        ∀ unit, (trimUnits text)[199]? = some unit → isSpaceUnit unit = false := by
  rw [validate_eq_iff]
  constructor
  · rintro ⟨query, _⟩
    rw [record_name, value_query, Option.elim_map] at query
    exact keptQuery_record.mp query
  · intro cut
    refine ⟨?_, ?_, ?_, ?_⟩
    · rw [record_name, value_query, Option.elim_map]
      exact keptQuery_record.mpr cut
    · intro key isList
      rw [record_name, value_list value key isList, Option.elim_map]
      exact keptList_record
    · intro bounded isNumber
      rw [record_name, value_number value bounded isNumber, Option.elim_map]
      exact boundedInteger_record
    · rw [record_name, value_sort, Option.elim_map]
      exact isSearchSort_record _

variable {api : UrlSearchParams} (lossless : api.Lossless)

include lossless

/-- A trimmed query survives the address exactly when no surrogate stands alone
in it, and a list when none does in its texts. -/
theorem validate_address_iff
    (stable : ∀ q, keptQuery (value SearchKey.q.name) = some q → Trimmed q) :
    validateDomainSearchState (parseSearchParams api
        (stringifyRouterSearch api (validateDomainSearchState value).entries)) =
        validateDomainSearchState value ↔
      (∀ text, value SearchKey.q.name = .text text →
        toWellFormed ((trimUnits text).take 200) = (trimUnits text).take 200) ∧
      ∀ key ∈ listKeys, ∀ text ∈ textsIn (value key.name),
        toWellFormed (trimUnits text) = trimUnits text := by
  rw [validate_eq_iff]
  simp only [parse_stringify lossless, DomainSearchState.textsOf]
  constructor
  · rintro ⟨query, lists, _⟩
    rw [value_query, Option.elim_map] at query
    refine ⟨(keptQuery_address stable).mp query, ?_⟩
    intro key isList
    have list := lists key isList
    rw [value_list value key isList, Option.elim_map] at list
    exact keptList_address.mp list
  · rintro ⟨query, lists⟩
    refine ⟨?_, ?_, ?_, ?_⟩
    · rw [value_query, Option.elim_map]
      exact (keptQuery_address stable).mpr query
    · intro key isList
      rw [value_list value key isList, Option.elim_map]
      exact keptList_address.mpr (lists key isList)
    · intro bounded isNumber
      rw [value_number value bounded isNumber, Option.elim_map]
      exact boundedInteger_address (boundedKeys_safe bounded isNumber)
    · rw [value_sort, Option.elim_map]
      exact isSearchSort_address _

/-- A search state is stable and survives its address exactly when the cut of the
query and the surrogates allow it. -/
theorem searchState_survives_iff :
    (validateDomainSearchState (validateDomainSearchState value).record =
        validateDomainSearchState value ∧
      validateDomainSearchState (parseSearchParams api
          (stringifyRouterSearch api (validateDomainSearchState value).entries)) =
        validateDomainSearchState value) ↔
      Survives value := by
  have stableOf : (∀ text, value SearchKey.q.name = .text text →
      ∀ unit, (trimUnits text)[199]? = some unit → isSpaceUnit unit = false) →
      ∀ q, keptQuery (value SearchKey.q.name) = some q → Trimmed q := by
    intro cut q kept
    obtain ⟨_, text, isText, taken⟩ := keptQuery_eq_some kept
    rw [← taken, (trimmed_trimUnits text).take_iff 199]
    exact cut text isText
  rw [validate_record_iff]
  constructor
  · rintro ⟨cut, again⟩
    have rest := (validate_address_iff value lossless (stableOf cut)).mp again
    exact ⟨cut, rest.1, rest.2⟩
  · intro survives
    refine ⟨survives.cut, ?_⟩
    exact (validate_address_iff value lossless (stableOf survives.cut)).mpr
      ⟨survives.query, survives.lists⟩

end Survival

section Encoding

def isPlainUnit (unit : UInt16) : Bool :=
  (48 ≤ unit && unit ≤ 57) || (65 ≤ unit && unit ≤ 90) || (97 ≤ unit && unit ≤ 122) ||
    unit == 42 || unit == 45 || unit == 46 || unit == 95

def hexUnit (d : Nat) : UInt16 := UInt16.ofNat (if d < 10 then 48 + d else 55 + d)

/-- Plain units stay, as `URLSearchParams` has them; others are written as four
hexadecimal digits. -/
def escapeUnit (unit : UInt16) : Units :=
  if isPlainUnit unit then [unit]
  else [37, hexUnit (unit.toNat / 4096), hexUnit (unit.toNat / 256 % 16),
    hexUnit (unit.toNat / 16 % 16), hexUnit (unit.toNat % 16)]

def unescape : Units → Units
  | 37 :: a :: b :: c :: d :: rest =>
      UInt16.ofNat (((digitValue a * 16 + digitValue b) * 16 + digitValue c) * 16 +
        digitValue d) :: unescape rest
  | unit :: rest => unit :: unescape rest
  | [] => []

def plainParams : UrlSearchParams where
  toString params := [38].intercalate (params.map fun param =>
    (toWellFormed param.1).flatMap escapeUnit ++ 61 :: (toWellFormed param.2).flatMap escapeUnit)
  pairs text :=
    if text.isEmpty then []
    else (text.splitOn 38).map fun part =>
      (unescape (part.takeWhile (· != 61)), unescape ((part.dropWhile (· != 61)).drop 1))

theorem hexUnit_digit : ∀ d < 16, digitValue (hexUnit d) = d ∧ hexUnit d ≠ 38 ∧
    (hexUnit d != 61) = true := by
  decide

theorem plain_unit {unit : UInt16} (plain : isPlainUnit unit = true) :
    unit ≠ 37 ∧ unit ≠ 38 ∧ (unit != 61) = true := by
  refine ⟨?_, ?_, ?_⟩
  · rintro rfl
    exact absurd plain (by decide)
  · rintro rfl
    exact absurd plain (by decide)
  · rw [bne_iff_ne]
    rintro rfl
    exact absurd plain (by decide)

theorem escapeUnit_plain {unit : UInt16} :
    ∀ escaped ∈ escapeUnit unit, escaped ≠ 38 ∧ (escaped != 61) = true := by
  intro escaped member
  unfold escapeUnit at member
  split at member
  · rename_i plain
    rw [List.mem_singleton.mp member]
    exact (plain_unit plain).2
  · have bound := unit.toNat_lt
    simp only [List.mem_cons, List.not_mem_nil, or_false] at member
    rcases member with rfl | rfl | rfl | rfl | rfl
    · decide
    all_goals exact (hexUnit_digit _ (by omega)).2

theorem unescape_escape (text : Units) : unescape (text.flatMap escapeUnit) = text := by
  induction text with
  | nil => rfl
  | cons unit rest ih =>
      rw [List.flatMap_cons]
      by_cases plain : isPlainUnit unit = true
      · have here : escapeUnit unit = [unit] := if_pos plain
        rw [here, List.singleton_append, unescape, ih]
        intro _ _ _ _ _ found
        exact absurd found (plain_unit plain).1
      · have here : escapeUnit unit = [37, hexUnit (unit.toNat / 4096),
            hexUnit (unit.toNat / 256 % 16), hexUnit (unit.toNat / 16 % 16),
            hexUnit (unit.toNat % 16)] := if_neg plain
        have bound := unit.toNat_lt
        have whole : ((unit.toNat / 4096 * 16 + unit.toNat / 256 % 16) * 16 +
            unit.toNat / 16 % 16) * 16 + unit.toNat % 16 = unit.toNat := by
          omega
        rw [here, List.cons_append, List.cons_append, List.cons_append, List.cons_append,
          List.cons_append, List.nil_append, unescape, ih, (hexUnit_digit _ (by omega)).1,
          (hexUnit_digit _ (by omega)).1, (hexUnit_digit _ (by omega)).1,
          (hexUnit_digit _ (by omega)).1, whole, UInt16.ofNat_toNat]

theorem escaped_plain {text : Units} :
    ∀ unit ∈ text.flatMap escapeUnit, unit ≠ 38 ∧ (unit != 61) = true := by
  intro unit member
  obtain ⟨own, _, inEscape⟩ := List.mem_flatMap.mp member
  exact escapeUnit_plain unit inEscape

theorem pair_of_part (name value : Units) :
    (unescape ((name.flatMap escapeUnit ++ 61 :: value.flatMap escapeUnit).takeWhile (· != 61)),
      unescape (((name.flatMap escapeUnit ++ 61 :: value.flatMap escapeUnit).dropWhile
        (· != 61)).drop 1)) = (name, value) := by
  have plain : ∀ unit ∈ name.flatMap escapeUnit, (unit != 61) = true :=
    fun unit member => (escaped_plain unit member).2
  rw [List.takeWhile_append_of_pos plain, List.dropWhile_append_of_pos plain,
    List.takeWhile_cons_of_neg (by decide), List.dropWhile_cons_of_neg (by decide),
    List.append_nil, List.drop_one, List.tail_cons, unescape_escape, unescape_escape]

theorem plainParams_lossless : plainParams.Lossless := by
  intro params
  cases params with
  | nil => rfl
  | cons first rest =>
      unfold plainParams
      dsimp only
      rw [if_neg, List.splitOn_intercalate, List.map_map]
      · apply List.map_congr_left
        intro param _
        exact pair_of_part (toWellFormed param.1) (toWellFormed param.2)
      · intro part isPart
        obtain ⟨param, _, rfl⟩ := List.mem_map.mp isPart
        simp only [List.mem_append, List.mem_cons, not_or]
        exact ⟨fun member => (escaped_plain _ member).1 rfl, by decide,
          fun member => (escaped_plain _ member).1 rfl⟩
      · exact List.cons_ne_nil _ _
      · rw [List.isEmpty_iff, List.map_cons]
        cases rest with
        | nil => simp
        | cons second rest => simp

end Encoding

section Examples

def recordOf (entries : List (Units × JsValue)) : Record := fun name =>
  (entries.lookup name).getD .undefined

/-- A search with something to trim, to drop and to convert. -/
def shopSearch : Record := recordOf [(units "q", .text (units " shop ")),
  (units "technology", .array [.text (units "react"), .null, .text (units " react "),
    .text (units "nextjs")]),
  (units "country", .text (units "NG")), (units "min_confidence", .text (units "0x50")),
  (units "sort", .text (units "updated_desc"))]

theorem searchState_survives_shop :
    validateDomainSearchState (validateDomainSearchState shopSearch).record =
        validateDomainSearchState shopSearch ∧
      validateDomainSearchState (parseSearchParams plainParams
          (stringifyRouterSearch plainParams (validateDomainSearchState shopSearch).entries)) =
        validateDomainSearchState shopSearch := by
  rw [searchState_survives_iff shopSearch plainParams_lossless]
  have query : shopSearch SearchKey.q.name = .text (units " shop ") := rfl
  refine ⟨?_, ?_, ?_⟩
  · intro text isText unit found
    rw [query] at isText
    cases isText
    have short : (trimUnits (units " shop "))[199]? = none := by
      decide +kernel
    rw [short] at found
    cases found
  · intro text isText
    rw [query] at isText
    cases isText
    decide +kernel
  · decide +kernel

/-- 199 letters, a space and another letter. -/
def cutSearch : Record :=
  recordOf [(units "q", .text (List.replicate 199 97 ++ units " b"))]

/-- The cut leaves a space at the end, which the next validation trims. -/
theorem searchState_cut :
    validateDomainSearchState (validateDomainSearchState cutSearch).record ≠
      validateDomainSearchState cutSearch := by
  decide +kernel

end Examples

end TechAtlas.Dashboard
