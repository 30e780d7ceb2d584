import TechAtlas.Library.Doubles

set_option autoImplicit false

/- The search state of the dashboard: what is kept of a record of values, the
query string that a state becomes, and the record that is read from one. -/
namespace TechAtlas.Dashboard

open Library

section Values

/-- A value of unknown type. -/
inductive JsValue
  | undefined
  | null
  | boolean (value : Bool)
  | number (value : Option ℚ)
  | text (value : Units)
  | array (items : List JsValue)
  | object

abbrev Record := Units → JsValue

inductive DomainSearchSort
  | relevance
  | lastCrawledDesc
  | updatedDesc
  deriving DecidableEq, Repr

def DomainSearchSort.name : DomainSearchSort → Units
  | .relevance => units "relevance"
  | .lastCrawledDesc => units "last_crawled_desc"
  | .updatedDesc => units "updated_desc"

def searchSorts : List DomainSearchSort := [.relevance, .lastCrawledDesc, .updatedDesc]

@[ext]
structure DomainSearchState where
  q : Option Units
  technology : Option (List Units)
  category : Option (List Units)
  country : Option (List Units)
  crawledSince : Option Nat
  minConfidence : Option Nat
  limit : Option Nat
  offset : Option Nat
  sort : Option DomainSearchSort
  deriving DecidableEq

/-- The properties of a search state, in the order of the object that
`validateDomainSearchState` returns. -/
inductive SearchKey
  | q
  | technology
  | category
  | country
  | crawledSince
  | minConfidence
  | limit
  | offset
  | sort
  deriving DecidableEq, Repr

def SearchKey.name : SearchKey → Units
  | .q => units "q"
  | .technology => units "technology"
  | .category => units "category"
  | .country => units "country"
  | .crawledSince => units "crawled_since"
  | .minConfidence => units "min_confidence"
  | .limit => units "limit"
  | .offset => units "offset"
  | .sort => units "sort"

def SearchKey.all : List SearchKey :=
  [.q, .technology, .category, .country, .crawledSince, .minConfidence, .limit, .offset, .sort]

/-- What a property of a state can be. -/
inductive SearchValue
  | text (value : Units)
  | list (items : List Units)
  | number (value : Nat)
  deriving DecidableEq

def SearchValue.toJs : SearchValue → JsValue
  | .text value => .text value
  | .list items => .array (items.map JsValue.text)
  | .number value => .number (some value)

def DomainSearchState.value (state : DomainSearchState) : SearchKey → Option SearchValue
  | .q => state.q.map .text
  | .technology => state.technology.map .list
  | .category => state.category.map .list
  | .country => state.country.map .list
  | .crawledSince => state.crawledSince.map .number
  | .minConfidence => state.minConfidence.map .number
  | .limit => state.limit.map .number
  | .offset => state.offset.map .number
  | .sort => state.sort.map fun sort => .text sort.name

/-- `Object.entries` of a state. -/
def DomainSearchState.entries (state : DomainSearchState) : List (Units × SearchValue) :=
  SearchKey.all.filterMap fun key => (state.value key).map (key.name, ·)

def DomainSearchState.record (state : DomainSearchState) : Record := fun name =>
  ((SearchKey.all.find? fun key => key.name == name).bind state.value).elim .undefined
    SearchValue.toJs

end Values

section Validate

def optionalString : JsValue → Option Units
  | .text value => some value
  | _ => none

def textsIn (value : JsValue) : List Units :=
  let values := match value with
    | .array items => items
    | .undefined => []
    | value => [value]
  values.filterMap optionalString

def stringList (value : JsValue) : List Units :=
  distinct (((textsIn value).map trimUnits).filter fun item => !item.isEmpty)

/-- Every bound is at least zero, and the two zeros are one number. -/
def boundedInteger (value : JsValue) (minimum maximum : Nat) : Option Nat :=
  let candidate := match value with
    | .number value => value
    | .text value => if (trimUnits value).isEmpty then none else stringToNumber value
    | _ => none
  candidate.bind fun candidate =>
    if candidate.den = 1 ∧ minimum ≤ candidate ∧ candidate ≤ maximum then
      some candidate.num.toNat
    else none

def isSearchSort (value : Option Units) : Option DomainSearchSort :=
  value.bind fun value => searchSorts.find? fun sort => sort.name == value

def maxSafeInteger : Nat := 2 ^ 53 - 1

def validateDomainSearchState (value : Record) : DomainSearchState :=
  let q := (optionalString (value SearchKey.q.name)).map fun text => (trimUnits text).take 200
  let technology := stringList (value SearchKey.technology.name)
  let category := stringList (value SearchKey.category.name)
  let country := stringList (value SearchKey.country.name)
  { q := q.filter fun q => !q.isEmpty
    technology := if 0 < technology.length then some technology else none
    category := if 0 < category.length then some category else none
    country := if 0 < country.length then some country else none
    crawledSince := boundedInteger (value SearchKey.crawledSince.name) 0 maxSafeInteger
    minConfidence := boundedInteger (value SearchKey.minConfidence.name) 0 100
    limit := boundedInteger (value SearchKey.limit.name) 1 100
    offset := boundedInteger (value SearchKey.offset.name) 0 10000
    sort := isSearchSort (optionalString (value SearchKey.sort.name)) }

end Validate

section Address

/-- `URLSearchParams`: the text of a list of pairs, and the pairs in a text. -/
structure UrlSearchParams where
  toString : List (Units × Units) → Units
  pairs : Units → List (Units × Units)

/-- Well-formed texts are read back, and a surrogate that stands alone is
replaced. -/
def UrlSearchParams.Lossless (api : UrlSearchParams) : Prop :=
  ∀ params, api.pairs (api.toString params) = params.map (Prod.map toWellFormed toWellFormed)

/-- `params.set(name, value)`. -/
def setParam (name value : Units) : List (Units × Units) → List (Units × Units)
  | [] => [(name, value)]
  | param :: rest =>
      if param.1 = name then (name, value) :: rest.filter fun param => param.1 != name
      else param :: setParam name value rest

def addEntry (params : List (Units × Units)) (entry : Units × SearchValue) :
    List (Units × Units) :=
  match entry.2 with
  | .text value => if value.isEmpty then params else setParam entry.1 value params
  | .list items => params ++ (items.filter fun item => !item.isEmpty).map (entry.1, ·)
  | .number value => setParam entry.1 (decimalUnits value) params

def stringifySearchParams (api : UrlSearchParams) (search : List (Units × SearchValue)) : Units :=
  api.toString (search.foldl addEntry [])

def stringifyRouterSearch (api : UrlSearchParams) (search : List (Units × SearchValue)) : Units :=
  let query := stringifySearchParams api search
  if query.isEmpty then [] else 63 :: query

/-- A name that has come before gathers its values in an array. -/
def addText (existing : JsValue) (value : Units) : JsValue :=
  match existing with
  | .undefined => .text value
  | .array items => .array (items ++ [.text value])
  | existing => .array [existing, .text value]

def addParam (result : Record) (param : Units × Units) : Record :=
  Function.update result param.1 (addText (result param.1) param.2)

def parseSearchParams (api : UrlSearchParams) (search : Units) : Record :=
  let params := api.pairs (match search with
    | 63 :: rest => rest
    | _ => search)
  params.foldl addParam fun _ => .undefined

end Address

section Keys

theorem find_name (key : SearchKey) :
    (SearchKey.all.find? fun other => other.name == key.name) = some key := by
  cases key <;> decide +kernel

theorem name_injective {left right : SearchKey} (same : left.name = right.name) : left = right := by
  have found := find_name left
  rw [same, find_name right] at found
  exact (Option.some.inj found).symm

theorem nodup_all : SearchKey.all.Nodup := by
  decide

theorem mem_all (key : SearchKey) : key ∈ SearchKey.all := by
  cases key <;> decide

theorem toWellFormed_name (key : SearchKey) : toWellFormed key.name = key.name := by
  cases key <;> decide +kernel

theorem record_name (state : DomainSearchState) (key : SearchKey) :
    state.record key.name = (state.value key).elim .undefined SearchValue.toJs := by
  unfold DomainSearchState.record
  rw [find_name, Option.bind_some]

end Keys

section Params

/-- The texts that a value contributes to the query string. -/
def SearchValue.texts : SearchValue → List Units
  | .text value => [value].filter fun item => !item.isEmpty
  | .list items => items.filter fun item => !item.isEmpty
  | .number value => [decimalUnits value]

theorem setParam_fresh {name value : Units} {params : List (Units × Units)}
    (fresh : ∀ param ∈ params, param.1 ≠ name) :
    setParam name value params = params ++ [(name, value)] := by
  induction params with
  | nil => rfl
  | cons param rest ih =>
      rw [setParam, if_neg (fresh param List.mem_cons_self),
        ih fun later member => fresh later (List.mem_cons_of_mem _ member), List.cons_append]

theorem addEntry_fresh {params : List (Units × Units)} {entry : Units × SearchValue}
    (fresh : ∀ param ∈ params, param.1 ≠ entry.1) :
    addEntry params entry = params ++ entry.2.texts.map (entry.1, ·) := by
  obtain ⟨name, value⟩ := entry
  cases value with
  | text value =>
      unfold addEntry SearchValue.texts
      cases empty : value.isEmpty with
      | true => simp [empty]
      | false => simp [empty, setParam_fresh fresh]
  | list items => rfl
  | number value => exact setParam_fresh fresh

theorem foldl_addEntry {entries : List (Units × SearchValue)} {params : List (Units × Units)}
    (distinctNames : (entries.map Prod.fst).Nodup)
    (fresh : ∀ entry ∈ entries, ∀ param ∈ params, param.1 ≠ entry.1) :
    entries.foldl addEntry params =
      params ++ entries.flatMap fun entry => entry.2.texts.map (entry.1, ·) := by
  induction entries generalizing params with
  | nil => simp
  | cons entry rest ih =>
      rw [List.map_cons, List.nodup_cons] at distinctNames
      rw [List.foldl_cons, addEntry_fresh (fresh entry List.mem_cons_self), ih distinctNames.2,
        List.flatMap_cons, List.append_assoc]
      intro later member param inParams
      rw [List.mem_append] at inParams
      cases inParams with
      | inl before => exact fresh later (List.mem_cons_of_mem _ member) param before
      | inr added =>
          rw [List.mem_map] at added
          obtain ⟨text, _, rfl⟩ := added
          intro same
          apply distinctNames.1
          rw [List.mem_map]
          exact ⟨later, member, same.symm⟩

theorem nodup_entries (state : DomainSearchState) : (state.entries.map Prod.fst).Nodup := by
  have names : List.Sublist (state.entries.map Prod.fst) (SearchKey.all.map SearchKey.name) := by
    unfold DomainSearchState.entries
    generalize SearchKey.all = keys
    induction keys with
    | nil => exact .slnil
    | cons key rest ih =>
        cases present : state.value key with
        | none =>
            rw [List.filterMap_cons_none (by rw [present, Option.map_none])]
            exact ih.cons _
        | some value =>
            rw [List.filterMap_cons_some (by rw [present, Option.map_some])]
            exact ih.cons_cons _
  exact names.nodup (nodup_all.map fun _ _ => name_injective)

/-- The values that a list of pairs has for a name. -/
def textsAt (name : Units) (params : List (Units × Units)) : List Units :=
  params.filterMap fun param => if param.1 = name then some param.2 else none

theorem textsAt_append (name : Units) (front back : List (Units × Units)) :
    textsAt name (front ++ back) = textsAt name front ++ textsAt name back :=
  List.filterMap_append

def DomainSearchState.textsOf (state : DomainSearchState) (key : SearchKey) : List Units :=
  ((state.value key).elim [] SearchValue.texts).map toWellFormed

theorem textsAt_entry (name : Units) (key : SearchKey) (texts : List Units) :
    textsAt name ((texts.map (key.name, ·)).map (Prod.map toWellFormed toWellFormed)) =
      if key.name = name then texts.map toWellFormed else [] := by
  unfold textsAt
  rw [List.map_map, List.filterMap_map]
  split
  · rename_i same
    subst same
    simp [Function.comp_def, toWellFormed_name]
  · rename_i other
    simp [Function.comp_def, toWellFormed_name, other]

theorem textsAt_keys (state : DomainSearchState) (key : SearchKey) {keys : List SearchKey}
    (nodup : keys.Nodup) :
    textsAt key.name (((keys.filterMap fun key => (state.value key).map (key.name, ·)).flatMap
        fun entry => entry.2.texts.map (entry.1, ·)).map (Prod.map toWellFormed toWellFormed)) =
      if key ∈ keys then state.textsOf key else [] := by
  induction keys with
  | nil => rfl
  | cons head rest ih =>
      rw [List.nodup_cons] at nodup
      have first : textsAt key.name ((((state.value head).map (head.name, ·)).toList.flatMap
          fun entry => entry.2.texts.map (entry.1, ·)).map (Prod.map toWellFormed toWellFormed)) =
          if head = key then state.textsOf head else [] := by
        unfold DomainSearchState.textsOf
        cases present : state.value head with
        | none => simp [textsAt]
        | some value =>
            rw [Option.map_some, Option.toList_some, List.flatMap_singleton, textsAt_entry]
            by_cases same : head = key
            · rw [if_pos (congrArg SearchKey.name same), if_pos same, Option.elim_some]
            · rw [if_neg fun sameName => same (name_injective sameName), if_neg same]
      have split : (head :: rest).filterMap (fun key => (state.value key).map (key.name, ·)) =
          ((state.value head).map (head.name, ·)).toList ++
            rest.filterMap fun key => (state.value key).map (key.name, ·) := by
        cases present : state.value head with
        | none => simp [present]
        | some value => simp [present]
      rw [split, List.flatMap_append, List.map_append, textsAt_append, first, ih nodup.2]
      by_cases same : head = key
      · subst same
        rw [if_pos rfl, if_neg nodup.1, if_pos List.mem_cons_self, List.append_nil]
      · rw [if_neg same, List.nil_append]
        simp [Ne.symm same]

end Params

section Parse

/-- What a record holds for a name with these values. -/
def gathered : List Units → JsValue
  | [] => .undefined
  | [text] => .text text
  | texts => .array (texts.map JsValue.text)

theorem addText_gathered (texts : List Units) (text : Units) :
    addText (gathered texts) text = gathered (texts ++ [text]) := by
  match texts with
  | [] => rfl
  | [_] => rfl
  | first :: second :: rest => simp [addText, gathered]

theorem foldl_addParam (name : Units) (params : List (Units × Units)) :
    params.foldl addParam (fun _ => .undefined) name = gathered (textsAt name params) := by
  induction params using List.reverseRecOn with
  | nil => rfl
  | append_singleton params param ih =>
      obtain ⟨other, text⟩ := param
      rw [List.foldl_append, List.foldl_cons, List.foldl_nil, textsAt_append]
      rw [addParam]
      by_cases same : other = name
      · subst same
        have added : textsAt other [(other, text)] = [text] := by simp [textsAt]
        rw [Function.update_self, ih, added, addText_gathered]
      · have nothing : textsAt name [(other, text)] = [] := by simp [textsAt, same]
        rw [Function.update_of_ne (Ne.symm same), ih, nothing, List.append_nil]

variable {api : UrlSearchParams}

/-- A name of the address holds the well-formed texts of the state's property. -/
theorem parse_stringify (lossless : api.Lossless) (state : DomainSearchState) (key : SearchKey) :
    parseSearchParams api (stringifyRouterSearch api state.entries) key.name =
      gathered (state.textsOf key) := by
  have read : parseSearchParams api (stringifyRouterSearch api state.entries) =
      (api.pairs (stringifySearchParams api state.entries)).foldl addParam fun _ => .undefined := by
    unfold parseSearchParams stringifyRouterSearch
    dsimp only
    by_cases empty : (stringifySearchParams api state.entries).isEmpty = true
    · rw [if_pos empty, List.isEmpty_iff.mp empty]
    · rw [if_neg empty]
      rfl
  rw [read, foldl_addParam]
  unfold stringifySearchParams
  rw [lossless, foldl_addEntry (nodup_entries state) (fun _ _ _ absent => by cases absent),
    List.nil_append]
  unfold DomainSearchState.entries
  rw [textsAt_keys state key nodup_all, if_pos (mem_all key)]

end Parse

end TechAtlas.Dashboard
