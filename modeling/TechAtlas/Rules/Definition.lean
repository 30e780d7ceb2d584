import TechAtlas.Detector

set_option autoImplicit false

/- The checks of the admin API on a rule's definition, and the fixture test an
operator runs it through. -/
namespace TechAtlas.Rules

open Library TechAtlas.Detector

inductive AdminApiError
  | validation
  | notFound
  | conflict
  | unavailable
  deriving DecidableEq, Repr

section Validation

def isSourceName (value : Text) : Bool :=
  value == "html".toList || value == "header".toList || value == "script".toList ||
    value == "dns".toList || value == "tls".toList

def isMatcherName (value : Text) : Bool :=
  value == "equals_ignore_case".toList || value == "contains_ignore_case".toList ||
    value == "present".toList

/-- A field that holds an integer from 1 to 100. -/
def percentField (fields : List (Text × Json)) (name : String) : Option Nat :=
  ((fields.lookup name.toList).bind Json.asU64).filter fun value => 1 ≤ value && value ≤ 100

def sourceField (fields : List (Text × Json)) : Option Text :=
  (strField fields "source").filter isSourceName

def keyField (fields : List (Text × Json)) : Option Text :=
  (strField fields "key").filter fun key => !(trim key).isEmpty && utf8Length key ≤ 128

def valueField (fields : List (Text × Json)) : Option Text :=
  (strField fields "value").filter fun value => !(trim value).isEmpty && utf8Length value ≤ 2048

/-- A matcher other than `present` needs a value to compare with. -/
def validateSignal (signal : Json) : Except AdminApiError Unit := do
  let signal ← orError signal.asObject .validation
  let _ ← orError (sourceField signal) .validation
  let _ ← orError (keyField signal) .validation
  let matcher ← orError ((strField signal "match").filter isMatcherName) .validation
  let _ ← orError (percentField signal "weight") .validation
  require (matcher == "present".toList || (valueField signal).isSome) .validation

def validateSignals : List Json → Except AdminApiError Unit
  | [] => .ok ()
  | signal :: rest => do
      validateSignal signal
      validateSignals rest

def validateVersionEvidence (regexes : RegexCrate) (versionEvidence : Json) :
    Except AdminApiError Unit := do
  let fields ← orError versionEvidence.asObject .validation
  let _ ← orError (sourceField fields) .validation
  let _ ← orError (keyField fields) .validation
  let pattern ← orError ((strField fields "pattern").filter fun pattern =>
    !pattern.isEmpty && utf8Length pattern ≤ 256) .validation
  let regex ← orError (regexes.compile pattern) .validation
  require (regex.capturesLen == 2 && fields.length == 3) .validation

def validateRuleDefinition (regexes : RegexCrate) (definition : Json) :
    Except AdminApiError Unit := do
  let object ← orError definition.asObject .validation
  let _ ← orError (percentField object "threshold") .validation
  let signals ← orError (((object.lookup "signals".toList).bind Json.asArray).filter
    fun signals => !signals.isEmpty && signals.length ≤ 64) .validation
  validateSignals signals
  match object.lookup "version_evidence".toList with
  | none => .ok ()
  | some versionEvidence => validateVersionEvidence regexes versionEvidence

/-- `serde_json::from_str`. -/
structure JsonCrate where
  parse : Text → Option Json

def parseRuleDefinition (jsons : JsonCrate) (regexes : RegexCrate) (value : Text) :
    Except AdminApiError Json := do
  require (decide (utf8Length value ≤ 32768)) .validation
  let definition ← orError (jsons.parse value) .validation
  validateRuleDefinition regexes definition
  .ok definition

end Validation

section Fixture

structure RuleFixtureSignal where
  source : Text
  key : Text
  value : Text
  deriving DecidableEq, Repr

/-- A field that holds a `u8`. -/
def u8Field (fields : List (Text × Json)) (name : String) : Option Nat :=
  ((fields.lookup name.toList).bind Json.asU64).filter fun value => value < 256

/-- One signal of the definition against the whole fixture. -/
def scoreFixtureSignal (fixture : List RuleFixtureSignal) (confidence : Nat) (signal : Json) :
    Except AdminApiError Nat := do
  let signal ← orError signal.asObject .validation
  let source ← orError (strField signal "source") .validation
  let key ← orError (strField signal "key") .validation
  let matcher ← orError (strField signal "match") .validation
  let expected := strField signal "value"
  if fixture.any fun item => item.source == source && eqIgnoreAsciiCase item.key key &&
      matchesDynamic item.value matcher expected then do
    let weight ← orError (u8Field signal "weight") .validation
    .ok (addWeight confidence weight)
  else .ok confidence

/-- The confidence and the threshold. -/
def evaluateRuleFixture (regexes : RegexCrate) (definition : Json)
    (fixture : List RuleFixtureSignal) : Except AdminApiError (Nat × Nat) := do
  validateRuleDefinition regexes definition
  let object ← orError definition.asObject .validation
  let threshold ← orError (u8Field object "threshold") .validation
  let signals ← orError ((object.lookup "signals".toList).bind Json.asArray) .validation
  let confidence ← signals.foldlM (scoreFixtureSignal fixture) 0
  .ok (confidence, threshold)

end Fixture

end TechAtlas.Rules
