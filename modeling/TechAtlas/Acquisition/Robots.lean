import TechAtlas.Url

set_option autoImplicit false

/- robots.txt: the groups of a document, the rules that apply to one agent and
what they allow. -/
namespace TechAtlas.Acquisition

open Library

inductive RobotsParseError
  | emptyUserAgent
  | invalidDirective (line : Nat)
  | emptyAgent (line : Nat)
  | ruleBeforeAgent (line : Nat)
  deriving DecidableEq, Repr

def RobotsParseError.message : RobotsParseError → Text
  | .emptyUserAgent => "robots user agent must not be empty".toList
  | .invalidDirective line =>
      "robots directive on line ".toList ++ (toString line).toList ++ " is missing ':'".toList
  | .emptyAgent line =>
      "robots user-agent on line ".toList ++ (toString line).toList ++ " is empty".toList
  | .ruleBeforeAgent line =>
      "robots allow/disallow rule on line ".toList ++ (toString line).toList ++
        " appears before a user-agent".toList

structure RobotsRule where
  pattern : Text
  allow : Bool
  deriving DecidableEq, Repr

structure RobotsGroup where
  agents : List Text
  rules : List RobotsRule
  deriving DecidableEq, Repr

structure RobotsPolicy where
  rules : List RobotsRule
  deriving DecidableEq, Repr

section Groups

/-- The finished groups and the one that lines are added to. -/
structure GroupsSoFar where
  groups : List RobotsGroup
  current : Option RobotsGroup

/-- A `user-agent` line after a rule starts the next group. -/
def GroupsSoFar.addAgent (state : GroupsSoFar) (agent : Text) : GroupsSoFar :=
  match state.current with
  | none => { state with current := some ⟨[agent], []⟩ }
  | some group =>
      if group.rules = [] then
        { state with current := some { group with agents := group.agents ++ [agent] } }
      else ⟨state.groups ++ [group], some ⟨[agent], []⟩⟩

def GroupsSoFar.addRule (state : GroupsSoFar) (group : RobotsGroup) (rule : RobotsRule) :
    GroupsSoFar :=
  if rule.pattern = [] then state
  else { state with current := some { group with rules := group.rules ++ [rule] } }

/-- One line of the document, without its comment. -/
def GroupsSoFar.readLine (state : GroupsSoFar) (number : Nat) (rawLine : Text) :
    Except RobotsParseError GroupsSoFar :=
  let line := trim (rawLine.takeWhile (· != '#'))
  if line = [] then .ok state
  else
    match splitOnce [':'] line with
    | none => .error (.invalidDirective number)
    | some (name, value) =>
        let field := asciiLowercase (trim name)
        let value := trim value
        if field = "user-agent".toList then
          if value = [] then .error (.emptyAgent number)
          else .ok (state.addAgent (asciiLowercase value))
        else if field = "allow".toList ∨ field = "disallow".toList then
          match state.current with
          | none => .error (.ruleBeforeAgent number)
          | some group => .ok (state.addRule group ⟨value, field == "allow".toList⟩)
        else .ok state

def readLines (state : GroupsSoFar) : Nat → List Text → Except RobotsParseError GroupsSoFar
  | _, [] => .ok state
  | number, line :: rest => do
      let state ← state.readLine number line
      readLines state (number + 1) rest

def parseRobotsGroups (document : Text) : Except RobotsParseError (List RobotsGroup) := do
  let state ← readLines ⟨[], none⟩ 1 (lines document)
  return state.groups ++ state.current.toList

end Groups

section Policy

def RobotsPolicy.allowAll : RobotsPolicy := ⟨[]⟩

/-- The rules of the groups that name the agent, or else of the groups for `*`. -/
def RobotsPolicy.parse (userAgent document : Text) : Except RobotsParseError RobotsPolicy :=
  if trim userAgent = [] then .error .emptyUserAgent
  else do
    let groups ← parseRobotsGroups document
    let agent := asciiLowercase (trim userAgent)
    let specific := groups.filter fun group => group.agents.contains agent
    let matching := if specific = [] then
      groups.filter fun group => group.agents.contains ['*'] else specific
    return ⟨matching.flatMap RobotsGroup.rules⟩

/-- What is left of the path after the segments between the stars; the first
segment starts where the path does. -/
def matchSegments : Bool → List Text → Text → Option Text
  | _, [], rest => some rest
  | first, segment :: segments, rest =>
      if segment = [] then matchSegments false segments rest
      else if first then
        if segment.isPrefixOf rest then matchSegments false segments (rest.drop segment.length)
        else none
      else
        match splitOnce segment rest with
        | none => none
        | some (_, after) => matchSegments false segments after

def robotsPatternMatches (pattern path : Text) : Bool :=
  let anchored := pattern.getLast? = some '$'
  let pattern := stripLast '$' pattern
  match matchSegments true (pattern.splitOn '*') path with
  | none => false
  | some rest => !anchored || pattern.getLast? == some '*' || rest.isEmpty

def RobotsRule.specificity (rule : RobotsRule) : Nat :=
  (rule.pattern.filter fun c => c != '*' && c != '$').length

/-- Whether the rule replaces the winner so far: more specific, or as specific
and allowing what the winner denies. -/
def RobotsRule.beats (rule : RobotsRule) : Option (Nat × Bool) → Bool
  | none => true
  | some (specificity, allow) =>
      decide (specificity < rule.specificity) ||
        (rule.specificity == specificity && rule.allow && !allow)

def robotsPath (target : CrawlUrl) : Text :=
  match target.url.query with
  | none => target.url.path
  | some query => target.url.path ++ '?' :: query

def RobotsPolicy.winner (policy : RobotsPolicy) (path : Text) : Option (Nat × Bool) :=
  policy.rules.foldl (fun winner rule =>
    if robotsPatternMatches rule.pattern path && rule.beats winner then
      some (rule.specificity, rule.allow)
    else winner) none

def RobotsPolicy.allows (policy : RobotsPolicy) (target : CrawlUrl) : Bool :=
  match policy.winner (robotsPath target) with
  | none => true
  | some (_, allow) => allow

example : ((RobotsPolicy.parse "TechAtlas".toList
    "User-agent: *\nDisallow: /private # all of it\nAllow: /private/open$".toList).map fun policy =>
      (["/", "/private/x", "/private/open"].map fun path =>
        (policy.winner path.toList).all Prod.snd)) = .ok [true, false, true] := by
  decide

end Policy

end TechAtlas.Acquisition
