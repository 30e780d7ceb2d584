import TechAtlas.Acquisition.Robots
import TechAtlas.Library.Transition

set_option autoImplicit false

/- The groups of a robots.txt document as the standard reads them, where a rule
without a value still ends the run of agents before it, and the documents on
which dropping such rules gives an agent another one's rules. -/
namespace TechAtlas.Acquisition

open Library

section Standard

inductive RobotsLine
  | agent (name : Text)
  | rule (rule : RobotsRule)
  | other
  deriving DecidableEq, Repr

/-- What a line of an accepted document says: comments, blank lines and unknown
fields say nothing. -/
def RobotsLine.ofRaw (rawLine : Text) : RobotsLine :=
  match splitOnce [':'] (trim (rawLine.takeWhile (· != '#'))) with
  | none => .other
  | some (name, value) =>
      let field := asciiLowercase (trim name)
      if field = "user-agent".toList then .agent (asciiLowercase (trim value))
      else if field = "allow".toList ∨ field = "disallow".toList then
        .rule ⟨trim value, field == "allow".toList⟩
      else .other

/-- An agent line after a rule, whatever its value, starts the next group. -/
def GroupsSoFar.addLine (state : GroupsSoFar) : RobotsLine → GroupsSoFar
  | .agent name => state.addAgent name
  | .rule rule =>
      match state.current with
      | none => state
      | some group => { state with current := some { group with rules := group.rules ++ [rule] } }
  | .other => state

def GroupsSoFar.all (state : GroupsSoFar) : List RobotsGroup :=
  state.groups ++ state.current.toList

def standardGroups (document : Text) : List RobotsGroup :=
  (((lines document).map RobotsLine.ofRaw).foldl GroupsSoFar.addLine ⟨[], none⟩).all

/-- The rules that have a value. -/
def RobotsGroup.valued (group : RobotsGroup) : List RobotsRule :=
  group.rules.filter fun rule => !rule.pattern.isEmpty

def RobotsGroup.names (group : RobotsGroup) (agent : Text) : Bool := group.agents.contains agent

/-- The agent, where a group names it, and else the star. -/
def applicableAgent (groups : List RobotsGroup) (agent : Text) : Text :=
  if groups.any fun group => group.names agent then agent else ['*']

def rulesFor (agent : Text) (groups : List RobotsGroup) : List RobotsRule :=
  (groups.filter fun group => group.names agent).flatMap RobotsGroup.valued

/-- The rules that the standard applies to an agent. -/
def standardRules (userAgent document : Text) : List RobotsRule :=
  rulesFor (applicableAgent (standardGroups document) (asciiLowercase (trim userAgent)))
    (standardGroups document)

end Standard

section Grouping

def RobotsGroup.lines (group : RobotsGroup) : List RobotsLine :=
  group.agents.map .agent ++ group.rules.map .rule

/-- The groups are the lines cut where an agent follows a rule. -/
structure IsGrouping (said : List RobotsLine) (state : GroupsSoFar) : Prop where
  covers : said.filter (· != .other) = state.all.flatMap RobotsGroup.lines
  agents : ∀ group ∈ state.all, group.agents ≠ []
  rules : ∀ group ∈ state.groups, group.rules ≠ []

theorem IsGrouping.other {said : List RobotsLine} {state : GroupsSoFar}
    (grouping : IsGrouping said state) : IsGrouping (said ++ [.other]) state := by
  refine ⟨?_, grouping.agents, grouping.rules⟩
  rw [List.filter_append, grouping.covers]
  exact List.append_nil _

theorem IsGrouping.addAgent {said : List RobotsLine} {state : GroupsSoFar}
    (grouping : IsGrouping said state) (name : Text) :
    IsGrouping (said ++ [.agent name]) (state.addAgent name) := by
  obtain ⟨groups, current⟩ := state
  have start : (⟨[name], []⟩ : RobotsGroup).lines = [.agent name] := rfl
  have said' : [RobotsLine.agent name].filter (· != .other) = [.agent name] := rfl
  have covers := grouping.covers
  have agents := grouping.agents
  cases current with
  | none =>
      have none : groups ++ (Option.none : Option RobotsGroup).toList = groups := List.append_nil _
      simp only [GroupsSoFar.all, none] at covers agents
      refine ⟨?_, ?_, grouping.rules⟩
      · simp only [GroupsSoFar.addAgent, GroupsSoFar.all, Option.toList_some, List.flatMap_append,
          List.flatMap_cons, List.flatMap_nil, List.append_nil, List.filter_append, covers, start,
          said']
      · intro group member
        simp only [GroupsSoFar.addAgent, GroupsSoFar.all, Option.toList_some, List.mem_append,
          List.mem_singleton] at member
        rcases member with old | rfl
        · exact agents group old
        · exact List.cons_ne_nil _ _
  | some group =>
      simp only [GroupsSoFar.all, Option.toList_some, List.flatMap_append, List.flatMap_cons,
        List.flatMap_nil, List.append_nil, List.mem_append, List.mem_singleton] at covers agents
      by_cases empty : group.rules = []
      · have same : (⟨groups, some group⟩ : GroupsSoFar).addAgent name =
            ⟨groups, some { group with agents := group.agents ++ [name] }⟩ := if_pos empty
        rw [same]
        refine ⟨?_, ?_, grouping.rules⟩
        · rw [List.filter_append, covers, said']
          simp [GroupsSoFar.all, RobotsGroup.lines, empty]
        · intro other member
          simp only [GroupsSoFar.all, Option.toList_some, List.mem_append,
            List.mem_singleton] at member
          rcases member with old | rfl
          · exact agents other (Or.inl old)
          · simp
      · have same : (⟨groups, some group⟩ : GroupsSoFar).addAgent name =
            ⟨groups ++ [group], some ⟨[name], []⟩⟩ := if_neg empty
        rw [same]
        refine ⟨?_, ?_, ?_⟩
        · rw [List.filter_append, covers, said']
          simp [GroupsSoFar.all, start]
        · intro other member
          simp only [GroupsSoFar.all, Option.toList_some, List.mem_append,
            List.mem_singleton] at member
          rcases member with old | rfl
          · exact agents other old
          · exact List.cons_ne_nil _ _
        · intro other member
          rcases List.mem_append.mp member with old | new
          · exact grouping.rules other old
          · rw [List.mem_singleton.mp new]
            exact empty

theorem IsGrouping.addRule {said : List RobotsLine} {groups : List RobotsGroup}
    {group : RobotsGroup} (grouping : IsGrouping said ⟨groups, some group⟩) (rule : RobotsRule) :
    IsGrouping (said ++ [.rule rule])
      ⟨groups, some { group with rules := group.rules ++ [rule] }⟩ := by
  refine ⟨?_, ?_, grouping.rules⟩
  · rw [List.filter_append, grouping.covers]
    simp [GroupsSoFar.all, RobotsGroup.lines]
  · intro other member
    simp only [GroupsSoFar.all, Option.toList_some, List.mem_append, List.mem_singleton] at member
    rcases member with old | rfl
    · exact grouping.agents other (List.mem_append_left _ old)
    · exact grouping.agents group (List.mem_append_right _ (List.mem_singleton_self group))

end Grouping

section Absorption

/-- A group whose rules all lack a value is carried over into the next one, with
the agents that were carried over so far. -/
def absorb (state : List RobotsGroup × List Text) (group : RobotsGroup) :
    List RobotsGroup × List Text :=
  if group.valued = [] then (state.1, state.2 ++ group.agents)
  else (state.1 ++ [⟨state.2 ++ group.agents, group.valued⟩], [])

def absorbAll (groups : List RobotsGroup) : List RobotsGroup × List Text :=
  groups.foldl absorb ([], [])

/-- The reader's state next to the standard's. -/
inductive Tracks : GroupsSoFar → GroupsSoFar → Prop
  | start : Tracks ⟨[], none⟩ ⟨[], none⟩
  | reading (groups : List RobotsGroup) (group : RobotsGroup) :
      Tracks ⟨(absorbAll groups).1, some ⟨(absorbAll groups).2 ++ group.agents, group.valued⟩⟩
        ⟨groups, some group⟩

theorem absorbAll_concat (groups : List RobotsGroup) (group : RobotsGroup) :
    absorbAll (groups ++ [group]) = absorb (absorbAll groups) group :=
  List.foldl_append

theorem Tracks.addAgent {read standard : GroupsSoFar} (tracks : Tracks read standard)
    (name : Text) : Tracks (read.addAgent name) (standard.addAgent name) := by
  cases tracks with
  | start => exact .reading [] ⟨[name], []⟩
  | reading groups group =>
      by_cases empty : group.rules = []
      · have valued : group.valued = [] := by rw [RobotsGroup.valued, empty]; rfl
        have own : GroupsSoFar.addAgent ⟨groups, some group⟩ name =
            ⟨groups, some { group with agents := group.agents ++ [name] }⟩ := if_pos empty
        rw [own, valued]
        change Tracks ⟨_, some ⟨(absorbAll groups).2 ++ group.agents ++ [name], []⟩⟩ _
        rw [List.append_assoc, ← valued]
        exact .reading groups { group with agents := group.agents ++ [name] }
      · have own : GroupsSoFar.addAgent ⟨groups, some group⟩ name =
            ⟨groups ++ [group], some ⟨[name], []⟩⟩ := if_neg empty
        rw [own]
        have next := Tracks.reading (groups ++ [group]) ⟨[name], []⟩
        rw [absorbAll_concat, absorb] at next
        by_cases valued : group.valued = []
        · rw [if_pos valued] at next
          rw [valued]
          exact next
        · rw [if_neg valued] at next
          have closed : GroupsSoFar.addAgent ⟨(absorbAll groups).1,
              some ⟨(absorbAll groups).2 ++ group.agents, group.valued⟩⟩ name =
            ⟨(absorbAll groups).1 ++ [⟨(absorbAll groups).2 ++ group.agents, group.valued⟩],
              some ⟨[name], []⟩⟩ := if_neg valued
          rw [closed]
          exact next

theorem Tracks.addRule {groups : List RobotsGroup} {group : RobotsGroup} (rule : RobotsRule) :
    Tracks (GroupsSoFar.addRule ⟨(absorbAll groups).1,
        some ⟨(absorbAll groups).2 ++ group.agents, group.valued⟩⟩
        ⟨(absorbAll groups).2 ++ group.agents, group.valued⟩ rule)
      ⟨groups, some { group with rules := group.rules ++ [rule] }⟩ := by
  have next := Tracks.reading groups { group with rules := group.rules ++ [rule] }
  unfold GroupsSoFar.addRule
  by_cases empty : rule.pattern = []
  · rw [if_pos empty]
    have same : RobotsGroup.valued { group with rules := group.rules ++ [rule] } = group.valued := by
      simp [RobotsGroup.valued, empty]
    rw [same] at next
    exact next
  · rw [if_neg empty]
    have same : RobotsGroup.valued { group with rules := group.rules ++ [rule] } =
        group.valued ++ [rule] := by
      simp [RobotsGroup.valued, empty]
    rw [same] at next
    exact next

/-- Reading one line keeps both views of the document in step. -/
theorem readLine_tracks {read after standard : GroupsSoFar} {said : List RobotsLine} {number : Nat}
    {rawLine : Text} (success : read.readLine number rawLine = .ok after)
    (tracks : Tracks read standard) (grouping : IsGrouping said standard) :
    Tracks after (standard.addLine (RobotsLine.ofRaw rawLine)) ∧
      IsGrouping (said ++ [RobotsLine.ofRaw rawLine])
        (standard.addLine (RobotsLine.ofRaw rawLine)) := by
  dsimp only [GroupsSoFar.readLine] at success
  dsimp only [RobotsLine.ofRaw]
  by_cases blank : trim (rawLine.takeWhile (· != '#')) = []
  · rw [if_pos blank] at success
    rw [blank]
    cases success
    exact ⟨tracks, grouping.other⟩
  · rw [if_neg blank] at success
    cases split : splitOnce [':'] (trim (rawLine.takeWhile (· != '#'))) with
    | none =>
        rw [split] at success
        cases success
    | some parts =>
        obtain ⟨name, value⟩ := parts
        rw [split] at success
        dsimp only at success ⊢
        by_cases agent : asciiLowercase (trim name) = "user-agent".toList
        · rw [if_pos agent] at success ⊢
          split at success
          · cases success
          · cases success
            exact ⟨tracks.addAgent _, grouping.addAgent _⟩
        · rw [if_neg agent] at success ⊢
          by_cases field : asciiLowercase (trim name) = "allow".toList ∨
              asciiLowercase (trim name) = "disallow".toList
          · rw [if_pos field] at success ⊢
            cases tracks with
            | start => cases success
            | reading groups group =>
                cases success
                exact ⟨Tracks.addRule _, grouping.addRule _⟩
          · rw [if_neg field] at success ⊢
            cases success
            exact ⟨tracks, grouping.other⟩

theorem readLines_tracks {read after standard : GroupsSoFar} {said : List RobotsLine} {number : Nat}
    {rawLines : List Text} (success : readLines read number rawLines = .ok after)
    (tracks : Tracks read standard) (grouping : IsGrouping said standard) :
    Tracks after ((rawLines.map RobotsLine.ofRaw).foldl GroupsSoFar.addLine standard) ∧
      IsGrouping (said ++ rawLines.map RobotsLine.ofRaw)
        ((rawLines.map RobotsLine.ofRaw).foldl GroupsSoFar.addLine standard) := by
  induction rawLines generalizing read standard said number with
  | nil =>
      cases success
      rw [List.map_nil, List.append_nil]
      exact ⟨tracks, grouping⟩
  | cons rawLine rest ih =>
      obtain ⟨mid, first, later⟩ := bind_eq_ok.mp success
      obtain ⟨kept, grouped⟩ := readLine_tracks first tracks grouping
      have others := ih later kept grouped
      rw [List.append_assoc] at others
      exact others

end Absorption

section Selection

/-- The rules that the groups that were read hold for an agent: a group without a
value adds none, the last one included. -/
def absorbedRules (agent : Text) (carried : List Text) : List RobotsGroup → List RobotsRule
  | [] => []
  | group :: rest =>
      if group.valued = [] then absorbedRules agent (carried ++ group.agents) rest
      else (if (carried ++ group.agents).contains agent then group.valued else []) ++
        absorbedRules agent [] rest

theorem valued_valued (agents : List Text) (group : RobotsGroup) :
    RobotsGroup.valued ⟨agents, group.valued⟩ = group.valued := by
  simp [RobotsGroup.valued]

theorem rulesFor_append (agent : Text) (first second : List RobotsGroup) :
    rulesFor agent (first ++ second) = rulesFor agent first ++ rulesFor agent second := by
  simp [rulesFor]

theorem rulesFor_cons (agent : Text) (group : RobotsGroup) (rest : List RobotsGroup) :
    rulesFor agent (group :: rest) =
      (if group.agents.contains agent then group.valued else []) ++ rulesFor agent rest := by
  by_cases named : group.names agent = true
  · have inAgents : group.agents.contains agent = true := named
    rw [if_pos inAgents, rulesFor, List.filter_cons, if_pos named]
    rfl
  · have notInAgents : ¬ group.agents.contains agent = true := named
    rw [if_neg notInAgents, rulesFor, List.filter_cons, if_neg named]
    rfl

theorem rulesFor_absorb (agent : Text) (groups : List RobotsGroup)
    (state : List RobotsGroup × List Text) :
    rulesFor agent (groups.foldl absorb state).1 =
      rulesFor agent state.1 ++ absorbedRules agent state.2 groups := by
  induction groups generalizing state with
  | nil => exact (List.append_nil _).symm
  | cons group rest ih =>
      rw [List.foldl_cons, ih, absorb, absorbedRules]
      by_cases empty : group.valued = []
      · rw [if_pos empty, if_pos empty]
      · rw [if_neg empty, if_neg empty]
        dsimp only
        rw [rulesFor_append, rulesFor_cons, valued_valued, List.append_assoc]
        simp [rulesFor]

/-- A group that names the agent and has no rule with a value is followed by one
that names the agent as well, if a later group has such a rule: the next one
that has. -/
def Separate (agent : Text) : List RobotsGroup → Prop
  | [] => True
  | group :: rest =>
      (group.names agent = true → group.valued = [] →
        ∀ next, rest.find? (fun other => !other.valued.isEmpty) = some next →
          next.names agent = true) ∧
        Separate agent rest

theorem rulesFor_length_le (agent : Text) (carried : List Text) (groups : List RobotsGroup) :
    (rulesFor agent groups).length ≤ (absorbedRules agent carried groups).length := by
  induction groups generalizing carried with
  | nil => exact Nat.le_refl 0
  | cons group rest ih =>
      rw [rulesFor_cons, absorbedRules]
      by_cases empty : group.valued = []
      · rw [if_pos empty, empty, ite_self, List.nil_append]
        exact ih _
      · rw [if_neg empty, List.length_append, List.length_append]
        have others := ih []
        by_cases named : group.agents.contains agent = true
        · have carriedToo : (carried ++ group.agents).contains agent = true := by
            rw [List.contains_iff_mem] at named ⊢
            exact List.mem_append_right _ named
          rw [if_pos named, if_pos carriedToo]
          omega
        · rw [if_neg named, List.length_nil]
          omega

/-- Nothing is added to an agent's rules exactly where the groups are separate,
for the agents carried over as well. -/
theorem absorbedRules_eq_iff (agent : Text) (carried : List Text) (groups : List RobotsGroup) :
    absorbedRules agent carried groups = rulesFor agent groups ↔
      (agent ∈ carried → ∀ next, groups.find? (fun other => !other.valued.isEmpty) = some next →
        next.names agent = true) ∧ Separate agent groups := by
  induction groups generalizing carried with
  | nil => simp [absorbedRules, rulesFor, Separate]
  | cons group rest ih =>
      rw [rulesFor_cons, absorbedRules, Separate]
      by_cases empty : group.valued = []
      · have skipped : (group :: rest).find? (fun other => !other.valued.isEmpty) =
            rest.find? (fun other => !other.valued.isEmpty) := by
          rw [List.find?_cons, empty]
          rfl
        rw [if_pos empty, empty, ite_self, List.nil_append, ih, skipped]
        simp only [List.mem_append, RobotsGroup.names, List.contains_iff_mem, forall_const]
        tauto
      · have found : (group :: rest).find? (fun other => !other.valued.isEmpty) = some group := by
          rw [List.find?_cons, List.isEmpty_eq_false_iff.mpr empty]
          rfl
        rw [if_neg empty, found]
        have others := ih []
        have longer := rulesFor_length_le agent [] rest
        by_cases named : group.agents.contains agent = true
        · have carriedToo : (carried ++ group.agents).contains agent = true := by
            rw [List.contains_iff_mem] at named ⊢
            exact List.mem_append_right _ named
          rw [if_pos named, if_pos carriedToo, List.append_cancel_left_eq, others]
          simp [RobotsGroup.names, List.contains_iff_mem.mp named, empty]
        · rw [if_neg named, List.nil_append]
          by_cases inCarried : agent ∈ carried
          · have carriedToo : (carried ++ group.agents).contains agent = true := by
              rw [List.contains_iff_mem]
              exact List.mem_append_left _ inCarried
            rw [if_pos carriedToo]
            constructor
            · intro same
              have lengths := congrArg List.length same
              rw [List.length_append] at lengths
              have present := List.length_pos_of_ne_nil empty
              omega
            · rintro ⟨kept, _⟩
              exact absurd (kept inCarried group rfl) named
          · have carriedToo : ¬ (carried ++ group.agents).contains agent = true := by
              rw [List.contains_iff_mem] at named ⊢
              rw [List.mem_append, not_or]
              exact ⟨inCarried, named⟩
            rw [if_neg carriedToo, List.nil_append, others]
            simp [inCarried, empty]

end Selection

section Policy

/-- The groups that are read hold the standard's agents, and its rules but for the
carried ones. -/
structure IsReading (groups : List RobotsGroup) (standard : List RobotsGroup) : Prop where
  agents : groups.flatMap RobotsGroup.agents = standard.flatMap RobotsGroup.agents
  rules : ∀ agent, (groups.filter fun group => group.names agent).flatMap RobotsGroup.rules =
    absorbedRules agent [] standard

theorem absorbAll_agents (groups : List RobotsGroup) (state : List RobotsGroup × List Text) :
    (groups.foldl absorb state).1.flatMap RobotsGroup.agents ++ (groups.foldl absorb state).2 =
      state.1.flatMap RobotsGroup.agents ++ state.2 ++ groups.flatMap RobotsGroup.agents := by
  induction groups generalizing state with
  | nil => exact (List.append_nil _).symm
  | cons group rest ih =>
      rw [List.foldl_cons, ih, absorb]
      by_cases empty : group.valued = []
      · rw [if_pos empty]
        simp
      · rw [if_neg empty]
        simp

/-- Every rule that was read has a value. -/
theorem absorbAll_rules (groups : List RobotsGroup) (state : List RobotsGroup × List Text)
    (kept : ∀ group ∈ state.1, group.valued = group.rules) :
    ∀ group ∈ (groups.foldl absorb state).1, group.valued = group.rules := by
  induction groups generalizing state with
  | nil => exact kept
  | cons group rest ih =>
      apply ih
      rw [absorb]
      by_cases empty : group.valued = []
      · rw [if_pos empty]
        exact kept
      · rw [if_neg empty]
        intro other member
        rcases List.mem_append.mp member with old | new
        · exact kept other old
        · rw [List.mem_singleton.mp new, valued_valued]

theorem flatMap_rules {agent : Text} {groups : List RobotsGroup}
    (kept : ∀ group ∈ groups, group.valued = group.rules) :
    (groups.filter fun group => group.names agent).flatMap RobotsGroup.rules =
      rulesFor agent groups := by
  apply List.flatMap_congr
  intro group member
  exact (kept group (List.mem_of_mem_filter member)).symm

theorem Tracks.isReading {read standard : GroupsSoFar} (tracks : Tracks read standard) :
    IsReading read.all standard.all := by
  cases tracks with
  | start => exact ⟨rfl, fun _ => rfl⟩
  | reading groups group =>
      have agents := absorbAll_agents groups ([], [])
      have kept := absorbAll_rules groups ([], []) (by simp)
      have carried : (absorbAll (groups ++ [group])) = absorb (absorbAll groups) group :=
        absorbAll_concat groups group
      constructor
      · simp only [GroupsSoFar.all, Option.toList_some, List.flatMap_append, List.flatMap_cons,
          List.flatMap_nil, List.append_nil]
        rw [← List.append_assoc]
        exact congrArg (· ++ group.agents) agents
      · intro agent
        have all : ∀ other ∈ GroupsSoFar.all ⟨(absorbAll groups).1,
            some ⟨(absorbAll groups).2 ++ group.agents, group.valued⟩⟩,
            other.valued = other.rules := by
          intro other member
          rcases List.mem_append.mp member with old | new
          · exact kept other old
          · rw [List.mem_singleton.mp new, valued_valued]
        rw [flatMap_rules all]
        have whole := rulesFor_absorb agent (groups ++ [group]) ([], [])
        change rulesFor agent (absorbAll (groups ++ [group])).1 = _ at whole
        rw [carried, absorb] at whole
        change _ = absorbedRules agent [] (groups ++ [group])
        have start : rulesFor agent [] = [] := rfl
        simp only [start, List.nil_append] at whole
        rw [← whole]
        change rulesFor agent ((absorbAll groups).1 ++ [_]) = _
        by_cases empty : group.valued = []
        · rw [if_pos empty, rulesFor_append, rulesFor_cons, valued_valued, empty, ite_self]
          exact List.append_nil _
        · rw [if_neg empty]

theorem any_names {left right : List RobotsGroup}
    (same : left.flatMap RobotsGroup.agents = right.flatMap RobotsGroup.agents) (agent : Text) :
    (left.any fun group => group.names agent) = right.any fun group => group.names agent := by
  have each : ∀ groups : List RobotsGroup, (groups.any fun group => group.names agent) =
      (groups.flatMap RobotsGroup.agents).contains agent := by
    intro groups
    rw [Bool.eq_iff_iff, List.any_eq_true, List.contains_iff_mem, List.mem_flatMap]
    simp only [RobotsGroup.names, List.contains_iff_mem]
  rw [each, each, same]

theorem parseRobotsGroups_isReading {document : Text} {groups : List RobotsGroup}
    (accepted : parseRobotsGroups document = .ok groups) :
    IsReading groups (standardGroups document) ∧
      ∃ standard : GroupsSoFar, standard.all = standardGroups document ∧
        IsGrouping ((lines document).map RobotsLine.ofRaw) standard := by
  obtain ⟨state, success, same⟩ := bind_eq_ok.mp accepted
  have empty : IsGrouping [] ⟨[], none⟩ := ⟨rfl, by simp [GroupsSoFar.all], by simp⟩
  obtain ⟨tracks, grouping⟩ := readLines_tracks success .start empty
  rw [← Except.ok.inj same]
  exact ⟨tracks.isReading, _, rfl, grouping⟩

/-- The rules of the policy that is parsed, for an agent that is not blank. -/
theorem parse_eq_ok {userAgent document : Text} {groups : List RobotsGroup}
    (accepted : parseRobotsGroups document = .ok groups) (present : trim userAgent ≠ []) :
    RobotsPolicy.parse userAgent document = .ok ⟨absorbedRules
      (applicableAgent (standardGroups document) (asciiLowercase (trim userAgent))) []
      (standardGroups document)⟩ := by
  have reading := (parseRobotsGroups_isReading accepted).1
  unfold RobotsPolicy.parse
  rw [if_neg present]
  refine bind_eq_ok.mpr ⟨groups, accepted, ?_⟩
  dsimp only
  apply congrArg (fun rules => Except.ok (RobotsPolicy.mk rules))
  rw [← reading.rules, applicableAgent, ← any_names reading.agents]
  by_cases named : (groups.any fun group =>
      group.names (asciiLowercase (trim userAgent))) = true
  · rw [if_pos named]
    obtain ⟨group, member, own⟩ := List.any_eq_true.mp named
    have some : (groups.filter fun group =>
        group.agents.contains (asciiLowercase (trim userAgent))) ≠ [] :=
      List.ne_nil_of_mem (List.mem_filter.mpr ⟨member, own⟩)
    rw [if_neg some]
    rfl
  · rw [if_neg named]
    have none : (groups.filter fun group =>
        group.agents.contains (asciiLowercase (trim userAgent))) = [] := by
      rw [List.filter_eq_nil_iff]
      intro group member own
      exact named (List.any_eq_true.mpr ⟨group, member, own⟩)
    rw [if_pos none]
    rfl

/-- A blank user agent is refused. For any other one the policy holds the rules of
the standard exactly where the groups of the document are separate for the agent
they are looked up by. -/
theorem parse_standard {document : Text} {groups : List RobotsGroup}
    (accepted : parseRobotsGroups document = .ok groups) (userAgent : Text) :
    (trim userAgent = [] ∧ RobotsPolicy.parse userAgent document = .error .emptyUserAgent) ∨
      ∃ policy, RobotsPolicy.parse userAgent document = .ok policy ∧
        (policy.rules = standardRules userAgent document ↔
          Separate (applicableAgent (standardGroups document) (asciiLowercase (trim userAgent)))
            (standardGroups document)) := by
  by_cases blank : trim userAgent = []
  · exact Or.inl ⟨blank, if_pos blank⟩
  · refine Or.inr ⟨_, parse_eq_ok accepted blank, ?_⟩
    rw [standardRules, absorbedRules_eq_iff]
    simp

/-- One crawler is let in, and every other one is kept out. -/
def welcomeDocument : Text :=
  "User-agent: techatlas
Disallow:

User-agent: *
Disallow: /".toList

theorem parse_standard_welcome : ∃ policy,
    RobotsPolicy.parse "TechAtlas".toList welcomeDocument = .ok policy ∧
      (policy.rules = standardRules "TechAtlas".toList welcomeDocument ↔
        Separate "techatlas".toList (standardGroups welcomeDocument)) := by
  have accepted : parseRobotsGroups welcomeDocument =
      .ok [⟨["techatlas".toList, "*".toList], [⟨"/".toList, false⟩]⟩] := by decide +kernel
  have token : applicableAgent (standardGroups welcomeDocument)
      (asciiLowercase (trim "TechAtlas".toList)) = "techatlas".toList := by decide +kernel
  rcases parse_standard accepted "TechAtlas".toList with ⟨blank, _⟩ | ⟨policy, success, same⟩
  · exact absurd blank (by decide)
  · rw [token] at same
    exact ⟨policy, success, same⟩

/-- The crawler that is let in is denied everything. -/
theorem parse_welcome_differs :
    ¬ ∀ userAgent document groups policy, parseRobotsGroups document = .ok groups →
      RobotsPolicy.parse userAgent document = .ok policy →
      policy.rules = standardRules userAgent document := by
  intro always
  have accepted : parseRobotsGroups welcomeDocument =
      .ok [⟨["techatlas".toList, "*".toList], [⟨"/".toList, false⟩]⟩] := by decide +kernel
  have parsed : RobotsPolicy.parse "TechAtlas".toList welcomeDocument =
      .ok ⟨[⟨"/".toList, false⟩]⟩ := by decide +kernel
  have standard : standardRules "TechAtlas".toList welcomeDocument = [] := by decide +kernel
  have same := always _ _ _ _ accepted parsed
  rw [standard] at same
  cases same

end Policy

end TechAtlas.Acquisition
