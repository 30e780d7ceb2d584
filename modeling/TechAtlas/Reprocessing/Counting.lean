import TechAtlas.Reprocessing.Commits

set_option autoImplicit false

/- Which of the record calls of a run counts its items last, and what becomes of the run. -/
namespace TechAtlas.Reprocessing

open Library TechAtlas.Detector TechAtlas.Store TechAtlas.Storage

section Steps

variable {db : Database} {session : Session}

/-- The transaction after it has counted the items of its run. -/
def Session.counted (tables : Tables) (session : Session) : Session :=
  { session with
    phase := .refreshing ((session.written tables).countItems session.runId) }

/-- What the next statement of a transaction makes of the database. -/
inductive Database.Advanced (db : Database) (session : Session) : Database → Prop
  | rolledBack (notCounting : session.phase.isCounting = false) :
      db.Advanced session (db.close session.work.id db.tables)
  | counted (phase : session.phase = .writing []) :
      db.Advanced session { db with
        sessions := replaceSession session (session.counted db.tables) db.sessions }
  | stepped (after : Tables) (next : Session) (steps : session.Steps db.tables after next)
      (notCounting : session.phase.isCounting = false)
      (counts : next.phase.counts = session.phase.counts)
      (rows : session.phase.counts ≠ none → next.rows = session.rows) :
      db.Advanced session { db with
        tables := after
        sessions := replaceSession session next db.sessions }
  | committed (counts : RunCounts) (changes : List VersionChangeRow)
      (phase : session.phase = .committing counts changes) :
      db.Advanced session (db.close session.work.id (session.view db.tables))

theorem advance_advanced (sound : db.Sound) (member : session ∈ db.sessions) :
    db.Advanced session (db.advance session) := by
  have own := sound.sessions session member
  unfold Database.advance Session.execute
  cases phase : session.phase with
  | writing statements =>
      cases statements with
      | nil =>
          have counted := @Database.Advanced.counted db session phase
          unfold Session.counted at counted
          rw [← view_of_writing phase] at counted
          exact counted
      | cons statement rest =>
          dsimp only
          cases success : session.executeRow db.tables rest statement with
          | none => exact .rolledBack (by rw [phase]; rfl)
          | some result =>
              obtain ⟨after, next⟩ := result
              obtain ⟨steps, nextPhase⟩ := executeRow_steps own sound.tables phase success
              apply Database.Advanced.stepped after next steps (by rw [phase]; rfl)
              · rw [nextPhase, phase]
                rfl
              · rw [phase]
                exact fun absent => absurd rfl absent
  | refreshing counts =>
      dsimp only
      cases success : (session.view db.tables).updateRun session.runId counts
          session.completedAt with
      | none => exact .rolledBack (by rw [phase]; rfl)
      | some _ =>
          apply Database.Advanced.stepped _ _ (refresh_steps own phase) (by rw [phase]; rfl)
          · rw [phase]
            dsimp only
            split <;> rfl
          · exact fun _ => rfl
  | «deriving» counts =>
      apply Database.Advanced.stepped _ _ (derive_steps own phase) (by rw [phase]; rfl)
      · rw [phase]
        rfl
      · exact fun _ => rfl
  | committing counts changes => exact .committed counts changes phase

theorem Database.Sound.advanced {after : Database} (sound : db.Sound)
    (member : session ∈ db.sessions) (advanced : db.Advanced session after) : after.Sound := by
  cases advanced with
  | rolledBack _ => exact close_sound sound session.work.id
  | counted phase =>
      apply sound.steps member
      unfold Session.counted
      rw [← view_of_writing phase]
      exact count_steps (sound.sessions session member) phase
  | stepped after next steps _ _ _ => exact sound.steps member steps
  | committed counts changes phase => exact commit_sound sound member phase

theorem Database.Sound.step (sound : db.Sound) (action : Action) : (db.step action).Sound := by
  cases action with
  | publish technologyId rule =>
      exact sound.extended (publish_extends sound.tables.keyed.placed technologyId rule)
  | capture snapshot artifact =>
      exact sound.extended (capture_extends sound.tables.keyed.placed snapshot artifact)
  | start call => exact start_sound sound call
  | claim now =>
      unfold Database.step
      dsimp only
      split
      next after work success => exact claim_sound sound success
      next => exact sound
  | lose itemId => exact lose_sound sound itemId
  | begin itemId report completedAt =>
      unfold Database.step
      dsimp only
      split
      next => exact sound
      next work found =>
        obtain ⟨member, isItem⟩ := find?_eq_some_mem found
        rw [← beq_iff_eq.mp isItem]
        exact begin_sound sound member report completedAt
  | execute itemId =>
      unfold Database.step
      dsimp only
      split
      next => exact sound
      next session found =>
        split
        · exact sound
        · have member := (find?_eq_some_mem found).1
          exact sound.advanced member (advance_advanced sound member)

theorem empty_db_sound (kinds : List String) : (Database.empty kinds).Sound := by
  constructor
  · constructor
    · constructor
      · exact (empty_sound kinds).consistent.placed
      · exact List.nodup_nil
      · exact List.nodup_nil
      · exact fun _ absent => nomatch absent
      · exact fun _ absent => nomatch absent
      · exact fun _ absent => nomatch absent
      · exact fun _ absent => nomatch absent
    · exact List.nodup_nil
    · exact fun _ absent => nomatch absent
    · exact fun _ absent => nomatch absent
    · exact fun _ absent => nomatch absent
    · exact fun _ absent => nomatch absent
    · exact fun _ absent => nomatch absent
    · exact fun _ absent => nomatch absent
  · exact fun _ absent => nomatch absent
  · exact fun _ absent => nomatch absent
  · exact List.nodup_nil
  · exact List.nodup_nil

end Steps

section Counts

/-- The transaction that counts the items of its run in a step. -/
def Database.counting (db : Database) : Action → Option Session
  | .execute itemId =>
      (db.sessions.find? fun session => session.work.id == itemId).filter fun session =>
        session.phase.isCounting
  | _ => none

/-- No open transaction has counted the items of the run. -/
def Database.isUncounted (db : Database) (runId : Uuid) : Bool :=
  db.sessions.all fun session => session.runId != runId || session.phase.counts.isNone

/-- The database and, for each run, whether its items were last counted while no other
open transaction had counted them. -/
structure Watch where
  db : Database
  alone : Uuid → Bool

def Watch.start (kinds : List String) : Watch where
  db := Database.empty kinds
  alone := fun _ => true

def Watch.step (watch : Watch) (action : Action) : Watch where
  db := watch.db.step action
  alone :=
    match watch.db.counting action with
    | none => watch.alone
    | some session =>
        Function.update watch.alone session.runId (watch.db.isUncounted session.runId)

def Watch.after (kinds : List String) (actions : List Action) : Watch :=
  run Watch.step (Watch.start kinds) actions

def lastCountAlone (kinds : List String) (actions : List Action) (runId : Uuid) : Bool :=
  (Watch.after kinds actions).alone runId

/-- A run whose last count was alone is finished with its items. Any other run has been
left `running`. -/
structure Watch.Sound (watch : Watch) : Prop where
  db : watch.db.Sound
  fresh : ∀ runId, watch.db.tables.nextId ≤ runId → watch.alone runId = true
  single : ∀ session ∈ watch.db.sessions, watch.alone session.runId = true →
    session.phase.counts ≠ none → ∀ other ∈ watch.db.sessions, other.runId = session.runId →
      other.phase.counts ≠ none → other.work.id = session.work.id
  exact : ∀ session ∈ watch.db.sessions, watch.alone session.runId = true →
    ∀ counts, session.phase.counts = some counts →
      ((session.written watch.db.tables).countItems session.runId).pending = 0 →
        counts.pending = 0
  finished : ∀ own ∈ watch.db.tables.runs, watch.alone own.id = true →
    (watch.db.tables.countItems own.id).pending = 0 → own.status.isFinished = true
  unfinished : ∀ own ∈ watch.db.tables.runs, watch.alone own.id = false →
    own.status.isFinished = false
  pending : ∀ session ∈ watch.db.sessions, watch.alone session.runId = false →
    ∀ counts, session.phase.counts = some counts → counts.pending ≠ 0

end Counts

section Keeping

variable {watch : Watch} {after : Tables} {session : Session}

theorem Watch.Sound.drawn (sound : watch.Sound) (member : session ∈ watch.db.sessions) :
    session.runId < watch.db.tables.nextId := by
  have own := sound.db.sessions session member
  rw [own.runId]
  exact sound.db.tables.pairDrawn own.held.mem_fanOut

/-- While an item of a run is held, something of the run is pending. -/
theorem WorkItem.Held.pending {tables : Tables} {work : WorkItem} (held : work.Held tables)
    {runId : Uuid} (same : work.runId = runId) : (tables.countItems runId).pending ≠ 0 := by
  intro none
  obtain ⟨item, member, _, sameRun, _, running⟩ := held.item
  have done := countItems_pending_eq_zero.mp none item member (sameRun.trans same)
  rw [running] at done
  cases done

theorem Watch.Sound.extended (sound : watch.Sound) (extended : watch.db.tables.Extends after) :
    ({ watch with db := { watch.db with tables := after } } : Watch).Sound where
  db := sound.db.extended extended
  fresh runId later := sound.fresh runId (le_trans extended.grows.nextId later)
  single := sound.single
  exact session member alone counts counted none := by
    apply sound.exact session member alone counts counted
    have own := sound.db.sessions session member
    rw [← ((extended.sameRun (sound.drawn member)).written own.own).countItems]
    exact none
  finished own member alone none := by
    rcases extended.runs own member with old | ⟨_, _, finished⟩
    · apply sound.finished own old alone
      rw [← (extended.sameRun (sound.db.tables.runDrawn old)).countItems]
      exact none
    · exact finished none
  unfinished own member shared := by
    rcases extended.runs own member with old | ⟨id, _, _⟩
    · exact sound.unfinished own old shared
    · have alone := sound.fresh own.id (le_of_eq id.symm)
      rw [alone] at shared
      cases shared
  pending := sound.pending

theorem Watch.Sound.claim (sound : watch.Sound) {now : Time} {work : WorkItem}
    (success : claimNextReprocessingItem watch.db.tables now = .ok (after, some work)) :
    ({ watch with
      db := { watch.db with tables := after, live := watch.db.live ++ [work] } } : Watch).Sound := by
  obtain ⟨row, claimed⟩ := claim_claimed success
  have untouched := claim_untouched success
  have unique := sound.db.tables.keyed.placed.ids
  have dbSound := claim_sound sound.db success
  have held : work.Held after := claimed.held untouched (claim_rule success)
  have runs : ∀ own ∈ after.runs, own ∈ watch.db.tables.runs ∨
      own.id = row.runId ∧ own.status = .running := by
    rw [claimed.same]
    intro own member
    rcases mem_updateWhere_cases member with ⟨old, _⟩ | ⟨earlier, _, chosen, rfl⟩
    · exact .inl old
    · exact .inr ⟨beq_iff_eq.mp ((Bool.and_eq_true _ _).mp chosen).1, rfl⟩
  constructor
  · exact dbSound
  · exact fun runId later => sound.fresh runId (le_trans untouched.nextId later)
  · exact sound.single
  · intro session member alone counts counted none
    have own := sound.db.sessions session member
    by_cases ofRun : session.runId = row.runId
    · obtain ⟨item, inTable, sameId, sameRun, _, running⟩ := held.item
      have inWritten : item ∈ (session.written after).items := by
        rw [written_eq session own.own after]
        apply mem_updateWhere_of_not inTable
        rw [beq_eq_false_iff_ne, sameId]
        exact (claimed.apart unique own.held).symm
      have done := countItems_pending_eq_zero.mp none item inWritten
        (sameRun.trans (claimed.runId.trans ofRun.symm))
      rw [running] at done
      cases done
    · apply sound.exact session member alone counts counted
      rw [← ((claimed.sameRun unique ofRun).written own.own).countItems]
      exact none
  · intro own member alone none
    by_cases ofRun : own.id = row.runId
    · exact absurd none (held.pending (claimed.runId.trans ofRun.symm))
    · rcases runs own member with old | ⟨same, _⟩
      · apply sound.finished own old alone
        rw [← (claimed.sameRun unique ofRun).countItems]
        exact none
      · exact absurd same ofRun
  · intro own member shared
    rcases runs own member with old | ⟨_, running⟩
    · exact sound.unfinished own old shared
    · rw [running]
      rfl
  · exact sound.pending

/-- Fewer open transactions, or more that have not counted. -/
theorem Watch.Sound.regrouped (sound : watch.Sound) {live : List WorkItem} {sessions : List Session}
    (db : ({ watch.db with live := live, sessions := sessions } : Database).Sound)
    (counted : ∀ session ∈ sessions, session.phase.counts ≠ none →
      session ∈ watch.db.sessions) :
    ({ watch with db := { watch.db with live := live, sessions := sessions } } : Watch).Sound where
  db := db
  fresh := sound.fresh
  single session member alone hasCounted other inSessions sameRun otherCounted :=
    sound.single session (counted session member hasCounted) alone hasCounted other
      (counted other inSessions otherCounted) sameRun otherCounted
  exact session member alone counts isCounted := by
    apply sound.exact session (counted session member _) alone counts isCounted
    rw [isCounted]
    exact Option.some_ne_none counts
  finished := sound.finished
  unfinished := sound.unfinished
  pending session member shared counts isCounted := by
    apply sound.pending session (counted session member _) shared counts isCounted
    rw [isCounted]
    exact Option.some_ne_none counts

/-- A statement that counts nothing. -/
theorem Watch.Sound.stepped (sound : watch.Sound) (member : session ∈ watch.db.sessions)
    {next : Session} (steps : session.Steps watch.db.tables after next)
    (counts : next.phase.counts = session.phase.counts)
    (rows : session.phase.counts ≠ none → next.rows = session.rows) :
    ({ watch with
      db := { watch.db with
        tables := after
        sessions := replaceSession session next watch.db.sessions } } : Watch).Sound := by
  have earlier : ∀ other ∈ replaceSession session next watch.db.sessions,
      ∃ old ∈ watch.db.sessions, other.work = old.work ∧ other.runId = old.runId ∧
        other.phase.counts = old.phase.counts ∧
          (old.phase.counts ≠ none → other.rows = old.rows) := by
    intro other inSessions
    rcases mem_updateWhere_cases inSessions with ⟨old, _⟩ | ⟨_, _, _, rfl⟩
    · exact ⟨other, old, rfl, rfl, rfl, fun _ => rfl⟩
    · exact ⟨session, member, steps.work, steps.runId, counts, rows⟩
  have tables := steps.drawn
  have items : after.items = watch.db.tables.items := by
    rw [tables]
  have runs : after.runs = watch.db.tables.runs := by
    rw [tables]
  have countItems : ∀ runId, after.countItems runId = watch.db.tables.countItems runId := by
    intro runId
    unfold Tables.countItems
    rw [items]
  constructor
  · exact sound.db.steps member steps
  · exact fun runId later => sound.fresh runId (le_trans steps.later later)
  · intro first inFirst alone firstCounted second inSecond sameRun secondCounted
    obtain ⟨oldFirst, memberFirst, workFirst, runFirst, countsFirst, _⟩ := earlier first inFirst
    obtain ⟨oldSecond, memberSecond, workSecond, runSecond, countsSecond, _⟩ :=
      earlier second inSecond
    rw [runFirst] at alone sameRun
    rw [runSecond] at sameRun
    rw [countsFirst] at firstCounted
    rw [countsSecond] at secondCounted
    rw [workFirst, workSecond]
    exact sound.single oldFirst memberFirst alone firstCounted oldSecond memberSecond sameRun
      secondCounted
  · intro other inSessions alone otherCounts counted none
    obtain ⟨old, oldMember, work, runId, sameCounts, sameRows⟩ := earlier other inSessions
    have own := sound.db.sessions old oldMember
    rw [sameCounts] at counted
    rw [runId] at alone none
    apply sound.exact old oldMember alone otherCounts counted
    have written : (other.written after).items = (old.written watch.db.tables).items := by
      have theirs : ∀ write ∈ other.rows, write.IsOf other.work := by
        rw [sameRows (by rw [counted]; exact Option.some_ne_none _), work]
        exact own.own
      rw [written_eq other theirs, written_eq old own.own, work, items,
        sameRows (by rw [counted]; exact Option.some_ne_none _)]
    unfold Tables.countItems at none ⊢
    rw [← written]
    exact none
  · rw [runs]
    intro own inRuns alone none
    rw [countItems] at none
    exact sound.finished own inRuns alone none
  · rw [runs]
    exact sound.unfinished
  · intro other inSessions shared otherCounts counted
    obtain ⟨old, oldMember, _, runId, sameCounts, _⟩ := earlier other inSessions
    rw [runId] at shared
    rw [sameCounts] at counted
    exact sound.pending old oldMember shared otherCounts counted

/-- The counting. A transaction that is not the first of its run to have counted leaves the
run open, as does the one that counted before it. -/
theorem Watch.Sound.counted (sound : watch.Sound) (member : session ∈ watch.db.sessions)
    (phase : session.phase = .writing []) : Watch.Sound {
      db := { watch.db with
        sessions := replaceSession session (session.counted watch.db.tables) watch.db.sessions }
      alone := Function.update watch.alone session.runId
        (watch.db.isUncounted session.runId) } := by
  have advanced := sound.db.advanced member (.counted phase)
  have none : session.phase.counts = none := by
    rw [phase]
    rfl
  have held := (sound.db.sessions session member).held
  have runId := (sound.db.sessions session member).runId
  have later : ∀ other ∈ replaceSession session (session.counted watch.db.tables)
      watch.db.sessions, (other ∈ watch.db.sessions ∧ other.work.id ≠ session.work.id) ∨
        other = session.counted watch.db.tables := by
    intro other inSessions
    rcases mem_updateWhere_cases inSessions with ⟨old, apart⟩ | ⟨_, _, _, same⟩
    · exact .inl ⟨old, beq_eq_false_iff_ne.mp apart⟩
    · exact .inr same
  have elsewhere : ∀ {id : Uuid}, id ≠ session.runId →
      Function.update watch.alone session.runId (watch.db.isUncounted session.runId) id =
        watch.alone id := fun other => Function.update_of_ne other _ _
  have here : Function.update watch.alone session.runId (watch.db.isUncounted session.runId)
      session.runId = watch.db.isUncounted session.runId := Function.update_self _ _ _
  have uncounted : watch.db.isUncounted session.runId = true → ∀ other ∈ watch.db.sessions,
      other.runId = session.runId → other.phase.counts = Option.none := by
    intro alone other inSessions sameRun
    have ofOther := List.all_eq_true.mp alone other inSessions
    rw [sameRun, bne_self_eq_false, Bool.false_or] at ofOther
    exact Option.isNone_iff_eq_none.mp ofOther
  constructor
  · exact advanced
  · intro id fresh
    dsimp only at fresh ⊢
    rw [elsewhere]
    · exact sound.fresh id fresh
    · exact ((sound.drawn member).trans_le fresh).ne'
  · intro first inFirst alone firstCounted second inSecond sameRun secondCounted
    dsimp only at alone
    rcases later first inFirst with ⟨oldFirst, _⟩ | rfl <;>
      rcases later second inSecond with ⟨oldSecond, _⟩ | rfl
    · by_cases ofRun : first.runId = session.runId
      · rw [ofRun, here] at alone
        exact absurd (uncounted alone first oldFirst ofRun) firstCounted
      · rw [elsewhere ofRun] at alone
        exact sound.single first oldFirst alone firstCounted second oldSecond sameRun secondCounted
    · have ofRun : first.runId = session.runId := sameRun.symm
      rw [ofRun, here] at alone
      exact absurd (uncounted alone first oldFirst ofRun) firstCounted
    · have first := uncounted (here.symm.trans alone) second oldSecond sameRun
      exact absurd first secondCounted
    · rfl
  · intro other inSessions alone counts counted pending
    dsimp only at alone
    rcases later other inSessions with ⟨old, _⟩ | rfl
    · by_cases ofRun : other.runId = session.runId
      · rw [ofRun, here] at alone
        rw [uncounted alone other old ofRun] at counted
        cases counted
      · rw [elsewhere ofRun] at alone
        exact sound.exact other old alone counts counted pending
    · rw [← Option.some.inj counted]
      exact pending
  · intro own inRuns alone pending
    dsimp only at alone
    by_cases ofRun : own.id = session.runId
    · exact absurd pending (held.pending (runId.symm.trans ofRun.symm))
    · rw [elsewhere ofRun] at alone
      exact sound.finished own inRuns alone pending
  · intro own inRuns shared
    dsimp only at shared
    by_cases ofRun : own.id = session.runId
    · exact held.unfinished sound.db.tables inRuns (ofRun.trans runId)
    · rw [elsewhere ofRun] at shared
      exact sound.unfinished own inRuns shared
  · intro other inSessions shared counts counted pending
    dsimp only at shared
    by_cases ofRun : other.runId = session.runId
    · rw [ofRun, here] at shared
      have witnessed : ∃ early ∈ watch.db.sessions, early.runId = session.runId ∧
          early.phase.counts ≠ Option.none := by
        by_contra absent
        have alone : watch.db.isUncounted session.runId = true := by
          apply List.all_eq_true.mpr
          intro early inDb
          by_cases sameRun : early.runId = session.runId
          · have notCounted : early.phase.counts = Option.none := by
              by_contra hasCounted
              exact absent ⟨early, inDb, sameRun, hasCounted⟩
            rw [notCounted]
            exact Bool.or_true _
          · rw [bne_iff_ne.mpr sameRun]
            rfl
        rw [alone] at shared
        cases shared
      obtain ⟨early, inDb, earlyRun, earlyCounted⟩ := witnessed
      have theirs := advanced.sessions other inSessions
      have earlyOwn := sound.db.sessions early inDb
      have sameEarly := theirs.last counted pending earlyOwn.held
        (earlyOwn.runId.symm.trans (earlyRun.trans ofRun.symm))
      have sameHere := theirs.last counted pending held (runId.symm.trans ofRun.symm)
      have equal := eq_of_key_eq sound.db.unique inDb member (sameEarly.trans sameHere.symm)
      rw [equal] at earlyCounted
      exact earlyCounted none
    · rw [elsewhere ofRun] at shared
      rcases later other inSessions with ⟨old, _⟩ | rfl
      · exact sound.pending other old shared counts counted pending
      · exact ofRun rfl

/-- The commit. -/
theorem Watch.Sound.committed (sound : watch.Sound) (member : session ∈ watch.db.sessions)
    {counts : RunCounts} {changes : List VersionChangeRow}
    (phase : session.phase = .committing counts changes) :
    ({ watch with
      db := watch.db.close session.work.id (session.view watch.db.tables) } : Watch).Sound := by
  have own := sound.db.sessions session member
  have drawn := committing_changes_runId own phase
  have hasCounted : session.phase.counts = some counts := by
    rw [phase]
    rfl
  have elsewhere : ∀ {runId : Uuid}, runId ≠ session.runId →
      SameRun runId watch.db.tables (session.view watch.db.tables) :=
    fun other => view_sameRun own sound.db.tables phase drawn other
  have written : (session.view watch.db.tables).countItems session.runId =
      (session.written watch.db.tables).countItems session.runId := by
    unfold Tables.countItems
    rw [view_of_committing own phase, written_eq session own.own]
  have nextId : (session.view watch.db.tables).nextId = watch.db.tables.nextId := by
    rw [view_of_committing own phase]
  constructor
  · exact commit_sound sound.db member phase
  · intro runId later
    apply sound.fresh runId
    rw [← nextId]
    exact later
  · intro first inFirst alone firstCounted second inSecond sameRun secondCounted
    exact sound.single first (mem_close_sessions.mp inFirst).1 alone firstCounted second
      (mem_close_sessions.mp inSecond).1 sameRun secondCounted
  · intro other inSessions alone otherCounts counted none
    obtain ⟨inDb, apart⟩ := mem_close_sessions.mp inSessions
    by_cases ofRun : other.runId = session.runId
    · have same := sound.single other inDb alone (by rw [counted]; exact Option.some_ne_none _)
        session member ofRun.symm (by rw [hasCounted]; exact Option.some_ne_none _)
      exact absurd same.symm apart
    · apply sound.exact other inDb alone otherCounts counted
      rw [← ((elsewhere ofRun).written (sound.db.sessions other inDb).own).countItems]
      exact none
  · intro run inRuns alone none
    rcases own.view_runs phase inRuns with ⟨old, apart⟩ | ⟨earlier, _, same, rfl⟩
    · apply sound.finished run old alone
      rw [← (elsewhere apart).countItems]
      exact none
    · have id : (earlier.refreshed counts session.completedAt).id = session.runId := same
      change watch.alone (earlier.refreshed counts session.completedAt).id = true at alone
      change ((session.view watch.db.tables).countItems
        (earlier.refreshed counts session.completedAt).id).pending = 0 at none
      rw [id] at alone none
      rw [written] at none
      have settled := sound.exact session member alone counts hasCounted none
      change counts.status.isFinished = true
      rw [RunCounts.status, if_pos settled]
      split <;> rfl
  · intro run inRuns shared
    rcases own.view_runs phase inRuns with ⟨old, _⟩ | ⟨earlier, _, same, rfl⟩
    · exact sound.unfinished run old shared
    · have id : (earlier.refreshed counts session.completedAt).id = session.runId := same
      change watch.alone (earlier.refreshed counts session.completedAt).id = false at shared
      rw [id] at shared
      have some := sound.pending session member shared counts hasCounted
      change counts.status.isFinished = false
      rw [RunCounts.status, if_neg some]
      rfl
  · intro other inSessions
    exact sound.pending other (mem_close_sessions.mp inSessions).1

end Keeping

section Runs

variable {watch : Watch}

theorem execute_alone {itemId : Uuid} {session : Session}
    (found : (watch.db.sessions.find? fun session => session.work.id == itemId) = some session) :
    (watch.step (.execute itemId)).alone =
      if session.phase.isCounting then
        Function.update watch.alone session.runId (watch.db.isUncounted session.runId)
      else watch.alone := by
  unfold Watch.step Database.counting
  dsimp only
  rw [found]
  cases counting : session.phase.isCounting <;> simp [Option.filter, counting]

theorem Watch.Sound.execute (sound : watch.Sound) (itemId : Uuid) :
    (watch.step (.execute itemId)).Sound := by
  cases found : watch.db.sessions.find? fun session => session.work.id == itemId with
  | none =>
      have same : watch.step (.execute itemId) = watch := by
        unfold Watch.step Database.step Database.counting
        dsimp only
        rw [found]
        rfl
      rw [same]
      exact sound
  | some session =>
      have member := (find?_eq_some_mem found).1
      have alone := execute_alone found
      have db : (watch.step (.execute itemId)).db =
          if watch.db.blocks session then watch.db else watch.db.advance session := by
        unfold Watch.step Database.step
        dsimp only
        rw [found]
      generalize watch.step (.execute itemId) = next at alone db
      obtain ⟨nextDb, nextAlone⟩ := next
      dsimp only at alone db
      by_cases blocked : watch.db.blocks session = true
      · have notCounting : session.phase.isCounting = false := by
          unfold Database.blocks at blocked
          split at blocked
          next refreshing =>
            rw [refreshing]
            rfl
          next => cases blocked
        rw [if_pos blocked] at db
        rw [notCounting] at alone
        rw [db, alone]
        exact sound
      · rw [if_neg blocked] at db
        have advanced := advance_advanced sound.db member
        rw [← db] at advanced
        rw [alone]
        cases advanced with
        | rolledBack notCounting =>
            rw [notCounting]
            exact sound.regrouped (close_sound sound.db session.work.id)
              fun other inSessions _ => (List.mem_filter.mp inSessions).1
        | counted phase =>
            rw [phase]
            exact sound.counted member phase
        | stepped after next steps notCounting counts rows =>
            rw [notCounting]
            exact sound.stepped member steps counts rows
        | committed counts changes phase =>
            rw [phase]
            exact sound.committed member phase

theorem Watch.Sound.step (sound : watch.Sound) (action : Action) : (watch.step action).Sound := by
  cases action with
  | publish technologyId rule =>
      exact sound.extended (publish_extends sound.db.tables.keyed.placed technologyId rule)
  | capture snapshot artifact =>
      exact sound.extended (capture_extends sound.db.tables.keyed.placed snapshot artifact)
  | start call =>
      rcases start_extends sound.db.tables call with same | extended
      · have kept : watch.step (.start call) = watch := by
          unfold Watch.step Database.step
          dsimp only
          rw [same]
          rfl
        rw [kept]
        exact sound
      · exact sound.extended extended
  | claim now =>
      unfold Watch.step Database.step
      dsimp only
      split
      next after work success => exact sound.claim success
      next => exact sound
  | lose itemId =>
      exact sound.regrouped (lose_sound sound.db itemId)
        fun session inSessions _ => (List.mem_filter.mp inSessions).1
  | begin itemId report completedAt =>
      unfold Watch.step Database.step
      dsimp only
      split
      next => exact sound
      next work found =>
        obtain ⟨member, isItem⟩ := find?_eq_some_mem found
        rw [← beq_iff_eq.mp isItem]
        apply sound.regrouped (begin_sound sound.db member report completedAt)
        intro session inSessions counted
        rcases List.mem_append.mp inSessions with old | new
        · exact old
        · rw [List.mem_singleton.mp new] at counted
          exact absurd rfl counted
  | execute itemId => exact sound.execute itemId

theorem watch_sound (kinds : List String) (actions : List Action) :
    (Watch.after kinds actions).Sound := by
  unfold Watch.after
  refine run_invariant (P := Watch.Sound) (fun _ action sound => sound.step action) _ actions ?_
  constructor
  · exact empty_db_sound kinds
  · exact fun _ _ => rfl
  · exact fun _ absent => nomatch absent
  · exact fun _ absent => nomatch absent
  · exact fun _ absent => nomatch absent
  · exact fun _ absent => nomatch absent
  · exact fun _ absent => nomatch absent

theorem watch_db (kinds : List String) (actions : List Action) :
    (Watch.after kinds actions).db = Database.after kinds actions := by
  have follows : ∀ watch : Watch, (run Watch.step watch actions).db =
      run Database.step watch.db actions := by
    induction actions with
    | nil => exact fun _ => rfl
    | cons action rest ih => exact fun watch => ih (watch.step action)
  exact follows (Watch.start kinds)

/-- A run whose items are all done is finalized exactly when its items were last counted
while no other open transaction of the run had counted them. -/
theorem finalized_iff_lastCountAlone (kinds : List String) (actions : List Action) {own : RunRow}
    (member : own ∈ (Database.after kinds actions).tables.runs)
    (done : ∀ item ∈ (Database.after kinds actions).tables.items, item.runId = own.id →
      item.status.isPending = false) :
    (Database.after kinds actions).tables.Finalized own ↔ lastCountAlone kinds actions own.id = true := by
  have sound := watch_sound kinds actions
  rw [← watch_db] at member done ⊢
  have none := countItems_pending_eq_zero.mpr done
  constructor
  · intro finalized
    by_contra shared
    have unfinished := sound.unfinished own member (Bool.not_eq_true _ ▸ shared)
    rw [finalized.status] at unfinished
    split at unfinished <;> cases unfinished
  · intro alone
    have finished := sound.finished own member alone none
    exact (sound.db.tables.finished own member finished).finalized sound.db.tables.keyed

/-- Two snapshots whose items are recorded at the same time. -/
def twoReplays : List Action :=
  [ .publish 0 {
      technologySlug := "shopify".toList
      technologyCategorySlug := "ecommerce".toList
      ruleSlug := "shopify".toList
      version := 1
      definition := .null },
    .capture {
      id := 0
      crawlAttemptId := 0
      domainId := 0
      requestedUrl := "https://example.com/".toList
      finalUrl := "https://example.com/".toList
      redirectChain := []
      responseStatus := 200
      responseHeaders := []
      responseBodyBytes := 0
      capturedAt := 0 } none,
    .capture {
      id := 0
      crawlAttemptId := 1
      domainId := 0
      requestedUrl := "https://example.com/".toList
      finalUrl := "https://example.com/".toList
      redirectChain := []
      responseStatus := 200
      responseHeaders := []
      responseBodyBytes := 0
      capturedAt := 1 } none,
    .start {
      ruleSlug := "shopify".toList
      ruleVersion := 1
      idempotencyKey := "replay".toList
      actorSubject := "operator".toList
      now := 2 },
    .claim 3,
    .claim 3,
    .begin 4 (.succeeded nothingFound) 4,
    .begin 5 (.failed "artifact expired".toList 9 true) 4 ]

/-- The second transaction counts after the commit of the first. -/
def orderlyReplay : List Action :=
  twoReplays ++ List.replicate 5 (.execute 4) ++ List.replicate 6 (.execute 5)

/-- Both transactions count before either of them commits. -/
def racingReplay : List Action :=
  twoReplays ++ List.replicate 3 (.execute 4) ++ List.replicate 3 (.execute 5) ++
    List.replicate 2 (.execute 4) ++ List.replicate 2 (.execute 5)

theorem orderlyReplay_finalized : ∃ own ∈ (Database.after replayKinds orderlyReplay).tables.runs,
    own.status = .partialFailed ∧ (Database.after replayKinds orderlyReplay).tables.Finalized own := by
  have found : ∃ own ∈ (Database.after replayKinds orderlyReplay).tables.runs, own.id = 3 ∧
      own.status = .partialFailed := by
    decide +kernel
  obtain ⟨own, member, id, status⟩ := found
  refine ⟨own, member, status, (finalized_iff_lastCountAlone replayKinds orderlyReplay member ?_).mpr ?_⟩
  · rw [id]
    decide +kernel
  · rw [id]
    decide +kernel

/-- The run is left `running` although its items are done and nothing is open. -/
example : ∃ own ∈ (Database.after replayKinds racingReplay).tables.runs,
    (∀ item ∈ (Database.after replayKinds racingReplay).tables.items, item.runId = own.id →
      item.status.isPending = false) ∧
    (Database.after replayKinds racingReplay).sessions.length = 0 ∧
    own.status = .running ∧ ¬(Database.after replayKinds racingReplay).tables.Finalized own := by
  have found : ∃ own ∈ (Database.after replayKinds racingReplay).tables.runs, own.id = 3 ∧
      own.status = .running := by
    decide +kernel
  obtain ⟨own, member, id, running⟩ := found
  refine ⟨own, member, ?_, ?_, running, ?_⟩
  · rw [id]
    decide +kernel
  · decide +kernel
  · intro finalized
    have status := finalized.status
    rw [running] at status
    split at status <;> cases status

end Runs

end TechAtlas.Reprocessing
