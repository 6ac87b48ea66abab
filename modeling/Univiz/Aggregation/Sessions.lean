import Univiz.Aggregation.Jobs
import Univiz.Data.Exclusion

namespace Univiz.Aggregation

open Univiz.Data

namespace AggregationJob

def Same (job other : AggregationJob) : Prop :=
  job.id = other.id ∧ job.dataSourceId = other.dataSourceId ∧
    job.graphName = other.graphName ∧ job.indexed = other.indexed

theorem same_self (job : AggregationJob) : job.Same job := ⟨rfl, rfl, rfl, rfl⟩

theorem Same.trans {first second third : AggregationJob} (same : first.Same second)
    (same' : second.Same third) : first.Same third :=
  ⟨same.1.trans same'.1, same.2.1.trans same'.2.1, same.2.2.1.trans same'.2.2.1,
    same.2.2.2.trans same'.2.2.2⟩

end AggregationJob

namespace JobTable

variable {table : JobTable} {dataSourceId jobId : String} {job : AggregationJob} {write : Write}

theorem mem_active : job ∈ table.active dataSourceId ↔
    job ∈ table.rows ∧ job.dataSourceId = dataSourceId ∧ job.status.isActive = true := by
  simp [active, AggregationJob.occupies]

theorem eq_of_id_eq {other : AggregationJob} (member : job ∈ table.rows)
    (present : other ∈ table.rows) (same : job.id = other.id) : job = other :=
  List.inj_on_of_nodup_map table.keyed member present same

theorem find_spec (found : table.find jobId = some job) : job ∈ table.rows ∧ job.id = jobId := by
  have member := List.mem_of_find?_eq_some found
  have named := List.find?_some found
  exact ⟨member, of_decide_eq_true named⟩

theorem filter_length_le {selects : AggregationJob → Bool}
    (same : ∀ first ∈ table.rows.filter selects, ∀ second ∈ table.rows.filter selects,
      first.id = second.id) : (table.rows.filter selects).length ≤ 1 := by
  have distinct : ((table.rows.filter selects).map AggregationJob.id).Nodup :=
    List.Nodup.sublist (List.Sublist.map _ List.filter_sublist) table.keyed
  match rows : table.rows.filter selects with
  | [] => exact Nat.zero_le 1
  | [_] => exact Nat.le_refl 1
  | first :: second :: rest =>
      rw [rows] at same distinct
      have equal := same first (by simp) second (by simp)
      simp [equal] at distinct

theorem mem_rows_insert {grown : JobTable} {row : AggregationJob}
    (inserted : table.insert job = some grown) :
    row ∈ grown.rows ↔ row ∈ table.rows ∨ row = job := by
  unfold insert at inserted
  split at inserted
  · cases inserted
    simp
  · cases inserted

theorem mem_rows_update {row : AggregationJob}
    (member : row ∈ (table.update jobId write).rows) (active : row.status.isActive = true) :
    ∃ before ∈ table.rows, before.Same row ∧
      (before.status.isActive = true ∨ write.activates = true ∧ before.id = jobId) := by
  obtain ⟨before, present, updated⟩ := List.mem_map.mp member
  split at updated
  · rename_i named
    rw [← updated] at active ⊢
    rcases Write.isActive_apply active with already | activates
    · exact ⟨before, present, ⟨rfl, rfl, rfl, rfl⟩, .inl already⟩
    · exact ⟨before, present, ⟨rfl, rfl, rfl, rfl⟩, .inr ⟨activates, named⟩⟩
  · rw [← updated] at active ⊢
    exact ⟨before, present, before.same_self, .inl active⟩

/-- The rows stay, but for their status and their counters. -/
def Kept (table after : JobTable) : Prop :=
  ∀ job ∈ table.rows, ∃ kept ∈ after.rows, kept.Same job

theorem kept_self : table.Kept table := fun job member => ⟨job, member, job.same_self⟩

theorem kept_insert {grown : JobTable} (inserted : table.insert job = some grown) :
    table.Kept grown :=
  fun row member => ⟨row, (mem_rows_insert inserted).mpr (.inl member), row.same_self⟩

theorem kept_update : table.Kept (table.update jobId write) := by
  intro row member
  refine ⟨_, List.mem_map.mpr ⟨row, member, rfl⟩, ?_⟩
  split
  · exact ⟨rfl, rfl, rfl, rfl⟩
  · exact row.same_self

end JobTable

namespace Session

/-- The job that the session activates with its commit. -/
def activating (session : Session) : Option AggregationJob :=
  match session.statement with
  | .insert job => some job
  | .update job write _ | .commit job write _ => if write.activates then some job else none
  | _ => none

/-- A session that has not claimed a job. -/
def Passive (session : Session) : Prop :=
  session.activating = none ∧ ∀ trigger, session.statement ≠ .resolveOntology trigger

/-- The advisory lock of a session at its statement, and the row that it is about to
update. -/
def Sound (table : JobTable) (session : Session) : Prop :=
  match session.statement with
  | .lookup _ | .tryAdvisoryLock _ | .read _ => session.advisory = none
  | .claimPurge job => session.advisory = none ∧ job.graphName = none
  | .peek trigger | .resolveOntology trigger => session.advisory = some trigger.dataSourceId
  | .insert job => ∀ dataSourceId, session.advisory = some dataSourceId →
      dataSourceId = job.dataSourceId
  | .update job _ _ | .commit job _ _ | .working job => session.advisory = none ∧
      ∃ row ∈ table.rows, row.Same job
  | .refused _ | .returned _ | .raised _ => True

theorem Sound.kept {table after : JobTable} {session : Session} (kept : table.Kept after)
    (sound : session.Sound table) : session.Sound after := by
  unfold Sound at sound ⊢
  cases statement : session.statement with
  | update job _ _ | commit job _ _ | working job =>
      simp only [statement] at sound ⊢
      obtain ⟨free, row, member, same⟩ := sound
      obtain ⟨row', present, same'⟩ := kept row member
      exact ⟨free, row', present, same'.trans same⟩
  | refused _ | returned _ | raised _ => trivial
  | _ => simpa only [statement] using sound

theorem ended_sound {table : JobTable} {statement : Statement} (closed : statement.isOver = true) :
    (Session.ended statement).Sound table := by
  cases statement with
  | returned _ | raised _ => trivial
  | _ => cases closed

end Session

namespace Server

variable {key : String → Int} {server next : Server} {id : Nat} {session : Session}

/-- The advisory lock is exclusive, and every session is sound. -/
structure Orderly (key : String → Int) (server : Server) : Prop where
  advisory : ∀ (i j : Nat) (first second : Session) (left right : String),
    server.sessions[i]? = some first → server.sessions[j]? = some second →
      first.advisory = some left → second.advisory = some right → key left = key right → i = j
  sound : ∀ session ∈ server.sessions, session.Sound server.table

theorem start_orderly : start.Orderly key where
  advisory _ _ _ _ _ _ found := nomatch found
  sound _ member := nomatch member

structure TurnSpec (key : String → Int) (server : Server) (id : Nat) (session : Session)
    (turn : Turn) : Prop where
  kept : server.table.Kept turn.table
  sound : turn.session.Sound turn.table
  advisory : ∀ dataSourceId, turn.session.advisory = some dataSourceId →
    session.advisory = some dataSourceId ∨ server.advisoryElsewhere key id dataSourceId = false
  active : ∀ row ∈ turn.table.rows, row.status.isActive = true →
    ∃ before, before.Same row ∧
      (before ∈ server.table.rows ∧ before.status.isActive = true ∨
        session.activating = some before)

theorem TurnSpec.stays {after : Session} (sound : after.Sound server.table)
    (advisory : ∀ dataSourceId, after.advisory = some dataSourceId →
      session.advisory = some dataSourceId ∨
        server.advisoryElsewhere key id dataSourceId = false) :
    TurnSpec key server id session (server.stays after) where
  kept := JobTable.kept_self
  sound := sound
  advisory := advisory
  active row member active := ⟨row, row.same_self, .inl ⟨member, active⟩⟩

theorem TurnSpec.goesOn {statement : Statement} {rowLock : Option String}
    (sound : Session.Sound server.table ⟨statement, session.advisory, rowLock⟩) :
    TurnSpec key server id session (server.stays ⟨statement, session.advisory, rowLock⟩) :=
  .stays sound fun _ held => .inl held

theorem TurnSpec.ends {statement : Statement} (closed : statement.isOver = true) :
    TurnSpec key server id session (server.stays (.ended statement)) :=
  .stays (Session.ended_sound closed) fun _ held => nomatch held

theorem advisoryElsewhere_false {dataSourceId held : String} {other : Session} {j : Nat}
    (free : server.advisoryElsewhere key id dataSourceId = false) (elsewhere : j ≠ id)
    (found : server.sessions[j]? = some other) (locked : other.advisory = some held) :
    key held ≠ key dataSourceId := by
  intro same
  have member : other ∈ server.sessions.eraseIdx id :=
    List.mem_eraseIdx_iff_getElem?.mpr ⟨j, elsewhere, found⟩
  have holds := List.any_eq_false.mp free other member
  simp [locked, same] at holds

theorem commit_spec {job row : AggregationJob} {write : Write} {works : Bool}
    (statement : session.statement = .commit job write works) (member : row ∈ server.table.rows)
    (same : row.Same job) : TurnSpec key server id session {
      session := .ended (if works then .working job else .returned (some job.id))
      table := server.table.update job.id write } where
  kept := JobTable.kept_update
  sound := by
    cases works with
    | true =>
        have kept : server.table.Kept (server.table.update job.id write) := JobTable.kept_update
        obtain ⟨row', present, same'⟩ := kept row member
        exact ⟨rfl, row', present, same'.trans same⟩
    | false => trivial
  advisory _ held := nomatch held
  active := by
    intro other present active
    obtain ⟨before, old, unchanged, already | ⟨activates, named⟩⟩ :=
      JobTable.mem_rows_update present active
    · exact ⟨before, unchanged, .inl ⟨old, already⟩⟩
    · have equal := JobTable.eq_of_id_eq old member (named.trans same.1.symm)
      refine ⟨job, ?_, .inr ?_⟩
      · rw [equal] at unchanged
        have back : job.Same row := ⟨same.1.symm, same.2.1.symm, same.2.2.1.symm, same.2.2.2.symm⟩
        exact back.trans unchanged
      · simp only [Session.activating, statement, activates, ↓reduceIte]

theorem insert_spec {job : AggregationJob} {grown : JobTable}
    (statement : session.statement = .insert job)
    (inserted : server.table.insert job = some grown) :
    TurnSpec key server id session {
      session := .ended (.returned (some job.id)), table := grown } where
  kept := JobTable.kept_insert inserted
  sound := trivial
  advisory _ held := nomatch held
  active := by
    intro row member active
    refine ⟨row, row.same_self, ?_⟩
    rcases (JobTable.mem_rows_insert inserted).mp member with before | rfl
    · exact .inl ⟨before, active⟩
    · right
      rw [Session.activating, statement]

theorem turn_spec {turn : Turn} (sound : session.Sound server.table)
    (taken : server.turn key id session = some turn) : TurnSpec key server id session turn := by
  unfold Session.Sound at sound
  unfold Server.turn at taken
  cases statement : session.statement with
  | tryAdvisoryLock trigger =>
      simp only [statement] at taken sound
      split at taken
      · cases taken
        exact .goesOn trivial
      · rename_i free
        cases taken
        refine .stays rfl ?_
        intro dataSourceId held
        rw [← Option.some.inj held]
        exact .inr (Bool.eq_false_iff.mpr free)
  | peek trigger =>
      simp only [statement] at taken sound
      split at taken
      · cases taken
        exact .goesOn trivial
      · cases taken
        have next : TurnSpec key server id session
            (server.stays { session with statement := .resolveOntology trigger }) := by
          apply TurnSpec.goesOn
          exact sound
        exact { next with }
  | lookup trigger | refused trigger =>
      simp only [statement] at taken
      split at taken
      · cases taken
        exact .ends rfl
      · cases taken
        exact .ends rfl
  | resolveOntology trigger =>
      simp only [statement] at taken sound
      split at taken
      · cases taken
        exact .ends rfl
      · cases taken
        apply TurnSpec.goesOn
        intro dataSourceId held
        exact Option.some.inj (held.symm.trans sound)
  | claimPurge job =>
      simp only [statement] at taken sound
      split at taken
      · cases taken
        exact .ends rfl
      · cases taken
        apply TurnSpec.goesOn
        intro dataSourceId held
        cases held.symm.trans sound.1
  | insert job =>
      simp only [statement] at taken
      split at taken
      · rename_i grown inserted
        cases taken
        exact insert_spec statement inserted
      · cases taken
        exact .ends rfl
  | read call =>
      simp only [statement] at taken sound
      split at taken
      · cases taken
        exact .ends (by cases call <;> rfl)
      · rename_i job read
        split at taken
        · cases taken
          apply TurnSpec.goesOn
          exact ⟨sound, job, (JobTable.find_spec read).1, job.same_self⟩
        · cases taken
          exact .ends rfl
        · cases taken
          exact .ends rfl
  | update job write works =>
      simp only [statement] at taken sound
      split at taken
      · cases taken
      · cases taken
        apply TurnSpec.goesOn
        exact sound
  | commit job write works =>
      simp only [statement] at taken sound
      cases taken
      obtain ⟨-, row, member, same⟩ := sound
      exact commit_spec statement member same
  | _ => simp [statement] at taken

/-- A trigger resolves its ontology once `claim_exclusive` has found no active job. -/
theorem turn_resolving {turn : Turn} {trigger : Trigger}
    (taken : server.turn key id session = some turn)
    (resolving : turn.session.statement = .resolveOntology trigger) :
    session.statement = .peek trigger ∧ server.peekActive id trigger.dataSourceId = none := by
  unfold Server.turn at taken
  cases statement : session.statement with
  | peek peeking =>
      simp only [statement] at taken
      split at taken
      · cases taken
        cases resolving
      · rename_i nothing
        cases taken
        cases resolving
        exact ⟨rfl, nothing⟩
  | read call =>
      simp only [statement] at taken
      split at taken
      · cases taken
        cases call <;> cases resolving
      · split at taken
        · cases taken
          cases resolving
        · cases taken
          cases resolving
        · cases taken
          cases resolving
  | update row write works =>
      simp only [statement] at taken
      split at taken
      · cases taken
      · cases taken
        cases resolving
  | commit row write works =>
      simp only [statement] at taken
      cases taken
      cases works with
      | true => cases resolving
      | false => cases resolving
  | working _ | returned _ | raised _ => simp [statement] at taken
  | _ =>
      simp only [statement] at taken
      split at taken
      · cases taken
        cases resolving
      · cases taken
        cases resolving

/-- A turn that leaves a session about to activate a job: it was so before, or it has passed the
checks of a trigger, of a purge or of a call on a job. -/
theorem turn_activating {turn : Turn} {job : AggregationJob}
    (taken : server.turn key id session = some turn)
    (activates : turn.session.activating = some job) :
    session.activating = some job ∨
      (∃ trigger, session.statement = .resolveOntology trigger ∧
        server.graphConflict trigger = none ∧ job = trigger.job) ∨
      (session.statement = .claimPurge job ∧
        (server.table.active job.dataSourceId).head? = none) ∨
      ∃ call write works, session.statement = .read call ∧
        server.table.find call.jobId = some job ∧ call.decision job = .updates write works ∧
        write.activates = true := by
  unfold Server.turn at taken
  cases statement : session.statement with
  | resolveOntology trigger =>
      simp only [statement] at taken
      split at taken
      · cases taken
        cases activates
      · rename_i guarded
        cases taken
        cases activates
        exact .inr (.inl ⟨trigger, rfl, guarded, rfl⟩)
  | claimPurge purge =>
      simp only [statement] at taken
      split at taken
      · cases taken
        cases activates
      · rename_i idle
        cases taken
        cases activates
        exact .inr (.inr (.inl ⟨rfl, idle⟩))
  | read call =>
      simp only [statement] at taken
      split at taken
      · cases taken
        cases call <;> cases activates
      · rename_i row read
        split at taken
        · rename_i write works decided
          cases taken
          obtain ⟨writes, same⟩ := Option.ite_none_right_eq_some.mp activates
          cases same
          exact .inr (.inr (.inr ⟨call, write, works, rfl, read, decided, writes⟩))
        · cases taken
          cases activates
        · cases taken
          cases activates
  | update row write works =>
      simp only [statement] at taken
      split at taken
      · cases taken
      · cases taken
        rw [Session.activating, statement]
        exact .inl activates
  | commit row write works =>
      simp only [statement] at taken
      cases taken
      cases works with
      | true => cases activates
      | false => cases activates
  | working _ | returned _ | raised _ => simp [statement] at taken
  | _ =>
      simp only [statement] at taken
      split at taken
      · cases taken
        cases activates
      · cases taken
        cases activates

theorem works_cases {write : Write} {goesOn : Bool} (orderly : server.Orderly key)
    (idle : write.activates = false) (stepped : server.works id write goesOn = some next) :
    ∃ session after, server.sessions[id]? = some session ∧
      next = server.take id (server.stays after) ∧
        TurnSpec key server id session (server.stays after) ∧ after.Passive := by
  obtain ⟨session, found, continued⟩ := Option.bind_eq_some_iff.mp stepped
  split at continued
  · rename_i job statement
    cases continued
    have known := orderly.sound session (List.mem_of_getElem? found)
    rw [Session.Sound, statement] at known
    refine ⟨session, _, found, rfl, ?_, ?_, fun _ same => nomatch same⟩
    · apply TurnSpec.goesOn
      exact known
    · simp [Session.activating, idle]
  · cases continued

/-- What an event does: a session begins, or it takes a statement, or it goes on
without a claim. -/
theorem step_cases {event : Event} (orderly : server.Orderly key)
    (stepped : step key server event = some next) :
    (∃ statement, next = server.opened statement ∧
      (Session.ended statement).Sound server.table ∧ (Session.ended statement).Passive) ∨
    ∃ id session turn, server.sessions[id]? = some session ∧ next = server.take id turn ∧
      TurnSpec key server id session turn ∧
      (event = .advance id ∧ server.turn key id session = some turn ∨
        turn.session.Passive ∧ turn.overlooks = false) := by
  cases event with
  | trigger trigger =>
      left
      simp only [step] at stepped
      split at stepped
      · cases stepped
        exact ⟨_, rfl, rfl, rfl, fun _ same => nomatch same⟩
      · cases stepped
        exact ⟨_, rfl, rfl, rfl, fun _ same => nomatch same⟩
  | claimPurgeJob dataSourceId jobId createdAt =>
      cases stepped
      exact .inl ⟨_, rfl, ⟨rfl, rfl⟩, rfl, fun _ same => nomatch same⟩
  | call call =>
      cases stepped
      exact .inl ⟨_, rfl, rfl, rfl, fun _ same => nomatch same⟩
  | advance id =>
      right
      obtain ⟨session, found, continued⟩ := Option.bind_eq_some_iff.mp stepped
      obtain ⟨turn, taken, rfl⟩ := Option.map_eq_some_iff.mp continued
      have sound := orderly.sound session (List.mem_of_getElem? found)
      exact ⟨id, session, turn, found, rfl, turn_spec sound taken, .inl ⟨rfl, taken⟩⟩
  | checkpoint id retryCount =>
      obtain ⟨session, after, found, taken, spec, passive⟩ := works_cases orderly rfl stepped
      exact .inr ⟨id, session, _, found, taken, spec, .inr ⟨passive, rfl⟩⟩
  | finish id ending =>
      have idle : Write.activates { status := some ending.status } = false := by
        cases ending <;> rfl
      obtain ⟨session, after, found, taken, spec, passive⟩ := works_cases orderly idle stepped
      exact .inr ⟨id, session, _, found, taken, spec, .inr ⟨passive, rfl⟩⟩
  | fail id =>
      right
      obtain ⟨session, found, continued⟩ := Option.bind_eq_some_iff.mp stepped
      split at continued
      · cases continued
      · cases continued
        exact ⟨id, session, _, found, rfl, .ends rfl,
          .inr ⟨⟨rfl, fun _ same => nomatch same⟩, rfl⟩⟩

theorem TurnSpec.locks {turn : Turn} {j : Nat} {other : Session} {left right : String}
    (orderly : server.Orderly key) (spec : TurnSpec key server id session turn)
    (found : server.sessions[id]? = some session) (elsewhere : id ≠ j)
    (found' : server.sessions[j]? = some other) (locked : turn.session.advisory = some left)
    (locked' : other.advisory = some right) : key left ≠ key right := by
  intro same
  rcases spec.advisory left locked with before | free
  · exact elsewhere (orderly.advisory id j session other left right found found' before locked' same)
  · exact advisoryElsewhere_false free elsewhere.symm found' locked' same.symm

theorem Orderly.take {turn : Turn} (orderly : server.Orderly key)
    (found : server.sessions[id]? = some session) (spec : TurnSpec key server id session turn) :
    (server.take id turn).Orderly key where
  advisory := by
    intro i j first second left right lookup lookup' locked locked' same
    rcases getElem?_set_cases lookup with ⟨here, rfl⟩ | ⟨away, before⟩
    · rcases getElem?_set_cases lookup' with ⟨here', -⟩ | ⟨away', before'⟩
      · exact here.symm.trans here'
      · exact absurd same (spec.locks orderly found away' before' locked locked')
    · rcases getElem?_set_cases lookup' with ⟨-, rfl⟩ | ⟨-, before'⟩
      · exact absurd same.symm (spec.locks orderly found away before locked' locked)
      · exact orderly.advisory i j first second left right before before' locked locked' same
  sound := by
    intro other member
    rcases List.mem_or_eq_of_mem_set member with before | rfl
    · exact (orderly.sound other before).kept spec.kept
    · exact spec.sound

theorem Orderly.opened {statement : Statement} (orderly : server.Orderly key)
    (sound : (Session.ended statement).Sound server.table) :
    (server.opened statement).Orderly key where
  advisory := by
    intro i j first second left right lookup lookup' locked locked' same
    rcases getElem?_concat_cases lookup with old | rfl
    · rcases getElem?_concat_cases lookup' with old' | rfl
      · exact orderly.advisory i j first second left right old old' locked locked' same
      · cases locked'
    · cases locked
  sound := by
    intro session member
    rcases List.mem_append.mp member with old | fresh
    · exact orderly.sound session old
    · rw [List.mem_singleton.mp fresh]
      exact sound

end Server

end Univiz.Aggregation
