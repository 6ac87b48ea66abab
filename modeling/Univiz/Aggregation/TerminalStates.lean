import Univiz.Aggregation.Cancellation

namespace Univiz.Aggregation

open Univiz.Data

/-! When a terminal status of a job is left only through a resume. -/

namespace Stage

/-- A worker loads the row. -/
def isStart : Stage → Bool
  | reads (.run _) => true
  | _ => false

def isAnswering : Stage → Bool
  | answers => true
  | _ => false

def isResuming : Stage → Bool
  | reads call | decides call _ | updates call _ _ => call.isResume
  | answers | registers _ | working _ _ | concluding _ _ _ | finished => false

/-- Nothing but a resume changes the status from this one, as far as the session has come.  A
call that has loaded a terminal row raises or returns, except the start of a worker. -/
def leaves (status : JobStatus) : Stage → Bool
  | decides (.resume _ _) _ => true
  | decides (.cancel _ _) loaded => !loaded.status.isActive || decide (status = .cancelled)
  | decides (.run _) _ => false
  | decides .recoverInterruptedJobs loaded | decides (.reconcileOnce _) loaded =>
      !loaded.status.isActive
  | updates call _ write => call.isResume || write.status.all (decide <| · = status)
  | concluding _ pending _ => pending.status.all (decide <| · = status)
  | reads _ | answers | registers _ | working _ _ | finished => true

/-- A worker sets no status before its work ends. -/
def isClean : Stage → Bool
  | working _ pending => pending.status.isNone
  | _ => true

end Stage

namespace JobProcesses

variable {state next : JobProcesses} {id : Nat} {session : JobSession}
  {write : JobWrite}

/-- Once a cancel has returned with the row cancelled, the row stays so until a resume is called
after it, and a terminal status is left only through a resume. -/
structure Settled (state : JobProcesses) : Prop where
  cancelled : state.answered = true → state.stored.status = .cancelled
  terminal : state.overturned = false

/-- Whatever interferes with a terminal status is left out.  A worker loads the row while it is
active.  When a commit leaves the row terminal, no other session goes on with an older copy to
another status.  A worker that ends its work on a terminal row ends it with that status, and no
resume is under way when a cancel returns with the row cancelled. -/
def Heeds (state : JobProcesses) : Event → Prop
  | .advance id => ∀ session ∈ state.sessions[id]?,
      (session.stage.isStart = true → state.stored.status.isActive = true) ∧
        (session.stage.isAnswering = true → state.stored.status = .cancelled →
          ∀ other ∈ state.sessions, other.stage.isResuming = false)
  | .commit id => ∀ session ∈ state.sessions[id]?, ∀ write ∈ session.stage.write,
      (write.apply state.stored).status.isActive = false →
        ∀ other ∈ state.sessions.eraseIdx id,
          other.stage.leaves (write.apply state.stored).status = true
  | .conclude _ ending => state.stored.status.isActive = false →
      ∀ ended ∈ ending, ended.status = state.stored.status
  | _ => True

instance (state : JobProcesses) : (event : Event) → Decidable (state.Heeds event)
  | .advance id => inferInstanceAs (Decidable (∀ session ∈ state.sessions[id]?,
      (session.stage.isStart = true → state.stored.status.isActive = true) ∧
        (session.stage.isAnswering = true → state.stored.status = .cancelled →
          ∀ other ∈ state.sessions, other.stage.isResuming = false)))
  | .commit id => inferInstanceAs (Decidable (∀ session ∈ state.sessions[id]?,
      ∀ write ∈ session.stage.write, (write.apply state.stored).status.isActive = false →
        ∀ other ∈ state.sessions.eraseIdx id,
          other.stage.leaves (write.apply state.stored).status = true))
  | .conclude _ ending => inferInstanceAs (Decidable (state.stored.status.isActive = false →
      ∀ ended ∈ ending, ended.status = state.stored.status))
  | .call .. | .progress .. | .lose .. | .fail _ | .receive _ | .crash _ => isTrue trivial

/-- How far a session may have come, for the row as it is. -/
structure Fits (state : JobProcesses) (stage : Stage) : Prop where
  clean : stage.isClean = true
  leaves : state.stored.status.isActive = false → stage.leaves state.stored.status = true
  resumes : state.answered = true → stage.isResuming = false

/-- The invariant: no session is about to overwrite a terminal status. -/
structure Undisturbed (state : JobProcesses) : Prop where
  settled : state.Settled
  fits : ∀ session ∈ state.sessions, state.Fits session.stage

/-- At most the events of the workers and the requests on the channel change. -/
structure Signals (state next : JobProcesses) : Prop where
  stored : next.stored = state.stored
  overturned : next.overturned = state.overturned
  answered : next.answered = state.answered
  sessions : ∀ session ∈ next.sessions, ∃ before ∈ state.sessions, before.stage = session.stage

theorem Signals.fits {stage : Stage} (signals : Signals state next) (fits : state.Fits stage) :
    next.Fits stage := by
  refine ⟨fits.clean, ?_, ?_⟩
  · rw [signals.stored]
    exact fits.leaves
  · rw [signals.answered]
    exact fits.resumes

theorem Signals.undisturbed (signals : Signals state next) (undisturbed : state.Undisturbed) :
    next.Undisturbed := by
  refine ⟨⟨?_, signals.overturned.trans undisturbed.settled.terminal⟩, ?_⟩
  · rw [signals.stored, signals.answered]
    exact undisturbed.settled.cancelled
  · intro session member
    obtain ⟨before, found, same⟩ := signals.sessions session member
    rw [← same]
    exact signals.fits (undisturbed.fits before found)

theorem Signals.refl (state : JobProcesses) : Signals state state :=
  ⟨rfl, rfl, rfl, fun session member => ⟨session, member, rfl⟩⟩

theorem requestCancel_signals (state : JobProcesses) (process : Nat) :
    Signals state (state.requestCancel process) := by
  simp only [requestCancel]
  split
  · exact .refl state
  · refine ⟨rfl, rfl, rfl, ?_⟩
    intro session member
    obtain ⟨i, found⟩ := List.getElem?_of_mem member
    rw [List.getElem?_modify] at found
    obtain ⟨before, lookup, rfl⟩ := Option.map_eq_some_iff.mp found
    refine ⟨before, List.mem_of_getElem? lookup, ?_⟩
    split <;> rfl

theorem goesTo_undisturbed {stage : Stage} (undisturbed : state.Undisturbed)
    (fits : state.Fits stage) : (state.goesTo id session stage).Undisturbed := by
  refine ⟨⟨undisturbed.settled.cancelled, undisturbed.settled.terminal⟩, ?_⟩
  intro other member
  rcases List.mem_or_eq_of_mem_set member with before | rfl
  · obtain ⟨clean, leaves, resumes⟩ := undisturbed.fits other before
    exact ⟨clean, leaves, resumes⟩
  · exact ⟨fits.clean, fits.leaves, fits.resumes⟩

/-- A session that holds nothing of the row which it could write fits. -/
theorem fits_of_idle {stage : Stage} (clean : stage.isClean = true)
    (leaves : ∀ status, stage.leaves status = true) (resumes : stage.isResuming = false) :
    state.Fits stage :=
  ⟨clean, fun _ => leaves _, fun _ => resumes⟩

theorem commits_stored : (state.commits id session write).stored = write.apply state.stored := by
  simp only [commits]
  split <;> rfl

theorem commits_answered : (state.commits id session write).answered = state.answered := by
  simp only [commits]
  split <;> rfl

theorem commits_overturned : (state.commits id session write).overturned =
    (state.overturned || (!session.stage.ofResume && state.overturns write)) := by
  simp only [commits]
  split <;> rfl

theorem overturns_iff : state.overturns write = true ↔ ∃ status ∈ write.status,
    ¬ (state.stored.status.isActive = true ∨ state.stored.status = status) := by
  unfold overturns
  rw [JobWrite.apply_status]
  cases written : write.status with
  | none => simp
  | some status => simp [@eq_comm _ status]

theorem commits_settled (settled : state.Settled)
    (kept : ∀ status ∈ write.status, state.stored.status.isActive = true ∨
      state.stored.status = status ∨ session.stage.ofResume = true ∧ state.answered = false) :
    (state.commits id session write).Settled := by
  refine ⟨?_, ?_⟩
  · rw [commits_answered, commits_stored, JobWrite.apply_status]
    intro answered
    have before := settled.cancelled answered
    cases written : write.status with
    | none => exact before
    | some status =>
        rcases kept status written with active | same | ⟨-, unanswered⟩
        · rw [before] at active
          cases active
        · exact same.symm.trans before
        · rw [answered] at unanswered
          cases unanswered
  · rw [commits_overturned, settled.terminal, Bool.false_or, Bool.and_eq_false_iff]
    by_cases overturned : state.overturns write = true
    · obtain ⟨status, member, changed⟩ := overturns_iff.mp overturned
      left
      rw [((kept status member).resolve_left (changed ∘ .inl)).resolve_left
        (changed ∘ .inr) |>.1]
      rfl
    · exact .inr (Bool.eq_false_iff.mpr overturned)

/-- The guards of the calls: one that has loaded a terminal row does not update it. -/
theorem leaves_decided {status : JobStatus} {call : JobCall} {loaded : JobRow}
    {registered works : Bool} {sent : Write} {startedAt : Option Int}
    (leaves : (Stage.decides call loaded).leaves status = true)
    (decision : call.decision registered loaded = .updates sent works) :
    (Stage.updates call loaded { toWrite := sent, startedAt := startedAt }).leaves status =
      true := by
  cases call with
  | resume dataSourceId maxRetries => rfl
  | cancel dataSourceId published =>
      simp only [JobCall.decision, cancelDecision] at decision
      split at decision
      · cases decision
      · split at decision
        · cases decision
        · rename_i active
          split at decision
          · cases decision
          · cases decision
            rw [Bool.not_eq_false] at active
            simp only [Stage.leaves, active, Bool.not_true, Bool.false_or,
              decide_eq_true_eq] at leaves
            subst leaves
            simp only [Stage.leaves, changed]
            split
            · exact Bool.or_true _
            · exact Bool.or_true _
  | run now => cases leaves
  | recoverInterruptedJobs =>
      simp only [Stage.leaves, Bool.not_eq_true'] at leaves
      rw [JobCall.decision, recoverDecision, if_pos (.inl leaves)] at decision
      cases decision
  | reconcileOnce threshold =>
      simp only [Stage.leaves, Bool.not_eq_true'] at leaves
      have idle : loaded.status ≠ .running := by
        intro running
        rw [running] at leaves
        cases leaves
      rw [JobCall.decision, reconcileDecision, if_pos idle] at decision
      cases decision

theorem decides_undisturbed {call : JobCall} {loaded : JobRow}
    (undisturbed : state.Undisturbed) (fits : state.Fits (.decides call loaded)) :
    (state.decides id session call loaded).Undisturbed := by
  have signals : Signals state (if call.requestsCancel loaded then
      (state.requestCancel session.process).publishCancel call.broadcasts else state) := by
    split
    · obtain ⟨stored, overturned, answered, sessions⟩ :=
        requestCancel_signals state session.process
      exact ⟨stored, overturned, answered, sessions⟩
    · exact .refl state
  have kept := signals.undisturbed undisturbed
  simp only [decides]
  split
  · exact goesTo_undisturbed kept (fits_of_idle rfl (fun _ => rfl) rfl)
  · refine goesTo_undisturbed kept ?_
    cases call.isCancel with
    | true => exact fits_of_idle rfl (fun _ => rfl) rfl
    | false => exact fits_of_idle rfl (fun _ => rfl) rfl
  · rename_i decision
    refine goesTo_undisturbed kept (signals.fits ⟨rfl, ?_, fits.resumes⟩)
    intro terminal
    exact leaves_decided (fits.leaves terminal) decision

theorem advance_undisturbed (undisturbed : state.Undisturbed) (member : session ∈ state.sessions)
    (loads : session.stage.isStart = true → state.stored.status.isActive = true)
    (answers : session.stage.isAnswering = true → state.stored.status = .cancelled →
      ∀ other ∈ state.sessions, other.stage.isResuming = false)
    (advanced : state.advance id session = some next) : next.Undisturbed := by
  have fits := undisturbed.fits session member
  simp only [advance] at advanced
  split at advanced
  case h_1 call stage =>
    cases advanced
    rw [stage] at fits loads
    refine goesTo_undisturbed undisturbed ⟨rfl, ?_, fits.resumes⟩
    intro terminal
    cases call with
    | resume dataSourceId maxRetries => rfl
    | cancel dataSourceId published => simp only [Stage.leaves, terminal, Bool.not_false,
        Bool.true_or]
    | run now =>
        rw [loads rfl] at terminal
        cases terminal
    | recoverInterruptedJobs => simp only [Stage.leaves, terminal, Bool.not_false]
    | reconcileOnce threshold => simp only [Stage.leaves, terminal, Bool.not_false]
  case h_2 call loaded stage =>
    cases advanced
    rw [stage] at fits
    exact decides_undisturbed undisturbed fits
  case h_3 stage =>
    cases advanced
    rw [stage] at answers
    obtain ⟨⟨cancelled, terminal⟩, others⟩ := undisturbed
    have answered : (state.answered || decide (state.stored.status = .cancelled)) = true →
        state.stored.status = .cancelled ∧
          ∀ other ∈ state.sessions, other.stage.isResuming = false := by
      simp only [Bool.or_eq_true, decide_eq_true_eq]
      rintro (before | now)
      · exact ⟨cancelled before, fun other found => (others other found).resumes before⟩
      · exact ⟨now, answers rfl now⟩
    refine ⟨⟨fun holds => (answered holds).1, terminal⟩, ?_⟩
    intro other found
    rcases List.mem_or_eq_of_mem_set found with before | rfl
    · obtain ⟨clean, leaves, -⟩ := others other before
      exact ⟨clean, leaves, fun holds => (answered holds).2 other before⟩
    · exact fits_of_idle rfl (fun _ => rfl) rfl
  case h_4 loaded stage =>
    cases advanced
    have moved : (state.goesTo id session (.working (some loaded) {})).Undisturbed :=
      goesTo_undisturbed undisturbed (fits_of_idle rfl (fun _ => rfl) rfl)
    obtain ⟨⟨cancelled, terminal⟩, others⟩ := moved
    refine ⟨⟨cancelled, terminal⟩, ?_⟩
    intro other found
    obtain ⟨clean, leaves, resumes⟩ := others other found
    exact ⟨clean, leaves, resumes⟩
  all_goals cases advanced

/-- What a session sends to a terminal row does not change the status, or it is a resume. -/
theorem kept_of_fits (fits : state.Fits session.stage) (sent : session.stage.write = some write) :
    ∀ status ∈ write.status, state.stored.status.isActive = true ∨
      state.stored.status = status ∨ session.stage.ofResume = true ∧ state.answered = false := by
  intro status member
  cases active : state.stored.status.isActive with
  | true => exact .inl rfl
  | false =>
      right
      have leaves := fits.leaves active
      have clean := fits.clean
      have resumes := fits.resumes
      cases stage : session.stage with
      | updates call loaded update =>
          rw [stage] at sent leaves resumes
          cases sent
          rw [Stage.leaves, Bool.or_eq_true] at leaves
          rcases leaves with resume | same
          · refine .inr ⟨resume, ?_⟩
            rw [← Bool.not_eq_true]
            intro answered
            exact Bool.false_ne_true ((resumes answered).symm.trans resume)
          · rw [Option.mem_def.mp member] at same
            exact .inl (of_decide_eq_true same).symm
      | working loaded pending =>
          rw [stage] at sent clean
          cases sent
          rw [Stage.isClean, Option.mem_def.mp member] at clean
          cases clean
      | concluding loaded pending succeeded =>
          rw [stage] at sent leaves
          cases sent
          rw [Stage.leaves, Option.mem_def.mp member] at leaves
          exact .inl (of_decide_eq_true leaves).symm
      | _ =>
          rw [stage] at sent
          cases sent

theorem committed_fits (state : JobProcesses) (stage : Stage) : state.Fits stage.committed := by
  cases stage with
  | updates call loaded write =>
      cases call with
      | run now => exact fits_of_idle rfl (fun _ => rfl) rfl
      | _ => exact fits_of_idle rfl (fun _ => rfl) rfl
  | _ => exact fits_of_idle rfl (fun _ => rfl) rfl

theorem commits_sessions : (state.commits id session write).sessions =
    state.sessions.set id { session with stage := session.stage.committed } := by
  simp only [commits]
  split <;> rfl

theorem commits_undisturbed (undisturbed : state.Undisturbed)
    (found : state.sessions[id]? = some session) (sent : session.stage.write = some write)
    (heeds : (write.apply state.stored).status.isActive = false →
      ∀ other ∈ state.sessions.eraseIdx id,
        other.stage.leaves (write.apply state.stored).status = true) :
    (state.commits id session write).Undisturbed := by
  have fits := undisturbed.fits session (List.mem_of_getElem? found)
  refine ⟨commits_settled undisturbed.settled (kept_of_fits fits sent), ?_⟩
  intro other member
  rw [commits_sessions] at member
  obtain ⟨j, lookup⟩ := List.getElem?_of_mem member
  rcases getElem?_set_cases lookup with ⟨-, rfl⟩ | ⟨apart, before⟩
  · exact committed_fits _ session.stage
  · obtain ⟨clean, -, resumes⟩ := undisturbed.fits other (List.mem_of_getElem? before)
    refine ⟨clean, ?_, ?_⟩
    · rw [commits_stored]
      intro terminal
      exact heeds terminal other (List.mem_eraseIdx_iff_getElem?.mpr ⟨j, apart.symm, before⟩)
    · rw [commits_answered]
      exact resumes

theorem progress_fits {progress : Progress} {stage : Stage} (fits : state.Fits session.stage)
    (moved : session.progress progress = some stage) : state.Fits stage := by
  simp only [JobSession.progress] at moved
  split at moved
  case h_1 loaded pending cursor now before =>
    split at moved
    · cases moved
    · cases moved
      rw [before] at fits
      exact fits_of_idle fits.clean (fun _ => rfl) rfl
  case h_2 loaded pending retryCount before =>
    cases moved
    rw [before] at fits
    exact fits_of_idle fits.clean (fun _ => rfl) rfl
  case h_3 => cases moved

theorem concluded_fits {loaded : Option JobRow} {pending : JobWrite} {ending : Server.Ending}
    {succeeded : Bool}
    (heeds : state.stored.status.isActive = false → ending.status = state.stored.status) :
    state.Fits (JobSession.concluded loaded pending ending succeeded) := by
  refine ⟨rfl, ?_, fun _ => rfl⟩
  intro terminal
  rw [← heeds terminal]
  cases loaded with
  | none => exact decide_eq_true rfl
  | some loaded =>
      simp only [JobSession.concluded, Stage.leaves, Option.map_some, written, changed]
      split
      · rfl
      · exact decide_eq_true rfl

theorem conclude_fits {ending : Option Server.Ending} {stage : Stage}
    (fits : state.Fits session.stage)
    (heeds : state.stored.status.isActive = false →
      ∀ ended ∈ ending, ended.status = state.stored.status)
    (moved : session.conclude ending = some stage) : state.Fits stage := by
  have ends {ended : Server.Ending} (same : ending = some ended)
      (terminal : state.stored.status.isActive = false) : ended.status = state.stored.status :=
    heeds terminal ended same
  simp only [JobSession.conclude] at moved
  split at moved
  case h_1 loaded pending before =>
    cases moved
    rw [before] at fits
    have clean := Option.isNone_iff_eq_none.mp fits.clean
    refine ⟨rfl, ?_, fun _ => rfl⟩
    intro _
    rw [Stage.leaves, clean]
    rfl
  case h_2 =>
    cases moved
    exact concluded_fits (ends rfl)
  case h_3 =>
    cases moved
    exact concluded_fits (ends rfl)
  case h_4 =>
    split at moved
    · cases moved
      exact concluded_fits (ends rfl)
    · cases moved
  case h_5 =>
    cases moved
    exact concluded_fits (ends rfl)
  case h_6 => cases moved

theorem step_undisturbed {event : Event} (undisturbed : state.Undisturbed)
    (heeds : state.Heeds event) (stepped : state.step event = some next) : next.Undisturbed := by
  cases event with
  | call process call =>
      cases stepped
      refine ⟨⟨?_, undisturbed.settled.terminal⟩, ?_⟩
      · intro answered
        exact undisturbed.settled.cancelled (Bool.and_eq_true_iff.mp answered).1
      · intro session member
        rcases List.mem_append.mp member with before | new
        · obtain ⟨clean, leaves, resumes⟩ := undisturbed.fits session before
          exact ⟨clean, leaves, fun answered => resumes (Bool.and_eq_true_iff.mp answered).1⟩
        · cases List.mem_singleton.mp new
          refine ⟨rfl, fun _ => rfl, ?_⟩
          intro answered
          exact Bool.not_eq_true' _ |>.mp (Bool.and_eq_true_iff.mp answered).2
  | advance id =>
      obtain ⟨session, found, advanced⟩ := Option.bind_eq_some_iff.mp stepped
      obtain ⟨loads, answers⟩ := heeds session found
      exact advance_undisturbed undisturbed (List.mem_of_getElem? found) loads answers advanced
  | commit id =>
      obtain ⟨session, found, committed⟩ := Option.bind_eq_some_iff.mp stepped
      obtain ⟨write, sent, rfl⟩ := Option.map_eq_some_iff.mp committed
      exact commits_undisturbed undisturbed found sent (heeds session found write sent)
  | progress id progress =>
      obtain ⟨session, found, progressed⟩ := Option.bind_eq_some_iff.mp stepped
      obtain ⟨stage, moved, rfl⟩ := Option.map_eq_some_iff.mp progressed
      have fits := undisturbed.fits session (List.mem_of_getElem? found)
      exact goesTo_undisturbed undisturbed (progress_fits fits moved)
  | conclude id ending =>
      obtain ⟨session, found, concluded⟩ := Option.bind_eq_some_iff.mp stepped
      obtain ⟨stage, moved, rfl⟩ := Option.map_eq_some_iff.mp concluded
      have fits := undisturbed.fits session (List.mem_of_getElem? found)
      exact goesTo_undisturbed undisturbed (conclude_fits fits heeds moved)
  | lose id reloaded =>
      obtain ⟨session, found, lost⟩ := Option.bind_eq_some_iff.mp stepped
      obtain ⟨stage, moved, rfl⟩ := Option.map_eq_some_iff.mp lost
      simp only [JobSession.lose] at moved
      split at moved
      · cases moved
        exact goesTo_undisturbed undisturbed (fits_of_idle rfl (fun _ => rfl) rfl)
      · cases moved
  | fail id =>
      obtain ⟨session, found, failed⟩ := Option.bind_eq_some_iff.mp stepped
      simp only [fails] at failed
      split at failed
      · cases failed
      · cases failed
        exact goesTo_undisturbed undisturbed (fits_of_idle rfl (fun _ => rfl) rfl)
  | receive process =>
      simp only [step, receive] at stepped
      split at stepped
      · cases stepped
      · cases stepped
        obtain ⟨stored, overturned, answered, sessions⟩ := requestCancel_signals state process
        exact @Signals.undisturbed state _ ⟨stored, overturned, answered, sessions⟩ undisturbed
  | crash process =>
      cases stepped
      refine ⟨⟨undisturbed.settled.cancelled, undisturbed.settled.terminal⟩, ?_⟩
      intro session member
      obtain ⟨before, found, rfl⟩ := List.mem_map.mp member
      split
      · exact fits_of_idle rfl (fun _ => rfl) rfl
      · obtain ⟨clean, leaves, resumes⟩ := undisturbed.fits before found
        exact ⟨clean, leaves, resumes⟩

theorem start_undisturbed (job : JobRow) : (start job).Undisturbed := by
  refine ⟨⟨?_, rfl⟩, ?_⟩
  · intro answered
    cases answered
  · intro session member
    cases member

/-- In a run that leaves a terminal status alone, a cancelled row stays so until it is resumed. -/
theorem heeds_settled (job : JobRow) (events : List Event)
    (heeds : Meets step Heeds (start job) events) : Always step Settled (start job) events :=
  always_of_meets Undisturbed
    (fun _ _ _ undisturbed heeds stepped => step_undisturbed undisturbed heeds stepped)
    (fun _ undisturbed => undisturbed.settled) (start_undisturbed job) heeds

def storedJob (status : JobStatus) (cursor : Option String) : JobRow where
  id := "agg_1"
  dataSourceId := "ds_1"
  graphName := none
  ontologyId := none
  ontologyFingerprint := none
  idempotencyKey := none
  createdAt := 0
  status := status
  retryCount := 0
  maxRetries := 3
  triggerSource := "manual"
  startedAt := none
  lastCheckpointAt := none
  lastCursor := cursor

/-- The statements of a cancel that finds no worker in its process. -/
def cancels (id : Nat) : List Event :=
  [.call 0 (.cancel "ds_1" true), .advance id, .advance id, .commit id, .advance id]

/-- The statements of a worker up to its first batch. -/
def runs (process id : Nat) : List Event :=
  [.call process (.run 5), .advance id, .advance id, .commit id, .advance id]

/-- The worker is in another process and hears of the cancel, and the recovery and the reconciler
find the row cancelled. -/
def heard : List Event :=
  runs 1 0 ++ cancels 1 ++ [.call 2 .recoverInterruptedJobs, .advance 2, .advance 2,
    .call 2 (.reconcileOnce 9), .advance 3, .advance 3, .receive 1,
    .conclude 0 (some .cancelled), .commit 0]

/-- The job is resumed, and a worker completes it. -/
def resumed : List Event :=
  [.call 0 (.resume "ds_1" none), .advance 4, .advance 4, .commit 4] ++ runs 1 5 ++
    [.progress 5 (.checkpoint (some "42") 7), .commit 5, .conclude 5 (some .completed), .commit 5]

theorem heard_settled : Always step Settled (start (storedJob .pending none)) (heard ++ resumed) ∧
    (run step (start (storedJob .pending none)) heard).map (fun last =>
      (last.answered, last.stored.status)) = some (true, .cancelled) ∧
    (run step (start (storedJob .pending none)) (heard ++ resumed)).map (fun last =>
      last.stored.status) = some .completed :=
  ⟨heeds_settled _ _ (by decide +kernel), by decide +kernel, by decide +kernel⟩

/-- The job waits for its worker. -/
def queued : List Event := cancels 0 ++ runs 1 1

/-- The worker is in another process, and is done before it hears of the cancel. -/
def elsewhere : List Event := runs 1 0 ++ cancels 1 ++ [.conclude 0 (some .completed), .commit 0]

/-- The recovery has read the row before the cancel. -/
def recovered : List Event :=
  [.call 2 .recoverInterruptedJobs, .advance 0, .advance 0] ++ cancels 1 ++ [.commit 0] ++ runs 1 2

theorem overwritten_cancels :
    (run step (start (storedJob .pending none)) queued).map (fun last =>
      (last.answered, last.stored.status)) = some (true, .running) ∧
    (run step (start (storedJob .pending none)) elsewhere).map (fun last =>
      (last.answered, last.stored.status)) = some (true, .completed) ∧
    (run step (start (storedJob .running (some "42"))) recovered).map (fun last =>
      (last.answered, last.stored.status)) = some (true, .running) := by
  decide +kernel

theorem not_settled : ¬ ∃ case ∈ [(storedJob .pending none, queued),
      (storedJob .pending none, elsewhere), (storedJob .running (some "42"), recovered)],
    ∀ last, run step (start case.1) case.2 = some last → last.Settled := by
  intro ⟨case, member, always⟩
  simp only [List.mem_cons, List.not_mem_nil, or_false] at member
  have overwritten {status : JobStatus} (other : status ≠ .cancelled)
      (ran : (run step (start case.1) case.2).map (fun last =>
        (last.answered, last.stored.status)) = some (true, status)) : False := by
    obtain ⟨last, ran, shape⟩ := Option.map_eq_some_iff.mp ran
    simp only [Prod.mk.injEq] at shape
    exact other (shape.2.symm.trans ((always last ran).cancelled shape.1))
  obtain ⟨first, second, third⟩ := overwritten_cancels
  rcases member with rfl | rfl | rfl
  · exact overwritten (by decide) first
  · exact overwritten (by decide) second
  · exact overwritten (by decide) third

end JobProcesses

end Univiz.Aggregation
