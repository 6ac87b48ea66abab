import Univiz.Auth.Rotation

namespace Univiz.Auth

open Univiz.Data

/-! The requests of one tab.  Those that get a 401 share a refresh, so the tab presents each token
of its family once. -/

/-- A refresh that `tryRefresh` has started: its request is on its way with the token in the jar,
the server is at work on it, its answer is on its way with a new token, or its promise has
settled. -/
inductive Refresh where
  | posted (jti : Option Jti)
  | called (id : Nat)
  | exchanged (minted : Jti)
  | settled (ok : Bool)
deriving DecidableEq

inductive Progress where
  | first
  | refreshing (refresh : Nat)
  | backingOff
  | second
  | returned (status : Nat)
  | threw
deriving DecidableEq

/-- A call of `fetchWithTimeout`, for another endpoint than that of refreshes. -/
structure Fetch where
  safeMethod : Bool
  progress : Progress
  sent : Nat
deriving DecidableEq

inductive Answer where
  | failed
  | response (status : Nat) (waitMs : Option Nat)
deriving DecidableEq

/-- `leaving` are the logout calls whose answers have not come. -/
structure Tab where
  server : State
  jar : Option Jti
  refreshes : List Refresh
  refreshInFlight : Option Nat
  fetches : List Fetch
  leaving : List Nat
  sessionLost : Bool

namespace Tab

/-- Only `settle` and `loggedOut` change the cookies: those that are deleted together with a 401
are lost with the response that the exception replaces. -/
inductive Event where
  | fetch (safeMethod : Bool)
  | answer (fetch : Nat) (answer : Answer)
  | resume (fetch : Nat)
  | wake (fetch : Nat)
  | arrive (refresh : Nat)
  | serve (id : Nat) (active : Bool) (minted : Jti)
  | fail (id : Nat)
  | settle (refresh : Nat)
  /-- The request, or its answer, does not come through, or it is turned away before the service
  has seen the token. -/
  | lose (refresh : Nat)
  | clear
  | logout
  | loggedOut (id : Nat)

def login (jti : Jti) : Tab := ⟨State.login jti, some jti, [], none, [], [], false⟩

variable (tab : Tab)

/-- Requests that come while a refresh is in flight get the promise of that. -/
def tryRefresh : Tab × Nat :=
  match tab.refreshInFlight with
  | some refresh => (tab, refresh)
  | none =>
      ({ tab with
        refreshes := tab.refreshes ++ [.posted tab.jar]
        refreshInFlight := some tab.refreshes.length }, tab.refreshes.length)

def setFetch (id : Nat) (fetch : Fetch) : Tab := { tab with fetches := tab.fetches.set id fetch }

/-- What follows the first answer to a request. -/
def firstAnswered (id : Nat) (fetch : Fetch) : Answer → Tab
  | .failed => tab.setFetch id { fetch with progress := .threw }
  | .response status waitMs =>
      if status = 401 then
        let (tab, refresh) := tab.tryRefresh
        tab.setFetch id { fetch with progress := .refreshing refresh }
      else if (status = 429 ∨ status = 503) ∧ fetch.safeMethod = true ∧ waitMs.isSome then
        tab.setFetch id { fetch with progress := .backingOff }
      else tab.setFetch id { fetch with progress := .returned status }

def secondAnswered (id : Nat) (fetch : Fetch) : Answer → Tab
  | .failed => tab.setFetch id { fetch with progress := .threw }
  | .response status _ => tab.setFetch id { fetch with progress := .returned status }

def sendAgain (id : Nat) (fetch : Fetch) : Tab :=
  tab.setFetch id { fetch with progress := .second, sent := fetch.sent + 1 }

/-- The answer to the refresh whose call has just committed leaves with the new token. -/
def served (calls : List Call) (id : Nat) (minted : Jti) : Refresh → Refresh
  | .called call =>
      if call = id ∧ (calls[id]?.map Call.phase) = some .succeeded then .exchanged minted
      else .called call
  | refresh => refresh

def settleRefresh (id : Nat) (ok : Bool) : Tab :=
  { tab with refreshes := tab.refreshes.set id (.settled ok) }

def step (familyId : String) : Event → Option Tab
  | .fetch safeMethod => some { tab with fetches := tab.fetches ++ [⟨safeMethod, .first, 1⟩] }
  | .answer id answer =>
      tab.fetches[id]?.bind fun fetch =>
        match fetch.progress with
        | .first => some (tab.firstAnswered id fetch answer)
        | .second => some (tab.secondAnswered id fetch answer)
        | _ => none
  | .resume id =>
      tab.fetches[id]?.bind fun fetch =>
        match fetch.progress with
        | .refreshing refresh =>
            match tab.refreshes[refresh]? with
            | some (.settled true) => some (tab.sendAgain id fetch)
            | some (.settled false) =>
                some { tab.setFetch id { fetch with progress := .returned 401 } with
                  sessionLost := true }
            | _ => none
        | _ => none
  | .wake id =>
      tab.fetches[id]?.bind fun fetch =>
        match fetch.progress with
        | .backingOff => some (tab.sendAgain id fetch)
        | _ => none
  | .arrive refresh =>
      match tab.refreshes[refresh]? with
      | some (.posted (some jti)) =>
          (Auth.step familyId tab.server (.refresh jti)).map fun server =>
            { tab with
              server := server
              refreshes := tab.refreshes.set refresh (.called tab.server.calls.length) }
      | _ => none
  | .serve id active minted =>
      (Auth.step familyId tab.server (.advance id active minted)).map fun server =>
        { tab with
          server := server
          refreshes := tab.refreshes.map (served server.calls id minted) }
  | .fail id =>
      (Auth.step familyId tab.server (.fail id)).map fun server => { tab with server := server }
  | .settle refresh =>
      match tab.refreshes[refresh]? with
      | some (.called id) =>
          (tab.server.calls[id]?.filter fun call => call.phase.ended).map fun _ =>
            tab.settleRefresh refresh false
      | some (.exchanged minted) =>
          some { tab.settleRefresh refresh true with jar := some minted }
      | _ => none
  | .lose refresh =>
      match tab.refreshes[refresh]? with
      | some (.settled _) | none => none
      | _ => some (tab.settleRefresh refresh false)
  | .clear =>
      tab.refreshInFlight.bind fun refresh =>
        match tab.refreshes[refresh]? with
        | some (.settled _) => some { tab with refreshInFlight := none }
        | _ => none
  | .logout =>
      tab.jar.bind fun jti =>
        (Auth.step familyId tab.server (.logout jti)).map fun server =>
          { tab with
            server := server
            leaving := tab.leaving ++ [tab.server.calls.length] }
  | .loggedOut id =>
      if id ∈ tab.leaving then
        (tab.server.calls[id]?.filter fun call => call.phase.ended).map fun call =>
          { tab with
            leaving := tab.leaving.erase id
            jar := if call.phase = .loggedOut then none else tab.jar }
      else none

end Tab

def Refresh.pending : Refresh → Bool
  | .posted _ | .called _ | .exchanged _ => true
  | .settled _ => false

/-- The server has not seen the token, or has turned it down. -/
def Refresh.Refused (calls : List Call) : Refresh → Prop
  | .called id => ∀ call, calls[id]? = some call → call.phase.ended = true
  | .exchanged _ => False
  | .posted _ | .settled _ => True

/-- The tab is told of the tokens that it gets. -/
def Tab.Delivers (tab : Tab) : Tab.Event → Prop
  | .lose id => ∀ refresh, tab.refreshes[id]? = some refresh → refresh.Refused tab.server.calls
  | _ => True

instance (calls : List Call) : (refresh : Refresh) → Decidable (refresh.Refused calls)
  | .called id => inferInstanceAs (Decidable
      (∀ call, calls[id]? = some call → call.phase.ended = true))
  | .exchanged _ => isFalse id
  | .posted _ | .settled _ => isTrue trivial

instance (tab : Tab) : (event : Tab.Event) → Decidable (tab.Delivers event)
  | .lose id => inferInstanceAs (Decidable
      (∀ refresh, tab.refreshes[id]? = some refresh → refresh.Refused tab.server.calls))
  | .fetch _ | .answer .. | .resume _ | .wake _ | .arrive _ | .serve .. | .fail _ | .settle _
  | .clear | .logout | .loggedOut _ => isTrue trivial

/-- The call has found its token to be exchanged already. -/
def Phase.reuses : Phase → Bool
  | .revokeFamily error | .raising error | .rejected error => error = "reuse_detected"
  | _ => false

structure Tab.Sound (tab : Tab) : Prop where
  safe : tab.server.Safe
  single : ∀ (i j : Nat) (refresh other : Refresh), tab.refreshes[i]? = some refresh →
    tab.refreshes[j]? = some other → refresh.pending = true → other.pending = true → i = j
  reuse : ∀ call ∈ tab.server.calls, call.phase.reuses = false
  sent : ∀ fetch ∈ tab.fetches, fetch.sent ≤ 2
  lost : tab.sessionLost = true → .settled false ∈ tab.refreshes

/-- A refresh whose session can still commit. -/
def Phase.running : Phase → Bool
  | .isFamilyRevoked | .isJtiRevoked | .revokeJti | .getUser | .commit => true
  | _ => false

section Turns

variable {familyId : String} {state : State} {id : Nat} {call : Call} {active : Bool} {turn : Turn}
  {minted : Jti}

theorem Phase.running_of_ended {phase : Phase} (ended : phase.ended = true) :
    phase.running = false := by
  cases phase with
  | succeeded | rejected | loggedOut => rfl
  | _ => cases ended

theorem Phase.running_of_passed {phase : Phase} (passed : phase.passed = true) :
    phase.running = true := by
  cases phase with
  | revokeJti | getUser | commit => rfl
  | _ => cases passed

theorem turn_running (taken : state.turn familyId id active call = some turn)
    (running : turn.call.phase.running = true) : call.phase.running = true := by
  simp only [State.turn] at taken
  cases phase : call.phase with
  | isFamilyRevoked | isJtiRevoked | revokeJti | getUser | commit => rfl
  | revokeFamily error | logout =>
      simp only [phase] at taken
      obtain ⟨inserted, _, rfl⟩ := Option.map_eq_some_iff.mp taken
      cases running
  | raising error | logoutCommit =>
      simp only [phase] at taken
      cases taken
      cases running
  | succeeded | rejected error | loggedOut => simp [phase] at taken

theorem turn_reuses (taken : state.turn familyId id active call = some turn)
    (unused : call.phase = .isJtiRevoked → call.jti.val ∉ state.committed ∪ call.pending)
    (clean : call.phase.reuses = false) : turn.call.phase.reuses = false := by
  simp only [State.turn] at taken
  cases phase : call.phase with
  | isJtiRevoked =>
      simp only [phase] at taken
      rw [if_neg (unused phase)] at taken
      cases taken
      rfl
  | isFamilyRevoked | getUser =>
      simp only [phase] at taken
      split at taken
      · cases taken
        rfl
      · cases taken
        rfl
  | revokeJti | logout =>
      simp only [phase] at taken
      obtain ⟨inserted, _, rfl⟩ := Option.map_eq_some_iff.mp taken
      rfl
  | revokeFamily error =>
      simp only [phase] at taken clean
      obtain ⟨inserted, _, rfl⟩ := Option.map_eq_some_iff.mp taken
      exact clean
  | raising error =>
      simp only [phase] at taken clean
      cases taken
      exact clean
  | commit | logoutCommit =>
      simp only [phase] at taken
      cases taken
      rfl
  | succeeded | rejected error | loggedOut => simp [phase] at taken

theorem turn_succeeds (taken : state.turn familyId id active call = some turn)
    (commits : turn.commits = true) (holds : call.phase.holds = true) :
    turn.call.phase = .succeeded := by
  simp only [State.turn] at taken
  cases phase : call.phase with
  | commit =>
      simp only [phase] at taken
      cases taken
      rfl
  | revokeJti =>
      simp only [phase] at taken
      obtain ⟨inserted, _, rfl⟩ := Option.map_eq_some_iff.mp taken
      cases commits
  | getUser =>
      simp only [phase] at taken
      split at taken
      · cases taken
        cases commits
      · cases taken
        cases commits
  | succeeded => simp [phase] at taken
  | isFamilyRevoked | isJtiRevoked | revokeFamily _ | raising _ | rejected _ | logout
  | logoutCommit | loggedOut =>
      rw [phase] at holds
      cases holds

/-- A turn records the token of a refresh that succeeds with it, and no other. -/
theorem mem_committed_take {jti : Jti} (guarded : Guarded familyId state)
    (found : state.calls[id]? = some call)
    (taken : state.turn familyId id active call = some turn)
    (recorded : jti.val ∈ (state.take id call minted turn).committed) :
    jti.val ∈ state.committed ∨ jti = call.jti ∧ turn.call.phase = .succeeded := by
  have spec := turn_spec (guarded.sound id call found) (guarded.late id call found) taken
  simp only [State.take] at recorded
  split at recorded
  · rename_i commits
    rcases Finset.mem_union.mp recorded with before | inserted
    · exact .inl before
    · rcases spec.rows commits _ inserted with sentinel | ⟨same, holds⟩
      · exact absurd sentinel (familySentinel_ne familyId jti)
      · exact .inr ⟨Subtype.ext same, turn_succeeds taken commits holds⟩
  · exact .inl recorded

end Turns

/-- The token that a request or an answer carries. -/
def Refresh.carried : Refresh → Option Jti
  | .posted jti => jti
  | .exchanged minted => some minted
  | .called _ | .settled _ => none

/-- At most one refresh is pending, and the tokens outside its call have not been exchanged.  While
an answer with a new token is on its way, the jar may hold the old one. -/
structure Tab.Kept (familyId : String) (tab : Tab) : Prop where
  guarded : Guarded familyId tab.server
  calls : ∀ (id : Nat) (call : Call), tab.server.calls[id]? = some call → call.jti ∈ tab.server.issued
  committed : ∀ jti : Jti, jti.val ∈ tab.server.committed → jti ∈ tab.server.issued
  reuse : ∀ call ∈ tab.server.calls, call.phase.reuses = false
  flight : ∀ (i : Nat) (refresh : Refresh), tab.refreshes[i]? = some refresh → refresh.pending = true →
    tab.refreshInFlight = some i
  running : ∀ (id : Nat) (call : Call), tab.server.calls[id]? = some call →
    call.phase.running = true →
      call.jti.val ∉ tab.server.committed ∧ ∃ i : Nat, tab.refreshes[i]? = some (.called id)
  carried : ∀ refresh ∈ tab.refreshes, ∀ jti, refresh.carried = some jti →
    jti ∈ tab.server.issued ∧ jti.val ∉ tab.server.committed
  jar : ∀ jti, tab.jar = some jti → jti ∈ tab.server.issued ∧
    (jti.val ∈ tab.server.committed →
      ∃ (i : Nat) (minted : Jti), tab.refreshes[i]? = some (.exchanged minted))

section Steps

variable {familyId : String} {tab next : Tab} {id : Nat} {jti minted : Jti} {refresh : Refresh}
  {call : Call}

theorem login_kept : (Tab.login jti).Kept familyId where
  guarded := login_guarded jti
  calls _ _ found := by cases found
  committed _ recorded := by cases recorded
  reuse _ member := by cases member
  flight _ _ found := by cases found
  running _ _ found := by cases found
  carried _ member := by cases member
  jar other isJti := by
    cases isJti
    exact ⟨Finset.mem_singleton_self _, fun recorded => by cases recorded⟩

namespace Tab.Kept

theorem single (kept : tab.Kept familyId) {i j : Nat} {other : Refresh}
    (lookup : tab.refreshes[i]? = some refresh) (lookup' : tab.refreshes[j]? = some other)
    (pending : refresh.pending = true) (pending' : other.pending = true) :
    i = j ∧ refresh = other := by
  have here := kept.flight i refresh lookup pending
  have there := kept.flight j other lookup' pending'
  obtain rfl := Option.some.inj (here.symm.trans there)
  exact ⟨rfl, Option.some.inj (lookup.symm.trans lookup')⟩

theorem tryRefresh (kept : tab.Kept familyId) : tab.tryRefresh.1.Kept familyId := by
  unfold Tab.tryRefresh
  split
  · exact kept
  · rename_i idle
    have settled (i : Nat) (refresh : Refresh) (lookup : tab.refreshes[i]? = some refresh) :
        refresh.pending = false := by
      by_contra pending
      cases idle.symm.trans (kept.flight i refresh lookup (Bool.eq_true_of_not_eq_false pending))
    refine ⟨kept.guarded, kept.calls, kept.committed, kept.reuse, ?_, ?_, ?_, ?_⟩
    · intro i refresh lookup pending
      rw [List.getElem?_append] at lookup
      split at lookup
      · cases pending.symm.trans (settled i refresh lookup)
      · have last := (List.getElem?_eq_some_iff.mp lookup).1
        rw [List.length_singleton] at last
        exact congrArg some (by omega)
    · intro id call found running
      obtain ⟨unused, i, lookup⟩ := kept.running id call found running
      exact ⟨unused, i, getElem?_concat lookup⟩
    · intro refresh member jti isJti
      rcases List.mem_append.mp member with old | new
      · exact kept.carried refresh old jti isJti
      · cases List.mem_singleton.mp new
        obtain ⟨issued, exchanged⟩ := kept.jar jti isJti
        refine ⟨issued, ?_⟩
        intro recorded
        obtain ⟨i, minted, lookup⟩ := exchanged recorded
        cases settled i _ lookup
    · intro jti isJti
      obtain ⟨issued, exchanged⟩ := kept.jar jti isJti
      refine ⟨issued, ?_⟩
      intro recorded
      obtain ⟨i, minted, lookup⟩ := exchanged recorded
      exact ⟨i, minted, getElem?_concat lookup⟩

/-- What `Kept` is about is not among the fetches. -/
theorem frame (kept : tab.Kept familyId) (server : next.server = tab.server)
    (jar : next.jar = tab.jar) (refreshes : next.refreshes = tab.refreshes)
    (refreshInFlight : next.refreshInFlight = tab.refreshInFlight) : next.Kept familyId := by
  obtain ⟨_, _, _, _, fetches, leaving, lost⟩ := next
  subst server jar refreshes refreshInFlight
  exact ⟨kept.guarded, kept.calls, kept.committed, kept.reuse, kept.flight, kept.running,
    kept.carried, kept.jar⟩

theorem settle (kept : tab.Kept familyId) {i : Nat} {ok : Bool} {jar : Option Jti}
    (lookup : tab.refreshes[i]? = some refresh)
    (ended : ∀ (id : Nat) (call : Call), refresh = .called id →
      tab.server.calls[id]? = some call → call.phase.running = false)
    (fresh : ∀ jti, jar = some jti → jti ∈ tab.server.issued ∧ (jti.val ∈ tab.server.committed →
      ∃ (j : Nat) (minted : Jti), i ≠ j ∧ tab.refreshes[j]? = some (.exchanged minted))) :
    Tab.Kept familyId { tab.settleRefresh i ok with jar := jar } where
  guarded := kept.guarded
  calls := kept.calls
  committed := kept.committed
  reuse := kept.reuse
  flight := by
    intro j other found pending
    rcases getElem?_set_cases found with ⟨_, rfl⟩ | ⟨_, there⟩
    · cases pending
    · exact kept.flight j other there pending
  running := by
    intro id call found running
    obtain ⟨unused, j, there⟩ := kept.running id call found running
    refine ⟨unused, j, ?_⟩
    by_cases here : i = j
    · subst here
      cases lookup.symm.trans there
      cases running.symm.trans (ended id call rfl found)
    · exact (List.getElem?_set_ne here).trans there
  carried := by
    intro other member jti isJti
    rcases List.mem_or_eq_of_mem_set member with there | rfl
    · exact kept.carried other there jti isJti
    · cases isJti
  jar := by
    intro jti isJti
    obtain ⟨issued, exchanged⟩ := fresh jti isJti
    refine ⟨issued, ?_⟩
    intro recorded
    obtain ⟨j, minted, elsewhere, there⟩ := exchanged recorded
    exact ⟨j, minted, (List.getElem?_set_ne elsewhere).trans there⟩

/-- A refresh that ends without a token leaves the jar as it is. -/
theorem jar_keeps (kept : tab.Kept familyId) {i : Nat} (lookup : tab.refreshes[i]? = some refresh)
    (empty : ∀ minted, refresh ≠ .exchanged minted) (jti : Jti) (isJti : tab.jar = some jti) :
    jti ∈ tab.server.issued ∧ (jti.val ∈ tab.server.committed →
      ∃ (j : Nat) (minted : Jti), i ≠ j ∧ tab.refreshes[j]? = some (.exchanged minted)) := by
  obtain ⟨issued, exchanged⟩ := kept.jar jti isJti
  refine ⟨issued, ?_⟩
  intro recorded
  obtain ⟨j, minted, there⟩ := exchanged recorded
  refine ⟨j, minted, ?_, there⟩
  rintro rfl
  exact empty minted (Option.some.inj (lookup.symm.trans there))

/-- A token that has been exchanged is not sent again. -/
theorem arrive (kept : tab.Kept familyId) {i : Nat} {server : State}
    (lookup : tab.refreshes[i]? = some (.posted (some jti)))
    (stepped : Auth.step familyId tab.server (.refresh jti) = some server) :
    Tab.Kept familyId { tab with
      server := server
      refreshes := tab.refreshes.set i (.called tab.server.calls.length) } := by
  obtain ⟨issued, unused⟩ := kept.carried _ (List.mem_of_getElem? lookup) jti rfl
  have unexchanged : tab.server.exchanged jti = false := by
    apply Bool.eq_false_iff.mpr
    intro exchanged
    obtain ⟨call, member, done⟩ := List.any_eq_true.mp exchanged
    obtain ⟨id, found⟩ := List.getElem?_of_mem member
    obtain ⟨succeeded, rfl⟩ := of_decide_eq_true done
    have sound := kept.guarded.sound id call found
    rw [Call.Sound, succeeded] at sound
    exact unused sound.2
  have allowed : Allowed familyId tab.server (.refresh jti) := by
    intro exchanged
    cases unexchanged.symm.trans exchanged
  have guarded := step_guarded kept.guarded allowed stepped
  simp only [Auth.step, if_pos issued, Option.some.injEq] at stepped
  subst stepped
  have alone (j : Nat) (other : Refresh) (there : tab.refreshes[j]? = some other)
      (pending : other.pending = true) : i = j := (kept.single lookup there rfl pending).1
  refine ⟨guarded, ?_, kept.committed, ?_, ?_, ?_, ?_, ?_⟩
  · intro id call found
    rcases getElem?_concat_cases found with old | rfl
    · exact kept.calls id call old
    · exact issued
  · intro call member
    rcases List.mem_append.mp member with old | new
    · exact kept.reuse call old
    · rw [List.mem_singleton.mp new]
      rfl
  · intro j other found pending
    rcases getElem?_set_cases found with ⟨rfl, _⟩ | ⟨elsewhere, there⟩
    · exact kept.flight i _ lookup rfl
    · exact absurd (alone j other there pending) elsewhere
  · intro id call found running
    rw [List.getElem?_append] at found
    split at found
    · obtain ⟨_, j, there⟩ := kept.running id call found running
      cases (kept.single lookup there rfl rfl).2
    · have last := (List.getElem?_eq_some_iff.mp found).1
      rw [List.length_singleton] at last
      obtain rfl : id = tab.server.calls.length := by omega
      rw [Nat.sub_self] at found
      cases found
      exact ⟨unused, i, List.getElem?_set_self (List.getElem?_eq_some_iff.mp lookup).1⟩
  · intro other member jti isJti
    rcases List.mem_or_eq_of_mem_set member with there | rfl
    · exact kept.carried other there jti isJti
    · cases isJti
  · intro jti isJti
    obtain ⟨issued, exchanged⟩ := kept.jar jti isJti
    refine ⟨issued, ?_⟩
    intro recorded
    obtain ⟨j, minted, there⟩ := exchanged recorded
    cases (kept.single lookup there rfl rfl).2

/-- A refresh at its check is the only one that is running. -/
theorem allows (kept : tab.Kept familyId) {active : Bool} :
    Allowed familyId tab.server (.advance id active minted) := by
  intro call found checking
  have running : call.phase.running = true := by rw [checking]; rfl
  obtain ⟨unused, i, lookup⟩ := kept.running id call found running
  rw [if_neg unused]
  intro other member _
  by_contra passed
  have passed := Bool.eq_true_of_not_eq_false passed
  obtain ⟨id', found'⟩ := List.getElem?_of_mem member
  obtain ⟨_, j, lookup'⟩ := kept.running id' other found' (Phase.running_of_passed passed)
  cases (kept.single lookup lookup' rfl rfl).2
  cases found.symm.trans found'
  rw [checking] at passed
  cases passed

theorem serve (kept : tab.Kept familyId) {active : Bool} {server : State}
    (stepped : Auth.step familyId tab.server (.advance id active minted) = some server) :
    Tab.Kept familyId { tab with
      server := server
      refreshes := tab.refreshes.map (served server.calls id minted) } := by
  have guarded := step_guarded kept.guarded kept.allows stepped
  obtain ⟨call, found, continued⟩ := Option.bind_eq_some_iff.mp stepped
  split at continued
  · cases continued
  rename_i new
  obtain ⟨turn, taken, rfl⟩ := Option.map_eq_some_iff.mp continued
  have spec := turn_spec (kept.guarded.sound id call found) (kept.guarded.late id call found) taken
  have inside := (List.getElem?_eq_some_iff.mp found).1
  have phase : ((tab.server.take id call minted turn).calls[id]?.map Call.phase) =
      some turn.call.phase := by
    rw [State.take, List.getElem?_set_self inside, Option.map_some]
  have issued : tab.server.issued ⊆ (tab.server.take id call minted turn).issued := by
    simp only [State.take]
    split
    · exact Finset.subset_insert _ _
    · exact subset_rfl
  -- a call that succeeds was running, so its refresh is the pending one
  have own (succeeds : turn.call.phase = .succeeded) :
      ∃ i : Nat, tab.refreshes[i]? = some (.called id) := by
    have running : call.phase.running = true := by
      have holds := spec.holds (by rw [succeeds]; rfl)
      rcases holds with holds | ⟨checking, _⟩
      · rw [Phase.holds, Bool.or_eq_true] at holds
        rcases holds with passed | done
        · exact Phase.running_of_passed passed
        · rw [State.turn, of_decide_eq_true done] at taken
          cases taken
      · rw [checking]
        rfl
    exact (kept.running id call found running).2
  have lookups {i : Nat} {refresh : Refresh}
      (lookup : (tab.refreshes.map (served (tab.server.take id call minted turn).calls id
        minted))[i]? = some refresh) :
      tab.refreshes[i]? = some refresh ∨ tab.refreshes[i]? = some (.called id) ∧
        refresh = .exchanged minted ∧ turn.call.phase = .succeeded := by
    rw [List.getElem?_map] at lookup
    obtain ⟨old, there, rfl⟩ := Option.map_eq_some_iff.mp lookup
    cases old with
    | called other =>
        rw [served, phase]
        split
        · rename_i succeeds
          obtain ⟨rfl, succeeds⟩ := succeeds
          exact .inr ⟨there, rfl, Option.some.inj succeeds⟩
        · exact .inl there
    | posted | exchanged | settled => exact .inl there
  have unrecorded {jti : Jti} (absent : jti.val ∉ tab.server.committed)
      (other : turn.call.phase = .succeeded → jti ≠ call.jti) :
      jti.val ∉ (tab.server.take id call minted turn).committed := by
    intro recorded
    rcases mem_committed_take kept.guarded found taken recorded with before | ⟨same, succeeds⟩
    · exact absent before
    · exact other succeeds same
  refine ⟨guarded, ?_, ?_, ?_, ?_, ?_, ?_, ?_⟩
  · intro j other lookup
    apply issued
    rcases getElem?_set_cases lookup with ⟨_, rfl⟩ | ⟨_, there⟩
    · rw [spec.jti]
      exact kept.calls id call found
    · exact kept.calls j other there
  · intro jti recorded
    apply issued
    rcases mem_committed_take kept.guarded found taken recorded with before | ⟨rfl, _⟩
    · exact kept.committed jti before
    · exact kept.calls id call found
  · intro other member
    rcases List.mem_or_eq_of_mem_set member with there | rfl
    · exact kept.reuse other there
    · refine turn_reuses taken ?_ (kept.reuse call (List.mem_of_getElem? found))
      intro checking
      have sound := kept.guarded.sound id call found
      rw [Call.Sound, checking] at sound
      rw [sound.1, Finset.union_empty]
      exact (kept.running id call found (by rw [checking]; rfl)).1
  · intro i refresh lookup pending
    rcases lookups lookup with there | ⟨there, _, _⟩
    · exact kept.flight i refresh there pending
    · exact kept.flight i _ there rfl
  · intro j other lookup running
    have before : ∃ old, tab.server.calls[j]? = some old ∧ old.jti = other.jti ∧
        old.phase.running = true ∧ (id = j → turn.call.phase ≠ .succeeded) := by
      rcases getElem?_set_cases lookup with ⟨rfl, rfl⟩ | ⟨elsewhere, there⟩
      · refine ⟨call, found, spec.jti.symm, turn_running taken running, ?_⟩
        intro _ succeeds
        rw [succeeds] at running
        cases running
      · exact ⟨other, there, rfl, running, fun here => absurd here elsewhere⟩
    obtain ⟨old, there, same, wasRunning, unfinished⟩ := before
    obtain ⟨unused, i, lookup'⟩ := kept.running j old there wasRunning
    have quiet : turn.call.phase ≠ .succeeded := by
      intro succeeds
      obtain ⟨_, mine⟩ := own succeeds
      cases (kept.single mine lookup' rfl rfl).2
      exact unfinished rfl succeeds
    rw [← same]
    refine ⟨unrecorded unused fun succeeds => absurd succeeds quiet, i, ?_⟩
    rw [List.getElem?_map, lookup', Option.map_some, served, phase, if_neg]
    exact fun succeeds => quiet (Option.some.inj succeeds.2)
  · intro refresh member jti isJti
    obtain ⟨i, lookup⟩ := List.getElem?_of_mem member
    rcases lookups lookup with there | ⟨_, rfl, succeeds⟩
    · obtain ⟨known, unused⟩ := kept.carried refresh (List.mem_of_getElem? there) jti isJti
      refine ⟨issued known, unrecorded unused ?_⟩
      intro succeeds
      obtain ⟨_, mine⟩ := own succeeds
      have pending : refresh.pending = true := by
        cases refresh with
        | posted | called | exchanged => rfl
        | settled => cases isJti
      cases (kept.single mine there rfl pending).2
      cases isJti
    · cases isJti
      refine ⟨?_, unrecorded (fun recorded => new (kept.committed _ recorded)) ?_⟩
      · rw [State.take, if_pos succeeds]
        exact Finset.mem_insert_self _ _
      · rintro _ rfl
        exact new (kept.calls id call found)
  · intro jti isJti
    obtain ⟨known, exchanged⟩ := kept.jar jti isJti
    refine ⟨issued known, ?_⟩
    intro recorded
    rcases mem_committed_take kept.guarded found taken recorded with before | ⟨_, succeeds⟩
    · obtain ⟨i, other, there⟩ := exchanged before
      exact ⟨i, other, by rw [List.getElem?_map, there]; rfl⟩
    · obtain ⟨i, mine⟩ := own succeeds
      refine ⟨i, minted, ?_⟩
      rw [List.getElem?_map, mine, Option.map_some, served, phase, if_pos ⟨rfl, by rw [succeeds]⟩]

theorem fail (kept : tab.Kept familyId) {server : State}
    (stepped : Auth.step familyId tab.server (.fail id) = some server) :
    Tab.Kept familyId { tab with server := server } := by
  have allowed : Allowed familyId tab.server (.fail id) := trivial
  have guarded := step_guarded kept.guarded allowed stepped
  obtain ⟨call, found, continued⟩ := Option.bind_eq_some_iff.mp stepped
  split at continued
  · cases continued
  cases continued
  refine ⟨guarded, ?_, kept.committed, ?_, kept.flight, ?_, kept.carried, kept.jar⟩
  · intro j other lookup
    rcases getElem?_set_cases lookup with ⟨_, rfl⟩ | ⟨_, there⟩
    · exact kept.calls id call found
    · exact kept.calls j other there
  · intro other member
    rcases List.mem_or_eq_of_mem_set member with there | rfl
    · exact kept.reuse other there
    · rfl
  · intro j other lookup running
    rcases getElem?_set_cases lookup with ⟨_, rfl⟩ | ⟨_, there⟩
    · cases running
    · exact kept.running j other there running

theorem logout (kept : tab.Kept familyId) {server : State} {leaving : List Nat}
    (stepped : Auth.step familyId tab.server (.logout jti) = some server) :
    Tab.Kept familyId { tab with server := server, leaving := leaving } := by
  have allowed : Allowed familyId tab.server (.logout jti) := trivial
  have guarded := step_guarded kept.guarded allowed stepped
  simp only [Auth.step] at stepped
  split at stepped
  · rename_i issued
    cases stepped
    refine ⟨guarded, ?_, kept.committed, ?_, kept.flight, ?_, kept.carried, kept.jar⟩
    · intro id call found
      rcases getElem?_concat_cases found with old | rfl
      · exact kept.calls id call old
      · exact issued
    · intro call member
      rcases List.mem_append.mp member with old | new
      · exact kept.reuse call old
      · rw [List.mem_singleton.mp new]
        rfl
    · intro id call found running
      rcases getElem?_concat_cases found with old | rfl
      · exact kept.running id call old running
      · cases running
  · cases stepped

end Tab.Kept

/-- Fetches send their request once, and once more after a refresh or a pause. -/
structure Tab.Frugal (tab : Tab) : Prop where
  sent : ∀ fetch ∈ tab.fetches, fetch.sent ≤ 2 ∧
    (fetch.progress = .first ∨ fetch.progress = .backingOff ∨
      (∃ refresh, fetch.progress = .refreshing refresh) → fetch.sent ≤ 1)
  lost : tab.sessionLost = true → .settled false ∈ tab.refreshes

namespace Tab.Frugal

theorem setFetch (frugal : tab.Frugal) {fetch : Fetch}
    (sent : fetch.sent ≤ 2 ∧ (fetch.progress = .first ∨ fetch.progress = .backingOff ∨
      (∃ refresh, fetch.progress = .refreshing refresh) → fetch.sent ≤ 1)) :
    (tab.setFetch id fetch).Frugal where
  sent := by
    intro other member
    rcases List.mem_or_eq_of_mem_set member with there | rfl
    · exact frugal.sent other there
    · exact sent
  lost := frugal.lost

theorem sendAgain (frugal : tab.Frugal) {fetch : Fetch} (once : fetch.sent ≤ 1) :
    (tab.sendAgain id fetch).Frugal := by
  refine frugal.setFetch ⟨Nat.succ_le_succ once, ?_⟩
  rintro (first | backingOff | ⟨_, refreshing⟩)
  · cases first
  · cases backingOff
  · cases refreshing

theorem conclude (frugal : tab.Frugal) {fetch : Fetch} {progress : Progress}
    (sent : fetch.sent ≤ 2) (ended : progress = .threw ∨ ∃ status, progress = .returned status) :
    (tab.setFetch id { fetch with progress := progress }).Frugal := by
  refine frugal.setFetch ⟨sent, ?_⟩
  rcases ended with rfl | ⟨status, rfl⟩
  · rintro (first | backingOff | ⟨_, refreshing⟩)
    · cases first
    · cases backingOff
    · cases refreshing
  · rintro (first | backingOff | ⟨_, refreshing⟩)
    · cases first
    · cases backingOff
    · cases refreshing

theorem tryRefresh (frugal : tab.Frugal) : tab.tryRefresh.1.Frugal := by
  unfold Tab.tryRefresh
  split
  · exact frugal
  · exact ⟨frugal.sent, fun lost => List.mem_append_left _ (frugal.lost lost)⟩

theorem firstAnswered (frugal : tab.Frugal) {fetch : Fetch} {answer : Answer}
    (once : fetch.sent ≤ 1) : (tab.firstAnswered id fetch answer).Frugal := by
  have sent : fetch.sent ≤ 2 := Nat.le_succ_of_le once
  cases answer with
  | failed => exact frugal.conclude sent (.inl rfl)
  | response status waitMs =>
      simp only [Tab.firstAnswered]
      split
      · exact frugal.tryRefresh.setFetch ⟨sent, fun _ => once⟩
      · split
        · exact frugal.setFetch ⟨sent, fun _ => once⟩
        · exact frugal.conclude sent (.inr ⟨status, rfl⟩)

theorem secondAnswered (frugal : tab.Frugal) {fetch : Fetch} {answer : Answer}
    (sent : fetch.sent ≤ 2) : (tab.secondAnswered id fetch answer).Frugal := by
  cases answer with
  | failed => exact frugal.conclude sent (.inl rfl)
  | response status waitMs => exact frugal.conclude sent (.inr ⟨status, rfl⟩)

/-- A settled promise stays as it is. -/
theorem settle (frugal : tab.Frugal) {ok : Bool} {jar : Option Jti}
    (lookup : tab.refreshes[id]? = some refresh) (pending : refresh.pending = true) :
    Tab.Frugal { tab.settleRefresh id ok with jar := jar } where
  sent := frugal.sent
  lost := by
    intro lost
    obtain ⟨i, there⟩ := List.getElem?_of_mem (frugal.lost lost)
    have elsewhere : id ≠ i := by
      rintro rfl
      cases lookup.symm.trans there
      cases pending
    exact List.mem_of_getElem? ((List.getElem?_set_ne elsewhere).trans there)

end Tab.Frugal

theorem frugal_step {event : Tab.Event} (frugal : tab.Frugal)
    (stepped : tab.step familyId event = some next) : next.Frugal := by
  cases event with
  | fetch safeMethod =>
      cases stepped
      refine ⟨?_, frugal.lost⟩
      intro fetch member
      rcases List.mem_append.mp member with old | new
      · exact frugal.sent fetch old
      · rw [List.mem_singleton.mp new]
        exact ⟨Nat.le_succ 1, fun _ => Nat.le_refl 1⟩
  | answer id answer =>
      obtain ⟨fetch, found, continued⟩ := Option.bind_eq_some_iff.mp stepped
      obtain ⟨sent, once⟩ := frugal.sent fetch (List.mem_of_getElem? found)
      split at continued
      · rename_i first
        cases continued
        exact frugal.firstAnswered (once (.inl first))
      · cases continued
        exact frugal.secondAnswered sent
      · cases continued
  | resume id =>
      obtain ⟨fetch, found, continued⟩ := Option.bind_eq_some_iff.mp stepped
      obtain ⟨sent, once⟩ := frugal.sent fetch (List.mem_of_getElem? found)
      split at continued
      · rename_i refresh refreshing
        have once := once (.inr (.inr ⟨refresh, refreshing⟩))
        split at continued
        · cases continued
          exact frugal.sendAgain once
        · rename_i failed
          cases continued
          have concluded : (tab.setFetch id { fetch with progress := .returned 401 }).Frugal :=
            frugal.conclude sent (.inr ⟨401, rfl⟩)
          exact ⟨concluded.sent, fun _ => List.mem_of_getElem? failed⟩
        · cases continued
      · cases continued
  | wake id =>
      obtain ⟨fetch, found, continued⟩ := Option.bind_eq_some_iff.mp stepped
      obtain ⟨_, once⟩ := frugal.sent fetch (List.mem_of_getElem? found)
      split at continued
      · rename_i backingOff
        cases continued
        exact frugal.sendAgain (once (.inr (.inl backingOff)))
      · cases continued
  | arrive id =>
      simp only [Tab.step] at stepped
      split at stepped
      · rename_i posted
        obtain ⟨server, _, rfl⟩ := Option.map_eq_some_iff.mp stepped
        refine ⟨frugal.sent, ?_⟩
        intro lost
        obtain ⟨i, there⟩ := List.getElem?_of_mem (frugal.lost lost)
        have elsewhere : id ≠ i := by
          rintro rfl
          cases posted.symm.trans there
        exact List.mem_of_getElem? ((List.getElem?_set_ne elsewhere).trans there)
      · cases stepped
  | serve id active minted =>
      obtain ⟨server, _, rfl⟩ := Option.map_eq_some_iff.mp stepped
      exact ⟨frugal.sent, fun lost => List.mem_map.mpr ⟨_, frugal.lost lost, rfl⟩⟩
  | fail id =>
      obtain ⟨server, _, rfl⟩ := Option.map_eq_some_iff.mp stepped
      exact ⟨frugal.sent, frugal.lost⟩
  | settle id =>
      simp only [Tab.step] at stepped
      split at stepped
      · rename_i call called
        obtain ⟨_, _, rfl⟩ := Option.map_eq_some_iff.mp stepped
        exact frugal.settle called rfl
      · rename_i minted exchanged
        cases stepped
        exact frugal.settle exchanged rfl
      · cases stepped
  | lose id =>
      simp only [Tab.step] at stepped
      split at stepped
      · cases stepped
      · cases stepped
      · rename_i unsettled there
        cases stepped
        obtain ⟨refresh, lookup⟩ := Option.ne_none_iff_exists'.mp there
        refine frugal.settle lookup ?_
        cases refresh with
        | settled ok => exact absurd lookup (unsettled ok)
        | posted | called | exchanged => rfl
  | clear =>
      obtain ⟨refresh, _, continued⟩ := Option.bind_eq_some_iff.mp stepped
      split at continued
      · cases continued
        exact ⟨frugal.sent, frugal.lost⟩
      · cases continued
  | logout =>
      obtain ⟨jti, _, continued⟩ := Option.bind_eq_some_iff.mp stepped
      obtain ⟨server, _, rfl⟩ := Option.map_eq_some_iff.mp continued
      exact ⟨frugal.sent, frugal.lost⟩
  | loggedOut id =>
      simp only [Tab.step] at stepped
      split at stepped
      · obtain ⟨call, _, rfl⟩ := Option.map_eq_some_iff.mp stepped
        exact ⟨frugal.sent, frugal.lost⟩
      · cases stepped

theorem kept_step {event : Tab.Event} (kept : tab.Kept familyId) (delivers : tab.Delivers event)
    (stepped : tab.step familyId event = some next) : next.Kept familyId := by
  cases event with
  | fetch safeMethod =>
      cases stepped
      exact kept.frame rfl rfl rfl rfl
  | answer id answer =>
      obtain ⟨fetch, _, continued⟩ := Option.bind_eq_some_iff.mp stepped
      split at continued
      · cases continued
        cases answer with
        | failed => exact kept.frame rfl rfl rfl rfl
        | response status waitMs =>
            simp only [Tab.firstAnswered]
            split
            · exact kept.tryRefresh.frame rfl rfl rfl rfl
            · split
              · exact kept.frame rfl rfl rfl rfl
              · exact kept.frame rfl rfl rfl rfl
      · cases continued
        cases answer with
        | failed => exact kept.frame rfl rfl rfl rfl
        | response status waitMs => exact kept.frame rfl rfl rfl rfl
      · cases continued
  | resume id =>
      obtain ⟨fetch, _, continued⟩ := Option.bind_eq_some_iff.mp stepped
      split at continued
      · split at continued
        · cases continued
          exact kept.frame rfl rfl rfl rfl
        · cases continued
          exact kept.frame rfl rfl rfl rfl
        · cases continued
      · cases continued
  | wake id =>
      obtain ⟨fetch, _, continued⟩ := Option.bind_eq_some_iff.mp stepped
      split at continued
      · cases continued
        exact kept.frame rfl rfl rfl rfl
      · cases continued
  | arrive id =>
      simp only [Tab.step] at stepped
      split at stepped
      · rename_i posted
        obtain ⟨server, arrived, rfl⟩ := Option.map_eq_some_iff.mp stepped
        exact kept.arrive posted arrived
      · cases stepped
  | serve id active minted =>
      obtain ⟨server, advanced, rfl⟩ := Option.map_eq_some_iff.mp stepped
      exact kept.serve advanced
  | fail id =>
      obtain ⟨server, failed, rfl⟩ := Option.map_eq_some_iff.mp stepped
      exact kept.fail failed
  | settle id =>
      simp only [Tab.step] at stepped
      split at stepped
      · rename_i call called
        obtain ⟨found, answered, rfl⟩ := Option.map_eq_some_iff.mp stepped
        obtain ⟨found, ended⟩ := Option.filter_eq_some_iff.mp answered
        refine kept.settle called ?_ (kept.jar_keeps called fun _ same => by cases same)
        rintro id call ⟨⟩ there
        cases found.symm.trans there
        exact Phase.running_of_ended ended
      · rename_i minted exchanged
        cases stepped
        obtain ⟨issued, unused⟩ := kept.carried _ (List.mem_of_getElem? exchanged) minted rfl
        refine kept.settle exchanged (fun _ _ same => by cases same) ?_
        intro jti isMinted
        cases isMinted
        exact ⟨issued, fun recorded => absurd recorded unused⟩
      · cases stepped
  | lose id =>
      simp only [Tab.step] at stepped
      split at stepped
      · cases stepped
      · cases stepped
      · rename_i unsettled there
        cases stepped
        obtain ⟨refresh, lookup⟩ := Option.ne_none_iff_exists'.mp there
        have refused := delivers refresh lookup
        refine kept.settle lookup ?_ (kept.jar_keeps lookup ?_)
        · rintro call found rfl there
          exact Phase.running_of_ended (refused found there)
        · rintro minted rfl
          exact refused
  | clear =>
      obtain ⟨i, inFlight, continued⟩ := Option.bind_eq_some_iff.mp stepped
      split at continued
      · rename_i ok settled
        cases continued
        refine ⟨kept.guarded, kept.calls, kept.committed, kept.reuse, ?_, kept.running,
          kept.carried, kept.jar⟩
        intro j refresh lookup pending
        obtain rfl := Option.some.inj (inFlight.symm.trans (kept.flight j refresh lookup pending))
        cases settled.symm.trans lookup
        cases pending
      · cases continued
  | logout =>
      obtain ⟨jti, _, continued⟩ := Option.bind_eq_some_iff.mp stepped
      obtain ⟨server, left, rfl⟩ := Option.map_eq_some_iff.mp continued
      exact kept.logout left
  | loggedOut id =>
      simp only [Tab.step] at stepped
      split at stepped
      · obtain ⟨call, _, rfl⟩ := Option.map_eq_some_iff.mp stepped
        refine ⟨kept.guarded, kept.calls, kept.committed, kept.reuse, kept.flight, kept.running,
          kept.carried, ?_⟩
        intro jti isJti
        split at isJti
        · cases isJti
        · exact kept.jar jti isJti
      · cases stepped

theorem Tab.Kept.sound (kept : tab.Kept familyId) (frugal : tab.Frugal) : tab.Sound where
  safe := kept.guarded.safe
  single _ _ _ _ lookup lookup' pending pending' :=
    (kept.single lookup lookup' pending pending').1
  reuse := kept.reuse
  sent fetch member := (frugal.sent fetch member).1
  lost := frugal.lost

end Steps

/-- Whatever the tab sends and in whatever order it is answered: as long as the tab gets the tokens
that the server exchanges, it has one refresh pending at most, and the server never finds a token
of its family twice. -/
theorem tab_sound (familyId : String) (jti : Jti) (events : List Tab.Event)
    (delivered : Meets (Tab.step · familyId) Tab.Delivers (Tab.login jti) events) :
    Always (Tab.step · familyId) Tab.Sound (Tab.login jti) events := by
  have start : (Tab.login jti).Kept familyId ∧ (Tab.login jti).Frugal :=
    ⟨login_kept, fun _ member => (by cases member), fun lost => (by cases lost)⟩
  refine always_of_meets (fun tab => tab.Kept familyId ∧ tab.Frugal) ?_ ?_ start delivered
  · rintro tab event next ⟨kept, frugal⟩ delivers stepped
    exact ⟨kept_step kept delivers stepped, frugal_step frugal stepped⟩
  · rintro tab ⟨kept, frugal⟩
    exact kept.sound frugal

/-- Two requests get a 401 and share a refresh. -/
def shared : List Tab.Event :=
  [.fetch true, .fetch false, .answer 0 (.response 401 none), .answer 1 (.response 401 none),
    .arrive 0] ++ List.replicate 5 (.serve 0 true secondJti) ++
    [.settle 0, .resume 0, .clear, .resume 1, .answer 1 (.response 200 none)]

theorem shared_sound :
    (run (Tab.step · "family") (Tab.login firstJti) shared).map
        (fun tab => (tab.jar, tab.refreshes, tab.fetches)) =
      some (some secondJti, [.settled true],
        [⟨true, .second, 2⟩, ⟨false, .returned 200, 2⟩]) ∧
    Always (Tab.step · "family") Tab.Sound (Tab.login firstJti) shared :=
  ⟨by decide, tab_sound "family" firstJti shared (by decide)⟩

/-- When the answer with the new token is lost, the next refresh comes with the old one. -/
example : (run (Tab.step · "family") (Tab.login firstJti)
    ([.fetch true, .answer 0 (.response 401 none), .arrive 0] ++
      List.replicate 5 (.serve 0 true secondJti) ++
      [.lose 0, .clear, .fetch true, .answer 1 (.response 401 none), .arrive 1] ++
      List.replicate 2 (.serve 1 true thirdJti))).map
      (fun tab => tab.server.calls.map Call.phase) =
    some [.succeeded, .revokeFamily "reuse_detected"] := by decide

end Univiz.Auth
