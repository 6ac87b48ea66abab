import Mathlib.Tactic.Linarith
import Univiz.SingleFlight.Calls

namespace Univiz.SingleFlight

open Univiz.Data

/-! One execution at a time, and its outcome for everyone who joined it. -/

variable {α ε : Type} {ttl : ℚ} {flights next : Flights α ε} {event : FlightEvent α ε}
  {execution : Execution α ε} {follower : Follower α ε} {outcome : Outcome α ε} {e f : Nat}

/-- A call joins only a future that is pending.  A follower is cancelled while its future is
pending only if nobody else awaits this.  An execution ends under the entry of another one
only when the time of that entry is up. -/
def FlightEvent.Orderly (flights : Flights α ε) : FlightEvent α ε → Prop
  | .call => ∀ entry ∈ flights.existing, ∀ execution ∈ flights.executions[entry.execution]?,
      execution.future = none
  | .ends e _ => ∀ entry ∈ flights.entry, entry.execution ≠ e → entry.deadline < flights.now
  | .cancels f => ∀ follower ∈ flights.followers[f]?,
      ∀ execution ∈ flights.executions[follower.execution]?, execution.future = none →
        ∀ g < flights.followers.length, ∀ other ∈ flights.followers[g]?,
          other.execution = follower.execution → g = f
  | .passes _ => True
  | .resumes _ => True

instance : DecidablePred (FlightEvent.Orderly flights)
  | .call => inferInstanceAs (Decidable (∀ entry ∈ flights.existing,
      ∀ execution ∈ flights.executions[entry.execution]?, execution.future = none))
  | .ends e _ => inferInstanceAs (Decidable (∀ entry ∈ flights.entry,
      entry.execution ≠ e → entry.deadline < flights.now))
  | .cancels f => inferInstanceAs (Decidable (∀ follower ∈ flights.followers[f]?,
      ∀ execution ∈ flights.executions[follower.execution]?, execution.future = none →
        ∀ g < flights.followers.length, ∀ other ∈ flights.followers[g]?,
          other.execution = follower.execution → g = f))
  | .passes _ => isTrue trivial
  | .resumes _ => isTrue trivial

/-- The future has the outcome of the execution, or nobody is left who would receive it. -/
def Resolved (followers : List (Follower α ε)) (i : Nat) (execution : Execution α ε) : Prop :=
  execution.future = execution.ending.map (·.outcome) ∨
    ∀ follower ∈ followers, follower.execution = i → follower.cancelled = true

/-- An execution whose time is not up is under the key until it ends, and its followers are
known. -/
structure Flights.Coherent (ttl : ℚ) (flights : Flights α ε) : Prop where
  runs : ∀ entry ∈ flights.entry, ∃ execution,
    flights.executions[entry.execution]? = some execution ∧ execution.ending = none
  held : ∀ (i : Nat) (execution : Execution α ε), flights.executions[i]? = some execution →
    execution.ending = none → ¬ execution.startedAt + ttl < flights.now →
      flights.entry = some ⟨i, execution.startedAt + ttl⟩
  before : ∀ execution ∈ flights.executions, ∀ ending ∈ execution.ending,
    ending.before ≤ flights.executions.length
  spaced : ∀ (i j : Nat) (earlier later : Execution α ε), i < j →
    flights.executions[i]? = some earlier → flights.executions[j]? = some later →
      Spaced ttl j earlier later
  joined : ∀ follower ∈ flights.followers, ∃ execution,
    flights.executions[follower.execution]? = some execution
  resolved : ∀ (i : Nat) (execution : Execution α ε), flights.executions[i]? = some execution →
    Resolved flights.followers i execution
  received : ∀ follower ∈ flights.followers, follower.cancelled = false →
    ∀ execution, flights.executions[follower.execution]? = some execution →
      ∀ outcome ∈ follower.received, ∃ ending ∈ execution.ending, ending.outcome = outcome

namespace Flights

theorem Coherent.deduplicates (coherent : flights.Coherent ttl) : flights.Deduplicates ttl := by
  refine ⟨coherent.spaced, ?_⟩
  intro follower member free
  obtain ⟨execution, found⟩ := coherent.joined follower member
  refine ⟨execution, found, coherent.received follower member free execution found, ?_⟩
  intro ending ended
  rcases coherent.resolved _ execution found with same | alone
  · rw [same, ended]
    rfl
  · cases free.symm.trans (alone follower member rfl)

theorem Coherent.passes (coherent : flights.Coherent ttl) {seconds : ℚ} (forward : 0 ≤ seconds) :
    ({ flights with now := flights.now + seconds } : Flights α ε).Coherent ttl where
  runs := coherent.runs
  held := by
    intro i execution found running early
    refine coherent.held i execution found running ?_
    intro late
    exact early (by linarith only [late, forward])
  before := coherent.before
  spaced := coherent.spaced
  joined := coherent.joined
  resolved := coherent.resolved
  received := coherent.received

/-- A call that joins finds an execution that has not ended. -/
theorem Coherent.found_existing (coherent : flights.Coherent ttl) {entry : Entry}
    (existing : flights.existing = some entry) :
    ∃ execution, flights.executions[entry.execution]? = some execution ∧
      execution.ending = none :=
  coherent.runs entry (Option.filter_eq_some_iff.mp existing).1

theorem Coherent.join (coherent : flights.Coherent ttl) {entry : Entry}
    (existing : flights.existing = some entry)
    (orderly : FlightEvent.Orderly flights (.call : FlightEvent α ε)) :
    ({ flights with
      followers := flights.followers ++ [{ execution := entry.execution }] }
      : Flights α ε).Coherent ttl where
  runs := coherent.runs
  held := coherent.held
  before := coherent.before
  spaced := coherent.spaced
  joined := by
    intro follower member
    rcases List.mem_append.mp member with former | last
    · exact coherent.joined follower former
    · obtain ⟨execution, found, -⟩ := coherent.found_existing existing
      rw [List.mem_singleton.mp last]
      exact ⟨execution, found⟩
  resolved := by
    intro i execution found
    by_cases same : i = entry.execution
    · subst same
      obtain ⟨execution', found', running⟩ := coherent.found_existing existing
      cases found.symm.trans found'
      have pending := orderly entry existing execution found
      refine .inl ?_
      rw [pending, running]
      rfl
    · refine (coherent.resolved i execution found).imp_right ?_
      intro alone follower member joined
      rcases List.mem_append.mp member with former | last
      · exact alone follower former joined
      · rw [List.mem_singleton.mp last] at joined
        exact absurd joined.symm same
  received := by
    intro follower member free execution found outcome arrived
    rcases List.mem_append.mp member with former | last
    · exact coherent.received follower former free execution found outcome arrived
    · rw [List.mem_singleton.mp last] at arrived
      cases arrived

/-- Where a call finds no entry, the time of every running execution is up. -/
theorem Coherent.late (coherent : flights.Coherent ttl) (absent : flights.existing = none)
    {i : Nat} (found : flights.executions[i]? = some execution)
    (running : execution.ending = none) : execution.startedAt + ttl < flights.now := by
  by_contra early
  have held := coherent.held i execution found running early
  have present : flights.existing = some ⟨i, execution.startedAt + ttl⟩ := by
    simp [existing, held, not_lt.mp early]
  cases absent.symm.trans present

theorem executions_concat_cases {i : Nat} {started : Execution α ε}
    (found : (flights.executions ++ [started])[i]? = some execution) :
    flights.executions[i]? = some execution ∨
      i = flights.executions.length ∧ execution = started := by
  rw [List.getElem?_append] at found
  split at found
  · exact .inl found
  · have bound := (List.getElem?_eq_some_iff.mp found).1
    rw [List.length_singleton] at bound
    refine .inr ⟨by omega, ?_⟩
    exact List.mem_singleton.mp (List.mem_of_getElem? found)

theorem Coherent.lead (coherent : flights.Coherent ttl) (absent : flights.existing = none) :
    ({ flights with
      entry := some ⟨flights.executions.length, flights.now + ttl⟩
      executions := flights.executions ++ [{ startedAt := flights.now }] }
      : Flights α ε).Coherent ttl where
  runs := by
    intro entry held
    cases held
    exact ⟨_, List.getElem?_concat_length, rfl⟩
  held := by
    intro i execution found running early
    rcases executions_concat_cases found with former | ⟨rfl, rfl⟩
    · exact absurd (coherent.late absent former running) early
    · rfl
  before := by
    intro execution member ending ended
    rw [List.length_append]
    rcases List.mem_append.mp member with former | last
    · exact Nat.le_add_right_of_le (coherent.before execution former ending ended)
    · rw [List.mem_singleton.mp last] at ended
      cases ended
  spaced := by
    intro i j first second order found found'
    rcases executions_concat_cases found with former | ⟨rfl, rfl⟩
    · rcases executions_concat_cases found' with former' | ⟨rfl, rfl⟩
      · exact coherent.spaced i j first second order former former'
      · cases ended : first.ending with
        | none => exact .inr (coherent.late absent former ended)
        | some ending =>
            exact .inl ⟨ending, ended,
              coherent.before first (List.mem_of_getElem? former) ending ended⟩
    · have bound := (List.getElem?_eq_some_iff.mp found').1
      rw [List.length_append, List.length_singleton] at bound
      omega
  joined := by
    intro follower member
    obtain ⟨execution, found⟩ := coherent.joined follower member
    exact ⟨execution, getElem?_concat found⟩
  resolved := by
    intro i execution found
    rcases executions_concat_cases found with former | ⟨rfl, rfl⟩
    · exact coherent.resolved i execution former
    · exact .inl rfl
  received := by
    intro follower member free execution found
    rcases executions_concat_cases found with former | ⟨same, -⟩
    · exact coherent.received follower member free execution former
    · obtain ⟨execution', found'⟩ := coherent.joined follower member
      have bound := (List.getElem?_eq_some_iff.mp found').1
      omega

/-- The executions after a step that revises one: each has kept its start and its ending. -/
structure Revises (executions executions' : List (Execution α ε)) : Prop where
  length : executions'.length = executions.length
  former : ∀ {k : Nat} {other : Execution α ε}, executions'[k]? = some other →
    ∃ before, executions[k]? = some before ∧ before.startedAt = other.startedAt ∧
      ∀ ending ∈ before.ending, ending ∈ other.ending

theorem revises_set {revised : Execution α ε} (found : flights.executions[e]? = some execution)
    (startedAt : revised.startedAt = execution.startedAt)
    (kept : ∀ ending ∈ execution.ending, ending ∈ revised.ending) :
    Revises flights.executions (flights.executions.set e revised) := by
  refine ⟨List.length_set, ?_⟩
  intro k other lookup
  rcases getElem?_set_cases lookup with ⟨rfl, rfl⟩ | ⟨-, before⟩
  · exact ⟨execution, found, startedAt.symm, kept⟩
  · exact ⟨other, before, rfl, fun _ ended => ended⟩

theorem Coherent.spaced_of_revises (coherent : flights.Coherent ttl)
    {executions : List (Execution α ε)} (revises : Revises flights.executions executions)
    {i j : Nat} {earlier later : Execution α ε} (order : i < j)
    (found : executions[i]? = some earlier) (found' : executions[j]? = some later) :
    Spaced ttl j earlier later := by
  obtain ⟨first, before, start, kept⟩ := revises.former found
  obtain ⟨second, before', start', -⟩ := revises.former found'
  rcases coherent.spaced i j first second order before before' with ⟨ending, ended, early⟩ | late
  · exact .inl ⟨ending, kept ending ended, early⟩
  · rw [start, start'] at late
    exact .inr late

theorem Coherent.joined_of_revises (coherent : flights.Coherent ttl)
    {executions : List (Execution α ε)} (revises : Revises flights.executions executions)
    (member : follower ∈ flights.followers) :
    ∃ execution, executions[follower.execution]? = some execution := by
  obtain ⟨execution, found⟩ := coherent.joined follower member
  have bound := (List.getElem?_eq_some_iff.mp found).1
  rw [← revises.length] at bound
  exact ⟨_, List.getElem?_eq_getElem bound⟩

theorem revises_ends (found : flights.executions[e]? = some execution)
    (running : execution.ending = none) :
    Revises flights.executions (flights.ends e execution outcome).executions := by
  refine revises_set found rfl ?_
  intro ending ended
  cases running.symm.trans ended

theorem Coherent.ends (coherent : flights.Coherent ttl)
    (found : flights.executions[e]? = some execution) (running : execution.ending = none)
    (orderly : FlightEvent.Orderly flights (.ends e outcome)) :
    (flights.ends e execution outcome).Coherent ttl where
  runs := by
    intro entry held
    cases held
  held := by
    intro i other lookup running' early
    rcases getElem?_set_cases lookup with ⟨-, rfl⟩ | ⟨apart, before⟩
    · cases running'
    · have held := coherent.held i other before running' early
      exact absurd (orderly _ held (Ne.symm apart)) early
  before := by
    intro other member ending ended
    rw [(revises_ends found running).length]
    rcases List.mem_or_eq_of_mem_set member with former | rfl
    · exact coherent.before other former ending ended
    · cases ended
      exact Nat.le_refl _
  spaced _ _ _ _ order lookup lookup' :=
    coherent.spaced_of_revises (revises_ends found running) order lookup lookup'
  joined _ member := coherent.joined_of_revises (revises_ends found running) member
  resolved := by
    intro i other lookup
    rcases getElem?_set_cases lookup with ⟨rfl, rfl⟩ | ⟨-, before⟩
    · refine (coherent.resolved e execution found).imp_left ?_
      intro pending
      rw [running] at pending
      simp only [pending, Option.map_none, Option.none_or, Option.map_some]
    · exact coherent.resolved i other before
  received := by
    intro follower member free other lookup outcome' arrived
    rcases getElem?_set_cases lookup with ⟨same, rfl⟩ | ⟨-, before⟩
    · obtain ⟨ending, ended, _⟩ := coherent.received follower member free execution (same ▸ found)
        outcome' arrived
      cases running.symm.trans ended
    · exact coherent.received follower member free other before outcome' arrived

/-- A cancellation that cancels a pending future leaves nobody who would receive it. -/
theorem Coherent.resolved_cancels (coherent : flights.Coherent ttl)
    (found : flights.followers[f]? = some follower)
    (joined : flights.executions[follower.execution]? = some execution)
    (orderly : FlightEvent.Orderly flights (.cancels f : FlightEvent α ε)) :
    Resolved (flights.cancels f follower execution).followers follower.execution
      { execution with future := execution.future.or (some .cancelled) } := by
  rcases coherent.resolved follower.execution execution joined with same | alone
  · cases pending : execution.future with
    | some outcome =>
        refine .inl ?_
        simp only [Option.some_or]
        exact pending ▸ same
    | none =>
        refine .inr ?_
        intro other member same'
        obtain ⟨g, lookup⟩ := List.mem_iff_getElem?.mp member
        rcases getElem?_set_cases lookup with ⟨-, rfl⟩ | ⟨apart, before⟩
        · rfl
        · have only := orderly follower found execution joined pending g
            (List.getElem?_eq_some_iff.mp before).1 other before same'
          exact absurd only.symm apart
  · refine .inr ?_
    intro other member same
    rcases List.mem_or_eq_of_mem_set member with before | rfl
    · exact alone other before same
    · rfl

theorem executions_cancels_cases {k : Nat} {other : Execution α ε}
    (joined : flights.executions[follower.execution]? = some execution)
    (lookup : (flights.cancels f follower execution).executions[k]? = some other) :
    ∃ before, flights.executions[k]? = some before ∧ before.startedAt = other.startedAt ∧
      before.ending = other.ending := by
  rcases getElem?_set_cases lookup with ⟨same, rfl⟩ | ⟨-, before⟩
  · exact ⟨execution, same ▸ joined, rfl, rfl⟩
  · exact ⟨other, before, rfl, rfl⟩

theorem revises_cancels (joined : flights.executions[follower.execution]? = some execution) :
    Revises flights.executions (flights.cancels f follower execution).executions :=
  revises_set joined rfl fun _ ended => ended

theorem Coherent.cancels (coherent : flights.Coherent ttl)
    (found : flights.followers[f]? = some follower)
    (joined : flights.executions[follower.execution]? = some execution)
    (orderly : FlightEvent.Orderly flights (.cancels f : FlightEvent α ε)) :
    (flights.cancels f follower execution).Coherent ttl where
  runs := by
    intro entry held
    have inside := (List.getElem?_eq_some_iff.mp joined).1
    obtain ⟨other, lookup, running⟩ := coherent.runs entry held
    by_cases same : follower.execution = entry.execution
    · rw [← same] at lookup ⊢
      cases joined.symm.trans lookup
      exact ⟨_, List.getElem?_set_self inside, running⟩
    · exact ⟨other, (List.getElem?_set_ne same).trans lookup, running⟩
  held := by
    intro i other lookup running early
    obtain ⟨before, lookup', start, ending⟩ := executions_cancels_cases joined lookup
    rw [← start] at early ⊢
    exact coherent.held i before lookup' (ending.trans running) early
  before := by
    intro other member ending ended
    obtain ⟨k, lookup⟩ := List.mem_iff_getElem?.mp member
    obtain ⟨before, lookup', -, same⟩ := executions_cancels_cases joined lookup
    rw [(revises_cancels joined).length]
    exact coherent.before before (List.mem_of_getElem? lookup') ending (same ▸ ended)
  spaced _ _ _ _ order lookup lookup' :=
    coherent.spaced_of_revises (revises_cancels joined) order lookup lookup'
  joined := by
    intro other member
    rcases List.mem_or_eq_of_mem_set member with before | rfl
    · exact coherent.joined_of_revises (revises_cancels joined) before
    · have revises : Revises flights.executions
          (flights.cancels f follower execution).executions := revises_cancels joined
      have listed := coherent.joined_of_revises revises (List.mem_of_getElem? found)
      exact listed
  resolved := by
    intro i other lookup
    rcases getElem?_set_cases lookup with ⟨rfl, rfl⟩ | ⟨-, before⟩
    · exact coherent.resolved_cancels found joined orderly
    · refine (coherent.resolved i other before).imp_right ?_
      intro alone other member same
      rcases List.mem_or_eq_of_mem_set member with before | rfl
      · exact alone other before same
      · rfl
  received := by
    intro other member free execution' lookup outcome arrived
    rcases List.mem_or_eq_of_mem_set member with before | rfl
    · obtain ⟨former, lookup', -, ending⟩ := executions_cancels_cases joined lookup
      have received := coherent.received other before free former lookup' outcome arrived
      rwa [ending] at received
    · cases free

theorem followers_resumes_cases {other : Follower α ε}
    (found : flights.followers[f]? = some follower)
    (member : other ∈ (flights.resumes f follower outcome).followers) :
    ∃ before ∈ flights.followers, before.execution = other.execution ∧
      before.cancelled = other.cancelled := by
  rcases List.mem_or_eq_of_mem_set member with before | rfl
  · exact ⟨other, before, rfl, rfl⟩
  · exact ⟨follower, List.mem_of_getElem? found, rfl, rfl⟩

theorem Coherent.resumes (coherent : flights.Coherent ttl)
    (found : flights.followers[f]? = some follower)
    (joined : flights.executions[follower.execution]? = some execution)
    (done : execution.future = some outcome) :
    (flights.resumes f follower outcome).Coherent ttl where
  runs := coherent.runs
  held := coherent.held
  before := coherent.before
  spaced := coherent.spaced
  joined := by
    intro other member
    obtain ⟨before, listed, same, -⟩ := followers_resumes_cases found member
    exact same ▸ coherent.joined before listed
  resolved := by
    intro i other lookup
    refine (coherent.resolved i other lookup).imp_right ?_
    intro alone other' member same
    obtain ⟨before, listed, same', cancelled⟩ := followers_resumes_cases found member
    exact cancelled ▸ alone before listed (same'.trans same)
  received := by
    intro other member free execution' lookup outcome' arrived
    rcases List.mem_or_eq_of_mem_set member with before | rfl
    · exact coherent.received other before free execution' lookup outcome' arrived
    · cases joined.symm.trans lookup
      have free' : follower.cancelled = false := free
      simp only [free', Bool.false_eq_true, ↓reduceIte, Option.mem_def, Option.some.injEq]
        at arrived
      rcases coherent.resolved _ execution joined with same | alone
      · rw [done] at same
        obtain ⟨ending, ended, outcome''⟩ := Option.map_eq_some_iff.mp same.symm
        exact ⟨ending, ended, outcome''.trans arrived⟩
      · cases free'.symm.trans (alone follower (List.mem_of_getElem? found) rfl)

theorem Coherent.step (coherent : flights.Coherent ttl) (orderly : event.Orderly flights)
    (stepped : SingleFlight.step ttl flights event = some next) : next.Coherent ttl := by
  cases event with
  | passes seconds =>
      simp only [SingleFlight.step] at stepped
      split at stepped
      · rename_i forward
        cases stepped
        exact coherent.passes forward
      · cases stepped
  | call =>
      cases stepped
      cases existing : flights.existing with
      | some entry =>
          simp only [Flights.call, existing]
          exact coherent.join existing orderly
      | none =>
          simp only [Flights.call, existing]
          exact coherent.lead existing
  | ends e outcome =>
      obtain ⟨execution, running, rfl⟩ := Option.map_eq_some_iff.mp stepped
      have ⟨found, running'⟩ := Option.filter_eq_some_iff.mp running
      exact coherent.ends found (Option.isNone_iff_eq_none.mp running') orderly
  | cancels f =>
      obtain ⟨follower, waiting, cancelled⟩ := Option.bind_eq_some_iff.mp stepped
      obtain ⟨execution, joined, rfl⟩ := Option.map_eq_some_iff.mp cancelled
      exact coherent.cancels (Option.filter_eq_some_iff.mp waiting).1 joined orderly
  | resumes f =>
      obtain ⟨follower, waiting, resumed⟩ := Option.bind_eq_some_iff.mp stepped
      obtain ⟨outcome, done, rfl⟩ := Option.map_eq_some_iff.mp resumed
      obtain ⟨execution, joined, future⟩ := Option.bind_eq_some_iff.mp done
      exact coherent.resumes (Option.filter_eq_some_iff.mp waiting).1 joined future

theorem coherent_start : ({} : Flights α ε).Coherent ttl where
  runs _ none := by cases none
  held _ _ none := by cases none
  before _ none := by cases none
  spaced _ _ _ _ _ none := by cases none
  joined _ none := by cases none
  resolved _ _ none := by cases none
  received _ none := by cases none

/-- Orderly calls execute the function once at a time and share its outcome. -/
theorem run_orderly_deduplicates {events : List (FlightEvent α ε)}
    (orderly : Meets (SingleFlight.step ttl) FlightEvent.Orderly {} events)
    (ran : run (SingleFlight.step ttl) {} events = some flights) : flights.Deduplicates ttl :=
  (run_invariant (Coherent ttl)
    (fun _ _ _ coherent orderly stepped => coherent.step orderly stepped)
    coherent_start orderly ran).deduplicates

/-- An execution outlives its time, and both it and the next one end. -/
def overtime : List (FlightEvent Nat Unit) :=
  [.call, .call, .passes 31, .call, .call, .ends 1 (.result 2), .resumes 1, .ends 0 (.result 1),
    .resumes 0]

theorem overtime_deduplicates : ∃ last : Flights Nat Unit,
    run (SingleFlight.step 30) {} overtime = some last ∧ last.executions.length = 2 ∧
      last.Deduplicates 30 := by
  have ended : (run (SingleFlight.step 30) ({} : Flights Nat Unit) overtime).map
      (fun last => last.executions.length) = some 2 := by decide +kernel
  obtain ⟨last, ran, executions⟩ := Option.map_eq_some_iff.mp ended
  refine ⟨last, ran, executions, run_orderly_deduplicates ?_ ran⟩
  decide +kernel

/-- One of two followers is cancelled. -/
def cancelledFollower : List (FlightEvent Nat Unit) :=
  [.call, .call, .call, .cancels 0, .resumes 1, .ends 0 (.result 7)]

/-- A leader whose time was up takes out the entry of the next one. -/
def foreignEntry : List (FlightEvent Nat Unit) :=
  [.call, .passes 31, .call, .passes 1, .ends 0 (.result 1), .passes 1, .call]

theorem not_deduplicates : ¬ ∃ events ∈ [cancelledFollower, foreignEntry], ∀ last,
    run (SingleFlight.step 30) {} events = some last → last.Deduplicates 30 := by
  intro ⟨events, listed, deduplicates⟩
  simp only [List.mem_cons, List.not_mem_nil, or_false] at listed
  rcases listed with rfl | rfl
  · have shared : (run (SingleFlight.step 30) ({} : Flights Nat Unit) cancelledFollower).map
        (fun last => (last.followers.map fun follower =>
          (follower.execution, follower.cancelled, follower.received))) =
            some [(0, true, none), (0, false, some .cancelled)] := by decide +kernel
    have returned : (run (SingleFlight.step 30) ({} : Flights Nat Unit) cancelledFollower).map
        (fun last => last.executions.map fun execution => execution.ending) =
          some [some ⟨.result 7, 1⟩] := by decide +kernel
    obtain ⟨last, ran, values⟩ := Option.map_eq_some_iff.mp shared
    rw [ran, Option.map_some, Option.some.injEq] at returned
    have at1 := congrArg (·[1]?) values
    have at0 := congrArg (·[0]?) returned
    simp only [List.getElem?_map] at at1 at0
    obtain ⟨follower, found, same⟩ := Option.map_eq_some_iff.mp at1
    obtain ⟨leader, lookup, ending⟩ := Option.map_eq_some_iff.mp at0
    simp only [Prod.mk.injEq] at same
    obtain ⟨execution, joined, served, -⟩ := (deduplicates last ran).served follower
      (List.mem_of_getElem? found) same.2.1
    rw [same.1, lookup] at joined
    cases joined
    obtain ⟨other, ended, outcome⟩ := served _ same.2.2
    cases ending.symm.trans ended
    cases outcome
  · have third : (run (SingleFlight.step 30) ({} : Flights Nat Unit) foreignEntry).map
        (fun last => last.executions.map fun execution =>
          (execution.startedAt, execution.ending)) =
          some [(0, some ⟨.result 1, 2⟩), (31, none), (33, none)] := by decide +kernel
    obtain ⟨last, ran, values⟩ := Option.map_eq_some_iff.mp third
    have at1 := congrArg (·[1]?) values
    have at2 := congrArg (·[2]?) values
    simp only [List.getElem?_map] at at1 at2
    obtain ⟨second, found, same⟩ := Option.map_eq_some_iff.mp at1
    obtain ⟨third, found', same'⟩ := Option.map_eq_some_iff.mp at2
    simp only [Prod.mk.injEq] at same same'
    rcases (deduplicates last ran).spaced 1 2 second third (by decide) found found'
      with ⟨ending, ended, -⟩ | late
    · cases same.2.symm.trans ended
    · rw [same.1, same'.1] at late
      exact absurd late (by decide +kernel)

end Flights

end Univiz.SingleFlight
