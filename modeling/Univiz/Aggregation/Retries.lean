import Mathlib.Data.List.Infix
import Mathlib.Data.List.TakeWhile

namespace Univiz.Aggregation

/-! The retry wrapper `AggregationWorker._materialize_with_retries`.

One call of `_materialize_with_checkpoints` is known to the wrapper only by how
it ends, so a run of the wrapper is a function of the list of endings.  The
sleeps between calls are left out: nothing the wrapper returns depends on how
long it slept. -/

/-- What a call of `_materialize_with_checkpoints` may raise. -/
inductive Failure where
  | jobCancelled (jobId observedAt : String)
  | providerBusy (providerName reason : String) (retryAfterSeconds : Nat)
  | providerUnavailable (providerName reason : String) (retryAfterSeconds : Nat)
  | other (message : String)
deriving DecidableEq, Repr

def Failure.text : Failure → String
  | .jobCancelled jobId observedAt => "Job " ++ jobId ++ " cancelled at " ++ observedAt
  | .providerBusy providerName reason _ =>
      "Provider '" ++ providerName ++ "' unavailable: " ++ reason
  | .providerUnavailable providerName reason _ =>
      "Provider '" ++ providerName ++ "' unavailable: " ++ reason
  | .other message => message

/-- `"circuit open" in (e.reason or "").lower()`. -/
def namesOpenCircuit (reason : String) : Bool :=
  decide ("circuit open".toList <:+: reason.toList.map Char.toLower)

inductive Outcome (α : Type) where
  | returned (value : α)
  | raised (failure : Failure)
deriving DecidableEq, Repr

namespace Outcome

def isBusy : Outcome α → Bool
  | .raised (.providerBusy ..) => true
  | _ => false

/-- Outcomes that the `ProviderUnavailable` and the catch-all handler treat as
failures of the attempt. -/
def isTransient : Outcome α → Bool
  | .raised (.providerUnavailable ..) => true
  | .raised (.other _) => true
  | _ => false

def isUnavailable : Outcome α → Bool
  | .raised (.providerUnavailable ..) => true
  | _ => false

def isCircuitOpen : Outcome α → Bool
  | .raised (.providerUnavailable _ reason _) => namesOpenCircuit reason
  | _ => false

end Outcome

structure Job where
  id : String
  maxRetries : Nat
  retryCount : Nat
  errorMessage : Option String
deriving DecidableEq, Repr

namespace Job

def explain (job : Job) (text : String) : Job :=
  { job with errorMessage := some (String.ofList (text.toList.take 2000)) }

/-- `(job.max_retries or 3) + 1`: a budget of zero counts as unset. -/
def maxAttempts (job : Job) : Nat :=
  (if job.maxRetries = 0 then 3 else job.maxRetries) + 1

/-- `job.retry_count = attempt + 1`, the first thing both failure handlers do. -/
def countRetry (job : Job) (attempt : Nat) : Job :=
  { job with retryCount := attempt + 1 }

/-- The row as it stands while the wrapper sleeps before the next attempt. -/
def awaitRetry (job : Job) (attempt : Nat) (failure : Failure) : Job :=
  (job.countRetry attempt).explain ("Retry " ++ toString (attempt + 1) ++ "/" ++
    toString job.maxRetries ++ ": " ++ failure.text)

/-- The row after a repeated failure that names an open circuit breaker. -/
def circuitOpened (job : Job) (attempt : Nat) (providerName : String) : Job :=
  (job.countRetry attempt).explain ("Provider " ++ providerName ++ " unavailable after " ++
    toString (attempt + 1) ++ " attempts; circuit breaker open")

@[simp] theorem explain_retryCount (job : Job) (text : String) :
    (job.explain text).retryCount = job.retryCount := rfl

@[simp] theorem countRetry_retryCount (job : Job) (attempt : Nat) :
    (job.countRetry attempt).retryCount = attempt + 1 := rfl

@[simp] theorem awaitRetry_retryCount (job : Job) (attempt : Nat) (failure : Failure) :
    (job.awaitRetry attempt failure).retryCount = attempt + 1 := by
  simp only [awaitRetry, explain_retryCount, countRetry_retryCount]

@[simp] theorem circuitOpened_retryCount (job : Job) (attempt : Nat) (providerName : String) :
    (job.circuitOpened attempt providerName).retryCount = attempt + 1 := by
  simp only [circuitOpened, explain_retryCount, countRetry_retryCount]

theorem two_le_maxAttempts (job : Job) : 2 ≤ job.maxAttempts := by
  simp only [maxAttempts]
  split <;> omega

end Job

/-- How a run of the wrapper stands once the given calls have ended.  `result`
is `none` while another call is awaited; `attempts` counts the calls that ended
with anything but `ProviderBusy`. -/
structure Report (α : Type) where
  result : Option (Outcome α)
  job : Job
  attempts : Nat
deriving DecidableEq, Repr

/-- The `while True` loop inside the `except ProviderBusy` handler.  An
exception it does not catch leaves the whole `try` statement: the handlers
beside the one the loop stands in never see it. -/
def parkLoop (maxQuiesceEvents attempt : Nat) (job : Job) :
    Nat → List (Outcome α) → Report α
  | _, [] => ⟨none, job, attempt⟩
  | _, .returned value :: _ => ⟨some (.returned value), job, attempt + 1⟩
  | quiesceEventCount, .raised (.providerBusy providerName reason wait) :: rest =>
      if maxQuiesceEvents < quiesceEventCount + 1 then
        ⟨some (.raised (.providerBusy providerName reason wait)),
          job.explain ("Provider " ++ providerName ++ " stayed quiesced for " ++
            toString maxQuiesceEvents ++ " cooldown windows — abandoned."),
          attempt⟩
      else parkLoop maxQuiesceEvents attempt job (quiesceEventCount + 1) rest
  | _, .raised failure :: _ => ⟨some (.raised failure), job, attempt + 1⟩

/-- The `for attempt in range(max_attempts)` loop.  Both failure handlers raise
on the last attempt, so the loop never runs off its range and the
`raise last_error` below it is unreachable. -/
def attemptLoop (maxQuiesceEvents maxAttempts : Nat) :
    Nat → Nat → Job → List (Outcome α) → Report α
  | attempt, _, job, [] => ⟨none, job, attempt⟩
  | attempt, _, job, .returned value :: _ => ⟨some (.returned value), job, attempt + 1⟩
  | attempt, _, job, .raised (.jobCancelled jobId observedAt) :: _ =>
      ⟨some (.raised (.jobCancelled jobId observedAt)), job, attempt + 1⟩
  -- The park loop never hands back to this one, so the event count is still 0 here.
  | attempt, _, job, .raised (.providerBusy providerName reason wait) :: rest =>
      let failure := Failure.providerBusy providerName reason wait
      if maxQuiesceEvents < 1 then
        ⟨some (.raised failure),
          job.explain ("Provider " ++ providerName ++ " stayed quiesced for " ++
            toString maxQuiesceEvents ++ " cooldown windows — abandoned. " ++
            "Underlying p95 never recovered below trigger."),
          attempt⟩
      else
        parkLoop maxQuiesceEvents attempt
          (job.explain ("Quiesce 1/" ++ toString maxQuiesceEvents ++ ": " ++ failure.text))
          1 rest
  | attempt, unavailableCount, job,
      .raised (.providerUnavailable providerName reason wait) :: rest =>
      let failure := Failure.providerUnavailable providerName reason wait
      if 2 ≤ unavailableCount + 1 ∧ (Outcome.raised (α := α) failure).isCircuitOpen then
        ⟨some (.raised failure), job.circuitOpened attempt providerName, attempt + 1⟩
      else if attempt + 1 < maxAttempts then
        attemptLoop maxQuiesceEvents maxAttempts (attempt + 1) (unavailableCount + 1)
          (job.awaitRetry attempt failure) rest
      else ⟨some (.raised failure), job.countRetry attempt, attempt + 1⟩
  | attempt, unavailableCount, job, .raised (.other message) :: rest =>
      if attempt + 1 < maxAttempts then
        attemptLoop maxQuiesceEvents maxAttempts (attempt + 1) unavailableCount
          (job.awaitRetry attempt (.other message)) rest
      else ⟨some (.raised (.other message)), job.countRetry attempt, attempt + 1⟩

/-- `AggregationWorker._materialize_with_retries` over the endings of its calls,
in order.  `maxQuiesceEvents` is `AGGREGATION_MAX_QUIESCE_EVENTS`. -/
def materializeWithRetries (maxQuiesceEvents : Nat) (job : Job)
    (outcomes : List (Outcome α)) : Report α :=
  attemptLoop maxQuiesceEvents job.maxAttempts 0 0 job outcomes

section Loops

variable {maxQuiesceEvents maxAttempts attempt unavailableCount : Nat} {job : Job}

theorem parkLoop_eq {quiesceEventCount : Nat} {outcomes : List (Outcome α)}
    (few : quiesceEventCount + outcomes.countP Outcome.isBusy ≤ maxQuiesceEvents) :
    parkLoop maxQuiesceEvents attempt job quiesceEventCount outcomes =
      match outcomes.find? (!·.isBusy) with
      | none => ⟨none, job, attempt⟩
      | some outcome => ⟨some outcome, job, attempt + 1⟩ := by
  induction outcomes generalizing quiesceEventCount with
  | nil => rfl
  | cons outcome rest ih =>
      match outcome with
      | .returned value => rfl
      | .raised (.jobCancelled jobId observedAt) => rfl
      | .raised (.providerUnavailable providerName reason wait) => rfl
      | .raised (.other message) => rfl
      | .raised (.providerBusy providerName reason wait) =>
          simp only [List.countP_cons, Outcome.isBusy, if_true] at few
          have within : ¬ maxQuiesceEvents < quiesceEventCount + 1 := by omega
          have skipped : (Outcome.raised (.providerBusy providerName reason wait) :: rest).find?
              (!·.isBusy) = rest.find? (!·.isBusy) := rfl
          rw [skipped, parkLoop, if_neg within]
          exact ih (by omega)

theorem attemptLoop_settled {outcome : Outcome α} (notBusy : outcome.isBusy = false)
    (settled : outcome.isTransient = false) (rest : List (Outcome α)) :
    attemptLoop maxQuiesceEvents maxAttempts attempt unavailableCount job (outcome :: rest) =
      ⟨some outcome, job, attempt + 1⟩ := by
  match outcome with
  | .returned value => rfl
  | .raised (.jobCancelled jobId observedAt) => rfl
  | .raised (.providerBusy ..) => simp [Outcome.isBusy] at notBusy
  | .raised (.providerUnavailable ..) => simp [Outcome.isTransient] at settled
  | .raised (.other _) => simp [Outcome.isTransient] at settled

variable (maxQuiesceEvents maxAttempts attempt unavailableCount job) in
theorem attemptLoop_transient {outcome : Outcome α} (transient : outcome.isTransient = true) :
    ∃ final next : Job, final.retryCount = attempt + 1 ∧ next.retryCount = attempt + 1 ∧
      ∀ rest, attemptLoop maxQuiesceEvents maxAttempts attempt unavailableCount job
          (outcome :: rest) =
        if (outcome.isCircuitOpen = true ∧ 0 < unavailableCount) ∨ maxAttempts ≤ attempt + 1 then
          ⟨some outcome, final, attempt + 1⟩
        else
          attemptLoop maxQuiesceEvents maxAttempts (attempt + 1)
            (unavailableCount + if outcome.isUnavailable then 1 else 0) next rest := by
  match outcome with
  | .raised (.providerUnavailable providerName reason wait) =>
      have unavailable : (Outcome.raised (α := α)
          (.providerUnavailable providerName reason wait)).isUnavailable = true := rfl
      by_cases circuit : (Outcome.raised (α := α)
          (.providerUnavailable providerName reason wait)).isCircuitOpen = true ∧
            0 < unavailableCount
      · have second : 2 ≤ unavailableCount + 1 := by omega
        refine ⟨job.circuitOpened attempt providerName, job.countRetry attempt,
          Job.circuitOpened_retryCount .., Job.countRetry_retryCount .., fun rest => ?_⟩
        rw [attemptLoop, if_pos ⟨second, circuit.1⟩, if_pos (.inl circuit)]
      · have closed : ¬ (2 ≤ unavailableCount + 1 ∧ (Outcome.raised (α := α)
            (.providerUnavailable providerName reason wait)).isCircuitOpen = true) :=
          fun both => circuit ⟨both.2, by omega⟩
        refine ⟨job.countRetry attempt,
          job.awaitRetry attempt (.providerUnavailable providerName reason wait),
          Job.countRetry_retryCount .., Job.awaitRetry_retryCount .., fun rest => ?_⟩
        rw [attemptLoop, if_neg closed]
        by_cases spent : maxAttempts ≤ attempt + 1
        · rw [if_neg (by omega), if_pos (.inr spent)]
        · rw [if_pos (by omega), if_neg (fun either => either.elim circuit spent), unavailable,
            if_pos rfl]
  | .raised (.other message) =>
      have closed : ¬ ((Outcome.raised (α := α) (.other message)).isCircuitOpen = true ∧
          0 < unavailableCount) := fun both => Bool.false_ne_true both.1
      have available : (Outcome.raised (α := α) (.other message)).isUnavailable = false := rfl
      refine ⟨job.countRetry attempt, job.awaitRetry attempt (.other message),
        Job.countRetry_retryCount .., Job.awaitRetry_retryCount .., fun rest => ?_⟩
      rw [attemptLoop, available, if_neg Bool.false_ne_true, Nat.add_zero unavailableCount]
      by_cases spent : maxAttempts ≤ attempt + 1
      · rw [if_neg (by omega), if_pos (.inr spent)]
      · rw [if_pos (by omega), if_neg (fun either => either.elim closed spent)]

variable (maxQuiesceEvents maxAttempts attempt unavailableCount job) in
/-- An outcome that is not busy ends the loop after one more attempt, or there is a next one. -/
theorem attempts_cases {outcome : Outcome α} (notBusy : outcome.isBusy = false)
    (rest : List (Outcome α)) :
    (attemptLoop maxQuiesceEvents maxAttempts attempt unavailableCount job
        (outcome :: rest)).attempts = attempt + 1 ∨
      attempt + 1 < maxAttempts ∧ ∃ unavailable next,
        attemptLoop maxQuiesceEvents maxAttempts attempt unavailableCount job (outcome :: rest) =
          attemptLoop maxQuiesceEvents maxAttempts (attempt + 1) unavailable next rest := by
  by_cases transient : outcome.isTransient = true
  · obtain ⟨final, next, -, -, unfolded⟩ :=
      attemptLoop_transient maxQuiesceEvents maxAttempts attempt unavailableCount job transient
    rw [unfolded]
    split
    · exact .inl rfl
    · exact .inr ⟨by omega, _, _, rfl⟩
  · rw [attemptLoop_settled notBusy (Bool.eq_false_iff.mpr transient)]
    exact .inl rfl

theorem attemptLoop_attempts_le {outcomes : List (Outcome α)}
    (quiet : ∀ outcome ∈ outcomes, outcome.isBusy = false) (inRange : attempt < maxAttempts) :
    (attemptLoop maxQuiesceEvents maxAttempts attempt unavailableCount job outcomes).attempts ≤
      maxAttempts := by
  induction outcomes generalizing attempt unavailableCount job with
  | nil => exact Nat.le_of_lt inRange
  | cons outcome rest ih =>
      have ⟨notBusy, restQuiet⟩ := List.forall_mem_cons.mp quiet
      rcases attempts_cases maxQuiesceEvents maxAttempts attempt unavailableCount job notBusy rest
        with last | ⟨below, unavailable, next, goesOn⟩
      · rw [last]
        exact inRange
      · rw [goesOn]
        exact ih restQuiet below

theorem le_attemptLoop_attempts {outcomes : List (Outcome α)}
    (quiet : ∀ outcome ∈ outcomes, outcome.isBusy = false) :
    attempt ≤
      (attemptLoop maxQuiesceEvents maxAttempts attempt unavailableCount job outcomes).attempts := by
  induction outcomes generalizing attempt unavailableCount job with
  | nil => exact Nat.le_refl _
  | cons outcome rest ih =>
      have ⟨notBusy, restQuiet⟩ := List.forall_mem_cons.mp quiet
      rcases attempts_cases maxQuiesceEvents maxAttempts attempt unavailableCount job notBusy rest
        with last | ⟨-, unavailable, next, goesOn⟩
      · rw [last]
        exact Nat.le_succ _
      · rw [goesOn]
        exact Nat.le_of_succ_le (ih restQuiet)

variable (maxQuiesceEvents maxAttempts attempt unavailableCount job) in
theorem lt_attemptLoop_attempts {outcome : Outcome α} {rest : List (Outcome α)}
    (quiet : ∀ call ∈ outcome :: rest, call.isBusy = false) :
    attempt < (attemptLoop maxQuiesceEvents maxAttempts attempt unavailableCount job
      (outcome :: rest)).attempts := by
  have ⟨notBusy, restQuiet⟩ := List.forall_mem_cons.mp quiet
  rcases attempts_cases maxQuiesceEvents maxAttempts attempt unavailableCount job notBusy rest
    with last | ⟨-, unavailable, next, goesOn⟩
  · rw [last]
    exact Nat.lt_succ_self _
  · rw [goesOn]
    exact le_attemptLoop_attempts restQuiet

variable (maxAttempts attempt unavailableCount job) in
/-- A park hands its first outcome that is not `ProviderBusy` straight to the
caller of the wrapper, whatever the outcome is. -/
theorem attemptLoop_busy {outcome : Outcome α} {rest : List (Outcome α)}
    (busy : outcome.isBusy = true)
    (few : (outcome :: rest).countP Outcome.isBusy ≤ maxQuiesceEvents) :
    ∃ parked : Job, parked.retryCount = job.retryCount ∧
      attemptLoop maxQuiesceEvents maxAttempts attempt unavailableCount job (outcome :: rest) =
        match rest.find? (!·.isBusy) with
        | none => ⟨none, parked, attempt⟩
        | some call => ⟨some call, parked, attempt + 1⟩ := by
  rw [List.countP_cons, if_pos busy] at few
  match outcome with
  | .raised (.providerBusy providerName reason wait) =>
      refine ⟨job.explain ("Quiesce 1/" ++ toString maxQuiesceEvents ++ ": " ++
        (Failure.providerBusy providerName reason wait).text), Job.explain_retryCount .., ?_⟩
      rw [attemptLoop, if_neg (by omega)]
      exact parkLoop_eq (by omega)

theorem parkLoop_snoc {quiesceEventCount : Nat} {outcomes : List (Outcome α)} {failure : Failure}
    (notBusy : (Outcome.raised (α := α) failure).isBusy = false)
    (awaits : (parkLoop maxQuiesceEvents attempt job quiesceEventCount outcomes).result = none) :
    (parkLoop maxQuiesceEvents attempt job quiesceEventCount
      (outcomes ++ [.raised failure])).result = some (.raised failure) := by
  fun_induction parkLoop maxQuiesceEvents attempt job quiesceEventCount outcomes with
  | case1 =>
      cases failure with
      | providerBusy => cases notBusy
      | jobCancelled | providerUnavailable | other => rfl
  | case2 | case3 | case5 => cases awaits
  | case4 quiesceEventCount providerName reason wait rest within ih =>
      rw [List.cons_append, parkLoop, if_neg within]
      exact ih awaits

/-- A cancel is not retried: a call that raises it ends the run. -/
theorem attemptLoop_cancelled {outcomes : List (Outcome α)} {jobId observedAt : String}
    (awaits : (attemptLoop maxQuiesceEvents maxAttempts attempt unavailableCount job
      outcomes).result = none) :
    (attemptLoop maxQuiesceEvents maxAttempts attempt unavailableCount job
      (outcomes ++ [.raised (.jobCancelled jobId observedAt)])).result =
        some (.raised (.jobCancelled jobId observedAt)) := by
  fun_induction attemptLoop maxQuiesceEvents maxAttempts attempt unavailableCount job outcomes with
  | case1 => rfl
  | case2 | case3 | case4 | case6 | case8 | case10 => cases awaits
  | case5 attempt unavailableCount job providerName reason wait rest failure parks =>
      rw [List.cons_append, attemptLoop, if_neg parks]
      exact parkLoop_snoc rfl awaits
  | case7 attempt unavailableCount job providerName reason wait rest failure closed left ih =>
      rw [List.cons_append, attemptLoop, if_neg closed, if_pos left]
      exact ih awaits
  | case9 attempt unavailableCount job message rest left ih =>
      rw [List.cons_append, attemptLoop, if_pos left]
      exact ih awaits

end Loops

/-- The endings `calls`, none of them `ProviderBusy`, are enough to end a run
that stands at `attempt`: one of them is not retried, they use up the range, or
one finds the circuit open after an earlier `ProviderUnavailable`. -/
def GivesUpFrom (maxAttempts attempt unavailableCount : Nat) (calls : List (Outcome α)) : Prop :=
  (∃ call ∈ calls, call.isTransient = false) ∨
  (calls ≠ [] ∧ maxAttempts ≤ attempt + calls.length) ∨
  ∃ before call after, calls = before ++ call :: after ∧ call.isCircuitOpen = true ∧
    0 < unavailableCount + before.countP Outcome.isUnavailable

theorem givesUpFrom_nil :
    ¬ GivesUpFrom maxAttempts attempt unavailableCount ([] : List (Outcome α)) := by
  rintro (⟨call, member, -⟩ | ⟨nonempty, -⟩ | ⟨before, call, after, split, -⟩)
  · cases member
  · exact nonempty rfl
  · simp at split

theorem givesUpFrom_settled {call : Outcome α} {calls : List (Outcome α)}
    (settled : call.isTransient = false) :
    GivesUpFrom maxAttempts attempt unavailableCount (call :: calls) :=
  .inl ⟨call, List.mem_cons_self, settled⟩

theorem givesUpFrom_transient {call : Outcome α} {calls : List (Outcome α)}
    (transient : call.isTransient = true) :
    GivesUpFrom maxAttempts attempt unavailableCount (call :: calls) ↔
      ((call.isCircuitOpen = true ∧ 0 < unavailableCount) ∨ maxAttempts ≤ attempt + 1) ∨
      GivesUpFrom maxAttempts (attempt + 1)
        (unavailableCount + if call.isUnavailable then 1 else 0) calls := by
  constructor
  · rintro (⟨ending, member, settled⟩ | ⟨-, spent⟩ | ⟨before, ending, after, split, opened, earlier⟩)
    · rcases List.mem_cons.mp member with rfl | inRest
      · exact absurd settled (by simp [transient])
      · exact .inr (.inl ⟨ending, inRest, settled⟩)
    · cases calls with
      | nil => exact .inl (.inr spent)
      | cons next rest =>
          refine .inr (.inr (.inl ⟨List.cons_ne_nil _ _, ?_⟩))
          simp only [List.length_cons] at spent ⊢
          omega
    · cases before with
      | nil =>
          obtain ⟨rfl, rfl⟩ := List.cons_eq_cons.mp split
          exact .inl (.inl ⟨opened, earlier⟩)
      | cons first before =>
          obtain ⟨rfl, rfl⟩ := List.cons_eq_cons.mp split
          refine .inr (.inr (.inr ⟨before, ending, after, rfl, opened, ?_⟩))
          rw [List.countP_cons] at earlier
          omega
  · rintro ((⟨opened, earlier⟩ | spent) | ⟨ending, member, settled⟩ | ⟨-, spent⟩ |
      ⟨before, ending, after, rfl, opened, earlier⟩)
    · exact .inr (.inr ⟨[], call, calls, rfl, opened, earlier⟩)
    · refine .inr (.inl ⟨List.cons_ne_nil _ _, ?_⟩)
      rw [List.length_cons]
      omega
    · exact .inl ⟨ending, List.mem_cons_of_mem _ member, settled⟩
    · refine .inr (.inl ⟨List.cons_ne_nil _ _, ?_⟩)
      rw [List.length_cons]
      omega
    · refine .inr (.inr ⟨call :: before, ending, after, rfl, opened, ?_⟩)
      rw [List.countP_cons]
      omega

variable (maxQuiesceEvents maxAttempts attempt unavailableCount) in
/-- Calls that are enough to end the run end it whatever follows.  Other calls
only advance the loop, leaving their number in `retry_count`. -/
theorem attemptLoop_append (job : Job) {calls : List (Outcome α)}
    (quiet : ∀ call ∈ calls, call.isBusy = false) :
    (GivesUpFrom maxAttempts attempt unavailableCount calls ∧ ∃ report : Report α,
      ∀ rest, attemptLoop maxQuiesceEvents maxAttempts attempt unavailableCount job
        (calls ++ rest) = report) ∨
    (¬ GivesUpFrom maxAttempts attempt unavailableCount calls ∧ ∃ (failures : Nat) (parked : Job),
      (calls = [] ∧ failures = unavailableCount ∧ parked = job ∨
        parked.retryCount = attempt + calls.length) ∧
      ∀ rest, attemptLoop maxQuiesceEvents maxAttempts attempt unavailableCount job
          (calls ++ rest) =
        attemptLoop maxQuiesceEvents maxAttempts (attempt + calls.length) failures parked rest) := by
  induction calls generalizing attempt unavailableCount job with
  | nil =>
      exact .inr ⟨givesUpFrom_nil, unavailableCount, job, .inl ⟨rfl, rfl, rfl⟩, fun rest => rfl⟩
  | cons call calls ih =>
      have ⟨notBusy, restQuiet⟩ := List.forall_mem_cons.mp quiet
      by_cases transient : call.isTransient = true
      · obtain ⟨final, next, -, counted, unfolded⟩ :=
          attemptLoop_transient maxQuiesceEvents maxAttempts attempt unavailableCount job transient
        rw [givesUpFrom_transient transient]
        simp only [List.cons_append, unfolded]
        by_cases ends : (call.isCircuitOpen = true ∧ 0 < unavailableCount) ∨
            maxAttempts ≤ attempt + 1
        · exact .inl ⟨.inl ends, ⟨some call, final, attempt + 1⟩, fun rest => if_pos ends⟩
        · simp only [if_neg ends]
          rcases ih (attempt + 1) (unavailableCount + if call.isUnavailable then 1 else 0) next
              restQuiet with ⟨gives, report, same⟩ | ⟨goes, failures, parked, shape, same⟩
          · exact .inl ⟨.inr gives, report, same⟩
          · refine .inr ⟨fun either => either.elim ends goes, failures, parked, .inr ?_, ?_⟩
            · rcases shape with ⟨rfl, -, rfl⟩ | shape
              · exact counted
              · rw [shape, List.length_cons]
                omega
            · intro rest
              rw [same rest, List.length_cons, Nat.add_assoc, Nat.add_comm 1]
      · have settled := Bool.eq_false_iff.mpr transient
        exact .inl ⟨givesUpFrom_settled settled, ⟨some call, job, attempt + 1⟩,
          fun rest => attemptLoop_settled notBusy settled (calls ++ rest)⟩

/-- Deleting the `ProviderBusy` endings changes neither what the wrapper ends
with nor what it counts, and the job's retry budget is kept. -/
def BusyInvisible (maxQuiesceEvents : Nat) (job : Job) (outcomes : List (Outcome α)) : Prop :=
  let run := materializeWithRetries maxQuiesceEvents job outcomes
  let unparked := materializeWithRetries maxQuiesceEvents job (outcomes.filter (!·.isBusy))
  run.result = unparked.result ∧ run.job.retryCount = unparked.job.retryCount ∧
    run.attempts = unparked.attempts ∧ run.attempts ≤ job.maxRetries + 1

/-- Either the run is over before its first park, or the call that ends that
park does not fail in a way that would have to be retried. -/
def ParksSafely (maxAttempts : Nat) (outcomes : List (Outcome α)) : Prop :=
  GivesUpFrom maxAttempts 0 0 (outcomes.takeWhile (!·.isBusy)) ∨
  ∀ call, (outcomes.dropWhile (!·.isBusy)).find? (!·.isBusy) = some call →
    call.isTransient = false

/-- A budget of zero is read as three, which shows once a first failure is
followed by another call. -/
def KeepsZeroBudget (job : Job) (outcomes : List (Outcome α)) : Prop :=
  job.maxRetries = 0 → ∀ first second rest,
    outcomes.filter (!·.isBusy) = first :: second :: rest → first.isTransient = false

theorem filter_notBusy_quiet (outcomes : List (Outcome α)) :
    ∀ outcome ∈ outcomes.filter (!·.isBusy), outcome.isBusy = false := by
  intro outcome member
  simpa using (List.mem_filter.mp member).2

theorem unparked_attempts_le_iff (maxQuiesceEvents : Nat) (job : Job)
    (outcomes : List (Outcome α)) :
    (materializeWithRetries maxQuiesceEvents job (outcomes.filter (!·.isBusy))).attempts ≤
      job.maxRetries + 1 ↔ KeepsZeroBudget job outcomes := by
  have quiet := filter_notBusy_quiet outcomes
  unfold KeepsZeroBudget materializeWithRetries
  generalize outcomes.filter (!·.isBusy) = calls at quiet
  by_cases zero : job.maxRetries = 0
  · simp only [zero, true_implies]
    match calls with
    | [] => exact ⟨fun _ _ _ _ absent => (List.cons_ne_nil _ _ absent.symm).elim, fun _ => Nat.zero_le _⟩
    | call :: rest =>
        have ⟨notBusy, restQuiet⟩ := List.forall_mem_cons.mp quiet
        by_cases transient : call.isTransient = true
        · obtain ⟨final, next, -, -, unfolded⟩ :=
            attemptLoop_transient maxQuiesceEvents job.maxAttempts 0 0 job transient
          have goesOn : ¬ ((call.isCircuitOpen = true ∧ 0 < 0) ∨ job.maxAttempts ≤ 0 + 1) := by
            have := job.two_le_maxAttempts
            omega
          rw [unfolded, if_neg goesOn]
          match rest with
          | [] =>
              refine ⟨fun _ first second tail offered => ?_, fun _ => Nat.le_refl _⟩
              exact absurd (List.cons_eq_cons.mp offered).2 (List.cons_ne_nil second tail).symm
          | second :: rest =>
              constructor
              · intro bounded
                have := lt_attemptLoop_attempts maxQuiesceEvents job.maxAttempts (0 + 1)
                  (0 + if call.isUnavailable then 1 else 0) next restQuiet
                omega
              · intro keeps
                exact absurd (keeps call second rest rfl) (by simp [transient])
        · have settled := Bool.eq_false_iff.mpr transient
          rw [attemptLoop_settled notBusy settled]
          refine ⟨fun _ first second tail offered => ?_, fun _ => Nat.le_refl _⟩
          exact (List.cons_eq_cons.mp offered).1 ▸ settled
  · have exactBudget : job.maxAttempts = job.maxRetries + 1 := by
      rw [Job.maxAttempts, if_neg zero]
    simp only [zero, false_implies, iff_true]
    rw [← exactBudget]
    exact attemptLoop_attempts_le quiet (by have := job.two_le_maxAttempts; omega)

theorem transient_counted {maxQuiesceEvents maxAttempts attempt failures : Nat} {job : Job}
    {call : Outcome α} {tail : List (Outcome α)} {report : Report α}
    (ran : attemptLoop maxQuiesceEvents maxAttempts attempt failures job (call :: tail) = report)
    (transient : call.isTransient = true) (quiet : ∀ outcome ∈ tail, outcome.isBusy = false)
    (range : 2 ≤ maxAttempts) (fresh : attempt = 0 ∧ failures = 0 ∨ job.retryCount = attempt) :
    ¬ (report.result = some call ∧ report.job.retryCount = job.retryCount ∧
      report.attempts = attempt + 1) := by
  obtain ⟨final, next, counted, -, unfolded⟩ :=
    attemptLoop_transient maxQuiesceEvents maxAttempts attempt failures job transient
  rw [unfolded] at ran
  split at ran
  · rename_i ends
    subst ran
    rcases fresh with ⟨rfl, rfl⟩ | uncounted
    · omega
    · rintro ⟨-, same, -⟩
      simp only [counted, uncounted] at same
      omega
  · rintro ⟨result, -, attempts⟩
    match tail with
    | [] =>
        subst ran
        cases result
    | second :: tail =>
        have := lt_attemptLoop_attempts maxQuiesceEvents maxAttempts (attempt + 1)
          (failures + if call.isUnavailable then 1 else 0) next quiet
        rw [ran] at this
        omega

theorem sameEnd_iff {maxQuiesceEvents : Nat} {job : Job} {outcomes : List (Outcome α)}
    (few : outcomes.countP Outcome.isBusy ≤ maxQuiesceEvents) :
    (let run := materializeWithRetries maxQuiesceEvents job outcomes
     let unparked := materializeWithRetries maxQuiesceEvents job (outcomes.filter (!·.isBusy))
     run.result = unparked.result ∧ run.job.retryCount = unparked.job.retryCount ∧
       run.attempts = unparked.attempts) ↔ ParksSafely job.maxAttempts outcomes := by
  have notOne := job.two_le_maxAttempts
  have whole := List.takeWhile_append_dropWhile (p := (!·.isBusy)) (l := outcomes)
  have callsQuiet : ∀ call ∈ outcomes.takeWhile (!·.isBusy), call.isBusy = false :=
    fun call member => by
      simpa using List.mem_takeWhile_imp member
  have headBusy : ∀ call rest, outcomes.dropWhile (!·.isBusy) = call :: rest →
      call.isBusy = true := fun call rest split => by
    have := List.head?_dropWhile_not (!·.isBusy) outcomes
    simpa [split] using this
  rw [ParksSafely, materializeWithRetries, materializeWithRetries]
  generalize outcomes.takeWhile (!·.isBusy) = calls at *
  generalize outcomes.dropWhile (!·.isBusy) = parked at *
  subst whole
  have unchanged : calls.filter (!·.isBusy) = calls :=
    List.filter_eq_self.mpr fun call member => by simp [callsQuiet call member]
  rw [List.filter_append, unchanged]
  rcases attemptLoop_append maxQuiesceEvents job.maxAttempts 0 0 job callsQuiet with
    ⟨gives, report, same⟩ | ⟨goes, failures, next, shape, same⟩
  · simp only [same, gives, true_or, and_self]
  simp only [same, goes, false_or, Nat.zero_add]
  match parked with
  | [] => simp
  | busy :: rest =>
      have isBusy := headBusy busy rest rfl
      have few' : (busy :: rest).countP Outcome.isBusy ≤ maxQuiesceEvents := by
        rw [List.countP_append] at few
        omega
      obtain ⟨waiting, kept, run⟩ :=
        attemptLoop_busy job.maxAttempts calls.length failures next isBusy few'
      have dropped : (busy :: rest).filter (!·.isBusy) = rest.filter (!·.isBusy) := by
        simp [isBusy]
      have skipped : (busy :: rest).find? (!·.isBusy) = rest.find? (!·.isBusy) := by
        simp [isBusy]
      have quiet := filter_notBusy_quiet rest
      have first : rest.find? (!·.isBusy) = (rest.filter (!·.isBusy)).head? :=
        List.head?_filter.symm
      rw [run, dropped, skipped, first]
      generalize rest.filter (!·.isBusy) = ahead at quiet
      match ahead with
      | [] => simpa [attemptLoop] using kept
      | call :: tail =>
          have ⟨notBusy, tailQuiet⟩ := List.forall_mem_cons.mp quiet
          simp only [List.head?_cons, Option.some.injEq, forall_eq']
          by_cases transient : call.isTransient = true
          · refine iff_of_false ?_ (by simp [transient])
            intro ⟨result, count, attempts⟩
            refine transient_counted rfl transient tailQuiet notOne ?_
              ⟨result.symm, count.symm.trans kept, attempts.symm⟩
            rcases shape with ⟨rfl, rfl, rfl⟩ | shape
            · exact .inl ⟨rfl, rfl⟩
            · exact .inr (by omega)
          · have settled := Bool.eq_false_iff.mpr transient
            rw [attemptLoop_settled notBusy settled]
            exact iff_of_true ⟨rfl, kept, rfl⟩ settled

/-- Parking is invisible exactly when no transient failure ends a park that the
run was going to survive and a zero budget was never drawn on. -/
theorem busyInvisible_iff {maxQuiesceEvents : Nat} {job : Job} {outcomes : List (Outcome α)}
    (few : outcomes.countP Outcome.isBusy ≤ maxQuiesceEvents) :
    BusyInvisible maxQuiesceEvents job outcomes ↔
      ParksSafely job.maxAttempts outcomes ∧ KeepsZeroBudget job outcomes := by
  rw [← sameEnd_iff few, ← unparked_attempts_le_iff maxQuiesceEvents job outcomes, BusyInvisible]
  constructor
  · intro ⟨result, count, attempts, bounded⟩
    exact ⟨⟨result, count, attempts⟩, attempts ▸ bounded⟩
  · intro ⟨⟨result, count, attempts⟩, bounded⟩
    exact ⟨result, count, attempts, attempts ▸ bounded⟩

/-- A park ended by success, inside a budget of three. -/
theorem busyInvisible_iff_parkedSuccess :
    BusyInvisible 20 ⟨"job", 3, 0, none⟩
        [.raised (.providerBusy "falkordb" "p95" 30), .returned true] ↔
      ParksSafely 4 [.raised (.providerBusy "falkordb" "p95" 30), .returned true] ∧
        KeepsZeroBudget ⟨"job", 3, 0, none⟩
          [.raised (.providerBusy "falkordb" "p95" 30), .returned true] :=
  busyInvisible_iff (by decide)

/-- A timeout right after a park ends the run on its first attempt, though three
retries are left and the retry would have succeeded. -/
theorem parked_failure_not_retried :
    ¬ ∀ (maxQuiesceEvents : Nat) (job : Job) (outcomes : List (Outcome Bool)),
      outcomes.countP Outcome.isBusy ≤ maxQuiesceEvents →
        BusyInvisible maxQuiesceEvents job outcomes := by
  intro always
  have same := (always 20 ⟨"job", 3, 0, none⟩
    [.raised (.providerBusy "falkordb" "p95" 30), .raised (.other "timeout"), .returned true]
    (by decide)).1
  exact absurd same (by decide)

end Univiz.Aggregation
