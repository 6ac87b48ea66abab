import Univiz.Data.Transition
import Univiz.Insights.Purges

namespace Univiz.Insights

open Univiz.Data Univiz.Aggregation

/-! What a purge message and its row come to over a sequence of deliveries. -/

def Attempt.isPurged : Attempt → Bool
  | .purged _ _ => true
  | .softRetry _ | .failed _ _ _ => false

namespace Purge

variable {DateTime : Type} {config : ConsumerConfig DateTime} {request : PurgeRequest DateTime}
  {job : PurgeJob} {purge : Purge} {attempt : Attempt} {attempts : List Attempt} {count : Nat}

def step (config : ConsumerConfig DateTime) (purge : Purge) (attempt : Attempt) : Option Purge :=
  some (purge.deliver config attempt)

/-- A row that is marked as failed has its message in the dead-letter queue, after as many
deliveries as are allowed. -/
def MarkedLast (config : ConsumerConfig DateTime) (purge : Purge) : Prop :=
  purge.job.status = .failed → purge.message.dlq ≠ [] ∧
    ∀ copy ∈ purge.message.copies, config.maxDeliveryAttempts ≤ copy.timesDelivered

/-- The first allowed delivery that would succeed is the one on which the purge is run. -/
def RunsWhenPossible (config : ConsumerConfig DateTime) (purge : Purge) (count : Nat)
    (attempts : List Attempt) : Prop :=
  ∀ index, attempts.findIdx? Attempt.isPurged = some index →
    (count + index + 1 : Nat) ≤ config.maxDeliveryAttempts →
      (attempts.foldl (deliver config) purge).job.status = .completed ∧
        (attempts.foldl (deliver config) purge).purgedOn = [count + index + 1]

/-- Until one succeeds, the deliveries before the last allowed one do not fail with a record,
and the last allowed one does not succeed, unless it is the first. -/
def Spared (maxDeliveryAttempts : Int) : Nat → List Attempt → Prop
  | _, [] => True
  | count, .purged _ _ :: _ => ¬ (((count + 1 : Nat) : Int) = maxDeliveryAttempts ∧ 0 < count)
  | count, .failed _ _ true :: rest =>
      maxDeliveryAttempts ≤ (count + 1 : Nat) ∧ Spared maxDeliveryAttempts (count + 1) rest
  | count, _ :: rest => Spared maxDeliveryAttempts (count + 1) rest

def copyOf (config : ConsumerConfig DateTime) (request : PurgeRequest DateTime) (count : Nat)
    (acknowledged : Bool) (running : Nat) : Copy :=
  ⟨request.msgId, request.envelope.toStreamFields config.iso, count, acknowledged, running⟩

/-- The message is in the pending list, or has not been read yet. -/
def waiting (config : ConsumerConfig DateTime) (request : PurgeRequest DateTime) (count : Nat)
    (job : PurgeJob) : Purge :=
  ⟨⟨[copyOf config request count false 0], [], 0⟩, job, []⟩

/-- The message has been acknowledged. -/
def finished (config : ConsumerConfig DateTime) (request : PurgeRequest DateTime) (count : Nat)
    (dlq : List (Option Fields)) (job : PurgeJob) (purgedOn : List Nat) : Purge :=
  ⟨⟨[copyOf config request count true 0], dlq, 0⟩, job, purgedOn⟩

theorem deliver_finished {dlq : List (Option Fields)} {purgedOn : List Nat} :
    (finished config request (count + 1) dlq job purgedOn).deliver config attempt =
      finished config request (count + 1) dlq job purgedOn := by
  simp [deliver, finished, received, Message.step, copyOf, Copy.pending]

theorem received_exhausted (request : PurgeRequest DateTime) (job : PurgeJob) (late : 0 < count)
    (last : Message.exhausted config (count + 1)) :
    (waiting config request count job).received config (copyOf config request count false 0) =
      some ⟨[copyOf config request (count + 1) true 0], [some (dlqPayload config.stream
        request.msgId (request.envelope.toStreamFields config.iso)
        "max_delivery_attempts_exceeded")], 0⟩ := by
  have delivered : count ≠ 0 := Nat.ne_of_gt late
  simp [received, waiting, copyOf, delivered, Message.step, Copy.pending, late, Message.recover,
    JobEnvelope.parseEnvelope_toStreamFields, Copy.deliveryCount, Copy.deliver, fine, last,
    Message.deadLetter, Copy.ack]

theorem received_early (request : PurgeRequest DateTime) (job : PurgeJob)
    (early : count = 0 ∨ ¬ Message.exhausted config (count + 1)) :
    (waiting config request count job).received config (copyOf config request count false 0) =
      some ⟨[copyOf config request (count + 1) false 1], [], 0⟩ := by
  cases count with
  | zero =>
      simp [received, waiting, copyOf, Message.step, Message.read,
        JobEnvelope.parseEnvelope_toStreamFields, Message.put, Copy.deliver, Copy.spawn]
  | succ count =>
      have more := early.resolve_left nofun
      simp [received, waiting, copyOf, Message.step, Copy.pending, Message.recover,
        JobEnvelope.parseEnvelope_toStreamFields, Copy.deliveryCount, Copy.deliver, fine, more,
        Message.put, Copy.spawn]

theorem step_handled (config : ConsumerConfig DateTime) (request : PurgeRequest DateTime)
    (count : Nat) (result : HandlerResult) :
    Message.step config ⟨[copyOf config request (count + 1) false 1], [], 0⟩
        (.handled 0 result fine) =
      some (Message.handled config ⟨[copyOf config request (count + 1) false 1], [], 0⟩ 0
        (copyOf config request (count + 1) false 1) request.envelope fine result) := by
  simp [Message.step, copyOf, JobEnvelope.parseEnvelope_toStreamFields]

/-- A delivery whose message gets to the handler. -/
theorem deliver_early (early : count = 0 ∨ ¬ Message.exhausted config (count + 1)) :
    (waiting config request count job).deliver config attempt =
      ((waiting config request count job).handle config
        ⟨[copyOf config request (count + 1) false 1], [], 0⟩ (count + 1) attempt).getD
          (waiting config request count job) := by
  have received := received_early request job early
  have first : (waiting config request count job).message.copies[0]? =
      some (copyOf config request count false 0) := rfl
  rw [deliver, first, Option.bind_some, received]
  rfl

theorem deliver_exhausted (request : PurgeRequest DateTime) (job : PurgeJob) (attempt : Attempt)
    (late : 0 < count) (last : Message.exhausted config (count + 1)) :
    (waiting config request count job).deliver config attempt =
      finished config request (count + 1) [some (dlqPayload config.stream request.msgId
        (request.envelope.toStreamFields config.iso) "max_delivery_attempts_exceeded")] job [] := by
  have received := received_exhausted request job late last
  have first : (waiting config request count job).message.copies[0]? =
      some (copyOf config request count false 0) := rfl
  rw [deliver, first, Option.bind_some, received]
  rfl

theorem deliver_purged (request : PurgeRequest DateTime) (total deleted : Nat)
    (early : count = 0 ∨ ¬ Message.exhausted config (count + 1))
    (active : job.status.isActive = true) :
    (waiting config request count job).deliver config (.purged total deleted) =
      finished config request (count + 1) [] (job.completed deleted) [count + 1] := by
  have collected : job.collect (count + 1) (.purged total deleted) =
      (job.completed deleted, [count + 1], .success) := by
    simp [PurgeJob.collect, active]
  have handled := step_handled config request count .success
  rw [deliver_early early]
  simp only [handle, waiting, collected, handled]
  rfl

theorem deliver_softRetry (early : count = 0 ∨ ¬ Message.exhausted config (count + 1))
    (active : job.status.isActive = true) {total : Option Nat} :
    (waiting config request count job).deliver config (.softRetry total) =
      waiting config request (count + 1) (job.interrupted total) := by
  have collected : job.collect (count + 1) (.softRetry total) =
      (job.interrupted total, [], .softRetry) := by
    simp [PurgeJob.collect, active]
  have handled := step_handled config request count .softRetry
  rw [deliver_early early]
  simp only [handle, waiting, collected, handled, Message.handled, request.isPurge]
  rfl

/-- The row after a delivery that fails. -/
def recordedJob (job : PurgeJob) (total : Option Nat) (error : String) (recorded : Bool) :
    PurgeJob :=
  if recorded = true then (job.interrupted total).recordFailure error else job.interrupted total

theorem deliver_failed (early : count = 0 ∨ ¬ Message.exhausted config (count + 1))
    (active : job.status.isActive = true) {total : Option Nat} {error : String} {recorded : Bool} :
    (waiting config request count job).deliver config (.failed total error recorded) =
      if Message.exhausted config (count + 1) then
        finished config request (count + 1) [some (dlqPayload config.stream request.msgId
          (request.envelope.toStreamFields config.iso) (String.ofList (error.toList.take 200)))]
          (recordedJob job total error recorded) []
      else waiting config request (count + 1) (recordedJob job total error recorded) := by
  have collected : job.collect (count + 1) (.failed total error recorded) =
      (job.interrupted total, [], .failed error) := by
    simp [PurgeJob.collect, active]
  have handled := step_handled config request count (.failed error)
  have counted : (copyOf config request (count + 1) false 1).finish.deliveryCount true =
      count + 1 := by
    simp [copyOf, Copy.finish, Copy.deliveryCount, Copy.pending]
  rw [deliver_early early]
  simp only [handle, waiting, collected, handled, Message.handled, Message.handleFailure]
  simp only [fine, counted, Attempt.isRecorded]
  by_cases last : Message.exhausted config (count + 1)
  · simp only [last, ↓reduceIte]
    rfl
  · simp only [last, ↓reduceIte]
    rfl

/-- What the consumer is to guarantee from here on. -/
def Lawful (config : ConsumerConfig DateTime) (purge : Purge) (count : Nat)
    (attempts : List Attempt) : Prop :=
  Always (step config) (MarkedLast config) purge attempts ∧
    RunsWhenPossible config purge count attempts

theorem markedLast_of_active (active : job.status.isActive = true) {message : Message}
    {purgedOn : List Nat} : MarkedLast config ⟨message, job, purgedOn⟩ := by
  intro failed
  rw [show job.status = .failed from failed] at active
  cases active

theorem markedLast_finished (last : Message.exhausted config (count + 1)) {payload : Fields}
    {purgedOn : List Nat} :
    MarkedLast config (finished config request (count + 1) [some payload] job purgedOn) := by
  intro _
  refine ⟨List.cons_ne_nil _ _, ?_⟩
  intro copy member
  cases List.mem_singleton.mp member
  exact last

theorem foldl_finished {dlq : List (Option Fields)} {purgedOn : List Nat} :
    attempts.foldl (deliver config) (finished config request (count + 1) dlq job purgedOn) =
      finished config request (count + 1) dlq job purgedOn := by
  induction attempts with
  | nil => rfl
  | cons attempt rest ih => rw [List.foldl_cons, deliver_finished, ih]

theorem always_finished {dlq : List (Option Fields)} {purgedOn : List Nat}
    (marked : MarkedLast config (finished config request (count + 1) dlq job purgedOn)) :
    Always (step config) (MarkedLast config) (finished config request (count + 1) dlq job purgedOn)
      attempts := by
  induction attempts with
  | nil => exact marked
  | cons attempt rest ih =>
      refine ⟨marked, ?_⟩
      intro next stepped
      cases Option.some.inj stepped
      rwa [deliver_finished]

/-- Beyond the last allowed delivery there is nothing to spare. -/
theorem spared_of_exhausted (beyond : config.maxDeliveryAttempts ≤ (count : Nat)) :
    Spared config.maxDeliveryAttempts count attempts := by
  induction attempts generalizing count with
  | nil => trivial
  | cons attempt rest ih =>
      have further : config.maxDeliveryAttempts ≤ (count + 1 : Nat) := by omega
      cases attempt with
      | purged total deleted =>
          rintro ⟨last, -⟩
          omega
      | softRetry total => exact ih further
      | failed total error recorded =>
          cases recorded with
          | true => exact ⟨further, ih further⟩
          | false => exact ih further

/-- A first delivery that does not succeed leaves the law to the others. -/
theorem runsWhenPossible_cons {purge : Purge} (unpurged : attempt.isPurged = false) :
    RunsWhenPossible config purge count (attempt :: attempts) ↔
      RunsWhenPossible config (purge.deliver config attempt) (count + 1) attempts := by
  simp only [RunsWhenPossible]
  rw [List.findIdx?_cons, unpurged]
  have shifted (index : Nat) : count + (index + 1) + 1 = count + 1 + index + 1 := by omega
  simp only [Bool.false_eq_true, ↓reduceIte, Option.map_eq_some_iff, List.foldl_cons,
    forall_exists_index, and_imp, forall_apply_eq_imp_iff₂, shifted]

theorem lawful_cons {purge : Purge} (marked : MarkedLast config purge)
    (unpurged : attempt.isPurged = false) :
    Lawful config purge count (attempt :: attempts) ↔
      Lawful config (purge.deliver config attempt) (count + 1) attempts := by
  simp only [Lawful]
  rw [runsWhenPossible_cons unpurged]
  refine and_congr_left fun _ => ?_
  refine ⟨?_, ?_⟩
  · intro always
    exact always.2 _ rfl
  · intro later
    refine ⟨marked, ?_⟩
    intro next stepped
    cases Option.some.inj stepped
    exact later

/-- Once the message is in the dead-letter queue, there is no allowed delivery left. -/
theorem lawful_finished (last : Message.exhausted config (count + 1)) {payload : Fields} :
    Lawful config (finished config request (count + 1) [some payload] job []) (count + 1)
      attempts := by
  refine ⟨always_finished (markedLast_finished last), ?_⟩
  intro index found allowed
  simp only [Message.exhausted] at last
  omega

theorem exhausted_or_early (config : ConsumerConfig DateTime) (count : Nat) :
    0 < count ∧ Message.exhausted config (count + 1) ∨
      (count = 0 ∨ ¬ Message.exhausted config (count + 1)) := by
  by_cases zero : count = 0
  · exact .inr (.inl zero)
  · by_cases last : Message.exhausted config (count + 1)
    · exact .inl ⟨Nat.pos_of_ne_zero zero, last⟩
    · exact .inr (.inr last)

/-- A delivery that would succeed has to reach the handler. -/
theorem lawful_purged (active : job.status.isActive = true) {total deleted : Nat} :
    Lawful config (waiting config request count job) count (.purged total deleted :: attempts) ↔
      ¬ (((count + 1 : Nat) : Int) = config.maxDeliveryAttempts ∧ 0 < count) := by
  have first : (Attempt.purged total deleted :: attempts).findIdx? Attempt.isPurged = some 0 := rfl
  have step_eq {next : Purge} (delivered : (waiting config request count job).deliver config
      (.purged total deleted) = next) : Always (step config) (MarkedLast config)
        (waiting config request count job) (.purged total deleted :: attempts) ↔
          Always (step config) (MarkedLast config) next attempts := by
    refine ⟨fun always => delivered ▸ always.2 _ rfl, ?_⟩
    intro later
    refine ⟨markedLast_of_active active, ?_⟩
    intro next' stepped
    cases Option.some.inj stepped
    rw [delivered]
    exact later
  rcases exhausted_or_early config count with late | early
  · have delivered := deliver_exhausted request job (.purged total deleted) late.1 late.2
    rw [Lawful, step_eq delivered]
    refine ⟨?_, ?_⟩
    · rintro ⟨-, runs⟩ ⟨last, -⟩
      have status := (runs 0 first (by omega)).1
      rw [List.foldl_cons, delivered, foldl_finished] at status
      rw [show job.status = .completed from status] at active
      cases active
    · intro spared
      refine ⟨always_finished (markedLast_finished late.2), ?_⟩
      intro index found allowed
      cases first.symm.trans found
      have last := late.2
      simp only [Message.exhausted] at last
      exact absurd ⟨by omega, late.1⟩ spared
  · have delivered := deliver_purged request total deleted early active
    rw [Lawful, step_eq delivered]
    refine ⟨?_, ?_⟩
    · rintro - ⟨last, positive⟩
      simp only [Message.exhausted] at early
      omega
    · intro _
      refine ⟨always_finished nofun, ?_⟩
      intro index found _
      cases first.symm.trans found
      rw [List.foldl_cons, delivered, foldl_finished]
      exact ⟨rfl, rfl⟩

theorem interrupted_active (active : job.status.isActive = true) (total : Option Nat) :
    (job.interrupted total).status.isActive = true := by
  cases total with
  | none => exact active
  | some total => rfl

theorem lawful_waiting_iff (active : job.status.isActive = true) :
    Lawful config (waiting config request count job) count attempts ↔
      Spared config.maxDeliveryAttempts count attempts := by
  have marked {count : Nat} {job : PurgeJob} (active : job.status.isActive = true) :
      MarkedLast config (waiting config request count job) := markedLast_of_active active
  induction attempts generalizing count job with
  | nil => exact ⟨fun _ => trivial, fun _ => ⟨marked active, nofun⟩⟩
  | cons attempt rest ih =>
      cases attempt with
      | purged total deleted => exact lawful_purged active
      | softRetry total =>
          rw [lawful_cons (marked active) rfl]
          rcases exhausted_or_early config count with late | early
          · have beyond : Spared config.maxDeliveryAttempts (count + 1) rest :=
              spared_of_exhausted late.2
            rw [deliver_exhausted request job _ late.1 late.2]
            exact iff_of_true (lawful_finished late.2) beyond
          · rw [deliver_softRetry early active]
            exact ih (interrupted_active active total)
      | failed total error recorded =>
          rw [lawful_cons (marked active) rfl]
          by_cases last : Message.exhausted config (count + 1)
          · have beyond : Spared config.maxDeliveryAttempts (count + 1) rest :=
              spared_of_exhausted last
            have spared : Spared config.maxDeliveryAttempts count
                (.failed total error recorded :: rest) := by
              cases recorded with
              | true => exact ⟨last, beyond⟩
              | false => exact beyond
            refine iff_of_true ?_ spared
            rcases exhausted_or_early config count with late | early
            · rw [deliver_exhausted request job _ late.1 last]
              exact lawful_finished last
            · rw [deliver_failed early active, if_pos last]
              exact lawful_finished last
          · rw [deliver_failed (.inr last) active, if_neg last]
            cases recorded with
            | true =>
                -- The row is failed, and the message is still in the pending list.
                refine iff_of_false ?_ (fun spared => last spared.1)
                rintro ⟨always, -⟩
                have marked := always_start always rfl
                exact marked.1 rfl
            | false => exact ih (interrupted_active active total)

def threeDeliveries : ConsumerConfig String where
  iso := .plain
  stream := purgeStream
  maxDeliveryAttempts := 3
  redriveLimit := 3

def onePurge : PurgeRequest String where
  msgId := "1-0"
  envelope := .purge "job" "source" "workspace" "2025-01-01" 1
  isPurge := rfl
  job := ⟨.pending, none, 0, 0, 0⟩
  active := rfl

end Purge

end Univiz.Insights
