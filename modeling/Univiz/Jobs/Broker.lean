import Univiz.Data.Transition
import Univiz.Jobs.Emitter

namespace Univiz.Jobs

/-! What a `JobBroker` keeps of one job, and what it owes a subscriber. -/

variable {π κ : Type}

/-- The events that a broker has accepted, the oldest of which it has trimmed. -/
structure JobLog (π : Type) where
  trimmed : List (JobEvent π)
  retained : List (JobEvent π)
  increasing : (trimmed ++ retained).Pairwise fun earlier later =>
    earlier.sequence < later.sequence

namespace JobLog

/-- The log takes a new event and drops its oldest entries. -/
def publish (log : JobLog π) (event : JobEvent π) (drops : Nat) : Option (JobLog π) :=
  if newest : ∀ earlier ∈ log.trimmed ++ log.retained, earlier.sequence < event.sequence then
    some {
      trimmed := log.trimmed ++ (log.retained ++ [event]).take drops
      retained := (log.retained ++ [event]).drop drops
      increasing := by
        rw [List.append_assoc, List.take_append_drop, ← List.append_assoc]
        refine List.pairwise_append.mpr ⟨log.increasing, List.pairwise_singleton _ _, ?_⟩
        intro earlier member latest single
        rw [List.mem_singleton.mp single]
        exact newest earlier member }
  else none

theorem publish_spec {log grown : JobLog π} {event : JobEvent π} {drops : Nat}
    (published : log.publish event drops = some grown) :
    (∀ earlier ∈ log.retained, earlier.sequence < event.sequence) ∧
      grown.trimmed = log.trimmed ++ (log.retained ++ [event]).take drops ∧
      grown.retained = (log.retained ++ [event]).drop drops := by
  unfold publish at published
  split at published
  · rename_i newest
    cases published
    exact ⟨fun earlier member => newest earlier (List.mem_append_right _ member), rfl, rfl⟩
  · cases published

end JobLog

/-- The event is one of those that a subscriber asks for. -/
def JobEvent.since (fromSequence : Int) (event : JobEvent π) : Bool :=
  fromSequence ≤ event.sequence

/-- What was trimmed and what was retained at the subscription, and what has been
published since. -/
structure Contract (π : Type) where
  trimmed : List (JobEvent π)
  retained : List (JobEvent π)
  later : List (JobEvent π)

namespace Contract

def start (log : JobLog π) : Contract π := ⟨log.trimmed, log.retained, []⟩

def publish (contract : Contract π) (event : JobEvent π) : Contract π :=
  { contract with later := contract.later ++ [event] }

def replay (contract : Contract π) : Option Int → List (JobEvent π)
  | none => []
  | some fromSequence => contract.retained.filter (JobEvent.since fromSequence)

/-- The events that the subscriber has to see. -/
def owed (contract : Contract π) (fromSequence : Option Int) : List (JobEvent π) :=
  contract.replay fromSequence ++ contract.later

/-- Some event that the subscriber asks for has been trimmed. -/
def Truncated (contract : Contract π) : Option Int → Prop
  | none => False
  | some fromSequence => ∃ event ∈ contract.trimmed, event.since fromSequence = true

instance decidableTruncated (contract : Contract π) :
    (fromSequence : Option Int) → Decidable (contract.Truncated fromSequence)
  | none => isFalse id
  | some fromSequence => inferInstanceAs (Decidable
      (∃ event ∈ contract.trimmed, event.since fromSequence = true))

variable (contract : Contract π) (event : JobEvent π) (fromSequence : Option Int)

@[simp] theorem owed_publish :
    (contract.publish event).owed fromSequence = contract.owed fromSequence ++ [event] := by
  cases fromSequence <;> simp [publish, owed, replay]

@[simp] theorem truncated_publish :
    (contract.publish event).Truncated fromSequence ↔ contract.Truncated fromSequence := by
  cases fromSequence <;> rfl

end Contract

/-- A subscriber with the cursor of its broker.  There is a contract as soon as the
broker has read its log for the first time. -/
structure Subscription (π κ : Type) where
  log : JobLog π
  cursor : κ
  contract : Option (Contract π)
  yielded : List (JobEvent π)

namespace Subscription

def published (subscription : Subscription π κ) (log : JobLog π) (event : JobEvent π) :
    Subscription π κ :=
  { subscription with log := log, contract := subscription.contract.map (·.publish event) }

def moves (subscription : Subscription π κ) (cursor : κ) : Subscription π κ :=
  { subscription with cursor := cursor }

def yields (subscription : Subscription π κ) (event : JobEvent π) (cursor : κ) :
    Subscription π κ :=
  { subscription with cursor := cursor, yielded := subscription.yielded ++ [event] }

/-- The broker raises just where an event has been trimmed.  Else the subscriber sees
the events that it is owed in their order, and all of them before it has to wait. -/
structure Conforms (subscription : Subscription π κ) (fromSequence : Option Int)
    (raised waiting : Bool) : Prop where
  raises : ∀ contract, subscription.contract = some contract →
    (raised = true ↔ contract.Truncated fromSequence)
  yields : ∀ contract, subscription.contract = some contract → raised = false →
    subscription.yielded <+: contract.owed fromSequence
  complete : ∀ contract, subscription.contract = some contract → raised = false →
    waiting = true → subscription.yielded = contract.owed fromSequence
  idle : subscription.contract = none → subscription.yielded = []

end Subscription

end Univiz.Jobs
