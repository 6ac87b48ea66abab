import Univiz.Jobs.Broker

namespace Univiz.Jobs

open Univiz.Data

/-! `InMemoryJobBroker`, whose subscribers hold an index into the log. -/

namespace InMemory

variable {π : Type}

def maxPerStream : Nat := 1000

/-- Where `_stream_inner` is: before its first step, in the loop over the log, or in
the live tail. -/
inductive Cursor where
  | idle
  | backfilling (fromSequence : Int) (index : Nat)
  | tailing (cursor : Nat)
  | raised

abbrev Subscriber (π : Type) := Subscription π Cursor

/-- The next event of the loop with the index behind it. -/
def next (fromSequence : Int) : List (JobEvent π) → Nat → Option (JobEvent π × Nat)
  | [], _ => none
  | event :: rest, index =>
      if event.since fromSequence then some (event, index + 1)
      else next fromSequence rest (index + 1)

/-- The generator runs from the given index to its next event, or to the live tail. -/
def backfill (subscriber : Subscriber π) (fromSequence : Int) (index : Nat) : Subscriber π :=
  match next fromSequence (subscriber.log.retained.drop index) index with
  | some (event, index) => subscriber.yields event (.backfilling fromSequence index)
  | none => subscriber.moves (.tailing subscriber.log.retained.length)

/-- The first entry is newer than the event that is asked for. -/
def refuses (log : JobLog π) (fromSequence : Int) : Bool :=
  log.retained.head?.any fun oldest => fromSequence < oldest.sequence

/-- The subscriber asks for the next event. -/
def poll (fromSequence : Option Int) (subscriber : Subscriber π) : Subscriber π :=
  match subscriber.cursor with
  | .idle =>
      let started := { subscriber with contract := some (.start subscriber.log) }
      match fromSequence with
      | none => started.moves (.tailing subscriber.log.retained.length)
      | some fromSequence =>
          if refuses subscriber.log fromSequence then started.moves .raised
          else backfill started fromSequence 0
  | .backfilling fromSequence index => backfill subscriber fromSequence index
  | .tailing cursor =>
      match subscriber.log.retained[cursor]? with
      | some event => subscriber.yields event (.tailing (cursor + 1))
      | none => subscriber
  | .raised => subscriber

inductive Event (π : Type) where
  | publish (event : JobEvent π)
  | poll

def step (fromSequence : Option Int) (subscriber : Subscriber π) : Event π → Option (Subscriber π)
  | .publish event =>
      let drops := subscriber.log.retained.length + 1 - maxPerStream
      (subscriber.log.publish event drops).map fun log => subscriber.published log event
  | .poll => some (poll fromSequence subscriber)

def start (log : JobLog π) : Subscriber π := ⟨log, .idle, none, []⟩

def raised (subscriber : Subscriber π) : Bool :=
  match subscriber.cursor with
  | .raised => true
  | .idle | .backfilling _ _ | .tailing _ => false

def waiting (subscriber : Subscriber π) : Bool :=
  match subscriber.cursor with
  | .tailing cursor => subscriber.log.retained.length ≤ cursor
  | .idle | .backfilling _ _ | .raised => false

/-- At the subscription the first entry is too new just where an event has been
trimmed, and a log with a subscriber is not full. -/
def Allowed (fromSequence : Option Int) (subscriber : Subscriber π) : Event π → Prop
  | .publish _ => subscriber.contract.isSome = true → raised subscriber = false →
      subscriber.log.retained.length < maxPerStream
  | .poll => subscriber.contract = none → ∀ sequence, fromSequence = some sequence →
      (refuses subscriber.log sequence = true ↔
        ∃ event ∈ subscriber.log.trimmed, event.since sequence = true)

instance decidableAllowed (fromSequence : Option Int) (subscriber : Subscriber π) :
    (event : Event π) → Decidable (Allowed fromSequence subscriber event)
  | .publish _ => inferInstanceAs (Decidable (subscriber.contract.isSome = true →
      raised subscriber = false → subscriber.log.retained.length < maxPerStream))
  | .poll => inferInstanceAs (Decidable (subscriber.contract = none →
      ∀ sequence, fromSequence = some sequence → (refuses subscriber.log sequence = true ↔
        ∃ event ∈ subscriber.log.trimmed, event.since sequence = true)))

/-- What the cursor still has to yield, together with what has been yielded, is what
the contract owes. -/
def Serves (fromSequence : Option Int) (subscriber : Subscriber π) : Prop :=
  match subscriber.cursor with
  | .idle => subscriber.contract = none ∧ subscriber.yielded = []
  | .backfilling sequence index =>
      (∃ event ∈ subscriber.log.retained, event.since sequence = true) ∧
      index ≤ subscriber.log.retained.length ∧
      ∃ contract, subscriber.contract = some contract ∧ ¬ contract.Truncated fromSequence ∧
        subscriber.yielded ++ (subscriber.log.retained.drop index).filter (JobEvent.since sequence) =
          contract.owed fromSequence
  | .tailing cursor =>
      cursor ≤ subscriber.log.retained.length ∧
      ∃ contract, subscriber.contract = some contract ∧ ¬ contract.Truncated fromSequence ∧
        subscriber.yielded ++ subscriber.log.retained.drop cursor = contract.owed fromSequence
  | .raised => ∃ contract, subscriber.contract = some contract ∧ contract.Truncated fromSequence

variable {fromSequence : Option Int} {subscriber after : Subscriber π}

theorem start_serves (log : JobLog π) : Serves fromSequence (start log) := ⟨rfl, rfl⟩

theorem next_none {sequence : Int} {rest : List (JobEvent π)} {index : Nat}
    (ended : next sequence rest index = none) : rest.filter (JobEvent.since sequence) = [] := by
  induction rest generalizing index with
  | nil => rfl
  | cons event rest ih =>
      simp only [next] at ended
      split at ended
      · cases ended
      · rename_i skipped
        rw [List.filter_cons_of_neg skipped]
        exact ih ended

theorem next_some {sequence : Int} {rest : List (JobEvent π)} {index behind : Nat}
    {event : JobEvent π} (found : next sequence rest index = some (event, behind)) :
    event ∈ rest ∧ event.since sequence = true ∧ index < behind ∧ behind ≤ index + rest.length ∧
      rest.filter (JobEvent.since sequence) =
        event :: (rest.drop (behind - index)).filter (JobEvent.since sequence) := by
  induction rest generalizing index with
  | nil => cases found
  | cons head rest ih =>
      simp only [next] at found
      split at found
      · rename_i asked
        cases found
        refine ⟨List.mem_cons_self, asked, Nat.lt_succ_self _, by simp, ?_⟩
        rw [List.filter_cons_of_pos asked, Nat.add_sub_cancel_left]
        rfl
      · rename_i skipped
        obtain ⟨member, asked, later, within, same⟩ := ih found
        refine ⟨List.mem_cons_of_mem _ member, asked, by omega, ?_, ?_⟩
        · rw [List.length_cons]
          omega
        · have shift : behind - index = (behind - (index + 1)) + 1 := by omega
          rw [List.filter_cons_of_neg skipped, same, shift, List.drop_succ_cons]

theorem backfill_serves {sequence : Int} {index : Nat} {contract : Contract π}
    (agreed : subscriber.contract = some contract) (intact : ¬ contract.Truncated fromSequence)
    (within : index ≤ subscriber.log.retained.length)
    (owed : subscriber.yielded ++
      (subscriber.log.retained.drop index).filter (JobEvent.since sequence) =
        contract.owed fromSequence) :
    Serves fromSequence (backfill subscriber sequence index) := by
  unfold backfill
  split
  · rename_i event behind found
    obtain ⟨member, asked, later, bound, same⟩ := next_some found
    rw [List.length_drop] at bound
    rw [List.drop_drop] at same
    have shift : index + (behind - index) = behind := by omega
    refine ⟨⟨event, List.mem_of_mem_drop member, asked⟩, ?_, contract, agreed, intact, ?_⟩
    · change behind ≤ subscriber.log.retained.length
      omega
    · rw [← owed, same, shift]
      simp [Subscription.yields]
  · rename_i ended
    refine ⟨Nat.le_refl _, contract, agreed, intact, ?_⟩
    rw [← owed, next_none ended]
    simp [Subscription.moves]

theorem subscribe_serves (idle : subscriber.cursor = .idle)
    (serves : Serves fromSequence subscriber) (allowed : Allowed fromSequence subscriber .poll) :
    Serves fromSequence (poll fromSequence subscriber) := by
  simp only [Serves, idle] at serves
  obtain ⟨unread, quiet⟩ := serves
  have exact := allowed unread
  simp only [poll, idle]
  cases fromSequence with
  | none =>
      refine ⟨Nat.le_refl _, _, rfl, id, ?_⟩
      simp [Contract.owed, Contract.replay, Contract.start, Subscription.moves, quiet]
  | some sequence =>
      dsimp only
      split
      · rename_i refused
        exact ⟨_, rfl, (exact sequence rfl).mp refused⟩
      · rename_i accepted
        have intact : ¬ (Contract.start subscriber.log).Truncated (some sequence) :=
          fun truncated => accepted ((exact sequence rfl).mpr truncated)
        apply backfill_serves rfl intact (Nat.zero_le _)
        simp [Contract.owed, Contract.replay, Contract.start, quiet]

theorem poll_serves (serves : Serves fromSequence subscriber)
    (allowed : Allowed fromSequence subscriber .poll) :
    Serves fromSequence (poll fromSequence subscriber) := by
  cases cursor : subscriber.cursor with
  | idle => exact subscribe_serves cursor serves allowed
  | backfilling sequence index =>
      simp only [Serves, cursor] at serves
      obtain ⟨-, within, contract, agreed, intact, owed⟩ := serves
      simp only [poll, cursor]
      exact backfill_serves agreed intact within owed
  | tailing index =>
      have served := serves
      simp only [Serves, cursor] at serves
      obtain ⟨within, contract, agreed, intact, owed⟩ := serves
      simp only [poll, cursor]
      split
      · rename_i event found
        obtain ⟨inside, found⟩ := List.getElem?_eq_some_iff.mp found
        refine ⟨inside, contract, agreed, intact, ?_⟩
        rw [← owed, List.drop_eq_getElem_cons inside, found]
        simp [Subscription.yields]
      · exact served
  | raised =>
      have served := serves
      simp only [poll, cursor]
      exact served

theorem publish_serves {event : JobEvent π} (serves : Serves fromSequence subscriber)
    (allowed : Allowed fromSequence subscriber (.publish event))
    (published : step fromSequence subscriber (.publish event) = some after) :
    Serves fromSequence after := by
  obtain ⟨log, grown, rfl⟩ := Option.map_eq_some_iff.mp published
  obtain ⟨newest, -, retained⟩ := JobLog.publish_spec grown
  have kept : ∀ contract, subscriber.contract = some contract → raised subscriber = false →
      log.retained = subscriber.log.retained ++ [event] := by
    intro contract agreed running
    have room := allowed (Option.isSome_of_eq_some agreed) running
    have none : subscriber.log.retained.length + 1 - maxPerStream = 0 := by omega
    rw [retained, none, List.drop_zero]
  cases cursor : subscriber.cursor with
  | idle =>
      simp only [Serves, cursor] at serves
      simp [Serves, Subscription.published, cursor, serves]
  | backfilling sequence index =>
      simp only [Serves, cursor] at serves
      obtain ⟨⟨asked, member, since⟩, within, contract, agreed, intact, owed⟩ := serves
      have kept := kept contract agreed (by simp [raised, cursor])
      have later : event.since sequence = true := by
        have above := newest asked member
        simp only [JobEvent.since, decide_eq_true_eq] at since ⊢
        omega
      simp only [Serves, Subscription.published, cursor, kept, agreed, Option.map_some]
      refine ⟨⟨asked, List.mem_append_left _ member, since⟩, ?_, _, rfl, by simpa using intact, ?_⟩
      · rw [List.length_append]
        omega
      · rw [List.drop_append_of_le_length within, List.filter_append, ← List.append_assoc, owed]
        simp [later]
  | tailing index =>
      simp only [Serves, cursor] at serves
      obtain ⟨within, contract, agreed, intact, owed⟩ := serves
      have kept := kept contract agreed (by simp [raised, cursor])
      simp only [Serves, Subscription.published, cursor, kept, agreed, Option.map_some]
      refine ⟨?_, _, rfl, by simpa using intact, ?_⟩
      · rw [List.length_append]
        omega
      · rw [List.drop_append_of_le_length within, ← List.append_assoc, owed]
        simp
  | raised =>
      simp only [Serves, cursor] at serves
      obtain ⟨contract, agreed, truncated⟩ := serves
      simp only [Serves, Subscription.published, cursor, agreed, Option.map_some]
      exact ⟨_, rfl, by simpa using truncated⟩

theorem step_serves {event : Event π} (serves : Serves fromSequence subscriber)
    (allowed : Allowed fromSequence subscriber event)
    (stepped : step fromSequence subscriber event = some after) : Serves fromSequence after := by
  cases event with
  | publish event => exact publish_serves serves allowed stepped
  | poll =>
      cases stepped
      exact poll_serves serves allowed

theorem Serves.conforms (serves : Serves fromSequence subscriber) :
    subscriber.Conforms fromSequence (raised subscriber) (waiting subscriber) := by
  cases cursor : subscriber.cursor with
  | idle =>
      simp only [Serves, cursor] at serves
      constructor <;> simp [serves]
  | backfilling sequence index =>
      simp only [Serves, cursor] at serves
      obtain ⟨-, -, contract, agreed, intact, owed⟩ := serves
      constructor
      · simp [agreed, raised, cursor, intact]
      · simp [agreed, ← owed]
      · simp [waiting, cursor]
      · simp [agreed]
  | tailing index =>
      simp only [Serves, cursor] at serves
      obtain ⟨-, contract, agreed, intact, owed⟩ := serves
      constructor
      · simp [agreed, raised, cursor, intact]
      · simp [agreed, ← owed]
      · intro other agreed' _ idle
        cases agreed.symm.trans agreed'
        simp only [waiting, cursor, decide_eq_true_eq] at idle
        rw [← owed, List.drop_eq_nil_of_le idle, List.append_nil]
      · simp [agreed]
  | raised =>
      simp only [Serves, cursor] at serves
      obtain ⟨contract, agreed, truncated⟩ := serves
      constructor <;> simp [agreed, raised, cursor, truncated]

/-- Runs whose events are all allowed conform. -/
theorem stream_conforms {log : JobLog π} {events : List (Event π)} {last : Subscriber π}
    (meets : Meets (step fromSequence) (Allowed fromSequence) (start log) events)
    (ran : run (step fromSequence) (start log) events = some last) :
    last.Conforms fromSequence (raised last) (waiting last) := by
  have serves : Serves fromSequence last :=
    run_invariant (Serves fromSequence) (fun _ _ _ => step_serves) (start_serves log) meets ran
  exact serves.conforms

/-- How far a subscriber is from the end of the log. -/
def rank (subscriber : Subscriber π) : Nat :=
  match subscriber.cursor with
  | .idle => subscriber.log.retained.length + 2
  | .backfilling _ index => subscriber.log.retained.length - index + 1
  | .tailing cursor => subscriber.log.retained.length - cursor
  | .raised => 0

/-- The subscriber has been refused, or it waits for an event. -/
def Settled (subscriber : Subscriber π) : Prop :=
  raised subscriber = true ∨ waiting subscriber = true

theorem rank_backfill {sequence : Int} {index : Nat} :
    rank (backfill subscriber sequence index) < subscriber.log.retained.length - index + 1 := by
  unfold backfill
  split
  · rename_i event behind found
    obtain ⟨-, -, later, bound, -⟩ := next_some found
    rw [List.length_drop] at bound
    simp only [rank, Subscription.yields]
    omega
  · simp [rank, Subscription.moves]

theorem rank_poll (unsettled : ¬ Settled subscriber) :
    rank (poll fromSequence subscriber) < rank subscriber := by
  cases cursor : subscriber.cursor with
  | idle =>
      have far : rank subscriber = subscriber.log.retained.length + 2 := by simp [rank, cursor]
      rw [far]
      simp only [poll, cursor]
      cases fromSequence with
      | none => simp [rank, Subscription.moves]
      | some sequence =>
          dsimp only
          split
          · simp [rank, Subscription.moves]
          · apply Nat.lt_trans rank_backfill
            simp
  | backfilling sequence index =>
      have far : rank subscriber = subscriber.log.retained.length - index + 1 := by
        simp [rank, cursor]
      rw [far]
      simp only [poll, cursor]
      exact rank_backfill
  | tailing index =>
      have far : rank subscriber = subscriber.log.retained.length - index := by simp [rank, cursor]
      have behind : index < subscriber.log.retained.length := by
        apply Nat.lt_of_not_le
        intro end_
        exact unsettled (.inr (by simpa [waiting, cursor] using end_))
      rw [far]
      simp only [poll, cursor, List.getElem?_eq_getElem behind, rank, Subscription.yields]
      omega
  | raised => exact absurd (.inl (by simp [raised, cursor])) unsettled

/-- A subscriber that asks often enough is refused, or has to wait. -/
theorem polls_settle (fromSequence : Option Int) (subscriber : Subscriber π) :
    ∃ count, Settled ((poll fromSequence)^[count] subscriber) :=
  exists_iterate rank (fun _ => rank_poll) subscriber

end InMemory

end Univiz.Jobs
