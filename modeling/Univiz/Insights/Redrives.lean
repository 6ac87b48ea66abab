import Univiz.Data.Transition
import Univiz.Insights.Consumer

namespace Univiz.Insights

open Univiz.Data

/-! When the counter of an entry is the number of redrives of its message. -/

namespace Message

variable {DateTime : Type} {config : ConsumerConfig DateTime} {message : Message}
  {index : Nat} {copy : Copy} {fields : Fields} {reason : String} {replies : Replies}

structure Counted (config : ConsumerConfig DateTime) (message : Message) : Prop where
  carried : ∀ index, ∀ entry ∈ message.getDlqEntry index, entry.redriveCount = message.redrives
  limited : message.redrives ≤ config.redriveLimit

/-- Only the copy that was added last is moved to the queue, by `_handle_failure` only if it is the
first one too, and a redrive takes the only entry away. -/
def LastOnly (config : ConsumerConfig DateTime) (message : Message) : MessageEvent → Prop
  | .recover index replies => ∀ copy ∈ message.copies[index]?, copy.pending = true →
      JobEnvelope.parseEnvelope config.iso copy.fields ≠ none →
      exhausted config (copy.deliver.deliveryCount replies.counted) → replies.sent = true →
        index + 1 = message.copies.length
  | .handled index (.failed _) replies => ∀ copy ∈ message.copies[index]?, copy.running > 0 →
      JobEnvelope.parseEnvelope config.iso copy.fields ≠ none →
      exhausted config (copy.finish.deliveryCount replies.counted) → replies.sent = true →
        message.copies.length = 1
  | .redrive index _ xdel =>
      (redriveCheck config.redriveLimit (message.getDlqEntry index)).isOk = true →
        xdel = true ∧ ∀ other ∈ message.dlq.eraseIdx index, other = none
  | .read _ _ | .handled _ _ _ | .deleted _ => True

instance (config : ConsumerConfig DateTime) (message : Message) :
    (event : MessageEvent) → Decidable (message.LastOnly config event)
  | .recover index replies => inferInstanceAs (Decidable (∀ copy ∈ message.copies[index]?,
      copy.pending = true → JobEnvelope.parseEnvelope config.iso copy.fields ≠ none →
        exhausted config (copy.deliver.deliveryCount replies.counted) → replies.sent = true →
          index + 1 = message.copies.length))
  | .handled index (.failed _) replies => inferInstanceAs (Decidable (∀ copy ∈
      message.copies[index]?, copy.running > 0 →
        JobEnvelope.parseEnvelope config.iso copy.fields ≠ none →
          exhausted config (copy.finish.deliveryCount replies.counted) → replies.sent = true →
            message.copies.length = 1))
  | .redrive _ _ _ => inferInstanceAs (Decidable (_ → _ ∧ ∀ other ∈ _, other = none))
  | .read _ _ | .handled _ .success _ | .handled _ .softRetry _ | .handled _ .lost _
  | .deleted _ => isTrue trivial

/-- Every redrive adds a copy, and a copy carries its number. -/
structure Numbered (config : ConsumerConfig DateTime) (message : Message) : Prop where
  counted : message.Counted config
  length : message.copies.length = message.redrives + 1
  carries : ∀ (index : Nat) (copy : Copy), message.copies[index]? = some copy →
    readRedriveCount copy.fields = index

theorem enqueued_numbered (id : String) (envelope : JobEnvelope DateTime) :
    (enqueued config.iso id envelope).Numbered config where
  counted := by
    refine ⟨?_, Nat.zero_le _⟩
    intro index entry member
    cases member
  length := rfl
  carries := by
    intro index copy found
    cases index with
    | zero =>
        cases found
        exact readRedriveCount_toStreamFields envelope
    | succ index => cases found

theorem mem_getDlqEntry {entry : DLQEntry} : entry ∈ message.getDlqEntry index ↔
    ∃ fields, message.dlq[index]? = some (some fields) ∧
      entry = parseDlqEntry (toString index) fields := by
  simp only [getDlqEntry]
  rw [Option.mem_def, Option.map_eq_some_iff]
  refine ⟨?_, ?_⟩
  · rintro ⟨fields, found, rfl⟩
    exact ⟨fields, Option.join_eq_some_iff.mp found, rfl⟩
  · rintro ⟨fields, found, rfl⟩
    exact ⟨fields, Option.join_eq_some_iff.mpr found, rfl⟩

theorem carried_iff : (∀ index, ∀ entry ∈ message.getDlqEntry index,
      entry.redriveCount = message.redrives) ↔
    ∀ fields, some fields ∈ message.dlq → readRedriveCount fields = message.redrives := by
  refine ⟨?_, ?_⟩
  · intro carried fields member
    obtain ⟨index, found⟩ := List.mem_iff_getElem?.mp member
    have here := carried index _ (mem_getDlqEntry.mpr ⟨fields, found, rfl⟩)
    rwa [parseDlqEntry_redriveCount] at here
  · intro carried index entry member
    obtain ⟨fields, found, rfl⟩ := mem_getDlqEntry.mp member
    rw [parseDlqEntry_redriveCount]
    exact carried fields (List.mem_of_getElem? found)

theorem Numbered.put (numbered : message.Numbered config) {changed : Copy}
    (found : message.copies[index]? = some copy) (same : changed.fields = copy.fields) :
    (message.put index changed).Numbered config where
  counted := ⟨numbered.counted.carried, numbered.counted.limited⟩
  length := by
    rw [Message.put, List.length_set]
    exact numbered.length
  carries := by
    intro other kept lookup
    rcases getElem?_set_cases lookup with ⟨rfl, rfl⟩ | ⟨-, before⟩
    · rw [same]
      exact numbered.carries index copy found
    · exact numbered.carries other kept before

/-- A new entry has to have the counter of the message. -/
theorem Numbered.deadLetter (numbered : message.Numbered config) {changed : Copy}
    (found : message.copies[index]? = some copy) (same : changed.fields = copy.fields)
    (count : replies.sent = true → readRedriveCount fields = message.redrives) :
    (message.deadLetter config index changed fields reason replies).Numbered config := by
  simp only [Message.deadLetter]
  split
  · rename_i sent
    have moved : (message.put index (changed.ack replies.acked)).Numbered config :=
      numbered.put found same
    refine ⟨⟨carried_iff.mpr ?_, numbered.counted.limited⟩, moved.length, moved.carries⟩
    intro payload member
    rcases List.mem_append.mp member with old | new
    · exact carried_iff.mp numbered.counted.carried payload old
    · cases List.mem_singleton.mp new
      rw [readRedriveCount_dlqPayload]
      exact count sent
  · exact numbered.put found same

/-- The copy that a redrive adds has the next number. -/
theorem Numbered.redrive (numbered : message.Numbered config) {newId : String} {xdel : Bool}
    (last : message.LastOnly config (.redrive index newId xdel)) :
    (message.redrive config index newId xdel).Numbered config := by
  unfold Message.redrive
  cases checked : redriveCheck config.redriveLimit (message.getDlqEntry index) with
  | error refusal => exact numbered
  | ok entry =>
      obtain ⟨found, below⟩ := redriveCheck_ok checked
      obtain ⟨removed, only⟩ := last (by rw [checked]; rfl)
      have count : entry.redriveCount = message.redrives :=
        numbered.counted.carried index entry found
      refine ⟨⟨carried_iff.mpr ?_, ?_⟩, ?_, ?_⟩
      · intro fields member
        dsimp only at member
        rw [if_pos removed] at member
        obtain ⟨other, place⟩ := List.mem_iff_getElem?.mp member
        rcases getElem?_set_cases place with ⟨_, wrong⟩ | ⟨apart, old⟩
        · cases wrong
        · have left : some fields ∈ message.dlq.eraseIdx index :=
            List.mem_eraseIdx_iff_getElem?.mpr ⟨other, apart.symm, old⟩
          cases only _ left
      · dsimp only
        omega
      · simp only [List.length_append, List.length_singleton, numbered.length]
      · intro place copy lookup
        rcases Nat.lt_or_ge place message.copies.length with old | new
        · rw [List.getElem?_append_left old] at lookup
          exact numbered.carries place copy lookup
        · rw [List.getElem?_append_right new] at lookup
          have added := List.mem_singleton.mp (List.mem_of_getElem? lookup)
          have inside : place - message.copies.length < 1 :=
            (List.getElem?_eq_some_iff.mp lookup).1
          have length := numbered.length
          rw [added, readRedriveCount_redriveFields, count]
          omega

theorem Numbered.read (numbered : message.Numbered config)
    (found : message.copies[index]? = some copy) :
    (message.read config index copy replies).Numbered config := by
  simp only [Message.read]
  split
  · exact numbered.put found rfl
  · exact numbered.put found rfl

theorem Numbered.recover (numbered : message.Numbered config)
    (found : message.copies[index]? = some copy) (pending : copy.pending = true)
    (last : message.LastOnly config (.recover index replies)) :
    (message.recover config index copy replies).Numbered config := by
  simp only [Message.recover]
  split
  · exact numbered.put found rfl
  · rename_i parsed
    split
    · rename_i exhausted
      refine numbered.deadLetter found rfl fun sent => ?_
      have parses : JobEnvelope.parseEnvelope config.iso copy.fields ≠ none := by simp [parsed]
      have ends := last copy found pending parses exhausted sent
      have carries := numbered.carries index copy found
      have length := numbered.length
      omega
    · exact numbered.put found rfl

/-- The envelope of a job has lost the counter, which is 0 if the job was never redriven. -/
theorem Numbered.handled (numbered : message.Numbered config) {envelope : JobEnvelope DateTime}
    {result : HandlerResult} (found : message.copies[index]? = some copy)
    (running : copy.running > 0)
    (parsed : JobEnvelope.parseEnvelope config.iso copy.fields = some envelope)
    (last : message.LastOnly config (.handled index result replies)) :
    (message.handled config index copy envelope replies result).Numbered config := by
  cases result with
  | success => exact numbered.put found rfl
  | softRetry =>
      simp only [Message.handled]
      split
      · exact numbered.put found rfl
      · exact numbered.put found rfl
  | lost => exact numbered.put found rfl
  | failed error =>
      simp only [Message.handled, handleFailure]
      split
      · rename_i exhausted
        refine numbered.deadLetter found rfl fun sent => ?_
        have parses : JobEnvelope.parseEnvelope config.iso copy.fields ≠ none := by simp [parsed]
        have only := last copy found running parses exhausted sent
        have length := numbered.length
        rw [readRedriveCount_toStreamFields]
        omega
      · exact numbered.put found rfl

theorem Numbered.deleted (numbered : message.Numbered config) :
    Numbered config { message with dlq := message.dlq.set index none } := by
  refine ⟨⟨carried_iff.mpr ?_, numbered.counted.limited⟩, numbered.length, numbered.carries⟩
  intro fields member
  rcases List.mem_or_eq_of_mem_set member with old | wrong
  · exact carried_iff.mp numbered.counted.carried fields old
  · cases wrong

theorem Numbered.step (numbered : message.Numbered config) {next : Message} {event : MessageEvent}
    (last : message.LastOnly config event) (stepped : message.step config event = some next) :
    next.Numbered config := by
  cases event with
  | read index replies =>
      obtain ⟨copy, found, stepped⟩ := Option.bind_eq_some_iff.mp stepped
      split at stepped
      · cases stepped
        exact numbered.read found
      · cases stepped
  | recover index replies =>
      obtain ⟨copy, found, stepped⟩ := Option.bind_eq_some_iff.mp stepped
      split at stepped
      · rename_i pending
        cases stepped
        exact numbered.recover found pending last
      · cases stepped
  | handled index result replies =>
      obtain ⟨copy, found, stepped⟩ := Option.bind_eq_some_iff.mp stepped
      obtain ⟨envelope, parsed, stepped⟩ := Option.bind_eq_some_iff.mp stepped
      split at stepped
      · rename_i running
        cases stepped
        exact numbered.handled found running parsed last
      · cases stepped
  | redrive index newId xdel =>
      cases stepped
      exact numbered.redrive last
  | deleted index =>
      cases stepped
      exact numbered.deleted

/-- One delivery is allowed, and it fails each time. -/
def onceOnly : ConsumerConfig String where
  iso := .plain
  stream := purgeStream
  maxDeliveryAttempts := 1
  redriveLimit := 3

def onePurge : Message :=
  enqueued onceOnly.iso "1-0" (.purge "job" "source" "workspace" "2025-01-01" 1)

/-- The worker dies with each delivery, and the entries that the recovery adds are redriven. -/
def diesTwice : List MessageEvent :=
  [.read 0 fine, .handled 0 .lost fine, .recover 0 fine, .redrive 0 "2-0" true, .read 1 fine,
    .handled 1 .lost fine, .recover 1 fine, .redrive 1 "3-0" true]

/-- A purge that fails, is redriven and fails again. -/
def failsTwice : List MessageEvent :=
  [.read 0 fine, .handled 0 (.failed "timeout") fine, .redrive 0 "2-0" true, .read 1 fine,
    .handled 1 (.failed "timeout") fine]

theorem failsTwice_counter : (run (step onceOnly) onePurge failsTwice).map (fun last =>
    ((last.getDlqEntry 1).map DLQEntry.redriveCount, last.redrives)) = some (some 0, 1) := by
  decide +kernel

end Message

end Univiz.Insights
