import Univiz.Insights.DeadLetters

namespace Univiz.Insights

open Univiz.Data

/-! One job message with its copies in the stream and in the dead-letter queue. -/

/-- An entry of the jobs stream.  It is in the pending list from its first delivery until it
is acknowledged, and `running` counts the deliveries that are being handled. -/
structure Copy where
  id : String
  fields : Fields
  timesDelivered : Nat
  acknowledged : Bool
  running : Nat

/-- The copies and the entries are numbered in the order in which they were added; an entry
that has been deleted is `none`. -/
structure Message where
  copies : List Copy
  dlq : List (Option Fields)
  redrives : Nat

structure ConsumerConfig (DateTime : Type) where
  iso : IsoFormat DateTime
  stream : StreamConfig
  maxDeliveryAttempts : Int
  redriveLimit : Nat

/-- How the commands of a step end: whether XPENDING is answered, whether the entry is
added to the dead-letter queue, and whether XACK takes effect. -/
structure Replies where
  counted : Bool
  sent : Bool
  acked : Bool

/-- Every command takes effect. -/
def fine : Replies := ⟨true, true, true⟩

/-- How the handler of a delivery ends.  It is `lost` when its process dies. -/
inductive HandlerResult where
  | success
  | softRetry
  | failed (error : String)
  | lost

inductive MessageEvent where
  | read (copy : Nat) (replies : Replies)
  | recover (copy : Nat) (replies : Replies)
  | handled (copy : Nat) (result : HandlerResult) (replies : Replies)
  | redrive (entry : Nat) (newId : String) (xdel : Bool)
  | deleted (entry : Nat)

def Message.enqueued {DateTime : Type} (iso : IsoFormat DateTime) (id : String)
    (envelope : JobEnvelope DateTime) : Message :=
  ⟨[⟨id, envelope.toStreamFields iso, 0, false, 0⟩], [], 0⟩

namespace Copy

variable (copy : Copy)

def pending : Bool := copy.timesDelivered > 0 && ! copy.acknowledged

/-- `_delivery_count`. -/
def deliveryCount (counted : Bool) : Nat :=
  if counted = true ∧ copy.pending = true then copy.timesDelivered else 1

def deliver : Copy := { copy with timesDelivered := copy.timesDelivered + 1 }

/-- `_ack`, which only logs a failure. -/
def ack (acked : Bool) : Copy := { copy with acknowledged := copy.acknowledged || acked }

def spawn : Copy := { copy with running := copy.running + 1 }

def finish : Copy := { copy with running := copy.running - 1 }

end Copy

namespace Message

variable {DateTime : Type} (config : ConsumerConfig DateTime) (message : Message)

def put (index : Nat) (copy : Copy) : Message :=
  { message with copies := message.copies.set index copy }

def exhausted (count : Nat) : Prop := (count : Int) ≥ config.maxDeliveryAttempts

instance (count : Nat) : Decidable (exhausted config count) :=
  inferInstanceAs (Decidable (_ ≥ _))

/-- `send_to_dlq` and the XACK after it, which is not reached if the first raises. -/
def deadLetter (index : Nat) (copy : Copy) (fields : Fields) (reason : String)
    (replies : Replies) : Message :=
  if replies.sent = true then
    { message with
      copies := message.copies.set index (copy.ack replies.acked)
      dlq := message.dlq ++ [some (dlqPayload config.stream copy.id fields reason)] }
  else message.put index copy

/-- XREADGROUP and `_spawn`. -/
def read (index : Nat) (copy : Copy) (replies : Replies) : Message :=
  match JobEnvelope.parseEnvelope config.iso copy.fields with
  | none => message.put index (copy.deliver.ack replies.acked)
  | some _ => message.put index copy.deliver.spawn

/-- One round of `_recover_pending`. -/
def recover (index : Nat) (copy : Copy) (replies : Replies) : Message :=
  let claimed := copy.deliver
  match JobEnvelope.parseEnvelope config.iso copy.fields with
  | none => message.put index (claimed.ack replies.acked)
  | some _ =>
      if exhausted config (claimed.deliveryCount replies.counted) then
        message.deadLetter config index claimed copy.fields "max_delivery_attempts_exceeded"
          replies
      else message.put index claimed.spawn

/-- `_handle_failure`. -/
def handleFailure (index : Nat) (copy : Copy) (envelope : JobEnvelope DateTime)
    (error : String) (replies : Replies) : Message :=
  if exhausted config (copy.deliveryCount replies.counted) then
    message.deadLetter config index copy (envelope.toStreamFields config.iso)
      (String.ofList (error.toList.take 200)) replies
  else message.put index copy

/-- The end of `_run_handler`. -/
def handled (index : Nat) (copy : Copy) (envelope : JobEnvelope DateTime)
    (replies : Replies) : HandlerResult → Message
  | .success => message.put index (copy.finish.ack replies.acked)
  | .softRetry =>
      if envelope.oneShot = true then message.put index copy.finish
      else message.put index (copy.finish.ack replies.acked)
  | .failed error => message.handleFailure config index copy.finish envelope error replies
  | .lost => message.put index copy.finish

def getDlqEntry (index : Nat) : Option DLQEntry :=
  message.dlq[index]?.join.map (parseDlqEntry (toString index))

/-- `redrive_dlq_entry`.  A failed XDEL leaves the entry where it is. -/
def redrive (index : Nat) (newId : String) (xdel : Bool) : Message :=
  match redriveCheck config.redriveLimit (message.getDlqEntry index) with
  | .error _ => message
  | .ok entry =>
      { copies := message.copies ++ [⟨newId, entry.redriveFields, 0, false, 0⟩]
        dlq := if xdel = true then message.dlq.set index none else message.dlq
        redrives := message.redrives + 1 }

def step : MessageEvent → Option Message
  | .read index replies => do
      let copy ← message.copies[index]?
      if copy.timesDelivered = 0 then message.read config index copy replies else none
  | .recover index replies => do
      let copy ← message.copies[index]?
      if copy.pending = true then message.recover config index copy replies else none
  | .handled index result replies => do
      let copy ← message.copies[index]?
      let envelope ← JobEnvelope.parseEnvelope config.iso copy.fields
      if copy.running > 0 then message.handled config index copy envelope replies result else none
  | .redrive index newId xdel => message.redrive config index newId xdel
  | .deleted index => some { message with dlq := message.dlq.set index none }

end Message

end Univiz.Insights
