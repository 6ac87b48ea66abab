import Univiz.Data.OrderedMap
import Univiz.Data.Texts
import Univiz.Insights.Streams

namespace Univiz.Insights

open Univiz.Data

/-! The envelopes of the insights jobs, as they travel through a stream. -/

abbrev Fields := OrderedMap String String

/-- How times are written to a stream and read from it. -/
structure IsoFormat (DateTime : Type) where
  isoformat : DateTime → String
  fromisoformat : String → Option DateTime
  inverse : ∀ time, fromisoformat (isoformat time) = some time

/-- Times that are their own texts. -/
def IsoFormat.plain : IsoFormat String := ⟨id, some, fun _ => rfl⟩

inductive JobEnvelope (DateTime : Type) where
  | stats (dataSourceId workspaceId : String) (enqueuedAt : DateTime) (attempt : Int)
  | discovery (providerId assetName : String) (enqueuedAt : DateTime) (attempt : Int)
  | purge (jobId dataSourceId workspaceId : String) (enqueuedAt : DateTime) (attempt : Int)

namespace JobEnvelope

variable {DateTime : Type} (iso : IsoFormat DateTime)

/-- Jobs of the other kinds are enqueued again by a scheduler. -/
def oneShot : JobEnvelope DateTime → Bool
  | .stats .. | .discovery .. => false
  | .purge .. => true

def toStreamFields : JobEnvelope DateTime → Fields
  | .stats dataSourceId workspaceId enqueuedAt attempt =>
      ⟨[("kind", "stats_poll"), ("data_source_id", dataSourceId), ("workspace_id", workspaceId),
        ("enqueued_at", iso.isoformat enqueuedAt), ("attempt", Decimal.print attempt)], by simp⟩
  | .discovery providerId assetName enqueuedAt attempt =>
      ⟨[("kind", "discovery"), ("provider_id", providerId), ("asset_name", assetName),
        ("enqueued_at", iso.isoformat enqueuedAt), ("attempt", Decimal.print attempt)], by simp⟩
  | .purge jobId dataSourceId workspaceId enqueuedAt attempt =>
      ⟨[("kind", "purge"), ("job_id", jobId), ("data_source_id", dataSourceId),
        ("workspace_id", workspaceId), ("enqueued_at", iso.isoformat enqueuedAt),
        ("attempt", Decimal.print attempt)], by simp⟩

/-- The two fields that all kinds have.  A missing or malformed one raises. -/
def readCommon (fields : Fields) : Option (DateTime × Int) := do
  let enqueuedAt ← iso.fromisoformat (← fields.get "enqueued_at")
  let attempt ← Decimal.parse ((fields.get "attempt").getD "1")
  return (enqueuedAt, attempt)

def statsFromStreamFields (fields : Fields) : Option (JobEnvelope DateTime) := do
  let dataSourceId ← fields.get "data_source_id"
  let workspaceId ← fields.get "workspace_id"
  let (enqueuedAt, attempt) ← readCommon iso fields
  return .stats dataSourceId workspaceId enqueuedAt attempt

def discoveryFromStreamFields (fields : Fields) : Option (JobEnvelope DateTime) := do
  let providerId ← fields.get "provider_id"
  let assetName := (fields.get "asset_name").getD ""
  let (enqueuedAt, attempt) ← readCommon iso fields
  return .discovery providerId assetName enqueuedAt attempt

def purgeFromStreamFields (fields : Fields) : Option (JobEnvelope DateTime) := do
  let jobId ← fields.get "job_id"
  let dataSourceId ← fields.get "data_source_id"
  let workspaceId ← fields.get "workspace_id"
  let (enqueuedAt, attempt) ← readCommon iso fields
  return .purge jobId dataSourceId workspaceId enqueuedAt attempt

def parseEnvelope (fields : Fields) : Option (JobEnvelope DateTime) :=
  match (fields.get "kind").getD "stats_poll" with
  | "stats_poll" => statsFromStreamFields iso fields
  | "discovery" => discoveryFromStreamFields iso fields
  | "purge" => purgeFromStreamFields iso fields
  | _ => none

variable {iso}

theorem parseEnvelope_toStreamFields (envelope : JobEnvelope DateTime) :
    parseEnvelope iso (envelope.toStreamFields iso) = some envelope := by
  have common (fields : Fields) {enqueuedAt : DateTime} {attempt : Int}
      (time : fields.get "enqueued_at" = some (iso.isoformat enqueuedAt))
      (count : fields.get "attempt" = some (Decimal.print attempt)) :
      readCommon iso fields = some (enqueuedAt, attempt) := by
    simp [readCommon, time, count, iso.inverse, Decimal.parse_print]
  cases envelope with
  | stats dataSourceId workspaceId enqueuedAt attempt =>
      have read := common ((stats dataSourceId workspaceId enqueuedAt attempt).toStreamFields iso)
        rfl rfl
      change statsFromStreamFields iso _ = _
      rw [statsFromStreamFields, read]
      rfl
  | discovery providerId assetName enqueuedAt attempt =>
      have read := common ((discovery providerId assetName enqueuedAt attempt).toStreamFields iso)
        rfl rfl
      change discoveryFromStreamFields iso _ = _
      rw [discoveryFromStreamFields, read]
      rfl
  | purge jobId dataSourceId workspaceId enqueuedAt attempt =>
      have read := common
        ((purge jobId dataSourceId workspaceId enqueuedAt attempt).toStreamFields iso) rfl rfl
      change purgeFromStreamFields iso _ = _
      rw [purgeFromStreamFields, read]
      rfl

end JobEnvelope

/-! What is written to the dead-letter queue and what is taken back from it. -/

/-- The payload of `send_to_dlq`. -/
def dlqPayload (config : StreamConfig) (msgId : String) (fields : Fields) (reason : String) :
    Fields :=
  let existingRedrive := (fields.get "redrive_count").getD "0"
  fields.overlay ⟨[("original_msg_id", msgId), ("original_stream", config.stream),
    ("kind", config.kind), ("reason", reason), ("redrive_count", existingRedrive)], by simp⟩

structure DLQEntry where
  msgId : String
  kind : String
  originalStream : String
  originalMsgId : String
  reason : String
  redriveCount : Int
  fields : Fields

def readRedriveCount (fields : Fields) : Int :=
  (Decimal.parse ((fields.get "redrive_count").getD "0")).getD 0

def parseDlqEntry (msgId : String) (fields : Fields) : DLQEntry where
  msgId := msgId
  kind := (fields.get "kind").getD ""
  originalStream := (fields.get "original_stream").getD ""
  originalMsgId := (fields.get "original_msg_id").getD ""
  reason := (fields.get "reason").getD ""
  redriveCount := readRedriveCount fields
  fields := fields

/-- Why a redrive is refused. -/
inductive RedriveRefusal where
  | entryNotFound
  | invalidOriginalStream (originalStream : String)
  | redriveLimitExceeded (redriveCount limit : Int)

/-- The checks of `redrive_dlq_entry` before it writes. -/
def redriveCheck (redriveLimit : Nat) (entry : Option DLQEntry) :
    Except RedriveRefusal DLQEntry :=
  match entry with
  | none => .error .entryNotFound
  | some entry =>
      if ¬ isKnownStream entry.originalStream then
        .error (.invalidOriginalStream entry.originalStream)
      else if entry.redriveCount ≥ redriveLimit then
        .error (.redriveLimitExceeded entry.redriveCount redriveLimit)
      else .ok entry

/-- The fields with which an entry goes back to its stream. -/
def DLQEntry.redriveFields (entry : DLQEntry) : Fields :=
  let kept := ["original_msg_id", "original_stream", "reason"].foldl OrderedMap.erase entry.fields
  kept.set "redrive_count" (Decimal.print (entry.redriveCount + 1))

variable {config : StreamConfig} {msgId reason : String} {fields : Fields}

theorem readRedriveCount_of_absent (absent : fields.get "redrive_count" = none) :
    readRedriveCount fields = 0 := by
  have zero : Decimal.parse "0" = some 0 := Decimal.parse_print 0
  rw [readRedriveCount, absent, Option.getD_none, zero]
  rfl

/-- An envelope does not carry the counter. -/
theorem readRedriveCount_toStreamFields {DateTime : Type} {iso : IsoFormat DateTime}
    (envelope : JobEnvelope DateTime) : readRedriveCount (envelope.toStreamFields iso) = 0 := by
  refine readRedriveCount_of_absent ?_
  cases envelope <;> rfl

theorem readRedriveCount_dlqPayload :
    readRedriveCount (dlqPayload config msgId fields reason) = readRedriveCount fields := by
  have carried : (dlqPayload config msgId fields reason).get "redrive_count" =
      some ((fields.get "redrive_count").getD "0") := by
    rw [dlqPayload, OrderedMap.get_overlay]
    rfl
  rw [readRedriveCount, carried]
  rfl

theorem readRedriveCount_redriveFields (entry : DLQEntry) :
    readRedriveCount entry.redriveFields = entry.redriveCount + 1 := by
  rw [readRedriveCount, DLQEntry.redriveFields, OrderedMap.get_set, if_pos rfl,
    Option.getD_some, Decimal.parse_print]
  rfl

theorem parseDlqEntry_redriveCount :
    (parseDlqEntry msgId fields).redriveCount = readRedriveCount fields := rfl

theorem redriveCheck_ok {redriveLimit : Nat} {found : Option DLQEntry} {entry : DLQEntry}
    (passed : redriveCheck redriveLimit found = .ok entry) :
    found = some entry ∧ entry.redriveCount < redriveLimit := by
  unfold redriveCheck at passed
  split at passed
  · cases passed
  · split at passed
    · cases passed
    · split at passed
      · cases passed
      · rename_i below
        cases passed
        exact ⟨rfl, Int.not_le.mp below⟩

end Univiz.Insights
