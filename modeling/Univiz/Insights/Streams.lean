import Mathlib.Data.List.Nodup
import Mathlib.Data.List.TakeWhile

namespace Univiz.Insights

/-! The jobs streams of the insights service. -/

/-- Identity of one Redis stream, its consumer group and its dedup namespace. -/
structure StreamConfig where
  kind : String
  stream : String
  group : String
  dedupPrefix : String
  deriving DecidableEq

def sharedGroup : String := "insights-workers"

def statsStream : StreamConfig :=
  ⟨"stats_poll", "insights.jobs.stats", sharedGroup, "insights:stats"⟩

def discoveryStream : StreamConfig :=
  ⟨"discovery", "insights.jobs.discovery", sharedGroup, "insights:discovery"⟩

def purgeStream : StreamConfig :=
  ⟨"purge", "insights.jobs.purge", sharedGroup, "insights:purge"⟩

def allStreams : List StreamConfig := [statsStream, discoveryStream, purgeStream]

def isKnownStream (streamName : String) : Bool :=
  allStreams.any fun config => config.stream = streamName

theorem nodup_allStreams : (allStreams.map StreamConfig.stream).Nodup := by decide

/-- The `<ms>-<seq>` of a stream entry. -/
structure MessageId where
  ms : Nat
  seq : Nat
  deriving DecidableEq

def MessageId.Before (one other : MessageId) : Prop :=
  one.ms < other.ms ∨ one.ms = other.ms ∧ one.seq < other.seq

instance (one other : MessageId) : Decidable (one.Before other) :=
  inferInstanceAs (Decidable (_ ∨ _))

/-- A stream with the state of its consumer group.  The pending list may have ids of
entries that are gone. -/
structure JobsStream where
  entries : List MessageId
  lastDelivered : MessageId
  pending : List MessageId
  ordered : entries.Pairwise MessageId.Before
  pendingOrdered : pending.Pairwise MessageId.Before

namespace JobsStream

def Undelivered (stream : JobsStream) (id : MessageId) : Prop := stream.lastDelivered.Before id

def Unacknowledged (stream : JobsStream) (id : MessageId) : Prop :=
  id ∈ stream.pending ∨ stream.Undelivered id

instance (stream : JobsStream) (id : MessageId) : Decidable (stream.Undelivered id) :=
  inferInstanceAs (Decidable (_ ∨ _))

/-- The count and the smallest id of XPENDING's summary. -/
def xpending (stream : JobsStream) : Nat × Option MessageId :=
  (stream.pending.length, stream.pending.head?)

/-- The entries that XTRIM MINID may remove. -/
def older (stream : JobsStream) (minid : MessageId) : List MessageId :=
  stream.entries.takeWhile fun id => id.Before minid

def newer (stream : JobsStream) (minid : MessageId) : List MessageId :=
  stream.entries.dropWhile fun id => id.Before minid

theorem older_append_newer (stream : JobsStream) (minid : MessageId) :
    stream.older minid ++ stream.newer minid = stream.entries :=
  List.takeWhile_append_dropWhile

/-- XTRIM MINID removes the oldest of the entries below the threshold.  An approximate trim
stops where it would have to free a part of a node, so `amount` is up to Redis. -/
def xtrim (stream : JobsStream) (minid : MessageId) (amount : Nat) : JobsStream where
  entries := (stream.older minid).drop amount ++ stream.newer minid
  lastDelivered := stream.lastDelivered
  pending := stream.pending
  ordered := by
    refine stream.ordered.sublist ?_
    have whole := stream.older_append_newer minid
    exact whole ▸ (List.drop_sublist _ _).append_right _
  pendingOrdered := stream.pendingOrdered

variable {stream : JobsStream} {minid id : MessageId} {amount : Nat}

/-- The entries are ordered, so the first that is not below the threshold ends those that
are. -/
theorem not_before_of_mem_newer (member : id ∈ stream.newer minid) : ¬ id.Before minid := by
  have ordered := stream.ordered
  rw [← stream.older_append_newer minid] at ordered
  obtain ⟨-, ordered, -⟩ := List.pairwise_append.mp ordered
  cases rest : stream.newer minid with
  | nil =>
      rw [rest] at member
      cases member
  | cons first later =>
      have stops : ¬ first.Before minid := by
        have head := List.head?_dropWhile_not (fun id => decide (id.Before minid)) stream.entries
        have found : stream.entries.dropWhile (fun id => decide (id.Before minid)) =
            first :: later := rest
        rw [found] at head
        simpa using head
      rw [rest] at member ordered
      rcases List.mem_cons.mp member with rfl | member
      · exact stops
      · have after := (List.pairwise_cons.mp ordered).1 id member
        unfold MessageId.Before at after stops ⊢
        omega

theorem mem_xtrim (member : id ∈ stream.entries) (kept : ¬ id.Before minid) :
    id ∈ (stream.xtrim minid amount).entries := by
  rw [← stream.older_append_newer minid] at member
  refine List.mem_append_right _ ((List.mem_append.mp member).resolve_left ?_)
  intro old
  have below := List.mem_takeWhile_imp (p := fun id : MessageId => decide (id.Before minid)) old
  exact kept (of_decide_eq_true below)

/-- A trim that is not stopped early removes all that is below the threshold. -/
theorem notMem_xtrim (below : id.Before minid) :
    id ∉ (stream.xtrim minid stream.entries.length).entries := by
  intro member
  have short : (stream.older minid).length ≤ stream.entries.length := by
    rw [← stream.older_append_newer minid, List.length_append]
    exact Nat.le_add_right _ _
  have left : id ∈ stream.newer minid := by
    simpa [xtrim, List.drop_of_length_le short] using member
  exact not_before_of_mem_newer left below

end JobsStream

end Univiz.Insights
