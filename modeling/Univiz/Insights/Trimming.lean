import Mathlib.Logic.Function.Basic
import Univiz.Data.OrderedMap
import Univiz.Insights.Streams

namespace Univiz.Insights

open Univiz.Data

/-! The periodic trim of the jobs streams by age. -/

structure TrimResult where
  stream : String
  trimmed : Nat
  skipped : Bool
  reason : Option String
  deriving DecidableEq

/-- What Redis does with the two commands for a stream.  A command fails with a text; an
XTRIM that fails may have removed entries before its reply was lost. -/
structure TrimReplies where
  xpendingError : Option String
  xtrimError : Option String
  amount : Nat

def cutoffMs (nowMs cutoffAgeMs : Int) : Int := max 0 (nowMs - cutoffAgeMs)

/-- One round of the loop over the streams. -/
def trimStream (nowMs cutoffAgeMs : Int) (config : StreamConfig) (replies : TrimReplies)
    (stream : JobsStream) : JobsStream × TrimResult :=
  match replies.xpendingError with
  | some error => (stream, ⟨config.stream, 0, true, some ("error: " ++ error)⟩)
  | none =>
      let cutoff := cutoffMs nowMs cutoffAgeMs
      let (pendingCount, minId) := stream.xpending
      match minId.filter fun id => pendingCount > 0 ∧ (id.ms : Int) < cutoff with
      | some id =>
          let reason := "oldest_pending_age_ms=" ++ toString (nowMs - id.ms)
          (stream, ⟨config.stream, 0, true, some reason⟩)
      | none =>
          let trimmed := stream.xtrim ⟨cutoff.toNat, 0⟩ replies.amount
          match replies.xtrimError with
          | some error => (trimmed, ⟨config.stream, 0, true, some ("error: " ++ error)⟩)
          | none =>
              let count := stream.entries.length - trimmed.entries.length
              (trimmed, ⟨config.stream, count, false, none⟩)

abbrev Redis := String → JobsStream

def trimRound (nowMs cutoffAgeMs : Int) (replies : String → TrimReplies)
    (state : Redis × OrderedMap String TrimResult) (config : StreamConfig) :
    Redis × OrderedMap String TrimResult :=
  let (redis, out) := state
  let (stream, result) :=
    trimStream nowMs cutoffAgeMs config (replies config.stream) (redis config.stream)
  (Function.update redis config.stream stream, out.set config.stream result)

def trimStreamsByMinid (nowMs cutoffAgeMs : Int) (replies : String → TrimReplies)
    (redis : Redis) : Redis × OrderedMap String TrimResult :=
  allStreams.foldl (trimRound nowMs cutoffAgeMs replies) (redis, .empty)

/-- The trim of a stream keeps what has not been acknowledged. -/
def Kept (before after : JobsStream) : Prop :=
  ∀ id ∈ before.entries, before.Unacknowledged id → id ∈ after.entries

/-- The pending entry for which the trim of a stream is skipped. -/
def Guarded (cutoff : Int) (stream : JobsStream) : Prop :=
  ∃ id ∈ stream.pending, (id.ms : Int) < cutoff

variable {nowMs cutoffAgeMs cutoff : Int} {config : StreamConfig} {replies : TrimReplies}
  {stream : JobsStream} {id : MessageId}

theorem before_cutoff (id : MessageId) (nonnegative : 0 ≤ cutoff) :
    id.Before ⟨cutoff.toNat, 0⟩ ↔ (id.ms : Int) < cutoff := by
  simp only [MessageId.Before]
  omega

theorem cutoffMs_nonneg (nowMs cutoffAgeMs : Int) : 0 ≤ cutoffMs nowMs cutoffAgeMs :=
  Int.le_max_left _ _

/-- The smallest pending id stands for all of them. -/
theorem guard_isSome : (stream.xpending.2.filter fun id =>
    stream.xpending.1 > 0 ∧ (id.ms : Int) < cutoff).isSome = true ↔ Guarded cutoff stream := by
  have ordered := stream.pendingOrdered
  unfold JobsStream.xpending Guarded
  cases pending : stream.pending with
  | nil => simp
  | cons first rest =>
      rw [pending] at ordered
      have least : (∃ id ∈ first :: rest, (id.ms : Int) < cutoff) ↔ (first.ms : Int) < cutoff := by
        refine ⟨?_, fun low => ⟨first, List.mem_cons_self, low⟩⟩
        intro ⟨id, member, low⟩
        rcases List.mem_cons.mp member with rfl | member
        · exact low
        · have after := (List.pairwise_cons.mp ordered).1 id member
          simp only [MessageId.Before] at after
          omega
      rw [least]
      simp [Option.filter]

theorem trimStream_of_guarded (guarded : Guarded (cutoffMs nowMs cutoffAgeMs) stream) :
    (trimStream nowMs cutoffAgeMs config replies stream).1 = stream := by
  obtain ⟨id, found⟩ := Option.isSome_iff_exists.mp (guard_isSome.mpr guarded)
  simp only [trimStream]
  cases replies.xpendingError with
  | some error => rfl
  | none =>
      dsimp only
      rw [found]

theorem trimStream_of_unguarded (unguarded : ¬ Guarded (cutoffMs nowMs cutoffAgeMs) stream)
    (answered : replies.xpendingError = none) :
    (trimStream nowMs cutoffAgeMs config replies stream).1 =
      stream.xtrim ⟨(cutoffMs nowMs cutoffAgeMs).toNat, 0⟩ replies.amount := by
  have passed := Option.not_isSome_iff_eq_none.mp (mt guard_isSome.mp unguarded)
  simp only [trimStream]
  rw [answered]
  dsimp only
  rw [passed]
  cases replies.xtrimError <;> rfl

/-- A stream that is not skipped loses what is older than the cutoff. -/
theorem trimStream_kept (nowMs cutoffAgeMs : Int) (config : StreamConfig) : (∀ replies, Kept stream
      (trimStream nowMs cutoffAgeMs config replies stream).1) ↔
    Guarded (cutoffMs nowMs cutoffAgeMs) stream ∨ ∀ id ∈ stream.entries,
      stream.Undelivered id → cutoffMs nowMs cutoffAgeMs ≤ id.ms := by
  have exact (id : MessageId) := before_cutoff id (cutoffMs_nonneg nowMs cutoffAgeMs)
  refine ⟨?_, ?_⟩
  · intro kept
    by_cases guarded : Guarded (cutoffMs nowMs cutoffAgeMs) stream
    · exact .inl guarded
    · refine .inr ?_
      intro id member undelivered
      rw [← Int.not_lt]
      intro old
      have left := kept ⟨none, none, stream.entries.length⟩ id member (.inr undelivered)
      rw [trimStream_of_unguarded guarded rfl] at left
      exact JobsStream.notMem_xtrim ((exact id).mpr old) left
  · intro safe replies id member unacknowledged
    by_cases guarded : Guarded (cutoffMs nowMs cutoffAgeMs) stream
    · rw [trimStream_of_guarded guarded]
      exact member
    · cases answered : replies.xpendingError with
      | some error =>
          simp only [trimStream]
          rw [answered]
          exact member
      | none =>
          rw [trimStream_of_unguarded guarded answered]
          refine JobsStream.mem_xtrim member (mt (exact id).mp ?_)
          rcases unacknowledged with pending | undelivered
          · exact fun old => guarded ⟨id, pending, old⟩
          · exact Int.not_lt.mpr (safe.resolve_left guarded id member undelivered)

variable {allReplies : String → TrimReplies} {configs : List StreamConfig}
  {state : Redis × OrderedMap String TrimResult}

theorem trimRound_self :
    (trimRound nowMs cutoffAgeMs allReplies state config).1 config.stream =
      (trimStream nowMs cutoffAgeMs config (allReplies config.stream)
        (state.1 config.stream)).1 :=
  Function.update_self _ _ _

theorem trimRound_of_ne {name : String} (apart : name ≠ config.stream) :
    (trimRound nowMs cutoffAgeMs allReplies state config).1 name = state.1 name :=
  Function.update_of_ne apart _ _

theorem foldl_trimRound_of_notMem {name : String}
    (absent : name ∉ configs.map StreamConfig.stream) :
    (configs.foldl (trimRound nowMs cutoffAgeMs allReplies) state).1 name = state.1 name := by
  induction configs generalizing state with
  | nil => rfl
  | cons first rest ih =>
      rw [List.map_cons, List.mem_cons, not_or] at absent
      rw [List.foldl_cons, ih absent.2, trimRound_of_ne absent.1]

theorem foldl_trimRound (distinct : (configs.map StreamConfig.stream).Nodup)
    (member : config ∈ configs) :
    (configs.foldl (trimRound nowMs cutoffAgeMs allReplies) state).1 config.stream =
      (trimStream nowMs cutoffAgeMs config (allReplies config.stream)
        (state.1 config.stream)).1 := by
  induction configs generalizing state with
  | nil => cases member
  | cons first rest ih =>
      obtain ⟨fresh, distinct⟩ := List.nodup_cons.mp distinct
      rw [List.foldl_cons]
      rcases List.mem_cons.mp member with rfl | member
      · rw [foldl_trimRound_of_notMem fresh, trimRound_self]
      · have apart : config.stream ≠ first.stream :=
          fun same => fresh (same ▸ List.mem_map_of_mem member)
        rw [ih distinct member, trimRound_of_ne apart]

/-- The trim keeps what has not been acknowledged exactly where a pending entry stops it or
everything below the cutoff has been delivered. -/
theorem trimStreamsByMinid_kept_iff (nowMs cutoffAgeMs : Int) (redis : Redis) :
    (∀ replies, ∀ config ∈ allStreams, Kept (redis config.stream)
        ((trimStreamsByMinid nowMs cutoffAgeMs replies redis).1 config.stream)) ↔
      ∀ config ∈ allStreams, Guarded (cutoffMs nowMs cutoffAgeMs) (redis config.stream) ∨
        ∀ id ∈ (redis config.stream).entries, (redis config.stream).Undelivered id →
          cutoffMs nowMs cutoffAgeMs ≤ id.ms := by
  simp only [trimStreamsByMinid]
  refine ⟨?_, ?_⟩
  · intro kept config member
    refine (trimStream_kept nowMs cutoffAgeMs config).mp ?_
    intro replies
    have here := kept (fun _ => replies) config member
    rwa [foldl_trimRound nodup_allStreams member] at here
  · intro safe replies config member
    rw [foldl_trimRound nodup_allStreams member]
    exact (trimStream_kept nowMs cutoffAgeMs config).mpr (safe config member) _

/-- A stream with one entry, which no consumer has read yet. -/
def backlog : JobsStream where
  entries := [⟨1000, 0⟩]
  lastDelivered := ⟨0, 0⟩
  pending := []
  ordered := List.pairwise_singleton _ _
  pendingOrdered := List.Pairwise.nil

/-- An hour later, with a cutoff of two minutes. -/
theorem backlog_trimmed : ¬ ∀ replies, ∀ config ∈ allStreams, Kept backlog
    ((trimStreamsByMinid 3601000 120000 replies fun _ => backlog).1 config.stream) := by
  intro kept
  have here := kept (fun _ => ⟨none, none, 1⟩) statsStream List.mem_cons_self
  have left := here ⟨1000, 0⟩ List.mem_cons_self (.inr (by decide))
  revert left
  decide +kernel

end Univiz.Insights
