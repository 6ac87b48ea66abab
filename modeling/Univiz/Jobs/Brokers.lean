import Univiz.Jobs.InMemory
import Univiz.Jobs.RedisStreams

namespace Univiz.Jobs

open Univiz.Data

/-! The two brokers side by side. -/

variable {π : Type}

/-- Subscribers of both brokers see what the contract says in every run whose events
are all allowed, and they come to the end of what there is. -/
theorem brokers_conform (fromSequence : Option Int) (maxLen : Nat) (log : JobLog π) :
    (∀ events last,
      Meets (InMemory.step fromSequence) (InMemory.Allowed fromSequence) (InMemory.start log)
        events → run (InMemory.step fromSequence) (InMemory.start log) events = some last →
          last.Conforms fromSequence (InMemory.raised last) (InMemory.waiting last) ∧
            ∃ count, InMemory.Settled ((InMemory.poll fromSequence)^[count] last)) ∧
    ∀ events last,
      Meets (RedisStreams.step maxLen fromSequence) (RedisStreams.Allowed fromSequence)
        (RedisStreams.start log) events →
          run (RedisStreams.step maxLen fromSequence) (RedisStreams.start log) events =
            some last →
          last.Conforms fromSequence (RedisStreams.raised last) (RedisStreams.waiting last) ∧
            ∃ count, RedisStreams.Settled ((RedisStreams.poll fromSequence)^[count] last) := by
  constructor
  · intro events last meets ran
    exact ⟨InMemory.stream_conforms meets ran, InMemory.polls_settle fromSequence last⟩
  · intro events last meets ran
    exact ⟨RedisStreams.stream_conforms meets ran, RedisStreams.polls_settle fromSequence last⟩

def plainEvent (sequence : Nat) : JobEvent Unit := ⟨.progress, "job", sequence, ()⟩

def trimmedLog : JobLog Unit where
  trimmed := [plainEvent 1]
  retained := [plainEvent 2, plainEvent 3]
  increasing := by decide

/-- A subscriber from the second event on, with a fourth event during its replay. -/
def inMemoryReplay : List (InMemory.Event Unit) :=
  [.poll, .publish (plainEvent 4), .poll, .poll, .poll]

def redisReplay : List (RedisStreams.Event Unit) :=
  [.poll, .poll, .publish (plainEvent 4) 0, .poll, .poll, .poll, .poll]

theorem brokers_conform_replay :
    (∃ last, run (InMemory.step (some 2)) (InMemory.start trimmedLog) inMemoryReplay = some last ∧
      last.yielded.map JobEvent.sequence = [2, 3, 4] ∧
      last.Conforms (some 2) (InMemory.raised last) (InMemory.waiting last)) ∧
    ∃ last, run (RedisStreams.step 200 (some 2)) (RedisStreams.start trimmedLog) redisReplay =
        some last ∧
      last.yielded.map JobEvent.sequence = [2, 3, 4] ∧
      last.Conforms (some 2) (RedisStreams.raised last) (RedisStreams.waiting last) := by
  obtain ⟨inMemory, redis⟩ := brokers_conform (some 2) 200 trimmedLog
  constructor
  · obtain ⟨last, ran, yielded⟩ := Option.map_eq_some_iff.mp
      (show (run (InMemory.step (some 2)) (InMemory.start trimmedLog) inMemoryReplay).map
        (fun last => last.yielded.map JobEvent.sequence) = some [2, 3, 4] by decide)
    exact ⟨last, ran, yielded, (inMemory inMemoryReplay last (by decide) ran).1⟩
  · obtain ⟨last, ran, yielded⟩ := Option.map_eq_some_iff.mp
      (show (run (RedisStreams.step 200 (some 2)) (RedisStreams.start trimmedLog) redisReplay).map
        (fun last => last.yielded.map JobEvent.sequence) = some [2, 3, 4] by decide)
    exact ⟨last, ran, yielded, (redis redisReplay last (by decide) ran).1⟩

/-- The first accepted event has a larger sequence than 1. -/
def lateLog : JobLog Unit := ⟨[], [plainEvent 3], by decide⟩

/-- The first two events have been trimmed. -/
def shortLog : JobLog Unit := ⟨[plainEvent 1, plainEvent 2], [plainEvent 3], by decide⟩

/-- The in-memory broker refuses a subscriber from sequence 1 on, though nothing has been
trimmed.  The Redis broker does not refuse it where an event has been trimmed, and it
shows old events to those who ask for none, or for later ones. -/
theorem brokers_not_conform :
    (¬ ∀ last, run (InMemory.step (some 1)) (InMemory.start lateLog) [.poll] = some last →
      last.Conforms (some 1) (InMemory.raised last) (InMemory.waiting last)) ∧
    (¬ ∀ last, run (RedisStreams.step 200 (some 1)) (RedisStreams.start shortLog)
        (List.replicate 4 .poll) = some last →
      last.Conforms (some 1) (RedisStreams.raised last) (RedisStreams.waiting last)) ∧
    (¬ ∀ last, run (RedisStreams.step 200 none) (RedisStreams.start shortLog)
        (List.replicate 3 .poll) = some last →
      last.Conforms none (RedisStreams.raised last) (RedisStreams.waiting last)) ∧
    ¬ ∀ last, run (RedisStreams.step 200 (some 4)) (RedisStreams.start shortLog)
        (List.replicate 5 .poll) = some last →
      last.Conforms (some 4) (RedisStreams.raised last) (RedisStreams.waiting last) := by
  refine ⟨?_, ?_, ?_, ?_⟩
  · intro always
    have truncated := ((always _ rfl).raises _ rfl).mp rfl
    revert truncated
    decide
  · intro always
    have refused := ((always _ rfl).raises _ rfl).mpr (by decide)
    cases refused
  · intro always
    have seen := (always _ rfl).yields _ rfl rfl
    revert seen
    decide
  · intro always
    have seen := (always _ rfl).yields _ rfl rfl
    revert seen
    decide

end Univiz.Jobs
