import Mathlib.Logic.Function.Basic

namespace Univiz.Jobs

/-! The events of the job platform, and the emitter that numbers them. -/

inductive JobEventType where
  | state
  | phase
  | progress
  | terminal
  | resync
deriving DecidableEq, Repr

structure JobEvent (π : Type) where
  type : JobEventType
  jobId : String
  sequence : Nat
  payload : π
deriving DecidableEq, Repr

/-- The counters of an emitter, one for each job that it knows. -/
structure JobEmitter where
  sequences : String → Option Nat

namespace JobEmitter

variable {π : Type} (emitter : JobEmitter) (jobId : String)

def empty : JobEmitter := ⟨fun _ => none⟩

def seedSequence (lastSequence : Nat) : JobEmitter :=
  ⟨Function.update emitter.sequences jobId (some lastSequence)⟩

def currentSequence : Nat := (emitter.sequences jobId).getD 0

/-- The counter moves on before the broker is asked, which may refuse the event. -/
def publish (type : JobEventType) (payload : π) : JobEmitter × JobEvent π :=
  let sequence := emitter.currentSequence jobId + 1
  (emitter.seedSequence jobId sequence, ⟨type, jobId, sequence, payload⟩)

/-- The last event of a job, after which its counter is forgotten. -/
def terminal (payload : π) : JobEmitter × JobEvent π :=
  let sent := emitter.publish jobId .terminal payload
  (⟨Function.update sent.1.sequences jobId none⟩, sent.2)

@[simp] theorem sequences_seedSequence (lastSequence : Nat) :
    (emitter.seedSequence jobId lastSequence).sequences jobId = some lastSequence := by
  simp [seedSequence]

@[simp] theorem currentSequence_seedSequence (lastSequence : Nat) :
    (emitter.seedSequence jobId lastSequence).currentSequence jobId = lastSequence := by
  simp [currentSequence]

@[simp] theorem sequences_publish (type : JobEventType) (payload : π) :
    (emitter.publish jobId type payload).1.sequences jobId =
      some (emitter.currentSequence jobId + 1) := by
  simp [publish]

@[simp] theorem sequence_publish (type : JobEventType) (payload : π) :
    (emitter.publish jobId type payload).2.sequence = emitter.currentSequence jobId + 1 := rfl

@[simp] theorem sequences_terminal (payload : π) :
    (emitter.terminal jobId payload).1.sequences jobId = none := by
  simp [terminal]

@[simp] theorem event_terminal (payload : π) :
    (emitter.terminal jobId payload).2 =
      ⟨.terminal, jobId, emitter.currentSequence jobId + 1, payload⟩ := rfl

end JobEmitter

end Univiz.Jobs
