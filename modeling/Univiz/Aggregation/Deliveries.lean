import Univiz.Aggregation.Consumers

namespace Univiz.Aggregation.Consumers

open Univiz.Data

/-! What becomes of the messages of the stream. -/

def Entry.waits (entry : Entry) : Bool := ! entry.acknowledged && ! entry.trimmed

namespace ConsumerGroup

variable (config : ConsumerConfig) (group : ConsumerGroup)

def jobOf (msgId : Nat) : Option String := group.stream[msgId]?.map Entry.jobId

/-- The message is in the stream, and has not been delivered or is in the pending list. -/
def waits (msgId : Nat) : Bool := group.stream[msgId]?.any Entry.waits

/-- A run of the job that began after the message was dispatched has ended, or the message is in
the dead-letter queue. -/
def Handled (msgId : Nat) (jobId : String) : Prop :=
  jobId = "" ∨ msgId ∈ group.deadLetters ∨ ∃ run ∈ group.runs, run.jobId = jobId ∧ msgId < run.seen

/-- No message is lost. -/
def Accounted : Prop :=
  ∀ msgId jobId, group.jobOf msgId = some jobId →
    group.waits msgId = true ∨ group.Handled msgId jobId

/-- The message that a process skips, as it has a task for the job. -/
def skipped (index : Nat) : List Nat :=
  (group.consumers[index]?.bind fun consumer =>
    match consumer.loop with
    | .handling (msgId :: _) =>
        if (group.jobOf msgId).any (fun jobId =>
          jobId ≠ "" && (consumer.activeTasks.get jobId).isSome) = true then some msgId else none
    | _ => none).toList

/-- The messages that an event takes out of the stream or out of the pending list, although they
are not handled. -/
def dropped : GroupEvent → List Nat
  | .dispatch _ trimmed => oldest group.stream trimmed
  | .consumer index (.handles true) => group.skipped index
  | _ => []

/-- What the event drops has been handled before. -/
def Spares (event : GroupEvent) : Prop :=
  (group.step config event).isSome = true →
    ∀ msgId ∈ group.dropped event, ∀ jobId, group.jobOf msgId = some jobId →
      group.Handled msgId jobId

end ConsumerGroup

namespace ConsumerGroup

variable {group next : ConsumerGroup} {effect : Effect} {effects : List Effect} {msgId : Nat}
  {msgIds : List Nat} {jobId : String} {run : Run}

theorem getElem?_deliver : (group.deliver msgIds)[msgId]? = group.stream[msgId]?.map fun entry =>
    if msgId ∈ msgIds then entry.deliver group.now else entry :=
  List.getElem?_mapIdx

theorem jobOf_apply : (group.apply effect).jobOf msgId = group.jobOf msgId := by
  cases effect with
  | delivered other =>
      simp only [jobOf, apply, getElem?_deliver, Option.map_map]
      congr 1
      funext entry
      simp only [Function.comp_apply]
      split <;> rfl
  | acked other =>
      simp only [jobOf, apply, List.getElem?_modify, Option.map_eq_map, Option.map_map]
      congr 1
      funext entry
      simp only [Function.comp_apply]
      split <;> rfl
  | dead _ => rfl
  | ran _ => rfl

theorem jobOf_foldl :
    (effects.foldl apply group).jobOf msgId = group.jobOf msgId := by
  induction effects generalizing group with
  | nil => rfl
  | cons effect rest ih => exact ih.trans jobOf_apply

theorem waits_apply : (group.apply effect).waits msgId = true ↔
    group.waits msgId = true ∧ effect ≠ .acked msgId := by
  cases effect with
  | delivered other =>
      simp only [waits, apply, getElem?_deliver, Option.any_map, ne_eq, reduceCtorEq,
        not_false_eq_true, and_true]
      cases group.stream[msgId]? with
      | none => rfl
      | some entry =>
          simp only [Option.any_some]
          split <;> rfl
  | acked other =>
      simp only [waits, apply, List.getElem?_modify, Option.map_eq_map]
      by_cases here : other = msgId
      · subst here
        cases group.stream[other]? <;> simp [Entry.ack, Entry.waits]
      · cases group.stream[msgId]? <;> simp [here]
  | dead _ => simp [waits, apply]
  | ran _ => simp [waits, apply]

theorem waits_foldl : (effects.foldl apply group).waits msgId = true ↔
    group.waits msgId = true ∧ .acked msgId ∉ effects := by
  induction effects generalizing group with
  | nil => simp
  | cons effect rest ih =>
      rw [List.foldl_cons, ih, waits_apply, List.mem_cons, not_or, and_assoc]
      exact and_congr_right fun _ => and_congr_left fun _ => ne_comm

theorem mem_deadLetters_foldl : msgId ∈ (effects.foldl apply group).deadLetters ↔
    msgId ∈ group.deadLetters ∨ .dead msgId ∈ effects := by
  induction effects generalizing group with
  | nil => simp
  | cons effect rest ih =>
      rw [List.foldl_cons, ih, List.mem_cons]
      cases effect <;> simp [apply, or_assoc]

theorem mem_runs_foldl : run ∈ (effects.foldl apply group).runs ↔
    run ∈ group.runs ∨ .ran run ∈ effects := by
  induction effects generalizing group with
  | nil => simp
  | cons effect rest ih =>
      rw [List.foldl_cons, ih, List.mem_cons]
      cases effect <;> simp [apply, or_assoc]

theorem consumers_foldl : (effects.foldl apply group).consumers = group.consumers := by
  induction effects generalizing group with
  | nil => rfl
  | cons effect rest ih => exact ih.trans (by cases effect <;> rfl)

end ConsumerGroup

/-- A task acknowledges a message of its own job, and only after a run that has begun later. -/
def Task.Tracked (group : ConsumerGroup) (task : Task) : Prop :=
  match task.phase with
  | .running (some msgId) _ seen => group.jobOf msgId = some task.jobId ∧ msgId < seen
  | .acking msgId _ => group.jobOf msgId = some task.jobId ∧
      ∃ run ∈ group.runs, run.jobId = task.jobId ∧ msgId < run.seen
  | .running none _ _ | .lookingUp | .waiting _ | .done => True

structure JobConsumer.Tracked (group : ConsumerGroup) (consumer : JobConsumer) : Prop where
  messages : ∀ jobId msgId, consumer.messageIds.get jobId = some msgId →
    group.jobOf msgId = some jobId
  tasks : ∀ task ∈ consumer.tasks, task.Tracked group

section Tracked

variable {config : ConsumerConfig} {group next : ConsumerGroup} {consumer : JobConsumer}
  {task : Task} {index msgId : Nat} {jobId : String} {graphKey : Option String} {phase : Phase}
  {effects : List Effect}

theorem ConsumerGroup.lt_length (known : group.jobOf msgId = some jobId) :
    msgId < group.stream.length := by
  obtain ⟨entry, found, -⟩ := Option.map_eq_some_iff.mp known
  exact (List.getElem?_eq_some_iff.mp found).1

theorem Task.Tracked.grow (tracked : task.Tracked group)
    (jobs : ∀ msgId jobId, group.jobOf msgId = some jobId → next.jobOf msgId = some jobId)
    (runs : group.runs ⊆ next.runs) : task.Tracked next := by
  rw [Task.Tracked] at *
  split at tracked
  · exact ⟨jobs _ _ tracked.1, tracked.2⟩
  · obtain ⟨known, run, ended, ran⟩ := tracked
    exact ⟨jobs _ _ known, run, runs ended, ran⟩
  all_goals trivial

namespace JobConsumer.Tracked

open ConsumerGroup

theorem grow (tracked : consumer.Tracked group)
    (jobs : ∀ msgId jobId, group.jobOf msgId = some jobId → next.jobOf msgId = some jobId)
    (runs : group.runs ⊆ next.runs) : consumer.Tracked next where
  messages jobId msgId found := jobs _ _ (tracked.messages jobId msgId found)
  tasks task member := (tracked.tasks task member).grow jobs runs

theorem create (loop : Loop) : (JobConsumer.create loop).Tracked group where
  messages _ _ found := by cases found
  tasks _ member := by cases member

theorem spawn (tracked : consumer.Tracked group) (known : group.jobOf msgId = some jobId) :
    (consumer.spawn jobId msgId).Tracked group where
  messages other otherId found := by
    rw [JobConsumer.spawn, OrderedMap.get_set] at found
    split at found
    · rename_i here
      cases found
      exact here ▸ known
    · exact tracked.messages other otherId found
  tasks task member := by
    rcases List.mem_append.mp member with old | new
    · exact tracked.tasks task old
    · cases List.mem_singleton.mp new
      trivial

theorem reapDoneTasks (tracked : consumer.Tracked group) :
    consumer.reapDoneTasks.Tracked group where
  messages jobId msgId found := by
    rw [JobConsumer.reapDoneTasks, OrderedMap.get_restrict] at found
    split at found
    · exact tracked.messages jobId msgId found
    · cases found
  tasks := tracked.tasks

theorem put (tracked : consumer.Tracked group)
    (moved : Task.Tracked group { task with phase := phase }) :
    (consumer.put index task phase).Tracked group where
  messages := tracked.messages
  tasks other member := by
    rcases List.mem_or_eq_of_mem_set member with old | rfl
    · exact tracked.tasks other old
    · exact moved

theorem executeJob (tracked : consumer.Tracked group) :
    (consumer.executeJob index task graphKey group.stream.length).Tracked group := by
  refine tracked.put ?_
  rw [Task.Tracked]
  cases found : consumer.messageIds.get task.jobId with
  | none => trivial
  | some msgId =>
      have known := tracked.messages task.jobId msgId found
      exact ⟨known, ConsumerGroup.lt_length known⟩

theorem finish (tracked : consumer.Tracked group) :
    (consumer.finish config index task).Tracked group := by
  have put : (consumer.put index task .done).Tracked group := tracked.put trivial
  rw [JobConsumer.finish]
  split
  · exact put
  · exact ⟨put.messages, put.tasks⟩

theorem withLoop (tracked : consumer.Tracked group) (loop : Loop) :
    JobConsumer.Tracked group { consumer with loop := loop } :=
  ⟨tracked.messages, tracked.tasks⟩

theorem withSemaphores (tracked : consumer.Tracked group) (semaphores : OrderedMap String Nat) :
    JobConsumer.Tracked group { consumer with graphSemaphores := semaphores } :=
  ⟨tracked.messages, tracked.tasks⟩

theorem recoverPending {entry : Entry} {rest : List Nat} {counted sent acked : Bool}
    (tracked : consumer.Tracked group) (known : group.jobOf msgId = some entry.jobId) :
    (consumer.recoverPending msgId entry rest counted sent acked).1.Tracked group := by
  rw [JobConsumer.recoverPending]
  split
  · exact tracked.withLoop _
  · split
    · split
      · exact tracked.withLoop _
      · exact tracked.withLoop _
    · exact (tracked.spawn known).withLoop _

theorem handle {entry : Entry} {rest : List Nat} {acked : Bool}
    (tracked : consumer.Tracked group) (known : group.jobOf msgId = some entry.jobId) :
    (consumer.handle msgId entry rest acked).1.Tracked group := by
  rw [JobConsumer.handle]
  split
  · exact tracked.withLoop _
  · split
    · exact tracked.withLoop _
    · exact (tracked.spawn known).withLoop _

theorem poll (tracked : consumer.Tracked group) : (consumer.poll config).Tracked group := by
  rw [JobConsumer.poll]
  split
  · exact tracked.withLoop _
  · exact tracked.reapDoneTasks.withLoop _

theorem advance {event : TaskEvent} {after : JobConsumer} (tracked : consumer.Tracked group)
    (found : consumer.tasks[index]? = some task)
    (advanced : consumer.advance config group.stream.length index task event =
      some (after, effects)) :
    after.Tracked (effects.foldl ConsumerGroup.apply group) := by
  cases event with
  | looksUp graphKey =>
      cases graphKey with
      | none =>
          simp only [JobConsumer.advance] at advanced
          split at advanced
          · cases advanced
            exact tracked.executeJob
          · cases advanced
      | some graphKey =>
          simp only [JobConsumer.advance] at advanced
          split at advanced
          · cases advanced
            have moved : Task.Tracked group { task with phase := .waiting graphKey } := trivial
            exact (tracked.put moved).withSemaphores _
          · cases advanced
  | acquires =>
      simp only [JobConsumer.advance] at advanced
      split at advanced
      · split at advanced
        · cases advanced
        · cases advanced
          exact tracked.executeJob.withSemaphores _
      · cases advanced
  | returns =>
      simp only [JobConsumer.advance] at advanced
      have own := tracked.tasks task (List.mem_of_getElem? found)
      rw [Task.Tracked] at own
      have grown (run : Run) : consumer.Tracked (group.apply (.ran run)) :=
        tracked.grow (fun _ _ known => jobOf_apply.trans known) (List.subset_append_left _ _)
      split at advanced
      · rename_i ran
        rw [ran] at own
        cases advanced
        refine (grown _).put ?_
        exact ⟨own.1, _, List.mem_append_right _ (List.mem_singleton_self _), rfl, own.2⟩
      · cases advanced
        exact (grown _).finish
      · cases advanced
  | acknowledges acked =>
      simp only [JobConsumer.advance] at advanced
      split at advanced
      · cases advanced
        refine tracked.finish.grow (fun _ _ known => jobOf_foldl.trans known) ?_
        intro run ended
        exact mem_runs_foldl.mpr (.inl ended)
      · cases advanced
  | cancels =>
      simp only [JobConsumer.advance] at advanced
      split at advanced
      · cases advanced
        exact tracked.finish
      · cases advanced

theorem step {event : ConsumerEvent} {after : JobConsumer} (tracked : consumer.Tracked group)
    (stepped : consumer.step config group.stream event = some (after, effects)) :
    after.Tracked (effects.foldl ConsumerGroup.apply group) := by
  have kept {after : JobConsumer} (tracked : after.Tracked group) :
      after.Tracked (effects.foldl ConsumerGroup.apply group) :=
    tracked.grow (fun _ _ known => jobOf_foldl.trans known)
      (fun run ended => mem_runs_foldl.mpr (.inl ended))
  cases event with
  | recovers counted sent acked =>
      simp only [JobConsumer.step] at stepped
      split at stepped
      · obtain ⟨entry, found, same⟩ := Option.map_eq_some_iff.mp stepped
        obtain rfl : _ = after := congrArg Prod.fst same
        exact kept (tracked.recoverPending (Option.map_eq_some_iff.mpr ⟨entry, found, rfl⟩))
      · cases stepped
  | polls =>
      simp only [JobConsumer.step] at stepped
      split at stepped
      · cases stepped
        exact tracked.poll
      · cases stepped
  | receives count answered =>
      simp only [JobConsumer.step] at stepped
      split at stepped
      · split at stepped
        · cases stepped
          exact kept (tracked.withLoop _)
        · cases stepped
      · cases stepped
  | handles acked =>
      simp only [JobConsumer.step] at stepped
      split at stepped
      · obtain ⟨entry, found, same⟩ := Option.map_eq_some_iff.mp stepped
        obtain rfl : _ = after := congrArg Prod.fst same
        exact kept (tracked.handle (Option.map_eq_some_iff.mpr ⟨entry, found, rfl⟩))
      · cases stepped
  | continues index event =>
      obtain ⟨task, found, advanced⟩ := Option.bind_eq_some_iff.mp stepped
      exact tracked.advance found advanced
  | requestShutdown | dies =>
      cases stepped
      exact ⟨tracked.messages, tracked.tasks⟩

end JobConsumer.Tracked

theorem mem_acks {effect : Effect} {acked : Bool} :
    effect ∈ acks acked msgId ↔ acked = true ∧ effect = .acked msgId := by
  rw [acks]
  split
  · rename_i yes
    simp [yes]
  · rename_i no
    simp [no]

/-- The message at the head of the loop is for a job that the process has a task for. -/
def JobConsumer.Skips (consumer : JobConsumer) (msgId : Nat) (jobId : String) : Prop :=
  jobId ≠ "" ∧ (∃ rest, consumer.loop = .handling (msgId :: rest)) ∧
    (consumer.activeTasks.get jobId).isSome = true

theorem acked_cases {event : ConsumerEvent} {after : JobConsumer}
    (tracked : consumer.Tracked group)
    (stepped : consumer.step config group.stream event = some (after, effects))
    (acked : .acked msgId ∈ effects) (known : group.jobOf msgId = some jobId) :
    (jobId = "" ∨ .dead msgId ∈ effects ∨
      ∃ run ∈ group.runs, run.jobId = jobId ∧ msgId < run.seen) ∨
    event = .handles true ∧ consumer.Skips msgId jobId := by
  have own {other : Nat} {entry : Entry} (found : group.stream[other]? = some entry)
      (same : msgId = other) : entry.jobId = jobId := by
    subst same
    rw [ConsumerGroup.jobOf, found] at known
    exact Option.some.inj known
  cases event with
  | recovers counted sent answered =>
      left
      simp only [JobConsumer.step] at stepped
      split at stepped
      · obtain ⟨entry, found, same⟩ := Option.map_eq_some_iff.mp stepped
        obtain rfl : _ = effects := congrArg Prod.snd same
        simp only [JobConsumer.recoverPending] at acked ⊢
        split at acked
        · rename_i empty
          obtain ⟨-, this⟩ := mem_acks.mp acked
          cases this
          exact .inl ((own found rfl).symm.trans empty)
        · rename_i proper
          right; left
          rw [if_neg proper]
          split at acked
          · split at acked
            · rename_i exceeded sent
              rcases List.mem_cons.mp acked with never | acked
              · cases never
              · obtain ⟨-, this⟩ := mem_acks.mp acked
                cases this
                rw [if_pos exceeded, if_pos sent]
                exact List.mem_cons_self
            · cases acked
          · cases acked
      · cases stepped
  | polls =>
      simp only [JobConsumer.step] at stepped
      split at stepped
      · cases stepped
        cases acked
      · cases stepped
  | receives count answered =>
      simp only [JobConsumer.step] at stepped
      split at stepped
      · split at stepped
        · cases stepped
          obtain ⟨_, _, never⟩ := List.mem_map.mp acked
          cases never
        · cases stepped
      · cases stepped
  | handles answered =>
      simp only [JobConsumer.step] at stepped
      split at stepped
      · rename_i loop
        obtain ⟨entry, found, same⟩ := Option.map_eq_some_iff.mp stepped
        obtain rfl : _ = effects := congrArg Prod.snd same
        simp only [JobConsumer.handle] at acked
        split at acked
        · rename_i empty
          obtain ⟨-, this⟩ := mem_acks.mp acked
          cases this
          exact .inl (.inl ((own found rfl).symm.trans empty))
        · rename_i proper
          split at acked
          · rename_i active
            obtain ⟨rfl, this⟩ := mem_acks.mp acked
            cases this
            have job := own found rfl
            exact .inr ⟨rfl, job ▸ proper, ⟨_, loop⟩, job ▸ active⟩
          · cases acked
      · cases stepped
  | continues index event =>
      left; right; right
      obtain ⟨task, found, advanced⟩ := Option.bind_eq_some_iff.mp stepped
      have tracked := tracked.tasks task (List.mem_of_getElem? found)
      rw [Task.Tracked] at tracked
      cases event with
      | looksUp graphKey =>
          cases graphKey <;> simp only [JobConsumer.advance] at advanced <;> split at advanced <;>
            cases advanced <;> cases acked
      | acquires =>
          simp only [JobConsumer.advance] at advanced
          split at advanced
          · split at advanced
            · cases advanced
            · cases advanced
              cases acked
          · cases advanced
      | returns =>
          simp only [JobConsumer.advance] at advanced
          split at advanced <;> cases advanced <;> cases List.mem_singleton.mp acked
      | acknowledges answered =>
          simp only [JobConsumer.advance] at advanced
          split at advanced
          · rename_i acking
            rw [acking] at tracked
            cases advanced
            obtain ⟨-, this⟩ := mem_acks.mp acked
            cases this
            cases tracked.1.symm.trans known
            exact tracked.2
          · cases advanced
      | cancels =>
          simp only [JobConsumer.advance] at advanced
          split at advanced
          · cases advanced
            cases acked
          · cases advanced
  | requestShutdown | dies =>
      cases stepped
      cases acked

end Tracked

namespace ConsumerGroup

variable {config : ConsumerConfig} {group next : ConsumerGroup} {event : GroupEvent}
  {dropped claimed : List Nat} {msgId trimmed : Nat} {jobId other : String}

/-- What a step comes to for the messages. -/
structure Follows (group next : ConsumerGroup) (dropped : List Nat) : Prop where
  jobs : ∀ msgId jobId, group.jobOf msgId = some jobId → next.jobOf msgId = some jobId
  origin : ∀ msgId jobId, next.jobOf msgId = some jobId →
    group.jobOf msgId = some jobId ∨ next.waits msgId = true
  waits : ∀ msgId jobId, group.jobOf msgId = some jobId → group.waits msgId = true →
    next.waits msgId = true ∨ msgId ∈ dropped ∨ next.Handled msgId jobId
  handled : ∀ msgId jobId, group.Handled msgId jobId → next.Handled msgId jobId
  gone : ∀ msgId ∈ dropped, next.waits msgId = false
  unhandled : ∀ msgId ∈ dropped, ∀ jobId, next.Handled msgId jobId → group.Handled msgId jobId

theorem Follows.accounted_iff (follows : group.Follows next dropped)
    (accounted : group.Accounted) :
    next.Accounted ↔ ∀ msgId ∈ dropped, ∀ jobId, group.jobOf msgId = some jobId →
      group.Handled msgId jobId := by
  constructor
  · intro later msgId member jobId known
    rcases later msgId jobId (follows.jobs msgId jobId known) with waits | handled
    · cases waits.symm.trans (follows.gone msgId member)
    · exact follows.unhandled msgId member jobId handled
  · intro spared msgId jobId known
    rcases follows.origin msgId jobId known with old | waits
    · rcases accounted msgId jobId old with waits | handled
      · rcases follows.waits msgId jobId old waits with still | member | handled
        · exact .inl still
        · exact .inr (follows.handled msgId jobId (spared msgId member jobId old))
        · exact .inr handled
      · exact .inr (follows.handled msgId jobId handled)
    · exact .inl waits

theorem jobOf_deliver {consumers : List JobConsumer} :
    ConsumerGroup.jobOf { group with stream := group.deliver claimed, consumers := consumers }
      msgId = group.jobOf msgId := by
  simp only [jobOf, getElem?_deliver, Option.map_map]
  congr 1
  funext entry
  simp only [Function.comp_apply]
  split <;> rfl

theorem waits_deliver {consumers : List JobConsumer} :
    ConsumerGroup.waits { group with stream := group.deliver claimed, consumers := consumers }
      msgId = group.waits msgId := by
  simp only [waits, getElem?_deliver, Option.any_map]
  congr 1
  funext entry
  split <;> rfl

theorem jobOf_dispatch : (group.dispatch other trimmed).jobOf msgId =
    if msgId = group.stream.length then some other else group.jobOf msgId := by
  simp only [jobOf, dispatch, List.getElem?_append, List.length_mapIdx, List.getElem?_mapIdx]
  split
  · rename_i inside
    rw [if_neg (Nat.ne_of_lt inside), Option.map_map]
    congr 1
    funext entry
    simp only [Function.comp_apply]
    split <;> rfl
  · rename_i outside
    split
    · rename_i last
      rw [last, Nat.sub_self]
      rfl
    · rename_i apart
      rw [List.getElem?_eq_none (by simp only [List.length_singleton]; omega),
        List.getElem?_eq_none (by omega)]

theorem waits_dispatch : (group.dispatch other trimmed).waits msgId = true ↔
    msgId = group.stream.length ∨
      group.waits msgId = true ∧ msgId ∉ oldest group.stream trimmed := by
  simp only [waits, dispatch, List.getElem?_append, List.length_mapIdx, List.getElem?_mapIdx]
  split
  · rename_i inside
    rw [Option.any_map]
    have apart : msgId ≠ group.stream.length := Nat.ne_of_lt inside
    cases group.stream[msgId]? with
    | none => simp [apart]
    | some entry =>
        simp only [Option.any_some, apart, false_or]
        split
        · rename_i removed
          simp [removed, Entry.waits]
        · rename_i kept
          simp [kept]
  · rename_i outside
    by_cases last : msgId = group.stream.length
    · subst last
      simp [Entry.waits]
    · rw [List.getElem?_eq_none (by simp only [List.length_singleton]; omega),
        List.getElem?_eq_none (by omega)]
      simp [last]

theorem mem_oldest (member : msgId ∈ oldest group.stream trimmed) :
    msgId < group.stream.length :=
  List.mem_range.mp (List.mem_filter.mp (List.mem_of_mem_take member)).1

theorem mem_skipped {index : Nat} {consumer : JobConsumer}
    (found : group.consumers[index]? = some consumer) :
    msgId ∈ group.skipped index ↔
      ∃ jobId, group.jobOf msgId = some jobId ∧ consumer.Skips msgId jobId := by
  rw [skipped, found, Option.bind_some, Option.mem_toList]
  split
  · rename_i first rest loop
    have head {msgId : Nat} {jobId : String} (skips : consumer.Skips msgId jobId) :
        first = msgId := by
      obtain ⟨_, ⟨rest, there⟩, _⟩ := skips
      exact (List.cons.inj (Loop.handling.inj (loop.symm.trans there))).1
    constructor
    · intro chosen
      split at chosen
      · rename_i held
        cases chosen
        obtain ⟨jobId, known, held⟩ := (Option.any_eq_true _ _).mp held
        rw [Bool.and_eq_true, decide_eq_true_eq] at held
        exact ⟨jobId, known, held.1, ⟨rest, loop⟩, held.2⟩
      · cases chosen
    · rintro ⟨jobId, known, skips⟩
      cases head skips
      rw [if_pos]
      rw [known, Option.any_some, skips.2.2, Bool.and_true, decide_eq_true_eq]
      exact skips.1
  · rename_i elsewhere
    constructor
    · intro never
      cases never
    · rintro ⟨jobId, known, _, ⟨rest, loop⟩, _⟩
      exact absurd loop (elsewhere msgId rest)

theorem skipped_effects {consumer after : JobConsumer} {effects : List Effect}
    (known : group.jobOf msgId = some jobId) (skips : consumer.Skips msgId jobId)
    (stepped : consumer.step config group.stream (.handles true) = some (after, effects)) :
    effects = [.acked msgId] := by
  obtain ⟨proper, ⟨rest, loop⟩, active⟩ := skips
  obtain ⟨entry, found, rfl⟩ := Option.map_eq_some_iff.mp known
  simp only [JobConsumer.step, loop, found, Option.map_some, Option.some.injEq] at stepped
  rw [JobConsumer.handle, if_neg proper, if_pos active] at stepped
  cases stepped
  rfl

theorem dropped_consumer {index : Nat} {event : ConsumerEvent}
    (member : msgId ∈ group.dropped (.consumer index event)) :
    event = .handles true ∧ msgId ∈ group.skipped index := by
  rw [ConsumerGroup.dropped.eq_def] at member
  split at member
  · rename_i never
    cases never
  · rename_i same
    cases same
    exact ⟨rfl, member⟩
  · cases member

/-- A step of a process. -/
theorem consumer_follows {index : Nat} {event : ConsumerEvent} {consumer after : JobConsumer}
    {effects : List Effect} (found : group.consumers[index]? = some consumer)
    (tracked : consumer.Tracked group)
    (stepped : consumer.step config group.stream event = some (after, effects)) :
    group.Follows (effects.foldl apply { group with consumers := group.consumers.set index after })
      (group.dropped (.consumer index event)) where
  jobs _ _ known := jobOf_foldl.trans known
  origin msgId jobId known := by
    rw [jobOf_foldl] at known
    exact .inl known
  waits msgId jobId known waits := by
    by_cases acked : .acked msgId ∈ effects
    · right
      rcases acked_cases tracked stepped acked known with handled | ⟨rfl, skips⟩
      · refine .inr (handled.imp_right (Or.imp ?_ ?_))
        · exact fun dead => mem_deadLetters_foldl.mpr (.inr dead)
        · rintro ⟨run, ended, ran⟩
          exact ⟨run, mem_runs_foldl.mpr (.inl ended), ran⟩
      · exact .inl ((mem_skipped found).mpr ⟨jobId, known, skips⟩)
    · exact .inl (waits_foldl.mpr ⟨waits, acked⟩)
  handled msgId jobId handled := by
    refine handled.imp_right (Or.imp (fun dead => mem_deadLetters_foldl.mpr (.inl dead)) ?_)
    rintro ⟨run, ended, ran⟩
    exact ⟨run, mem_runs_foldl.mpr (.inl ended), ran⟩
  gone msgId member := by
    obtain ⟨rfl, member⟩ := dropped_consumer member
    obtain ⟨jobId, known, skips⟩ := (mem_skipped found).mp member
    apply Bool.eq_false_iff.mpr
    intro waits
    refine (waits_foldl.mp waits).2 ?_
    rw [skipped_effects known skips stepped]
    exact List.mem_singleton_self _
  unhandled msgId member jobId handled := by
    obtain ⟨rfl, member⟩ := dropped_consumer member
    obtain ⟨own, known, skips⟩ := (mem_skipped found).mp member
    have effects := skipped_effects known skips stepped
    subst effects
    exact handled

theorem step_follows (kept : ∀ consumer ∈ group.consumers, consumer.Tracked group)
    (stepped : group.step config event = some next) : group.Follows next (group.dropped event) := by
  cases event with
  | elapses ms =>
      cases stepped
      exact ⟨fun _ _ => id, fun _ _ => .inl, fun _ _ _ => .inl, fun _ _ => id,
        fun _ never => (by cases never), fun _ never => (by cases never)⟩
  | dispatch jobId trimmed =>
      simp only [step] at stepped
      split at stepped
      · cases stepped
        refine ⟨?_, ?_, ?_, fun _ _ => id, ?_, fun _ _ _ => id⟩
        · intro msgId other known
          rw [jobOf_dispatch, if_neg (Nat.ne_of_lt (lt_length known)), known]
        · intro msgId other known
          rw [jobOf_dispatch] at known
          split at known
          · rename_i last
            exact .inr (waits_dispatch.mpr (.inl last))
          · exact .inl known
        · intro msgId other known waits
          by_cases removed : msgId ∈ oldest group.stream trimmed
          · exact .inr (.inl removed)
          · exact .inl (waits_dispatch.mpr (.inr ⟨waits, removed⟩))
        · intro msgId member
          apply Bool.eq_false_iff.mpr
          intro waits
          rcases waits_dispatch.mp waits with last | ⟨_, kept⟩
          · exact absurd (mem_oldest member) (last ▸ Nat.lt_irrefl _)
          · exact kept member
      · cases stepped
  | starts claimed answered =>
      simp only [step] at stepped
      split at stepped
      · cases stepped
        exact ⟨fun _ _ known => jobOf_deliver.trans known,
          fun _ _ known => .inl (jobOf_deliver.symm.trans known),
          fun _ _ _ waits => .inl (waits_deliver.trans waits), fun _ _ => id,
          fun _ never => (by cases never), fun _ never => (by cases never)⟩
      · cases stepped
  | consumer index event =>
      obtain ⟨consumer, found, stepped⟩ := Option.bind_eq_some_iff.mp stepped
      split at stepped
      · obtain ⟨⟨after, effects⟩, moved, rfl⟩ := Option.map_eq_some_iff.mp stepped
        exact consumer_follows found (kept consumer (List.mem_of_getElem? found)) moved
      · cases stepped

theorem step_kept (kept : ∀ consumer ∈ group.consumers, consumer.Tracked group)
    (stepped : group.step config event = some next) :
    ∀ consumer ∈ next.consumers, consumer.Tracked next := by
  have jobs := (step_follows kept stepped).jobs
  cases event with
  | elapses ms =>
      cases stepped
      exact fun consumer member => (kept consumer member).grow jobs (List.Subset.refl _)
  | dispatch jobId trimmed =>
      simp only [step] at stepped
      split at stepped
      · cases stepped
        exact fun consumer member => (kept consumer member).grow jobs (List.Subset.refl _)
      · cases stepped
  | starts claimed answered =>
      simp only [step] at stepped
      split at stepped
      · cases stepped
        intro consumer member
        rcases List.mem_append.mp member with old | new
        · exact (kept consumer old).grow jobs (List.Subset.refl _)
        · rw [List.mem_singleton.mp new]
          exact .create _
      · cases stepped
  | consumer index event =>
      obtain ⟨consumer, found, stepped⟩ := Option.bind_eq_some_iff.mp stepped
      split at stepped
      · obtain ⟨⟨after, effects⟩, moved, rfl⟩ := Option.map_eq_some_iff.mp stepped
        have tracked := (kept consumer (List.mem_of_getElem? found)).step moved
        intro other member
        rw [consumers_foldl] at member
        rcases List.mem_or_eq_of_mem_set member with old | rfl
        · exact (kept other old).grow jobs fun run ended => mem_runs_foldl.mpr (.inl ended)
        · refine tracked.grow ?_ ?_
          · intro msgId jobId known
            rw [jobOf_foldl] at known
            exact jobOf_foldl.trans known
          · intro run ended
            rw [mem_runs_foldl] at ended
            exact mem_runs_foldl.mpr ended
      · cases stepped

/-- No message is lost just as long as no trim and no process drops one that nobody has handled.
A process drops the message of a job that it still holds a task for, also when that task is done. -/
theorem dispatched_accounted_iff (config : ConsumerConfig) (events : List GroupEvent) :
    Always (step config) Accounted .empty events ↔
      Meets (step config) (Spares config) .empty events := by
  refine always_iff_meets (fun group => ∀ consumer ∈ group.consumers, consumer.Tracked group)
    (fun group event next kept stepped => step_kept kept stepped) ?_ ?_ ?_
  · intro group event kept accounted
    constructor
    · intro later possible
      obtain ⟨next, stepped⟩ := Option.isSome_iff_exists.mp possible
      exact ((step_follows kept stepped).accounted_iff accounted).mp (later next stepped)
    · intro spares next stepped
      exact ((step_follows kept stepped).accounted_iff accounted).mpr
        (spares (Option.isSome_iff_exists.mpr ⟨next, stepped⟩))
  · intro consumer member
    cases member
  · intro msgId jobId known
    cases known

-- A job that fails and is resumed while its process waits for messages is not run again.
example : (run (step ⟨4, 2⟩) .empty [.starts [] true, .dispatch "agg_1" 0, .consumer 0 .polls,
      .consumer 0 (.receives 1 true), .consumer 0 (.handles true), .consumer 0 .polls,
      .consumer 0 (.continues 0 (.looksUp none)), .consumer 0 (.continues 0 .returns),
      .consumer 0 (.continues 0 (.acknowledges true)), .dispatch "agg_1" 0,
      .consumer 0 (.receives 1 true), .consumer 0 (.handles true)]).map
    (fun group => (group.waits 1, group.deadLetters, group.runs)) =
      some (false, [], [⟨"agg_1", 1⟩]) := by
  decide +kernel

end ConsumerGroup

end Univiz.Aggregation.Consumers
