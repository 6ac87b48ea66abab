import Univiz.Aggregation.Deliveries
import Univiz.Data.Exclusion

namespace Univiz.Aggregation.Consumers

open Univiz.Data

/-! Whether two processes can have tasks for one job at once. -/

def Task.unfinished (task : Task) : Bool := task.phase ≠ .done

/-- No two tasks of live processes are for one job. -/
def ConsumerGroup.RunsAlone (group : ConsumerGroup) : Prop :=
  ∀ (i j a b : Nat) (consumer other : JobConsumer) (task task' : Task),
    group.consumers[i]? = some consumer → consumer.alive = true →
    consumer.tasks[a]? = some task → task.unfinished = true →
    group.consumers[j]? = some other → other.alive = true →
    other.tasks[b]? = some task' → task'.unfinished = true →
    task.jobId = task'.jobId → i = j ∧ a = b

/-- The jobs of messages; a message without a job is nothing to run. -/
def jobsOf (jobOf : Nat → Option String) (msgIds : List Nat) : Multiset String :=
  msgIds.filterMap fun msgId => (jobOf msgId).filter (· ≠ "")

def Task.held (task : Task) : Multiset String :=
  if task.unfinished = true then {task.jobId} else 0

/-- The jobs of the tasks of a process, and of the messages that its loop has in its hands. -/
def JobConsumer.held (jobOf : Nat → Option String) (consumer : JobConsumer) : Multiset String :=
  if consumer.alive = true then
    jobsOf jobOf consumer.loop.messages + (consumer.tasks.map Task.held).sum
  else 0

namespace ConsumerGroup

variable (config : ConsumerConfig) (group : ConsumerGroup)

/-- The jobs that have not been delivered, or that a process has in its hands. -/
def inHand : Multiset String :=
  jobsOf group.jobOf (undelivered group.stream) +
    (group.consumers.map (JobConsumer.held group.jobOf)).sum

/-- The jobs that an event brings in. -/
def brings : GroupEvent → Multiset String
  | .dispatch jobId _ => if jobId = "" then 0 else {jobId}
  | .starts claimed answered => if answered = true then jobsOf group.jobOf claimed else 0
  | .elapses _ | .consumer _ _ => 0

/-- A job is dispatched, and its message taken over, only when it is in no other hand. -/
def KeepsApart (event : GroupEvent) : Prop := (group.brings event + group.inHand).Nodup

instance (event : GroupEvent) : Decidable (group.KeepsApart event) :=
  inferInstanceAs (Decidable (Multiset.Nodup _))

end ConsumerGroup

section Hands

variable {config : ConsumerConfig} {group : ConsumerGroup} {jobOf : Nat → Option String}
  {consumer after : JobConsumer} {task : Task} {effects : List Effect} {index msgId : Nat}
  {msgIds rest : List Nat} {phase : Phase}

theorem jobsOf_append (more : List Nat) :
    jobsOf jobOf (msgIds ++ more) = jobsOf jobOf msgIds + jobsOf jobOf more := by
  rw [jobsOf, List.filterMap_append]
  rfl

theorem jobsOf_cons : jobsOf jobOf (msgId :: rest) = jobsOf jobOf [msgId] + jobsOf jobOf rest :=
  @jobsOf_append jobOf [msgId] rest

theorem jobsOf_drop_add_take (count : Nat) :
    jobsOf jobOf (msgIds.drop count) + jobsOf jobOf (msgIds.take count) = jobsOf jobOf msgIds := by
  rw [add_comm, ← jobsOf_append, List.take_append_drop]

theorem jobsOf_single {jobId : String} (known : jobOf msgId = some jobId) (proper : jobId ≠ "") :
    jobsOf jobOf [msgId] = {jobId} := by
  have kept : (jobOf msgId).filter (· ≠ "") = some jobId := by simp [known, proper]
  simp only [jobsOf, List.filterMap_cons, List.filterMap_nil, kept]
  rfl

theorem jobsOf_le (fewer : msgIds.Sublist rest) : jobsOf jobOf msgIds ≤ jobsOf jobOf rest :=
  Multiset.coe_le.mpr (fewer.filterMap _).subperm

theorem held_alive (alive : consumer.alive = true) : consumer.held jobOf =
    jobsOf jobOf consumer.loop.messages + (consumer.tasks.map Task.held).sum :=
  if_pos alive

theorem Task.held_le {other : Task} (same : other.jobId = task.jobId)
    (busy : task.unfinished = true) : other.held ≤ task.held := by
  rw [Task.held, Task.held, if_pos busy, same]
  split
  · exact le_rfl
  · exact Multiset.zero_le _

theorem put_held (found : consumer.tasks[index]? = some task) (busy : task.unfinished = true) :
    ((consumer.put index task phase).tasks.map Task.held).sum ≤
      (consumer.tasks.map Task.held).sum := by
  have balance := @sum_map_set _ _ index { task with phase := phase } _ _ Task.held _ found
  have fewer : Task.held { task with phase := phase } ≤ task.held := Task.held_le rfl busy
  refine le_of_add_le_add_right (a := task.held) ?_
  rw [JobConsumer.put, balance]
  exact add_le_add_right fewer _

theorem finish_tasks : (consumer.finish config index task).tasks =
    (consumer.put index task .done).tasks := by
  rw [JobConsumer.finish]
  split <;> rfl

theorem spawn_held (jobId : String) :
    ((consumer.spawn jobId msgId).tasks.map Task.held).sum =
      (consumer.tasks.map Task.held).sum + {jobId} := by
  rw [JobConsumer.spawn, List.map_append, List.sum_append]
  rfl

theorem advance_held {event : TaskEvent} {seen : Nat} (found : consumer.tasks[index]? = some task)
    (advanced : consumer.advance config seen index task event = some (after, effects)) :
    after.alive = consumer.alive ∧ after.loop = consumer.loop ∧
      (after.tasks.map Task.held).sum ≤ (consumer.tasks.map Task.held).sum ∧
      ∀ msgId, .delivered msgId ∉ effects := by
  have put {phase : Phase} (busy : task.phase ≠ .done) :
      ((consumer.put index task phase).tasks.map Task.held).sum ≤
        (consumer.tasks.map Task.held).sum := put_held found (decide_eq_true busy)
  have finished (busy : task.phase ≠ .done) :
      ((consumer.finish config index task).tasks.map Task.held).sum ≤
        (consumer.tasks.map Task.held).sum := by
    rw [finish_tasks]
    exact put busy
  have framed : (consumer.finish config index task).alive = consumer.alive ∧
      (consumer.finish config index task).loop = consumer.loop := by
    rw [JobConsumer.finish]
    split <;> exact ⟨rfl, rfl⟩
  cases event with
  | looksUp graphKey =>
      cases graphKey <;> simp only [JobConsumer.advance] at advanced <;> split at advanced
      all_goals first | cases advanced; done | skip
      all_goals
        rename_i phase
        cases advanced
        refine ⟨rfl, rfl, put ?_, fun _ never => (by cases never)⟩
        rw [phase]
        simp
  | acquires =>
      simp only [JobConsumer.advance] at advanced
      split at advanced
      · rename_i phase
        split at advanced
        · cases advanced
        · cases advanced
          refine ⟨rfl, rfl, put ?_, fun _ never => (by cases never)⟩
          rw [phase]
          simp
      · cases advanced
  | returns =>
      simp only [JobConsumer.advance] at advanced
      split at advanced
      · rename_i phase
        cases advanced
        refine ⟨rfl, rfl, put ?_, fun _ never => (by cases List.mem_singleton.mp never)⟩
        rw [phase]
        simp
      · rename_i phase
        cases advanced
        refine ⟨framed.1, framed.2, finished ?_,
          fun _ never => (by cases List.mem_singleton.mp never)⟩
        rw [phase]
        simp
      · cases advanced
  | acknowledges acked =>
      simp only [JobConsumer.advance] at advanced
      split at advanced
      · rename_i phase
        cases advanced
        refine ⟨framed.1, framed.2, finished ?_, fun _ never => (by cases (mem_acks.mp never).2)⟩
        rw [phase]
        simp
      · cases advanced
  | cancels =>
      simp only [JobConsumer.advance] at advanced
      split at advanced
      · rename_i stopped
        cases advanced
        exact ⟨framed.1, framed.2, finished stopped.2.2, fun _ never => (by cases never)⟩
      · cases advanced

theorem length_foldl :
    (effects.foldl ConsumerGroup.apply group).stream.length = group.stream.length := by
  induction effects generalizing group with
  | nil => rfl
  | cons effect rest ih =>
      rw [List.foldl_cons, ih]
      cases effect with
      | delivered other => exact List.length_mapIdx
      | acked other => exact List.length_modify _ _ _
      | dead _ | ran _ => rfl

theorem isUndelivered_apply {effect : Effect} :
    (group.apply effect).stream[msgId]?.any Entry.undelivered =
      (group.stream[msgId]?.any Entry.undelivered && decide (effect ≠ .delivered msgId)) := by
  cases effect with
  | delivered other =>
      simp only [ConsumerGroup.apply, ConsumerGroup.getElem?_deliver, Option.any_map]
      by_cases here : other = msgId
      · cases group.stream[msgId]? <;> simp [here, Entry.undelivered, Entry.deliver]
      · cases group.stream[msgId]? <;> simp [here, Ne.symm here]
  | acked other =>
      simp only [ConsumerGroup.apply, List.getElem?_modify, Option.map_eq_map, Option.any_map]
      cases group.stream[msgId]? with
      | none => rfl
      | some entry =>
          simp only [Option.any_some, ne_eq, reduceCtorEq, not_false_eq_true, decide_true,
            Bool.and_true]
          split <;> rfl
  | dead _ | ran _ => simp [ConsumerGroup.apply]

theorem undelivered_foldl : undelivered (effects.foldl ConsumerGroup.apply group).stream =
    (undelivered group.stream).filter fun msgId => .delivered msgId ∉ effects := by
  have kept : ∀ msgId, (effects.foldl ConsumerGroup.apply group).stream[msgId]?.any
      Entry.undelivered = (group.stream[msgId]?.any Entry.undelivered &&
        decide (.delivered msgId ∉ effects)) := by
    intro msgId
    induction effects generalizing group with
    | nil => simp
    | cons effect rest ih =>
        rw [List.foldl_cons, ih, isUndelivered_apply, Bool.and_assoc]
        congr 1
        rw [← Bool.decide_and]
        refine decide_eq_decide.mpr ?_
        rw [List.mem_cons, not_or]
        exact and_congr_left fun _ => ne_comm
  rw [undelivered, undelivered, length_foldl, List.filter_filter]
  refine List.filter_congr ?_
  intro msgId _
  rw [kept, Bool.and_comm]

theorem nodup_undelivered (stream : List Entry) : (undelivered stream).Nodup :=
  List.nodup_range.filter _

/-- What is delivered was undelivered. -/
theorem undelivered_received {count : Nat} (effects : List Effect)
    (received : effects = ((undelivered group.stream).take count).map .delivered) :
    undelivered (effects.foldl ConsumerGroup.apply group).stream =
      (undelivered group.stream).drop count := by
  have distinct := nodup_undelivered group.stream
  rw [← List.take_append_drop count (undelivered group.stream)] at distinct
  have apart := (List.nodup_append'.mp distinct).2.2
  have delivered {msgId : Nat} :
      .delivered msgId ∈ effects ↔ msgId ∈ (undelivered group.stream).take count := by
    rw [received, List.mem_map]
    constructor
    · rintro ⟨other, taken, same⟩
      cases same
      exact taken
    · exact fun taken => ⟨msgId, taken, rfl⟩
  rw [undelivered_foldl]
  conv_lhs => rw [← List.take_append_drop count (undelivered group.stream), List.filter_append]
  rw [List.filter_eq_nil_iff.mpr, List.filter_eq_self.mpr, List.nil_append]
  · intro msgId later
    exact decide_eq_true fun taken => apart (delivered.mp taken) later
  · intro msgId taken
    simp [delivered.mpr taken]

theorem withLoop_held_le {loop : Loop} {messages : List Nat} (alive : consumer.alive = true)
    (fewer : loop.messages.Sublist messages) :
    JobConsumer.held jobOf { consumer with loop := loop } ≤
      jobsOf jobOf messages + (consumer.tasks.map Task.held).sum := by
  rw [JobConsumer.held, if_pos alive]
  exact add_le_add_left (jobsOf_le fewer) _

theorem spawn_held_le {loop : Loop} {jobId : String} (alive : consumer.alive = true)
    (known : jobOf msgId = some jobId) (proper : jobId ≠ "") (left : loop.messages = rest) :
    JobConsumer.held jobOf { consumer.spawn jobId msgId with loop := loop } ≤
      jobsOf jobOf (msgId :: rest) + (consumer.tasks.map Task.held).sum := by
  have spawned : (consumer.spawn jobId msgId).alive = true := alive
  rw [JobConsumer.held, if_pos spawned, spawn_held, jobsOf_cons, jobsOf_single known proper, left,
    add_comm ({jobId} : Multiset String) (jobsOf jobOf rest), add_assoc,
    add_comm ({jobId} : Multiset String)]

/-- What a step of a process takes into its hands was undelivered. -/
theorem step_held {event : ConsumerEvent} (alive : consumer.alive = true)
    (stepped : consumer.step config group.stream event = some (after, effects)) :
    jobsOf group.jobOf (undelivered (effects.foldl ConsumerGroup.apply group).stream) +
        after.held group.jobOf ≤
      jobsOf group.jobOf (undelivered group.stream) + consumer.held group.jobOf := by
  have fewer : jobsOf group.jobOf (undelivered (effects.foldl ConsumerGroup.apply group).stream) ≤
      jobsOf group.jobOf (undelivered group.stream) := by
    rw [undelivered_foldl]
    exact jobsOf_le List.filter_sublist
  have job {msgId : Nat} {entry : Entry} (found : group.stream[msgId]? = some entry) :
      group.jobOf msgId = some entry.jobId := Option.map_eq_some_iff.mpr ⟨entry, found, rfl⟩
  rw [held_alive alive]
  cases event with
  | recovers counted sent acked =>
      simp only [JobConsumer.step] at stepped
      split at stepped
      · rename_i msgId rest loop
        obtain ⟨entry, found, same⟩ := Option.map_eq_some_iff.mp stepped
        obtain rfl : _ = after := congrArg Prod.fst same
        refine add_le_add fewer ?_
        have passed : (Loop.recover rest).messages.Sublist (msgId :: rest) := by
          rw [Loop.messages_recover]
          exact List.sublist_cons_self _ _
        rw [loop, Loop.messages, JobConsumer.recoverPending]
        split
        · exact withLoop_held_le alive passed
        · rename_i proper
          split
          · split
            · exact withLoop_held_le alive passed
            · exact withLoop_held_le alive (List.nil_sublist _)
          · exact spawn_held_le alive (job found) proper (Loop.messages_recover rest)
      · cases stepped
  | polls =>
      simp only [JobConsumer.step] at stepped
      split at stepped
      · rename_i loop
        cases stepped
        refine add_le_add fewer ?_
        rw [loop, JobConsumer.poll]
        split
        · exact withLoop_held_le alive (List.nil_sublist _)
        · have reaped : consumer.reapDoneTasks.alive = true := alive
          refine @withLoop_held_le _ consumer.reapDoneTasks _ _ reaped ?_
          split <;> exact List.nil_sublist _
      · cases stepped
  | receives count answered =>
      simp only [JobConsumer.step] at stepped
      split at stepped
      · rename_i slots loop
        split at stepped
        · obtain ⟨rfl, rfl⟩ := Prod.mk.inj (Option.some.inj stepped)
          have received := @withLoop_held_le group.jobOf consumer
            (if answered = true then .handle ((undelivered group.stream).take count) else .top)
            ((undelivered group.stream).take count) alive (by
              split
              · rw [Loop.messages_handle]
              · exact List.nil_sublist _)
          rw [undelivered_received _ rfl, loop]
          refine (add_le_add_right received _).trans (le_of_eq ?_)
          have none : jobsOf group.jobOf [] = 0 := rfl
          rw [← add_assoc, jobsOf_drop_add_take, Loop.messages, none, zero_add]
        · cases stepped
      · cases stepped
  | handles acked =>
      simp only [JobConsumer.step] at stepped
      split at stepped
      · rename_i msgId rest loop
        obtain ⟨entry, found, same⟩ := Option.map_eq_some_iff.mp stepped
        obtain rfl : _ = after := congrArg Prod.fst same
        refine add_le_add fewer ?_
        have passed : (Loop.handle rest).messages.Sublist (msgId :: rest) := by
          rw [Loop.messages_handle]
          exact List.sublist_cons_self _ _
        rw [loop, Loop.messages, JobConsumer.handle]
        split
        · exact withLoop_held_le alive passed
        · rename_i proper
          split
          · exact withLoop_held_le alive passed
          · exact spawn_held_le alive (job found) proper (Loop.messages_handle rest)
      · cases stepped
  | continues index event =>
      obtain ⟨task, found, advanced⟩ := Option.bind_eq_some_iff.mp stepped
      obtain ⟨lives, loop, held, -⟩ := advance_held found advanced
      rw [held_alive (lives.trans alive), loop]
      exact add_le_add fewer (add_le_add_right held _)
  | requestShutdown =>
      cases stepped
      exact add_le_add fewer (withLoop_held_le alive (List.Sublist.refl _))
  | dies =>
      cases stepped
      exact add_le_add fewer (Multiset.zero_le _)

theorem step_messages {event : ConsumerEvent}
    (stepped : consumer.step config group.stream event = some (after, effects))
    (member : msgId ∈ after.loop.messages) :
    msgId ∈ consumer.loop.messages ∨ msgId ∈ undelivered group.stream := by
  cases event with
  | recovers counted sent acked =>
      simp only [JobConsumer.step] at stepped
      split at stepped
      · rename_i loop
        obtain ⟨entry, -, same⟩ := Option.map_eq_some_iff.mp stepped
        obtain rfl : _ = after := congrArg Prod.fst same
        left
        rw [loop]
        rw [JobConsumer.recoverPending] at member
        split at member
        · exact List.mem_cons_of_mem _ (by simpa using member)
        · split at member
          · split at member
            · exact List.mem_cons_of_mem _ (by simpa using member)
            · cases member
          · exact List.mem_cons_of_mem _ (by simpa using member)
      · cases stepped
  | polls =>
      simp only [JobConsumer.step] at stepped
      split at stepped
      · cases stepped
        rw [JobConsumer.poll] at member
        split at member
        · cases member
        · dsimp only at member
          split at member <;> cases member
      · cases stepped
  | receives count answered =>
      simp only [JobConsumer.step] at stepped
      split at stepped
      · split at stepped
        · cases stepped
          dsimp only at member
          split at member
          · rw [Loop.messages_handle] at member
            exact .inr (List.mem_of_mem_take member)
          · cases member
        · cases stepped
      · cases stepped
  | handles acked =>
      simp only [JobConsumer.step] at stepped
      split at stepped
      · rename_i loop
        obtain ⟨entry, -, same⟩ := Option.map_eq_some_iff.mp stepped
        obtain rfl : _ = after := congrArg Prod.fst same
        left
        rw [loop]
        rw [JobConsumer.handle] at member
        split at member
        · exact List.mem_cons_of_mem _ (by simpa using member)
        · split at member
          · exact List.mem_cons_of_mem _ (by simpa using member)
          · exact List.mem_cons_of_mem _ (by simpa using member)
      · cases stepped
  | continues index event =>
      obtain ⟨task, found, advanced⟩ := Option.bind_eq_some_iff.mp stepped
      rw [(advance_held found advanced).2.1] at member
      exact .inl member
  | requestShutdown | dies =>
      cases stepped
      exact .inl member

end Hands

namespace ConsumerGroup

variable {config : ConsumerConfig} {group next : ConsumerGroup} {event : GroupEvent}
  {claimed : List Nat} {msgId trimmed : Nat} {jobId : String}

/-- A loop has messages of the stream in its hands. -/
def Inside (group : ConsumerGroup) : Prop :=
  ∀ consumer ∈ group.consumers, ∀ msgId ∈ consumer.loop.messages, msgId < group.stream.length

theorem undelivered_dispatch : undelivered (group.dispatch jobId trimmed).stream =
    (undelivered group.stream).filter (fun msgId => msgId ∉ oldest group.stream trimmed) ++
      [group.stream.length] := by
  have length : (group.dispatch jobId trimmed).stream.length = group.stream.length + 1 := by
    simp [dispatch]
  rw [undelivered, length, List.range_succ, List.filter_append, undelivered, List.filter_filter]
  congr 1
  · refine List.filter_congr ?_
    intro msgId member
    have inside := List.mem_range.mp member
    simp only [dispatch, List.getElem?_append, List.length_mapIdx, inside, ↓reduceIte,
      List.getElem?_mapIdx, Option.any_map]
    cases group.stream[msgId]? with
    | none => simp
    | some entry =>
        simp only [Option.any_some]
        split <;> simp [*, Entry.undelivered]
  · simp [dispatch, Entry.undelivered]

theorem undelivered_deliver (claims : group.CanClaim config claimed) :
    undelivered (group.deliver claimed) = undelivered group.stream := by
  have length : (group.deliver claimed).length = group.stream.length := List.length_mapIdx
  rw [undelivered, undelivered, length]
  refine List.filter_congr ?_
  intro msgId _
  rw [getElem?_deliver, Option.any_map]
  cases found : group.stream[msgId]? with
  | none => rfl
  | some entry =>
      simp only [Option.any_some]
      split
      · rename_i member
        have claimable := claims.2.2 msgId member
        rw [found, Option.any_some, Entry.claimable, Entry.pending] at claimable
        simp only [Bool.and_eq_true, decide_eq_true_eq] at claimable
        simp [Entry.undelivered, Entry.deliver, Nat.ne_of_gt claimable.1.1.1]
      · rfl

theorem step_inside (inside : group.Inside) (stepped : group.step config event = some next) :
    next.Inside := by
  cases event with
  | elapses ms =>
      cases stepped
      exact inside
  | dispatch jobId trimmed =>
      simp only [step] at stepped
      split at stepped
      · cases stepped
        intro consumer member msgId hand
        have old := inside consumer member msgId hand
        simp only [dispatch, List.length_append, List.length_mapIdx]
        omega
      · cases stepped
  | starts claimed answered =>
      simp only [step] at stepped
      split at stepped
      · rename_i claims
        cases stepped
        intro consumer member msgId hand
        have length : (group.deliver claimed).length = group.stream.length := List.length_mapIdx
        refine lt_of_lt_of_eq ?_ length.symm
        rcases List.mem_append.mp member with old | new
        · exact inside consumer old msgId hand
        · cases List.mem_singleton.mp new
          dsimp only [JobConsumer.create] at hand
          split at hand
          · rw [Loop.messages_recover] at hand
            obtain ⟨entry, found, -⟩ := (Option.any_eq_true _ _).mp (claims.2.2 msgId hand)
            exact (List.getElem?_eq_some_iff.mp found).1
          · cases hand
      · cases stepped
  | consumer index event =>
      obtain ⟨consumer, found, stepped⟩ := Option.bind_eq_some_iff.mp stepped
      split at stepped
      · obtain ⟨⟨after, effects⟩, moved, rfl⟩ := Option.map_eq_some_iff.mp stepped
        intro other member msgId hand
        rw [consumers_foldl] at member
        rw [length_foldl]
        rcases List.mem_or_eq_of_mem_set member with old | rfl
        · exact inside other old msgId hand
        · rcases step_messages moved hand with before | undelivered
          · exact inside consumer (List.mem_of_getElem? found) msgId before
          · exact List.mem_range.mp (List.mem_filter.mp undelivered).1
      · cases stepped

theorem jobsOf_old {msgIds : List Nat} (inside : ∀ msgId ∈ msgIds, msgId < group.stream.length) :
    jobsOf (group.dispatch jobId trimmed).jobOf msgIds = jobsOf group.jobOf msgIds := by
  refine congrArg Multiset.ofList (List.filterMap_congr ?_)
  intro msgId member
  rw [jobOf_dispatch, if_neg (Nat.ne_of_lt (inside msgId member))]

theorem held_dispatch {consumer : JobConsumer}
    (inside : ∀ msgId ∈ consumer.loop.messages, msgId < group.stream.length) :
    consumer.held (group.dispatch jobId trimmed).jobOf = consumer.held group.jobOf := by
  rw [JobConsumer.held, JobConsumer.held, jobsOf_old inside]

theorem jobsOf_dispatch : jobsOf (group.dispatch jobId trimmed).jobOf
      (undelivered (group.dispatch jobId trimmed).stream) ≤
    group.brings (.dispatch jobId trimmed) + jobsOf group.jobOf (undelivered group.stream) := by
  have old : jobsOf (group.dispatch jobId trimmed).jobOf
      ((undelivered group.stream).filter fun msgId => msgId ∉ oldest group.stream trimmed) ≤
        jobsOf group.jobOf (undelivered group.stream) := by
    rw [jobsOf_old]
    · exact jobsOf_le List.filter_sublist
    · intro msgId member
      exact List.mem_range.mp (List.mem_filter.mp (List.mem_filter.mp member).1).1
  have new : jobsOf (group.dispatch jobId trimmed).jobOf [group.stream.length] =
      group.brings (.dispatch jobId trimmed) := by
    have known : (group.dispatch jobId trimmed).jobOf group.stream.length = some jobId := by
      rw [jobOf_dispatch, if_pos rfl]
    rw [brings]
    split
    · rename_i empty
      subst empty
      simp only [jobsOf, List.filterMap_cons, List.filterMap_nil, known]
      rfl
    · rename_i proper
      exact jobsOf_single known proper
  rw [undelivered_dispatch, jobsOf_append, new, add_comm]
  exact add_le_add_right old _

/-- What comes into hand is what the event brings in. -/
theorem step_inHand (inside : group.Inside) (stepped : group.step config event = some next) :
    next.inHand ≤ group.brings event + group.inHand := by
  cases event with
  | elapses ms =>
      cases stepped
      exact Multiset.le_add_left _ _
  | dispatch jobId trimmed =>
      simp only [step] at stepped
      split at stepped
      · cases stepped
        have same : (group.dispatch jobId trimmed).consumers.map
            (JobConsumer.held (group.dispatch jobId trimmed).jobOf) =
              group.consumers.map (JobConsumer.held group.jobOf) :=
          List.map_congr_left fun consumer member => held_dispatch (inside consumer member)
        rw [inHand, inHand, same, ← add_assoc]
        exact add_le_add_left jobsOf_dispatch _
      · cases stepped
  | starts claimed answered =>
      simp only [step] at stepped
      split at stepped
      · rename_i claims
        cases stepped
        have same : ConsumerGroup.jobOf { group with
            stream := group.deliver claimed
            consumers := group.consumers ++
              [JobConsumer.create (if answered = true then .recover claimed else .top)] } =
            group.jobOf := funext fun _ => jobOf_deliver
        rw [inHand, inHand, same, undelivered_deliver claims, List.map_append, List.sum_append,
          ← add_assoc, add_comm]
        refine add_le_add_left ?_ _
        rw [List.map_singleton, List.sum_singleton, held_alive rfl, brings]
        split
        · exact le_of_eq ((add_zero _).trans (by rw [JobConsumer.create, Loop.messages_recover]))
        · exact le_of_eq (add_zero _)
      · cases stepped
  | consumer index event =>
      obtain ⟨consumer, found, stepped⟩ := Option.bind_eq_some_iff.mp stepped
      split at stepped
      · rename_i alive
        obtain ⟨⟨after, effects⟩, moved, rfl⟩ := Option.map_eq_some_iff.mp stepped
        have held := step_held alive moved
        have balance := @sum_map_set _ group.consumers index after _ _
          (JobConsumer.held group.jobOf) _ found
        have same : (effects.foldl apply
            { group with consumers := group.consumers.set index after }).jobOf = group.jobOf :=
          funext fun _ => jobOf_foldl
        rw [undelivered_foldl] at held
        rw [inHand, inHand, same, consumers_foldl, undelivered_foldl, brings, zero_add]
        refine le_of_add_le_add_right (a := consumer.held group.jobOf) ?_
        rw [add_assoc, balance, ← add_assoc, add_right_comm, add_right_comm _ (List.sum _)]
        exact add_le_add_left held _
      · cases stepped

theorem runsAlone_of_nodup (alone : group.inHand.Nodup) : group.RunsAlone := by
  have held := (Multiset.nodup_add.mp alone).2.1
  intro i j a b consumer other task task' found alive foundTask busy found' alive' foundTask'
    busy' same
  have share {consumer : JobConsumer} {task : Task} {a : Nat} (alive : consumer.alive = true)
      (found : consumer.tasks[a]? = some task) (busy : task.unfinished = true) :
      task.jobId ∈ consumer.held group.jobOf := by
    rw [held_alive alive]
    refine Multiset.mem_add.mpr (.inr (Multiset.mem_of_le ?_ (Multiset.mem_singleton_self _)))
    have own := @share_le_sum _ _ _ Task.held _ (List.mem_of_getElem? found)
    rwa [Task.held, if_pos busy] at own
  by_cases here : i = j
  · subst here
    cases found.symm.trans found'
    refine ⟨rfl, ?_⟩
    by_contra apart
    have tasks := (Multiset.nodup_add.mp ((held_alive alive) ▸
      Multiset.nodup_of_le (share_le_sum (List.mem_of_getElem? found)) held)).2.1
    have disjoint : Disjoint task.held task'.held :=
      disjoint_shares tasks a b task task' foundTask foundTask' apart
    rw [Task.held, Task.held, if_pos busy, if_pos busy', same] at disjoint
    exact Multiset.disjoint_singleton.mp disjoint (Multiset.mem_singleton_self _)
  · have disjoint := disjoint_shares held i j consumer other found found' here
    exact absurd (same ▸ share alive' foundTask' busy')
      (Multiset.disjoint_left.mp disjoint (share alive foundTask busy))

/-- A job that is dispatched, or taken over from a process that is gone, only when it is in no
other hand is never run by two tasks at once. -/
theorem jobs_run_alone (config : ConsumerConfig) (events : List GroupEvent)
    (apart : Meets (step config) KeepsApart .empty events) :
    Always (step config) RunsAlone .empty events := by
  refine always_of_meets (fun group => group.Inside ∧ group.inHand.Nodup) ?_
    (fun group kept => runsAlone_of_nodup kept.2) ⟨?_, ?_⟩ apart
  · intro group event next kept apart stepped
    exact ⟨step_inside kept.1 stepped,
      Multiset.nodup_of_le (step_inHand kept.1 stepped) apart⟩
  · intro consumer member
    cases member
  · exact Multiset.nodup_zero

/-- The message of a job that is running is taken over when its process is gone, and the job is
run again. -/
def takenOver : List GroupEvent :=
  [.starts [] true, .dispatch "agg_1" 0, .dispatch "agg_2" 0, .consumer 0 .polls,
    .consumer 0 (.receives 2 true), .consumer 0 (.handles true), .consumer 0 (.handles true),
    .consumer 0 (.continues 0 (.looksUp none)), .consumer 0 .dies, .elapses 60000,
    .starts [0, 1] true, .consumer 1 (.recovers true true true),
    .consumer 1 (.continues 0 (.looksUp none))]

theorem takenOver_run_alone :
    (run (step ⟨4, 2⟩) .empty takenOver).isSome = true ∧
      Always (step ⟨4, 2⟩) RunsAlone .empty takenOver :=
  ⟨by decide +kernel, jobs_run_alone ⟨4, 2⟩ takenOver (by decide +kernel)⟩

-- The process is slow, but it is not gone.
example : ¬ Meets (step ⟨4, 2⟩) KeepsApart .empty
    (takenOver.filter fun event => match event with | .consumer _ .dies => false | _ => true) := by
  decide +kernel

end ConsumerGroup

end Univiz.Aggregation.Consumers
