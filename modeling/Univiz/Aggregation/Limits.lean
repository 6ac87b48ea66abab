import Univiz.Aggregation.Concurrency

namespace Univiz.Aggregation.Consumers

open Univiz.Data

/-! How many tasks a process can have, in all and for a graph. -/

/-- The slots that the loop may still fill. -/
def Loop.slots : Loop → Nat
  | .reading slots => slots
  | .recovering messages | .handling messages => messages.length
  | .top | .stopped => 0

theorem Loop.slots_recover (claimed : List Nat) : (recover claimed).slots = claimed.length := by
  cases claimed <;> rfl

theorem Loop.recover_eq {rest claimed : List Nat} (left : recover rest = .recovering claimed) :
    claimed = rest := by
  cases rest with
  | nil => cases left
  | cons first later =>
      cases left
      rfl

theorem Loop.handle_ne_recovering {received claimed : List Nat} :
    handle received ≠ .recovering claimed := by
  intro never
  cases received <;> cases never

theorem Loop.slots_handle (received : List Nat) : (handle received).slots = received.length := by
  cases received <;> rfl

namespace JobConsumer

variable (config : ConsumerConfig) (consumer : JobConsumer)

/-- The tasks that hold the semaphore of a graph. -/
def holding (graphKey : String) : List Task :=
  consumer.tasks.filter fun task => task.phase.holds = some graphKey

def unfinished : List Task := consumer.tasks.filter Task.unfinished

/-- A semaphore has what its holders have left of it. -/
def Balanced : Prop :=
  ∀ graphKey, (consumer.holding graphKey).length + consumer.semaphore config graphKey =
    config.maxPerGraph

variable {config : ConsumerConfig} {consumer after : JobConsumer} {task : Task} {index : Nat}
  {phase : Phase} {effects : List Effect} {graphKey other : String}

theorem semaphore_set {value : Nat} :
    semaphore config { consumer with
      graphSemaphores := consumer.graphSemaphores.set graphKey value } other =
        if graphKey = other then value else consumer.semaphore config other := by
  rw [semaphore, OrderedMap.get_set]
  split <;> rfl

theorem length_holding_put (found : consumer.tasks[index]? = some task) :
    ((consumer.put index task phase).holding graphKey).length +
        (if task.phase.holds = some graphKey then 1 else 0) =
      (consumer.holding graphKey).length + if phase.holds = some graphKey then 1 else 0 := by
  have balance := @length_filter_set _ _ _ _
    (fun task : Task => decide (task.phase.holds = some graphKey))
    { task with phase := phase } found
  simp only [decide_eq_true_eq] at balance
  exact balance

namespace Balanced

/-- Only the phases of the tasks and the semaphores matter. -/
theorem put (balanced : consumer.Balanced config) (found : consumer.tasks[index]? = some task)
    (same : phase.holds = task.phase.holds) : (consumer.put index task phase).Balanced config := by
  intro graphKey
  have length := @length_holding_put _ _ _ phase graphKey found
  rw [same] at length
  have before := balanced graphKey
  have kept : (consumer.put index task phase).semaphore config graphKey =
      consumer.semaphore config graphKey := rfl
  omega

/-- A task takes a semaphore, or gives it back. -/
theorem move {value : Nat} (balanced : consumer.Balanced config)
    (found : consumer.tasks[index]? = some task)
    (moved : ∀ other, (if graphKey = other then value else consumer.semaphore config other) +
        (if phase.holds = some other then 1 else 0) =
      consumer.semaphore config other + if task.phase.holds = some other then 1 else 0) :
    JobConsumer.Balanced config { consumer.put index task phase with
      graphSemaphores := consumer.graphSemaphores.set graphKey value } := by
  intro other
  have length := @length_holding_put _ _ _ phase other found
  have before := balanced other
  have left : semaphore config { consumer.put index task phase with
      graphSemaphores := consumer.graphSemaphores.set graphKey value } other =
        if graphKey = other then value else consumer.semaphore config other :=
    @semaphore_set config (consumer.put index task phase) graphKey other value
  have moved := moved other
  have total : ((consumer.put index task phase).holding other).length +
      (if graphKey = other then value else consumer.semaphore config other) =
        config.maxPerGraph := by omega
  exact (congrArg (_ + ·) left).trans total

theorem finish (balanced : consumer.Balanced config)
    (found : consumer.tasks[index]? = some task) :
    (consumer.finish config index task).Balanced config := by
  rw [JobConsumer.finish]
  split
  · rename_i free
    exact balanced.put found free.symm
  · rename_i graphKey holds
    have free : Phase.done.holds = none := rfl
    refine balanced.move found ?_
    intro other
    by_cases here : graphKey = other
    · simp [here, holds, free]
    · simp [here, holds, free]

theorem advance {event : TaskEvent} {seen : Nat} (balanced : consumer.Balanced config)
    (found : consumer.tasks[index]? = some task)
    (advanced : consumer.advance config seen index task event = some (after, effects)) :
    after.Balanced config := by
  cases event with
  | looksUp key =>
      cases key with
      | none =>
          simp only [JobConsumer.advance] at advanced
          split at advanced
          · rename_i phase
            cases advanced
            exact balanced.put found (by rw [phase]; rfl)
          · cases advanced
      | some graphKey =>
          simp only [JobConsumer.advance] at advanced
          split at advanced
          · rename_i phase
            cases advanced
            refine balanced.move found ?_
            intro other
            by_cases here : graphKey = other
            · simp [here, phase, Phase.holds]
            · simp [here, phase, Phase.holds]
          · cases advanced
  | acquires =>
      simp only [JobConsumer.advance] at advanced
      split at advanced
      · rename_i graphKey phase
        split at advanced
        · cases advanced
        · rename_i free
          cases advanced
          refine balanced.move found ?_
          intro other
          by_cases here : graphKey = other
          · subst here
            simp only [↓reduceIte, phase, Phase.holds, reduceCtorEq]
            omega
          · simp [here, phase, Phase.holds]
      · cases advanced
  | returns =>
      simp only [JobConsumer.advance] at advanced
      split at advanced
      · rename_i phase
        cases advanced
        exact balanced.put found (by rw [phase]; rfl)
      · cases advanced
        exact balanced.finish found
      · cases advanced
  | acknowledges acked =>
      simp only [JobConsumer.advance] at advanced
      split at advanced
      · cases advanced
        exact balanced.finish found
      · cases advanced
  | cancels =>
      simp only [JobConsumer.advance] at advanced
      split at advanced
      · cases advanced
        exact balanced.finish found
      · cases advanced

theorem spawn {jobId : String} (balanced : consumer.Balanced config) (msgId : Nat) :
    (consumer.spawn jobId msgId).Balanced config := by
  intro graphKey
  have same : (consumer.spawn jobId msgId).holding graphKey = consumer.holding graphKey := by
    rw [holding, JobConsumer.spawn, List.filter_append]
    exact List.append_nil _
  rw [same]
  exact balanced graphKey

theorem step {event : ConsumerEvent} {stream : List Entry} (balanced : consumer.Balanced config)
    (stepped : consumer.step config stream event = some (after, effects)) :
    after.Balanced config := by
  cases event with
  | recovers counted sent acked =>
      simp only [JobConsumer.step] at stepped
      split at stepped
      · rename_i msgId rest loop
        obtain ⟨entry, -, same⟩ := Option.map_eq_some_iff.mp stepped
        obtain rfl : _ = after := congrArg Prod.fst same
        rw [JobConsumer.recoverPending]
        split
        · exact balanced
        · split
          · split <;> exact balanced
          · exact balanced.spawn msgId
      · cases stepped
  | polls =>
      simp only [JobConsumer.step] at stepped
      split at stepped
      · cases stepped
        rw [JobConsumer.poll]
        split <;> exact balanced
      · cases stepped
  | receives count answered =>
      simp only [JobConsumer.step] at stepped
      split at stepped
      · split at stepped
        · cases stepped
          exact balanced
        · cases stepped
      · cases stepped
  | handles acked =>
      simp only [JobConsumer.step] at stepped
      split at stepped
      · rename_i msgId rest loop
        obtain ⟨entry, -, same⟩ := Option.map_eq_some_iff.mp stepped
        obtain rfl : _ = after := congrArg Prod.fst same
        rw [JobConsumer.handle]
        split
        · exact balanced
        · split
          · exact balanced
          · exact balanced.spawn msgId
      · cases stepped
  | continues index event =>
      obtain ⟨task, found, advanced⟩ := Option.bind_eq_some_iff.mp stepped
      exact balanced.advance found advanced
  | requestShutdown | dies =>
      cases stepped
      exact balanced

end Balanced

/-- Every unfinished task is the active one of its job, and the loop leaves no more slots than
there are. -/
structure Fits (config : ConsumerConfig) (jobOf : Nat → Option String)
    (consumer : JobConsumer) : Prop where
  active : ∀ index task, consumer.tasks[index]? = some task → task.unfinished = true →
    consumer.activeTasks.get task.jobId = some index
  slots : consumer.activeTasks.size + consumer.loop.slots ≤ config.maxConcurrency
  apart : ∀ claimed, consumer.loop = .recovering claimed → (jobsOf jobOf claimed).Nodup ∧
    ∀ jobId ∈ jobsOf jobOf claimed, consumer.activeTasks.get jobId = none

namespace Fits

variable {jobOf : Nat → Option String} {msgId : Nat} {rest : List Nat} {loop : Loop}

theorem length_unfinished (fits : consumer.Fits config jobOf) :
    consumer.unfinished.length ≤ config.maxConcurrency := by
  have distinct : (consumer.unfinished.map Task.jobId).Nodup := by
    rw [List.Nodup, unfinished, List.pairwise_map, List.pairwise_filter,
      List.pairwise_iff_getElem]
    intro i j first second earlier busy busy' same
    have one := fits.active i _ (List.getElem?_eq_getElem first) busy
    have other := fits.active j _ (List.getElem?_eq_getElem second) busy'
    rw [same] at one
    exact absurd (Option.some.inj (one.symm.trans other)) (Nat.ne_of_lt earlier)
  have active : consumer.unfinished.map Task.jobId ⊆
      consumer.activeTasks.entries.map Prod.fst := by
    intro jobId member
    obtain ⟨task, chosen, rfl⟩ := List.mem_map.mp member
    obtain ⟨listed, busy⟩ := List.mem_filter.mp chosen
    obtain ⟨index, found⟩ := List.getElem?_of_mem listed
    have entry := OrderedMap.get_eq_some.mp (fits.active index task found busy)
    exact List.mem_map.mpr ⟨_, entry, rfl⟩
  have fewer := (List.subperm_of_subset distinct active).length_le
  rw [List.length_map, List.length_map] at fewer
  exact fewer.trans ((Nat.le_add_right _ _).trans fits.slots)

theorem withLoop (fits : consumer.Fits config jobOf) (slots : loop.slots ≤ consumer.loop.slots)
    (other : ∀ claimed, loop ≠ .recovering claimed) :
    Fits config jobOf { consumer with loop := loop } where
  active := fits.active
  slots := (Nat.add_le_add_left slots _).trans fits.slots
  apart claimed recovers := absurd recovers (other claimed)

theorem spawn {jobId : String} (fits : consumer.Fits config jobOf)
    (free : consumer.activeTasks.get jobId = none)
    (slots : loop.slots + 1 = consumer.loop.slots)
    (apart : ∀ claimed, loop = .recovering claimed → (jobsOf jobOf claimed).Nodup ∧
      ∀ other ∈ jobsOf jobOf claimed, jobId ≠ other ∧ consumer.activeTasks.get other = none) :
    Fits config jobOf { consumer.spawn jobId msgId with loop := loop } where
  active index task found busy := by
    rw [JobConsumer.spawn, OrderedMap.get_set]
    rw [JobConsumer.spawn, List.getElem?_append] at found
    split at found
    · have own := fits.active index task found busy
      split
      · rename_i here
        rw [here, own] at free
        cases free
      · exact own
    · rename_i outside
      have last := (List.getElem?_eq_some_iff.mp found).1
      rw [List.length_singleton] at last
      obtain rfl : index = consumer.tasks.length := by omega
      rw [Nat.sub_self] at found
      cases found
      rw [if_pos rfl]
  slots := by
    have size : (consumer.activeTasks.set jobId consumer.tasks.length).size =
        consumer.activeTasks.size + 1 := OrderedMap.size_set free
    have before := fits.slots
    simp only [JobConsumer.spawn, size]
    omega
  apart claimed recovers := by
    obtain ⟨distinct, apart⟩ := apart claimed recovers
    refine ⟨distinct, ?_⟩
    intro other member
    obtain ⟨elsewhere, free⟩ := apart other member
    rw [JobConsumer.spawn, OrderedMap.get_set, if_neg elsewhere]
    exact free

/-- What is left of the messages that have been taken over. -/
theorem rest_apart (fits : consumer.Fits config jobOf)
    (recovers : consumer.loop = .recovering (msgId :: rest)) {claimed : List Nat}
    (left : Loop.recover rest = .recovering claimed) :
    (jobsOf jobOf claimed).Nodup ∧
      ∀ jobId ∈ jobsOf jobOf claimed, consumer.activeTasks.get jobId = none := by
  obtain ⟨distinct, free⟩ := fits.apart _ recovers
  obtain rfl := Loop.recover_eq left
  have fewer : jobsOf jobOf claimed ≤ jobsOf jobOf (msgId :: claimed) :=
    jobsOf_le (List.sublist_cons_self _ _)
  exact ⟨Multiset.nodup_of_le fewer distinct,
    fun jobId member => free jobId (Multiset.mem_of_le fewer member)⟩

theorem recoverPending {entry : Entry} {counted sent acked : Bool}
    (fits : consumer.Fits config jobOf) (known : jobOf msgId = some entry.jobId)
    (recovers : consumer.loop = .recovering (msgId :: rest)) :
    (consumer.recoverPending msgId entry rest counted sent acked).1.Fits config jobOf := by
  have slots : (Loop.recover rest).slots + 1 = consumer.loop.slots := by
    rw [recovers, Loop.slots_recover]
    rfl
  have passed : Fits config jobOf { consumer with loop := .recover rest } :=
    ⟨fits.active, (Nat.add_le_add_left (Nat.le.intro slots) _).trans fits.slots,
      fun claimed left => fits.rest_apart recovers left⟩
  rw [JobConsumer.recoverPending]
  split
  · exact passed
  · rename_i proper
    split
    · split
      · exact passed
      · exact fits.withLoop (Nat.zero_le _) (fun _ never => (by cases never))
    · obtain ⟨distinct, free⟩ := fits.apart _ recovers
      rw [jobsOf_cons, jobsOf_single known proper] at distinct free
      have own := free entry.jobId (Multiset.mem_add.mpr (.inl (Multiset.mem_singleton_self _)))
      refine fits.spawn own slots ?_
      intro claimed left
      obtain ⟨distinct', free'⟩ := fits.rest_apart recovers left
      refine ⟨distinct', fun other member => ⟨?_, free' other member⟩⟩
      rintro rfl
      obtain rfl := Loop.recover_eq left
      exact Multiset.disjoint_left.mp (Multiset.nodup_add.mp distinct).2.2
        (Multiset.mem_singleton_self _) member

theorem handle {entry : Entry} {acked : Bool} (fits : consumer.Fits config jobOf)
    (handles : consumer.loop = .handling (msgId :: rest)) :
    (consumer.handle msgId entry rest acked).1.Fits config jobOf := by
  have slots : (Loop.handle rest).slots + 1 = consumer.loop.slots := by
    rw [handles, Loop.slots_handle]
    rfl
  have passed : Fits config jobOf { consumer with loop := .handle rest } :=
    fits.withLoop (Nat.le.intro slots) fun _ => Loop.handle_ne_recovering
  rw [JobConsumer.handle]
  split
  · exact passed
  · split
    · exact passed
    · rename_i free
      exact fits.spawn (Option.not_isSome_iff_eq_none.mp free) slots
        fun claimed left => absurd left Loop.handle_ne_recovering

theorem reapDoneTasks (fits : consumer.Fits config jobOf) (top : consumer.loop = .top) :
    consumer.reapDoneTasks.Fits config jobOf where
  active index task found busy := by
    have there : consumer.tasks[index]? = some task := found
    have own := fits.active index task there busy
    have kept : consumer.finished task.jobId = false := by
      rw [finished, own, Option.any_some, there, Option.any_some]
      exact decide_eq_false (of_decide_eq_true busy)
    rw [JobConsumer.reapDoneTasks, OrderedMap.get_restrict, kept]
    exact own
  slots := (Nat.add_le_add_right OrderedMap.size_restrict_le _).trans fits.slots
  apart claimed recovers := by
    cases top.symm.trans recovers

theorem poll (fits : consumer.Fits config jobOf) (top : consumer.loop = .top) :
    (consumer.poll config).Fits config jobOf := by
  rw [JobConsumer.poll]
  split
  · exact fits.withLoop (Nat.zero_le _) (fun _ never => (by cases never))
  · have reaped := fits.reapDoneTasks top
    have room := (Nat.le_add_right _ _).trans reaped.slots
    refine ⟨reaped.active, ?_, ?_⟩
    · simp only
      split
      · exact room
      · exact Nat.le_of_eq (Nat.add_sub_cancel' room)
    · intro claimed never
      simp only at never
      split at never <;> cases never

/-- A task goes on: what is unfinished was unfinished before. -/
theorem put {phase : Phase} (fits : consumer.Fits config jobOf)
    (found : consumer.tasks[index]? = some task) (busy : task.phase ≠ .done) :
    (consumer.put index task phase).Fits config jobOf where
  active other moved there still := by
    rcases getElem?_set_cases there with ⟨rfl, rfl⟩ | ⟨-, old⟩
    · exact fits.active index task found (decide_eq_true busy)
    · exact fits.active other moved old still
  slots := fits.slots
  apart := fits.apart

theorem finish (fits : consumer.Fits config jobOf)
    (found : consumer.tasks[index]? = some task) (busy : task.phase ≠ .done) :
    (consumer.finish config index task).Fits config jobOf := by
  have moved : (consumer.put index task .done).Fits config jobOf := fits.put found busy
  rw [JobConsumer.finish]
  split
  · exact moved
  · exact ⟨moved.active, moved.slots, moved.apart⟩

theorem advance {event : TaskEvent} {seen : Nat} (fits : consumer.Fits config jobOf)
    (found : consumer.tasks[index]? = some task)
    (advanced : consumer.advance config seen index task event = some (after, effects)) :
    after.Fits config jobOf := by
  cases event with
  | looksUp key =>
      cases key with
      | none =>
          simp only [JobConsumer.advance] at advanced
          split at advanced
          · rename_i phase
            cases advanced
            exact fits.put found (by simp [phase])
          · cases advanced
      | some graphKey =>
          simp only [JobConsumer.advance] at advanced
          split at advanced
          · rename_i phase
            cases advanced
            have moved : (consumer.put index task (.waiting graphKey)).Fits config jobOf :=
              fits.put found (by simp [phase])
            exact ⟨moved.active, moved.slots, moved.apart⟩
          · cases advanced
  | acquires =>
      simp only [JobConsumer.advance] at advanced
      split at advanced
      · rename_i graphKey phase
        have busy : task.phase ≠ .done := by simp [phase]
        split at advanced
        · cases advanced
        · cases advanced
          have moved : (consumer.executeJob index task (some graphKey) seen).Fits config jobOf :=
            fits.put found busy
          exact ⟨moved.active, moved.slots, moved.apart⟩
      · cases advanced
  | returns =>
      simp only [JobConsumer.advance] at advanced
      split at advanced
      · rename_i phase
        cases advanced
        exact fits.put found (by simp [phase])
      · rename_i phase
        cases advanced
        exact fits.finish found (by simp [phase])
      · cases advanced
  | acknowledges acked =>
      simp only [JobConsumer.advance] at advanced
      split at advanced
      · rename_i phase
        cases advanced
        exact fits.finish found (by simp [phase])
      · cases advanced
  | cancels =>
      simp only [JobConsumer.advance] at advanced
      split at advanced
      · rename_i stopped
        cases advanced
        exact fits.finish found stopped.2.2
      · cases advanced

theorem step {event : ConsumerEvent} {group : ConsumerGroup}
    (fits : consumer.Fits config group.jobOf)
    (stepped : consumer.step config group.stream event = some (after, effects)) :
    after.Fits config group.jobOf := by
  cases event with
  | recovers counted sent acked =>
      simp only [JobConsumer.step] at stepped
      split at stepped
      · rename_i recovers
        obtain ⟨entry, found, same⟩ := Option.map_eq_some_iff.mp stepped
        obtain rfl : _ = after := congrArg Prod.fst same
        exact fits.recoverPending (Option.map_eq_some_iff.mpr ⟨entry, found, rfl⟩) recovers
      · cases stepped
  | polls =>
      simp only [JobConsumer.step] at stepped
      split at stepped
      · rename_i top
        cases stepped
        exact fits.poll top
      · cases stepped
  | receives count answered =>
      simp only [JobConsumer.step] at stepped
      split at stepped
      · rename_i slots reading
        split at stepped
        · rename_i few
          cases stepped
          refine fits.withLoop ?_ ?_
          · rw [reading]
            split
            · rw [Loop.slots_handle]
              exact (List.length_take_le _ _).trans few
            · exact Nat.zero_le _
          · intro claimed never
            split at never
            · exact Loop.handle_ne_recovering never
            · cases never
        · cases stepped
      · cases stepped
  | handles acked =>
      simp only [JobConsumer.step] at stepped
      split at stepped
      · rename_i handles
        obtain ⟨entry, -, same⟩ := Option.map_eq_some_iff.mp stepped
        obtain rfl : _ = after := congrArg Prod.fst same
        exact fits.handle handles
      · cases stepped
  | continues index event =>
      obtain ⟨task, found, advanced⟩ := Option.bind_eq_some_iff.mp stepped
      exact fits.advance found advanced
  | requestShutdown | dies =>
      cases stepped
      exact ⟨fits.active, fits.slots, fits.apart⟩

end Fits

end JobConsumer

namespace ConsumerGroup

variable {config : ConsumerConfig} {group next : ConsumerGroup} {event : GroupEvent}

/-- No process has more tasks for a graph than it may have. -/
def WithinGraphs (config : ConsumerConfig) (group : ConsumerGroup) : Prop :=
  ∀ consumer ∈ group.consumers, ∀ graphKey,
    (consumer.holding graphKey).length ≤ config.maxPerGraph

/-- No process has more unfinished tasks than it may have. -/
def WithinConcurrency (config : ConsumerConfig) (group : ConsumerGroup) : Prop :=
  ∀ consumer ∈ group.consumers, consumer.unfinished.length ≤ config.maxConcurrency

/-- The messages that a process takes over when it comes up are for different jobs. -/
def ClaimsApart (group : ConsumerGroup) : GroupEvent → Prop
  | .starts claimed _ => (jobsOf group.jobOf claimed).Nodup
  | .elapses _ | .dispatch _ _ | .consumer _ _ => True

instance (group : ConsumerGroup) : (event : GroupEvent) → Decidable (group.ClaimsApart event)
  | .starts claimed _ => inferInstanceAs (Decidable (jobsOf group.jobOf claimed).Nodup)
  | .elapses _ | .dispatch _ _ | .consumer _ _ => isTrue trivial

theorem step_balanced (balanced : ∀ consumer ∈ group.consumers, consumer.Balanced config)
    (stepped : group.step config event = some next) :
    ∀ consumer ∈ next.consumers, consumer.Balanced config := by
  cases event with
  | elapses ms =>
      cases stepped
      exact balanced
  | dispatch jobId trimmed =>
      simp only [step] at stepped
      split at stepped
      · cases stepped
        exact balanced
      · cases stepped
  | starts claimed answered =>
      simp only [step] at stepped
      split at stepped
      · cases stepped
        intro consumer member
        rcases List.mem_append.mp member with old | new
        · exact balanced consumer old
        · cases List.mem_singleton.mp new
          exact fun graphKey => Nat.zero_add _
      · cases stepped
  | consumer index event =>
      obtain ⟨consumer, found, stepped⟩ := Option.bind_eq_some_iff.mp stepped
      split at stepped
      · obtain ⟨⟨after, effects⟩, moved, rfl⟩ := Option.map_eq_some_iff.mp stepped
        intro other member
        rw [consumers_foldl] at member
        rcases List.mem_or_eq_of_mem_set member with old | rfl
        · exact balanced other old
        · exact (balanced consumer (List.mem_of_getElem? found)).step moved
      · cases stepped

theorem step_fits (inside : group.Inside)
    (fits : ∀ consumer ∈ group.consumers, consumer.Fits config group.jobOf)
    (apart : group.ClaimsApart event) (stepped : group.step config event = some next) :
    ∀ consumer ∈ next.consumers, consumer.Fits config next.jobOf := by
  cases event with
  | elapses ms =>
      cases stepped
      exact fits
  | dispatch jobId trimmed =>
      simp only [step] at stepped
      split at stepped
      · cases stepped
        intro consumer member
        have old := fits consumer member
        refine ⟨old.active, old.slots, ?_⟩
        intro claimed recovers
        rw [jobsOf_old]
        · exact old.apart claimed recovers
        · intro msgId hand
          refine inside consumer member msgId ?_
          rw [recovers]
          exact hand
      · cases stepped
  | starts claimed answered =>
      simp only [step] at stepped
      split at stepped
      · rename_i claims
        cases stepped
        have same : ConsumerGroup.jobOf { group with
            stream := group.deliver claimed
            consumers := group.consumers ++
              [JobConsumer.create (if answered = true then .recover claimed else .top)] } =
            group.jobOf := funext fun _ => jobOf_deliver
        rw [same]
        intro consumer member
        rcases List.mem_append.mp member with old | new
        · exact fits consumer old
        · cases List.mem_singleton.mp new
          refine ⟨fun _ _ found => (by cases found), ?_, ?_⟩
          · have few : (if answered = true then Loop.recover claimed else .top).slots ≤
                config.maxConcurrency := by
              split
              · exact (Loop.slots_recover claimed).trans_le claims.2.1
              · exact Nat.zero_le _
            exact (Nat.zero_add _).trans_le few
          · intro others recovers
            dsimp only [JobConsumer.create] at recovers
            split at recovers
            · obtain rfl := Loop.recover_eq recovers
              exact ⟨apart, fun _ _ => rfl⟩
            · cases recovers
      · cases stepped
  | consumer index event =>
      obtain ⟨consumer, found, stepped⟩ := Option.bind_eq_some_iff.mp stepped
      split at stepped
      · obtain ⟨⟨after, effects⟩, moved, rfl⟩ := Option.map_eq_some_iff.mp stepped
        have same : (effects.foldl apply
            { group with consumers := group.consumers.set index after }).jobOf = group.jobOf :=
          funext fun _ => jobOf_foldl
        rw [same]
        intro other member
        rw [consumers_foldl] at member
        rcases List.mem_or_eq_of_mem_set member with old | rfl
        · exact fits other old
        · exact (fits consumer (List.mem_of_getElem? found)).step moved
      · cases stepped

/-- However many processes come and go, none has more tasks for a graph than it may have, and none
has more tasks in all, as long as what it takes over is for different jobs. -/
theorem limits_kept (config : ConsumerConfig) (events : List GroupEvent) :
    Always (step config) (WithinGraphs config) .empty events ∧
      (Meets (step config) ClaimsApart .empty events →
        Always (step config) (WithinConcurrency config) .empty events) := by
  constructor
  · refine always_of_meets (fun group => ∀ consumer ∈ group.consumers, consumer.Balanced config)
      (fun group event next balanced _ stepped => step_balanced balanced stepped) ?_ ?_
      (@meets_of_forall _ _ _ (fun _ _ => True) _ _ fun _ _ _ => trivial)
    · intro group balanced consumer member graphKey
      exact Nat.le.intro (balanced consumer member graphKey)
    · intro consumer member
      cases member
  · intro apart
    refine always_of_meets (fun group => group.Inside ∧
      ∀ consumer ∈ group.consumers, consumer.Fits config group.jobOf) ?_ ?_ ⟨?_, ?_⟩ apart
    · intro group event next kept apart stepped
      exact ⟨step_inside kept.1 stepped, step_fits kept.1 kept.2 apart stepped⟩
    · intro group kept consumer member
      exact (kept.2 consumer member).length_unfinished
    all_goals
      intro consumer member
      cases member

theorem takenOver_within_limits :
    Always (step ⟨2, 1⟩) (WithinConcurrency ⟨2, 1⟩) .empty takenOver :=
  (limits_kept ⟨2, 1⟩ takenOver).2 (by decide +kernel)

-- Two messages for one job are taken over as two tasks, of which only one is counted.
example : (run (step ⟨2, 1⟩) .empty [.dispatch "agg_1" 0, .dispatch "agg_1" 0, .dispatch "agg_2" 0,
      .starts [] true, .consumer 0 .polls, .consumer 0 (.receives 2 true), .consumer 0 .dies,
      .elapses 60000, .starts [0, 1] true, .consumer 1 (.recovers true true true),
      .consumer 1 (.recovers true true true), .consumer 1 .polls, .consumer 1 (.receives 1 true),
      .consumer 1 (.handles true)]).map
    (fun group => group.consumers.map fun consumer => consumer.unfinished.length) =
      some [0, 3] := by
  decide +kernel

end ConsumerGroup

end Univiz.Aggregation.Consumers
