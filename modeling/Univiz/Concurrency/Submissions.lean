import Univiz.Concurrency.BoundedQueue

namespace Univiz.Concurrency

open Univiz.Data

/-! What becomes of the tasks that are submitted to a bounded queue. -/

/-- What a promise is settled with in a state of its task. -/
def TaskState.outcome : TaskState → Option Outcome
  | .pending | .running => none
  | .ended outcome => some outcome
  | .abandoned => some .fulfilled

def Frame.task? : Frame → Option Nat
  | .task id => some id
  | .drain | .submit _ _ => none

def Frame.submits? : Frame → Option Nat
  | .submit _ id => some id
  | .drain | .task _ => none

namespace BoundedQueue

/-- The task of a number has a property. -/
def Has (queue : BoundedQueue) (id : Nat) (property : Task → Prop) : Prop :=
  ∃ task, queue.tasks[id]? = some task ∧ property task

def runningCount (queue : BoundedQueue) : Nat := (queue.tasks.filter Task.running).length

/-- No more tasks run than may, they are started in the order of their submission and once
each, only a full queue has a task wait, so that all have run or were abandoned when none runs,
and every promise is settled with its task.  A submit of a key that has no unfinished task has
a task of its own. -/
structure Correct (queue : BoundedQueue) : Prop where
  limited : queue.runningCount ≤ queue.limit
  ordered : queue.starts.Pairwise (· < ·)
  started : ∀ id, id ∈ queue.starts ↔ queue.Has id fun task => task.started
  waiting : ∀ id, queue.Has id (fun task => task.state = .pending) →
    id ∈ queue.pending ∧ queue.runningCount = queue.limit
  quiescent : queue.runningCount = 0 → ∀ task ∈ queue.tasks,
    task.started ∨ task.state = .abandoned
  settled : ∀ task ∈ queue.tasks, task.promise = task.state.outcome
  own : ∀ key, (∀ task ∈ queue.tasks, task.key = key → task.unfinished = false) →
    queue.submitted key = queue.tasks.length ∧
      (queue.submit key).Has queue.tasks.length fun task => task.key = key ∧ task.unfinished

/-- A task that throws before its first `await` has not been started by its own `submit`. -/
def Registered (queue : BoundedQueue) : Event → Prop
  | .throws =>
      match queue.stack with
      | .task id :: rest => some id ∉ rest.map Frame.submits?
      | _ => True
  | _ => True

instance (queue : BoundedQueue) (event : Event) : Decidable (queue.Registered event) := by
  unfold Registered
  split
  · split <;> infer_instance
  · infer_instance

variable {queue : BoundedQueue} {id other : Nat} {key : String} {task : Task}
  {property : Task → Prop}

theorem Has.imp {property' : Task → Prop} (has : queue.Has id property)
    (implies : ∀ task, property task → property' task) : queue.Has id property' := by
  obtain ⟨task, found, holds⟩ := has
  exact ⟨task, found, implies task holds⟩

theorem has_of_lookup (found : queue.tasks[id]? = some task) :
    queue.Has id property ↔ property task := by
  simp [Has, found]

theorem has_modify {change : Task → Task} (found : queue.tasks[id]? = some task)
    {next : BoundedQueue} (changed : next.tasks = queue.tasks.modify id change) :
    next.Has other property ↔ if id = other then property (change task)
      else queue.Has other property := by
  simp only [Has, changed, List.getElem?_modify]
  by_cases here : id = other
  · subst here
    simp [found]
  · simp [here]

theorem runningCount_modify {change : Task → Task} (found : queue.tasks[id]? = some task)
    {next : BoundedQueue} (changed : next.tasks = queue.tasks.modify id change) :
    next.runningCount + (if task.running then 1 else 0) =
      queue.runningCount + if (change task).running then 1 else 0 := by
  rw [runningCount, runningCount, changed, modify_of_lookup found]
  exact length_filter_set found

theorem mem_modify {change : Task → Task} (found : queue.tasks[id]? = some task) {after : Task}
    (member : after ∈ queue.tasks.modify id change) :
    after ∈ queue.tasks ∨ after = change task := by
  rw [modify_of_lookup found] at member
  exact List.mem_or_eq_of_mem_set member

structure Sound (queue : BoundedQueue) : Prop where
  positive : 1 ≤ queue.limit
  counted : queue.active = queue.runningCount
  ordered : (queue.starts ++ queue.pending).Pairwise (· < ·)
  started : ∀ id, id ∈ queue.starts ↔ queue.Has id fun task => task.started
  waiting : ∀ id, id ∈ queue.pending ↔ queue.Has id fun task => task.state = .pending
  settled : ∀ task ∈ queue.tasks, task.promise = task.state.outcome
  inflight : ∀ key id, queue.inflight.get key = some id →
    queue.Has id fun task => task.key = key ∧ task.unfinished
  entries : ∀ key id, queue.entries.get key = some id →
    queue.Has id fun task => task.key = key ∧ task.unfinished

/-- What has not returned yet belongs to tasks that run. -/
structure Framed (queue : BoundedQueue) (frames : List Frame) : Prop where
  submits : ∀ key id, .submit key id ∈ frames →
    queue.Has id fun task => task.key = key ∧ task.running
  tasks : ∀ id, .task id ∈ frames → queue.Has id fun task => task.running
  once : (frames.filterMap Frame.task?).Nodup

/-- Code of a user runs, and only a full queue has a task wait. -/
structure Settled (queue : BoundedQueue) : Prop where
  sound : queue.Sound
  framed : queue.Framed queue.stack
  limited : queue.active ≤ queue.limit
  full : queue.pending ≠ [] → queue.active = queue.limit
  paused : queue.stack = [] ∨ ∃ id rest, queue.stack = .task id :: rest

theorem Sound.lt_length (sound : queue.Sound) (listed : id ∈ queue.starts ++ queue.pending) :
    id < queue.tasks.length := by
  have has : queue.Has id fun _ => True := by
    rcases List.mem_append.mp listed with started | waiting
    · exact ((sound.started id).mp started).imp fun _ _ => trivial
    · exact ((sound.waiting id).mp waiting).imp fun _ _ => trivial
  obtain ⟨task, found, _⟩ := has
  exact (List.getElem?_eq_some_iff.mp found).1

theorem has_enqueue : (queue.enqueue key).Has id property ↔
    queue.Has id property ∨ id = queue.tasks.length ∧ property ⟨key, .pending, false, none⟩ := by
  simp only [Has, enqueue]
  rcases Nat.lt_trichotomy id queue.tasks.length with old | here | beyond
  · rw [List.getElem?_append_left old]
    simp [Nat.ne_of_lt old]
  · subst here
    simp
  · have none : (queue.tasks ++ [⟨key, .pending, false, none⟩])[id]? = none :=
      List.getElem?_eq_none (by simp; omega)
    have none' : queue.tasks[id]? = Option.none := List.getElem?_eq_none (Nat.le_of_lt beyond)
    rw [none, none']
    simp [Nat.ne_of_gt beyond]

theorem runningCount_enqueue : (queue.enqueue key).runningCount = queue.runningCount := by
  simp [runningCount, enqueue, Task.running]

theorem Sound.enqueue (sound : queue.Sound) (key : String) : (queue.enqueue key).Sound where
  positive := sound.positive
  counted := by
    rw [runningCount_enqueue]
    exact sound.counted
  ordered := by
    have same : (queue.enqueue key).starts ++ (queue.enqueue key).pending =
        (queue.starts ++ queue.pending) ++ [queue.tasks.length] :=
      (List.append_assoc _ _ _).symm
    rw [same]
    refine List.pairwise_append.mpr ⟨sound.ordered, List.pairwise_singleton _ _, ?_⟩
    intro id listed new isNew
    cases List.mem_singleton.mp isNew
    exact sound.lt_length listed
  started := by
    intro id
    rw [has_enqueue]
    simp [Task.started, BoundedQueue.enqueue, sound.started]
  waiting := by
    intro id
    rw [has_enqueue]
    simp [BoundedQueue.enqueue, sound.waiting]
  settled := by
    intro task member
    rcases List.mem_append.mp member with old | new
    · exact sound.settled task old
    · cases List.mem_singleton.mp new
      rfl
  inflight := by
    intro other id found
    exact has_enqueue.mpr (.inl (sound.inflight other id found))
  entries := by
    intro other id found
    rw [has_enqueue]
    simp only [BoundedQueue.enqueue, OrderedMap.get_set] at found
    split at found
    · rename_i same
      cases found
      exact .inr ⟨rfl, same, by simp [Task.unfinished]⟩
    · exact .inl (sound.entries other id found)

theorem Sound.register (sound : queue.Sound)
    (unfinished : queue.Has id fun task => task.key = key ∧ task.unfinished) :
    Sound { queue with inflight := queue.inflight.set key id } where
  positive := sound.positive
  counted := sound.counted
  ordered := sound.ordered
  started := sound.started
  waiting := sound.waiting
  settled := sound.settled
  inflight := by
    intro other id found
    simp only [OrderedMap.get_set] at found
    split at found
    · rename_i same
      cases found
      exact same ▸ unfinished
    · exact sound.inflight other id found
  entries := sound.entries

theorem has_abort (found : queue.tasks[id]? = some task)
    (same : ∀ task : Task, property { task with aborted := true } ↔ property task) :
    (queue.abort id).Has other property ↔ queue.Has other property := by
  rw [has_modify found rfl]
  split
  · rename_i here
    subst here
    rw [same, has_of_lookup found]
  · exact Iff.rfl

theorem Sound.abort (sound : queue.Sound) (found : queue.tasks[id]? = some task) :
    (queue.abort id).Sound where
  positive := sound.positive
  counted := by
    have count : (queue.abort id).runningCount + _ = queue.runningCount + _ :=
      runningCount_modify found rfl
    rw [Nat.add_right_cancel count]
    exact sound.counted
  ordered := sound.ordered
  started := by
    intro other
    rw [has_abort found fun _ => Iff.rfl]
    exact sound.started other
  waiting := by
    intro other
    rw [has_abort found fun _ => Iff.rfl]
    exact sound.waiting other
  settled := by
    intro after member
    rcases mem_modify found member with old | rfl
    · exact sound.settled after old
    · exact sound.settled task (List.mem_of_getElem? found)
  inflight := by
    intro key other listed
    rw [has_abort found fun _ => Iff.rfl]
    exact sound.inflight key other listed
  entries := by
    intro key other listed
    rw [has_abort found fun _ => Iff.rfl]
    exact sound.entries key other listed

/-- What the maps say of other keys stays true when a task is done with. -/
theorem unfinished_of_erase {map : OrderedMap String Nat} {next : BoundedQueue}
    {change : Task → Task} (found : queue.tasks[id]? = some task)
    (changed : next.tasks = queue.tasks.modify id change)
    (unfinished : ∀ key id, map.get key = some id →
      queue.Has id fun task => task.key = key ∧ task.unfinished)
    (listed : (map.erase task.key).get key = some other) :
    next.Has other fun task => task.key = key ∧ task.unfinished := by
  rw [OrderedMap.get_erase] at listed
  split at listed
  · cases listed
  · rename_i apart
    have before := unfinished key other listed
    rw [has_modify found changed, if_neg]
    · exact before
    · intro here
      subst here
      exact apart ((has_of_lookup found).mp before).1

theorem Sound.abandonPending (sound : queue.Sound) (found : queue.tasks[id]? = some task)
    (pending : task.state = .pending) : (queue.abandonPending id task.key).Sound where
  positive := sound.positive
  counted := by
    have count : (queue.abandonPending id task.key).runningCount + _ = queue.runningCount + _ :=
      runningCount_modify found rfl
    simp only [Task.running, Task.settle, pending] at count
    have same : (queue.abandonPending id task.key).runningCount = queue.runningCount := by
      simpa using count
    rw [same]
    exact sound.counted
  ordered := by
    have kept : (queue.pending.erase id).Sublist queue.pending := List.erase_sublist
    exact sound.ordered.sublist ((List.Sublist.refl _).append kept)
  started := by
    intro other
    rw [has_modify found rfl]
    have before := sound.started other
    split
    · rename_i here
      subst here
      rw [has_of_lookup found] at before
      simp only [Task.started, pending] at before
      simpa [BoundedQueue.abandonPending, Task.settle, Task.started] using before
    · exact before
  waiting := by
    intro other
    rw [has_modify found rfl]
    have distinct : queue.pending.Nodup :=
      (List.pairwise_append.mp sound.ordered).2.1.imp fun less => Nat.ne_of_lt less
    have erased : other ∈ queue.pending.erase id ↔ other ≠ id ∧ other ∈ queue.pending :=
      distinct.mem_erase_iff
    split
    · rename_i here
      subst here
      simp [BoundedQueue.abandonPending, erased, Task.settle]
    · rename_i apart
      rw [← sound.waiting other]
      exact erased.trans (and_iff_right (Ne.symm apart))
  settled := by
    intro after member
    rcases mem_modify found member with old | rfl
    · exact sound.settled after old
    · have unsettled := sound.settled task (List.mem_of_getElem? found)
      rw [pending] at unsettled
      simp [Task.settle, unsettled, TaskState.outcome]
  inflight := by
    intro key other listed
    exact unfinished_of_erase found rfl sound.inflight listed
  entries := by
    intro key other listed
    exact unfinished_of_erase found rfl sound.entries listed

theorem Sound.complete (sound : queue.Sound) (found : queue.tasks[id]? = some task)
    (running : task.state = .running) (outcome : Outcome) :
    (queue.complete id task.key outcome).Sound where
  positive := sound.positive
  counted := by
    have count : (queue.complete id task.key outcome).runningCount + _ = queue.runningCount + _ :=
      runningCount_modify found rfl
    have before := sound.counted
    simp only [Task.running, Task.settle, running, decide_true, ↓reduceIte, reduceCtorEq,
      decide_false, Bool.false_eq_true, Nat.add_zero] at count
    simp only [BoundedQueue.complete]
    simp only [BoundedQueue.complete] at count
    omega
  ordered := sound.ordered
  started := by
    intro other
    rw [has_modify found rfl]
    have before := sound.started other
    split
    · rename_i here
      subst here
      rw [has_of_lookup found] at before
      simp only [Task.started, running] at before
      simpa [BoundedQueue.complete, Task.settle, Task.started] using before
    · exact before
  waiting := by
    intro other
    rw [has_modify found rfl]
    have before := sound.waiting other
    split
    · rename_i here
      subst here
      rw [has_of_lookup found, running] at before
      simpa [BoundedQueue.complete, Task.settle] using before
    · exact before
  settled := by
    intro after member
    rcases mem_modify found member with old | rfl
    · exact sound.settled after old
    · have unsettled := sound.settled task (List.mem_of_getElem? found)
      rw [running] at unsettled
      simp [Task.settle, unsettled, TaskState.outcome]
  inflight := by
    intro key other listed
    exact unfinished_of_erase found rfl sound.inflight listed
  entries := by
    intro key other listed
    exact unfinished_of_erase found rfl sound.entries listed

theorem has_start_of_unfinished {next : Nat} {later : List Nat} {rest : List Frame}
    (unfinished : queue.Has id fun task => task.key = key ∧ task.unfinished) :
    (queue.start next later rest).Has id fun task => task.key = key ∧ task.unfinished := by
  obtain ⟨task, found, own, _⟩ := unfinished
  simp only [Has, start, List.getElem?_modify, found]
  split
  · exact ⟨_, rfl, own, by simp [Task.unfinished]⟩
  · exact ⟨task, rfl, own, ‹_›⟩

theorem Sound.start (sound : queue.Sound) {later : List Nat} (rest : List Frame)
    (pending : queue.pending = id :: later) (found : queue.tasks[id]? = some task)
    (waiting : task.state = .pending) : (queue.start id later rest).Sound where
  positive := sound.positive
  counted := by
    have count : (queue.start id later rest).runningCount + _ = queue.runningCount + _ :=
      runningCount_modify found rfl
    have before := sound.counted
    simp only [Task.running, waiting, decide_true, ↓reduceIte, reduceCtorEq, decide_false,
      Bool.false_eq_true, Nat.add_zero] at count
    simp only [BoundedQueue.start]
    simp only [BoundedQueue.start] at count
    omega
  ordered := by
    have same : (queue.start id later rest).starts ++ (queue.start id later rest).pending =
        queue.starts ++ queue.pending := by
      rw [pending]
      exact List.append_assoc _ _ _
    rw [same]
    exact sound.ordered
  started := by
    intro other
    rw [has_modify found rfl]
    have before := sound.started other
    split
    · rename_i here
      subst here
      simp [BoundedQueue.start, Task.started]
    · rename_i apart
      rw [← before]
      simp [BoundedQueue.start, Ne.symm apart]
  waiting := by
    intro other
    rw [has_modify found rfl]
    have before := sound.waiting other
    have distinct : queue.pending.Nodup :=
      (List.pairwise_append.mp sound.ordered).2.1.imp fun less => Nat.ne_of_lt less
    rw [pending] at before distinct
    split
    · rename_i here
      subst here
      simp [BoundedQueue.start, (List.nodup_cons.mp distinct).1]
    · rename_i apart
      rw [← before]
      simp [BoundedQueue.start, Ne.symm apart]
  settled := by
    intro after member
    rcases mem_modify found member with old | rfl
    · exact sound.settled after old
    · have unsettled := sound.settled task (List.mem_of_getElem? found)
      rw [waiting] at unsettled
      exact unsettled
  inflight := by
    intro key other listed
    exact has_start_of_unfinished (sound.inflight key other listed)
  entries := by
    intro key other listed
    exact has_start_of_unfinished (sound.entries key other listed)

theorem resume_drain_start {next : Nat} {later : List Nat} {rest : List Frame}
    (pending : queue.pending = next :: later) (room : queue.active < queue.limit) :
    queue.resume (.drain :: rest) = queue.start next later (.drain :: rest) := by
  rw [resume, pending]
  exact if_pos room

theorem resume_drain_pass {rest : List Frame} (full : queue.pending ≠ [] →
    queue.active = queue.limit) : queue.resume (.drain :: rest) = queue.resume rest := by
  rw [resume]
  split
  · rename_i pending
    have isFull := full (pending ▸ List.cons_ne_nil _ _)
    exact if_neg (by omega)
  · rfl

theorem unfinished_of_running {task : Task} (running : task.running = true) :
    task.unfinished = true := by
  simp only [Task.running, decide_eq_true_eq] at running
  simp [Task.unfinished, running]

theorem Framed.tail {frame : Frame} {frames : List Frame} (framed : queue.Framed (frame :: frames)) :
    queue.Framed frames where
  submits := fun key id member => framed.submits key id (List.mem_cons_of_mem _ member)
  tasks := fun id member => framed.tasks id (List.mem_cons_of_mem _ member)
  once := by
    have once := framed.once
    rw [List.filterMap_cons] at once
    split at once
    · exact once
    · exact (List.nodup_cons.mp once).2

/-- A task that does not run has nothing to return to. -/
theorem Framed.apart {frames : List Frame} (framed : queue.Framed frames)
    (found : queue.tasks[id]? = some task) (idle : task.running = false) :
    (∀ key, .submit key id ∉ frames) ∧ .task id ∉ frames := by
  refine ⟨?_, ?_⟩
  · intro key member
    have running := (has_of_lookup found).mp (framed.submits key id member)
    rw [idle] at running
    exact Bool.false_ne_true running.2
  · intro member
    have running := (has_of_lookup found).mp (framed.tasks id member)
    rw [idle] at running
    exact Bool.false_ne_true running

theorem Framed.modify {frames : List Frame} {next : BoundedQueue} {change : Task → Task}
    (framed : queue.Framed frames) (found : queue.tasks[id]? = some task)
    (changed : next.tasks = queue.tasks.modify id change)
    (apart : (∀ key, .submit key id ∉ frames) ∧ .task id ∉ frames) : next.Framed frames where
  submits := by
    intro key other member
    rw [has_modify found changed, if_neg]
    · exact framed.submits key other member
    · intro here
      subst here
      exact apart.1 key member
  tasks := by
    intro other member
    rw [has_modify found changed, if_neg]
    · exact framed.tasks other member
    · intro here
      subst here
      exact apart.2 member
  once := framed.once

theorem paused_settled {frames : List Frame} (sound : queue.Sound) (framed : queue.Framed frames)
    (limited : queue.active ≤ queue.limit)
    (full : queue.pending ≠ [] → queue.active = queue.limit)
    (paused : frames = [] ∨ ∃ id rest, frames = .task id :: rest) :
    Settled { queue with stack := frames } where
  sound := {
    positive := sound.positive
    counted := sound.counted
    ordered := sound.ordered
    started := sound.started
    waiting := sound.waiting
    settled := sound.settled
    inflight := sound.inflight
    entries := sound.entries }
  framed := ⟨framed.submits, framed.tasks, framed.once⟩
  limited := limited
  full := full
  paused := paused

/-- Where only a full queue has a task wait, the loops that are returned to start nothing. -/
theorem resume_settled {frames : List Frame} (sound : queue.Sound) (framed : queue.Framed frames)
    (limited : queue.active ≤ queue.limit)
    (full : queue.pending ≠ [] → queue.active = queue.limit) : (queue.resume frames).Settled := by
  induction frames generalizing queue with
  | nil => exact paused_settled sound framed limited full (.inl rfl)
  | cons frame rest ih =>
      cases frame with
      | drain =>
          rw [resume_drain_pass full]
          exact ih sound framed.tail limited full
      | submit key id =>
          have running := framed.submits key id List.mem_cons_self
          have unfinished := running.imp fun task both =>
            And.intro both.1 (unfinished_of_running both.2)
          have tail := framed.tail
          exact ih (sound.register unfinished) ⟨tail.submits, tail.tasks, tail.once⟩ limited full
      | task id => exact paused_settled sound framed limited full (.inr ⟨id, rest, rfl⟩)

/-- A task that is started runs before anything is returned to. -/
theorem start_settled {later : List Nat} {rest frames : List Frame} (sound : queue.Sound)
    (framed : queue.Framed rest) (pending : queue.pending = id :: later)
    (room : queue.active < queue.limit)
    (full : later ≠ [] → queue.active + 1 = queue.limit)
    (found : queue.tasks[id]? = some task)
    (submits : ∀ key other, .submit key other ∈ frames →
      .submit key other ∈ rest ∨ task.key = key ∧ other = id)
    (tasks : frames.filterMap Frame.task? = rest.filterMap Frame.task?) :
    (queue.start id later frames).Settled := by
  have waiting : task.state = .pending := by
    have listed : id ∈ queue.pending := pending ▸ List.mem_cons_self
    exact (has_of_lookup found).mp ((sound.waiting id).mp listed)
  have apart := framed.apart found (by simp [Task.running, waiting])
  have framed' : (queue.start id later frames).Framed rest := framed.modify found rfl apart
  have mem_tasks {frames : List Frame} {other : Nat} :
      .task other ∈ frames ↔ other ∈ frames.filterMap Frame.task? := by
    rw [List.mem_filterMap]
    refine ⟨fun member => ⟨_, member, rfl⟩, ?_⟩
    rintro ⟨frame, member, same⟩
    cases frame with
    | task id => exact Option.some.inj same ▸ member
    | drain => cases same
    | submit key id => cases same
  refine ⟨sound.start frames pending found waiting, ⟨?_, ?_, ?_⟩, ?_, full, .inr ⟨id, frames, rfl⟩⟩
  · intro key other member
    rcases List.mem_cons.mp member with same | member
    · cases same
    · rcases submits key other member with old | ⟨own, rfl⟩
      · exact framed'.submits key other old
      · rw [has_modify found rfl, if_pos rfl]
        exact ⟨own, by simp [Task.running]⟩
  · intro other member
    rcases List.mem_cons.mp member with same | member
    · cases same
      rw [has_modify found rfl, if_pos rfl]
      simp [Task.running]
    · exact framed'.tasks other (mem_tasks.mpr (tasks ▸ mem_tasks.mp member))
  · refine List.nodup_cons.mpr ⟨?_, ?_⟩
    · rw [tasks]
      exact fun member => apart.2 (mem_tasks.mpr member)
    · rw [tasks]
      exact framed.once
  · exact room

/-- A slot is free, and for no more than one of the tasks that wait. -/
theorem drain_settled {rest : List Frame} (sound : queue.Sound) (framed : queue.Framed rest)
    (room : queue.active < queue.limit)
    (full : queue.pending ≠ [] → queue.active + 1 = queue.limit) :
    (queue.resume (.drain :: rest)).Settled := by
  cases pending : queue.pending with
  | nil =>
      have idle : queue.pending ≠ [] → queue.active = queue.limit := fun some => absurd pending some
      rw [resume_drain_pass idle]
      exact resume_settled sound framed (Int.le_of_lt room) idle
  | cons next later =>
      rw [resume_drain_start pending room]
      have listed : next ∈ queue.pending := pending ▸ List.mem_cons_self
      obtain ⟨task, found, _⟩ := (sound.waiting next).mp listed
      refine start_settled sound framed pending room (fun _ => full ?_) found ?_ ?_
      · rw [pending]
        exact List.cons_ne_nil _ _
      · intro key other member
        rcases List.mem_cons.mp member with same | old
        · cases same
        · exact .inl old
      · rfl

theorem submit_settled (settled : queue.Settled) (key : String) : (queue.submit key).Settled := by
  unfold submit
  split
  · exact settled
  · have sound := settled.sound.enqueue key
    have framed : (queue.enqueue key).Framed queue.stack :=
      ⟨fun key id member => has_enqueue.mpr (.inl (settled.framed.submits key id member)),
        fun id member => has_enqueue.mpr (.inl (settled.framed.tasks id member)),
        settled.framed.once⟩
    have found : (queue.enqueue key).tasks[queue.tasks.length]? =
        some ⟨key, .pending, false, none⟩ := List.getElem?_concat_length
    by_cases room : queue.active < queue.limit
    · have none : queue.pending = [] := by
        by_contra some
        have full := settled.full some
        omega
      have pending : (queue.enqueue key).pending = [queue.tasks.length] := by
        simp [enqueue, none]
      rw [resume_drain_start pending room]
      refine start_settled sound framed pending room (fun some => absurd rfl some) found ?_ rfl
      intro other id member
      simp only [List.mem_cons, reduceCtorEq, false_or, Frame.submit.injEq] at member
      rcases member with ⟨rfl, rfl⟩ | old
      · exact .inr ⟨rfl, rfl⟩
      · exact .inl old
    · have isFull : (queue.enqueue key).active = (queue.enqueue key).limit :=
        Int.le_antisymm settled.limited (Int.not_lt.mp room)
      rw [resume_drain_pass fun _ => isFull, resume]
      have unfinished : (queue.enqueue key).Has queue.tasks.length fun task =>
          task.key = key ∧ task.unfinished := ⟨_, found, rfl, rfl⟩
      exact resume_settled (sound.register unfinished) ⟨framed.submits, framed.tasks, framed.once⟩
        settled.limited fun _ => isFull

/-- A slot becomes free, for the first of the tasks that wait. -/
theorem complete_settled (settled : queue.Settled) {rest : List Frame} (outcome : Outcome)
    (framed : queue.Framed rest) (found : queue.tasks[id]? = some task)
    (running : task.state = .running)
    (apart : (∀ key, .submit key id ∉ rest) ∧ .task id ∉ rest) :
    ((queue.complete id task.key outcome).resume (.drain :: rest)).Settled := by
  have limited := settled.limited
  refine drain_settled (settled.sound.complete found running outcome)
    (framed.modify found rfl apart) ?_ ?_
  · simp only [complete]
    omega
  · intro some
    have full := settled.full some
    simp only [complete]
    omega

theorem abort_settled (settled : queue.Settled) (found : queue.tasks[id]? = some task) :
    (queue.abort id).Settled where
  sound := settled.sound.abort found
  framed := {
    submits := by
      intro key other member
      rw [has_abort found fun _ => Iff.rfl]
      exact settled.framed.submits key other member
    tasks := by
      intro other member
      rw [has_abort found fun _ => Iff.rfl]
      exact settled.framed.tasks other member
    once := settled.framed.once }
  limited := settled.limited
  full := settled.full
  paused := settled.paused

theorem abandonPending_settled (settled : queue.Settled) (found : queue.tasks[id]? = some task)
    (pending : task.state = .pending) : (queue.abandonPending id task.key).Settled where
  sound := settled.sound.abandonPending found pending
  framed := settled.framed.modify found rfl
    (settled.framed.apart found (by simp [Task.running, pending]))
  limited := settled.limited
  full := by
    intro some
    refine settled.full fun none => some ?_
    simp [abandonPending, none]
  paused := settled.paused

theorem cancel_settled (settled : queue.Settled) (key : String) : (queue.cancel key).Settled := by
  unfold cancel
  split
  · exact settled
  · rename_i id listed
    split
    · exact settled
    · rename_i task found
      have aborted := abort_settled settled found
      split
      · exact aborted
      · rename_i still
        have unfinished :=
          ((has_of_lookup found).mp (settled.sound.entries key id listed)).2
        have pending : task.state = .pending := by
          cases state : task.state with
          | pending => rfl
          | running => simp [Task.started, state] at still
          | ended outcome => simp [Task.unfinished, state] at unfinished
          | abandoned => simp [Task.unfinished, state] at unfinished
        have found' : (queue.abort id).tasks[id]? = some { task with aborted := true } := by
          simp [abort, found]
        have abandoned := abandonPending_settled aborted found' pending
        exact abandoned

theorem cancelAll_settled (settled : queue.Settled) : queue.cancelAll.Settled := by
  have each (keys : List String) : ∀ queue : BoundedQueue, queue.Settled →
      (keys.foldl cancel queue).Settled := by
    induction keys with
    | nil => exact fun _ settled => settled
    | cons key rest ih => exact fun queue settled => ih _ (cancel_settled settled key)
  exact each _ queue settled

theorem step_settled {event : Event} {next : BoundedQueue} (settled : queue.Settled)
    (registered : queue.Registered event) (stepped : queue.step event = some next) :
    next.Settled := by
  cases event with
  | submit key =>
      cases stepped
      exact submit_settled settled key
  | cancel key =>
      cases stepped
      exact cancel_settled settled key
  | cancelAll =>
      cases stepped
      exact cancelAll_settled settled
  | suspend =>
      have framed := settled.framed
      simp only [step] at stepped
      split at stepped
      · rename_i id rest stack
        cases stepped
        rw [stack] at framed
        exact resume_settled settled.sound framed.tail settled.limited settled.full
      · cases stepped
  | throws =>
      have framed := settled.framed
      simp only [step, Registered] at stepped registered
      split at stepped
      · rename_i id rest stack
        rw [stack] at framed registered
        obtain ⟨task, found, rfl⟩ := Option.map_eq_some_iff.mp stepped
        have running := (has_of_lookup found).mp (framed.tasks id List.mem_cons_self)
        have once := (List.nodup_cons.mp framed.once).1
        refine complete_settled settled .rejected framed.tail found (of_decide_eq_true running) ⟨?_, ?_⟩
        · intro key member
          exact registered (List.mem_map.mpr ⟨_, member, rfl⟩)
        · intro member
          exact once (List.mem_filterMap.mpr ⟨_, member, rfl⟩)
      · cases stepped
  | settle id outcome =>
      simp only [step] at stepped
      split at stepped
      · rename_i task stack found
        split at stepped
        · rename_i running
          cases stepped
          have empty : queue.Framed [] :=
            ⟨fun _ _ => (absurd · List.not_mem_nil), fun _ => (absurd · List.not_mem_nil),
              List.nodup_nil⟩
          exact complete_settled settled outcome empty found (of_decide_eq_true running)
            ⟨fun _ => List.not_mem_nil, List.not_mem_nil⟩
        · cases stepped
      · cases stepped

theorem create_settled (limit : Int) : (create limit).Settled where
  sound := {
    positive := Int.le_max_left 1 limit
    counted := rfl
    ordered := .nil
    started := by simp [create, Has]
    waiting := by simp [create, Has]
    settled := nofun
    inflight := nofun
    entries := nofun }
  framed := ⟨nofun, nofun, List.nodup_nil⟩
  limited := by
    simp only [create]
    omega
  full := fun some => absurd rfl some
  paused := .inl rfl

theorem has_resume_of_unfinished {frames : List Frame}
    (unfinished : queue.Has id fun task => task.key = key ∧ task.unfinished) :
    (queue.resume frames).Has id fun task => task.key = key ∧ task.unfinished := by
  induction frames generalizing queue with
  | nil => exact unfinished
  | cons frame rest ih =>
      cases frame with
      | drain =>
          rw [resume]
          split
          · split
            · exact has_start_of_unfinished unfinished
            · exact ih unfinished
          · exact ih unfinished
      | submit other task =>
          exact @ih { queue with inflight := queue.inflight.set other task } unfinished
      | task id => exact unfinished

theorem waiting_full (settled : queue.Settled)
    (pending : queue.Has id fun task => task.state = .pending) :
    id ∈ queue.pending ∧ queue.runningCount = queue.limit := by
  have listed := (settled.sound.waiting id).mpr pending
  have full := settled.full (List.ne_nil_of_mem listed)
  exact ⟨listed, settled.sound.counted ▸ full⟩

theorem inflight_free (settled : queue.Settled)
    (finished : ∀ task ∈ queue.tasks, task.key = key → task.unfinished = false) :
    queue.inflight.get key = none := by
  cases listed : queue.inflight.get key with
  | none => rfl
  | some id =>
      obtain ⟨task, found, own, unfinished⟩ := settled.sound.inflight key id listed
      rw [finished task (List.mem_of_getElem? found) own] at unfinished
      cases unfinished

theorem correct_of_settled (settled : queue.Settled) : queue.Correct where
  limited := settled.sound.counted ▸ settled.limited
  ordered := (List.pairwise_append.mp settled.sound.ordered).1
  started := settled.sound.started
  waiting := fun id pending => waiting_full settled pending
  quiescent := by
    intro idle task member
    obtain ⟨id, found⟩ := List.mem_iff_getElem?.mp member
    cases state : task.state with
    | pending =>
        have full := (waiting_full settled ⟨task, found, state⟩).2
        have positive := settled.sound.positive
        omega
    | running => simp [Task.started, state]
    | ended outcome => simp [Task.started, state]
    | abandoned => exact .inr rfl
  settled := settled.sound.settled
  own := by
    intro key finished
    have free := inflight_free settled finished
    refine ⟨by rw [submitted, free, Option.getD_none], ?_⟩
    rw [submit, free]
    exact has_resume_of_unfinished (has_enqueue.mpr (.inr ⟨rfl, rfl, rfl⟩))

/-- The queue is right throughout every run in which no task throws before the `submit` that
starts it has returned. -/
theorem runs_correct (limit : Int) (events : List Event)
    (registered : Meets step Registered (create limit) events) :
    Always step Correct (create limit) events :=
  always_of_meets Settled (fun _ _ _ => step_settled) (fun _ => correct_of_settled)
    (create_settled limit) registered

theorem runs_correct_two_slots : Always step Correct (create 2)
    [.submit "orders", .suspend, .submit "items", .suspend, .submit "customers",
      .settle 0 .fulfilled, .throws, .submit "orders", .cancelAll, .suspend] :=
  runs_correct 2 _ (by decide)

/-- The promise of a task that throws at once is registered when the task has ended. -/
theorem thrown_at_once : ¬ Always step Correct (create 1) [.submit "orders", .throws] := by
  intro always
  have correct := (always.2 _ rfl).2 _ rfl
  have own := (correct.own "orders" (by decide)).1
  exact absurd own (by decide)

end BoundedQueue

end Univiz.Concurrency
