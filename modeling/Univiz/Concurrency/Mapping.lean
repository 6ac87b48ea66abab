import Univiz.Data.Transition

namespace Univiz.Concurrency

open Univiz.Data

/-! `mapWithConcurrency`.  Its workers take the items from one cursor. -/

/-- `called` has the items for which `fn` has been called, and `settled` how those calls have
ended.  A worker awaits the call for an item, or has returned. -/
structure Mapping (ρ : Type) where
  cursor : Nat
  results : List (Option ρ)
  workers : List (Option Nat)
  called : List Nat
  settled : List (Nat × ρ)

variable {ρ : Type}

namespace Mapping

/-- `results[idx] = ...` -/
def settle (mapping : Mapping ρ) (index : Nat) (result : ρ) : Mapping ρ :=
  { mapping with
    results := mapping.results.set index (some result)
    settled := mapping.settled ++ [(index, result)] }

def call (mapping : Mapping ρ) : Mapping ρ :=
  { mapping with
    cursor := mapping.cursor + 1
    called := mapping.called ++ [mapping.cursor] }

/-- The loop of a worker up to the call that it awaits next.  `throws` gives what `fn` throws
before it returns a promise. -/
def pull (items : Nat) (throws : Nat → Option ρ) (mapping : Mapping ρ) : Mapping ρ × Option Nat :=
  if mapping.cursor < items then
    match throws mapping.cursor with
    | some reason => pull items throws (mapping.call.settle mapping.cursor reason)
    | none => (mapping.call, some mapping.cursor)
  else ({ mapping with cursor := mapping.cursor + 1 }, none)
termination_by items - mapping.cursor
decreasing_by
  simp only [call, settle]
  omega

def startWorker (items : Nat) (throws : Nat → Option ρ) (mapping : Mapping ρ) : Mapping ρ :=
  let (mapping, awaited) := pull items throws mapping
  { mapping with workers := mapping.workers ++ [awaited] }

def cap (items limit : Nat) : Nat := max 1 (min limit items)

/-- No worker is started for no items. -/
def start (items limit : Nat) (throws : Nat → Option ρ) : Mapping ρ :=
  (startWorker items throws)^[if items = 0 then 0 else cap items limit]
    ⟨0, List.replicate items none, [], [], []⟩

structure Settles (ρ : Type) where
  worker : Nat
  result : ρ

/-- The call that a worker awaits ends, and the worker goes on. -/
def step (items : Nat) (throws : Nat → Option ρ) (mapping : Mapping ρ) (event : Settles ρ) :
    Option (Mapping ρ) :=
  mapping.workers[event.worker]?.bind fun awaited =>
    awaited.map fun index =>
      let (mapping, next) := pull items throws (mapping.settle index event.result)
      { mapping with workers := mapping.workers.set event.worker next }

/-- The promise that is returned is settled. -/
def Finished (mapping : Mapping ρ) : Prop := ∀ worker ∈ mapping.workers, worker = none

structure Sound (items limit : Nat) (mapping : Mapping ρ) : Prop where
  /-- The calls are made once each, in the order of the items, and no more than allowed at once. -/
  once : ∃ count ≤ items, mapping.called = List.range count
  bounded : mapping.workers.length ≤ cap items limit
  apart : ∀ (i j index : Nat), mapping.workers[i]? = some (some index) →
    mapping.workers[j]? = some (some index) → i = j
  /-- While there are items left, no worker has returned. -/
  busy : mapping.called.length < items → ∀ worker ∈ mapping.workers, worker ≠ none
  /-- Every result is that of its item, and is missing just as long as the call has not ended. -/
  results : ∀ index result, mapping.results[index]? = some (some result) ↔
    (index, result) ∈ mapping.settled
  pending : ∀ index < items, mapping.results[index]? = some none ↔
    index ∉ mapping.called ∨ some index ∈ mapping.workers
  finished : mapping.Finished → ∀ index < items, ∃ result,
    mapping.results[index]? = some (some result)

/-- The calls that have not ended are `awaited`. -/
structure Tracked (items : Nat) (mapping : Mapping ρ) (awaited : Nat → Prop) : Prop where
  length : mapping.results.length = items
  called : mapping.called = List.range (min mapping.cursor items)
  results : ∀ index result, mapping.results[index]? = some (some result) ↔
    (index, result) ∈ mapping.settled
  pending : ∀ index < items, mapping.results[index]? = some none ↔
    index ∉ mapping.called ∨ awaited index
  inside : ∀ index, awaited index → index ∈ mapping.called

section Workers

variable {items limit : Nat} {throws : Nat → Option ρ} {mapping : Mapping ρ}
  {awaited : Nat → Prop} {index : Nat} {result : ρ}

theorem Tracked.call (tracked : Tracked items mapping awaited) (left : mapping.cursor < items) :
    Tracked items mapping.call fun index => awaited index ∨ index = mapping.cursor where
  length := tracked.length
  called := by
    simp only [Mapping.call, tracked.called]
    rw [Nat.min_eq_left (Nat.le_of_lt left), Nat.min_eq_left left, List.range_succ]
  results := tracked.results
  pending := by
    intro index inside
    refine (tracked.pending index inside).trans ?_
    simp only [Mapping.call, List.mem_append, List.mem_singleton]
    by_cases here : index = mapping.cursor
    · have absent : index ∉ mapping.called := by
        rw [tracked.called, List.mem_range, Nat.min_eq_left (Nat.le_of_lt left), here]
        exact Nat.lt_irrefl _
      exact iff_of_true (.inl absent) (.inr (.inr here))
    · simp only [here, or_false]
  inside := by
    rintro index (before | rfl)
    · exact List.mem_append_left _ (tracked.inside index before)
    · exact List.mem_append_right _ (List.mem_singleton_self _)

theorem Tracked.settle (tracked : Tracked items mapping awaited) (awaits : awaited index) :
    Tracked items (mapping.settle index result) fun other => awaited other ∧ other ≠ index := by
  have called := tracked.inside index awaits
  have inside : index < items := by
    rw [tracked.called, List.mem_range] at called
    omega
  have empty := (tracked.pending index inside).mpr (.inr awaits)
  have bound : index < mapping.results.length := tracked.length.symm ▸ inside
  refine ⟨?_, tracked.called, ?_, ?_, fun other there => tracked.inside other there.1⟩
  · rw [Mapping.settle, List.length_set]
    exact tracked.length
  · intro other value
    simp only [Mapping.settle, List.mem_append, List.mem_singleton, Prod.mk.injEq]
    rw [List.getElem?_set]
    split
    · rename_i here
      subst here
      have unsettled : (index, value) ∉ mapping.settled := by
        intro there
        cases empty.symm.trans ((tracked.results index value).mpr there)
      simp only [Option.some.injEq, unsettled, false_or, true_and]
      exact eq_comm
    · rename_i elsewhere
      rw [tracked.results]
      simp only [Ne.symm elsewhere, false_and, or_false]
  · intro other within
    rw [Mapping.settle, List.getElem?_set]
    split
    · rename_i here
      subst here
      simp [called]
    · rename_i elsewhere
      rw [tracked.pending other within]
      simp only [ne_eq, Ne.symm elsewhere, not_false_eq_true, and_true]

theorem Tracked.congr {awaited' : Nat → Prop} (tracked : Tracked items mapping awaited)
    (same : ∀ index, awaited index ↔ awaited' index) : Tracked items mapping awaited' := by
  rwa [← funext fun index => propext (same index)]

/-- What the loop of a worker leaves. -/
structure Pulled (items : Nat) (before after : Mapping ρ) (awaited : Nat → Prop)
    (next : Option Nat) : Prop where
  tracked : Tracked items after fun index => awaited index ∨ next = some index
  fresh : ∀ index, next = some index → ¬ awaited index
  ended : next = none → items ≤ after.cursor
  further : before.cursor ≤ after.cursor
  workers : after.workers = before.workers

theorem Tracked.unawaited (tracked : Tracked items mapping awaited) (awaits : awaited index) :
    index < mapping.cursor := by
  have called := tracked.inside index awaits
  rw [tracked.called, List.mem_range] at called
  omega

theorem Tracked.pull (tracked : Tracked items mapping awaited) :
    Pulled items mapping (pull items throws mapping).1 awaited (pull items throws mapping).2 := by
  induction mapping using pull.induct items throws with
  | case1 mapping left reason thrown ih =>
      have awaits : awaited mapping.cursor ∨ mapping.cursor = mapping.cursor := .inr rfl
      have settled : Tracked items (mapping.call.settle mapping.cursor reason) awaited := by
        refine ((tracked.call left).settle awaits).congr ?_
        intro index
        constructor
        · rintro ⟨before | here, elsewhere⟩
          · exact before
          · exact absurd here elsewhere
        · intro before
          exact ⟨.inl before, Nat.ne_of_lt (tracked.unawaited before)⟩
      have pulled := ih settled
      rw [Mapping.pull, if_pos left]
      simp only [thrown]
      exact ⟨pulled.tracked, pulled.fresh, pulled.ended,
        Nat.le_of_succ_le pulled.further, pulled.workers⟩
  | case2 mapping left returned =>
      rw [Mapping.pull, if_pos left]
      simp only [returned]
      refine ⟨(tracked.call left).congr ?_, ?_, fun never => (by cases never),
        Nat.le_succ _, rfl⟩
      · intro index
        rw [Option.some.injEq, eq_comm (a := index)]
      · rintro index ⟨⟩ before
        exact Nat.lt_irrefl _ (tracked.unawaited before)
  | case3 mapping done =>
      rw [Mapping.pull, if_neg done]
      have beyond : items ≤ mapping.cursor := Nat.le_of_not_lt done
      refine ⟨⟨tracked.length, ?_, tracked.results, ?_, ?_⟩, fun _ never => (by cases never),
        fun _ => Nat.le_succ_of_le beyond, Nat.le_succ _, rfl⟩
      · rw [tracked.called, Nat.min_eq_right beyond, Nat.min_eq_right (Nat.le_succ_of_le beyond)]
      · intro index inside
        simp only [reduceCtorEq, or_false]
        exact tracked.pending index inside
      · rintro index (before | never)
        · exact tracked.inside index before
        · cases never

/-- The workers await what the mapping tracks. -/
structure Kept (items : Nat) (mapping : Mapping ρ) : Prop where
  tracked : Tracked items mapping fun index => some index ∈ mapping.workers
  apart : ∀ (i j index : Nat), mapping.workers[i]? = some (some index) →
    mapping.workers[j]? = some (some index) → i = j
  busy : mapping.cursor < items → ∀ worker ∈ mapping.workers, worker ≠ none

theorem Tracked.withWorkers (tracked : Tracked items mapping awaited)
    (workers : List (Option Nat)) : Tracked items { mapping with workers := workers } awaited :=
  ⟨tracked.length, tracked.called, tracked.results, tracked.pending, tracked.inside⟩

theorem Kept.startWorker (kept : Kept items mapping) :
    Kept items (startWorker items throws mapping) := by
  have pulled := @Tracked.pull ρ items throws mapping _ kept.tracked
  unfold Mapping.startWorker
  generalize Mapping.pull items throws mapping = pull at pulled ⊢
  obtain ⟨after, next⟩ := pull
  simp only at pulled ⊢
  rw [pulled.workers]
  refine ⟨(pulled.tracked.withWorkers _).congr ?_, ?_, ?_⟩
  · intro index
    rw [List.mem_append, List.mem_singleton]
    exact or_congr_right eq_comm
  · intro i j index lookup lookup'
    rw [List.getElem?_append] at lookup lookup'
    split at lookup
    · split at lookup'
      · exact kept.apart i j index lookup lookup'
      · have isNext := List.mem_singleton.mp (List.mem_of_getElem? lookup')
        exact absurd (List.mem_of_getElem? lookup) (pulled.fresh index isNext.symm)
    · split at lookup'
      · have isNext := List.mem_singleton.mp (List.mem_of_getElem? lookup)
        exact absurd (List.mem_of_getElem? lookup') (pulled.fresh index isNext.symm)
      · have last := (List.getElem?_eq_some_iff.mp lookup).1
        have last' := (List.getElem?_eq_some_iff.mp lookup').1
        rw [List.length_singleton] at last last'
        omega
  · intro left worker member
    rcases List.mem_append.mp member with old | new
    · exact kept.busy (Nat.lt_of_le_of_lt pulled.further left) worker old
    · rw [List.mem_singleton.mp new]
      intro ended
      exact absurd left (Nat.not_lt.mpr (pulled.ended ended))

theorem Kept.step {next : Mapping ρ} {event : Settles ρ} (kept : Kept items mapping)
    (stepped : step items throws mapping event = some next) :
    Kept items next ∧ next.workers.length = mapping.workers.length := by
  obtain ⟨_ | index, lookup, awaits⟩ := Option.bind_eq_some_iff.mp stepped
  · cases awaits
  have settled := @Tracked.settle ρ items mapping _ index event.result kept.tracked
    (List.mem_of_getElem? lookup)
  have pulled := @Tracked.pull ρ items throws _ _ settled
  simp only [Option.map_some, Option.some.injEq] at awaits
  subst awaits
  generalize Mapping.pull items throws (mapping.settle index event.result) = pull at pulled ⊢
  obtain ⟨after, awaited⟩ := pull
  simp only at pulled ⊢
  have workers : after.workers = mapping.workers := pulled.workers
  rw [workers]
  have inside := (List.getElem?_eq_some_iff.mp lookup).1
  refine ⟨⟨(pulled.tracked.withWorkers _).congr ?_, ?_, ?_⟩, List.length_set⟩
  · intro other
    constructor
    · rintro (⟨there, different⟩ | rfl)
      · obtain ⟨place, lookup'⟩ := List.getElem?_of_mem there
        have elsewhere : event.worker ≠ place := by
          rintro rfl
          exact different (Option.some.inj (Option.some.inj (lookup'.symm.trans lookup)))
        exact List.mem_of_getElem? ((List.getElem?_set_ne elsewhere).trans lookup')
      · exact List.mem_of_getElem? (List.getElem?_set_self inside)
    · intro there
      obtain ⟨place, lookup'⟩ := List.getElem?_of_mem there
      rcases getElem?_set_cases lookup' with ⟨_, isNext⟩ | ⟨elsewhere, before⟩
      · exact .inr isNext.symm
      · refine .inl ⟨List.mem_of_getElem? before, ?_⟩
        rintro rfl
        exact elsewhere (kept.apart _ _ _ lookup before)
  · intro i j other lookup' lookup''
    have fresh (place : Nat) (before : mapping.workers[place]? = some (some other))
        (elsewhere : event.worker ≠ place) (isNext : some other = awaited) : False := by
      refine pulled.fresh other isNext.symm ⟨List.mem_of_getElem? before, ?_⟩
      rintro rfl
      exact elsewhere (kept.apart _ _ _ lookup before)
    rcases getElem?_set_cases lookup' with ⟨here, isNext⟩ | ⟨elsewhere, before⟩
    · rcases getElem?_set_cases lookup'' with ⟨here', _⟩ | ⟨elsewhere, before⟩
      · exact here.symm.trans here'
      · exact (fresh j before elsewhere isNext).elim
    · rcases getElem?_set_cases lookup'' with ⟨_, isNext⟩ | ⟨_, before'⟩
      · exact (fresh i before elsewhere isNext).elim
      · exact kept.apart i j other before before'
  · intro left worker member
    have further : mapping.cursor < items := Nat.lt_of_le_of_lt pulled.further left
    rcases List.mem_or_eq_of_mem_set member with old | rfl
    · exact kept.busy further worker old
    · intro ended
      exact absurd left (Nat.not_lt.mpr (pulled.ended ended))

theorem kept_initial : Kept items (⟨0, List.replicate items none, [], [], []⟩ : Mapping ρ) where
  tracked :=
    { length := List.length_replicate
      called := by rw [Nat.zero_min, List.range_zero]
      results := by
        intro index result
        constructor
        · intro there
          cases List.eq_of_mem_replicate (List.mem_of_getElem? there)
        · intro member
          cases member
      pending := by
        intro index inside
        refine iff_of_true ?_ (.inl List.not_mem_nil)
        rw [List.getElem?_replicate, if_pos inside]
      inside := fun _ member => (by cases member) }
  apart _ _ _ lookup := by cases lookup
  busy _ _ member := by cases member

theorem kept_start (items limit : Nat) (throws : Nat → Option ρ) :
    Kept items (start items limit throws) ∧
      (start items limit throws).workers.length =
        if items = 0 then 0 else cap items limit := by
  have started (count : Nat) :
      Kept items ((startWorker items throws)^[count]
        (⟨0, List.replicate items none, [], [], []⟩ : Mapping ρ)) ∧
      ((startWorker items throws)^[count]
        (⟨0, List.replicate items none, [], [], []⟩ : Mapping ρ)).workers.length = count := by
    induction count with
    | zero => exact ⟨kept_initial, rfl⟩
    | succ count ih =>
        rw [Function.iterate_succ_apply']
        refine ⟨ih.1.startWorker, ?_⟩
        have pulled := @Tracked.pull ρ items throws _ _ ih.1.tracked
        simp only [startWorker, List.length_append, List.length_singleton, pulled.workers, ih.2]
  exact started _

theorem Kept.sound (kept : Kept items mapping)
    (count : mapping.workers.length = if items = 0 then 0 else cap items limit) :
    Sound items limit mapping where
  once := ⟨_, Nat.min_le_right _ _, kept.tracked.called⟩
  bounded := by
    rw [count]
    split
    · exact Nat.zero_le _
    · exact Nat.le_refl _
  apart := kept.apart
  busy := by
    intro left
    rw [kept.tracked.called, List.length_range] at left
    exact kept.busy (by omega)
  results := kept.tracked.results
  pending := kept.tracked.pending
  finished := by
    intro finished index inside
    cases found : mapping.results[index]? with
    | none =>
        rw [List.getElem?_eq_none_iff, kept.tracked.length] at found
        exact absurd inside (Nat.not_lt.mpr found)
    | some result =>
        cases result with
        | some result => exact ⟨result, rfl⟩
        | none =>
            exfalso
            rcases (kept.tracked.pending index inside).mp found with uncalled | awaited
            · have some_worker : mapping.workers ≠ [] := by
                rw [← List.length_pos_iff, count, if_neg (by omega), cap]
                omega
              obtain ⟨worker, member⟩ := List.exists_mem_of_ne_nil _ some_worker
              refine kept.busy ?_ worker member (finished worker member)
              rw [kept.tracked.called, List.mem_range] at uncalled
              omega
            · cases finished _ awaited

end Workers

/-- In whatever order the calls end, and whichever of them throw at once, the calls are made in
order and no more than allowed run at a time, and once the workers have returned every item has the
result of its own call. -/
theorem mapWithConcurrency_sound (items limit : Nat) (throws : Nat → Option ρ)
    (events : List (Settles ρ)) :
    Always (step items throws) (Sound items limit) (start items limit throws) events := by
  have free : Meets (step items throws) (fun _ _ => True) (start items limit throws) events :=
    meets_of_forall fun _ _ _ => trivial
  refine always_of_meets (fun mapping => Kept items mapping ∧ mapping.workers.length =
    if items = 0 then 0 else cap items limit) ?_ ?_ (kept_start items limit throws) free
  · rintro mapping event next ⟨kept, count⟩ _ stepped
    have ⟨later, same⟩ := kept.step stepped
    exact ⟨later, same.trans count⟩
  · rintro mapping ⟨kept, count⟩
    exact kept.sound count

/-- Two of three calls at once: the second ends first, and the third throws. -/
example : (run (step 3 fun index => if index = 2 then some "thrown" else none)
    (start 3 2 fun index => if index = 2 then some "thrown" else none)
    [⟨1, "second"⟩, ⟨0, "first"⟩]).map Mapping.results =
      some [some "first", some "second", some "thrown"] := by decide +kernel

end Mapping

end Univiz.Concurrency
