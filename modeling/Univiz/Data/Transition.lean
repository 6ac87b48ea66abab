import Mathlib.Logic.Function.Iterate

namespace Univiz.Data

/-! Runs of an event-driven system.

`step state event` is the state after `event`, or nothing where the event cannot
happen.  What a system chooses freely is part of the event, so a run is
determined by its events. -/

variable {σ ε : Type}

def run (step : σ → ε → Option σ) : σ → List ε → Option σ
  | state, [] => some state
  | state, event :: rest => (step state event).bind fun next => run step next rest

/-- Every event of the run meets a condition in the state in which it happens. -/
def Meets (step : σ → ε → Option σ) (allowed : σ → ε → Prop) : σ → List ε → Prop
  | _, [] => True
  | state, event :: rest =>
      allowed state event ∧ ∀ next, step state event = some next → Meets step allowed next rest

/-- The states and events that occur in a run can be computed, so a condition that
can be checked on each can be checked on the run. -/
instance decidableMeets (step : σ → ε → Option σ) (allowed : σ → ε → Prop)
    [∀ state event, Decidable (allowed state event)] :
    (state : σ) → (events : List ε) → Decidable (Meets step allowed state events)
  | _, [] => isTrue trivial
  | state, event :: rest =>
      have _later := fun next => decidableMeets step allowed next rest
      inferInstanceAs (Decidable (allowed state event ∧
        ∀ next, step state event = some next → Meets step allowed next rest))

/-- Every state of the run has a property. -/
def Always (step : σ → ε → Option σ) (property : σ → Prop) : σ → List ε → Prop
  | state, [] => property state
  | state, event :: rest =>
      property state ∧ ∀ next, step state event = some next → Always step property next rest

variable {step : σ → ε → Option σ} {allowed : σ → ε → Prop} {state last : σ} {events : List ε}

theorem always_start {property : σ → Prop} (always : Always step property state events) :
    property state := by
  cases events with
  | nil => exact always
  | cons event rest => exact always.1

theorem always_last {property : σ → Prop} (always : Always step property state events)
    (ran : run step state events = some last) : property last := by
  induction events generalizing state with
  | nil =>
      cases ran
      exact always
  | cons event rest ih =>
      obtain ⟨next, stepped, finished⟩ := Option.bind_eq_some_iff.mp ran
      exact ih (always.2 next stepped) finished

theorem meets_of_forall (always : ∀ event ∈ events, ∀ state, allowed state event) :
    Meets step allowed state events := by
  induction events generalizing state with
  | nil => trivial
  | cons event rest ih =>
      have ⟨head, later⟩ := List.forall_mem_cons.mp always
      exact ⟨head state, fun next _ => ih later⟩

theorem meets_congr_of {allowed' : σ → ε → Prop} (invariant : σ → Prop)
    (kept : ∀ state event next, invariant state → step state event = some next → invariant next)
    (same : ∀ state event, invariant state → (allowed state event ↔ allowed' state event))
    (holds : invariant state) :
    Meets step allowed state events ↔ Meets step allowed' state events := by
  induction events generalizing state with
  | nil => exact Iff.rfl
  | cons event rest ih =>
      refine and_congr (same state event holds) (forall₂_congr ?_)
      intro next stepped
      exact ih (kept state event next holds stepped)

theorem meets_congr {allowed' : σ → ε → Prop}
    (same : ∀ state event, allowed state event ↔ allowed' state event) :
    Meets step allowed state events ↔ Meets step allowed' state events :=
  meets_congr_of (fun _ => True) (fun _ _ _ _ _ => trivial) (fun state event _ => same state event)
    trivial

theorem meets_and {allowed' : σ → ε → Prop} (meets : Meets step allowed state events)
    (meets' : Meets step allowed' state events) :
    Meets step (fun state event => allowed state event ∧ allowed' state event) state events := by
  induction events generalizing state with
  | nil => trivial
  | cons event rest ih =>
      refine ⟨⟨meets.1, meets'.1⟩, ?_⟩
      intro next stepped
      exact ih (meets.2 next stepped) (meets'.2 next stepped)

theorem run_cons {event : ε} :
    run step state (event :: events) = some last ↔
      ∃ next, step state event = some next ∧ run step next events = some last :=
  Option.bind_eq_some_iff

theorem run_append {more : List ε} :
    run step state (events ++ more) = some last ↔
      ∃ middle, run step state events = some middle ∧ run step middle more = some last := by
  induction events generalizing state with
  | nil => simp [run]
  | cons event rest ih =>
      simp only [List.cons_append, run_cons, ih]
      constructor
      · intro ⟨next, stepped, middle, reached, finished⟩
        exact ⟨middle, ⟨next, stepped, reached⟩, finished⟩
      · intro ⟨middle, ⟨next, stepped, reached⟩, finished⟩
        exact ⟨next, stepped, middle, reached, finished⟩

/-- What holds at the start and is kept by every allowed step holds after a run
of allowed steps. -/
theorem run_invariant (invariant : σ → Prop)
    (kept : ∀ state event next, invariant state → allowed state event →
      step state event = some next → invariant next)
    (start : invariant state) (meets : Meets step allowed state events)
    (ran : run step state events = some last) : invariant last := by
  induction events generalizing state with
  | nil =>
      cases ran
      exact start
  | cons event rest ih =>
      obtain ⟨next, stepped, finished⟩ := run_cons.mp ran
      exact ih (kept state event next start meets.1 stepped) (meets.2 next stepped) finished

theorem run_history (invariant : List ε → σ → Prop)
    (kept : ∀ past state event next, invariant past state → step state event = some next →
      invariant (past ++ [event]) next)
    {past : List ε} (start : invariant past state) (ran : run step state events = some last) :
    invariant (past ++ events) last := by
  induction events generalizing state past with
  | nil =>
      cases ran
      rw [List.append_nil]
      exact start
  | cons event rest ih =>
      obtain ⟨next, stepped, finished⟩ := run_cons.mp ran
      have reached := ih (kept past state event next start stepped) finished
      rwa [List.append_assoc, List.singleton_append] at reached

theorem always_of_meets {property : σ → Prop} (invariant : σ → Prop)
    (kept : ∀ state event next, invariant state → allowed state event →
      step state event = some next → invariant next)
    (gives : ∀ state, invariant state → property state) (start : invariant state)
    (meets : Meets step allowed state events) : Always step property state events := by
  induction events generalizing state with
  | nil => exact gives state start
  | cons event rest ih =>
      refine ⟨gives state start, ?_⟩
      intro next stepped
      exact ih (kept state event next start meets.1 stepped) (meets.2 next stepped)

/-- Where the allowed steps are exactly those that keep a property, the runs that have it
throughout are exactly those whose steps are all allowed. -/
theorem always_iff_meets {property : σ → Prop} (invariant : σ → Prop)
    (kept : ∀ state event next, invariant state → step state event = some next → invariant next)
    (exact : ∀ state event, invariant state → property state →
      ((∀ next, step state event = some next → property next) ↔ allowed state event))
    (holds : invariant state) (start : property state) :
    Always step property state events ↔ Meets step allowed state events := by
  induction events generalizing state with
  | nil => exact ⟨fun _ => trivial, fun _ => start⟩
  | cons event rest ih =>
      constructor
      · intro ⟨_, always⟩
        have correct : ∀ next, step state event = some next → property next :=
          fun next stepped => always_start (always next stepped)
        refine ⟨(exact state event holds start).mp correct, ?_⟩
        intro next stepped
        exact (ih (kept state event next holds stepped) (correct next stepped)).mp
          (always next stepped)
      · intro ⟨allowed, meets⟩
        have correct := (exact state event holds start).mpr allowed
        refine ⟨start, ?_⟩
        intro next stepped
        exact (ih (kept state event next holds stepped) (correct next stepped)).mpr
          (meets next stepped)

theorem exists_iterate {advance : σ → σ} {settled : σ → Prop} (rank : σ → Nat)
    (falls : ∀ state, ¬ settled state → rank (advance state) < rank state) (state : σ) :
    ∃ count, settled (advance^[count] state) := by
  generalize bound : rank state = size
  induction size using Nat.strongRecOn generalizing state with
  | ind size ih =>
      by_cases done : settled state
      · exact ⟨0, done⟩
      · obtain ⟨count, reached⟩ := ih _ (bound ▸ falls state done) (advance state) rfl
        exact ⟨count + 1, reached⟩

/-! The parties of a system are numbered by their places in a list. -/

variable {α : Type} {parties : List α} {found : α} {i j : Nat}

theorem getElem?_set_cases {replacement : α}
    (lookup : (parties.set i replacement)[j]? = some found) :
    i = j ∧ found = replacement ∨ i ≠ j ∧ parties[j]? = some found := by
  rw [List.getElem?_set] at lookup
  by_cases same : i = j
  · simp only [same, ↓reduceIte] at lookup
    split at lookup
    · exact .inl ⟨same, (Option.some.inj lookup).symm⟩
    · cases lookup
  · rw [if_neg same] at lookup
    exact .inr ⟨same, lookup⟩

theorem getElem?_concat_cases {newcomer : α}
    (lookup : (parties ++ [newcomer])[j]? = some found) :
    parties[j]? = some found ∨ found = newcomer := by
  rw [List.getElem?_append] at lookup
  split at lookup
  · exact .inl lookup
  · exact .inr (List.mem_singleton.mp (List.mem_of_getElem? lookup))

theorem getElem?_concat {newcomer : α} (lookup : parties[j]? = some found) :
    (parties ++ [newcomer])[j]? = some found := by
  have inside := (List.getElem?_eq_some_iff.mp lookup).1
  rwa [List.getElem?_append_left inside]

theorem filterMap_set {β : Type} {view : α → Option β} {replacement : α}
    (lookup : parties[i]? = some found) (same : view replacement = view found) :
    (parties.set i replacement).filterMap view = parties.filterMap view := by
  induction parties generalizing i with
  | nil => rfl
  | cons first rest ih =>
      cases i with
      | zero =>
          cases lookup
          simp [List.filterMap_cons, same]
      | succ i => simp only [List.set_cons_succ, List.filterMap_cons, ih lookup]

theorem getLast?_filterMap {β : Type} {view : α → Option β} {value : β}
    (lookup : parties[i]? = some found) (viewed : view found = some value)
    (last : ∀ later ∈ parties.drop (i + 1), view later = none) :
    (parties.filterMap view).getLast? = some value := by
  obtain ⟨inside, rfl⟩ := List.getElem?_eq_some_iff.mp lookup
  have rest : (parties.drop (i + 1)).filterMap view = [] := List.filterMap_eq_nil_iff.mpr last
  rw [← List.take_append_drop i parties, List.drop_eq_getElem_cons inside,
    List.filterMap_append, List.filterMap_cons_some viewed, rest, List.getLast?_concat]

theorem getLast?_set {replacement : α} (lookup : parties[i]? = some found) :
    (parties.set i replacement).getLast? =
      if i + 1 = parties.length then some replacement else parties.getLast? := by
  have inside := (List.getElem?_eq_some_iff.mp lookup).1
  rw [List.getLast?_eq_getElem?, List.getLast?_eq_getElem?, List.length_set]
  split
  · rename_i last
    rw [← last, Nat.add_sub_cancel, List.getElem?_set_self inside]
  · rename_i earlier
    exact List.getElem?_set_ne (by omega)

theorem pairwise_of_ne {relation : α → α → Prop} (symmetric : ∀ a b, relation a b → relation b a)
    (pairwise : parties.Pairwise relation) {other : α} (lookup : parties[i]? = some found)
    (lookup' : parties[j]? = some other) (apart : i ≠ j) : relation found other := by
  obtain ⟨inside, rfl⟩ := List.getElem?_eq_some_iff.mp lookup
  obtain ⟨inside', rfl⟩ := List.getElem?_eq_some_iff.mp lookup'
  rcases Nat.lt_or_gt_of_ne apart with less | more
  · exact List.pairwise_iff_getElem.mp pairwise i j inside inside' less
  · exact symmetric _ _ (List.pairwise_iff_getElem.mp pairwise j i inside' inside more)

theorem pairwise_set {relation : α → α → Prop} {replacement : α}
    (pairwise : parties.Pairwise relation) (lookup : parties[i]? = some found)
    (left : ∀ other, relation found other → relation replacement other)
    (right : ∀ other, relation other found → relation other replacement) :
    (parties.set i replacement).Pairwise relation := by
  induction parties generalizing i with
  | nil => cases lookup
  | cons head rest ih =>
      obtain ⟨first, later⟩ := List.pairwise_cons.mp pairwise
      cases i with
      | zero =>
          cases lookup
          exact List.pairwise_cons.mpr ⟨fun other member => left other (first other member), later⟩
      | succ i =>
          have inside : found ∈ rest := List.mem_of_getElem? lookup
          refine List.pairwise_cons.mpr ⟨?_, ih later lookup⟩
          intro other member
          rcases List.mem_or_eq_of_mem_set member with old | rfl
          · exact first other old
          · exact right head (first found inside)

theorem length_filter_set {selects : α → Bool} {replacement : α}
    (lookup : parties[i]? = some found) :
    ((parties.set i replacement).filter selects).length + (if selects found then 1 else 0) =
      (parties.filter selects).length + if selects replacement then 1 else 0 := by
  induction parties generalizing i with
  | nil => cases lookup
  | cons head rest ih =>
      cases i with
      | zero =>
          cases lookup
          rw [List.set_cons_zero, List.filter_cons, List.filter_cons]
          split <;> split <;> simp only [List.length_cons]
      | succ i =>
          have later := ih (i := i) lookup
          rw [List.set_cons_succ, List.filter_cons, List.filter_cons]
          split
          · simp only [List.length_cons]
            omega
          · exact later

theorem length_filter_set_le {selects : α → Bool} {replacement : α}
    (lookup : parties[i]? = some found)
    (fewer : selects replacement = true → selects found = true) :
    ((parties.set i replacement).filter selects).length ≤ (parties.filter selects).length := by
  have balance := @length_filter_set _ _ _ _ selects replacement lookup
  by_cases chosen : selects replacement = true
  · rw [if_pos chosen, if_pos (fewer chosen)] at balance
    omega
  · rw [if_neg chosen] at balance
    omega

theorem length_filter_set_lt {selects : α → Bool} {replacement : α}
    (lookup : parties[i]? = some found) (chosen : selects found = true)
    (dropped : selects replacement = false) :
    ((parties.set i replacement).filter selects).length < (parties.filter selects).length := by
  have balance := @length_filter_set _ _ _ _ selects replacement lookup
  rw [chosen, dropped, if_pos rfl, if_neg Bool.false_ne_true] at balance
  omega

theorem modify_of_lookup {change : α → α} (lookup : parties[i]? = some found) :
    parties.modify i change = parties.set i (change found) := by
  apply List.ext_getElem?
  intro j
  rw [List.getElem?_modify, List.getElem?_set]
  by_cases here : i = j
  · subst here
    have inside := (List.getElem?_eq_some_iff.mp lookup).1
    simp only [lookup, inside, ↓reduceIte, Option.map_eq_map, Option.map_some]
  · simp [here]

end Univiz.Data
