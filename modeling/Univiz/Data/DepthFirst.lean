import Mathlib.Data.Finset.Card
import Mathlib.Data.Finset.Insert
import Mathlib.Data.List.Nodup

namespace Univiz.Data

/-! A depth-first search with a shared set of visited keys.  A call picks the items that are
new when it begins and enters them one after the other; one that has meanwhile been visited
in a call below is entered all the same, and so listed again. -/

section Walks

variable {ε κ : Type} [DecidableEq κ] (key : ε → κ) (next : ε → List ε)

/-- Enters the items: each is listed, with what the call below it finds. -/
def walkEach (enter : ε → Finset κ → Option (List ε × Finset κ)) :
    List ε → Finset κ → Option (List ε × Finset κ)
  | [], visited => some ([], visited)
  | item :: rest, visited => do
      let (below, entered) ← enter item (insert (key item) visited)
      let (others, left) ← walkEach enter rest entered
      return (item :: below ++ others, left)

def walk : Nat → List ε → Finset κ → Option (List ε × Finset κ)
  | 0, _, _ => none
  | fuel + 1, items, visited =>
      walkEach key (fun item => walk fuel (next item))
        (items.filter fun item => key item ∉ visited) visited

end Walks

variable {ε : Type} {next : ε → List ε}

/-- Reached from the items without a blocked one. -/
inductive Fresh (next : ε → List ε) (blocked : Finset ε) (items : List ε) : ε → Prop
  | root {item : ε} : item ∈ items → item ∉ blocked → Fresh next blocked items item
  | step {via item : ε} : Fresh next blocked items via → item ∈ next via → item ∉ blocked →
      Fresh next blocked items item

variable {items : List ε} {item other : ε} {blocked visited more : Finset ε}

theorem Fresh.notMem (fresh : Fresh next blocked items item) : item ∉ blocked := by
  cases fresh with
  | root _ open' => exact open'
  | step _ _ open' => exact open'

theorem Fresh.mono (fewer : blocked ⊆ more) (fresh : Fresh next more items item) :
    Fresh next blocked items item := by
  induction fresh with
  | root listed open' => exact .root listed fun inside => open' (fewer inside)
  | step _ follows open' ih => exact .step ih follows fun inside => open' (fewer inside)

theorem Fresh.trans (first : Fresh next blocked items item)
    (second : Fresh next blocked (next item) other) : Fresh next blocked items other := by
  induction second with
  | root listed open' => exact .step first listed open'
  | step _ follows open' ih => exact .step ih follows open'

theorem not_fresh_nil : ¬ Fresh next blocked [] item := by
  intro fresh
  induction fresh with
  | root listed _ => cases listed
  | step _ _ _ ih => exact ih

variable [DecidableEq ε]

/-- What is reached after an item is reached without coming back to it. -/
theorem fresh_insert (fresh : Fresh next blocked (next item) other) :
    other = item ∨ Fresh next (insert item blocked) (next item) other := by
  have stillOpen {found : ε} (apart : found ≠ item) (open' : found ∉ blocked) :
      found ∉ insert item blocked := fun inside =>
    (Finset.mem_insert.mp inside).elim apart open'
  induction fresh with
  | root listed open' =>
      refine or_iff_not_imp_left.mpr fun apart => ?_
      exact .root listed (stillOpen apart open')
  | step _ follows open' ih =>
      refine or_iff_not_imp_left.mpr fun apart => ?_
      rcases ih with rfl | before
      · exact .root follows (stillOpen apart open')
      · exact .step before follows (stillOpen apart open')

/-- What the call below an item leaves: the item and what is reached after it. -/
def Leaves (next : ε → List ε) (item : ε) (visited entered : Finset ε) : Prop :=
  ∀ other, other ∈ entered ↔
    other ∈ insert item visited ∨ Fresh next (insert item visited) (next item) other

variable {entered : Finset ε}

theorem Leaves.mem_iff (leaves : Leaves next item visited entered) :
    other ∈ entered ↔ other ∈ visited ∨ other = item ∨ Fresh next visited (next item) other := by
  rw [leaves, Finset.mem_insert, or_assoc, or_left_comm]
  refine or_congr_right ⟨?_, ?_⟩
  · rintro (same | fresh)
    · exact .inl same
    · exact .inr (fresh.mono (Finset.subset_insert _ _))
  · rintro (same | fresh)
    · exact .inl same
    · exact fresh_insert fresh

theorem Leaves.subset (leaves : Leaves next item visited entered) : visited ⊆ entered :=
  fun _ old => leaves.mem_iff.mpr (.inl old)

/-- Nothing new is reached after what has been entered. -/
theorem Leaves.closed (leaves : Leaves next item visited entered) (new : other ∉ visited)
    (inside : other ∈ entered) {found : ε} (follows : found ∈ next other) : found ∈ entered := by
  by_cases old : found ∈ visited
  · exact leaves.subset old
  · rw [leaves.mem_iff] at inside ⊢
    rcases inside.resolve_left new with rfl | fresh
    · exact .inr (.inr (.root follows old))
    · exact .inr (.inr (.step fresh follows old))

theorem Leaves.fresh (leaves : Leaves next item visited entered)
    (fresh : Fresh next visited items other) :
    other ∈ entered ∨ Fresh next entered items other := by
  induction fresh with
  | root listed _ =>
      rename_i found _
      by_cases inside : found ∈ entered
      · exact .inl inside
      · exact .inr (.root listed inside)
  | step before follows _ ih =>
      rename_i via found _
      by_cases inside : found ∈ entered
      · exact .inl inside
      · rcases ih with viaInside | later
        · exact .inl (leaves.closed before.notMem viaInside follows)
        · exact .inr (.step later follows inside)

theorem walkEach_cons {enter : ε → Finset ε → Option (List ε × Finset ε)} {item : ε}
    {rest found : List ε} {visited left : Finset ε} :
    walkEach id enter (item :: rest) visited = some (found, left) ↔
      ∃ below entered others, enter item (insert item visited) = some (below, entered) ∧
        walkEach id enter rest entered = some (others, left) ∧
          found = item :: below ++ others := by
  simp only [walkEach, id_eq, Option.bind_eq_bind, Option.bind_eq_some_iff, Option.pure_def,
    Option.some.injEq, Prod.mk.injEq, Prod.exists]
  constructor
  · rintro ⟨below, entered, first, others, last, second, rfl, rfl⟩
    exact ⟨below, entered, others, first, second, rfl⟩
  · rintro ⟨below, entered, others, first, second, rfl⟩
    exact ⟨below, entered, first, others, left, second, rfl, rfl⟩

/-- What entering some items lists and leaves. -/
structure Enters (next : ε → List ε) (items : List ε) (visited : Finset ε) (found : List ε)
    (left : Finset ε) : Prop where
  left_iff : ∀ other, other ∈ left ↔
    other ∈ visited ∨ other ∈ items ∨ ∃ item ∈ items, Fresh next visited (next item) other
  found_of : ∀ other ∈ found,
    other ∈ items ∨ ∃ item ∈ items, Fresh next visited (next item) other
  listed : ∀ item ∈ items, item ∈ found
  found_or : ∀ other ∈ left, other ∈ visited ∨ other ∈ found

/-- A call lists what it reaches, and leaves it visited. -/
structure Finds (next : ε → List ε) (items : List ε) (visited : Finset ε) (found : List ε)
    (left : Finset ε) : Prop where
  left_iff : ∀ other, other ∈ left ↔ other ∈ visited ∨ Fresh next visited items other
  found_iff : ∀ other, other ∈ found ↔ Fresh next visited items other

variable {found below others : List ε} {left : Finset ε} {rest : List ε}

theorem Finds.leaves (finds : Finds next (next item) (insert item visited) below entered) :
    Leaves next item visited entered := finds.left_iff

omit [DecidableEq ε] in
theorem Enters.nil : Enters next [] visited [] visited where
  left_iff _ := by simp
  found_of _ member := by cases member
  listed _ member := by cases member
  found_or _ old := .inl old

theorem Enters.cons (finds : Finds next (next item) (insert item visited) below entered)
    (enters : Enters next rest entered others left) :
    Enters next (item :: rest) visited (item :: below ++ others) left where
  left_iff other := by
    rw [enters.left_iff, finds.leaves.mem_iff]
    constructor
    · rintro ((old | rfl | fresh) | member | ⟨via, member, fresh⟩)
      · exact .inl old
      · exact .inr (.inl List.mem_cons_self)
      · exact .inr (.inr ⟨item, List.mem_cons_self, fresh⟩)
      · exact .inr (.inl (List.mem_cons_of_mem _ member))
      · exact .inr (.inr ⟨via, List.mem_cons_of_mem _ member, fresh.mono finds.leaves.subset⟩)
    · rintro (old | member | ⟨via, member, fresh⟩)
      · exact .inl (.inl old)
      · rcases List.mem_cons.mp member with rfl | later
        · exact .inl (.inr (.inl rfl))
        · exact .inr (.inl later)
      · rcases List.mem_cons.mp member with rfl | later
        · exact .inl (.inr (.inr fresh))
        · rcases finds.leaves.fresh fresh with inside | reached
          · exact .inl (finds.leaves.mem_iff.mp inside)
          · exact .inr (.inr ⟨via, later, reached⟩)
  found_of other member := by
    rcases List.mem_append.mp member with first | later
    · rcases List.mem_cons.mp first with rfl | inside
      · exact .inl List.mem_cons_self
      · refine .inr ⟨item, List.mem_cons_self, ?_⟩
        exact ((finds.found_iff other).mp inside).mono (Finset.subset_insert _ _)
    · rcases enters.found_of other later with member | ⟨via, member, fresh⟩
      · exact .inl (List.mem_cons_of_mem _ member)
      · exact .inr ⟨via, List.mem_cons_of_mem _ member, fresh.mono finds.leaves.subset⟩
  listed other member := by
    rcases List.mem_cons.mp member with rfl | later
    · simp
    · exact List.mem_append_right _ (enters.listed other later)
  found_or other inside := by
    rcases enters.found_or other inside with earlier | later
    · rcases (finds.left_iff other).mp earlier with old | fresh
      · rcases Finset.mem_insert.mp old with rfl | old
        · exact .inr (by simp)
        · exact .inl old
      · have member := (finds.found_iff other).mpr fresh
        exact .inr (List.mem_append_left _ (List.mem_cons_of_mem _ member))
    · exact .inr (List.mem_append_right _ later)

theorem walkEach_enters {enter : ε → Finset ε → Option (List ε × Finset ε)}
    (each : ∀ item visited below entered, enter item visited = some (below, entered) →
      Finds next (next item) visited below entered)
    (walked : walkEach id enter items visited = some (found, left)) :
    Enters next items visited found left := by
  induction items generalizing visited found with
  | nil =>
      cases walked
      exact .nil
  | cons item rest ih =>
      obtain ⟨below, entered, others, first, second, rfl⟩ := walkEach_cons.mp walked
      exact (ih second).cons (each _ _ _ _ first)

/-- The unvisited ones among the items. -/
def unvisited (items : List ε) (visited : Finset ε) : List ε :=
  items.filter fun item => item ∉ visited

theorem mem_unvisited : item ∈ unvisited items visited ↔ item ∈ items ∧ item ∉ visited := by
  rw [unvisited, List.mem_filter, decide_eq_true_iff]

theorem Enters.finds (enters : Enters next (unvisited items visited) visited found left) :
    Finds next items visited found left := by
  have reached (other : ε) : (other ∈ unvisited items visited ∨
      ∃ item ∈ unvisited items visited, Fresh next visited (next item) other) ↔
        Fresh next visited items other := by
    constructor
    · rintro (member | ⟨item, member, fresh⟩)
      · obtain ⟨listed, new⟩ := mem_unvisited.mp member
        exact .root listed new
      · obtain ⟨listed, new⟩ := mem_unvisited.mp member
        exact (Fresh.root listed new).trans fresh
    · intro fresh
      induction fresh with
      | root listed new => exact .inl (mem_unvisited.mpr ⟨listed, new⟩)
      | step _ follows new ih =>
          rcases ih with member | ⟨item, member, before⟩
          · exact .inr ⟨_, member, .root follows new⟩
          · exact .inr ⟨item, member, .step before follows new⟩
  constructor
  · intro other
    rw [enters.left_iff, reached]
  · intro other
    refine ⟨fun member => (reached other).mp (enters.found_of other member), fun fresh => ?_⟩
    have inside := (enters.left_iff other).mpr (.inr ((reached other).mpr fresh))
    exact (enters.found_or other inside).resolve_left fresh.notMem

theorem walk_finds {fuel : Nat}
    (walked : walk id next fuel items visited = some (found, left)) :
    Finds next items visited found left := by
  induction fuel generalizing items visited found left with
  | zero => cases walked
  | succ fuel ih => exact (walkEach_enters (fun _ _ _ _ below => ih below) walked).finds

theorem card_sdiff_insert_lt {whole : Finset ε} (member : item ∈ whole)
    (new : item ∉ visited) (grown : visited ⊆ more) :
    (whole \ insert item more).card < (whole \ visited).card := by
  refine Finset.card_lt_card (Finset.ssubset_iff_of_subset ?_ |>.mpr ⟨item, ?_, ?_⟩)
  · exact Finset.sdiff_subset_sdiff (Finset.Subset.refl _)
      (grown.trans (Finset.subset_insert _ _))
  · exact Finset.mem_sdiff.mpr ⟨member, new⟩
  · simp

theorem walkEach_isSome {enter : ε → Finset ε → Option (List ε × Finset ε)} {start : Finset ε}
    (grown : start ⊆ visited)
    (each : ∀ item ∈ items, ∀ visited, start ⊆ visited → ∃ below entered,
      enter item (insert item visited) = some (below, entered) ∧ start ⊆ entered) :
    ∃ found left, walkEach id enter items visited = some (found, left) := by
  induction items generalizing visited with
  | nil => exact ⟨[], visited, rfl⟩
  | cons item rest ih =>
      obtain ⟨below, entered, first, further⟩ := each item List.mem_cons_self visited grown
      obtain ⟨others, left, second⟩ :=
        ih further fun other member => each other (List.mem_cons_of_mem _ member)
      exact ⟨_, left, walkEach_cons.mpr ⟨below, entered, others, first, second, rfl⟩⟩

/-- Each call below has fewer unvisited items. -/
theorem walk_isSome {whole : Finset ε} (closed : ∀ item, ∀ other ∈ next item, other ∈ whole)
    {fuel : Nat} (inside : ∀ item ∈ items, item ∈ whole)
    (enough : (whole \ visited).card < fuel) :
    ∃ found left, walk id next fuel items visited = some (found, left) := by
  induction fuel generalizing items visited with
  | zero => exact absurd enough (Nat.not_lt_zero _)
  | succ fuel ih =>
      refine walkEach_isSome (Finset.Subset.refl visited) fun item member more grown => ?_
      obtain ⟨listed, new⟩ := mem_unvisited.mp member
      have fewer := card_sdiff_insert_lt (inside item listed) new grown
      obtain ⟨below, entered, walked⟩ :=
        ih (closed item) (Nat.lt_of_lt_of_le fewer (Nat.le_of_lt_succ enough))
      refine ⟨below, entered, walked, fun other old => ?_⟩
      have kept := (walk_finds walked).left_iff other
      exact kept.mpr (.inl (Finset.mem_insert_of_mem (grown old)))

/-- A way from the items on which no item occurs twice and none is blocked. -/
def IsTrail (next : ε → List ε) : Finset ε → List ε → List ε → Prop
  | _, _, [] => True
  | blocked, items, item :: rest =>
      item ∈ items ∧ item ∉ blocked ∧ IsTrail next (insert item blocked) (next item) rest

def TrailTo (next : ε → List ε) (blocked : Finset ε) (items : List ε) (goal : ε)
    (trail : List ε) : Prop :=
  IsTrail next blocked items trail ∧ trail.getLast? = some goal

/-- The lexicographically first trail to an item, by the places of the items. -/
def IsFirst (place : ε → Nat) (next : ε → List ε) (blocked : Finset ε) (items : List ε) (goal : ε)
    (trail : List ε) : Prop :=
  TrailTo next blocked items goal trail ∧ ∀ other, TrailTo next blocked items goal other →
    ¬ other.map place < trail.map place

variable {place : ε → Nat} {goal : ε} {trail : List ε}

theorem not_trailTo_nil : ¬ TrailTo next blocked items goal [] := fun ⟨_, ends⟩ => by cases ends

theorem trailTo_cons : TrailTo next blocked items goal (item :: trail) ↔
    item ∈ items ∧ item ∉ blocked ∧
      ((trail = [] ∧ item = goal) ∨
        TrailTo next (insert item blocked) (next item) goal trail) := by
  cases trail with
  | nil => simp [TrailTo, IsTrail, and_assoc]
  | cons second rest => simp [TrailTo, IsTrail, List.getLast?_cons_cons, and_assoc]

theorem TrailTo.fresh (trailTo : TrailTo next blocked items goal trail) :
    Fresh next blocked items goal := by
  induction trail generalizing blocked items with
  | nil => exact absurd trailTo not_trailTo_nil
  | cons item rest ih =>
      obtain ⟨listed, open', ⟨-, rfl⟩ | later⟩ := trailTo_cons.mp trailTo
      · exact .root listed open'
      · exact (Fresh.root listed open').trans ((ih later).mono (Finset.subset_insert _ _))

theorem isFirst_congr {rest : List ε} (same : ∀ trail, TrailTo next blocked items goal trail ↔
    TrailTo next blocked rest goal trail) :
    IsFirst place next blocked items goal trail ↔ IsFirst place next blocked rest goal trail := by
  simp only [IsFirst, same]

/-- The first item is of no use if no trail to the goal begins with it. -/
theorem isFirst_skip {rest : List ε} (useless : item ∈ blocked ∨
      (item ≠ goal ∧ ¬ Fresh next (insert item blocked) (next item) goal)) :
    IsFirst place next blocked (item :: rest) goal trail ↔
      IsFirst place next blocked rest goal trail := by
  refine isFirst_congr fun trail => ?_
  cases trail with
  | nil => exact iff_of_false not_trailTo_nil not_trailTo_nil
  | cons begins later =>
      rw [trailTo_cons, trailTo_cons]
      refine ⟨fun ⟨listed, open', reaches⟩ => ⟨?_, open', reaches⟩,
        fun ⟨listed, onward⟩ => ⟨List.mem_cons_of_mem _ listed, onward⟩⟩
      rcases List.mem_cons.mp listed with rfl | member
      · rcases useless with shut | ⟨apart, away⟩
        · exact absurd shut open'
        · rcases reaches with ⟨-, same⟩ | onward
          · exact absurd same apart
          · exact absurd onward.fresh away
      · exact member

/-- The first trail to the first item is the item. -/
theorem isFirst_self {rest : List ε} (open' : goal ∉ blocked)
    (sorted : ∀ other ∈ rest, place goal < place other) :
    IsFirst place next blocked (goal :: rest) goal trail ↔ trail = [goal] := by
  have alone : TrailTo next blocked (goal :: rest) goal [goal] :=
    trailTo_cons.mpr ⟨List.mem_cons_self, open', .inl ⟨rfl, rfl⟩⟩
  constructor
  · rintro ⟨trailTo, least⟩
    cases trail with
    | nil => exact absurd trailTo not_trailTo_nil
    | cons begins later =>
        obtain ⟨listed, _, ends⟩ := trailTo_cons.mp trailTo
        rcases List.mem_cons.mp listed with rfl | member
        · rcases ends with ⟨rfl, -⟩ | onward
          · rfl
          · exact absurd (Finset.mem_insert_self _ _) onward.fresh.notMem
        · refine absurd ?_ (least [goal] alone)
          exact List.cons_lt_cons_iff.mpr (.inl (sorted begins member))
  · rintro rfl
    refine ⟨alone, fun other trailTo less => ?_⟩
    cases other with
    | nil => exact not_trailTo_nil trailTo
    | cons begins later =>
        obtain ⟨listed, -, -⟩ := trailTo_cons.mp trailTo
        rcases List.cons_lt_cons_iff.mp less with before | ⟨-, shorter⟩
        · rcases List.mem_cons.mp listed with rfl | member
          · exact absurd before (Nat.lt_irrefl _)
          · exact absurd before (Nat.lt_asymm (sorted begins member))
        · exact absurd shorter (List.not_lt_nil _)

/-- The first trail to what is reached after the first item begins with the item. -/
theorem isFirst_down {rest : List ε} (open' : item ∉ blocked) (apart : item ≠ goal)
    (sorted : ∀ other ∈ rest, place item < place other) {onward : List ε}
    (some' : TrailTo next (insert item blocked) (next item) goal onward) :
    IsFirst place next blocked (item :: rest) goal trail ↔
      ∃ below, trail = item :: below ∧
        IsFirst place next (insert item blocked) (next item) goal below := by
  have extend {below : List ε} (later : TrailTo next (insert item blocked) (next item) goal below) :
      TrailTo next blocked (item :: rest) goal (item :: below) :=
    trailTo_cons.mpr ⟨List.mem_cons_self, open', .inr later⟩
  constructor
  · rintro ⟨trailTo, least⟩
    cases trail with
    | nil => exact absurd trailTo not_trailTo_nil
    | cons begins below =>
        obtain ⟨listed, _, ends⟩ := trailTo_cons.mp trailTo
        rcases List.mem_cons.mp listed with rfl | member
        · rcases ends with ⟨-, same⟩ | later
          · exact absurd same apart
          · refine ⟨below, rfl, later, fun other otherTo less => ?_⟩
            exact least _ (extend otherTo) (List.cons_lt_cons_iff.mpr (.inr ⟨rfl, less⟩))
        · refine absurd ?_ (least _ (extend some'))
          exact List.cons_lt_cons_iff.mpr (.inl (sorted begins member))
  · rintro ⟨below, rfl, later, least⟩
    refine ⟨extend later, fun other trailTo less => ?_⟩
    cases other with
    | nil => exact not_trailTo_nil trailTo
    | cons begins others =>
        obtain ⟨listed, _, ends⟩ := trailTo_cons.mp trailTo
        rcases List.mem_cons.mp listed with rfl | member
        · rcases ends with ⟨-, same⟩ | onward'
          · exact absurd same apart
          · rcases List.cons_lt_cons_iff.mp less with before | ⟨-, shorter⟩
            · exact absurd before (Nat.lt_irrefl _)
            · exact least others onward' shorter
        · rcases List.cons_lt_cons_iff.mp less with before | ⟨same, -⟩
          · exact absurd before (Nat.lt_asymm (sorted begins member))
          · exact absurd same (Nat.ne_of_gt (sorted begins member))

theorem fresh_cons {rest : List ε} (fresh : Fresh next blocked (item :: rest) goal) :
    (item ∉ blocked ∧ (item = goal ∨ Fresh next (insert item blocked) (next item) goal)) ∨
      Fresh next blocked rest goal := by
  have either : (item ∉ blocked ∧ (goal = item ∨ Fresh next blocked (next item) goal)) ∨
      Fresh next blocked rest goal := by
    induction fresh with
    | root listed open' =>
        rcases List.mem_cons.mp listed with rfl | member
        · exact .inl ⟨open', .inl rfl⟩
        · exact .inr (.root member open')
    | step _ follows open' ih =>
        rcases ih with ⟨itemOpen, rfl | before⟩ | before
        · exact .inl ⟨itemOpen, .inr (.root follows open')⟩
        · exact .inl ⟨itemOpen, .inr (.step before follows open')⟩
        · exact .inr (.step before follows open')
  refine either.imp_left (And.imp_right ?_)
  rintro (rfl | after)
  · exact .inl rfl
  · exact (fresh_insert after).imp_left Eq.symm

/-- The items of each list are in the order of their places. -/
def Placed (place : ε → Nat) (items : List ε) : Prop :=
  items.Pairwise fun first second => place first < place second

theorem exists_isFirst {whole : Finset ε} (closed : ∀ item, ∀ other ∈ next item, other ∈ whole)
    (placed : ∀ item, Placed place (next item)) (inside : ∀ item ∈ items, item ∈ whole)
    (sorted : Placed place items) (fresh : Fresh next blocked items goal) :
    ∃ trail, IsFirst place next blocked items goal trail := by
  induction size : (whole \ blocked).card using Nat.strongRecOn generalizing blocked items with
  | ind size further =>
      induction items with
      | nil =>
          exact absurd fresh not_fresh_nil
      | cons item rest ih =>
          obtain ⟨before, sortedRest⟩ := List.pairwise_cons.mp sorted
          by_cases useful : item ∉ blocked ∧
              (item = goal ∨ Fresh next (insert item blocked) (next item) goal)
          · obtain ⟨open', same | below⟩ := useful
            · subst same
              exact ⟨[item], (isFirst_self open' before).mpr rfl⟩
            · by_cases same : item = goal
              · subst same
                exact ⟨[item], (isFirst_self open' before).mpr rfl⟩
              · have fewer := card_sdiff_insert_lt (inside item List.mem_cons_self) open'
                  (Finset.Subset.refl blocked)
                obtain ⟨onward, first⟩ :=
                  further _ (size ▸ fewer) (closed item) (placed item) below rfl
                exact ⟨item :: onward,
                  (isFirst_down open' same before first.1).mpr ⟨onward, rfl, first⟩⟩
          · obtain ⟨trail, first⟩ := ih (fun other member => inside other (.tail _ member))
              sortedRest ((fresh_cons fresh).resolve_left useful)
            refine ⟨trail, (isFirst_skip ?_).mpr first⟩
            simpa only [not_and_or, not_or, not_not] using useful

/-- On the way to the goal, the goal could already have been entered before. -/
def Passes (next : ε → List ε) (goal : ε) : List ε → List ε → Prop
  | _, [] => False
  | items, item :: rest => (rest ≠ [] ∧ goal ∈ items) ∨ Passes next goal (next item) rest

/-- Everything visited that is not on the way to here has only visited items after it. -/
def Complete (next : ε → List ε) (way visited : Finset ε) : Prop :=
  way ⊆ visited ∧ ∀ item ∈ visited, item ∉ way → ∀ other ∈ next item, other ∈ visited

variable {way : Finset ε}

theorem Complete.enter (complete : Complete next way visited) (item : ε) :
    Complete next (insert item way) (insert item visited) := by
  refine ⟨Finset.insert_subset_insert item complete.1, fun other member away found follows => ?_⟩
  rw [Finset.mem_insert, not_or] at away
  have old := (Finset.mem_insert.mp member).resolve_left away.1
  exact Finset.mem_insert_of_mem (complete.2 other old away.2 found follows)

theorem Complete.leave (complete : Complete next way visited)
    (leaves : Leaves next item visited entered) : Complete next way entered := by
  refine ⟨complete.1.trans leaves.subset, fun other member away found follows => ?_⟩
  by_cases old : other ∈ visited
  · exact leaves.subset (complete.2 other old away found follows)
  · exact leaves.closed old member follows

omit [DecidableEq ε] in
theorem Complete.stays (complete : Complete next way visited) (old : item ∈ visited)
    (away : item ∉ way) (fresh : Fresh next way (next item) goal) : goal ∈ visited := by
  induction fresh with
  | root listed _ => exact complete.2 item old away _ listed
  | step before follows _ ih => exact complete.2 _ ih before.notMem _ follows

omit [DecidableEq ε] in
/-- To what is new, the visited ones that are not on the way are no obstacle. -/
theorem Complete.fresh_iff (complete : Complete next way visited) (new : goal ∉ visited) :
    Fresh next visited items goal ↔ Fresh next way items goal := by
  refine ⟨Fresh.mono complete.1, fun fresh => ?_⟩
  have either : goal ∈ visited ∨ Fresh next visited items goal := by
    clear new
    induction fresh with
    | root listed _ => exact or_iff_not_imp_left.mpr fun new => .root listed new
    | step before follows _ ih =>
        refine or_iff_not_imp_left.mpr fun new => ?_
        rcases ih with viaVisited | viaFresh
        · exact absurd (complete.2 _ viaVisited before.notMem _ follows) new
        · exact .step viaFresh follows new
  exact either.resolve_left new

/-- No first trail to something new passes a list with its goal before it gets there. -/
def Direct (place : ε → Nat) (next : ε → List ε) (way visited : Finset ε)
    (level items : List ε) : Prop :=
  ∀ goal trail, goal ∉ visited → IsFirst place next way items goal trail →
    ¬ Passes next goal level trail

/-- Nothing is listed twice below an item and after it, if what is listed after it is new. -/
theorem nodup_cons_iff (new : item ∉ visited)
    (finds : Finds next (next item) (insert item visited) below entered) :
    ((item :: below ++ others).Nodup ∧ ∀ goal ∈ item :: below ++ others, goal ∉ visited) ↔
      below.Nodup ∧ others.Nodup ∧ ∀ goal ∈ others, goal ∉ entered := by
  have belowNew (goal : ε) (member : goal ∈ below) : goal ∉ insert item visited :=
    ((finds.found_iff goal).mp member).notMem
  have belowEntered (goal : ε) (member : goal ∈ below) : goal ∈ entered :=
    (finds.left_iff goal).mpr (.inr ((finds.found_iff goal).mp member))
  have itemEntered : item ∈ entered := (finds.left_iff item).mpr (.inl (Finset.mem_insert_self _ _))
  constructor
  · rintro ⟨distinct, allNew⟩
    obtain ⟨first, second, apart⟩ := List.nodup_append.mp distinct
    refine ⟨(List.nodup_cons.mp first).2, second, fun goal member inside => ?_⟩
    rcases (finds.left_iff goal).mp inside with old | fresh
    · rcases Finset.mem_insert.mp old with rfl | old
      · exact apart goal List.mem_cons_self goal member rfl
      · exact allNew goal (List.mem_append_right _ member) old
    · have twice := (finds.found_iff goal).mpr fresh
      exact apart goal (List.mem_cons_of_mem _ twice) goal member rfl
  · rintro ⟨first, second, later⟩
    constructor
    · refine List.nodup_append.mpr ⟨List.nodup_cons.mpr ⟨fun member => ?_, first⟩, second, ?_⟩
      · exact belowNew item member (Finset.mem_insert_self _ _)
      · rintro goal member other otherMember rfl
        refine later goal otherMember ?_
        rcases List.mem_cons.mp member with rfl | member
        · exact itemEntered
        · exact belowEntered goal member
    · intro goal member old
      rcases List.mem_append.mp member with inFirst | inSecond
      · rcases List.mem_cons.mp inFirst with rfl | inBelow
        · exact new old
        · exact belowNew goal inBelow (Finset.mem_insert_of_mem old)
      · exact later goal inSecond (finds.leaves.subset old)

section Order

variable {whole : Finset ε} (closed : ∀ item, ∀ other ∈ next item, other ∈ whole)
  (placed : ∀ item, Placed place (next item)) {level : List ε}

include closed placed in
theorem isFirst_below (complete : Complete next way visited) (new : item ∉ visited)
    (sorted : Placed place (item :: rest))
    (fresh : Fresh next (insert item visited) (next item) goal) :
    IsFirst place next way (item :: rest) goal trail ↔ ∃ below, trail = item :: below ∧
      IsFirst place next (insert item way) (next item) goal below := by
  have reached := ((complete.enter item).fresh_iff fresh.notMem).mp fresh
  obtain ⟨onward, first⟩ := exists_isFirst closed placed (closed item) (placed item) reached
  refine isFirst_down (fun onWay => new (complete.1 onWay)) ?_ (List.pairwise_cons.mp sorted).1
    first.1
  rintro rfl
  exact fresh.notMem (Finset.mem_insert_self _ _)

theorem isFirst_after (complete : Complete next way visited)
    (leaves : Leaves next item visited entered) (away : goal ∉ entered) :
    IsFirst place next way (item :: rest) goal trail ↔
      IsFirst place next way rest goal trail := by
  have apart : item ≠ goal := by
    rintro rfl
    exact away ((leaves item).mpr (.inl (Finset.mem_insert_self _ _)))
  have new : goal ∉ insert item visited := fun inside => away ((leaves goal).mpr (.inl inside))
  refine isFirst_skip (.inr ⟨apart, fun fresh => away ((leaves goal).mpr (.inr ?_))⟩)
  exact ((complete.enter item).fresh_iff new).mpr fresh

include closed placed in
theorem direct_cons_iff (complete : Complete next way visited) (new : item ∉ visited)
    (sorted : Placed place (item :: rest)) (leaves : Leaves next item visited entered)
    (cover : ∀ goal ∈ level, goal ∈ visited ∨ goal ∈ item :: rest)
    (clear : ∀ other ∈ rest, other ∉ entered) :
    Direct place next way visited level (item :: rest) ↔
      Direct place next (insert item way) (insert item visited) (next item) (next item) ∧
        Direct place next way entered level rest := by
  constructor
  · intro direct
    constructor
    · intro goal trail away first passes
      have fresh := ((complete.enter item).fresh_iff away).mpr first.1.fresh
      refine direct goal (item :: trail) (fun old => away (Finset.mem_insert_of_mem old)) ?_
        (.inr passes)
      exact (isFirst_below closed placed complete new sorted fresh).mpr ⟨trail, rfl, first⟩
    · intro goal trail away first
      refine direct goal trail (fun old => away (leaves.subset old)) ?_
      exact (isFirst_after complete leaves away).mpr first
  · rintro ⟨below, after⟩ goal trail away first passes
    by_cases inside : goal ∈ entered
    · rcases (leaves goal).mp inside with old | fresh
      · obtain rfl := (Finset.mem_insert.mp old).resolve_right away
        obtain rfl := (isFirst_self (fun onWay => new (complete.1 onWay))
          (List.pairwise_cons.mp sorted).1).mp first
        rcases passes with ⟨longer, -⟩ | none'
        · exact longer rfl
        · exact none'
      · obtain ⟨trail, rfl, later⟩ :=
          (isFirst_below closed placed complete new sorted fresh).mp first
        rcases passes with ⟨-, member⟩ | passes
        · rcases List.mem_cons.mp ((cover goal member).resolve_left away) with rfl | later
          · exact fresh.notMem (Finset.mem_insert_self _ _)
          · exact clear goal later inside
        · exact below goal trail fresh.notMem later passes
    · exact after goal trail inside ((isFirst_after complete leaves inside).mp first) passes

include closed placed in
theorem walkEach_nodup_iff {enter : ε → Finset ε → Option (List ε × Finset ε)}
    (finds : ∀ item visited below entered, enter item visited = some (below, entered) →
      Finds next (next item) visited below entered)
    (nodup : ∀ item way visited below entered, Complete next way visited →
      enter item visited = some (below, entered) →
        (below.Nodup ↔ Direct place next way visited (next item) (next item)))
    (complete : Complete next way visited) (new : ∀ item ∈ items, item ∉ visited)
    (sorted : Placed place items) (among : ∀ item ∈ items, item ∈ level)
    (cover : ∀ goal ∈ level, goal ∈ visited ∨ goal ∈ items)
    (walked : walkEach id enter items visited = some (found, left)) :
    (found.Nodup ∧ ∀ goal ∈ found, goal ∉ visited) ↔
      Direct place next way visited level items := by
  induction items generalizing visited found with
  | nil =>
      cases walked
      refine iff_of_true ⟨List.nodup_nil, fun _ member => by cases member⟩ ?_
      exact fun goal trail _ first => absurd first.1.fresh not_fresh_nil
  | cons item rest ih =>
      obtain ⟨below, entered, others, first, second, rfl⟩ := walkEach_cons.mp walked
      have found := finds _ _ _ _ first
      have itemNew := new item List.mem_cons_self
      rw [nodup_cons_iff itemNew found]
      by_cases clear : ∀ other ∈ rest, other ∉ entered
      · have coverRest (goal : ε) (member : goal ∈ level) : goal ∈ entered ∨ goal ∈ rest := by
          rcases cover goal member with old | listed
          · exact .inl (found.leaves.subset old)
          · rcases List.mem_cons.mp listed with rfl | later
            · exact .inl ((found.left_iff goal).mpr (.inl (Finset.mem_insert_self _ _)))
            · exact .inr later
        rw [direct_cons_iff closed placed complete itemNew sorted found.leaves cover clear,
          nodup _ _ _ _ _ (complete.enter item) first]
        exact and_congr_right fun _ => ih (complete.leave found.leaves) clear
          (List.pairwise_cons.mp sorted).2 (fun other member => among other (.tail _ member))
          coverRest second
      -- a later item that has been visited below is listed there and once more
      · obtain ⟨other, member, inside⟩ : ∃ other ∈ rest, other ∈ entered := by simpa using clear
        have again := (walkEach_enters finds second).listed other member
        refine iff_of_false (fun ⟨_, _, later⟩ => later other again inside) fun direct => ?_
        have otherNew := new other (.tail _ member)
        have fresh : Fresh next (insert item visited) (next item) other := by
          refine ((found.left_iff other).mp inside).resolve_left fun old => ?_
          rcases Finset.mem_insert.mp old with rfl | old
          · exact Nat.lt_irrefl _ ((List.pairwise_cons.mp sorted).1 other member)
          · exact otherNew old
        obtain ⟨onward, firstOnward⟩ := exists_isFirst closed placed (closed item) (placed item)
          (((complete.enter item).fresh_iff fresh.notMem).mp fresh)
        have firstTrail := (isFirst_below closed placed complete itemNew sorted fresh).mpr
          ⟨onward, rfl, firstOnward⟩
        refine direct other _ otherNew firstTrail (.inl ⟨?_, among other (.tail _ member)⟩)
        rintro rfl
        exact not_trailTo_nil firstOnward.1

/-- Only new items begin a trail to something new. -/
theorem isFirst_unvisited (complete : Complete next way visited) (new : goal ∉ visited) :
    IsFirst place next way (unvisited items visited) goal trail ↔
      IsFirst place next way items goal trail := by
  refine isFirst_congr fun trail => ?_
  cases trail with
  | nil => exact iff_of_false not_trailTo_nil not_trailTo_nil
  | cons item rest =>
      rw [trailTo_cons, trailTo_cons, mem_unvisited]
      refine ⟨fun ⟨⟨listed, _⟩, onward⟩ => ⟨listed, onward⟩, fun ⟨listed, open', reaches⟩ =>
        ⟨⟨listed, fun old => new ?_⟩, open', reaches⟩⟩
      rcases reaches with ⟨-, rfl⟩ | onward
      · exact old
      · exact complete.stays old open' (onward.fresh.mono (Finset.subset_insert item way))

include closed placed in
/-- A call lists nothing twice exactly when all first trails are direct. -/
theorem walk_nodup_iff {fuel : Nat} (complete : Complete next way visited)
    (sorted : Placed place items) (walked : walk id next fuel items visited = some (found, left)) :
    found.Nodup ↔ Direct place next way visited items items := by
  induction fuel generalizing items way visited found left with
  | zero => cases walked
  | succ fuel ih =>
      have finds := walk_finds walked
      have allNew : ∀ goal ∈ found, goal ∉ visited := fun goal member =>
        ((finds.found_iff goal).mp member).notMem
      have cover : ∀ goal ∈ items, goal ∈ visited ∨ goal ∈ unvisited items visited :=
        fun goal member =>
          or_iff_not_imp_left.mpr fun new => mem_unvisited.mpr ⟨member, new⟩
      have each := walkEach_nodup_iff closed placed (fun _ _ _ _ below => walk_finds below)
        (fun item _ _ _ _ complete below => ih complete (placed item) below) complete
        (fun item member => (mem_unvisited.mp member).2) (sorted.filter _)
        (fun item member => (mem_unvisited.mp member).1) cover walked
      refine (and_iff_left allNew).symm.trans (each.trans ?_)
      refine forall₂_congr fun goal trail => forall_congr' fun new => ?_
      rw [isFirst_unvisited complete new]

end Order

section Keys

variable {κ : Type} [DecidableEq κ] {key : ε → κ} {whole : Finset ε}

/-- The visited items as their keys. -/
def keyed (key : ε → κ) (result : List ε × Finset ε) : List ε × Finset κ :=
  (result.1, result.2.image key)

theorem walkEach_image {enter : ε → Finset ε → Option (List ε × Finset ε)}
    {enterKey : ε → Finset κ → Option (List ε × Finset κ)}
    (inside : ∀ item ∈ items, item ∈ whole) (within : visited ⊆ whole)
    (kept : ∀ item visited below entered, visited ⊆ whole →
      enter item visited = some (below, entered) → entered ⊆ whole)
    (same : ∀ item visited, visited ⊆ whole →
      enterKey item (visited.image key) = (enter item visited).map (keyed key)) :
    walkEach key enterKey items (visited.image key) =
      (walkEach id enter items visited).map (keyed key) := by
  induction items generalizing visited with
  | nil => rfl
  | cons item rest ih =>
      obtain ⟨here, later⟩ := List.forall_mem_cons.mp inside
      have more : insert item visited ⊆ whole := Finset.insert_subset here within
      rw [walkEach, walkEach, ← Finset.image_insert, same item _ more, id]
      cases walked : enter item (insert item visited) with
      | none => rfl
      | some result =>
          obtain ⟨below, entered⟩ := result
          have := ih later (kept _ _ _ _ more walked)
          simp only [Option.map_some, keyed, Option.bind_eq_bind, Option.bind_some, this]
          cases walkEach id enter rest entered <;> rfl

theorem walk_image (injective : ∀ first ∈ whole, ∀ second ∈ whole,
      key first = key second → first = second)
    (closed : ∀ item, ∀ other ∈ next item, other ∈ whole)
    {fuel : Nat} (inside : ∀ item ∈ items, item ∈ whole) (within : visited ⊆ whole) :
    walk key next fuel items (visited.image key) =
      (walk id next fuel items visited).map (keyed key) := by
  induction fuel generalizing items visited with
  | zero => rfl
  | succ fuel ih =>
      have same : (items.filter fun item => key item ∉ visited.image key) =
          items.filter fun item => id item ∉ visited := by
        refine List.filter_congr fun item member => decide_eq_decide.mpr (not_congr ?_)
        rw [Finset.mem_image]
        refine ⟨fun ⟨other, old, keys⟩ => ?_, fun old => ⟨item, old, rfl⟩⟩
        rwa [← injective other (within old) item (inside item member) keys]
      rw [walk, walk, same]
      refine walkEach_image (fun item member => inside item (List.mem_filter.mp member).1) within
        (fun item visited below entered within walked other left => ?_)
        fun item visited within => ih (closed item) within
      rcases ((walk_finds walked).left_iff other).mp left with old | fresh
      · exact within old
      · cases fresh with
        | root listed _ => exact closed item other listed
        | step _ follows _ => exact closed _ other follows

end Keys

end Univiz.Data
