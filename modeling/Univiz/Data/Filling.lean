import Mathlib.Data.List.Induction
import Univiz.Data.OrderedMap

namespace Univiz.Data

/-! Tables that are filled one item at a time, each entry from the one of the item's parent.

Where every parent comes before its children, the order of the items has no part in what the
table holds in the end. -/

variable {α β κ : Type} {key : α → κ} {parent : κ → Option κ}
  {resolve : α → Option β → Option β} {rank : κ → Nat} {items others : List α}

/-- Items with one key are alike, and the parent of an item, if it is an item, ranks below it. -/
structure Ranked (key : α → κ) (parent : κ → Option κ) (resolve : α → Option β → Option β)
    (rank : κ → Nat) (items : List α) : Prop where
  alike : ∀ item ∈ items, ∀ twin ∈ items, key item = key twin → resolve item = resolve twin
  below : ∀ item ∈ items, ∀ above ∈ items, parent (key item) = some (key above) →
    rank (key above) < rank (key item)

theorem Ranked.subset (ranked : Ranked key parent resolve rank items) (within : others ⊆ items) :
    Ranked key parent resolve rank others where
  alike item member twin twinMember := ranked.alike item (within member) twin (within twinMember)
  below item member above aboveMember :=
    ranked.below item (within member) above (within aboveMember)

variable [DecidableEq κ] {table other : OrderedMap κ β}

/-- The entry of the parent of a key. -/
def inherited (parent : κ → Option κ) (table : OrderedMap κ β) (name : κ) : Option β :=
  (parent name).bind table.get

def fill (key : α → κ) (parent : κ → Option κ) (resolve : α → Option β → Option β)
    (table : OrderedMap κ β) (item : α) : OrderedMap κ β :=
  match resolve item (inherited parent table (key item)) with
  | some value => table.set (key item) value
  | none => table

/-- Each item has the entry that the one of its parent makes, and there are no other entries. -/
structure IsFilled (key : α → κ) (parent : κ → Option κ) (resolve : α → Option β → Option β)
    (items : List α) (table : OrderedMap κ β) : Prop where
  entry : ∀ item ∈ items,
    table.get (key item) = resolve item (inherited parent table (key item))
  only : ∀ name, name ∉ items.map key → table.get name = none

/-- What is inherited stays where the entry of the parent does. -/
theorem inherited_congr {name : κ}
    (same : ∀ above, parent name = some above → table.get above = other.get above) :
    inherited parent table name = inherited parent other name := by
  rw [inherited, inherited]
  cases linked : parent name with
  | none => rfl
  | some above => rw [Option.bind_some, Option.bind_some, same above linked]

theorem get_fill_of_ne {item : α} {name : κ} (apart : key item ≠ name) :
    (fill key parent resolve table item).get name = table.get name := by
  rw [fill]
  split
  · rw [OrderedMap.get_set, if_neg apart]
  · rfl

/-- The item that comes last, where it is no parent. -/
theorem IsFilled.fill {last : α} (filled : IsFilled key parent resolve items table)
    (alike : ∀ item ∈ items, key item = key last → resolve item = resolve last)
    (childless : ∀ item ∈ items, parent (key item) ≠ some (key last))
    (apart : parent (key last) ≠ some (key last)) :
    IsFilled key parent resolve (items ++ [last]) (fill key parent resolve table last) := by
  have kept {name : κ} (free : parent name ≠ some (key last)) :
      inherited parent (Data.fill key parent resolve table last) name =
        inherited parent table name := by
    apply inherited_congr
    rintro above linked
    apply get_fill_of_ne
    rintro rfl
    exact free linked
  have newest : (Data.fill key parent resolve table last).get (key last) =
      resolve last (inherited parent table (key last)) := by
    rw [Data.fill]
    cases resolved : resolve last (inherited parent table (key last)) with
    | some value => simp only [OrderedMap.get_set, ↓reduceIte]
    | none =>
        -- an earlier item with this key has come to nothing too
        by_cases named : key last ∈ items.map key
        · obtain ⟨twin, member, same⟩ := List.mem_map.mp named
          rw [← same] at resolved ⊢
          rw [filled.entry twin member, alike twin member same, resolved]
        · exact filled.only _ named
  constructor
  · intro item member
    obtain early | rfl := (List.mem_append.mp member).imp_right List.mem_singleton.mp
    · rw [kept (childless item early)]
      by_cases same : key item = key last
      · rw [alike item early same, same, newest]
      · rw [get_fill_of_ne (Ne.symm same), filled.entry item early]
    · rw [kept apart, newest]
  · intro name missing
    rw [List.map_append, List.mem_append, not_or, List.map_singleton, List.mem_singleton] at missing
    rw [get_fill_of_ne (Ne.symm missing.2), filled.only name missing.1]

theorem isFilled_foldl (ranked : Ranked key parent resolve rank items)
    (sorted : items.Pairwise fun item later => rank (key item) ≤ rank (key later)) :
    IsFilled key parent resolve items
      (items.foldl (fill key parent resolve) OrderedMap.empty) := by
  induction items using List.reverseRecOn with
  | nil => exact ⟨fun _ member => absurd member List.not_mem_nil, fun _ _ => rfl⟩
  | append_singleton init last ih =>
      obtain ⟨initSorted, _, before⟩ := List.pairwise_append.mp sorted
      have filled := ih (ranked.subset (List.subset_append_left _ _)) initSorted
      have lastMember : last ∈ init ++ [last] := List.mem_concat_self
      rw [List.foldl_append, List.foldl_cons, List.foldl_nil]
      apply filled.fill
      · intro item member
        exact ranked.alike item (List.mem_append_left _ member) last lastMember
      · intro item member linked
        have lower := ranked.below item (List.mem_append_left _ member) last lastMember linked
        have := before item member last (List.mem_singleton_self last)
        omega
      · intro linked
        exact absurd (ranked.below last lastMember last lastMember linked) (Nat.lt_irrefl _)

theorem IsFilled.congr (filled : IsFilled key parent resolve items table)
    (same : others.Perm items) : IsFilled key parent resolve others table where
  entry item member := filled.entry item (same.mem_iff.mp member)
  only name missing := filled.only name fun named => missing ((same.map key).mem_iff.mpr named)

/-- Two tables that are filled with the same items agree. -/
theorem IsFilled.get_eq (ranked : Ranked key parent resolve rank items)
    (filled : IsFilled key parent resolve items table)
    (otherFilled : IsFilled key parent resolve items other) (name : κ) :
    table.get name = other.get name := by
  generalize size : rank name = bound
  induction bound using Nat.strongRecOn generalizing name with
  | ind bound ih =>
      by_cases named : name ∈ items.map key
      · obtain ⟨item, member, rfl⟩ := List.mem_map.mp named
        rw [filled.entry item member, otherFilled.entry item member]
        congr 1
        apply inherited_congr
        intro above linked
        by_cases inside : above ∈ items.map key
        · obtain ⟨parentItem, parentMember, rfl⟩ := List.mem_map.mp inside
          exact ih _ (size ▸ ranked.below item member parentItem parentMember linked) _ rfl
        · rw [filled.only above inside, otherFilled.only above inside]
      · rw [filled.only name named, otherFilled.only name named]

end Univiz.Data
