import Mathlib.Data.Finset.Card
import Mathlib.Logic.Function.Basic

namespace Univiz.Data

/-! Ledgers of contributors.

An entry adds one contributor to some slots or takes it out of them.  A ledger
leaves nothing behind exactly when every slot of an added entry is among the
slots of a later entry that takes the same contributor out.
-/

variable {slot ident : Type} [DecidableEq slot] [DecidableEq ident]

/-- Writing slots one after another, where writing a slot twice changes nothing. -/
theorem foldl_update {value : Type} (write : slot → value → value)
    (again : ∀ place old, write place (write place old) = write place old) (batch : List slot)
    (cells : slot → value) (place : slot) :
    batch.foldl (fun cells place => Function.update cells place (write place (cells place))) cells
        place =
      if place ∈ batch then write place (cells place) else cells place := by
  induction batch generalizing cells with
  | nil => simp
  | cons head rest ih =>
      rw [List.foldl_cons, ih]
      by_cases same : place = head
      · subst same
        simp [again]
      · simp [same]

structure Entry (slot ident : Type) where
  added : Bool
  id : ident
  slots : List slot

namespace Entry

variable (entry : Entry slot ident) (contributors : slot → Finset ident) (place : slot) (id : ident)

def apply : slot → Finset ident := fun place =>
  if place ∈ entry.slots then
    if entry.added then insert entry.id (contributors place)
    else (contributors place).erase entry.id
  else contributors place

/-- The entry takes `id` out of `place`. -/
def Removes : Prop := entry.added = false ∧ entry.id = id ∧ place ∈ entry.slots

instance : Decidable (entry.Removes place id) :=
  inferInstanceAs (Decidable (_ ∧ _ ∧ _))

variable {entry contributors place id}

theorem mem_apply :
    id ∈ entry.apply contributors place ↔
      entry.added = true ∧ entry.id = id ∧ place ∈ entry.slots ∨
        id ∈ contributors place ∧ ¬ entry.Removes place id := by
  unfold apply Removes
  by_cases inside : place ∈ entry.slots
  · cases entry.added with
    | true => simp [inside, eq_comm]
    | false => simp [inside, and_comm, eq_comm]
  · simp [inside]

/-- An entry changes the number of contributors of a slot by at most one. -/
theorem card_apply :
    (entry.apply contributors place).card ≤ (contributors place).card + 1 ∧
      (contributors place).card ≤ (entry.apply contributors place).card + 1 := by
  unfold apply
  split
  · split
    · have larger := Finset.card_insert_le entry.id (contributors place)
      have kept := Finset.card_le_card (Finset.subset_insert entry.id (contributors place))
      omega
    · have smaller := Finset.card_erase_le (s := contributors place) (a := entry.id)
      have kept := Finset.pred_card_le_card_erase (s := contributors place) (a := entry.id)
      omega
  · omega

end Entry

def replay (contributors : slot → Finset ident) (entries : List (Entry slot ident)) :
    slot → Finset ident :=
  entries.foldl (fun contributors entry => entry.apply contributors) contributors

theorem replay_append (contributors : slot → Finset ident) (first second : List (Entry slot ident)) :
    replay contributors (first ++ second) = replay (replay contributors first) second :=
  List.foldl_append

/-- Whatever an entry adds, a later one removes. -/
def Retracted : List (Entry slot ident) → Prop
  | [] => True
  | entry :: later =>
      (entry.added = true → ∀ place ∈ entry.slots, ∃ other ∈ later, other.Removes place entry.id) ∧
        Retracted later

theorem replay_eq_empty_iff {contributors : slot → Finset ident}
    {entries : List (Entry slot ident)} :
    (∀ place, replay contributors entries place = ∅) ↔
      (∀ place, ∀ id ∈ contributors place, ∃ entry ∈ entries, entry.Removes place id) ∧
        Retracted entries := by
  induction entries generalizing contributors with
  | nil => simp [replay, Retracted, Finset.eq_empty_iff_forall_notMem]
  | cons entry later ih =>
      rw [show replay contributors (entry :: later) = replay (entry.apply contributors) later from rfl,
        ih, Retracted, ← and_assoc]
      apply and_congr_left
      intro _
      simp only [Entry.mem_apply, List.exists_mem_cons_iff]
      constructor
      · intro removed
        constructor
        · intro place id member
          by_cases now : entry.Removes place id
          · exact .inl now
          · exact .inr (removed place id (.inr ⟨member, now⟩))
        · intro added place inside
          exact removed place entry.id (.inl ⟨added, rfl, inside⟩)
      · intro ⟨old, new⟩ place id either
        rcases either with ⟨added, rfl, inside⟩ | ⟨member, kept⟩
        · exact new added place inside
        · exact (old place id member).resolve_left kept

/-- From nothing, nothing is left exactly when all that was added was removed. -/
theorem replay_empty_eq_empty_iff {entries : List (Entry slot ident)} :
    (∀ place, replay (fun _ => ∅) entries place = ∅) ↔ Retracted entries := by
  rw [replay_eq_empty_iff]
  simp

end Univiz.Data
