import Mathlib.Data.Finset.Card

namespace Univiz.Data

/-! Published tallies.

A tally keeps the set of contributors of every slot and, apart from it, the
count it has published for the slot.  A slot without contributors publishes
nothing.  The abstract value behind a tally is the function from slots to
contributors.
-/

structure Tally (slot ident : Type) where
  members : slot → Finset ident
  published : slot → Option Nat

namespace Tally

variable {slot ident : Type}

/-- What a settled slot with these contributors publishes. -/
def countOf (contributors : Finset ident) : Option Nat :=
  if contributors.card = 0 then none else some contributors.card

theorem countOf_of_mem {contributors : Finset ident} {id : ident} (member : id ∈ contributors) :
    countOf contributors = some contributors.card :=
  if_neg (Finset.card_ne_zero_of_mem member)

structure SettledAt (tally : Tally slot ident) (place : slot) : Prop where
  present_iff : (tally.published place).isSome = true ↔ (tally.members place).Nonempty
  count : ∀ weight, tally.published place = some weight → weight = (tally.members place).card

theorem settledAt_iff {tally : Tally slot ident} {place : slot} :
    tally.SettledAt place ↔ tally.published place = countOf (tally.members place) := by
  unfold countOf
  constructor
  · intro settled
    by_cases empty : (tally.members place).card = 0
    · rw [if_pos empty]
      rw [Finset.card_eq_zero] at empty
      have absent := settled.present_iff
      rw [empty] at absent
      simpa using absent
    · have nonempty := Finset.card_pos.mp (Nat.pos_of_ne_zero empty)
      obtain ⟨weight, published⟩ := Option.isSome_iff_exists.mp (settled.present_iff.mpr nonempty)
      rw [if_neg empty, published, settled.count weight published]
  · intro published
    constructor
    · rw [published]
      split <;> rename_i empty
      · simpa using Finset.card_eq_zero.mp empty
      · simpa using Finset.card_pos.mp (Nat.pos_of_ne_zero empty)
    · intro weight present
      rw [published] at present
      split at present
      · cases present
      · exact (Option.some.inj present).symm

/-- On `places` the tally records `contributors` and has published their number. -/
def Represents (tally : Tally slot ident) (places : slot → Prop)
    (contributors : slot → Finset ident) : Prop :=
  ∀ place, places place → tally.members place = contributors place ∧
    tally.published place = countOf (contributors place)

variable {places : slot → Prop} {contributors : slot → Finset ident} {before : Tally slot ident}

theorem settled_iff_represents {tally : Tally slot ident} :
    (∀ place, places place → tally.SettledAt place) ↔ tally.Represents places tally.members := by
  simp only [Represents, settledAt_iff, true_and]

theorem Represents.settled (represents : before.Represents places contributors) {place : slot}
    (inside : places place) : before.SettledAt place := by
  obtain ⟨members, published⟩ := represents place inside
  rw [settledAt_iff, published, members]

/-- A slot whose contributors changed must be published again; for the others
the old publication still stands. -/
theorem Represents.next (represents : before.Represents places contributors)
    {after : Tally slot ident} {contributors' : slot → Finset ident}
    (members : ∀ place, places place → after.members place = contributors' place)
    (published : ∀ place, places place →
      after.published place = countOf (contributors' place) ∨
        contributors' place = contributors place ∧
          after.published place = before.published place) :
    after.Represents places contributors' := by
  intro place inside
  refine ⟨members place inside, ?_⟩
  rcases published place inside with fresh | ⟨same, kept⟩
  · exact fresh
  · rw [kept, same]
    exact (represents place inside).2

end Tally

end Univiz.Data
