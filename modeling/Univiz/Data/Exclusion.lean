import Mathlib.Algebra.BigOperators.Group.List.Basic
import Mathlib.Algebra.Order.Group.Multiset
import Mathlib.Data.Multiset.UnionInter
import Univiz.Data.Transition

namespace Univiz.Data

/-! Resources that are held, and a step after which every holder is an old one or
has just entered. -/

variable {ρ ι : Type} {before after entering : ρ → ι → Prop}

/-- Every resource has at most one holder. -/
def Sole (holds : ρ → ι → Prop) : Prop :=
  ∀ resource first second, holds resource first → holds resource second → first = second

theorem Sole.mono (sole : Sole before)
    (origin : ∀ resource holder, after resource holder → before resource holder) : Sole after :=
  fun resource first second holds holds' =>
    sole resource first second (origin resource first holds) (origin resource second holds')

theorem Sole.next (sole : Sole before) (single : Sole entering)
    (origin : ∀ resource holder, after resource holder →
      before resource holder ∨ entering resource holder)
    (alone : ∀ resource holder other, entering resource holder → before resource other →
      other = holder) : Sole after := by
  intro resource first second holds holds'
  rcases origin resource first holds with old | enters
  · rcases origin resource second holds' with old' | enters'
    · exact sole resource first second old old'
    · exact alone resource second first enters' old
  · rcases origin resource second holds' with old' | enters'
    · exact (alone resource first second enters old').symm
    · exact single resource first second enters enters'

/-! Parties of a list of which every two are related. -/

variable {α : Type} {relation : α → α → Prop} {parties : List α} {i : Nat} {newcomer : α}

def Mutually (relation : α → α → Prop) (parties : List α) : Prop :=
  ∀ (i j : Nat) (found other : α), parties[i]? = some found → parties[j]? = some other → i ≠ j →
    relation found other

theorem Mutually.nil : Mutually relation [] := by
  intro i j found other lookup
  cases lookup

theorem Mutually.set (apart : Mutually relation parties)
    (left : ∀ j other, i ≠ j → parties[j]? = some other → relation newcomer other)
    (right : ∀ j other, i ≠ j → parties[j]? = some other → relation other newcomer) :
    Mutually relation (parties.set i newcomer) := by
  intro j k found other lookup lookup' different
  rcases getElem?_set_cases lookup with ⟨rfl, rfl⟩ | ⟨apart', old⟩
  · rcases getElem?_set_cases lookup' with ⟨same, -⟩ | ⟨apart', old'⟩
    · exact absurd same different
    · exact left k other apart' old'
  · rcases getElem?_set_cases lookup' with ⟨rfl, rfl⟩ | ⟨-, old'⟩
    · exact right j found apart' old
    · exact apart j k found other old old' different

theorem Mutually.concat (apart : Mutually relation parties)
    (left : ∀ other ∈ parties, relation newcomer other)
    (right : ∀ other ∈ parties, relation other newcomer) :
    Mutually relation (parties ++ [newcomer]) := by
  intro j k found other lookup lookup' different
  rw [List.getElem?_append] at lookup lookup'
  split at lookup
  · split at lookup'
    · exact apart j k found other lookup lookup' different
    · cases List.mem_singleton.mp (List.mem_of_getElem? lookup')
      exact right found (List.mem_of_getElem? lookup)
  · have last := (List.getElem?_eq_some_iff.mp lookup).1
    cases List.mem_singleton.mp (List.mem_of_getElem? lookup)
    split at lookup'
    · exact left other (List.mem_of_getElem? lookup')
    · have last' := (List.getElem?_eq_some_iff.mp lookup').1
      simp only [List.length_singleton] at last last'
      omega

/-! What the parties of a list hold together. -/

section Shares

variable {β : Type}

theorem sum_map_set {μ : Type} [AddCommMonoid μ] {share : α → μ} {found : α}
    (lookup : parties[i]? = some found) :
    ((parties.set i newcomer).map share).sum + share found =
      (parties.map share).sum + share newcomer := by
  induction parties generalizing i with
  | nil => cases lookup
  | cons head rest ih =>
      cases i with
      | zero =>
          cases lookup
          rw [List.set_cons_zero, List.map_cons, List.map_cons, List.sum_cons, List.sum_cons,
            add_comm (share newcomer), add_comm _ (share found), add_assoc]
      | succ i =>
          rw [List.set_cons_succ, List.map_cons, List.map_cons, List.sum_cons, List.sum_cons,
            add_assoc, add_assoc, ih lookup]

theorem share_le_sum {share : α → Multiset β} {found : α} (member : found ∈ parties) :
    share found ≤ (parties.map share).sum := by
  induction parties with
  | nil => cases member
  | cons head rest ih =>
      rw [List.map_cons, List.sum_cons]
      rcases List.mem_cons.mp member with rfl | later
      · exact Multiset.le_add_right _ _
      · exact (ih later).trans (Multiset.le_add_left _ _)

/-- Where nothing is held twice, no two parties hold the same. -/
theorem disjoint_shares {share : α → Multiset β} (alone : (parties.map share).sum.Nodup) :
    Mutually (fun one other => Disjoint (share one) (share other)) parties := by
  have pairwise : parties.Pairwise fun one other => Disjoint (share one) (share other) := by
    induction parties with
    | nil => exact List.Pairwise.nil
    | cons head rest ih =>
        rw [List.map_cons, List.sum_cons, Multiset.nodup_add] at alone
        refine List.pairwise_cons.mpr ⟨?_, ih alone.2.1⟩
        intro other member
        exact alone.2.2.mono_right (share_le_sum member)
  intro i j found other lookup lookup' apart
  exact pairwise_of_ne (fun _ _ disjoint => disjoint.symm) pairwise lookup lookup' apart

end Shares

end Univiz.Data
