import Mathlib.Data.Finset.Basic
import Mathlib.Data.Finset.Dedup
import Mathlib.Data.List.Nodup

namespace Univiz.Data

/-! Lists of keyed entries that are kept beside the set of their keys. -/

variable {α κ : Type} [DecidableEq κ]

/-- The keys of the entries are distinct, and the index is the set of them. -/
structure Indexed (key : α → κ) (entries : List α) (index : Finset κ) : Prop where
  distinct : (entries.map key).Nodup
  exact : index = (entries.map key).toFinset

def addKeys (key : α → κ) (index : Finset κ) (added : List α) : Finset κ :=
  added.foldl (fun index entry => insert (key entry) index) index

def eraseKeys (index : Finset κ) (keys : List κ) : Finset κ := keys.foldl Finset.erase index

/-- The entries that the index does not have, as often as they are given. -/
def unindexed (key : α → κ) (index : Finset κ) (added : List α) : List α :=
  added.filter fun entry => key entry ∉ index

def pushUnseen (key : α → κ) (seen : Finset κ × List α) (entry : α) : Finset κ × List α :=
  if key entry ∈ seen.1 then seen else (insert (key entry) seen.1, seen.2 ++ [entry])

/-- Keeps the first entry with each key. -/
def dedupBy (key : α → κ) (entries : List α) : Finset κ × List α :=
  entries.foldl (pushUnseen key) (∅, [])

variable {key : α → κ} {entries added : List α} {index : Finset κ}

theorem mem_addKeys {k : κ} :
    k ∈ addKeys key index added ↔ k ∈ index ∨ k ∈ added.map key := by
  induction added generalizing index with
  | nil => simp [addKeys]
  | cons entry rest ih =>
      have later : k ∈ addKeys key index (entry :: rest) ↔
          k ∈ insert (key entry) index ∨ k ∈ rest.map key := ih
      rw [later, Finset.mem_insert, List.map_cons, List.mem_cons]
      tauto

theorem mem_eraseKeys {keys : List κ} {k : κ} :
    k ∈ eraseKeys index keys ↔ k ∈ index ∧ k ∉ keys := by
  induction keys generalizing index with
  | nil => simp [eraseKeys]
  | cons first rest ih =>
      have later : k ∈ eraseKeys index (first :: rest) ↔ k ∈ index.erase first ∧ k ∉ rest := ih
      rw [later, Finset.mem_erase, List.mem_cons]
      tauto

namespace Indexed

theorem mem_iff (indexed : Indexed key entries index) {k : κ} :
    k ∈ index ↔ k ∈ entries.map key := by
  rw [indexed.exact, List.mem_toFinset]

theorem nil : Indexed key [] ∅ := ⟨List.nodup_nil, rfl⟩

theorem of_map {update : α → α} (same : ∀ entry, key (update entry) = key entry)
    (indexed : Indexed key entries index) : Indexed key (entries.map update) index := by
  have keys : (entries.map update).map key = entries.map key := by
    rw [List.map_map]
    exact List.map_congr_left fun entry _ => same entry
  exact ⟨keys ▸ indexed.distinct, keys ▸ indexed.exact⟩

theorem toFinset_iff : Indexed key entries (entries.map key).toFinset ↔
    (entries.map key).Nodup :=
  ⟨Indexed.distinct, fun distinct => ⟨distinct, rfl⟩⟩

/-- Entries that are filtered against the old index alone have to be distinct themselves. -/
theorem append_iff (indexed : Indexed key entries index) :
    Indexed key (entries ++ unindexed key index added)
        (addKeys key index (unindexed key index added)) ↔
      ((unindexed key index added).map key).Nodup := by
  refine ⟨?_, ?_⟩
  · intro extended
    have distinct := extended.distinct
    rw [List.map_append] at distinct
    exact distinct.of_append_right
  · intro distinct
    refine ⟨?_, ?_⟩
    · rw [List.map_append]
      refine List.Nodup.append indexed.distinct distinct ?_
      intro k old new
      obtain ⟨entry, member, rfl⟩ := List.mem_map.mp new
      have absent := (List.mem_filter.mp member).2
      exact of_decide_eq_true absent (indexed.mem_iff.mpr old)
    · ext k
      rw [mem_addKeys, indexed.mem_iff, List.mem_toFinset, List.map_append, List.mem_append]

theorem push (indexed : Indexed key entries index) {entry : α} (absent : key entry ∉ index) :
    Indexed key (entries ++ [entry]) (insert (key entry) index) := by
  refine ⟨?_, ?_⟩
  · rw [List.map_append]
    refine List.Nodup.append indexed.distinct (List.nodup_singleton _) ?_
    intro k old new
    rw [List.map_singleton, List.mem_singleton] at new
    exact absent (indexed.mem_iff.mpr (new ▸ old))
  · ext k
    rw [Finset.mem_insert, indexed.mem_iff, List.mem_toFinset, List.map_append, List.mem_append,
      List.map_singleton, List.mem_singleton]
    exact or_comm

theorem dedupBy (entries : List α) :
    Indexed key (dedupBy key entries).2 (dedupBy key entries).1 := by
  suffices kept : ∀ seen : Finset κ × List α, Indexed key seen.2 seen.1 →
      Indexed key (entries.foldl (pushUnseen key) seen).2
        (entries.foldl (pushUnseen key) seen).1 from kept (∅, []) nil
  induction entries with
  | nil => exact fun _ indexed => indexed
  | cons entry rest ih =>
      intro seen indexed
      refine ih _ ?_
      unfold pushUnseen
      split
      · exact indexed
      · rename_i absent
        exact indexed.push absent

theorem filter (indexed : Indexed key entries index) (keep : α → Bool) :
    Indexed key (entries.filter keep) ((entries.filter keep).map key).toFinset :=
  toFinset_iff.mpr ((List.filter_sublist.map key).nodup indexed.distinct)

/-- No two entries share a key, so the index loses the keys of the entries that go. -/
theorem filter_erase (indexed : Indexed key entries index) {keep : α → Bool} {keys : List κ}
    (gone : ∀ entry ∈ entries, key entry ∈ keys ↔ keep entry = false) :
    Indexed key (entries.filter keep) (eraseKeys index keys) := by
  refine ⟨(indexed.filter keep).distinct, ?_⟩
  ext k
  rw [mem_eraseKeys, indexed.mem_iff, List.mem_toFinset, List.mem_map, List.mem_map]
  refine ⟨?_, ?_⟩
  · rintro ⟨⟨entry, member, rfl⟩, stays⟩
    have kept : keep entry = true := by
      rw [← Bool.not_eq_false]
      exact fun dropped => stays ((gone entry member).mpr dropped)
    exact ⟨entry, List.mem_filter.mpr ⟨member, kept⟩, rfl⟩
  · rintro ⟨entry, member, rfl⟩
    obtain ⟨member, kept⟩ := List.mem_filter.mp member
    refine ⟨⟨entry, member, rfl⟩, ?_⟩
    intro listed
    exact absurd ((gone entry member).mp listed) (by rw [kept]; exact Bool.false_ne_true.symm)

theorem eq_of_key (indexed : Indexed key entries index) {one other : α} (member : one ∈ entries)
    (member' : other ∈ entries) (same : key one = key other) : one = other :=
  List.inj_on_of_nodup_map indexed.distinct member member' same

end Indexed

end Univiz.Data
