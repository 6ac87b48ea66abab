import Univiz.Data.OrderedMap

namespace Univiz.Data

/-! Rows merged by their keys: the first row of a key is kept as it is, and each later one
is combined into what is there. -/

variable {α κ : Type} [DecidableEq κ] {key : α → κ} {combine : α → α → α}

def mergeByKey (key : α → κ) (combine : α → α → α) (merged : OrderedMap κ α) (row : α) :
    OrderedMap κ α :=
  match merged.get (key row) with
  | none => merged.set (key row) row
  | some existing => merged.set (key row) (combine existing row)

/-- What is there for a key, with the later rows of the key combined into it. -/
def combined (combine : α → α → α) : Option α → List α → Option α
  | existing, [] => existing
  | none, row :: rest => combined combine (some row) rest
  | some existing, row :: rest => combined combine (some (combine existing row)) rest

theorem combined_some {existing : α} {rows : List α} :
    combined combine (some existing) rows = some (rows.foldl combine existing) := by
  induction rows generalizing existing with
  | nil => rfl
  | cons row rest ih => exact ih

theorem combined_cons {row : α} {rest : List α} :
    combined combine none (row :: rest) = some (rest.foldl combine row) :=
  combined_some

theorem get_foldl_mergeByKey {merged : OrderedMap κ α} {rows : List α} {name : κ} :
    (rows.foldl (mergeByKey key combine) merged).get name =
      combined combine (merged.get name) (rows.filter fun row => key row = name) := by
  induction rows generalizing merged with
  | nil => simp [combined]
  | cons row rest ih =>
      rw [List.foldl_cons, ih, List.filter_cons]
      by_cases here : key row = name
      · subst here
        rw [if_pos (decide_eq_true rfl), mergeByKey]
        cases present : merged.get (key row) with
        | none => rw [OrderedMap.get_set, if_pos rfl, combined]
        | some existing => rw [OrderedMap.get_set, if_pos rfl, combined]
      · rw [if_neg (by simpa using here), mergeByKey]
        cases present : merged.get (key row) with
        | none => rw [OrderedMap.get_set, if_neg here]
        | some existing => rw [OrderedMap.get_set, if_neg here]

/-- The rows of one key give one merged row. -/
def mergedAt (key : α → κ) (combine : α → α → α) (rows : List α) (row : α) : α :=
  (combined combine none (rows.filter fun other => key other = key row)).getD row

theorem get_merged {rows : List α} {row : α} (arrived : row ∈ rows) :
    (rows.foldl (mergeByKey key combine) OrderedMap.empty).get (key row) =
      some (mergedAt key combine rows row) := by
  rw [get_foldl_mergeByKey, OrderedMap.get_empty, mergedAt]
  cases same : rows.filter fun other => key other = key row with
  | nil =>
      have listed : row ∈ rows.filter fun other => key other = key row :=
        List.mem_filter.mpr ⟨arrived, decide_eq_true rfl⟩
      rw [same] at listed
      cases listed
  | cons first rest => rw [combined_cons, Option.getD_some]

/-- Only keys of the rows are merged. -/
theorem exists_of_get_merged {rows : List α} {name : κ} {found : α}
    (present : (rows.foldl (mergeByKey key combine) OrderedMap.empty).get name = some found) :
    ∃ row ∈ rows, key row = name := by
  rw [get_foldl_mergeByKey, OrderedMap.get_empty] at present
  cases same : rows.filter fun other => key other = name with
  | nil =>
      rw [same, combined] at present
      cases present
  | cons first rest =>
      have listed : first ∈ rows.filter fun other => key other = name :=
        same ▸ List.mem_cons_self
      obtain ⟨arrived, here⟩ := List.mem_filter.mp listed
      exact ⟨first, arrived, of_decide_eq_true here⟩

/-- The merged rows and the rows themselves are described alike exactly when every row is
described as the one that it is merged into. -/
theorem described_iff {γ : Type} {describe : α → γ} {rows : List α}
    (keyed : ∀ first second, describe first = describe second → key first = key second)
    (kept : ∀ row ∈ rows, key (mergedAt key combine rows row) = key row) :
    (∀ description, (∃ entry ∈ (rows.foldl (mergeByKey key combine) OrderedMap.empty).entries,
        describe entry.2 = description) ↔ ∃ row ∈ rows, describe row = description) ↔
      ∀ row ∈ rows, describe (mergedAt key combine rows row) = describe row := by
  have entered : ∀ {name : κ} {found : α},
      (name, found) ∈ (rows.foldl (mergeByKey key combine) OrderedMap.empty).entries →
        ∃ row ∈ rows, key row = name ∧ found = mergedAt key combine rows row := by
    intro name found entry
    have present := OrderedMap.get_eq_some.mpr entry
    obtain ⟨row, arrived, here⟩ := exists_of_get_merged present
    rw [← here, get_merged arrived] at present
    exact ⟨row, arrived, here, (Option.some.inj present).symm⟩
  have entry_of : ∀ row ∈ rows, (key row, mergedAt key combine rows row) ∈
      (rows.foldl (mergeByKey key combine) OrderedMap.empty).entries :=
    fun row arrived => OrderedMap.get_eq_some.mp (get_merged arrived)
  constructor
  · intro same row arrived
    obtain ⟨⟨name, found⟩, entry, described⟩ := (same (describe row)).mpr ⟨row, arrived, rfl⟩
    obtain ⟨other, otherArrived, rfl, rfl⟩ := entered entry
    have keys : key other = key row :=
      (kept other otherArrived).symm.trans (keyed _ _ described)
    have merged := @get_merged _ _ _ key combine _ _ otherArrived
    rw [keys, get_merged arrived] at merged
    rw [Option.some.inj merged, described]
  · intro same description
    constructor
    · rintro ⟨⟨name, found⟩, entry, rfl⟩
      obtain ⟨row, arrived, -, rfl⟩ := entered entry
      exact ⟨row, arrived, (same row arrived).symm⟩
    · rintro ⟨row, arrived, rfl⟩
      exact ⟨_, entry_of row arrived, same row arrived⟩

end Univiz.Data
