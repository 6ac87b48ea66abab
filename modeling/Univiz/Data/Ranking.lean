import Mathlib.Data.List.Sort

namespace Univiz.Data

/-! The first rows of an ordering.

A query orders its rows by a key, the greatest first, and returns the first of them.  Rows
with equal keys come in any order. -/

variable {α κ : Type} [LinearOrder κ] {key : α → κ} {rows : List α} {row : α} {limit : Nat}

structure Descending (key : α → κ) where
  arrange : List α → List α
  perm : ∀ rows, (arrange rows).Perm rows
  ordered : ∀ rows, (arrange rows).Pairwise fun first second => key second ≤ key first

/-- The rows that come before a row in every ordering. -/
def ahead (key : α → κ) (rows : List α) (row : α) : List α :=
  rows.filter fun other => key row < key other

/-- Those that need not, the row itself included. -/
def behind (key : α → κ) (rows : List α) (row : α) : List α :=
  rows.filter fun other => !decide (key row < key other)

theorem ahead_append_behind_perm (key : α → κ) (rows : List α) (row : α) :
    (ahead key rows row ++ behind key rows row).Perm rows :=
  List.filter_append_perm _ rows

theorem le_of_mem_behind {other : α} (member : other ∈ behind key rows row) :
    key other ≤ key row := by
  simpa using (List.mem_filter.mp member).2

namespace Descending

theorem mem_arrange (order : Descending key) : row ∈ order.arrange rows ↔ row ∈ rows :=
  (order.perm rows).mem_iff

theorem arrange_eq_nil_iff (order : Descending key) : order.arrange rows = [] ↔ rows = [] := by
  rw [← List.length_eq_zero_iff, ← List.length_eq_zero_iff, (order.perm rows).length_eq]

/-- The first row has the greatest key. -/
theorem head_greatest (order : Descending key) {rest : List α}
    (arranged : order.arrange rows = row :: rest) :
    row ∈ rows ∧ ∀ other ∈ rows, key other ≤ key row := by
  have sorted := order.ordered rows
  rw [arranged] at sorted
  constructor
  · rw [← order.mem_arrange, arranged]
    exact List.mem_cons_self
  · intro other member
    rw [← order.mem_arrange, arranged] at member
    obtain rfl | later := List.mem_cons.mp member
    · exact le_rfl
    · exact (List.pairwise_cons.mp sorted).1 other later

/-- The ordering that leaves rows with equal keys as they are. -/
def stable (key : α → κ) : Descending key where
  arrange rows := rows.mergeSort fun first second => decide (key second ≤ key first)
  perm rows := List.mergeSort_perm rows _
  ordered rows := by
    have transitive (first second third : α) (lower : decide (key second ≤ key first) = true)
        (upper : decide (key third ≤ key second) = true) : decide (key third ≤ key first) = true :=
      decide_eq_true ((of_decide_eq_true upper).trans (of_decide_eq_true lower))
    have total (first second : α) :
        (decide (key second ≤ key first) || decide (key first ≤ key second)) = true := by
      simpa using le_total (key second) (key first)
    have sorted := List.pairwise_mergeSort transitive total rows
    simpa only [decide_eq_true_eq] using sorted

theorem length_ahead_lt (order : Descending key)
    (early : row ∈ (order.arrange rows).take limit) : (ahead key rows row).length < limit := by
  obtain ⟨front, back, split⟩ := List.append_of_mem early
  have whole := List.take_append_drop limit (order.arrange rows)
  have sorted := order.ordered rows
  rw [← whole, split, List.append_assoc] at sorted
  have later := (List.pairwise_cons.mp (List.pairwise_append.mp sorted).2.1).1
  have nobody : ahead key (row :: back ++ (order.arrange rows).drop limit) row = [] := by
    apply List.filter_eq_nil_iff.mpr
    intro other member
    rw [decide_eq_true_iff, not_lt]
    obtain rfl | member := List.mem_cons.mp member
    · exact le_rfl
    · exact later other member
  have same : (ahead key rows row).length = (ahead key (order.arrange rows) row).length :=
    ((order.perm rows).filter _).length_eq.symm
  have within : (ahead key (order.arrange rows) row).length ≤ front.length := by
    rw [← whole, split, List.append_assoc, ahead, List.filter_append, ← ahead, ← ahead, nobody,
      List.append_nil]
    exact List.length_filter_le _ _
  have bounded : (front ++ row :: back).length ≤ limit := split ▸ List.length_take_le _ _
  rw [List.length_append, List.length_cons] at bounded
  omega

/-- The ordering that puts one row before those that tie with it. -/
def favouring [DecidableEq α] (key : α → κ) (row : α) : Descending key where
  arrange rows :=
    if row ∈ rows then
      (stable key).arrange (ahead key rows row) ++
        row :: (stable key).arrange ((behind key rows row).erase row)
    else (stable key).arrange rows
  perm rows := by
    split
    · rename_i listed
      have member : row ∈ behind key rows row := List.mem_filter.mpr ⟨listed, by simp⟩
      refine List.Perm.trans ?_ (ahead_append_behind_perm key rows row)
      refine ((stable key).perm _).append ?_
      exact (((stable key).perm _).cons row).trans (List.perm_cons_erase member).symm
    · exact (stable key).perm rows
  ordered rows := by
    split
    · have above : ∀ other ∈ (stable key).arrange (ahead key rows row), key row < key other := by
        intro other member
        simpa using (List.mem_filter.mp ((mem_arrange _).mp member)).2
      have below : ∀ other ∈ (stable key).arrange ((behind key rows row).erase row),
          key other ≤ key row := by
        intro other member
        exact le_of_mem_behind (List.mem_of_mem_erase ((mem_arrange _).mp member))
      refine List.pairwise_append.mpr ⟨(stable key).ordered _, ?_, ?_⟩
      · exact List.pairwise_cons.mpr ⟨below, (stable key).ordered _⟩
      · intro first member second later
        obtain rfl | later := List.mem_cons.mp later
        · exact (above first member).le
        · exact (below second later).trans (above first member).le
    · exact (stable key).ordered rows

theorem mem_take_favouring [DecidableEq α] (listed : row ∈ rows)
    (early : (ahead key rows row).length < limit) :
    row ∈ ((favouring key row).arrange rows).take limit := by
  have place : ((stable key).arrange (ahead key rows row)).length < limit := by
    rwa [((stable key).perm _).length_eq]
  simp only [favouring, if_pos listed]
  rw [List.take_append, List.mem_append]
  right
  obtain ⟨room, enough⟩ := Nat.exists_eq_add_of_lt place
  rw [enough, show ∀ count : Nat, count + room + 1 - count = room + 1 by omega]
  exact List.mem_cons_self

end Descending

end Univiz.Data
