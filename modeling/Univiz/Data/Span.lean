import Mathlib.Order.Lattice

namespace Univiz.Data

/-! How far apart the readings of a clock are. -/

/-- The distance between the latest and the earliest reading. -/
def span (readings : List Int) : Int :=
  readings.max?.getD 0 - readings.min?.getD 0

theorem span_nil : span [] = 0 := rfl

theorem exists_span {readings : List Int} (some' : readings ≠ []) :
    ∃ low ∈ readings, ∃ high ∈ readings, span readings = high - low ∧
      ∀ reading ∈ readings, low ≤ reading ∧ reading ≤ high := by
  obtain ⟨low, lowest⟩ := Option.isSome_iff_exists.mp (List.isSome_min?_of_ne_nil some')
  obtain ⟨high, highest⟩ := Option.isSome_iff_exists.mp (List.isSome_max?_of_ne_nil some')
  have below := List.min?_eq_some_iff.mp lowest
  have above := List.max?_eq_some_iff.mp highest
  refine ⟨low, below.1, high, above.1, ?_, ?_⟩
  · simp only [span, lowest, highest, Option.getD_some]
  · intro reading member
    exact ⟨below.2 reading member, above.2 reading member⟩

end Univiz.Data
