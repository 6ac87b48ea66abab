import Mathlib.Data.List.Induction
import Univiz.Data.OrderedMap

namespace Univiz.Data

/-! Indexes that a loop fills: lists under keys, to which the loop only adds. -/

section Grows

variable {σ α : Type} {step : σ → α → σ} {items : List α} {state : σ}

/-- What no step takes away holds in the end from the start or by one of the steps. -/
theorem holds_foldl_iff (holds : σ → Prop) (adds : α → Prop)
    (grows : ∀ state item, holds (step state item) ↔ holds state ∨ adds item) :
    holds (items.foldl step state) ↔ holds state ∨ ∃ item ∈ items, adds item := by
  induction items generalizing state with
  | nil => simp
  | cons item rest ih =>
      rw [List.foldl_cons, ih, grows, List.exists_mem_cons_iff, or_assoc]

theorem foldl_unchanged {γ : Type} (view : σ → γ)
    (kept : ∀ state item, view (step state item) = view state) :
    view (items.foldl step state) = view state := by
  induction items generalizing state with
  | nil => rfl
  | cons item rest ih => rw [List.foldl_cons, ih, kept]

end Grows

variable {α β κ : Type} [DecidableEq κ] {map : OrderedMap κ (List β)} {name other : κ}
  {value found : β}

def filed (map : OrderedMap κ (List β)) (name : κ) : List β := (map.get name).getD []

def file (map : OrderedMap κ (List β)) (name : κ) (value : β) : OrderedMap κ (List β) :=
  map.set name (filed map name ++ [value])

theorem mem_filed_file :
    found ∈ filed (file map name value) other ↔
      found ∈ filed map other ∨ (name = other ∧ found = value) := by
  rw [filed, file, OrderedMap.get_set]
  by_cases same : name = other
  · subst same
    simp [filed]
  · simp [same, filed]

theorem mem_filed_foldl {names : List κ} {make : κ → β} :
    found ∈ filed (names.foldl (fun map name => file map name (make name)) map) other ↔
      found ∈ filed map other ∨ (other ∈ names ∧ found = make other) := by
  have grows (map : OrderedMap κ (List β)) (name : κ) :
      found ∈ filed (file map name (make name)) other ↔
        found ∈ filed map other ∨ (name = other ∧ found = make name) := mem_filed_file
  rw [holds_foldl_iff (fun map => found ∈ filed map other) _ grows]
  apply or_congr_right
  constructor
  · rintro ⟨name, member, rfl, rfl⟩
    exact ⟨member, rfl⟩
  · rintro ⟨member, rfl⟩
    exact ⟨other, member, rfl, rfl⟩

/-- Of the items with one key the last is kept. -/
theorem get_foldl_last {key : α → κ} {items : List α} {map : OrderedMap κ α} :
    (items.foldl (fun map item => map.set (key item) item) map).get name =
      (items.reverse.find? fun item => key item = name).or (map.get name) := by
  induction items using List.reverseRecOn with
  | nil => rfl
  | append_singleton init last ih =>
      rw [List.foldl_append, List.foldl_cons, List.foldl_nil, OrderedMap.get_set, ih,
        List.reverse_concat, List.find?_cons]
      split
      · rename_i here
        simp [here]
      · rename_i elsewhere
        simp [elsewhere]

/-- Items that can be told by their names are found under those. -/
theorem get_foldl_fill {key : α → κ} {fill : α → β} {items : List α} {map : OrderedMap κ β}
    (told : ∀ item ∈ items, ∀ another ∈ items, key item = key another → item = another) :
    (items.foldl (fun map item => map.set (key item) (fill item)) map).get name =
      ((items.find? fun item => key item = name).map fill).or (map.get name) := by
  induction items generalizing map with
  | nil => rfl
  | cons item rest ih =>
      have later : ∀ first ∈ rest, ∀ second ∈ rest, key first = key second → first = second :=
        fun first member second member' => told first (List.mem_cons_of_mem _ member) second
          (List.mem_cons_of_mem _ member')
      rw [List.foldl_cons, ih later, OrderedMap.get_set, List.find?_cons]
      by_cases here : key item = name
      · rw [if_pos here, decide_eq_true here]
        cases found : rest.find? fun item => key item = name with
        | none => rfl
        | some another =>
            have named : key another = name := by simpa using List.find?_some found
            rw [told item List.mem_cons_self another
              (List.mem_cons_of_mem _ (List.mem_of_find?_eq_some found)) (here.trans named.symm)]
            rfl
      · rw [if_neg here, decide_eq_false here]

/-- The buckets of some distinct names have together the items with one of the names. -/
theorem flatMap_filter_perm {names : List κ} (distinct : names.Nodup) (name : β → Option κ)
    (items : List β) :
    (names.flatMap fun key => items.filter fun item => name item = some key).Perm
      (items.filter fun item => ∃ key ∈ names, name item = some key) := by
  induction names with
  | nil => simp
  | cons first rest ih =>
      obtain ⟨fresh, distinct⟩ := List.nodup_cons.mp distinct
      have parts := List.filter_append_perm (fun item => decide (name item = some first))
        (items.filter fun item => ∃ key ∈ first :: rest, name item = some key)
      rw [List.filter_filter, List.filter_filter] at parts
      rw [List.flatMap_cons]
      refine ((ih distinct).append_left _).trans (.trans (.of_eq ?_) parts)
      congr 1
      · refine List.filter_congr fun item _ => ?_
        by_cases here : name item = some first
        · simp [here]
        · simp [here]
      · refine List.filter_congr fun item _ => ?_
        by_cases here : name item = some first
        · simp [here, fresh]
        · simp [here]

omit [DecidableEq κ] in
theorem flatMap_filter_of_nil {kept : κ → Bool} {names : List κ} {bucket : κ → List β}
    (nothing : ∀ name ∈ names, kept name = false → bucket name = []) :
    (names.filter kept).flatMap bucket = names.flatMap bucket := by
  induction names with
  | nil => rfl
  | cons name rest ih =>
      obtain ⟨here, later⟩ := List.forall_mem_cons.mp nothing
      rw [List.filter_cons, List.flatMap_cons]
      split
      · rw [List.flatMap_cons, ih later]
      · rename_i dropped
        rw [ih later, here (Bool.not_eq_true _ ▸ dropped), List.nil_append]

end Univiz.Data
