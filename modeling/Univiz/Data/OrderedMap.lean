import Mathlib.Algebra.GroupWithZero.Nat
import Mathlib.Data.List.Nodup
import Mathlib.Data.List.Perm.Subperm

namespace Univiz.Data

/-! Finite maps that keep the order in which their keys were first set.  A key that is
set again keeps its place, so setting what is there changes nothing. -/

structure OrderedMap (α β : Type) where
  entries : List (α × β)
  distinct : (entries.map Prod.fst).Nodup

namespace OrderedMap

variable {α β : Type}

theorem nodup_entries (map : OrderedMap α β) : map.entries.Nodup :=
  List.Nodup.of_map Prod.fst map.distinct

variable [DecidableEq α]

def lookup : List (α × β) → α → Option β
  | [], _ => none
  | (other, value) :: rest, key => if other = key then some value else lookup rest key

def replace : List (α × β) → α → β → List (α × β)
  | [], key, value => [(key, value)]
  | (other, old) :: rest, key, value =>
      if other = key then (other, value) :: rest else (other, old) :: replace rest key value

variable {entries : List (α × β)} {map old new : OrderedMap α β} {key other : α} {value : β}

theorem keys_replace : (replace entries key value).map Prod.fst =
    if key ∈ entries.map Prod.fst then entries.map Prod.fst
    else entries.map Prod.fst ++ [key] := by
  induction entries with
  | nil => rfl
  | cons entry rest ih =>
      obtain ⟨first, former⟩ := entry
      simp only [replace]
      by_cases same : first = key
      · simp [same]
      · rw [if_neg same, List.map_cons, ih]
        have apart : key ≠ first := fun equal => same equal.symm
        by_cases later : key ∈ rest.map Prod.fst
        · simp [later]
        · simp [later, apart]

theorem nodup_keys_replace (distinct : (entries.map Prod.fst).Nodup) :
    ((replace entries key value).map Prod.fst).Nodup := by
  rw [keys_replace]
  split
  · exact distinct
  · rename_i absent
    exact List.nodup_append_comm.mp (List.nodup_cons.mpr ⟨absent, distinct⟩)

theorem lookup_replace :
    lookup (replace entries key value) other = if key = other then some value
      else lookup entries other := by
  induction entries with
  | nil => rfl
  | cons entry rest ih =>
      obtain ⟨first, former⟩ := entry
      simp only [replace]
      by_cases same : first = key
      · subst same
        rw [if_pos rfl, lookup, lookup]
        split <;> rfl
      · simp only [same, ↓reduceIte, lookup, ih]
        by_cases here : first = other
        · have apart : key ≠ other := fun equal => same (here.trans equal.symm)
          rw [if_pos here, if_neg apart, if_pos here]
        · rw [if_neg here, if_neg here]

theorem lookup_filter :
    lookup (entries.filter fun entry => entry.1 ≠ key) other =
      if key = other then none else lookup entries other := by
  induction entries with
  | nil => simp [lookup]
  | cons entry rest ih =>
      obtain ⟨first, former⟩ := entry
      by_cases same : first = key
      · subst same
        have dropped : ((first, former) :: rest).filter (fun entry => entry.1 ≠ first) =
            rest.filter fun entry => entry.1 ≠ first := by
          simp
        rw [dropped, ih, lookup]
        split <;> rfl
      · have kept : ((first, former) :: rest).filter (fun entry => entry.1 ≠ key) =
            (first, former) :: rest.filter fun entry => entry.1 ≠ key := by
          simp [same]
        rw [kept, lookup, lookup, ih]
        by_cases here : first = other
        · have apart : key ≠ other := fun equal => same (here.trans equal.symm)
          rw [if_pos here, if_neg apart, if_pos here]
        · rw [if_neg here, if_neg here]

theorem replace_of_lookup (present : lookup entries key = some value) :
    replace entries key value = entries := by
  induction entries with
  | nil => cases present
  | cons entry rest ih =>
      obtain ⟨first, former⟩ := entry
      simp only [lookup] at present
      simp only [replace]
      split at present
      · rename_i same
        cases present
        rw [if_pos same]
      · rename_i apart
        rw [if_neg apart, ih present]

theorem lookup_eq_some (distinct : (entries.map Prod.fst).Nodup) :
    lookup entries key = some value ↔ (key, value) ∈ entries := by
  induction entries with
  | nil => simp [lookup]
  | cons entry rest ih =>
      obtain ⟨first, former⟩ := entry
      obtain ⟨fresh, distinct⟩ := List.nodup_cons.mp distinct
      rw [lookup, List.mem_cons, Prod.mk.injEq]
      by_cases same : first = key
      · subst same
        have absent : (first, value) ∉ rest :=
          fun later => fresh (List.mem_map.mpr ⟨(first, value), later, rfl⟩)
        simp [absent, eq_comm]
      · have apart : key ≠ first := fun equal => same equal.symm
        rw [if_neg same, ih distinct]
        simp [apart]

theorem lookup_of_notMem (absent : key ∉ entries.map Prod.fst) : lookup entries key = none := by
  induction entries with
  | nil => rfl
  | cons entry rest ih =>
      obtain ⟨first, former⟩ := entry
      rw [List.map_cons, List.mem_cons, not_or] at absent
      rw [lookup, if_neg (Ne.symm absent.1), ih absent.2]

theorem lookup_map {γ : Type} {name : γ → α} {fill : γ → β} {items : List γ} :
    lookup (items.map fun item => (name item, fill item)) key =
      (items.find? fun item => name item = key).map fill := by
  induction items with
  | nil => rfl
  | cons item rest ih =>
      rw [List.map_cons, lookup, ih, List.find?_cons]
      by_cases here : name item = key
      · simp [here]
      · simp [here]

theorem sum_replace (weight : β → Nat) :
    ((replace entries key value).map fun entry => weight entry.2).sum +
        ((lookup entries key).map weight).getD 0 =
      (entries.map fun entry => weight entry.2).sum + weight value := by
  induction entries with
  | nil => simp [replace, lookup]
  | cons entry rest ih =>
      obtain ⟨first, former⟩ := entry
      unfold replace lookup
      split
      · simp only [List.map_cons, List.sum_cons, Option.map_some, Option.getD_some]
        omega
      · simp only [List.map_cons, List.sum_cons]
        omega

def empty : OrderedMap α β := ⟨[], List.nodup_nil⟩

def get (map : OrderedMap α β) (key : α) : Option β := lookup map.entries key

def set (map : OrderedMap α β) (key : α) (value : β) : OrderedMap α β :=
  ⟨replace map.entries key value, nodup_keys_replace map.distinct⟩

def erase (map : OrderedMap α β) (key : α) : OrderedMap α β :=
  ⟨map.entries.filter fun entry => entry.1 ≠ key,
    (List.filter_sublist.map Prod.fst).nodup map.distinct⟩

/-- The entries whose keys are kept. -/
def restrict (map : OrderedMap α β) (keep : α → Bool) : OrderedMap α β :=
  ⟨map.entries.filter fun entry => keep entry.1,
    (List.filter_sublist.map Prod.fst).nodup map.distinct⟩

/-- The same keys with other values. -/
def mapValues {γ : Type} (map : OrderedMap α β) (change : β → γ) : OrderedMap α γ :=
  ⟨map.entries.map fun entry => (entry.1, change entry.2), by
    rw [List.map_map]
    exact map.distinct⟩

def size (map : OrderedMap α β) : Nat := map.entries.length

/-- The entries of the update over those of the base. -/
def overlay (base update : OrderedMap α β) : OrderedMap α β :=
  update.entries.foldl (fun map entry => map.set entry.1 entry.2) base

@[simp] theorem get_empty : (empty : OrderedMap α β).get key = none := rfl

theorem get_set : (map.set key value).get other = if key = other then some value
    else map.get other := lookup_replace

theorem get_erase : (map.erase key).get other = if key = other then none else map.get other :=
  lookup_filter

theorem get_mapValues {γ : Type} {change : β → γ} :
    (map.mapValues change).get key = (map.get key).map change := by
  have changed {entries : List (α × β)} :
      lookup (entries.map fun entry => (entry.1, change entry.2)) key =
        (lookup entries key).map change := by
    induction entries with
    | nil => rfl
    | cons entry rest ih =>
        rw [List.map_cons, lookup, lookup, ih]
        split <;> rfl
  exact changed

theorem get_restrict {keep : α → Bool} :
    (map.restrict keep).get key = if keep key = true then map.get key else none := by
  have selected {entries : List (α × β)} : lookup (entries.filter fun entry => keep entry.1) key =
      if keep key = true then lookup entries key else none := by
    induction entries with
    | nil => simp [lookup]
    | cons entry rest ih =>
        obtain ⟨first, former⟩ := entry
        rw [List.filter_cons]
        by_cases same : first = key
        · subst same
          by_cases kept : keep first = true
          · simp [kept, lookup]
          · rw [if_neg kept, ih, if_neg kept, if_neg kept]
        · split
          · rw [lookup, lookup, if_neg same, if_neg same, ih]
          · rw [lookup, if_neg same, ih]
  exact selected

/-- What the later keys leave alone has been touched by the first key or by none. -/
theorem ite_mem_cons {γ : Type} {rest : List α} {touched kept : γ} :
    (if other ∈ rest then touched else if key = other then touched else kept) =
      if other ∈ key :: rest then touched else kept := by
  by_cases later : other ∈ rest
  · rw [if_pos later, if_pos (List.mem_cons_of_mem key later)]
  · rw [if_neg later]
    by_cases here : key = other
    · subst here
      rw [if_pos rfl, if_pos List.mem_cons_self]
    · have absent : other ∉ key :: rest :=
        List.not_mem_cons_of_ne_of_not_mem (Ne.symm here) later
      rw [if_neg here, if_neg absent]

theorem get_foldl_set {fill : α → β} {keys : List α} :
    (keys.foldl (fun map key => map.set key (fill key)) map).get other =
      if other ∈ keys then some (fill other) else map.get other := by
  induction keys generalizing map with
  | nil => exact (if_neg List.not_mem_nil).symm
  | cons key rest ih =>
      rw [List.foldl_cons, ih, get_set, ← ite_mem_cons]
      by_cases here : key = other
      · rw [here]
      · rw [if_neg here, if_neg here]

theorem get_foldl_erase {keys : List α} :
    (keys.foldl erase map).get other = if other ∈ keys then none else map.get other := by
  induction keys generalizing map with
  | nil => exact (if_neg List.not_mem_nil).symm
  | cons key rest ih =>
      rw [List.foldl_cons, ih, get_erase, ite_mem_cons]

/-- Writes that each concern one key, for keys that differ. -/
theorem get_foldl_write {γ : Type} {act : Option β → γ → Option β}
    {write : OrderedMap α β → α × γ → OrderedMap α β}
    (concerns : ∀ map entry key, (write map entry).get key =
      if entry.1 = key then act (map.get key) entry.2 else map.get key)
    {entries : List (α × γ)} (distinct : (entries.map Prod.fst).Nodup) :
    (entries.foldl write map).get key =
      ((lookup entries key).map (act (map.get key))).getD (map.get key) := by
  induction entries generalizing map with
  | nil => rfl
  | cons entry rest ih =>
      obtain ⟨first, value⟩ := entry
      obtain ⟨fresh, distinct⟩ := List.nodup_cons.mp distinct
      rw [List.foldl_cons, ih distinct, concerns, lookup]
      by_cases here : first = key
      · subst here
        rw [lookup_of_notMem fresh, if_pos rfl, if_pos rfl]
        rfl
      · rw [if_neg here, if_neg here]

theorem get_foldl_entries {γ : Type} {fill : γ → β} {entries : List (α × γ)}
    (distinct : (entries.map Prod.fst).Nodup) :
    (entries.foldl (fun map entry => map.set entry.1 (fill entry.2)) map).get key =
      ((lookup entries key).map fill).or (map.get key) := by
  let act : Option β → γ → Option β := fun _ value => some (fill value)
  have written : (entries.foldl (fun map entry => map.set entry.1 (fill entry.2)) map).get key =
      ((lookup entries key).map (act (map.get key))).getD (map.get key) :=
    get_foldl_write (fun _ _ _ => get_set) distinct
  rw [written]
  cases lookup entries key <;> rfl

theorem get_overlay {base update : OrderedMap α β} :
    (base.overlay update).get key = (update.get key).or (base.get key) := by
  have merged : (update.entries.foldl (fun map entry => map.set entry.1 (id entry.2)) base).get
      key = ((lookup update.entries key).map id).or (base.get key) :=
    get_foldl_entries update.distinct
  rwa [Option.map_id_fun, id] at merged

theorem set_of_get (present : map.get key = some value) : map.set key value = map := by
  have same : replace map.entries key value = map.entries := replace_of_lookup present
  cases map
  simpa [set] using same

theorem erase_of_get (missing : map.get key = none) : map.erase key = map := by
  have absent {entries : List (α × β)} (missing : lookup entries key = none) :
      entries.filter (fun entry => entry.1 ≠ key) = entries := by
    induction entries with
    | nil => rfl
    | cons entry rest ih =>
        obtain ⟨first, value⟩ := entry
        rw [lookup] at missing
        split at missing
        · cases missing
        · rename_i apart
          rw [List.filter_cons, if_pos (decide_eq_true apart), ih missing]
  have same := absent missing
  cases map
  simpa [erase] using same

theorem get_eq_some : map.get key = some value ↔ (key, value) ∈ map.entries :=
  lookup_eq_some map.distinct

/-- A map by its values. -/
theorem entries_perm {pairs : List (α × β)} (distinct : (pairs.map Prod.fst).Nodup)
    (values : ∀ key, map.get key = lookup pairs key) : map.entries.Perm pairs := by
  have once : pairs.Nodup := List.Nodup.of_map Prod.fst distinct
  refine (List.perm_ext_iff_of_nodup map.nodup_entries once).mpr fun entry => ?_
  rw [← get_eq_some, values, lookup_eq_some distinct]

theorem size_eq_zero : map.size = 0 ↔ ∀ key, map.get key = none := by
  obtain ⟨entries, distinct⟩ := map
  rw [size, List.length_eq_zero_iff]
  constructor
  · rintro rfl key
    rfl
  · intro missing
    cases entries with
    | nil => rfl
    | cons entry rest =>
        have first := missing entry.1
        rw [get, lookup, if_pos rfl] at first
        cases first

theorem sum_set (map : OrderedMap α β) (key : α) (value : β) (weight : β → Nat) :
    ((map.set key value).entries.map fun entry => weight entry.2).sum +
        ((map.get key).map weight).getD 0 =
      (map.entries.map fun entry => weight entry.2).sum + weight value := sum_replace weight

theorem size_set (missing : map.get key = none) : (map.set key value).size = map.size + 1 := by
  have balance := sum_set map key value fun _ => 1
  rw [missing] at balance
  simpa [size] using balance

omit [DecidableEq α] in
theorem size_restrict_le {keep : α → Bool} : (map.restrict keep).size ≤ map.size :=
  List.length_filter_le _ _

theorem sum_erase (map : OrderedMap α β) (key : α) (weight : β → Nat) :
    ((map.erase key).entries.map fun entry => weight entry.2).sum +
        ((map.get key).map weight).getD 0 =
      (map.entries.map fun entry => weight entry.2).sum := by
  have erased {entries : List (α × β)} (distinct : (entries.map Prod.fst).Nodup) :
      ((entries.filter fun entry => entry.1 ≠ key).map fun entry => weight entry.2).sum +
          ((lookup entries key).map weight).getD 0 =
        (entries.map fun entry => weight entry.2).sum := by
    induction entries with
    | nil => rfl
    | cons entry rest ih =>
        obtain ⟨first, value⟩ := entry
        obtain ⟨fresh, distinct⟩ := List.nodup_cons.mp distinct
        by_cases same : first = key
        · subst same
          have kept : rest.filter (fun entry => entry.1 ≠ first) = rest := by
            refine List.filter_eq_self.mpr fun entry member => decide_eq_true ?_
            intro equal
            exact fresh (List.mem_map.mpr ⟨entry, member, equal⟩)
          simp only [lookup, ↓reduceIte, Option.map_some, Option.getD_some, List.map_cons,
            List.sum_cons]
          rw [List.filter_cons, if_neg (by simp), kept, Nat.add_comm]
        · have later := ih distinct
          simp only [lookup, same, ↓reduceIte, List.map_cons, List.sum_cons]
          rw [List.filter_cons, if_pos (decide_eq_true same), List.map_cons, List.sum_cons,
            Nat.add_assoc, later]
  exact erased map.distinct

/-- Maps of the same size of which one has all entries of the other have the same entries. -/
theorem get_eq_iff : (old.size = new.size ∧
      ∀ entry ∈ new.entries, old.get entry.1 = some entry.2) ↔
    ∀ key, old.get key = new.get key := by
  constructor
  · intro ⟨sizes, kept⟩ key
    have fewer : new.entries ⊆ old.entries := fun entry member => get_eq_some.mp (kept entry member)
    have alike := (List.subperm_of_subset new.nodup_entries fewer).perm_of_length_le
      (Nat.le_of_eq sizes)
    apply Option.ext
    intro value
    rw [get_eq_some, get_eq_some, alike.mem_iff]
  · intro same
    have members : ∀ entry, entry ∈ old.entries ↔ entry ∈ new.entries := by
      intro ⟨key, value⟩
      rw [← get_eq_some, ← get_eq_some, same]
    have alike := (List.perm_ext_iff_of_nodup old.nodup_entries new.nodup_entries).mpr members
    refine ⟨alike.length_eq, ?_⟩
    intro entry member
    exact get_eq_some.mpr ((members entry).mpr member)

end OrderedMap

end Univiz.Data
