import Mathlib.Data.List.Chain
import Mathlib.Data.List.Nodup
import Mathlib.Data.Set.Insert
import Mathlib.Logic.Relation
import Mathlib.Order.WellFoundedSet

namespace Univiz.Data

/-! Directed cycles of a relation, and sets without any that a search grows by one element at
a time. -/

variable {α : Type} {edge step : α → α → Prop} {done : Set α} {first last node next : α}
  {middle rest walk : List α}

/-- A walk of two edges or more that ends where it starts and meets no element twice else. -/
structure IsCycle (edge : α → α → Prop) (walk : List α) : Prop where
  long : 3 ≤ walk.length
  closed : walk.head? = walk.getLast?
  distinct : walk.dropLast.Nodup
  linked : walk.IsChain edge

theorem isCycle_around (nonempty : middle ≠ []) (distinct : (first :: middle).Nodup)
    (linked : (first :: middle ++ [first]).IsChain edge) :
    IsCycle edge (first :: middle ++ [first]) where
  long := by
    have positive := List.length_pos_of_ne_nil nonempty
    simp only [List.length_append, List.length_cons, List.length_nil]
    omega
  closed := by rw [List.getLast?_concat, List.cons_append, List.head?_cons]
  distinct := by rwa [List.dropLast_concat]
  linked := linked

theorem IsCycle.around (cycle : IsCycle edge walk) :
    ∃ first middle, walk = first :: middle ++ [first] ∧ middle ≠ [] ∧ (first :: middle).Nodup := by
  obtain ⟨long, closed, distinct, _⟩ := cycle
  cases walk with
  | nil => cases long
  | cons first tail =>
      obtain rfl | ⟨middle, last, rfl⟩ := tail.eq_nil_or_concat'
      · exact absurd long (by simp)
      · rw [← List.cons_append, List.getLast?_concat, List.cons_append, List.head?_cons,
          Option.some.injEq] at closed
        subst closed
        rw [← List.cons_append, List.dropLast_concat] at distinct
        refine ⟨first, middle, rfl, ?_, distinct⟩
        rintro rfl
        exact absurd long (by simp)

/-- A path of distinct elements to one that is not among them, but maybe the first. -/
theorem transGen_of_path (linked : (first :: middle ++ [last]).IsChain edge)
    (distinct : (first :: middle).Nodup) (fresh : last ∉ middle)
    (apart : middle = [] → first ≠ last) :
    Relation.TransGen (fun a b => a ≠ b ∧ edge a b) first last := by
  induction middle generalizing first with
  | nil => exact .single ⟨apart rfl, List.isChain_pair.mp linked⟩
  | cons second rest ih =>
      rw [List.cons_append, List.cons_append, List.isChain_cons_cons] at linked
      obtain ⟨absent, later⟩ := List.nodup_cons.mp distinct
      have onward := ih linked.2 later (List.not_mem_of_not_mem_cons fresh)
        fun _ same => List.ne_of_not_mem_cons fresh same.symm
      exact .head ⟨fun same => absent (same ▸ List.mem_cons_self), linked.1⟩ onward

theorem IsCycle.exists_loop (cycle : IsCycle edge walk) :
    ∃ item, Relation.TransGen (fun a b => a ≠ b ∧ edge a b) item item := by
  obtain ⟨first, middle, rfl, nonempty, distinct⟩ := cycle.around
  exact ⟨first, transGen_of_path cycle.linked distinct (List.nodup_cons.mp distinct).1
    fun empty => absurd empty nonempty⟩

/-- The elements of a stack, the last one first, each with an edge from the one below. -/
structure IsStack (edge : α → α → Prop) (stack : List α) : Prop where
  linked : stack.IsChain fun upper lower => edge lower upper
  distinct : stack.Nodup

theorem IsStack.nil : IsStack edge [] := ⟨.nil, List.nodup_nil⟩

theorem IsStack.push (stacked : IsStack edge (node :: rest)) (fresh : next ∉ node :: rest)
    (onto : edge node next) : IsStack edge (next :: node :: rest) :=
  ⟨List.isChain_cons_cons.mpr ⟨onto, stacked.linked⟩, List.nodup_cons.mpr ⟨fresh, stacked.distinct⟩⟩

/-- An edge back into the stack closes a cycle. -/
theorem IsStack.cycle (stacked : IsStack edge (node :: rest)) (back : edge node next)
    (below : next ∈ rest) : ∃ walk, IsCycle edge walk := by
  obtain ⟨linked, distinct⟩ := stacked
  obtain ⟨upper, lower, rfl⟩ := List.append_of_mem below
  have split : node :: (upper ++ next :: lower) = (node :: upper ++ [next]) ++ lower := by simp
  rw [split] at linked distinct
  have path : (next :: (node :: upper).reverse).IsChain edge := by
    have reversed := List.isChain_reverse.mpr (List.IsChain.left_of_append linked)
    rwa [List.reverse_concat] at reversed
  have apart : (next :: (node :: upper).reverse).Nodup := by
    have reversed := List.nodup_reverse.mpr (List.Nodup.of_append_left distinct)
    rwa [List.reverse_concat] at reversed
  refine ⟨_, isCycle_around ?_ apart ?_⟩
  · simp
  · apply path.append (.singleton next)
    intro last isLast first isFirst
    rw [List.reverse_cons, ← List.cons_append, List.getLast?_concat, Option.mem_some_iff] at isLast
    rw [List.head?_singleton, Option.mem_some_iff] at isFirst
    rwa [← isLast, ← isFirst]

/-- A set that no step leaves and that no loop goes through. -/
structure Settled (step : α → α → Prop) (done : Set α) : Prop where
  closed : ∀ item ∈ done, ∀ next, step item next → next ∈ done
  loopless : ∀ item ∈ done, ¬ Relation.TransGen step item item

theorem Settled.empty : Settled step ∅ := ⟨fun _ member => member.elim, fun _ member => member.elim⟩

theorem Settled.mem_of_path (settled : Settled step done) (inside : first ∈ done)
    (path : Relation.ReflTransGen step first last) : last ∈ done := by
  induction path with
  | refl => exact inside
  | tail _ onto ih => exact settled.closed _ ih _ onto

theorem Settled.insert (settled : Settled step done) (fresh : node ∉ done)
    (known : ∀ next, step node next → next ∈ done) : Settled step (insert node done) where
  closed := by
    rintro item (rfl | old) next onto
    · exact Set.mem_insert_of_mem _ (known next onto)
    · exact Set.mem_insert_of_mem _ (settled.closed item old next onto)
  loopless := by
    rintro item (rfl | old) loop
    · obtain ⟨next, onto, onward⟩ := Relation.TransGen.head'_iff.mp loop
      exact fresh (settled.mem_of_path (known next onto) onward)
    · exact settled.loopless item old loop

/-- Induction over the steps of a relation without loops that leads into a finite set. -/
theorem induction_of_loopless (holds : α → Prop) {items : Set α} (finite : items.Finite)
    (inside : ∀ item next, step item next → next ∈ items)
    (loopless : ∀ item, ¬ Relation.TransGen step item item)
    (back : ∀ item, (∀ next, step item next → holds next) → holds item) (item : α) :
    holds item := by
  let below : α → α → Prop := fun next item => Relation.TransGen step item next
  have order : IsStrictOrder α below :=
    { irrefl := loopless
      trans := fun _ _ _ first second => second.trans first }
  have wellFounded : items.WellFoundedOn below := finite.wellFoundedOn
  have members : ∀ item ∈ items, holds item := by
    intro item member
    apply wellFounded.induction member
    intro item _ ih
    apply back
    intro next onto
    exact ih next (inside item next onto) (.single onto)
  exact back item fun next onto => members next (inside item next onto)

/-- A path leaves a set with one of its steps. -/
theorem leaves_iff {items : Set α} :
    (∃ item ∈ items, ∃ next, Relation.TransGen step item next ∧ next ∉ items) ↔
      ∃ item ∈ items, ∃ next, step item next ∧ next ∉ items := by
  constructor
  · rintro ⟨item, inside, next, path, outside⟩
    induction path with
    | single onto => exact ⟨item, inside, _, onto, outside⟩
    | @tail middle last _ onto ih =>
        by_cases within : middle ∈ items
        · exact ⟨middle, within, last, onto, outside⟩
        · exact ih within
  · rintro ⟨item, inside, next, onto, outside⟩
    exact ⟨item, inside, next, .single onto, outside⟩

theorem path_of_agree {other : α → α → Prop} (inside : α → Prop)
    (kept : ∀ item next, inside item → step item next → inside next)
    (agree : ∀ item next, inside item → (other item next ↔ step item next))
    (start : inside first) (path : Relation.ReflTransGen other first last) :
    Relation.ReflTransGen step first last ∧ inside last := by
  induction path with
  | refl => exact ⟨.refl, start⟩
  | tail _ onto ih =>
      obtain ⟨path, within⟩ := ih
      have onto := (agree _ _ within).mp onto
      exact ⟨path.tail onto, kept _ _ within onto⟩

theorem loopless_of_agree {other : α → α → Prop} (inside : α → Prop)
    (kept : ∀ item next, inside item → step item next → inside next)
    (agree : ∀ item next, inside item → (other item next ↔ step item next))
    (start : inside first)
    (loopless : ∀ item, Relation.ReflTransGen step first item → ¬ Relation.TransGen step item item) :
    ∀ item, Relation.ReflTransGen other first item → ¬ Relation.TransGen other item item := by
  intro item path loop
  obtain ⟨path, within⟩ := path_of_agree inside kept agree start path
  obtain ⟨next, onto, back⟩ := Relation.TransGen.head'_iff.mp loop
  have onto := (agree _ _ within).mp onto
  have back := (path_of_agree inside kept agree (kept _ _ within onto) back).1
  exact loopless item path (.head' onto back)

end Univiz.Data
