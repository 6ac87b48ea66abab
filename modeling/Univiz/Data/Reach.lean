import Mathlib.Logic.Relation

namespace Univiz.Data

/-! Bounded reachability and layered search.

`Within step hops origin` is the ball of radius `hops` around `origin`.  A
breadth-first search that keeps the nodes it has seen and the frontier it found
last is `Explored` after every round: what it has seen is a ball, and only the
frontier can lead out of it.
-/

/-- `node` can be reached from `origin` in at most `hops` steps. -/
def Within (step : α → α → Prop) : Nat → α → α → Prop
  | 0, origin, node => node = origin
  | hops + 1, origin, node =>
      Within step hops origin node ∨ ∃ via, Within step hops origin via ∧ step via node

variable {step : α → α → Prop} {origin node : α} {hops : Nat}

theorem within_mono {more : Nat} (fewer : hops ≤ more) (reached : Within step hops origin node) :
    Within step more origin node := by
  induction fewer with
  | refl => exact reached
  | step _ ih => exact .inl ih

/-- The search has seen the ball of radius `hops`, and every step out of it
starts in the frontier. -/
structure Explored (step : α → α → Prop) (origin : α) (hops : Nat)
    (seen frontier : α → Prop) : Prop where
  seen_iff : ∀ node, seen node ↔ Within step hops origin node
  frontier_seen : ∀ node, frontier node → seen node
  border : ∀ node next, seen node → step node next → frontier node ∨ seen next

namespace Explored

variable {seen frontier seen' frontier' : α → Prop}

theorem start : Explored step origin 0 (· = origin) (· = origin) where
  seen_iff _ := Iff.rfl
  frontier_seen _ atOrigin := atOrigin
  border _ _ atOrigin _ := .inl atOrigin

/-- Following every step out of the frontier once widens the ball by one hop. -/
theorem advance (explored : Explored step origin hops seen frontier)
    (fresh : ∀ node, frontier' node ↔ ¬ seen node ∧ ∃ via, frontier via ∧ step via node)
    (grown : ∀ node, seen' node ↔ seen node ∨ frontier' node) :
    Explored step origin (hops + 1) seen' frontier' where
  seen_iff node := by
    rw [grown, fresh, Within, ← explored.seen_iff]
    constructor
    · rintro (old | ⟨-, via, onFrontier, last⟩)
      · exact .inl old
      · exact .inr ⟨via, (explored.seen_iff via).mp (explored.frontier_seen via onFrontier), last⟩
    · rintro (old | ⟨via, reached, last⟩)
      · exact .inl old
      · by_cases old : seen node
        · exact .inl old
        · have viaSeen := (explored.seen_iff via).mpr reached
          rcases explored.border via node viaSeen last with onFrontier | known
          · exact .inr ⟨old, via, onFrontier, last⟩
          · exact absurd known old
  frontier_seen node new := (grown node).mpr (.inr new)
  border node next known last := by
    rcases (grown node).mp known with old | new
    · rcases explored.border node next old last with onFrontier | nextOld
      · by_cases nextOld : seen next
        · exact .inr ((grown next).mpr (.inl nextOld))
        · exact .inr ((grown next).mpr (.inr ((fresh next).mpr ⟨nextOld, node, onFrontier, last⟩)))
      · exact .inr ((grown next).mpr (.inl nextOld))
    · exact .inl new

theorem complete (explored : Explored step origin hops seen frontier)
    (stuck : ∀ node, ¬ frontier node) {more : Nat} (further : hops ≤ more) :
    ∀ node, seen node ↔ Within step more origin node := by
  induction further with
  | refl => exact explored.seen_iff
  | step _ ih =>
      intro node
      rw [Within, ← ih]
      constructor
      · exact .inl
      · rintro (known | ⟨via, reached, last⟩)
        · exact known
        · exact (explored.border via node ((ih via).mpr reached) last).elim
            (fun onFrontier => absurd onFrontier (stuck via)) id

end Explored

section Contractions

variable {α β : Type} {step : α → α → Prop} {place : α → Option β} {first last : α}
  {origin : β}

/-- Some step leads from a node of one place to a node of another. -/
def Contracted (step : α → α → Prop) (place : α → Option β) (source target : β) : Prop :=
  source ≠ target ∧
    ∃ node next, step node next ∧ place node = some source ∧ place next = some target

/-- Where steps end in places, a path leads through the places of its nodes. -/
theorem contracted_path (placed : ∀ node next, step node next → ∃ target, place next = some target)
    (begins : place first = some origin) (path : Relation.ReflTransGen step first last) :
    ∃ target, place last = some target ∧
      Relation.ReflTransGen (Contracted step place) origin target := by
  induction path with
  | refl => exact ⟨origin, begins, .refl⟩
  | @tail node next _ onto ih =>
      obtain ⟨source, here, reached⟩ := ih
      obtain ⟨target, there⟩ := placed node next onto
      refine ⟨target, there, ?_⟩
      by_cases same : source = target
      · exact same ▸ reached
      · exact reached.tail ⟨same, node, next, onto, here, there⟩

end Contractions

/-! The levels of a search that starts from several nodes at once. -/

section Levels

variable {α : Type} {step : α → α → Prop} {start : α → Prop} {hops : Nat} {node : α}

def WithinFrom (step : α → α → Prop) (start : α → Prop) (hops : Nat) (node : α) : Prop :=
  ∃ origin, start origin ∧ Within step hops origin node

/-- The fewest hops from a start node. -/
def AtDistance (step : α → α → Prop) (start : α → Prop) (hops : Nat) (node : α) : Prop :=
  WithinFrom step start hops node ∧ ∀ fewer < hops, ¬ WithinFrom step start fewer node

theorem withinFrom_zero : WithinFrom step start 0 node ↔ start node := by
  constructor
  · rintro ⟨origin, begins, rfl⟩
    exact begins
  · intro begins
    exact ⟨node, begins, rfl⟩

theorem withinFrom_mono {more : Nat} (fewer : hops ≤ more)
    (reached : WithinFrom step start hops node) : WithinFrom step start more node := by
  obtain ⟨origin, begins, near⟩ := reached
  exact ⟨origin, begins, within_mono fewer near⟩

theorem withinFrom_succ : WithinFrom step start (hops + 1) node ↔
    WithinFrom step start hops node ∨ ∃ via, WithinFrom step start hops via ∧ step via node := by
  constructor
  · rintro ⟨origin, begins, near | ⟨via, near, last⟩⟩
    · exact .inl ⟨origin, begins, near⟩
    · exact .inr ⟨via, ⟨origin, begins, near⟩, last⟩
  · rintro (⟨origin, begins, near⟩ | ⟨via, ⟨origin, begins, near⟩, last⟩)
    · exact ⟨origin, begins, .inl near⟩
    · exact ⟨origin, begins, .inr ⟨via, near, last⟩⟩

theorem exists_atDistance (reached : WithinFrom step start hops node) :
    ∃ fewest ≤ hops, AtDistance step start fewest node := by
  induction hops with
  | zero => exact ⟨0, Nat.le_refl 0, reached, fun _ below => absurd below (Nat.not_lt_zero _)⟩
  | succ hops ih =>
      by_cases before : WithinFrom step start hops node
      · obtain ⟨fewest, few, at'⟩ := ih before
        exact ⟨fewest, Nat.le_succ_of_le few, at'⟩
      · refine ⟨hops + 1, Nat.le_refl _, reached, fun fewer below earlier => before ?_⟩
        exact withinFrom_mono (Nat.le_of_lt_succ below) earlier

theorem atDistance_zero : AtDistance step start 0 node ↔ start node := by
  rw [AtDistance, withinFrom_zero]
  exact and_iff_left fun _ below => absurd below (Nat.not_lt_zero _)

/-- Only the last level leads out of what is within reach. -/
theorem withinFrom_succ_iff : WithinFrom step start (hops + 1) node ↔
    WithinFrom step start hops node ∨ ∃ via, AtDistance step start hops via ∧ step via node := by
  rw [withinFrom_succ]
  constructor
  · rintro (near | ⟨via, near, last⟩)
    · exact .inl near
    · obtain ⟨fewest, few, at'⟩ := exists_atDistance near
      rcases Nat.lt_or_eq_of_le few with less | rfl
      · exact .inl (withinFrom_mono less (withinFrom_succ.mpr (.inr ⟨via, at'.1, last⟩)))
      · exact .inr ⟨via, at', last⟩
  · rintro (near | ⟨via, at', last⟩)
    · exact .inl near
    · exact .inr ⟨via, at'.1, last⟩

theorem atDistance_succ_iff : AtDistance step start (hops + 1) node ↔
    (∃ via, AtDistance step start hops via ∧ step via node) ∧
      ¬ WithinFrom step start hops node := by
  constructor
  · rintro ⟨reached, first⟩
    have fresh := first hops (Nat.lt_succ_self hops)
    exact ⟨(withinFrom_succ_iff.mp reached).resolve_left fresh, fresh⟩
  · rintro ⟨via, fresh⟩
    exact ⟨withinFrom_succ_iff.mpr (.inr via),
      fun fewer below earlier => fresh (withinFrom_mono (Nat.le_of_lt_succ below) earlier)⟩

/-- After an empty level there are only empty ones. -/
theorem not_atDistance_of_empty (empty : ∀ node, ¬ AtDistance step start hops node) {more : Nat}
    (further : hops ≤ more) : ∀ node, ¬ AtDistance step start more node := by
  induction further with
  | refl => exact empty
  | step _ ih =>
      intro node later
      obtain ⟨⟨via, before, _⟩, _⟩ := atDistance_succ_iff.mp later
      exact ih via before

end Levels

end Univiz.Data
