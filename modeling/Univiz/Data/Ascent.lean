import Mathlib.Logic.Relation
import Univiz.Data.OrderedMap

namespace Univiz.Data

/-! Walks up a map from children to parents that keep the nodes they have met, and what
moving one node does to the cycles of such a map. -/

section Walks

variable {α β : Type}

/-- A walk over texts goes on at one that is there and not empty. -/
def cursorAt (text : Option String) : Option String := text.filter fun text => text ≠ ""

theorem cursorAt_eq_some {found : Option String} {text : String} :
    cursorAt found = some text ↔ found = some text ∧ text ≠ "" := by
  simp [cursorAt, Option.filter_eq_some_iff]

/-- The check sees the nodes met before and the node at hand, and may end the walk; `atTop` is the
answer where the nodes end.  Without rounds there is no answer. -/
def ascend (up : α → Option α) (check : List α → α → Option β) (atTop : β) :
    Nat → List α → Option α → Option β
  | 0, _, _ => none
  | _ + 1, _, none => some atTop
  | rounds + 1, visited, some cursor =>
      match check visited cursor with
      | some answer => some answer
      | none => ascend up check atTop rounds (cursor :: visited) (up cursor)

/-- No walk goes on from a node that it has met before. -/
def Guarded (check : List α → α → Option β) : Prop :=
  ∀ visited, ∀ cursor ∈ visited, check visited cursor ≠ none

variable {up : α → Option α} {check : List α → α → Option β} {atTop : β} {keys visited : List α}
  {cursor : Option α} {rounds : Nat}

theorem ascend_ends (guarded : Guarded check) (known : ∀ node, up node ≠ none → node ∈ keys)
    (distinct : visited.Nodup) (inside : visited ⊆ keys)
    (enough : keys.length + 1 < rounds + visited.length) :
    ∃ answer, ascend up check atTop rounds visited cursor = some answer := by
  induction rounds generalizing visited cursor with
  | zero =>
      have fewer := (List.subperm_of_subset distinct inside).length_le
      omega
  | succ rounds ih =>
      cases cursor with
      | none => exact ⟨atTop, rfl⟩
      | some cursor =>
          cases checked : check visited cursor with
          | some answer => exact ⟨answer, by simp only [ascend, checked]⟩
          | none =>
              simp only [ascend, checked]
              have fresh : cursor ∉ visited := fun met => guarded visited cursor met checked
              cases climbs : up cursor with
              | none =>
                  cases rounds with
                  | zero =>
                      have fewer := (List.subperm_of_subset distinct inside).length_le
                      omega
                  | succ rounds => exact ⟨atTop, rfl⟩
              | some above =>
                  have member : cursor ∈ keys := known cursor (by simp [climbs])
                  apply ih (List.nodup_cons.mpr ⟨fresh, distinct⟩)
                    (List.cons_subset.mpr ⟨member, inside⟩)
                  rw [List.length_cons]
                  omega

/-- Two rounds more than there are links are enough. -/
theorem ascend_links_ends {check : List String → String → Option β}
    {links : OrderedMap String String} {cursor : Option String} (guarded : Guarded check)
    (enough : links.size + 1 < rounds) :
    ∃ answer, ascend (fun node => cursorAt (links.get node)) check atTop rounds [] cursor =
      some answer := by
  have known : ∀ node, cursorAt (links.get node) ≠ none → node ∈ links.entries.map Prod.fst := by
    intro node climbs
    obtain ⟨above, link⟩ := Option.ne_none_iff_exists'.mp climbs
    exact List.mem_map_of_mem (OrderedMap.get_eq_some.mp (cursorAt_eq_some.mp link).1)
  apply ascend_ends guarded known List.nodup_nil (List.nil_subset _)
  rwa [List.length_map, List.length_nil, Nat.add_zero]

/-- What holds of the start and going up holds of where the walk is checked. -/
theorem ascend_holds (holds : α → Prop) (answers : β → Prop)
    (climbs : ∀ node above, holds node → up node = some above → holds above)
    (checked : ∀ visited node answer, holds node → check visited node = some answer →
      answers answer)
    (final : answers atTop) (start : ∀ node ∈ cursor, holds node) {answer : β}
    (found : ascend up check atTop rounds visited cursor = some answer) : answers answer := by
  induction rounds generalizing visited cursor with
  | zero => cases found
  | succ rounds ih =>
      cases cursor with
      | none =>
          cases found
          exact final
      | some node =>
          have here := start node rfl
          simp only [ascend] at found
          split at found
          · rename_i answer' isAnswer
            cases found
            exact checked visited node _ here isAnswer
          · exact ih (fun above link => climbs node above here link) found

end Walks

section Rehanging

variable {α : Type} {step : α → α → Prop} {child parent item : α}

/-- The steps after a node has been given one parent in the place of those it had. -/
def Rehung (step : α → α → Prop) (child parent : α) (item next : α) : Prop :=
  item ≠ child ∧ step item next ∨ item = child ∧ next = parent

/-- Up to where it first comes to the child, a path is the same before and after. -/
theorem reflTransGen_rehung_iff :
    Relation.ReflTransGen (Rehung step child parent) item child ↔
      Relation.ReflTransGen step item child := by
  constructor
  · intro path
    induction path using Relation.ReflTransGen.head_induction_on with
    | refl => exact .refl
    | head onto _ ih =>
        rcases onto with ⟨_, old⟩ | ⟨rfl, _⟩
        · exact .head old ih
        · exact .refl
  · intro path
    induction path using Relation.ReflTransGen.head_induction_on with
    | refl => exact .refl
    | @head item next onto _ ih =>
        by_cases here : item = child
        · exact here ▸ .refl
        · exact .head (.inl ⟨here, onto⟩) ih

/-- A path that was not there before passes the child. -/
theorem transGen_rehung {last : α} (path : Relation.TransGen (Rehung step child parent) item last) :
    Relation.TransGen step item last ∨
      Relation.ReflTransGen (Rehung step child parent) item child ∧
        Relation.TransGen (Rehung step child parent) child last := by
  induction path with
  | single onto =>
      rcases onto with ⟨_, old⟩ | ⟨rfl, rfl⟩
      · exact .inl (.single old)
      · exact .inr ⟨.refl, .single (.inr ⟨rfl, rfl⟩)⟩
  | tail before onto ih =>
      rcases ih with old | ⟨toChild, fromChild⟩
      · rcases onto with ⟨_, last⟩ | ⟨rfl, rfl⟩
        · exact .inl (old.tail last)
        · exact .inr ⟨before.to_reflTransGen, .single (.inr ⟨rfl, rfl⟩)⟩
      · exact .inr ⟨toChild, fromChild.tail onto⟩

/-- Where there was no loop, there is one just if the new parent was below the child. -/
theorem loopless_rehung_iff (loopless : ∀ item, ¬ Relation.TransGen step item item) :
    (∀ item, ¬ Relation.TransGen (Rehung step child parent) item item) ↔
      ¬ Relation.ReflTransGen step parent child := by
  have hung : Rehung step child parent child parent := .inr ⟨rfl, rfl⟩
  constructor
  · intro none path
    exact none child (.head' hung (reflTransGen_rehung_iff.mpr path))
  · intro apart item loop
    rcases transGen_rehung loop with old | ⟨toChild, fromChild⟩
    · exact loopless item old
    · obtain ⟨next, onto, path⟩ := Relation.TransGen.head'_iff.mp (fromChild.trans_left toChild)
      rcases onto with ⟨elsewhere, _⟩ | ⟨_, rfl⟩
      · exact elsewhere rfl
      · exact apart (reflTransGen_rehung_iff.mp path)

end Rehanging

section Growing

variable {α : Type} {before after : α → α → Prop} {rank : α → Nat} {item last : α}

/-- Steps that were not there before go down in rank, and those that were are at the bottom. -/
theorem transGen_growing (old : ∀ item next, before item next → rank next = 0)
    (steps : ∀ item next, after item next → before item next ∨ rank next < rank item)
    (path : Relation.TransGen after item last) :
    Relation.TransGen before item last ∧ rank last = 0 ∨ rank last < rank item := by
  induction path with
  | single onto =>
      rcases steps _ _ onto with there | lower
      · exact .inl ⟨.single there, old _ _ there⟩
      · exact .inr lower
  | @tail middle last _ onto ih =>
      rcases steps _ _ onto with there | lower
      · have bottom := old _ _ there
        rcases ih with ⟨path, _⟩ | lower
        · exact .inl ⟨path.tail there, bottom⟩
        · exact .inr (bottom ▸ Nat.zero_lt_of_lt lower)
      · rcases ih with ⟨_, bottom⟩ | lower'
        · exact absurd (bottom ▸ lower) (Nat.not_lt_zero _)
        · exact .inr (Nat.lt_trans lower lower')

theorem loopless_growing (old : ∀ item next, before item next → rank next = 0)
    (steps : ∀ item next, after item next → before item next ∨ rank next < rank item)
    (loopless : ∀ item, ¬ Relation.TransGen before item item) (item : α) :
    ¬ Relation.TransGen after item item := by
  intro loop
  rcases transGen_growing old steps loop with ⟨loop, _⟩ | lower
  · exact loopless item loop
  · exact Nat.lt_irrefl _ lower

end Growing

end Univiz.Data
