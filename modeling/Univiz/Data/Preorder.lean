import Mathlib.Data.List.ReduceOption
import Mathlib.Logic.Function.Basic
import Univiz.Data.Cycle

namespace Univiz.Data

/-! Trees that are built in two loops.

The first loop takes its visits from a stack, without looking whether it has been at an item
before, and remembers for each the visit above it.  The second goes through the visits from the
last to the first, makes something of each and hands it to the visit above. -/

structure Visit (α : Type) where
  item : α
  depth : Nat
  above : Option Nat

variable {α β : Type}

/-- The visits in their order, or nothing where the rounds do not suffice. -/
def enumerate (children : α → List α) :
    Nat → List (Visit α) → List (Visit α) → Option (List (Visit α))
  | _, [], order => some order
  | 0, _ :: _, _ => none
  | rounds + 1, visit :: stack, order =>
      enumerate children rounds
        ((children visit.item).map (fun child => ⟨child, visit.depth + 1, some order.length⟩) ++
          stack)
        (order ++ [visit])

/-- What has been handed to each visit, and what was made last. -/
structure Assembly (β : Type) where
  childrenOf : Nat → List β
  built : Option β

def Assembly.empty : Assembly β := ⟨fun _ => [], none⟩

def Assembly.place (make : α → Nat → List β → Option β) (entry : Visit α × Nat)
    (assembly : Assembly β) : Assembly β :=
  match make entry.1.item entry.1.depth (assembly.childrenOf entry.2) with
  | none => { assembly with built := none }
  | some made =>
      { childrenOf := match entry.1.above with
          | none => assembly.childrenOf
          | some above =>
              Function.update assembly.childrenOf above (assembly.childrenOf above ++ [made])
        built := some made }

def assemble (make : α → Nat → List β → Option β) (order : List (Visit α)) : Option β :=
  (order.zipIdx.foldr (Assembly.place make) .empty).built

/-- The visits to some items and to what is below them, numbered from a base, with what is made of
the items.  Children arrive from the last to the first. -/
inductive Listed (children : α → List α) (make : α → Nat → List β → Option β) :
    Nat → Nat → Option Nat → List α → List (Visit α) → List (Option β) → Prop
  | nil {base depth : Nat} {above : Option Nat} : Listed children make base depth above [] [] []
  | cons {base depth : Nat} {above : Option Nat} {item : α} {rest : List α}
      {below later : List (Visit α)} {kids others : List (Option β)}
      (first : Listed children make (base + 1) (depth + 1) (some base) (children item) below kids)
      (next : Listed children make (base + 1 + below.length) depth above rest later others) :
      Listed children make base depth above (item :: rest)
        (⟨item, depth, above⟩ :: (below ++ later))
        (make item depth kids.reduceOption.reverse :: others)

variable {children : α → List α} {make : α → Nat → List β → Option β} {base depth rounds : Nat}
  {above : Option Nat} {item : α} {items : List α} {visits stack order final : List (Visit α)}
  {results : List (Option β)}

theorem enumerate_of_listed (listed : Listed children make base depth above items visits results)
    (here : order.length = base) :
    enumerate children (visits.length + rounds)
        (items.map (fun item => ⟨item, depth, above⟩) ++ stack) order =
      enumerate children rounds stack (order ++ visits) := by
  induction listed generalizing order rounds stack with
  | nil => simp
  | @cons base depth above item rest below later kids others first next ihFirst ihNext =>
      subst here
      have count : (⟨item, depth, above⟩ :: (below ++ later) : List (Visit α)).length + rounds =
          below.length + (later.length + rounds) + 1 := by
        simp only [List.length_cons, List.length_append]
        omega
      rw [count, List.map_cons, List.cons_append, enumerate, ihFirst (by simp),
        ihNext (by simp; omega)]
      simp

theorem listed_of_enumerate (make : α → Nat → List β → Option β)
    (ends : enumerate children rounds
      (items.map (fun item => ⟨item, depth, above⟩) ++ stack) order = some final) :
    ∃ visits results fewer, Listed children make order.length depth above items visits results ∧
      fewer ≤ rounds ∧ enumerate children fewer stack (order ++ visits) = some final := by
  induction rounds using Nat.strongRecOn generalizing items depth above stack order with
  | ind rounds ih =>
      cases items with
      | nil => exact ⟨[], [], rounds, .nil, Nat.le_refl _, by simpa using ends⟩
      | cons item rest =>
          cases rounds with
          | zero => cases ends
          | succ rounds =>
              rw [List.map_cons, List.cons_append, enumerate] at ends
              obtain ⟨below, kids, fewer, first, less, ends⟩ := ih rounds (Nat.lt_succ_self _) ends
              obtain ⟨later, others, fewer', next, less', ends⟩ :=
                ih fewer (Nat.lt_succ_of_le less) ends
              simp only [List.length_append, List.length_singleton] at first next
              refine ⟨_, _, fewer', .cons first next, ?_, ?_⟩
              · omega
              · simpa using ends

theorem enumerate_root (listed : Listed children make 0 0 none [item] order results) (more : Nat) :
    enumerate children (order.length + more) [⟨item, 0, none⟩] [] = some order := by
  have ends : enumerate children (order.length + more)
      ([item].map (fun item => ⟨item, 0, none⟩) ++ []) [] =
        enumerate children more [] ([] ++ order) := enumerate_of_listed listed rfl
  rw [enumerate, List.nil_append] at ends
  exact ends

theorem listed_of_root (make : α → Nat → List β → Option β)
    (ends : enumerate children rounds [⟨item, 0, none⟩] [] = some order) :
    ∃ results, Listed children make 0 0 none [item] order results := by
  have alone : [(⟨item, 0, none⟩ : Visit α)] = [item].map (fun item => ⟨item, 0, none⟩) ++ [] :=
    rfl
  rw [alone] at ends
  obtain ⟨visits, results, fewer, listed, _, ends⟩ := listed_of_enumerate make ends
  rw [enumerate, List.nil_append] at ends
  cases ends
  exact ⟨results, listed⟩

theorem place_childrenOf (visit : Visit α) (number other : Nat) (assembly : Assembly β) :
    (Assembly.place make (visit, number) assembly).childrenOf other =
      assembly.childrenOf other ++
        if visit.above = some other then
          (make visit.item visit.depth (assembly.childrenOf number)).toList
        else [] := by
  simp only [Assembly.place]
  split
  · rename_i nothing
    rw [nothing, Option.toList_none, ite_self, List.append_nil]
  · rename_i made something
    rw [something, Option.toList_some]
    cases visit.above with
    | none => simp
    | some above =>
        by_cases here : above = other
        · subst here
          simp
        · simp [here, Function.update_of_ne (Ne.symm here)]

theorem place_built (visit : Visit α) (number : Nat) (assembly : Assembly β) :
    (Assembly.place make (visit, number) assembly).built =
      make visit.item visit.depth (assembly.childrenOf number) := by
  simp only [Assembly.place]
  split
  · rename_i nothing
    exact nothing.symm
  · rename_i made something
    exact something.symm

/-- What is made of some items is handed to the visit above them, and nothing is to the visits
before it. -/
theorem childrenOf_assemble (listed : Listed children make base depth above items visits results)
    (earlier : ∀ number, above = some number → number < base) (assembly : Assembly β)
    (fresh : ∀ number, base ≤ number → number < base + visits.length →
      assembly.childrenOf number = []) (number : Nat)
    (outside : number < base ∨ base + visits.length ≤ number) :
    ((visits.zipIdx base).foldr (Assembly.place make) assembly).childrenOf number =
      assembly.childrenOf number ++
        if above = some number then results.reduceOption.reverse else [] := by
  induction listed generalizing assembly number with
  | nil => simp
  | @cons base depth above item rest below later kids others first next ihFirst ihNext =>
      rw [List.zipIdx_cons, List.zipIdx_append, List.foldr_cons, List.foldr_append]
      simp only [List.length_cons, List.length_append] at fresh outside
      have handed := ihNext
        (fun other isAbove => Nat.lt_of_lt_of_le (earlier other isAbove) (by omega)) assembly
        (fun other least most => fresh other (by omega) (by omega))
      generalize (later.zipIdx (base + 1 + below.length)).foldr (Assembly.place make) assembly =
        after at handed
      have notAbove {other : Nat} (least : base ≤ other) : above ≠ some other :=
        fun isAbove => absurd (earlier other isAbove) (by omega)
      have empty (other : Nat) (least : base ≤ other) (most : other < base + 1 + below.length) :
          after.childrenOf other = [] := by
        rw [handed other (.inl most), fresh other least (by omega), if_neg (notAbove least)]
        rfl
      have handedFirst := ihFirst (fun other isAbove => by cases isAbove; omega) after
        (fun other least most => empty other (by omega) (by omega))
      have other : (some base : Option Nat) ≠ some number := by
        simp only [ne_eq, Option.some.injEq]
        omega
      rw [place_childrenOf, handedFirst number (by omega), handedFirst base (by omega),
        empty base (Nat.le_refl _) (by omega), if_pos rfl, if_neg other, List.nil_append,
        List.append_nil, handed number (by omega), List.append_assoc]
      congr 1
      cases made : make item depth kids.reduceOption.reverse with
      | none => simp
      | some made =>
          split
          · simp
          · simp

theorem assemble_of_listed (listed : Listed children make 0 0 none [item] order results) :
    results = [assemble make order] := by
  cases listed with
  | cons first next =>
      cases next
      have handed := childrenOf_assemble first (fun number isBase => by cases isBase; omega) .empty
        (fun _ _ _ => rfl) 0 (by omega)
      rw [assemble, List.append_nil, List.zipIdx_cons, List.foldr_cons, place_built, handed,
        if_pos rfl]
      rfl

/-- What holds of each item and of what is made of it, if it holds of its children. -/
theorem Listed.forall₂ {good : α → Option β → Prop}
    (listed : Listed children make base depth above items visits results)
    (step : ∀ item depth kids, List.Forall₂ good (children item) kids →
      good item (make item depth kids.reduceOption.reverse)) :
    List.Forall₂ good items results := by
  induction listed with
  | nil => exact .nil
  | cons _ _ ihFirst ihNext => exact .cons (step _ _ _ ihFirst) ihNext

def Below (children : α → List α) (item child : α) : Prop := child ∈ children item

theorem Listed.loopless (listed : Listed children make base depth above items visits results)
    {other : α} (member : item ∈ items)
    (path : Relation.ReflTransGen (Below children) item other) :
    ¬ Relation.TransGen (Below children) other other := by
  induction listed generalizing item other with
  | nil => cases member
  | cons _ _ ihFirst ihNext =>
      rcases List.mem_cons.mp member with rfl | later
      · rcases Relation.ReflTransGen.cases_head path with rfl | ⟨child, below, path⟩
        · -- a loop through the item goes through one of its children
          intro loop
          obtain ⟨child, below, back⟩ := Relation.TransGen.head'_iff.mp loop
          exact ihFirst below .refl (.tail' back below)
        · exact ihFirst below path
      · exact ihNext later path

theorem exists_listed (each : ∀ item ∈ items, ∀ base depth above, ∃ visits results,
      Listed children make base depth above [item] visits results) (base depth : Nat)
    (above : Option Nat) :
    ∃ visits results, Listed children make base depth above items visits results := by
  induction items generalizing base with
  | nil => exact ⟨[], [], .nil⟩
  | cons item rest ih =>
      obtain ⟨here, others⟩ := List.forall_mem_cons.mp each
      obtain ⟨_, _, listed⟩ := here base depth above
      cases listed with
      | @cons _ _ _ _ _ below _ _ _ first _ =>
          obtain ⟨_, _, next⟩ := ih others (base + 1 + below.length)
          exact ⟨_, _, .cons first next⟩

/-- The visits end just if no loop can be reached. -/
theorem exists_listed_iff (make : α → Nat → List β → Option β) {targets : Set α}
    (finite : targets.Finite) (inside : ∀ item, ∀ child ∈ children item, child ∈ targets) :
    (∃ visits results, Listed children make base depth above [item] visits results) ↔
      ∀ other, Relation.ReflTransGen (Below children) item other →
        ¬ Relation.TransGen (Below children) other other := by
  constructor
  · rintro ⟨visits, results, listed⟩ other path
    exact listed.loopless List.mem_cons_self path
  · intro loopless
    -- the steps from items that are reached
    let passes (other child : α) : Prop :=
      Relation.ReflTransGen (Below children) item other ∧ Below children other child
    have noLoop : ∀ other, ¬ Relation.TransGen passes other other := by
      intro other loop
      obtain ⟨_, ⟨reached, _⟩, _⟩ := Relation.TransGen.head'_iff.mp loop
      exact loopless other reached (Relation.TransGen.mono (fun _ _ step => step.2) _ _ loop)
    have ends := induction_of_loopless
      (fun other => Relation.ReflTransGen (Below children) item other →
        ∀ base depth above, ∃ visits results,
          Listed children make base depth above [other] visits results)
      finite (fun other child step => inside other child step.2) noLoop
    apply ends ?_ item .refl
    intro other ih reached base depth above
    obtain ⟨below, kids, listed⟩ := exists_listed (fun child member =>
      ih child ⟨reached, member⟩ (reached.tail member)) (base + 1) (depth + 1) (some base)
    exact ⟨_, _, .cons listed .nil⟩

end Univiz.Data
