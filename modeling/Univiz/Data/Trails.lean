import Mathlib.Data.List.Chain
import Univiz.Data.Ascent
import Univiz.Data.Worklist

namespace Univiz.Data

/-! Walks up a map from children to parents that keep what they pass.  They end at a node that
stops them, at one that they have met, or where there is no parent. -/

variable {α : Type} [DecidableEq α]

/-- What a walk passes, and where it stands at its end. -/
def trail (parent : α → Option α) (stops : α → Bool) :
    Nat → List α → Option α → Option (List α × Option α)
  | 0, _, _ => none
  | _ + 1, _, none => some ([], none)
  | rounds + 1, visited, some cursor =>
      if stops cursor ∨ cursor ∈ visited then some ([], some cursor)
      else
        (trail parent stops rounds (cursor :: visited) (parent cursor)).map fun rest =>
          (cursor :: rest.1, rest.2)

variable {parent : α → Option α} {stops : α → Bool} {rounds : Nat} {visited chain keys : List α}
  {cursor last : Option α} {result : List α × Option α} {node other : α}

theorem trail_isSome : (trail parent stops rounds visited cursor).isSome =
    (ascend parent (fun visited cursor => if stops cursor ∨ cursor ∈ visited then some () else none)
      () rounds visited cursor).isSome := by
  induction rounds generalizing visited cursor with
  | zero => rfl
  | succ rounds ih =>
      cases cursor with
      | none => rfl
      | some cursor =>
          simp only [trail, ascend]
          by_cases ended : stops cursor ∨ cursor ∈ visited
          · simp only [if_pos ended, Option.isSome_some]
          · simp only [if_neg ended, Option.isSome_map]
            exact ih

theorem trail_more {more : Nat} (ended : trail parent stops rounds visited cursor = some result) :
    trail parent stops (rounds + more) visited cursor = some result := by
  induction rounds generalizing visited cursor result with
  | zero => cases ended
  | succ rounds ih =>
      rw [Nat.add_right_comm]
      cases cursor with
      | none => exact ended
      | some cursor =>
          simp only [trail] at ended ⊢
          split at ended
          · rename_i here
            rw [if_pos here, ended]
          · rename_i further
            obtain ⟨rest, walked, rfl⟩ := Option.map_eq_some_iff.mp ended
            rw [if_neg further, ih walked, Option.map_some]

/-- A walk meets each node once, so two rounds more than there are nodes with a parent are
enough. -/
theorem exists_trail (known : ∀ node, parent node ≠ none → node ∈ keys) (node : α) :
    ∃ result, ∀ more,
      trail parent stops (keys.length + 2 + more) [node] (parent node) = some result := by
  let check (visited : List α) (cursor : α) : Option Unit :=
    if stops cursor ∨ cursor ∈ visited then some () else none
  have guarded : Guarded check := by
    intro visited cursor met
    simp only [check, if_pos (Or.inr met)]
    exact Option.some_ne_none ()
  have known' (other : α) (climbs : parent other ≠ none) : other ∈ node :: keys :=
    List.mem_cons_of_mem _ (known other climbs)
  have seeded : [node] ⊆ node :: keys :=
    List.cons_subset.mpr ⟨List.mem_cons_self, List.nil_subset _⟩
  obtain ⟨_, ended⟩ : ∃ answer,
      ascend parent check () (keys.length + 2) [node] (parent node) = some answer :=
    ascend_ends guarded known' (List.nodup_singleton node) seeded (by simp)
  have some' : (trail parent stops (keys.length + 2) [node] (parent node)).isSome := by
    rw [trail_isSome, ended]
    rfl
  obtain ⟨result, walked⟩ := Option.isSome_iff_exists.mp some'
  exact ⟨result, fun more => trail_more walked⟩

/-- A step of the walk that does not stop it. -/
def Passing (parent : α → Option α) (stops : α → Bool) (node above : α) : Prop :=
  Above parent node above ∧ stops above = false

/-- What a walk leaves. -/
structure Trail (parent : α → Option α) (stops : α → Bool) (visited : List α) (cursor : Option α)
    (chain : List α) (last : Option α) : Prop where
  fresh : ∀ node ∈ chain, stops node = false ∧ node ∉ visited
  distinct : chain.Nodup
  linked : ∀ node, parent node = cursor → (node :: chain).IsChain (Passing parent stops)
  entered : ∀ node ∈ cursor, node ∈ chain ∨ node ∈ visited ∨ last = some node
  closed : ∀ node ∈ chain, ∀ above, Above parent node above →
    above ∈ chain ∨ above ∈ visited ∨ last = some above
  ended : ∀ node ∈ last, stops node = true ∨ node ∈ visited ∨ node ∈ chain
  origin : ∀ node ∈ last, cursor = some node ∨ ∃ below ∈ chain, Above parent below node

theorem trail_spec (walked : trail parent stops rounds visited cursor = some (chain, last)) :
    Trail parent stops visited cursor chain last := by
  induction rounds generalizing visited cursor chain with
  | zero => cases walked
  | succ rounds ih =>
      cases cursor with
      | none =>
          cases walked
          exact ⟨nofun, List.nodup_nil, fun _ _ => .singleton _, nofun, nofun, nofun, nofun⟩
      | some cursor =>
          simp only [trail] at walked
          split at walked
          · rename_i ended
            cases walked
            refine ⟨nofun, List.nodup_nil, fun _ _ => .singleton _, ?_, nofun, ?_, ?_⟩
            · rintro _ ⟨⟩
              exact .inr (.inr rfl)
            · rintro _ ⟨⟩
              exact ended.imp_right .inl
            · rintro _ ⟨⟩
              exact .inl rfl
          · rename_i further
            rw [not_or, Bool.not_eq_true] at further
            obtain ⟨⟨rest, final⟩, later, same⟩ := Option.map_eq_some_iff.mp walked
            cases same
            have spec := ih later
            exact {
              fresh := by
                intro node member
                rcases List.mem_cons.mp member with rfl | member
                · exact further
                · obtain ⟨free, new⟩ := spec.fresh node member
                  exact ⟨free, fun old => new (List.mem_cons_of_mem _ old)⟩
              distinct := List.nodup_cons.mpr
                ⟨fun member => (spec.fresh cursor member).2 List.mem_cons_self, spec.distinct⟩
              linked := fun node link => .cons_cons ⟨link, further.1⟩ (spec.linked cursor rfl)
              entered := by
                rintro _ ⟨⟩
                exact .inl List.mem_cons_self
              closed := by
                intro node member above link
                have onto : above ∈ rest ∨ above ∈ cursor :: visited ∨ final = some above := by
                  rcases List.mem_cons.mp member with rfl | member
                  · exact spec.entered above link
                  · exact spec.closed node member above link
                simp only [List.mem_cons] at onto ⊢
                tauto
              ended := by
                intro node isLast
                have met := spec.ended node isLast
                simp only [List.mem_cons] at met ⊢
                tauto
              origin := by
                intro node isLast
                rcases spec.origin node isLast with first | ⟨below, member, link⟩
                · exact .inr ⟨cursor, List.mem_cons_self, first⟩
                · exact .inr ⟨below, List.mem_cons_of_mem _ member, link⟩ }

namespace Trail

omit [DecidableEq α]

theorem path (walked : Trail parent stops [node] (parent node) chain last)
    (member : other ∈ chain) : Relation.TransGen (Passing parent stops) node other :=
  ((walked.linked node rfl).imp fun _ _ => Relation.TransGen.single).rel_cons member

/-- Where nothing stops the walk it passes all that is above the node. -/
theorem within (walked : Trail parent stops [node] (parent node) chain last)
    (path : Relation.TransGen (Above parent) node other) :
    (∃ found ∈ last, stops found = true) ∨ other ∈ node :: chain := by
  have onto (above : α) (next : above ∈ chain ∨ above ∈ [node] ∨ last = some above) :
      (∃ found ∈ last, stops found = true) ∨ above ∈ node :: chain := by
    rcases next with member | here | isLast
    · exact .inr (List.mem_cons_of_mem _ member)
    · exact .inr (List.mem_cons.mpr (.inl (List.mem_singleton.mp here)))
    · rcases walked.ended above isLast with stopped | here | member
      · exact .inl ⟨above, isLast, stopped⟩
      · exact .inr (List.mem_cons.mpr (.inl (List.mem_singleton.mp here)))
      · exact .inr (List.mem_cons_of_mem _ member)
  induction path with
  | single link => exact onto _ (walked.entered _ link)
  | tail _ link ih =>
      rcases ih with stopped | member
      · exact .inl stopped
      · rcases List.mem_cons.mp member with rfl | member
        · exact onto _ (walked.entered _ link)
        · exact onto _ (walked.closed _ member _ link)

/-- What is passed is what comes before the first node that stops a walk. -/
theorem mem_iff (walked : Trail parent stops [node] (parent node) chain last) :
    other ∈ chain ↔ Relation.TransGen (Passing parent stops) node other ∧ other ≠ node := by
  constructor
  · intro member
    refine ⟨walked.path member, ?_⟩
    rintro rfl
    exact (walked.fresh other member).2 List.mem_cons_self
  · rintro ⟨path, different⟩
    have onto (above : α) (free : stops above = false)
        (next : above ∈ chain ∨ above ∈ [node] ∨ last = some above) : above ∈ node :: chain := by
      rcases next with member | here | isLast
      · exact List.mem_cons_of_mem _ member
      · exact List.mem_cons.mpr (.inl (List.mem_singleton.mp here))
      · rcases walked.ended above isLast with stopped | here | member
        · rw [free] at stopped
          cases stopped
        · exact List.mem_cons.mpr (.inl (List.mem_singleton.mp here))
        · exact List.mem_cons_of_mem _ member
    have inside : other ∈ node :: chain := by
      clear different
      induction path with
      | single step => exact onto _ step.2 (walked.entered _ step.1)
      | tail _ step ih =>
          rcases List.mem_cons.mp ih with rfl | member
          · exact onto _ step.2 (walked.entered _ step.1)
          · exact onto _ step.2 (walked.closed _ member _ step.1)
    exact (List.mem_cons.mp inside).resolve_left different

theorem last_above (walked : Trail parent stops [node] (parent node) chain last)
    (isLast : other ∈ last) : Relation.TransGen (Above parent) node other := by
  rcases walked.origin other isLast with first | ⟨below, member, link⟩
  · exact .single first
  · exact .tail (Relation.TransGen.mono (fun _ _ step => step.1) _ _ (walked.path member)) link

/-- A walk is stopped just if something above the node stops it. -/
theorem stopped_iff (walked : Trail parent stops [node] (parent node) chain last)
    (free : stops node = false) :
    (∃ found ∈ last, stops found = true) ↔
      ∃ above, Relation.TransGen (Above parent) node above ∧ stops above = true := by
  constructor
  · rintro ⟨found, isLast, stopped⟩
    exact ⟨found, walked.last_above isLast, stopped⟩
  · rintro ⟨above, path, stopped⟩
    refine (walked.within path).resolve_right ?_
    intro member
    have passes : stops above = false := by
      rcases List.mem_cons.mp member with rfl | member
      · exact free
      · exact (walked.fresh above member).1
    rw [stopped] at passes
    cases passes

end Trail

/-- All that is above a node, each once and in order, as far as it does not come back. -/
structure IsLine (parent : α → Option α) (node : α) (line : List α) : Prop where
  linked : (node :: line).IsChain (Above parent)
  distinct : (node :: line).Nodup
  whole : ∀ above, Relation.TransGen (Above parent) node above → above ∈ node :: line

omit [DecidableEq α] in
theorem Trail.isLine (walked : Trail parent stops [node] (parent node) chain last)
    (free : ∀ found ∈ last, stops found = false) : IsLine parent node chain where
  linked := (walked.linked node rfl).imp fun _ _ step => step.1
  distinct := List.nodup_cons.mpr
    ⟨fun member => (walked.fresh node member).2 List.mem_cons_self, walked.distinct⟩
  whole above path := by
    refine (walked.within path).resolve_left ?_
    rintro ⟨found, isLast, stopped⟩
    rw [free found isLast] at stopped
    cases stopped

namespace IsLine

omit [DecidableEq α]

variable {line : List α}

theorem mem_iff (isLine : IsLine parent node line) :
    other ∈ node :: line ↔ Relation.ReflTransGen (Above parent) node other := by
  rw [Relation.reflTransGen_iff_eq_or_transGen]
  constructor
  · intro member
    rcases List.mem_cons.mp member with same | later
    · exact .inl same
    · exact .inr ((isLine.linked.imp fun _ _ => Relation.TransGen.single).rel_cons later)
  · rintro (rfl | path)
    · exact List.mem_cons_self
    · exact isLine.whole other path

theorem initial_or {first second : List α} (links : (node :: first).IsChain (Above parent))
    (links' : (node :: second).IsChain (Above parent)) : first <+: second ∨ second <+: first := by
  induction first generalizing node second with
  | nil => exact .inl List.nil_prefix
  | cons above rest ih =>
      cases second with
      | nil => exact .inr List.nil_prefix
      | cons above' rest' =>
          obtain ⟨link, links⟩ := List.isChain_cons_cons.mp links
          obtain ⟨link', links'⟩ := List.isChain_cons_cons.mp links'
          have same : above = above' := Option.some.inj (link.symm.trans link')
          subst same
          simpa using ih links links'

/-- A node has one line. -/
theorem unique {first second : List α} (isLine : IsLine parent node first)
    (isLine' : IsLine parent node second) : first = second := by
  have perm : (node :: first).Perm (node :: second) :=
    (List.perm_ext_iff_of_nodup isLine.distinct isLine'.distinct).mpr fun other => by
      rw [isLine.mem_iff, isLine'.mem_iff]
  have sameLength : first.length = second.length := Nat.succ.inj perm.length_eq
  rcases initial_or isLine.linked isLine'.linked with before | before
  · exact before.eq_of_length sameLength
  · exact (before.eq_of_length sameLength.symm).symm

end IsLine

end Univiz.Data
