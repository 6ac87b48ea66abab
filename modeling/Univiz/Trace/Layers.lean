import Univiz.Data.Reach
import Univiz.Trace.Orchestrator

namespace Univiz.Trace

open Univiz.Data

/-! Two searches from one anchor, upstream and downstream, that share the nodes they have
seen.  In each round both sides follow the lineage once, the upstream side first. -/

structure Layer where
  seen : Urn → Prop
  frontier : Direction → Urn → Prop

variable (leads : Direction → Urn → Urn → Prop) (depth : Direction → Nat) (anchor : Urn)

/-- The nodes that a side meets in a round. -/
def Layer.Meets (layer : Layer) (hop : Nat) (direction : Direction) (urn : Urn) : Prop :=
  hop < depth direction ∧ ∃ via, layer.frontier direction via ∧ leads direction via urn

def Layer.next (layer : Layer) (hop : Nat) : Layer where
  seen urn := layer.seen urn ∨ layer.Meets leads depth hop .incoming urn ∨
    layer.Meets leads depth hop .outgoing urn
  frontier
    | .incoming, urn => ¬ layer.seen urn ∧ layer.Meets leads depth hop .incoming urn
    | .outgoing, urn => ¬ layer.seen urn ∧ ¬ layer.Meets leads depth hop .incoming urn ∧
        layer.Meets leads depth hop .outgoing urn

def layerAt : Nat → Layer
  | 0 => ⟨fun urn => urn = anchor, fun direction urn => 0 < depth direction ∧ urn = anchor⟩
  | hop + 1 => (layerAt hop).next leads depth hop

/-- No node but the anchor is reached on both sides. -/
def SidesApart : Prop :=
  ∀ urn, Within (leads .incoming) (depth .incoming) anchor urn →
    Within (leads .outgoing) (depth .outgoing) anchor urn → urn = anchor

variable {leads : Direction → Urn → Urn → Prop} {depth : Direction → Nat} {anchor urn : Urn}
  {direction : Direction} {hop : Nat}

theorem Layer.next_frontier {layer : Layer}
    (onFrontier : (layer.next leads depth hop).frontier direction urn) :
    layer.Meets leads depth hop direction urn := by
  cases direction with
  | incoming => exact onFrontier.2
  | outgoing => exact onFrontier.2.2

theorem layerAt_frontier_within
    (onFrontier : (layerAt leads depth anchor hop).frontier direction urn) :
    hop ≤ depth direction ∧ Within (leads direction) hop anchor urn := by
  induction hop generalizing urn with
  | zero => exact ⟨Nat.zero_le _, onFrontier.2⟩
  | succ hop ih =>
      obtain ⟨early, via, before, last⟩ := Layer.next_frontier onFrontier
      exact ⟨early, .inr ⟨via, (ih before).2, last⟩⟩

/-- Every node that has been seen was on the frontier of a side once. -/
theorem layerAt_seen (seen : (layerAt leads depth anchor hop).seen urn) :
    urn = anchor ∨ ∃ former ≤ hop, ∃ side, (layerAt leads depth anchor former).frontier side urn := by
  induction hop with
  | zero => exact .inl seen
  | succ hop ih =>
      by_cases before : (layerAt leads depth anchor hop).seen urn
      · refine (ih before).imp_right ?_
        intro ⟨former, bound, onFrontier⟩
        exact ⟨former, Nat.le_succ_of_le bound, onFrontier⟩
      · refine .inr ⟨hop + 1, Nat.le_refl _, ?_⟩
        have met := seen.resolve_left before
        by_cases upstream : (layerAt leads depth anchor hop).Meets leads depth hop .incoming urn
        · exact ⟨.incoming, before, upstream⟩
        · exact ⟨.outgoing, before, upstream, met.resolve_left upstream⟩

/-- Once no side that goes on has a frontier, none has one later. -/
theorem layerAt_exhausted
    (exhausted : ∀ direction, hop < depth direction →
      ∀ urn, ¬ (layerAt leads depth anchor hop).frontier direction urn)
    {later : Nat} (after : hop ≤ later) (direction : Direction) (early : later < depth direction)
    (urn : Urn) : ¬ (layerAt leads depth anchor later).frontier direction urn := by
  induction after generalizing urn with
  | refl => exact exhausted direction early urn
  | step _ ih =>
      intro onFrontier
      obtain ⟨-, via, before, -⟩ := Layer.next_frontier onFrontier
      exact ih (Nat.lt_of_succ_lt early) via before

/-- Without a frontier there is none later. -/
theorem layerAt_silent
    (silent : ∀ direction urn, ¬ (layerAt leads depth anchor hop).frontier direction urn)
    {later : Nat} (after : hop ≤ later) (direction : Direction) (urn : Urn) :
    ¬ (layerAt leads depth anchor later).frontier direction urn := by
  induction after generalizing direction urn with
  | refl => exact silent direction urn
  | step _ ih =>
      intro onFrontier
      obtain ⟨-, via, before, -⟩ := Layer.next_frontier onFrontier
      exact ih direction via before

/-- If the sides are apart, a node within the depth of a side was on its frontier if it was on
any. -/
theorem layerAt_frontier_own (apart : SidesApart leads depth anchor) {former : Nat}
    {side : Direction} (onFrontier : (layerAt leads depth anchor former).frontier side urn)
    (reached : Within (leads direction) (depth direction) anchor urn)
    (positive : 0 < depth direction) :
    ∃ own ≤ former, (layerAt leads depth anchor own).frontier direction urn := by
  by_cases same : side = direction
  · exact ⟨former, Nat.le_refl _, same ▸ onFrontier⟩
  · obtain ⟨bound, reached'⟩ := layerAt_frontier_within onFrontier
    have ball := within_mono bound reached'
    have meet : urn = anchor := by
      cases side <;> cases direction
      · cases same rfl
      · exact apart urn ball reached
      · exact apart urn reached ball
      · cases same rfl
    exact ⟨0, Nat.zero_le _, positive, meet⟩

/-- If the sides are apart, each of them comes to every node within its depth. -/
theorem layerAt_reaches (apart : SidesApart leads depth anchor)
    (reached : Within (leads direction) hop anchor urn) (early : hop < depth direction) :
    ∃ own ≤ hop, (layerAt leads depth anchor own).frontier direction urn := by
  have positive := Nat.zero_lt_of_lt early
  induction hop generalizing urn with
  | zero => exact ⟨0, Nat.le_refl 0, positive, reached⟩
  | succ hop ih =>
      have ball := within_mono (Nat.le_of_lt early) reached
      rcases reached with before | ⟨via, before, last⟩
      · obtain ⟨own, bound, onFrontier⟩ := ih before (Nat.lt_of_succ_lt early)
        exact ⟨own, Nat.le_succ_of_le bound, onFrontier⟩
      · obtain ⟨own, bound, onFrontier⟩ := ih before (Nat.lt_of_succ_lt early)
        have met : (layerAt leads depth anchor own).Meets leads depth own direction urn :=
          ⟨by omega, via, onFrontier, last⟩
        have seen : (layerAt leads depth anchor (own + 1)).seen urn := by
          cases direction with
          | incoming => exact .inr (.inl met)
          | outgoing => exact .inr (.inr met)
        rcases layerAt_seen seen with rfl | ⟨former, former_le, side, onSome⟩
        · exact ⟨0, Nat.zero_le _, positive, rfl⟩
        · obtain ⟨own', own'_le, onOwn⟩ := layerAt_frontier_own apart onSome ball positive
          exact ⟨own', by omega, onOwn⟩

end Univiz.Trace
