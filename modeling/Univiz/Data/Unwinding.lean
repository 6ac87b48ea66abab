import Mathlib.Data.List.Induction
import Mathlib.Data.List.Nodup
import Mathlib.Logic.Function.Basic

namespace Univiz.Data

/-! Unwinding a list of edits, the last first.

Each edit has led from one state to another, and its hook is known to lead back from that
state only. -/

variable {ι σ : Type} {before after : ι → σ} {start finish finish' : σ} {edits : List ι} {edit : ι}

/-- The edits follow on from one another, from the start to the finish. -/
def Leads (before after : ι → σ) : σ → List ι → σ → Prop
  | start, [], finish => start = finish
  | start, edit :: rest, finish => start = before edit ∧ Leads before after (after edit) rest finish

def unwind (discard : ι → σ → σ) (edits : List ι) (state : σ) : σ := edits.foldr discard state

theorem leads_concat : Leads before after start (edits ++ [edit]) finish ↔
    Leads before after start edits (before edit) ∧ after edit = finish := by
  induction edits generalizing start with
  | nil => exact Iff.rfl
  | cons first rest ih => rw [List.cons_append, Leads, Leads, ih, and_assoc]

theorem Leads.unique (leads : Leads before after start edits finish)
    (leads' : Leads before after start edits finish') : finish = finish' := by
  induction edits generalizing start with
  | nil => exact leads.symm.trans leads'
  | cons first rest ih => exact ih leads.2 leads'.2

theorem unwind_concat {discard : ι → σ → σ} :
    unwind discard (edits ++ [edit]) finish = unwind discard edits (discard edit finish) := by
  simp only [unwind, List.foldr_append, List.foldr_cons, List.foldr_nil]

theorem Leads.unwind {discard : ι → σ → σ}
    (leads : Leads before after start edits finish)
    (restores : ∀ edit ∈ edits, discard edit (after edit) = before edit) :
    unwind discard edits finish = start := by
  induction edits generalizing start with
  | nil => exact leads.symm
  | cons first rest ih =>
      have ⟨here, later⟩ := List.forall_mem_cons.mp restores
      have unwound := ih leads.2 later
      rw [Data.unwind, List.foldr_cons, ← Data.unwind, unwound, here, leads.1]

/-- Where they do not follow on from one another, hooks that lead back each from its own
state may miss the start. -/
theorem exists_unwind_ne (distinct : edits.Nodup)
    (changing : ∀ edit ∈ edits, before edit ≠ after edit)
    (astray : ¬ Leads before after start edits finish) :
    ∃ discard : ι → σ → σ, (∀ edit, discard edit (after edit) = before edit) ∧
      unwind discard edits finish ≠ start := by
  classical
  induction edits using List.reverseRecOn generalizing finish with
  | nil => exact ⟨fun edit _ => before edit, fun _ => rfl, fun same => astray same.symm⟩
  | append_singleton edits edit ih =>
      have ⟨distinct', _, apart⟩ := List.nodup_append.mp distinct
      have earlier := fun other member => changing other (List.mem_append_left [edit] member)
      by_cases here : finish = after edit
      · have astray' : ¬ Leads before after start edits (before edit) :=
          fun leads => astray (leads_concat.mpr ⟨leads, here.symm⟩)
        obtain ⟨discard, restores, missed⟩ := ih distinct' earlier astray'
        refine ⟨discard, restores, ?_⟩
        rw [unwind_concat, here, restores]
        exact missed
      · -- The hook is free at `finish`, and the edits before it lead to one state at most.
        obtain ⟨state, astray'⟩ : ∃ state, ¬ Leads before after start edits state := by
          by_contra none
          push Not at none
          exact changing edit List.mem_concat_self ((none _).unique (none _))
        obtain ⟨discard, restores, missed⟩ := ih distinct' earlier astray'
        let discard' := Function.update discard edit fun at' =>
          if at' = finish then state else before edit
        refine ⟨discard', ?_, ?_⟩
        · intro other
          by_cases same : other = edit
          · subst same
            simp [discard', Ne.symm here]
          · simp [discard', same, restores]
        · have kept : unwind discard' edits state = unwind discard edits state := by
            apply List.foldr_ext
            intro other member _
            have other_ne : other ≠ edit := apart other member edit (List.mem_singleton_self edit)
            simp only [discard', Function.update_of_ne other_ne]
          rw [unwind_concat]
          simp only [discard', Function.update_self, ↓reduceIte]
          rw [← kept] at missed
          exact missed

end Univiz.Data
