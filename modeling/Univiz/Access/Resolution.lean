import Univiz.Access.Requests

namespace Univiz.Access

open Univiz.Data

/-! When an access request is resolved once. -/

/-- The call looks at the stored status again before it writes its own.  An approval does not, once
it has loaded the request; a denial does in `resolve`. -/
def Session.Rechecks : Session → Prop
  | .begun _ | .ended _ => True
  | .loaded call | .authorized call | .checked call | .unbound call | .resolving call _ =>
      call.verdict = .deny
  | .flushing _ _ | .updated _ _ => False

instance : (session : Session) → Decidable session.Rechecks
  | .begun _ | .ended _ => isTrue trivial
  | .loaded call | .authorized call | .checked call | .unbound call | .resolving call _ =>
      inferInstanceAs (Decidable (call.verdict = .deny))
  | .flushing _ _ | .updated _ _ => isFalse id

/-- The binding that a session has inserted is that of an approval. -/
def Session.Approves : Session → Prop
  | .resolving call inserted | .flushing call inserted | .updated call inserted =>
      inserted.isSome = true → call.verdict = .approve
  | .authorized call | .checked call | .unbound call => call.verdict = .approve
  | .begun _ | .loaded _ | .ended _ => True

theorem Verdict.status_ne_pending (verdict : Verdict) : verdict.status ≠ .pending := by
  cases verdict <;> nofun

namespace Workflow

variable {workflow next : Workflow} {event : Event} {id : Nat} {session new : Session} {call : Call}
  {inserted : Option RoleBinding}

/-- At most one call has committed; the request has its verdict, the outbox only its event,
and a binding was inserted only if it is approved. -/
structure ResolvedOnce (workflow : Workflow) : Prop where
  single : workflow.commits.length ≤ 1
  status : ∀ commit ∈ workflow.commits, workflow.request.status = commit.verdict.status
  outbox : workflow.outbox.length = workflow.commits.length
  binding : ∀ commit ∈ workflow.commits, commit.inserted.isSome = true →
    workflow.request.status = .approved

/-- When a call commits, no other call has passed its last look at the status. -/
def Apart (workflow : Workflow) : Event → Prop
  | .commit id => ∀ session ∈ workflow.sessions.eraseIdx id, session.Rechecks
  | .call _ | .load _ | .authorize _ _ | .checkRole _ _ | .findBinding _ | .createBinding _
  | .resolve _ | .flush _ | .rollback _ => True

instance (workflow : Workflow) : (event : Event) → Decidable (workflow.Apart event)
  | .commit id =>
      inferInstanceAs (Decidable (∀ session ∈ workflow.sessions.eraseIdx id, session.Rechecks))
  | .call _ | .load _ | .authorize _ _ | .checkRole _ _ | .findBinding _ | .createBinding _
  | .resolve _ | .flush _ | .rollback _ => isTrue trivial

structure Tracked (workflow : Workflow) : Prop where
  once : workflow.ResolvedOnce
  approves : ∀ session ∈ workflow.sessions, session.Approves
  resolved : workflow.commits ≠ [] → workflow.request.status ≠ .pending ∧
    ∀ session ∈ workflow.sessions, session.Rechecks

/-- What a statement that is not a commit makes of its session. -/
structure Advances (workflow : Workflow) (session new : Session) : Prop where
  rechecks : workflow.request.status ≠ .pending → session.Rechecks → new.Rechecks
  approves : session.Approves → new.Approves

theorem load_advances : Advances workflow (.begun call) (workflow.load call) := by
  simp only [load]
  split
  · exact ⟨fun _ _ => trivial, fun _ => trivial⟩
  · rename_i pending
    split
    · exact ⟨fun _ _ => trivial, fun _ => trivial⟩
    · exact ⟨fun resolved => absurd resolved pending, fun _ => trivial⟩

theorem authorize_advances {admin : Bool} :
    Advances workflow (.loaded call) (authorize call admin) := by
  simp only [authorize]
  split
  · split
    · rename_i approve
      exact ⟨fun _ rechecks => rechecks, fun _ => approve⟩
    · exact ⟨fun _ rechecks => rechecks, fun _ => nofun⟩
  · exact ⟨fun _ _ => trivial, fun _ => trivial⟩

theorem checkRole_advances {check : RoleCheck} :
    Advances workflow (.authorized call) (workflow.checkRole call check) := by
  cases check with
  | missing => exact ⟨fun _ _ => trivial, fun _ => trivial⟩
  | unbindable => exact ⟨fun _ _ => trivial, fun _ => trivial⟩
  | bindable => exact ⟨fun _ rechecks => rechecks, id⟩

theorem findBinding_advances : Advances workflow (.checked call) (workflow.findBinding call) := by
  simp only [findBinding]
  split
  · exact ⟨fun _ rechecks => rechecks, fun _ => nofun⟩
  · exact ⟨fun _ rechecks => rechecks, id⟩

theorem createBinding_advances :
    Advances workflow (.unbound call) (workflow.createBinding call) := by
  simp only [createBinding]
  split
  · exact ⟨fun _ _ => trivial, fun _ => trivial⟩
  · exact ⟨fun _ rechecks => rechecks, fun approves _ => approves⟩

/-- A denial does not get past the check of a request that has been resolved. -/
theorem resolve_advances :
    Advances workflow (.resolving call inserted) (workflow.resolve call inserted) := by
  simp only [resolve]
  split
  · exact ⟨fun _ _ => trivial, fun _ => trivial⟩
  · rename_i passes
    exact ⟨fun resolved deny => absurd ⟨deny, resolved⟩ passes, fun approves => approves⟩

theorem step_cases (stepped : workflow.step event = some next) :
    (∃ call, next = { workflow with sessions := workflow.sessions ++ [.begun call] }) ∧
        (∀ id, event ≠ .commit id) ∨
      (∃ id session new, workflow.sessions[id]? = some session ∧
        next = workflow.setSession id new ∧ Advances workflow session new) ∧
        (∀ id, event ≠ .commit id) ∨
      ∃ id call inserted, event = .commit id ∧
        workflow.sessions[id]? = some (.updated call inserted) ∧
          next = workflow.committed id call inserted := by
  cases event with
  | call call =>
      cases stepped
      exact .inl ⟨⟨call, rfl⟩, nofun⟩
  | load id =>
      simp only [step] at stepped
      split at stepped
      · rename_i found
        cases stepped
        exact .inr (.inl ⟨⟨id, _, _, found, rfl, load_advances⟩, nofun⟩)
      · cases stepped
  | authorize id admin =>
      simp only [step] at stepped
      split at stepped
      · rename_i found
        cases stepped
        exact .inr (.inl ⟨⟨id, _, _, found, rfl, authorize_advances⟩, nofun⟩)
      · cases stepped
  | checkRole id check =>
      simp only [step] at stepped
      split at stepped
      · rename_i found
        cases stepped
        exact .inr (.inl ⟨⟨id, _, _, found, rfl, checkRole_advances⟩, nofun⟩)
      · cases stepped
  | findBinding id =>
      simp only [step] at stepped
      split at stepped
      · rename_i found
        cases stepped
        exact .inr (.inl ⟨⟨id, _, _, found, rfl, findBinding_advances⟩, nofun⟩)
      · cases stepped
  | createBinding id =>
      simp only [step] at stepped
      split at stepped
      · rename_i found
        split at stepped
        · cases stepped
        · cases stepped
          exact .inr (.inl ⟨⟨id, _, _, found, rfl, createBinding_advances⟩, nofun⟩)
      · cases stepped
  | resolve id =>
      simp only [step] at stepped
      split at stepped
      · rename_i found
        cases stepped
        exact .inr (.inl ⟨⟨id, _, _, found, rfl, resolve_advances⟩, nofun⟩)
      · cases stepped
  | flush id =>
      simp only [step] at stepped
      split at stepped
      · rename_i found
        split at stepped
        · cases stepped
        · cases stepped
          exact .inr (.inl ⟨⟨id, _, _, found, rfl, fun _ never => never,
            fun approves => approves⟩, nofun⟩)
      · cases stepped
  | commit id =>
      simp only [step] at stepped
      split at stepped
      · rename_i found
        cases stepped
        exact .inr (.inr ⟨id, _, _, rfl, found, rfl⟩)
      · cases stepped
  | rollback id =>
      obtain ⟨session, found, ended⟩ := Option.bind_eq_some_iff.mp stepped
      split at ended
      · cases ended
        exact .inr (.inl ⟨⟨id, _, _, found, rfl, fun _ _ => trivial, fun _ => trivial⟩, nofun⟩)
      · cases ended

theorem ResolvedOnce.kept (once : workflow.ResolvedOnce) (sessions : List Session) :
    ResolvedOnce { workflow with sessions := sessions } :=
  ⟨once.single, once.status, once.outbox, once.binding⟩

theorem Tracked.called (tracked : workflow.Tracked) (call : Call) :
    Tracked { workflow with sessions := workflow.sessions ++ [.begun call] } where
  once := tracked.once.kept _
  approves := List.forall_mem_append.mpr
    ⟨tracked.approves, List.forall_mem_singleton.mpr trivial⟩
  resolved := by
    intro committed
    obtain ⟨status, rechecks⟩ := tracked.resolved committed
    exact ⟨status, List.forall_mem_append.mpr ⟨rechecks, List.forall_mem_singleton.mpr trivial⟩⟩

theorem Tracked.advanced (tracked : workflow.Tracked) (found : workflow.sessions[id]? = some session)
    (advances : workflow.Advances session new) : (workflow.setSession id new).Tracked := by
  have member := List.mem_of_getElem? found
  refine ⟨tracked.once.kept _, ?_, ?_⟩
  · intro other listed
    rcases List.mem_or_eq_of_mem_set listed with old | rfl
    · exact tracked.approves other old
    · exact advances.approves (tracked.approves session member)
  · intro committed
    obtain ⟨status, rechecks⟩ := tracked.resolved committed
    refine ⟨status, fun other listed => ?_⟩
    rcases List.mem_or_eq_of_mem_set listed with old | rfl
    · exact rechecks other old
    · exact advances.rechecks status (rechecks session member)

/-- A call that has written its status is the first to commit, and the others look again. -/
theorem Tracked.committed (tracked : workflow.Tracked)
    (found : workflow.sessions[id]? = some (.updated call inserted))
    (apart : ∀ session ∈ workflow.sessions.eraseIdx id, session.Rechecks) :
    (workflow.committed id call inserted).Tracked := by
  have member := List.mem_of_getElem? found
  have none : workflow.commits = [] := by
    by_contra resolved
    exact (tracked.resolved resolved).2 _ member
  have commits : (workflow.committed id call inserted).commits =
      [⟨id, call.verdict, inserted⟩] := by
    rw [Workflow.committed, none]
    rfl
  refine ⟨⟨?_, ?_, ?_, ?_⟩, ?_, fun _ => ⟨call.verdict.status_ne_pending, ?_⟩⟩
  · rw [commits]
    exact Nat.le_refl 1
  · intro commit listed
    rw [commits, List.mem_singleton] at listed
    rw [listed]
    rfl
  · simp only [Workflow.committed, List.length_append, List.length_singleton,
      tracked.once.outbox]
  · intro commit listed grants
    rw [commits, List.mem_singleton] at listed
    rw [listed] at grants
    have approve : call.verdict = .approve := tracked.approves _ member grants
    show call.verdict.status = .approved
    rw [approve]
    rfl
  · intro other listed
    rcases List.mem_or_eq_of_mem_set listed with old | rfl
    · exact tracked.approves other old
    · trivial
  · intro other listed
    obtain ⟨place, lookup⟩ := List.getElem?_of_mem listed
    rcases getElem?_set_cases lookup with ⟨-, rfl⟩ | ⟨elsewhere, before⟩
    · trivial
    · exact apart other
        (List.mem_eraseIdx_iff_getElem?.mpr ⟨place, Ne.symm elsewhere, before⟩)

theorem Tracked.step (tracked : workflow.Tracked) (apart : workflow.Apart event)
    (stepped : workflow.step event = some next) : next.Tracked := by
  rcases step_cases stepped with ⟨⟨call, rfl⟩, -⟩ | ⟨⟨id, session, new, found, rfl, advances⟩, -⟩ |
    ⟨id, call, inserted, rfl, found, rfl⟩
  · exact tracked.called call
  · exact tracked.advanced found advances
  · exact tracked.committed found apart

/-- A request is resolved at most once throughout the runs in which no call commits while another
has passed its last look at the status. -/
theorem apart_resolvedOnce (request : AccessRequest) (binding : Option RoleBinding)
    (events : List Event) (apart : Meets step Apart (start request binding) events) :
    Always step ResolvedOnce (start request binding) events := by
  refine always_of_meets Tracked (fun _ _ _ => Tracked.step) (fun _ => Tracked.once) ?_ apart
  refine ⟨⟨Nat.zero_le 1, ?_, rfl, ?_⟩, ?_, fun committed => absurd rfl committed⟩
  · intro commit member
    cases member
  · intro commit member
    cases member
  · intro session member
    cases member

def asked : AccessRequest where
  id := "req_1"
  requesterId := "usr_ada"
  targetType := "workspace"
  targetId := "ws_lineage"
  requestedRole := "viewer"
  status := .pending
  resolvedBy := none
  resolutionNote := none

/-- A denial finds the request resolved when it looks at it again. -/
def deniedLate : List Event :=
  [.call ⟨.approve, "usr_grace", none⟩, .load 0, .authorize 0 true, .checkRole 0 .bindable,
    .findBinding 0, .createBinding 0, .resolve 0, .call ⟨.deny, "usr_alan", none⟩, .load 1,
    .authorize 1 true, .flush 0, .commit 0, .resolve 1]

theorem deniedLate_resolvedOnce :
    (run step (start asked none) deniedLate).map
        (fun last => (last.request.status, last.commits.length, last.outbox.length)) =
      some (.approved, 1, 1) ∧
    Always step ResolvedOnce (start asked none) deniedLate :=
  ⟨by decide +kernel, apart_resolvedOnce asked none deniedLate (by decide +kernel)⟩

/-- An approval that waits before it resolves the request, and a denial that is done by then. -/
def deniedMeanwhile : List Event :=
  [.call ⟨.approve, "usr_grace", none⟩, .load 0, .authorize 0 true, .checkRole 0 .bindable,
    .findBinding 0, .createBinding 0,
    .call ⟨.deny, "usr_alan", some "not now"⟩, .load 1, .authorize 1 true, .resolve 1,
    .flush 1, .commit 1]

def approvedAfter : List Event := deniedMeanwhile ++ [.resolve 0, .flush 0, .commit 0]

/-- The denial waits after its last check, and overwrites the approval that has granted the
role. -/
def deniedAfter : List Event :=
  [.call ⟨.deny, "usr_alan", none⟩, .load 0, .authorize 0 true, .resolve 0,
    .call ⟨.approve, "usr_grace", none⟩, .load 1, .authorize 1 true, .checkRole 1 .bindable,
    .findBinding 1, .createBinding 1, .resolve 1, .flush 1, .commit 1, .flush 0, .commit 0]

theorem racing_commits :
    (run step (start asked none) approvedAfter).map
        (fun last => (last.request.status, last.commits.length, last.outbox.length)) =
      some (.approved, 2, 2) ∧
    (run step (start asked none) deniedAfter).map
        (fun last => (last.request.status, last.commits.length, last.binding.isSome)) =
      some (.denied, 2, true) := by
  decide +kernel

theorem not_resolvedOnce :
    ¬ ∃ events ∈ [approvedAfter, deniedAfter],
      ∀ last, run step (start asked none) events = some last → last.ResolvedOnce := by
  intro ⟨events, member, always⟩
  simp only [List.mem_cons, List.not_mem_nil, or_false] at member
  rcases member with rfl | rfl
  · obtain ⟨last, ran, shape⟩ := Option.map_eq_some_iff.mp racing_commits.1
    have single := (always last ran).single
    simp only [Prod.mk.injEq] at shape
    omega
  · obtain ⟨last, ran, shape⟩ := Option.map_eq_some_iff.mp racing_commits.2
    have single := (always last ran).single
    simp only [Prod.mk.injEq] at shape
    omega

end Workflow

end Univiz.Access
