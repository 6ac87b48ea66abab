import Mathlib.Data.Finset.Lattice.Lemmas
import Univiz.Data.Transition

namespace Univiz.Auth

open Univiz.Data

/-! `LocalIdentityService.refresh` and `logout` on the tokens of one family.

Every call runs in a session of its own, statement by statement.  A session sees
the committed rows and its own, an insert waits for another session that holds
the key, and a session whose body raises is rolled back.
-/

/-- A token id as `secrets.token_urlsafe` makes it. -/
abbrev Jti := { jti : String // ':' ∉ jti.toList }

def familySentinel (familyId : String) : String := "family-revoked:" ++ familyId

theorem familySentinel_ne (familyId : String) (jti : Jti) : jti.val ≠ familySentinel familyId := by
  intro same
  apply jti.property
  rw [same]
  change ':' ∈ ("family-revoked:" ++ familyId).toList
  rw [String.toList_append]
  exact List.mem_append_left _ (by decide)

/-- The next statement of a call, or how it has ended. -/
inductive Phase where
  | isFamilyRevoked
  | isJtiRevoked
  | revokeJti
  | getUser
  | commit
  | revokeFamily (error : String)
  | raising (error : String)
  | succeeded
  | rejected (error : String)
  | logout
  | logoutCommit
  | loggedOut
deriving DecidableEq, Repr

/-- `pending` are the rows that its session has inserted and not committed.
`late` records that the call started after the family had to be dead. -/
structure Call where
  jti : Jti
  phase : Phase
  pending : Finset String
  late : Bool

structure State where
  committed : Finset String
  issued : Finset Jti
  calls : List Call
  condemned : Bool

def State.exchanged (state : State) (jti : Jti) : Bool :=
  state.calls.any fun call => call.phase = .succeeded ∧ call.jti = jti

/-- Another session has inserted the key and not ended. -/
def State.heldElsewhere (state : State) (id : Nat) (key : String) : Bool :=
  (state.calls.eraseIdx id).any fun call => key ∈ call.pending

/-- `_insert_ignore`: the rows of the session after it, or nothing while it has
to wait.  A duplicate rolls the session back and is swallowed. -/
def State.insertIgnore (state : State) (id : Nat) (pending : Finset String) (key : String) :
    Option (Finset String) :=
  if key ∈ state.committed then some ∅
  else if state.heldElsewhere id key then none
  else some (insert key pending)

/-- What one statement does: the call after it, whether it commits the session,
and whether it finds a token that has been exchanged. -/
structure Turn where
  call : Call
  commits : Bool := false
  detects : Bool := false

/-- The next statement of a call.  `active` is what the user lookup finds. -/
def State.turn (familyId : String) (state : State) (id : Nat) (active : Bool) (call : Call) :
    Option Turn :=
  match call.phase with
  | .isFamilyRevoked =>
      if familySentinel familyId ∈ state.committed ∪ call.pending then
        some { call := { call with phase := .raising "family_revoked" } }
      else some { call := { call with phase := .isJtiRevoked } }
  | .isJtiRevoked =>
      if call.jti.val ∈ state.committed ∪ call.pending then
        some { call := { call with phase := .revokeFamily "reuse_detected" }
               detects := state.exchanged call.jti }
      else some { call := { call with phase := .revokeJti } }
  | .revokeJti =>
      (state.insertIgnore id call.pending call.jti).map fun pending =>
        { call := { call with phase := .getUser, pending := pending } }
  | .getUser =>
      if active then some { call := { call with phase := .commit } }
      else some { call := { call with phase := .revokeFamily "user_inactive" } }
  | .commit =>
      some { call := { call with phase := .succeeded, pending := ∅ }, commits := true }
  | .revokeFamily error =>
      (state.insertIgnore id call.pending (familySentinel familyId)).map fun pending =>
        { call := { call with phase := .raising error, pending := pending } }
  | .raising error => some { call := { call with phase := .rejected error, pending := ∅ } }
  | .logout =>
      (state.insertIgnore id call.pending (familySentinel familyId)).map fun pending =>
        { call := { call with phase := .logoutCommit, pending := pending } }
  | .logoutCommit =>
      some { call := { call with phase := .loggedOut, pending := ∅ }, commits := true }
  | .succeeded | .rejected _ | .loggedOut => none

def Phase.ended : Phase → Bool
  | .succeeded | .rejected _ | .loggedOut => true
  | _ => false

/-- Calls start with an issued token, take turns, or fail and are rolled back.
A refresh that succeeds issues `minted`. -/
inductive Event where
  | refresh (jti : Jti)
  | logout (jti : Jti)
  | advance (id : Nat) (active : Bool) (minted : Jti)
  | fail (id : Nat)

/-- The state after a turn.  The family has to be dead once an exchanged token
was found again and once a logout has returned. -/
def State.take (state : State) (id : Nat) (call : Call) (minted : Jti) (turn : Turn) : State where
  committed := if turn.commits then state.committed ∪ call.pending else state.committed
  issued := if turn.call.phase = .succeeded then insert minted state.issued else state.issued
  calls := state.calls.set id turn.call
  condemned := state.condemned || turn.detects || turn.call.phase = .loggedOut

def step (familyId : String) (state : State) : Event → Option State
  | .refresh jti =>
      if jti ∈ state.issued then
        some { state with
          calls := state.calls ++ [⟨jti, .isFamilyRevoked, ∅, state.condemned⟩]
          condemned := state.condemned || state.exchanged jti }
      else none
  | .logout jti =>
      if jti ∈ state.issued then
        some { state with calls := state.calls ++ [⟨jti, .logout, ∅, state.condemned⟩] }
      else none
  | .advance id active minted =>
      state.calls[id]?.bind fun call =>
        if minted ∈ state.issued then none
        else (state.turn familyId id active call).map (state.take id call minted)
  | .fail id =>
      state.calls[id]?.bind fun call =>
        if call.phase.ended then none
        else some { state with
          calls := state.calls.set id { call with phase := .rejected "error", pending := ∅ } }

def State.login (jti : Jti) : State := ⟨∅, {jti}, [], false⟩

/-- Each token is exchanged at most once, and no call that starts after the
family had to be dead succeeds. -/
structure State.Safe (state : State) : Prop where
  once : ∀ (i j : Nat) (first second : Call), state.calls[i]? = some first →
    state.calls[j]? = some second → first.phase = .succeeded → second.phase = .succeeded →
      first.jti = second.jti → i = j
  dead : ∀ (id : Nat) (call : Call), state.calls[id]? = some call → call.late = true →
    call.phase ≠ .succeeded

def Phase.passed : Phase → Bool
  | .revokeJti | .getUser | .commit => true
  | _ => false

/-- An exchanged token comes again only when the family is revoked already, and
no two refreshes of a token are past their checks at once. -/
def Allowed (familyId : String) (state : State) : Event → Prop
  | .refresh jti => state.exchanged jti = true → familySentinel familyId ∈ state.committed
  | .advance id _ _ => ∀ call, state.calls[id]? = some call → call.phase = .isJtiRevoked →
      if call.jti.val ∈ state.committed then familySentinel familyId ∈ state.committed
      else ∀ other ∈ state.calls, other.jti = call.jti → other.phase.passed = false
  | _ => True

instance decidableAllowed (familyId : String) (state : State) :
    (event : Event) → Decidable (Allowed familyId state event)
  | .refresh jti => inferInstanceAs (Decidable
      (state.exchanged jti = true → familySentinel familyId ∈ state.committed))
  | .advance id _ _ => inferInstanceAs (Decidable
      (∀ call, state.calls[id]? = some call → call.phase = .isJtiRevoked →
        if call.jti.val ∈ state.committed then familySentinel familyId ∈ state.committed
        else ∀ other ∈ state.calls, other.jti = call.jti → other.phase.passed = false))
  | .logout _ => isTrue trivial
  | .fail _ => isTrue trivial

/-- What a call at its phase knows about its rows and the committed ones. -/
def Call.Sound (familyId : String) (committed : Finset String) (call : Call) : Prop :=
  match call.phase with
  | .isFamilyRevoked | .logout => call.pending = ∅
  | .isJtiRevoked => call.pending = ∅ ∧ call.late = false
  | .revokeJti => call.pending = ∅ ∧ call.late = false ∧ call.jti.val ∉ committed
  | .getUser | .commit =>
      call.pending = {call.jti.val} ∧ call.late = false ∧ call.jti.val ∉ committed
  | .succeeded => call.late = false ∧ call.jti.val ∈ committed
  | .logoutCommit => call.pending ⊆ {familySentinel familyId} ∧
      familySentinel familyId ∈ committed ∪ call.pending
  | .loggedOut => familySentinel familyId ∈ committed
  | .revokeFamily _ | .raising _ | .rejected _ => True

/-- A refresh that has passed its check, or has succeeded. -/
def Phase.holds (phase : Phase) : Bool := phase.passed || phase = .succeeded

structure Guarded (familyId : String) (state : State) : Prop where
  sound : ∀ (id : Nat) (call : Call), state.calls[id]? = some call →
    call.Sound familyId state.committed
  late : ∀ (id : Nat) (call : Call), state.calls[id]? = some call → call.late = true →
    familySentinel familyId ∈ state.committed
  unique : ∀ (i j : Nat) (first second : Call), state.calls[i]? = some first →
    state.calls[j]? = some second → first.phase.holds = true → second.phase.holds = true →
      first.jti = second.jti → i = j
  condemned : state.condemned = true → familySentinel familyId ∈ state.committed

variable {familyId : String} {state next : State} {id : Nat} {call : Call}

theorem Guarded.safe (guarded : Guarded familyId state) : state.Safe where
  once i j first second foundFirst foundSecond firstDone secondDone :=
    guarded.unique i j first second foundFirst foundSecond (by rw [firstDone]; rfl)
      (by rw [secondDone]; rfl)
  dead id call found late done := by
    have sound := guarded.sound id call found
    rw [Call.Sound, done] at sound
    exact absurd (late.symm.trans sound.1) Bool.noConfusion

theorem login_guarded (jti : Jti) : Guarded familyId (State.login jti) where
  sound _ _ found := nomatch found
  late _ _ found := nomatch found
  unique _ _ _ _ found := nomatch found
  condemned never := nomatch never

/-- What the invariant needs to know about a turn. -/
structure TurnSpec (familyId : String) (committed : Finset String) (call : Call) (turn : Turn) :
    Prop where
  jti : turn.call.jti = call.jti
  late : turn.call.late = call.late
  sound : turn.call.Sound familyId
    (if turn.commits then committed ∪ call.pending else committed)
  holds : turn.call.phase.holds = true → call.phase.holds = true ∨
    call.phase = .isJtiRevoked ∧ call.jti.val ∉ committed
  rows : turn.commits = true → ∀ key ∈ call.pending,
    key = familySentinel familyId ∨ key = call.jti.val ∧ call.phase.holds = true
  detects : turn.detects = true → call.phase = .isJtiRevoked ∧ call.jti.val ∈ committed
  left : turn.call.phase = .loggedOut → familySentinel familyId ∈
    if turn.commits then committed ∪ call.pending else committed

theorem TurnSpec.within {committed : Finset String} {phase : Phase} {pending : Finset String}
    (sound : { call with phase := phase, pending := pending }.Sound familyId committed)
    (holds : phase.holds = true → call.phase.holds = true ∨
      call.phase = .isJtiRevoked ∧ call.jti.val ∉ committed)
    (open_ : phase ≠ .loggedOut) :
    TurnSpec familyId committed call
      { call := { call with phase := phase, pending := pending } } where
  jti := rfl
  late := rfl
  sound := sound
  holds := holds
  rows never := nomatch never
  detects never := nomatch never
  left done := absurd done open_

theorem mem_insertIgnore {pending inserted : Finset String} {key : String}
    (done : state.insertIgnore id pending key = some inserted) :
    key ∈ state.committed ∧ inserted = ∅ ∨
      key ∉ state.committed ∧ inserted = insert key pending := by
  simp only [State.insertIgnore] at done
  split at done
  · rename_i duplicate
    cases done
    exact .inl ⟨duplicate, rfl⟩
  · rename_i fresh
    split at done
    · cases done
    · cases done
      exact .inr ⟨fresh, rfl⟩

theorem turn_spec {active : Bool} {turn : Turn} (sound : call.Sound familyId state.committed)
    (late : call.late = true → familySentinel familyId ∈ state.committed)
    (taken : state.turn familyId id active call = some turn) :
    TurnSpec familyId state.committed call turn := by
  simp only [State.turn] at taken
  simp only [Call.Sound] at sound
  cases phase : call.phase with
  | isFamilyRevoked =>
      simp only [phase] at taken sound
      split at taken
      · cases taken
        exact .within trivial (fun never => nomatch never) (fun never => nomatch never)
      · rename_i alive
        cases taken
        have early : call.late = false := by
          apply Bool.eq_false_iff.mpr
          exact fun started => alive (Finset.mem_union_left _ (late started))
        exact .within ⟨sound, early⟩ (fun never => nomatch never) (fun never => nomatch never)
  | isJtiRevoked =>
      simp only [phase] at taken sound
      rw [sound.1, Finset.union_empty] at taken
      split at taken
      · rename_i recorded
        cases taken
        exact {
          jti := rfl
          late := rfl
          sound := trivial
          holds := fun never => nomatch never
          rows := fun never => nomatch never
          detects := fun _ => ⟨phase, recorded⟩
          left := fun never => nomatch never }
      · rename_i fresh
        cases taken
        exact .within ⟨rfl, sound.2, fresh⟩ (fun _ => .inr ⟨phase, fresh⟩)
          (fun never => nomatch never)
  | revokeJti =>
      simp only [phase] at taken sound
      obtain ⟨inserted, done, rfl⟩ := Option.map_eq_some_iff.mp taken
      rcases mem_insertIgnore done with ⟨duplicate, -⟩ | ⟨-, rfl⟩
      · exact absurd duplicate sound.2.2
      · rw [sound.1]
        exact .within ⟨rfl, sound.2⟩ (fun _ => .inl (by rw [phase]; rfl))
          (fun never => nomatch never)
  | getUser =>
      simp only [phase] at taken sound
      split at taken
      · cases taken
        exact .within sound (fun _ => .inl (by rw [phase]; rfl)) (fun never => nomatch never)
      · cases taken
        exact .within trivial (fun never => nomatch never) (fun never => nomatch never)
  | commit =>
      simp only [phase] at taken sound
      cases taken
      exact {
        jti := rfl
        late := rfl
        sound := ⟨sound.2.1, by simp [sound.1]⟩
        holds := fun _ => .inl (by rw [phase]; rfl)
        rows := by
          intro _ key member
          rw [sound.1, Finset.mem_singleton] at member
          exact .inr ⟨member, by rw [phase]; rfl⟩
        detects := fun never => nomatch never
        left := fun never => nomatch never }
  | revokeFamily error =>
      simp only [phase] at taken
      obtain ⟨inserted, -, rfl⟩ := Option.map_eq_some_iff.mp taken
      exact .within trivial (fun never => nomatch never) (fun never => nomatch never)
  | raising error =>
      simp only [phase] at taken
      cases taken
      exact .within trivial (fun never => nomatch never) (fun never => nomatch never)
  | logout =>
      simp only [phase] at taken sound
      obtain ⟨inserted, done, rfl⟩ := Option.map_eq_some_iff.mp taken
      refine .within ?_ (fun never => nomatch never) (fun never => nomatch never)
      rcases mem_insertIgnore done with ⟨duplicate, rfl⟩ | ⟨-, rfl⟩
      · exact ⟨Finset.empty_subset _, Finset.mem_union_left _ duplicate⟩
      · rw [sound]
        exact ⟨subset_rfl, Finset.mem_union_right _ (Finset.mem_insert_self _ _)⟩
  | logoutCommit =>
      simp only [phase] at taken sound
      cases taken
      exact {
        jti := rfl
        late := rfl
        sound := sound.2
        holds := fun never => nomatch never
        rows := fun _ key member => .inl (Finset.mem_singleton.mp (sound.1 member))
        detects := fun never => nomatch never
        left := fun _ => sound.2 }
  | _ => simp [phase] at taken

theorem Call.Sound.grow {committed : Finset String} {rows : Finset String}
    (sound : call.Sound familyId committed)
    (apart : call.phase.passed = true → call.jti.val ∉ rows) :
    call.Sound familyId (committed ∪ rows) := by
  unfold Call.Sound at sound ⊢
  cases phase : call.phase with
  | revokeJti | getUser | commit =>
      simp only [phase] at sound ⊢
      have absent := apart (by rw [phase]; rfl)
      exact ⟨sound.1, sound.2.1, Finset.notMem_union.mpr ⟨sound.2.2, absent⟩⟩
  | succeeded =>
      simp only [phase] at sound ⊢
      exact ⟨sound.1, Finset.mem_union_left _ sound.2⟩
  | logoutCommit =>
      simp only [phase] at sound ⊢
      refine ⟨sound.1, ?_⟩
      rw [Finset.union_right_comm]
      exact Finset.mem_union_left _ sound.2
  | loggedOut =>
      simp only [phase] at sound ⊢
      exact Finset.mem_union_left _ sound
  | isFamilyRevoked | isJtiRevoked | logout => simpa only [phase] using sound
  | revokeFamily _ | raising _ | rejected _ => trivial

theorem Guarded.apart {turn : Turn} {other : Call} {j : Nat} (guarded : Guarded familyId state)
    (found : state.calls[id]? = some call) (spec : TurnSpec familyId state.committed call turn)
    (commits : turn.commits = true) (elsewhere : id ≠ j) (lookup : state.calls[j]? = some other)
    (passed : other.phase.passed = true) : other.jti.val ∉ call.pending := by
  intro member
  rcases spec.rows commits _ member with sentinel | ⟨same, holds⟩
  · exact familySentinel_ne familyId other.jti sentinel
  · apply elsewhere
    have held : other.phase.holds = true := by rw [Phase.holds, passed]; rfl
    exact guarded.unique id j call other found lookup holds held (Subtype.ext same.symm)

theorem Guarded.alone {other : Call} {j : Nat} (guarded : Guarded familyId state)
    (fresh : call.jti.val ∉ state.committed)
    (allowed : ∀ other ∈ state.calls, other.jti = call.jti → other.phase.passed = false)
    (lookup : state.calls[j]? = some other) (same : other.jti = call.jti) :
    other.phase.holds = false := by
  have checked := allowed other (List.mem_of_getElem? lookup) same
  rw [Phase.holds, checked, Bool.false_or, decide_eq_false_iff_not]
  intro done
  have sound := guarded.sound j other lookup
  rw [Call.Sound, done, same] at sound
  exact fresh sound.2

theorem Guarded.take {turn : Turn} {minted : Jti} {active : Bool}
    (guarded : Guarded familyId state) (found : state.calls[id]? = some call)
    (allowed : call.phase = .isJtiRevoked →
      if call.jti.val ∈ state.committed then familySentinel familyId ∈ state.committed
      else ∀ other ∈ state.calls, other.jti = call.jti → other.phase.passed = false)
    (taken : state.turn familyId id active call = some turn) :
    Guarded familyId (state.take id call minted turn) := by
  have spec := turn_spec (guarded.sound id call found) (guarded.late id call found) taken
  have grown : state.committed ⊆ (state.take id call minted turn).committed := by
    simp only [State.take]
    split
    · exact Finset.subset_union_left
    · exact subset_rfl
  have alone : turn.call.phase.holds = true → ∀ (j : Nat) (other : Call), id ≠ j →
      state.calls[j]? = some other → other.jti = call.jti → other.phase.holds = false := by
    intro holds j other elsewhere lookup same
    rcases spec.holds holds with held | ⟨checking, fresh⟩
    · by_contra taken
      have held' := Bool.eq_true_of_not_eq_false taken
      exact elsewhere (guarded.unique id j call other found lookup held held' same.symm)
    · have nobody := allowed checking
      rw [if_neg fresh] at nobody
      exact guarded.alone fresh nobody lookup same
  constructor
  case sound =>
    intro j other lookup
    rcases getElem?_set_cases lookup with ⟨rfl, rfl⟩ | ⟨elsewhere, before⟩
    · exact spec.sound
    · have sound := guarded.sound j other before
      simp only [State.take]
      split
      · rename_i commits
        exact sound.grow (guarded.apart found spec commits elsewhere before)
      · exact sound
  case late =>
    intro j other lookup started
    apply grown
    rcases getElem?_set_cases lookup with ⟨rfl, rfl⟩ | ⟨-, before⟩
    · exact guarded.late _ call found (spec.late.symm.trans started)
    · exact guarded.late j other before started
  case unique =>
    intro i j first second lookupFirst lookupSecond holdsFirst holdsSecond same
    rcases getElem?_set_cases lookupFirst with ⟨hereFirst, rfl⟩ | ⟨awayFirst, beforeFirst⟩
    · rcases getElem?_set_cases lookupSecond with ⟨hereSecond, -⟩ | ⟨awaySecond, beforeSecond⟩
      · exact hereFirst.symm.trans hereSecond
      · have none := alone holdsFirst j second awaySecond beforeSecond (same.symm.trans spec.jti)
        exact absurd (holdsSecond.symm.trans none) Bool.noConfusion
    · rcases getElem?_set_cases lookupSecond with ⟨-, rfl⟩ | ⟨-, beforeSecond⟩
      · have none := alone holdsSecond i first awayFirst beforeFirst (same.trans spec.jti)
        exact absurd (holdsFirst.symm.trans none) Bool.noConfusion
      · exact guarded.unique i j first second beforeFirst beforeSecond holdsFirst holdsSecond same
  case condemned =>
    intro dead
    simp only [State.take, Bool.or_eq_true, decide_eq_true_eq] at dead
    rcases dead with (before | detects) | left
    · exact grown (guarded.condemned before)
    · obtain ⟨checking, recorded⟩ := spec.detects detects
      have revoked := allowed checking
      rw [if_pos recorded] at revoked
      exact grown revoked
    · exact spec.left left

theorem Guarded.start {fresh : Call} (guarded : Guarded familyId state)
    (begun : fresh.phase = .isFamilyRevoked ∨ fresh.phase = .logout) (empty : fresh.pending = ∅)
    (late : fresh.late = state.condemned) :
    Guarded familyId { state with calls := state.calls ++ [fresh] } := by
  have free : fresh.phase.holds = false := by
    rcases begun with phase | phase
    · rw [phase]; rfl
    · rw [phase]; rfl
  constructor
  case sound =>
    intro j other lookup
    rcases getElem?_concat_cases lookup with before | rfl
    · exact guarded.sound j other before
    · simp only [Call.Sound]
      rcases begun with phase | phase
      · rw [phase]; exact empty
      · rw [phase]; exact empty
  case late =>
    intro j other lookup started
    rcases getElem?_concat_cases lookup with before | rfl
    · exact guarded.late j other before started
    · exact guarded.condemned (late.symm.trans started)
  case unique =>
    intro i j first second lookupFirst lookupSecond holdsFirst holdsSecond same
    rcases getElem?_concat_cases lookupFirst with beforeFirst | rfl
    · rcases getElem?_concat_cases lookupSecond with beforeSecond | rfl
      · exact guarded.unique i j first second beforeFirst beforeSecond holdsFirst holdsSecond same
      · exact absurd (holdsSecond.symm.trans free) Bool.noConfusion
    · exact absurd (holdsFirst.symm.trans free) Bool.noConfusion
  case condemned => exact guarded.condemned

theorem Guarded.abort {aborted : Call} {error : String} (guarded : Guarded familyId state)
    (found : state.calls[id]? = some call) (phase : aborted.phase = .rejected error)
    (late : aborted.late = call.late) :
    Guarded familyId { state with calls := state.calls.set id aborted } := by
  have free : aborted.phase.holds = false := by rw [phase]; rfl
  constructor
  case sound =>
    intro j other lookup
    rcases getElem?_set_cases lookup with ⟨-, rfl⟩ | ⟨-, before⟩
    · simp only [Call.Sound]
      rw [phase]
      trivial
    · exact guarded.sound j other before
  case late =>
    intro j other lookup started
    rcases getElem?_set_cases lookup with ⟨-, rfl⟩ | ⟨-, before⟩
    · exact guarded.late id call found (late.symm.trans started)
    · exact guarded.late j other before started
  case unique =>
    intro i j first second lookupFirst lookupSecond holdsFirst holdsSecond same
    rcases getElem?_set_cases lookupFirst with ⟨-, rfl⟩ | ⟨-, beforeFirst⟩
    · exact absurd (holdsFirst.symm.trans free) Bool.noConfusion
    · rcases getElem?_set_cases lookupSecond with ⟨-, rfl⟩ | ⟨-, beforeSecond⟩
      · exact absurd (holdsSecond.symm.trans free) Bool.noConfusion
      · exact guarded.unique i j first second beforeFirst beforeSecond holdsFirst holdsSecond same
  case condemned => exact guarded.condemned

theorem step_guarded {event : Event} (guarded : Guarded familyId state)
    (allowed : Allowed familyId state event) (stepped : step familyId state event = some next) :
    Guarded familyId next := by
  cases event with
  | refresh jti =>
      simp only [step] at stepped
      split at stepped
      · cases stepped
        have started : Guarded familyId { state with
            calls := state.calls ++ [⟨jti, .isFamilyRevoked, ∅, state.condemned⟩] } :=
          guarded.start (.inl rfl) rfl rfl
        refine { started with condemned := ?_ }
        intro dead
        rcases Bool.or_eq_true_iff.mp dead with before | again
        · exact guarded.condemned before
        · exact allowed again
      · cases stepped
  | logout jti =>
      simp only [step] at stepped
      split at stepped
      · cases stepped
        exact guarded.start (.inr rfl) rfl rfl
      · cases stepped
  | advance id active minted =>
      obtain ⟨call, found, continued⟩ := Option.bind_eq_some_iff.mp stepped
      split at continued
      · cases continued
      · obtain ⟨turn, taken, rfl⟩ := Option.map_eq_some_iff.mp continued
        exact guarded.take found (allowed call found) taken
  | fail id =>
      obtain ⟨call, found, continued⟩ := Option.bind_eq_some_iff.mp stepped
      split at continued
      · cases continued
      · cases continued
        exact guarded.abort found rfl rfl

/-- Runs from a login whose events are all allowed keep the family safe. -/
theorem refresh_safe (familyId : String) (jti : Jti) (events : List Event) (last : State)
    (meets : Meets (step familyId) (Allowed familyId) (State.login jti) events)
    (ran : run (step familyId) (State.login jti) events = some last) : last.Safe := by
  have guarded : Guarded familyId last :=
    run_invariant (Guarded familyId) (fun _ _ _ => step_guarded) (login_guarded jti) meets ran
  exact guarded.safe

def firstJti : Jti := ⟨"first", by decide⟩

def secondJti : Jti := ⟨"second", by decide⟩

def thirdJti : Jti := ⟨"third", by decide⟩

/-- So many statements of a call for an active user. -/
def advances (id turns : Nat) (minted : Jti) : List Event :=
  List.replicate turns (.advance id true minted)

/-- A refresh, a logout, and a refresh with the newest token. -/
def loggedOutThenRefreshed : List Event :=
  .refresh firstJti :: advances 0 5 secondJti ++ .logout secondJti :: advances 1 2 thirdJti ++
    .refresh secondJti :: advances 2 2 thirdJti

/-- Two refreshes with one token pass their checks before either commits. -/
def racing : List Event :=
  [.refresh firstJti, .refresh firstJti] ++ advances 0 2 secondJti ++ advances 1 2 secondJti ++
    advances 0 3 secondJti ++ advances 1 3 thirdJti

/-- The exchanged token comes again, then the newest one. -/
def replayed : List Event :=
  .refresh firstJti :: advances 0 5 secondJti ++ .refresh firstJti :: advances 1 4 thirdJti ++
    .refresh secondJti :: advances 2 5 thirdJti

theorem refresh_safe_loggedOut :
    ∃ last, run (step "family") (State.login firstJti) loggedOutThenRefreshed = some last ∧
      last.condemned = true ∧ last.Safe := by
  obtain ⟨last, ran, dead⟩ := Option.map_eq_some_iff.mp
    (show (run (step "family") (State.login firstJti) loggedOutThenRefreshed).map
      State.condemned = some true by decide)
  have safe : last.Safe := refresh_safe "family" firstJti loggedOutThenRefreshed last (by decide) ran
  exact ⟨last, ran, dead, safe⟩

theorem found_of_map_eq {α : Type} {calls : List Call} {view : Call → α} {views : List α} {seen : α}
    (outcome : calls.map view = views) (lookup : views[id]? = some seen) :
    ∃ call, calls[id]? = some call ∧ view call = seen := by
  rw [← outcome, List.getElem?_map] at lookup
  exact Option.map_eq_some_iff.mp lookup

/-- Both racing refreshes succeed: the duplicate insert of the second one is
swallowed.  The replayed token is found, and its error rolls the sentinel back. -/
theorem racing_replayed_not_safe :
    ¬ ∃ events ∈ [racing, replayed], ∀ last,
      run (step "family") (State.login firstJti) events = some last → last.Safe := by
  intro ⟨events, member, always⟩
  rcases List.mem_pair.mp member with rfl | rfl
  · obtain ⟨last, ran, outcome⟩ := Option.map_eq_some_iff.mp
      (show (run (step "family") (State.login firstJti) racing).map
          (fun last => last.calls.map fun call => (call.phase, call.jti)) =
        some [(.succeeded, firstJti), (.succeeded, firstJti)] by decide)
    obtain ⟨first, foundFirst, viewFirst⟩ := found_of_map_eq outcome (show _[0]? = _ from rfl)
    obtain ⟨second, foundSecond, viewSecond⟩ := found_of_map_eq outcome (show _[1]? = _ from rfl)
    obtain ⟨doneFirst, jtiFirst⟩ := Prod.mk.inj viewFirst
    obtain ⟨doneSecond, jtiSecond⟩ := Prod.mk.inj viewSecond
    have same := (always last ran).once 0 1 first second foundFirst foundSecond doneFirst
      doneSecond (jtiFirst.trans jtiSecond.symm)
    cases same
  · obtain ⟨last, ran, outcome⟩ := Option.map_eq_some_iff.mp
      (show (run (step "family") (State.login firstJti) replayed).map
          (fun last => last.calls.map fun call => (call.phase, call.late)) =
        some [(.succeeded, false), (.rejected "reuse_detected", false), (.succeeded, true)]
          by decide)
    obtain ⟨third, found, view⟩ := found_of_map_eq outcome (show _[2]? = _ from rfl)
    obtain ⟨done, late⟩ := Prod.mk.inj view
    exact (always last ran).dead 2 third found late done

end Univiz.Auth
