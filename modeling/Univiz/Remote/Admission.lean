import Univiz.Remote.Provider

namespace Univiz.Remote

open Univiz.Data

/-! When the circuit breaker admits requests. -/

/-- What is true of a breaker at every time. -/
structure CircuitBreaker.Consistent (breaker : CircuitBreaker) (now : Int) : Prop where
  tripped : breaker.state ≠ .closed → breaker.failureThreshold ≤ breaker.consecutiveFailures
  pending : breaker.state = .halfOpen → breaker.halfOpenPending = true
  default : breaker.state = .halfOpen → breaker.dynamicResetMs = none
  waited : breaker.state = .halfOpen → breaker.resetTimeoutMs ≤ now - breaker.lastFailureTime
  longer : ∀ delay ∈ breaker.dynamicResetMs, breaker.resetTimeoutMs < delay

namespace CircuitBreaker

variable {breaker : CircuitBreaker} {now : Int} {ending : Ending}

def probing (breaker : CircuitBreaker) : CircuitBreaker :=
  { breaker with state := .halfOpen, halfOpenPending := true, dynamicResetMs := none }

theorem Consistent.canRequest (consistent : breaker.Consistent now) :
    breaker.state = .closed ∧ breaker.canRequest now = (true, breaker) ∨
      breaker.state ≠ .closed ∧ breaker.canRequest now = (false, breaker) ∧
        (breaker.state = .open → now - breaker.lastFailureTime < breaker.effectiveReset) ∨
      breaker.state = .open ∧ breaker.effectiveReset ≤ now - breaker.lastFailureTime ∧
        breaker.canRequest now = (true, breaker.probing) := by
  cases state : breaker.state with
  | closed => simp [CircuitBreaker.canRequest, state]
  | halfOpen =>
      have pending := consistent.pending state
      simp [CircuitBreaker.canRequest, allowOne, state, pending]
  | «open» =>
      by_cases elapsed : breaker.effectiveReset ≤ now - breaker.lastFailureTime
      · simp [CircuitBreaker.canRequest, allowOne, probing, state, elapsed]
      · simp [CircuitBreaker.canRequest, state, elapsed, Int.not_le.mp elapsed]

theorem Consistent.effectiveReset_ge (consistent : breaker.Consistent now) :
    breaker.resetTimeoutMs ≤ breaker.effectiveReset := by
  simp only [effectiveReset]
  cases delay : breaker.dynamicResetMs with
  | none => exact Int.le_refl _
  | some delay' => exact Int.le_of_lt (consistent.longer delay' delay)

theorem Consistent.probing (consistent : breaker.Consistent now) (opened : breaker.state = .open)
    (elapsed : breaker.effectiveReset ≤ now - breaker.lastFailureTime) :
    breaker.probing.Consistent now where
  tripped _ := consistent.tripped (by simp [opened])
  pending _ := rfl
  default _ := rfl
  waited _ := Int.le_trans consistent.effectiveReset_ge elapsed
  longer _ none := by cases none

theorem Consistent.admitting (consistent : breaker.Consistent now) :
    (breaker.canRequest now).2.Consistent now := by
  rcases consistent.canRequest with ⟨-, asked⟩ | ⟨-, asked, -⟩ | ⟨opened, elapsed, asked⟩
  · rwa [asked]
  · rwa [asked]
  · rw [asked]
    exact consistent.probing opened elapsed

theorem Consistent.closed (consistent : breaker.Consistent now) :
    breaker.recordSuccess.Consistent now where
  tripped open' := absurd rfl open'
  pending half := nomatch half
  default half := nomatch half
  waited half := nomatch half
  longer := consistent.longer

theorem Consistent.failed (consistent : breaker.Consistent now) (retryAfterMs : Option Int) :
    (breaker.recordFailure now retryAfterMs).Consistent now := by
  unfold CircuitBreaker.recordFailure
  simp only
  split
  · rename_i reached
    refine ⟨fun _ => reached, nofun, nofun, nofun, ?_⟩
    intro delay chosen
    simp only at chosen
    split at chosen
    · rename_i honored
      cases chosen
      have longer := (Option.filter_eq_some_iff.mp honored).2
      simp only [honors, Bool.and_eq_true, decide_eq_true_eq] at longer
      exact longer.2
    · exact consistent.longer delay chosen
  · rename_i below
    have closed : breaker.state = .closed := by
      by_contra tripped
      exact below (Nat.le_succ_of_le (consistent.tripped tripped))
    refine ⟨?_, ?_, ?_, ?_, consistent.longer⟩ <;> intro state <;> simp [closed] at state

/-- What the end of a request does to the breaker. -/
inductive Recorded (breaker : CircuitBreaker) (now : Int) (ending : Ending) :
    CircuitBreaker → Prop where
  | success (succeeds : ending.succeeds = true) (records : ending.records = true) :
      Recorded breaker now ending breaker.recordSuccess
  | failure (fails : ending.succeeds = false) (records : ending.records = true)
      (retryAfterMs : Option Int) :
      Recorded breaker now ending (breaker.recordFailure now retryAfterMs)
  | nothing (fails : ending.succeeds = false) (records : ending.records = false) :
      Recorded breaker now ending breaker

theorem recorded_spec (breaker : CircuitBreaker) (now : Int) (ending : Ending) :
    Recorded breaker now ending (breaker.recorded now ending) := by
  cases ending with
  | answered response data =>
      simp only [recorded]
      split
      · rename_i succeeds
        exact .success succeeds (by simp [Ending.records, succeeds])
      · rename_i fails
        have failed : (Ending.answered response data).succeeds = false :=
          Bool.eq_false_iff.mpr fails
        split
        · rename_i server
          exact .failure failed (by simp [Ending.records, server]) _
        · rename_i client
          exact .nothing failed (by simp [Ending.records, fails, client])
  | threw fault =>
      cases fault with
      | typeError => exact .failure rfl rfl none
      | other => exact .nothing rfl rfl

theorem Consistent.recorded (consistent : breaker.Consistent now) (ending : Ending) :
    (breaker.recorded now ending).Consistent now := by
  have spec := recorded_spec breaker now ending
  generalize breaker.recorded now ending = after at spec
  cases spec with
  | success succeeds records => exact consistent.closed
  | failure fails records retryAfterMs => exact consistent.failed retryAfterMs
  | nothing fails records => exact consistent

theorem Consistent.later {later : Int} (consistent : breaker.Consistent now) (order : now ≤ later) :
    breaker.Consistent later where
  tripped := consistent.tripped
  pending := consistent.pending
  default := consistent.default
  waited half := by
    have waited := consistent.waited half
    omega
  longer := consistent.longer

theorem canRequest_of_not_halfOpen (apart : breaker.state ≠ .halfOpen)
    (elapsed : breaker.effectiveReset ≤ now - breaker.lastFailureTime) :
    (breaker.canRequest now).1 = true := by
  cases state : breaker.state with
  | closed => simp [CircuitBreaker.canRequest, state]
  | halfOpen => exact absurd state apart
  | «open» => simp [CircuitBreaker.canRequest, allowOne, state, elapsed]

theorem Consistent.canRequest_halfOpen (consistent : breaker.Consistent now)
    (half : breaker.state = .halfOpen) : (breaker.canRequest now).1 = false := by
  simp [CircuitBreaker.canRequest, allowOne, half, consistent.pending half]

theorem Consistent.elapsed_halfOpen (consistent : breaker.Consistent now)
    (half : breaker.state = .halfOpen) :
    breaker.effectiveReset ≤ now - breaker.lastFailureTime := by
  rw [effectiveReset, consistent.default half]
  exact consistent.waited half

theorem recordFailure_state (breaker : CircuitBreaker) (now : Int) (retryAfterMs : Option Int) :
    (breaker.recordFailure now retryAfterMs).state = .open ∨
      (breaker.recordFailure now retryAfterMs).state = breaker.state ∧
        breaker.consecutiveFailures + 1 < breaker.failureThreshold := by
  unfold recordFailure
  simp only
  split
  · exact .inl rfl
  · rename_i below
    exact .inr ⟨rfl, Nat.not_le.mp below⟩

theorem Consistent.recordFailure_open (consistent : breaker.Consistent now)
    (tripped : breaker.state ≠ .closed) (retryAfterMs : Option Int) :
    (breaker.recordFailure now retryAfterMs).state = .open := by
  have reached := consistent.tripped tripped
  rcases recordFailure_state breaker now retryAfterMs with opened | ⟨-, below⟩
  · exact opened
  · omega

theorem Consistent.recordFailure_not_halfOpen (consistent : breaker.Consistent now)
    (retryAfterMs : Option Int) :
    (breaker.recordFailure now retryAfterMs).state ≠ .halfOpen := by
  by_cases closed : breaker.state = .closed
  · rcases recordFailure_state breaker now retryAfterMs with opened | ⟨same, -⟩
    · simp [opened]
    · simp [same, closed]
  · simp [consistent.recordFailure_open closed]

end CircuitBreaker

/-- The circuit was reset, or closed by the success of a request admitted in half-open. -/
def Closing.legitimate : Closing → Bool
  | ⟨.reset, _⟩ => true
  | ⟨.settle _ ending, some request⟩ => ending.succeeds && request.admitted = some .halfOpen
  | _ => false

namespace Client

variable {client next : Client} {event : Event} {id provider : Nat} {ending : Ending}
  {request : Request} {method url body : String}

def unfinished (client : Client) : List Request :=
  client.requests.filter fun request => request.admitted.isSome && !request.settled

structure Sound (client : Client) : Prop where
  probe : client.breaker.state = .halfOpen → client.unfinished.length ≤ 1
  available : client.unfinished = [] →
    client.breaker.effectiveReset ≤ client.now - client.breaker.lastFailureTime →
      (client.breaker.canRequest client.now).1 = true
  closings : ∀ closing ∈ client.closings, closing.legitimate = true

/-- A request that is admitted while the circuit is not closed finds no other unfinished,
a success recorded while the circuit is not closed is that of a request admitted in
half-open, and in half-open no request ends without a record. -/
def Disciplined (client : Client) : Event → Prop
  | .fetch provider method url body =>
      client.sends provider method url body → client.breaker.state ≠ .closed →
        (client.breaker.canRequest client.now).1 = true → client.unfinished = []
  | .settle id ending =>
      ∀ request ∈ client.requests[id]?, request.settled = false →
        (client.breaker.state ≠ .closed → ending.succeeds = true →
          request.admitted = some .halfOpen) ∧
        (client.breaker.state = .halfOpen → ending.records = true)
  | .reset => True
  | .elapse _ => True

structure Tracked (client : Client) : Prop where
  breaker : client.breaker.Consistent client.now
  live : ∀ request ∈ client.requests, request.settled = false → request.admitted.isSome = true

theorem Tracked.live_concat (tracked : client.Tracked)
    (admitted : request.settled = false → request.admitted.isSome = true) :
    ∀ other ∈ client.requests ++ [request], other.settled = false →
      other.admitted.isSome = true := by
  intro other member
  rcases List.mem_append.mp member with old | fresh
  · exact tracked.live other old
  · rw [List.mem_singleton.mp fresh]
    exact admitted

theorem Tracked.doFetch (tracked : client.Tracked) (provider : Nat) (method url key : String) :
    (client.doFetch provider method url key).Tracked := by
  have admitting := tracked.breaker.admitting
  cases asked : client.breaker.canRequest client.now with
  | mk admitted breaker =>
      rw [asked] at admitting
      cases admitted with
      | false =>
          rw [doFetch_of_refused asked]
          exact ⟨admitting, tracked.live_concat nofun⟩
      | true =>
          rw [doFetch_of_admitted asked]
          exact ⟨admitting, tracked.live_concat fun _ => rfl⟩

theorem Tracked.advance (tracked : client.Tracked) (advanced : client.advance event = some next) :
    next.Tracked := by
  cases event with
  | fetch provider method url body =>
      cases advanced
      by_cases sends : client.sends provider method url body
      · rw [fetch_of_sends sends]
        have sent := tracked.doFetch provider method url (cacheKey method url body)
        exact ⟨sent.breaker, sent.live⟩
      · obtain ⟨source, reused, -⟩ := fetch_of_not_sends sends
        rw [reused]
        exact ⟨tracked.breaker, tracked.live⟩
  | settle id ending =>
      obtain ⟨request, found, -, rfl⟩ := settle_cases advanced
      refine ⟨?_, ?_⟩
      · rw [settle_now]
        exact tracked.breaker.recorded ending
      · intro other member
        rcases List.mem_or_eq_of_mem_set member with old | rfl
        · exact tracked.live other old
        · exact nofun
  | reset =>
      cases advanced
      exact ⟨tracked.breaker.closed, tracked.live⟩
  | elapse duration =>
      cases advanced
      exact ⟨tracked.breaker.later (Int.le_add_of_nonneg_right (Int.natCast_nonneg duration)),
        tracked.live⟩

theorem Tracked.step (tracked : client.Tracked) (stepped : client.step event = some next) :
    next.Tracked := by
  obtain ⟨middle, advanced, rfl⟩ := step_cases stepped
  have kept := tracked.advance advanced
  exact ⟨kept.breaker, kept.live⟩

/-- The part of soundness that looks at the present only. -/
def Admitting (client : Client) : Prop :=
  (client.breaker.state = .halfOpen → client.unfinished.length ≤ 1) ∧
    (client.unfinished = [] →
      client.breaker.effectiveReset ≤ client.now - client.breaker.lastFailureTime →
        (client.breaker.canRequest client.now).1 = true)

theorem admitting_of_not_halfOpen (apart : client.breaker.state ≠ .halfOpen) :
    client.Admitting :=
  ⟨fun half => absurd half apart, fun _ => CircuitBreaker.canRequest_of_not_halfOpen apart⟩

theorem Tracked.admitting_halfOpen (tracked : client.Tracked)
    (half : client.breaker.state = .halfOpen) :
    client.Admitting ↔ client.unfinished.length = 1 := by
  have shut := tracked.breaker.canRequest_halfOpen half
  refine ⟨?_, ?_⟩
  · intro admitting
    have single := admitting.1 half
    have some' : client.unfinished ≠ [] := by
      intro none
      have asked := admitting.2 none (tracked.breaker.elapsed_halfOpen half)
      rw [shut] at asked
      cases asked
    have positive := List.length_pos_iff.mpr some'
    omega
  · intro single
    refine ⟨fun _ => Nat.le_of_eq single, ?_⟩
    intro none
    rw [none] at single
    cases single

theorem Sound.noted (sound : client.Sound) (kept : next.closings = client.closings) :
    (next.noted client event).Sound ↔ next.Admitting ∧
      (client.breaker.state ≠ .closed → next.breaker.state = .closed →
        Closing.legitimate ⟨event, client.subject event⟩ = true) := by
  refine ⟨?_, ?_⟩
  · intro after
    refine ⟨⟨after.probe, after.available⟩, ?_⟩
    intro before closed
    apply after.closings
    simp [Client.noted, before, closed]
  · intro ⟨admitting, legitimate⟩
    refine ⟨admitting.1, admitting.2, ?_⟩
    intro closing member
    simp only [Client.noted, kept] at member
    split at member
    · rename_i closed
      rcases List.mem_append.mp member with old | fresh
      · exact sound.closings closing old
      · rw [List.mem_singleton.mp fresh]
        exact legitimate closed.1 closed.2
    · exact sound.closings closing member

theorem doFetch_closings {key : String} :
    (client.doFetch provider method url key).closings = client.closings := by
  simp only [doFetch]
  split <;> rfl

theorem Tracked.admitting_doFetch (tracked : client.Tracked) (sound : client.Sound)
    (provider : Nat) (method url key : String) :
    (client.doFetch provider method url key).Admitting ↔
      (client.breaker.state ≠ .closed → (client.breaker.canRequest client.now).1 = true →
        client.unfinished = []) := by
  have after := tracked.doFetch provider method url key
  rcases tracked.breaker.canRequest with ⟨closed, asked⟩ | ⟨tripped, asked, waiting⟩ |
    ⟨opened, elapsed, asked⟩
  · have still : (client.doFetch provider method url key).breaker.state = .closed := by
      rw [doFetch_of_admitted asked]
      exact closed
    have admitting : (client.doFetch provider method url key).Admitting :=
      admitting_of_not_halfOpen (by simp [still])
    exact ⟨fun _ tripped => absurd closed tripped, fun _ => admitting⟩
  · have same : (client.doFetch provider method url key).unfinished = client.unfinished := by
      rw [doFetch_of_refused asked]
      simp [unfinished]
    have admitting : (client.doFetch provider method url key).Admitting := by
      rw [doFetch_of_refused asked] at same ⊢
      simp only [Admitting]
      rw [same]
      exact ⟨sound.probe, sound.available⟩
    rw [asked]
    exact ⟨fun _ _ => nofun, fun _ => admitting⟩
  · have added : (client.doFetch provider method url key).unfinished.length =
        client.unfinished.length + 1 := by
      rw [doFetch_of_admitted asked]
      simp [unfinished]
    have half : (client.doFetch provider method url key).breaker.state = .halfOpen := by
      rw [doFetch_of_admitted asked]
      rfl
    rw [after.admitting_halfOpen half, added, asked, ← List.length_eq_zero_iff]
    simp [opened]

theorem unfinished_settle_lt (found : client.requests[id]? = some request)
    (unsettled : request.settled = false) (admitted : request.admitted.isSome = true) :
    (client.settle id request ending).unfinished.length < client.unfinished.length :=
  length_filter_set_lt found (by simp [unsettled, admitted]) (by simp)

theorem Tracked.admitting_settle (tracked : client.Tracked) (sound : client.Sound)
    (found : client.requests[id]? = some request) (unsettled : request.settled = false) :
    (client.settle id request ending).Admitting ↔
      (client.breaker.state = .halfOpen → ending.records = true) := by
  have shrinks : (client.settle id request ending).unfinished.length < client.unfinished.length :=
    unfinished_settle_lt found unsettled
      (tracked.live request (List.mem_of_getElem? found) unsettled)
  have after : (client.settle id request ending).Tracked :=
    tracked.advance (advance_settle found unsettled)
  have spec := client.breaker.recorded_spec client.now ending
  rw [← settle_breaker client id request ending] at spec
  generalize client.settle id request ending = next at shrinks after spec ⊢
  generalize recorded : next.breaker = breaker at spec
  cases spec with
  | success succeeds records =>
      have apart : next.breaker.state ≠ .halfOpen := by
        rw [recorded]
        nofun
      exact ⟨fun _ _ => records, fun _ => admitting_of_not_halfOpen apart⟩
  | failure fails records retryAfterMs =>
      have apart : next.breaker.state ≠ .halfOpen := by
        rw [recorded]
        exact tracked.breaker.recordFailure_not_halfOpen retryAfterMs
      exact ⟨fun _ _ => records, fun _ => admitting_of_not_halfOpen apart⟩
  | nothing fails records =>
      by_cases half : client.breaker.state = .halfOpen
      · have single := sound.probe half
        rw [after.admitting_halfOpen (by rw [recorded, half])]
        refine ⟨?_, ?_⟩
        · intro left
          omega
        · intro records'
          exact absurd (records.symm.trans (records' half)) Bool.false_ne_true
      · exact ⟨fun _ half' => absurd half' half,
          fun _ => admitting_of_not_halfOpen (by rw [recorded]; exact half)⟩

theorem Tracked.closed_settle (tracked : client.Tracked)
    (tripped : client.breaker.state ≠ .closed) :
    (client.settle id request ending).breaker.state = .closed ↔ ending.succeeds = true := by
  rw [settle_breaker]
  have spec := client.breaker.recorded_spec client.now ending
  generalize client.breaker.recorded client.now ending = after at spec
  cases spec with
  | success succeeds records => exact ⟨fun _ => succeeds, fun _ => rfl⟩
  | failure fails records retryAfterMs =>
      simp [fails, tracked.breaker.recordFailure_open tripped retryAfterMs]
  | nothing fails records => simp [fails, tripped]

theorem Tracked.sound_fetch (tracked : client.Tracked) (sound : client.Sound) :
    ((client.fetch provider method url body).noted client
        (.fetch provider method url body)).Sound ↔
      client.Disciplined (.fetch provider method url body) := by
  by_cases sends : client.sends provider method url body
  · have kept : (client.fetch provider method url body).closings = client.closings := by
      rw [fetch_of_sends sends]
      exact doFetch_closings
    rw [sound.noted kept, fetch_of_sends sends]
    have admits := tracked.admitting_doFetch sound provider method url (cacheKey method url body)
    refine ⟨?_, ?_⟩
    · intro ⟨admitting, _⟩ _
      exact admits.mp admitting
    · intro disciplined
      refine ⟨admits.mpr (disciplined sends), ?_⟩
      intro tripped closed
      rcases tracked.breaker.canRequest with ⟨before, -⟩ | ⟨-, asked, -⟩ | ⟨-, -, asked⟩
      · exact absurd before tripped
      · rw [doFetch_of_refused asked] at closed
        exact absurd closed tripped
      · rw [doFetch_of_admitted asked] at closed
        cases closed
  · obtain ⟨source, reused, -⟩ := fetch_of_not_sends sends
    have kept : (client.called method source).closings = client.closings := rfl
    rw [reused, sound.noted kept]
    refine ⟨?_, ?_⟩
    · intro _ sent
      exact absurd sent sends
    · intro _
      exact ⟨⟨sound.probe, sound.available⟩, fun tripped closed => absurd closed tripped⟩

theorem Tracked.sound_settle (tracked : client.Tracked) (sound : client.Sound)
    (found : client.requests[id]? = some request) (unsettled : request.settled = false) :
    ((client.settle id request ending).noted client (.settle id ending)).Sound ↔
      client.Disciplined (.settle id ending) := by
  rw [sound.noted (settle_closings client id request ending),
    tracked.admitting_settle sound found unsettled]
  have subject : client.subject (.settle id ending) = some request := found
  rw [subject]
  refine ⟨?_, ?_⟩
  · intro ⟨records, legitimate⟩ other found' _
    cases found.symm.trans found'
    refine ⟨?_, records⟩
    intro tripped succeeds
    have admitted := legitimate tripped ((tracked.closed_settle tripped).mpr succeeds)
    simpa [Closing.legitimate, succeeds] using admitted
  · intro disciplined
    obtain ⟨admitted, records⟩ := disciplined request found unsettled
    refine ⟨records, ?_⟩
    intro tripped closed
    have succeeds := (tracked.closed_settle tripped).mp closed
    simp [Closing.legitimate, succeeds, admitted tripped succeeds]

theorem Tracked.sound_elapse {later : Int} (tracked : client.Tracked) (sound : client.Sound) :
    ({ client with now := later }.noted client event).Sound := by
  have kept : { client with now := later }.closings = client.closings := rfl
  rw [sound.noted kept]
  refine ⟨⟨sound.probe, ?_⟩, fun tripped closed => absurd closed tripped⟩
  intro none elapsed
  by_cases half : client.breaker.state = .halfOpen
  · have asked := sound.available none (tracked.breaker.elapsed_halfOpen half)
    rw [tracked.breaker.canRequest_halfOpen half] at asked
    cases asked
  · exact CircuitBreaker.canRequest_of_not_halfOpen half elapsed

theorem Tracked.sound_iff (tracked : client.Tracked) (sound : client.Sound) (event : Event) :
    (∀ next, client.step event = some next → next.Sound) ↔ client.Disciplined event := by
  cases event with
  | fetch provider method url body =>
      rw [← tracked.sound_fetch sound]
      exact ⟨fun all => all _ rfl, fun kept next stepped => Option.some.inj stepped ▸ kept⟩
  | settle id ending =>
      refine ⟨?_, ?_⟩
      · intro all request found unsettled
        refine (tracked.sound_settle sound found unsettled).mp (all _ ?_) request found unsettled
        rw [Client.step, advance_settle found unsettled]
        rfl
      · intro disciplined next stepped
        obtain ⟨middle, advanced, rfl⟩ := step_cases stepped
        obtain ⟨request, found, unsettled, rfl⟩ := settle_cases advanced
        exact (tracked.sound_settle sound found unsettled).mpr disciplined
  | reset =>
      refine ⟨fun _ => trivial, ?_⟩
      intro _ next stepped
      cases stepped
      have kept : { client with breaker := client.breaker.reset }.closings = client.closings := rfl
      exact (sound.noted kept).mpr ⟨admitting_of_not_halfOpen nofun, fun _ _ => rfl⟩
  | elapse duration =>
      refine ⟨fun _ => trivial, ?_⟩
      intro _ next stepped
      cases stepped
      exact tracked.sound_elapse sound

variable (failureThreshold : Nat) (resetTimeoutMs now : Int)

theorem start_tracked : (start failureThreshold resetTimeoutMs now).Tracked where
  breaker := {
    tripped := fun tripped => absurd rfl tripped
    pending := nofun
    default := nofun
    waited := nofun
    longer := nofun }
  live _ member := nomatch member

theorem start_sound : (start failureThreshold resetTimeoutMs now).Sound where
  probe := nofun
  available _ _ := rfl
  closings _ member := nomatch member

/-- The runs in which the breaker keeps its promises throughout are those in which every
fetch and every end of a request is disciplined. -/
theorem breaker_sound_iff (events : List Event) :
    Always step Sound (start failureThreshold resetTimeoutMs now) events ↔
      Meets step Disciplined (start failureThreshold resetTimeoutMs now) events :=
  always_iff_meets Tracked (fun _ _ _ tracked stepped => tracked.step stepped)
    (fun _ event tracked sound => tracked.sound_iff sound event)
    (start_tracked failureThreshold resetTimeoutMs now)
    (start_sound failureThreshold resetTimeoutMs now)

instance decidableSound (client : Client) : Decidable client.Sound :=
  decidable_of_iff
    ((client.breaker.state = .halfOpen → client.unfinished.length ≤ 1) ∧
      (client.unfinished = [] →
        client.breaker.effectiveReset ≤ client.now - client.breaker.lastFailureTime →
          (client.breaker.canRequest client.now).1 = true) ∧
      ∀ closing ∈ client.closings, closing.legitimate = true)
    ⟨fun parts => ⟨parts.1, parts.2.1, parts.2.2⟩,
      fun sound => ⟨sound.probe, sound.available, sound.closings⟩⟩

def unavailable : Ending := .answered ⟨503, none⟩ ""

def found : Ending := .answered ⟨200, none⟩ "[]"

def notFound : Ending := .answered ⟨404, none⟩ ""

def read (url : String) : Event := .fetch 0 "GET" url ""

/-- The circuit opens with the third failure while a fourth request goes on. -/
def tripped : List Event :=
  [read "/a", read "/b", read "/c", read "/d", .settle 0 unavailable, .settle 1 unavailable,
    .settle 2 unavailable]

/-- The probe is admitted beside the request that goes on. -/
def probedBeside : List Event := tripped ++ [.elapse 15000, read "/e"]

/-- The request that goes on succeeds while the circuit is open. -/
def closedLate : List Event := tripped ++ [.settle 3 found]

/-- The probe ends with a status that is not recorded, and time goes by. -/
def rejectsForever : List Event :=
  tripped ++ [.settle 3 unavailable, .elapse 15000, read "/e", .settle 4 notFound,
    .elapse 1000000]

theorem unsound_runs : ∀ events ∈ [probedBeside, closedLate, rejectsForever],
    (run step (start 3 15000 0) events).map (fun last => decide last.Sound) = some false := by
  decide +kernel

theorem breaker_not_sound :
    ¬ ∃ events ∈ [probedBeside, closedLate, rejectsForever],
      ∀ last, run step (start 3 15000 0) events = some last → last.Sound := by
  intro ⟨events, member, always⟩
  obtain ⟨last, ran, broken⟩ := Option.map_eq_some_iff.mp (unsound_runs events member)
  exact of_decide_eq_false broken (always last ran)

end Client

end Univiz.Remote
