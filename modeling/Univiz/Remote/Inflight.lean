import Univiz.Remote.Provider

namespace Univiz.Remote

open Univiz.Data

/-! When the promises in `_inflight` are pending. -/

def Call.fresh (call : Call) : Bool :=
  match call.source with
  | .cached entry now => call.method = "GET" && now - entry.ts < entry.ttl
  | .request _ ended => !ended

namespace Client

variable {client next : Client} {event : Event} {id provider other : Nat} {ending : Ending}
  {request : Request} {method url body key : String}

/-- `_inflight` holds pending promises only, and no call has received the outcome of a
request that had ended before, but for a cached response younger than its TTL. -/
structure Fresh (client : Client) : Prop where
  inflight : ∀ provider key id,
    (client.providers provider).inflight.get key = some id → client.ended id = false
  calls : ∀ call ∈ client.calls, call.fresh = true

/-- The circuit breaker lets every request through. -/
def Unbroken (client : Client) : Event → Prop
  | .fetch provider method url body =>
      client.sends provider method url body → (client.breaker.canRequest client.now).1 = true
  | .settle _ _ | .reset | .elapse _ => True

/-- A promise in flight is that of a request for its key. -/
def Named (client : Client) : Prop :=
  ∀ provider key id, (client.providers provider).inflight.get key = some id →
    ∃ request, client.requests[id]? = some request ∧ request.provider = provider ∧
      request.cacheKey = key

theorem inflight_setInflight : ((client.setInflight provider key id).providers other).inflight =
    if provider = other then (client.providers other).inflight.set key id
    else (client.providers other).inflight := by
  by_cases same : provider = other
  · subst same
    simp [setInflight, update]
  · rw [if_neg same]
    simp [setInflight, update, Ne.symm same]

theorem inflight_deleteInflight :
    ((client.deleteInflight provider key).providers other).inflight =
      if provider = other then (client.providers other).inflight.erase key
      else (client.providers other).inflight := by
  by_cases same : provider = other
  · subst same
    simp [deleteInflight, update]
  · rw [if_neg same]
    simp [deleteInflight, update, Ne.symm same]

theorem inflight_stored (client : Client) (request : Request) (ending : Ending) :
    ((client.stored request ending).providers other).inflight =
      (client.providers other).inflight := by
  cases ending with
  | threw fault => rfl
  | answered response data =>
      unfold stored
      simp only
      split
      · by_cases same : other = request.provider
        · subst same
          simp [setResponse, update]
        · simp [setResponse, update, same]
      · rfl

theorem get_settle {found : Nat}
    (lookup : ((client.settle id request ending).providers provider).inflight.get key =
      some found) :
    (client.providers provider).inflight.get key = some found ∧
      ¬ (request.provider = provider ∧ request.cacheKey = key) := by
  have left : ((client.settle id request ending).providers provider).inflight =
      if request.provider = provider then
        (client.providers provider).inflight.erase request.cacheKey
      else (client.providers provider).inflight := by
    rw [← client.inflight_stored request ending, ← inflight_deleteInflight]
    rfl
  rw [left] at lookup
  split at lookup
  · rename_i same
    rw [OrderedMap.get_erase] at lookup
    split at lookup
    · cases lookup
    · rename_i apart
      exact ⟨lookup, fun both => apart both.2⟩
  · rename_i apart
    exact ⟨lookup, fun both => apart both.1⟩

theorem Named.known (named : client.Named)
    (lookup : (client.providers provider).inflight.get key = some id) :
    id < client.requests.length := by
  obtain ⟨request, found, -⟩ := named provider key id lookup
  exact (List.getElem?_eq_some_iff.mp found).1

theorem get_sent {found : Nat}
    (lookup : ((client.setInflight provider key id).providers other).inflight.get body =
      some found) :
    provider = other ∧ key = body ∧ id = found ∨
      (client.providers other).inflight.get body = some found := by
  rw [inflight_setInflight] at lookup
  split at lookup
  · rename_i same
    rw [OrderedMap.get_set] at lookup
    split at lookup
    · rename_i alike
      exact .inl ⟨same, alike, Option.some.inj lookup⟩
    · exact .inr lookup
  · exact .inr lookup

theorem get_deleteInflight {found : Nat}
    (lookup : ((client.deleteInflight provider key).providers other).inflight.get body =
      some found) : (client.providers other).inflight.get body = some found := by
  rw [inflight_deleteInflight] at lookup
  split at lookup
  · rw [OrderedMap.get_erase] at lookup
    split at lookup
    · cases lookup
    · exact lookup
  · exact lookup

/-- The request of a call of `_doFetch` is the next one, and the map has lost at most
the key of the call. -/
theorem doFetch_request (client : Client) (provider : Nat) (method url key : String) :
    ∃ request : Request, request.provider = provider ∧ request.cacheKey = key ∧
      request.settled = !(client.breaker.canRequest client.now).1 ∧
      (client.doFetch provider method url key).requests = client.requests ++ [request] ∧
      (client.doFetch provider method url key).calls = client.calls ∧
      ∀ other body found,
        ((client.doFetch provider method url key).providers other).inflight.get body =
          some found → (client.providers other).inflight.get body = some found := by
  rcases asked : client.breaker.canRequest client.now with ⟨admitted, breaker⟩
  cases admitted with
  | false =>
      rw [doFetch_of_refused asked]
      exact ⟨_, rfl, rfl, rfl, rfl, rfl, fun _ _ _ => get_deleteInflight⟩
  | true =>
      rw [doFetch_of_admitted asked]
      exact ⟨_, rfl, rfl, rfl, rfl, rfl, fun _ _ _ lookup => lookup⟩

/-- The pending promises after a call that sends a request are the old ones and that of
the request. -/
theorem get_fetch {found : Nat} (sends : client.sends provider method url body)
    (lookup : ((client.fetch provider method url body).providers other).inflight.get key =
      some found) :
    provider = other ∧ cacheKey method url body = key ∧ client.requests.length = found ∨
      (client.providers other).inflight.get key = some found := by
  rw [fetch_of_sends sends] at lookup
  obtain ⟨request, -, -, -, -, -, kept⟩ :=
    client.doFetch_request provider method url (cacheKey method url body)
  rcases get_sent lookup with fresh | old
  · exact .inl fresh
  · exact .inr (kept other key found old)

theorem get_fetch_self (sends : client.sends provider method url body) :
    ((client.fetch provider method url body).providers provider).inflight.get
      (cacheKey method url body) = some client.requests.length := by
  rw [fetch_of_sends sends]
  show ((setInflight _ provider (cacheKey method url body) _).providers provider).inflight.get
    (cacheKey method url body) = _
  rw [inflight_setInflight, if_pos rfl, OrderedMap.get_set, if_pos rfl]

theorem requests_fetch (sends : client.sends provider method url body) :
    ∃ request : Request, request.provider = provider ∧
      request.cacheKey = cacheKey method url body ∧
      request.settled = !(client.breaker.canRequest client.now).1 ∧
      (client.fetch provider method url body).requests = client.requests ++ [request] ∧
      (client.fetch provider method url body).calls =
        client.calls ++ [⟨method, .request client.requests.length false⟩] := by
  rw [fetch_of_sends sends]
  obtain ⟨request, owner, named, settled, requests, calls, -⟩ :=
    client.doFetch_request provider method url (cacheKey method url body)
  refine ⟨request, owner, named, settled, requests, ?_⟩
  rw [← calls]
  rfl

theorem Named.fetch (named : client.Named) : (client.fetch provider method url body).Named := by
  intro other key id lookup
  by_cases sends : client.sends provider method url body
  · obtain ⟨request, owner, label, -, requests, -⟩ := requests_fetch sends
    rcases get_fetch sends lookup with ⟨rfl, rfl, rfl⟩ | old
    · exact ⟨request, by simp [requests], owner, label⟩
    · obtain ⟨request, found, names⟩ := named other key id old
      have known := named.known old
      exact ⟨request, by rw [requests, List.getElem?_append_left known, found], names⟩
  · obtain ⟨source, reused, -⟩ := fetch_of_not_sends sends
    rw [reused] at lookup ⊢
    exact named other key id lookup

theorem Named.settle (named : client.Named) (found : client.requests[id]? = some request) :
    (client.settle id request ending).Named := by
  intro provider key other lookup
  obtain ⟨before, -⟩ := get_settle lookup
  obtain ⟨holder, held, owner, label⟩ := named provider key other before
  rw [settle_requests]
  by_cases same : id = other
  · subst same
    cases found.symm.trans held
    have known := (List.getElem?_eq_some_iff.mp found).1
    exact ⟨_, List.getElem?_set_self known, owner, label⟩
  · exact ⟨holder, by rw [List.getElem?_set_ne same, held], owner, label⟩

theorem Named.step (named : client.Named) (stepped : client.step event = some next) :
    next.Named := by
  obtain ⟨middle, advanced, rfl⟩ := step_cases stepped
  suffices kept : middle.Named from kept
  cases event with
  | fetch provider method url body =>
      cases advanced
      exact named.fetch
  | settle id ending =>
      obtain ⟨request, found, -, rfl⟩ := settle_cases advanced
      exact named.settle found
  | reset =>
      cases advanced
      exact named
  | elapse duration =>
      cases advanced
      exact named

theorem ended_settle (found : client.requests[id]? = some request) :
    (client.settle id request ending).ended = Function.update client.ended id true := by
  funext other
  rw [ended, settle_requests]
  by_cases same : id = other
  · subst same
    have known := (List.getElem?_eq_some_iff.mp found).1
    simp [known]
  · simp [List.getElem?_set_ne same, Function.update, Ne.symm same, ended]

theorem Fresh.fetch (fresh : client.Fresh) (named : client.Named) :
    (client.fetch provider method url body).Fresh ↔
      client.Unbroken (.fetch provider method url body) := by
  by_cases sends : client.sends provider method url body
  · obtain ⟨request, -, -, settled, requests, calls⟩ := requests_fetch sends
    have ended : (client.fetch provider method url body).ended client.requests.length =
        !(client.breaker.canRequest client.now).1 := by
      simp [Client.ended, requests, settled]
    refine ⟨?_, ?_⟩
    · intro after _
      have pending := after.inflight provider _ _ (get_fetch_self sends)
      rw [ended] at pending
      exact (Bool.not_eq_false' _).mp pending
    · intro unbroken
      have admitted : (client.breaker.canRequest client.now).1 = true := unbroken sends
      refine ⟨?_, ?_⟩
      · intro other key id lookup
        rcases get_fetch sends lookup with ⟨-, -, rfl⟩ | old
        · rw [ended, admitted]
          rfl
        · have before := fresh.inflight other key id old
          simpa only [Client.ended, requests, List.getElem?_append_left (named.known old)]
            using before
      · intro call member
        rw [calls] at member
        rcases List.mem_append.mp member with old | added
        · exact fresh.calls call old
        · rw [List.mem_singleton.mp added]
          rfl
  · obtain ⟨source, reused, origin⟩ := fetch_of_not_sends sends
    refine ⟨fun _ sent => absurd sent sends, fun _ => ?_⟩
    rw [reused]
    refine ⟨fresh.inflight, ?_⟩
    intro call member
    rcases List.mem_append.mp member with old | added
    · exact fresh.calls call old
    · rw [List.mem_singleton.mp added]
      rcases origin with ⟨entry, cached, rfl⟩ | ⟨existing, joined, rfl⟩
      · unfold fromCache at cached
        split at cached
        · rename_i reads
          have young := (Option.filter_eq_some_iff.mp cached).2
          simpa [Call.fresh, reads] using young
        · cases cached
      · simp [Call.fresh, fresh.inflight provider _ existing joined]

theorem Fresh.settle (fresh : client.Fresh) (named : client.Named)
    (found : client.requests[id]? = some request) :
    (client.settle id request ending).Fresh where
  inflight provider key other lookup := by
    obtain ⟨before, apart⟩ := get_settle lookup
    have pending := fresh.inflight provider key other before
    obtain ⟨holder, held, owner, label⟩ := named provider key other before
    have different : other ≠ id := by
      rintro rfl
      cases found.symm.trans held
      exact apart ⟨owner, label⟩
    rw [ended_settle found, Function.update_of_ne different, pending]
  calls call member := by
    rw [settle_calls] at member
    exact fresh.calls call member

theorem fresh_noted {before : Client} : (client.noted before event).Fresh ↔ client.Fresh :=
  ⟨fun fresh => ⟨fresh.inflight, fresh.calls⟩, fun fresh => ⟨fresh.inflight, fresh.calls⟩⟩

theorem Fresh.step_iff (fresh : client.Fresh) (named : client.Named) (event : Event) :
    (∀ next, client.step event = some next → next.Fresh) ↔ client.Unbroken event := by
  have kept : (∀ next, client.step event = some next → next.Fresh) ↔
      ∀ middle, client.advance event = some middle → middle.Fresh := by
    refine ⟨?_, ?_⟩
    · intro all middle advanced
      refine fresh_noted.mp (all (middle.noted client event) ?_)
      simp [Client.step, advanced]
    · intro all next stepped
      obtain ⟨middle, advanced, rfl⟩ := step_cases stepped
      exact fresh_noted.mpr (all middle advanced)
  rw [kept]
  cases event with
  | fetch provider method url body =>
      rw [← fresh.fetch named]
      exact ⟨fun all => all _ rfl, fun after middle advanced => Option.some.inj advanced ▸ after⟩
  | settle id ending =>
      refine ⟨fun _ => trivial, ?_⟩
      intro _ middle advanced
      obtain ⟨request, found, -, rfl⟩ := settle_cases advanced
      exact fresh.settle named found
  | reset =>
      refine ⟨fun _ => trivial, ?_⟩
      intro _ middle advanced
      cases advanced
      exact ⟨fresh.inflight, fresh.calls⟩
  | elapse duration =>
      refine ⟨fun _ => trivial, ?_⟩
      intro _ middle advanced
      cases advanced
      exact ⟨fresh.inflight, fresh.calls⟩

/-- The promises in flight are pending throughout exactly in the runs in which the
circuit breaker refuses no request. -/
theorem inflight_fresh_iff (failureThreshold : Nat) (resetTimeoutMs now : Int)
    (events : List Event) :
    Always step Fresh (start failureThreshold resetTimeoutMs now) events ↔
      Meets step Unbroken (start failureThreshold resetTimeoutMs now) events := by
  apply always_iff_meets Named
  · intro client event next named stepped
    exact named.step stepped
  · intro client event named fresh
    exact fresh.step_iff named event
  · intro provider key id lookup
    cases lookup
  · refine ⟨?_, ?_⟩
    · intro provider key id lookup
      cases lookup
    · intro call member
      cases member

/-- The circuit is open, and a request is refused. -/
def refused : List Event :=
  [.fetch 0 "GET" "/a" "", .settle 0 (.threw .typeError), .fetch 0 "GET" "/b" ""]

/-- A minute later, with the circuit closed, the request is asked for again. -/
def refusedAgain : List Event := refused ++ [.elapse 60000, .reset, .fetch 0 "GET" "/b" ""]

theorem refused_inflight :
    (run step (start 1 15000 0) refused).map (fun last =>
      ((last.providers 0).inflight.get "GET:/b:", last.ended 1)) = some (some 1, true) := by
  decide +kernel

theorem refusedAgain_calls :
    (run step (start 1 15000 0) refusedAgain).map (fun last => last.calls.all Call.fresh) =
      some false := by
  decide +kernel

theorem inflight_not_fresh :
    ¬ ∃ events ∈ [refused, refusedAgain],
      ∀ last, run step (start 1 15000 0) events = some last → last.Fresh := by
  intro ⟨events, member, always⟩
  simp only [List.mem_cons, List.not_mem_nil, or_false] at member
  rcases member with rfl | rfl
  · obtain ⟨last, ran, broken⟩ := Option.map_eq_some_iff.mp refused_inflight
    obtain ⟨held, ended⟩ := Prod.mk.inj broken
    have pending := (always last ran).inflight 0 "GET:/b:" 1 held
    rw [ended] at pending
    cases pending
  · obtain ⟨last, ran, broken⟩ := Option.map_eq_some_iff.mp refusedAgain_calls
    have all := List.all_eq_true.mpr (always last ran).calls
    rw [broken] at all
    cases all

end Client

end Univiz.Remote
