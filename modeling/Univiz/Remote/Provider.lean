import Mathlib.Logic.Function.Basic
import Univiz.Data.OrderedMap
import Univiz.Data.Transition

namespace Univiz.Remote

open Univiz.Data

/-! The circuit breaker of the frontend.  Times are those of `Date.now()`. -/

inductive CircuitState where
  | closed
  | open
  | halfOpen
deriving DecidableEq, Repr

structure CircuitBreaker where
  failureThreshold : Nat
  resetTimeoutMs : Int
  state : CircuitState
  consecutiveFailures : Nat
  lastFailureTime : Int
  halfOpenPending : Bool
  dynamicResetMs : Option Int
deriving DecidableEq, Repr

namespace CircuitBreaker

def create (failureThreshold : Nat) (resetTimeoutMs : Int) : CircuitBreaker where
  failureThreshold := failureThreshold
  resetTimeoutMs := resetTimeoutMs
  state := .closed
  consecutiveFailures := 0
  lastFailureTime := 0
  halfOpenPending := false
  dynamicResetMs := none

variable (breaker : CircuitBreaker) (now : Int)

def effectiveReset : Int := breaker.dynamicResetMs.getD breaker.resetTimeoutMs

def allowOne : Bool × CircuitBreaker :=
  if breaker.halfOpenPending then (false, breaker)
  else (true, { breaker with halfOpenPending := true })

/-- The answer, and the breaker that asking leaves behind. -/
def canRequest : Bool × CircuitBreaker :=
  match breaker.state with
  | .closed => (true, breaker)
  | .open =>
      if breaker.effectiveReset ≤ now - breaker.lastFailureTime then
        { breaker with
          state := .halfOpen, halfOpenPending := false, dynamicResetMs := none }.allowOne
      else (false, breaker)
  | .halfOpen => breaker.allowOne

def recordSuccess : CircuitBreaker :=
  { breaker with state := .closed, consecutiveFailures := 0, halfOpenPending := false }

/-- Whether the delay that the server asks for is taken over. -/
def honors (retryAfterMs : Int) : Bool :=
  retryAfterMs ≠ 0 && breaker.resetTimeoutMs < retryAfterMs

def recordFailure (retryAfterMs : Option Int) : CircuitBreaker :=
  let counted := { breaker with
    consecutiveFailures := breaker.consecutiveFailures + 1
    lastFailureTime := now
    halfOpenPending := false }
  if counted.failureThreshold ≤ counted.consecutiveFailures then
    { counted with
      state := .open
      dynamicResetMs :=
        match retryAfterMs.filter counted.honors with
        | some delay => some delay
        | none => counted.dynamicResetMs }
  else counted

def reset : CircuitBreaker :=
  { breaker with state := .closed, consecutiveFailures := 0, halfOpenPending := false }

end CircuitBreaker

/-! The instances of `RemoteGraphProvider` that share a circuit breaker.

A call of `fetch` runs up to the request that it sends without a pause, and so do the
end of a request and what it records, so each is one step of the event loop. -/

def isDigit (char : Char) : Bool := '0'.toNat ≤ char.toNat && char.toNat ≤ '9'.toNat

def leadingNumber (text : List Char) : Option Int :=
  match text.takeWhile isDigit with
  | [] => none
  | digits => some (digits.foldl (fun value digit => value * 10 + (digit.toNat - '0'.toNat)) 0)

/-- The white space of a header, whose characters are those of Latin-1. -/
def isWhiteSpace (char : Char) : Bool := char.toNat ∈ [9, 10, 11, 12, 13, 32, 160]

/-- `parseInt(text, 10)`, which is not a number where there is no digit. -/
def parseInt (text : String) : Option Int :=
  match text.toList.dropWhile isWhiteSpace with
  | '-' :: rest => (leadingNumber rest).map Neg.neg
  | '+' :: rest => leadingNumber rest
  | rest => leadingNumber rest

def retryAfterMs (header : Option String) : Option Int :=
  ((header.filter (· ≠ "")).bind parseInt).bind fun seconds =>
    if seconds * 1000 = 0 then none else some (seconds * 1000)

def dropPrefix (start text : List Char) : Option (List Char) :=
  if start.isPrefixOf text then some (text.drop start.length) else none

/-- What follows a nonempty segment of a path. -/
def dropSegment (text : List Char) : Option (List Char) :=
  if (text.takeWhile (· ≠ '/')).isEmpty then none else some (text.dropWhile (· ≠ '/'))

/-- What follows `/api/v\d+(/[^/]+)?/graph`, where the path starts with it. -/
def afterGraph (path : List Char) : Option (List Char) :=
  (dropPrefix "/api/v".toList path).bind fun version =>
    if (version.takeWhile isDigit).isEmpty then none
    else
      let rest := version.dropWhile isDigit
      let inWorkspace := ((dropPrefix "/".toList rest).bind dropSegment).bind
        (dropPrefix "/graph".toList)
      inWorkspace.or (dropPrefix "/graph".toList rest)

/-- Whether the path matches `/nodes/[^/]+/(ancestors|descendants|parent)`. -/
def readsRelatives (seg : List Char) : Bool :=
  match (dropPrefix "/nodes/".toList seg).bind dropSegment with
  | none => false
  | some rest =>
      "/ancestors".toList.isPrefixOf rest || "/descendants".toList.isPrefixOf rest ||
        "/parent".toList.isPrefixOf rest

def includesText (part : List Char) (text : List Char) : Bool := text.tails.any part.isPrefixOf

def defaultResponseCacheTtlMs : Int := 2000

def responseCacheTtlMs (path : String) : Int :=
  let pathOnly := path.toList.takeWhile (· ≠ '?')
  let seg := (afterGraph pathOnly).getD pathOnly
  if includesText "/children".toList seg then 30000
  else if "/edges/between".toList.isPrefixOf seg || "/edges/query".toList.isPrefixOf seg then 30000
  else if "/nodes/top-level".toList.isPrefixOf seg then 30000
  else if "/nodes/query".toList.isPrefixOf seg || seg = "/search".toList then 30000
  else if readsRelatives seg then 30000
  else if "/metadata".toList.isPrefixOf seg || seg = "/introspection".toList ||
      seg = "/stats".toList then 60000
  else defaultResponseCacheTtlMs

structure Response where
  status : Nat
  retryAfter : Option String
deriving DecidableEq, Repr

def Response.ok (response : Response) : Bool := 200 ≤ response.status && response.status ≤ 299

inductive Fault where
  | typeError
  | other
deriving DecidableEq, Repr

/-- How a request ends: with a response whose body was read, or with an error.  A timeout
and a broken connection are type errors; an abort while the body is read and a body
that is not JSON are not. -/
inductive Ending where
  | answered (response : Response) (data : String)
  | threw (fault : Fault)
deriving DecidableEq, Repr

def Ending.succeeds : Ending → Bool
  | .answered response _ => response.ok
  | .threw _ => false

def Ending.records : Ending → Bool
  | .answered response _ => response.ok || 500 ≤ response.status
  | .threw fault => fault = .typeError

def CircuitBreaker.recorded (breaker : CircuitBreaker) (now : Int) : Ending → CircuitBreaker
  | .answered response _ =>
      if response.ok then breaker.recordSuccess
      else if 500 ≤ response.status then
        breaker.recordFailure now (retryAfterMs response.retryAfter)
      else breaker
  | .threw .typeError => breaker.recordFailure now none
  | .threw .other => breaker

structure Cached where
  data : String
  ts : Int
  ttl : Int
deriving DecidableEq, Repr

/-- The maps of an instance.  A promise is named by its request. -/
structure Provider where
  responseCache : OrderedMap String Cached
  inflight : OrderedMap String Nat

/-- A call of `_doFetch`, with the state of the circuit in which it was admitted. -/
structure Request where
  provider : Nat
  method : String
  url : String
  cacheKey : String
  admitted : Option CircuitState
  settled : Bool
deriving DecidableEq, Repr

/-- What a call of `fetch` returned: data from the cache, or the promise of a request,
which may have ended before the call. -/
inductive Source where
  | cached (entry : Cached) (now : Int)
  | request (id : Nat) (ended : Bool)
deriving DecidableEq, Repr

structure Call where
  method : String
  source : Source
deriving DecidableEq, Repr

inductive Event where
  | fetch (provider : Nat) (method url body : String)
  | settle (id : Nat) (ending : Ending)
  | reset
  | elapse (duration : Nat)
deriving DecidableEq, Repr

/-- An event after which the circuit was closed and before which it was not, with the
request that the event settled. -/
structure Closing where
  event : Event
  request : Option Request
deriving DecidableEq, Repr

structure Client where
  now : Int
  breaker : CircuitBreaker
  providers : Nat → Provider
  requests : List Request
  calls : List Call
  closings : List Closing

namespace Client

def create (breaker : CircuitBreaker) (now : Int) : Client where
  now := now
  breaker := breaker
  providers := fun _ => ⟨.empty, .empty⟩
  requests := []
  calls := []
  closings := []

variable (client : Client) (provider : Nat)

def update (change : Provider → Provider) : Client :=
  { client with
    providers := Function.update client.providers provider (change (client.providers provider)) }

def setInflight (cacheKey : String) (id : Nat) : Client :=
  client.update provider fun maps => { maps with inflight := maps.inflight.set cacheKey id }

def deleteInflight (cacheKey : String) : Client :=
  client.update provider fun maps => { maps with inflight := maps.inflight.erase cacheKey }

def setResponse (cacheKey : String) (entry : Cached) : Client :=
  client.update provider fun maps =>
    { maps with responseCache := maps.responseCache.set cacheKey entry }

def called (method : String) (source : Source) : Client :=
  { client with calls := client.calls ++ [⟨method, source⟩] }

def cacheKey (method url body : String) : String := method ++ ":" ++ url ++ ":" ++ body

def fromCache (method key : String) : Option Cached :=
  if method = "GET" then
    ((client.providers provider).responseCache.get key).filter fun entry =>
      client.now - entry.ts < entry.ttl
  else none

def ended (id : Nat) : Bool := (client.requests[id]?.map Request.settled).getD false

/-- The part of `_doFetch` before its first pause. -/
def doFetch (method url key : String) : Client :=
  match client.breaker.canRequest client.now with
  | (false, breaker) =>
      let request : Request := ⟨provider, method, url, key, none, true⟩
      { client.deleteInflight provider key with
        breaker := breaker
        requests := client.requests ++ [request] }
  | (true, breaker) =>
      let request : Request := ⟨provider, method, url, key, some breaker.state, false⟩
      { client with
        breaker := breaker
        requests := client.requests ++ [request] }

def fetch (method url body : String) : Client :=
  let key := cacheKey method url body
  match client.fromCache provider method key with
  | some entry => client.called method (.cached entry client.now)
  | none =>
      match (client.providers provider).inflight.get key with
      | some existing => client.called method (.request existing (client.ended existing))
      | none =>
          let id := client.requests.length
          ((client.doFetch provider method url key).setInflight provider key id).called method
            (.request id false)

def stored (request : Request) : Ending → Client
  | .answered response data =>
      if response.ok && request.method = "GET" then
        client.setResponse request.provider request.cacheKey
          ⟨data, client.now, responseCacheTtlMs request.url⟩
      else client
  | .threw _ => client

theorem stored_eq (request : Request) (ending : Ending) :
    client.stored request ending =
      { client with providers := (client.stored request ending).providers } := by
  cases ending with
  | answered response data =>
      unfold stored
      simp only
      split <;> rfl
  | threw fault => rfl

/-- The part of `_doFetch` after its last pause. -/
def settle (id : Nat) (request : Request) (ending : Ending) : Client :=
  let left := (client.stored request ending).deleteInflight request.provider request.cacheKey
  { left with
    breaker := client.breaker.recorded client.now ending
    requests := client.requests.set id { request with settled := true } }

variable (id : Nat) (request : Request) (ending : Ending)

@[simp] theorem settle_now : (client.settle id request ending).now = client.now := by
  simp only [settle]
  rw [stored_eq]
  rfl

@[simp] theorem settle_calls : (client.settle id request ending).calls = client.calls := by
  simp only [settle]
  rw [stored_eq]
  rfl

@[simp] theorem settle_closings : (client.settle id request ending).closings = client.closings := by
  simp only [settle]
  rw [stored_eq]
  rfl

@[simp] theorem settle_breaker : (client.settle id request ending).breaker =
    client.breaker.recorded client.now ending := rfl

@[simp] theorem settle_requests : (client.settle id request ending).requests =
    client.requests.set id { request with settled := true } := rfl

def advance : Event → Option Client
  | .fetch provider method url body => some (client.fetch provider method url body)
  | .settle id ending =>
      client.requests[id]?.bind fun request =>
        if request.settled then none else some (client.settle id request ending)
  | .reset => some { client with breaker := client.breaker.reset }
  | .elapse duration => some { client with now := client.now + duration }

def subject : Event → Option Request
  | .settle id _ => client.requests[id]?
  | _ => none

def noted (before : Client) (event : Event) : Client :=
  { client with
    closings :=
      if before.breaker.state ≠ .closed ∧ client.breaker.state = .closed then
        client.closings ++ [⟨event, before.subject event⟩]
      else client.closings }

def step (event : Event) : Option Client :=
  (client.advance event).map fun next => next.noted client event

/-- A call of `fetch` that needs a request of its own. -/
def sends (client : Client) (provider : Nat) (method url body : String) : Prop :=
  client.fromCache provider method (cacheKey method url body) = none ∧
    (client.providers provider).inflight.get (cacheKey method url body) = none

def start (failureThreshold : Nat) (resetTimeoutMs now : Int) : Client :=
  create (.create failureThreshold resetTimeoutMs) now

section

variable {client next : Client} {event : Event} {id provider : Nat} {ending : Ending}
  {request : Request} {method url body : String}

/-- A call that sends nothing returns a cached response or the promise of a request. -/
theorem fetch_of_not_sends (reused : ¬ client.sends provider method url body) :
    ∃ source, client.fetch provider method url body = client.called method source ∧
      ((∃ entry, client.fromCache provider method (cacheKey method url body) = some entry ∧
          source = .cached entry client.now) ∨
        ∃ existing,
          (client.providers provider).inflight.get (cacheKey method url body) = some existing ∧
            source = .request existing (client.ended existing)) := by
  simp only [sends] at reused
  unfold fetch
  simp only
  cases stored : client.fromCache provider method (cacheKey method url body) with
  | some entry => exact ⟨_, rfl, .inl ⟨entry, rfl, rfl⟩⟩
  | none =>
      cases joined : (client.providers provider).inflight.get (cacheKey method url body) with
      | some existing => exact ⟨_, rfl, .inr ⟨existing, rfl, rfl⟩⟩
      | none => exact absurd ⟨stored, joined⟩ reused

theorem fetch_of_sends (sends : client.sends provider method url body) :
    client.fetch provider method url body =
      ((client.doFetch provider method url (cacheKey method url body)).setInflight provider
        (cacheKey method url body) client.requests.length).called method
          (.request client.requests.length false) := by
  simp only [fetch, sends.1, sends.2]

theorem doFetch_of_refused {breaker : CircuitBreaker} {key : String}
    (asked : client.breaker.canRequest client.now = (false, breaker)) :
    client.doFetch provider method url key =
      { client.deleteInflight provider key with
        breaker := breaker
        requests := client.requests ++ [⟨provider, method, url, key, none, true⟩] } := by
  simp only [doFetch, asked]

theorem doFetch_of_admitted {breaker : CircuitBreaker} {key : String}
    (asked : client.breaker.canRequest client.now = (true, breaker)) :
    client.doFetch provider method url key =
      { client with
        breaker := breaker
        requests :=
          client.requests ++ [⟨provider, method, url, key, some breaker.state, false⟩] } := by
  simp only [doFetch, asked]

theorem step_cases (stepped : client.step event = some next) :
    ∃ middle, client.advance event = some middle ∧ next = middle.noted client event := by
  obtain ⟨middle, advanced, rfl⟩ := Option.map_eq_some_iff.mp stepped
  exact ⟨middle, advanced, rfl⟩

theorem settle_cases (advanced : client.advance (.settle id ending) = some next) :
    ∃ request, client.requests[id]? = some request ∧ request.settled = false ∧
      next = client.settle id request ending := by
  obtain ⟨request, found, settled⟩ := Option.bind_eq_some_iff.mp advanced
  refine ⟨request, found, ?_⟩
  split at settled
  · cases settled
  · rename_i unsettled
    exact ⟨Bool.eq_false_iff.mpr unsettled, (Option.some.inj settled).symm⟩

theorem advance_settle (found : client.requests[id]? = some request)
    (unsettled : request.settled = false) :
    client.advance (.settle id ending) = some (client.settle id request ending) := by
  simp [advance, found, unsettled]

end

end Client

end Univiz.Remote
