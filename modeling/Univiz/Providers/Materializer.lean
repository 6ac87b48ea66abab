import Mathlib.Data.Finset.Card
import Mathlib.Data.List.Basic
import Mathlib.Data.List.ProdSigma
import Univiz.Data.Fallible
import Univiz.Data.Tally
import Univiz.Data.Transition

namespace Univiz.Providers

open Univiz.Data

/-! `AggregatedEdgeMaterializer` over backends whose calls can raise.

Every method is a sequence of backend calls.  A call that raises has taken
effect for some of its pairs, and what the method did before it stays done.
-/

abbrev PairKey := String × String

instance : LawfulBEq PairKey := inferInstance

structure AggregatedEdge where
  weight : Nat
  sourceEdgeTypes : Finset String
deriving DecidableEq

/-- What the two backends store: the contributing leaf edges of a pair with
their types, and the AGGREGATED edges. -/
@[ext] structure Backend where
  members : PairKey → Finset String
  edgeType : PairKey → String → String
  edges : PairKey → Option AggregatedEdge

def Backend.empty : Backend := ⟨fun _ => ∅, fun _ _ => "", fun _ => none⟩

/-- An element of `new_pairs`. -/
structure Upsert where
  pair : PairKey
  weight : Nat
  sourceEdgeTypes : Finset String

/-- The calls of the protocols, by what distinguishes them within a method. -/
inductive Call where
  | chain (urn : String)
  | add (pair : PairKey)
  | remove (pair : PairKey)
  | count (pair : PairKey)
  | edgeTypes (pair : PairKey)
  | upsertAggregatedEdges (chunk : Nat)
  | deleteAggregatedEdge (pair : PairKey)
  | updateAggregatedEdge (pair : PairKey)
  | purgeAll
  | purgeNamespace
deriving DecidableEq

/-- A call that raises, and the pairs for which it has taken effect by then. -/
structure Fault where
  call : Call
  landed : PairKey → Bool

namespace Backend

variable (backend : Backend)

/-- `after` for some pairs, `backend` for the others. -/
def mix (landed : PairKey → Bool) (after : Backend) : Backend where
  members pair := if landed pair then after.members pair else backend.members pair
  edgeType pair := if landed pair then after.edgeType pair else backend.edgeType pair
  edges pair := if landed pair then after.edges pair else backend.edges pair

def insertMember (pair : PairKey) (edgeId edgeType : String) : Backend :=
  if edgeId ∈ backend.members pair then backend
  else { backend with
    members := Function.update backend.members pair (insert edgeId (backend.members pair))
    edgeType := Function.update backend.edgeType pair
      (Function.update (backend.edgeType pair) edgeId edgeType) }

def eraseMember (pair : PairKey) (edgeId : String) : Backend :=
  { backend with
    members := Function.update backend.members pair ((backend.members pair).erase edgeId) }

def setEdge (pair : PairKey) (edge : Option AggregatedEdge) : Backend :=
  { backend with edges := Function.update backend.edges pair edge }

def upsertEdges (rows : List Upsert) : Backend :=
  rows.foldl (fun backend row => backend.setEdge row.pair (some ⟨row.weight, row.sourceEdgeTypes⟩))
    backend

/-- The types of the contributing leaves. -/
def observedTypes (pair : PairKey) : Finset String :=
  (backend.members pair).image (backend.edgeType pair)

end Backend

/-- A method in progress. -/
abbrev Method := EStateM Unit Backend

/-- One call: it returns its reply and takes effect, or it raises. -/
def request (fault : Option Fault) (call : Call) (reply : Backend → α)
    (effect : Backend → Backend) : Method α := fun backend =>
  match fault with
  | some fault =>
      if fault.call = call then .error () (backend.mix fault.landed (effect backend))
      else .ok (reply backend) (effect backend)
  | none => .ok (reply backend) (effect backend)

section Calls

variable (fault : Option Fault) (pair : PairKey)

def callChain (chains : String → List String) (urn : String) : Method (List String) :=
  request fault (.chain urn) (fun _ => chains urn) id

def callAdd (edgeId edgeType : String) : Method Bool :=
  request fault (.add pair) (fun backend => decide (edgeId ∉ backend.members pair))
    fun backend => backend.insertMember pair edgeId edgeType

def callRemove (edgeId : String) : Method Bool :=
  request fault (.remove pair) (fun backend => decide (edgeId ∈ backend.members pair))
    fun backend => backend.eraseMember pair edgeId

def callCount : Method Nat :=
  request fault (.count pair) (fun backend => (backend.members pair).card) id

def callEdgeTypes : Method (Finset String) :=
  request fault (.edgeTypes pair) (fun backend => backend.observedTypes pair) id

def callUpsert (chunk : Nat) (rows : List Upsert) : Method Unit :=
  request fault (.upsertAggregatedEdges chunk) (fun _ => ()) fun backend => backend.upsertEdges rows

def callDelete : Method Unit :=
  request fault (.deleteAggregatedEdge pair) (fun _ => ()) fun backend => backend.setEdge pair none

/-- The edge that is updated has to exist. -/
def callUpdate (weight : Nat) (sourceEdgeTypes : Finset String) : Method Unit :=
  request fault (.updateAggregatedEdge pair) (fun _ => ()) fun backend =>
    backend.setEdge pair ((backend.edges pair).map fun _ => ⟨weight, sourceEdgeTypes⟩)

/-- `purge_all` of the materialisation backend.  `cancelled` holds the pairs
whose edges were gone when `should_cancel` stopped it. -/
def callPurgeAll (cancelled : Option (PairKey → Bool)) : Method Unit :=
  request fault .purgeAll (fun _ => ()) fun backend =>
    { backend with
      edges := fun pair => if (cancelled.getD fun _ => true) pair then none else backend.edges pair }

def callPurgeNamespace : Method Unit :=
  request fault .purgeNamespace (fun _ => ()) fun backend =>
    { backend with members := fun _ => ∅, edgeType := fun _ _ => "" }

end Calls

/-- The loops of `_cross_pairs` with what they have seen. -/
def unseenPairs : List PairKey → List PairKey → List PairKey
  | _, [] => []
  | seen, pair :: rest =>
      if pair.1 = pair.2 ∨ pair ∈ seen then unseenPairs seen rest
      else pair :: unseenPairs (pair :: seen) rest

def crossPairs (sourceChain targetChain : List String) : List PairKey :=
  unseenPairs [] (sourceChain ×ˢ targetChain)

def orLeaf (chain : List String) (urn : String) : List String :=
  if chain.isEmpty then [urn] else chain

def edgePairs (chains : String → List String) (sourceUrn targetUrn : String) : List PairKey :=
  crossPairs (orLeaf (chains sourceUrn) sourceUrn) (orLeaf (chains targetUrn) targetUrn)

def chunks (items : List α) (size : Nat) : List (List α) :=
  (List.range ((items.length + size - 1) / size)).map fun index =>
    (items.drop (index * size)).take size

/-- The configuration.  A batch size of 0 would make `range` raise. -/
structure MaterializerConfig where
  batchSize : Nat
  batch_positive : 0 < batchSize

section Methods

variable (fault : Option Fault) (edgeId edgeType : String)

/-- The loop that collects `new_pairs`. -/
def addPairs : List PairKey → Method (List Upsert)
  | [] => pure []
  | pair :: rest => do
      let wasNew ← callAdd fault pair edgeId edgeType
      if wasNew then
        let count ← callCount fault pair
        let types ← callEdgeTypes fault pair
        let later ← addPairs rest
        return ⟨pair, count, types⟩ :: later
      else addPairs rest

/-- The loop over the chunks, with the number of the next one. -/
def upsertChunks : Nat → List (List Upsert) → Method Unit
  | _, [] => pure ()
  | index, chunk :: rest => do
      callUpsert fault index chunk
      upsertChunks (index + 1) rest

/-- `materialize_lineage_edge`.  Without pairs nothing is called. -/
def materializeLineageEdge (config : MaterializerConfig) (chains : String → List String)
    (sourceUrn targetUrn : String) : Method Unit := do
  let sourceChain ← callChain fault chains sourceUrn
  let targetChain ← callChain fault chains targetUrn
  let pairs := crossPairs (orLeaf sourceChain sourceUrn) (orLeaf targetChain targetUrn)
  let newPairs ← addPairs fault edgeId edgeType pairs
  upsertChunks fault 0 (chunks newPairs config.batchSize)

/-- The body of the loop of `remove_lineage_edge`. -/
def removePair (pair : PairKey) : Method Unit := do
  let removed ← callRemove fault pair edgeId
  if removed then
    let remaining ← callCount fault pair
    if remaining = 0 then callDelete fault pair
    else
      let types ← callEdgeTypes fault pair
      callUpdate fault pair remaining types
  else pure ()

def removePairs : List PairKey → Method Unit
  | [] => pure ()
  | pair :: rest => do
      removePair fault edgeId pair
      removePairs rest

def removeLineageEdge (chains : String → List String) (sourceUrn targetUrn : String) :
    Method Unit := do
  let sourceChain ← callChain fault chains sourceUrn
  let targetChain ← callChain fault chains targetUrn
  removePairs fault edgeId
    (crossPairs (orLeaf sourceChain sourceUrn) (orLeaf targetChain targetUrn))

/-- `purge_all`.  A failure of `purge_namespace` is only logged. -/
def purgeAll (cancelled : Option (PairKey → Bool)) : Method Unit := do
  callPurgeAll fault cancelled
  tryCatch (callPurgeNamespace fault) fun _ => pure ()

end Methods

variable {fault : Option Fault} {backend : Backend} {pair : PairKey} {edgeId edgeType : String}
  {pairs : List PairKey}

theorem ends_request {call : Call} {reply : Backend → α} {effect : Backend → Backend}
    {returned : α → Backend → Prop} {raised : Backend → Prop}
    (onReturn : (∀ landed, fault ≠ some ⟨call, landed⟩) → returned (reply backend) (effect backend))
    (onRaise : ∀ landed, fault = some ⟨call, landed⟩ → raised (backend.mix landed (effect backend))) :
    Ends (request fault call reply effect) backend returned raised := by
  unfold Ends request
  cases fault with
  | none => exact onReturn fun landed failed => nomatch failed
  | some fault =>
      by_cases same : fault.call = call
      · subst same
        simpa using onRaise fault.landed rfl
      · have other : ∀ landed, some fault ≠ some ⟨call, landed⟩ := by
          intro landed failed
          exact same (congrArg Fault.call (Option.some.inj failed))
        simpa [same] using onReturn other

@[simp] theorem mix_self (landed : PairKey → Bool) : backend.mix landed backend = backend := by
  simp [Backend.mix]

@[simp] theorem insertMember_edges : (backend.insertMember pair edgeId edgeType).edges =
    backend.edges := by
  unfold Backend.insertMember
  split <;> rfl

theorem insertMember_of_mem (known : edgeId ∈ backend.members pair) :
    backend.insertMember pair edgeId edgeType = backend :=
  if_pos known

theorem insertMember_members :
    (backend.insertMember pair edgeId edgeType).members =
      Function.update backend.members pair (insert edgeId (backend.members pair)) := by
  unfold Backend.insertMember
  split
  · rename_i known
    rw [Finset.insert_eq_self.mpr known, Function.update_eq_self]
  · rfl

theorem mix_insertMember {landed : PairKey → Bool} (lost : landed pair = false) :
    backend.mix landed (backend.insertMember pair edgeId edgeType) = backend := by
  unfold Backend.insertMember
  split
  · exact mix_self landed
  · ext other : 2
    · by_cases same : other = pair
      · subst same
        simp [Backend.mix, lost]
      · simp [Backend.mix, same]
    · by_cases same : other = pair
      · subst same
        simp [Backend.mix, lost]
      · simp [Backend.mix, same]
    · simp [Backend.mix]

end Univiz.Providers
