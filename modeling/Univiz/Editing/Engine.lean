import Univiz.Data.Transition
import Univiz.Editing.Graph
import Univiz.Resolver.Mutations

namespace Univiz.Editing

open Univiz.Data
open Univiz.Resolver (Runtime ResolvedOntology validateNodeMutation validateEdgeMutation)

/-! The calls of `ContextEngine` that change a graph, one query after the other.  Between two
queries of a call there may be queries of other calls. -/

structure Texts extends Runtime where
  lower : String → String
  isAlnum : Char → Bool

/-- An engine with its resolved ontology.  `noProperties` is the empty dictionary. -/
structure ContextEngine (β : Type) where
  texts : Texts
  ontology : ResolvedOntology
  noProperties : β

/-- The details are the fields of the node that only the provider looks at. -/
structure CreateNodeRequest (α : Type) where
  entityType : String
  parentUrn : Option String
  details : α

structure CreateEdgeRequest (β : Type) where
  sourceUrn : String
  targetUrn : String
  edgeType : String
  properties : β
  idempotencyKey : Option String

structure EdgeMutationResult (β : Type) where
  edge : Option (GraphEdge β) := none
  success : Bool := true
  error : Option String := none
  warnings : List String := []

inductive Reply (α β : Type)
  | nodeCreated (node : GraphNode α) (containmentEdge : Option (GraphEdge β))
      (warnings : List String)
  | edge (result : EdgeMutationResult β)
  | edgeDeleted (found : Bool)
  /-- Also the result of a node that is turned down: a result that has none cannot be built. -/
  | raised

/-- The query that a call comes to next, with what the call has found out before. -/
inductive Progress (α β : Type)
  | writing (node : GraphNode α) (containmentEdge : Option (GraphEdge β)) (warnings : List String)
  | linking (node : GraphNode α) (containmentEdge : GraphEdge β) (warnings : List String)
  | reading (request : CreateEdgeRequest β) (sourceType : Option String)
  | creating (edge : GraphEdge β) (warnings : List String)
  | replied (reply : Reply α β)

/-- A query that raises may have been applied all the same. -/
inductive Outcome
  | returned
  | raised (applied : Bool)
deriving DecidableEq

def Outcome.applied : Outcome → Bool
  | .returned => true
  | .raised applied => applied

variable {α β : Type}

/-- An empty key is none. -/
def CreateEdgeRequest.toEdge (request : CreateEdgeRequest β) (hex : String) : GraphEdge β where
  id := (request.idempotencyKey.filter (· ≠ "")).getD ("edge-" ++ hex)
  sourceUrn := request.sourceUrn
  targetUrn := request.targetUrn
  edgeType := request.edgeType
  confidence := 1
  properties := request.properties

namespace ContextEngine

variable (engine : ContextEngine β)

def label (text : String) : String := sanitizeLabel engine.texts.isAlnum text

def makeUrn (entityType hex : String) : String :=
  "urn:synodic:manual:" ++ engine.texts.strip (engine.texts.lower entityType) ++ ":" ++ hex

def containmentType : String := engine.ontology.containmentEdgeTypes.head?.getD "CONTAINS"

def containmentEdge (parentUrn urn : String) : GraphEdge β where
  id := "contains-" ++ parentUrn ++ "-" ++ urn
  sourceUrn := parentUrn
  targetUrn := urn
  edgeType := engine.containmentType
  confidence := 1
  properties := engine.noProperties

/-- The check of a node, whose parent comes with its URN and its type. -/
def checkNode (request : CreateNodeRequest α) (hex : String) (parent : Option (String × String)) :
    Progress α β :=
  let result := validateNodeMutation engine.texts.toRuntime engine.ontology .create
    request.entityType (parent.map Prod.snd) none
  if result.ok then
    let urn := engine.makeUrn request.entityType hex
    .writing ⟨urn, request.entityType, request.details⟩
      ((parent.filter fun parent => parent.2 ≠ "").map fun parent =>
        engine.containmentEdge parent.1 urn) result.warnings
  else .replied .raised

def createNode (graph : StoredGraph α β) (request : CreateNodeRequest α) (hex : String) :
    Progress α β :=
  match request.parentUrn.filter (· ≠ "") with
  | none => engine.checkNode request hex none
  | some parentUrn =>
      match graph.getNode parentUrn with
      | none => .replied .raised
      | some parentType => engine.checkNode request hex (some (parentUrn, parentType))

def checkEdge (request : CreateEdgeRequest β) (hex : String) :
    Option String → Option String → Progress α β
  | none, _ => .replied (.edge
      { success := false, error := some ("Source node not found: " ++ request.sourceUrn) })
  | some _, none => .replied (.edge
      { success := false, error := some ("Target node not found: " ++ request.targetUrn) })
  | some sourceType, some targetType =>
      let result := validateEdgeMutation engine.texts.toRuntime engine.ontology .create
        request.edgeType sourceType targetType
      if result.ok then .creating (request.toEdge hex) result.warnings
      else .replied (.edge
        { success := false
          error := some ("; ".intercalate result.errors)
          warnings := result.warnings })

/-- The next query of a call, and where the call is after it. -/
def advance (graph : StoredGraph α β) (hex : String) (outcome : Outcome) :
    Progress α β → Option (StoredGraph α β × Progress α β)
  | .writing node containmentEdge warnings =>
      let written := graph.mergeNode ⟨engine.label node.entityType, node.urn⟩ node.details
      match outcome, containmentEdge with
      | .returned, none => some (written, .replied (.nodeCreated node none warnings))
      | .returned, some edge => some (written, .linking node edge warnings)
      | .raised applied, _ => some (if applied then written else graph, .replied .raised)
  | .linking node edge warnings =>
      let linked := graph.linkNode (engine.label edge.edgeType) edge
      match outcome with
      | .returned => some (linked, .replied (.nodeCreated node (some edge) warnings))
      | .raised applied => some (if applied then linked else graph, .replied .raised)
  | .reading request sourceType =>
      match outcome with
      | .returned =>
          some (graph, engine.checkEdge request hex sourceType (graph.getNode request.targetUrn))
      | .raised _ => some (graph, .replied .raised)
  -- what the provider returns is not looked at, so a query that has raised is a success too
  | .creating edge warnings =>
      some (if outcome.applied then graph.createEdge (engine.label edge.edgeType) edge else graph,
        .replied (.edge { edge := some edge, warnings := warnings }))
  | .replied _ => none

def updateEdge (graph : StoredGraph α β) (edgeId : String) (properties : β) (outcome : Outcome) :
    StoredGraph α β × Reply α β :=
  let changed := graph.setProperties edgeId properties
  let row := (changed.withId edgeId).head?.map fun row =>
    edgeFromRow engine.noProperties row.1 row.2
  (if outcome.applied then changed else graph,
    match row.filter fun _ => outcome = .returned with
    | some edge => .edge { edge := some edge }
    | none => .edge { success := false, error := some ("Edge '" ++ edgeId ++ "' not found") })

def deleteEdge (graph : StoredGraph α β) (edgeId : String) (outcome : Outcome) :
    StoredGraph α β × Reply α β :=
  (if outcome.applied then graph.deleteRelations edgeId else graph,
    .edgeDeleted (outcome = .returned ∧ graph.withId edgeId ≠ []))

end ContextEngine

structure State (α β : Type) where
  graph : StoredGraph α β
  calls : List (Progress α β)

/-- The hex digits of a UUID are drawn in the event that uses them. -/
inductive Event (α β : Type)
  | createNode (request : CreateNodeRequest α) (hex : String)
  | createEdge (request : CreateEdgeRequest β)
  | updateEdge (edgeId : String) (properties : β) (outcome : Outcome)
  | deleteEdge (edgeId : String) (outcome : Outcome)
  | advance (call : Nat) (hex : String) (outcome : Outcome)

namespace State

variable (engine : ContextEngine β) (state : State α β)

def start (progress : Progress α β) : State α β :=
  { state with calls := state.calls ++ [progress] }

def finish (result : StoredGraph α β × Reply α β) : State α β :=
  ⟨result.1, state.calls ++ [.replied result.2]⟩

def step : Event α β → Option (State α β)
  | .createNode request hex => some (state.start (engine.createNode state.graph request hex))
  | .createEdge request =>
      some (state.start (.reading request (state.graph.getNode request.sourceUrn)))
  | .updateEdge edgeId properties outcome =>
      some (state.finish (engine.updateEdge state.graph edgeId properties outcome))
  | .deleteEdge edgeId outcome =>
      some (state.finish (ContextEngine.deleteEdge state.graph edgeId outcome))
  | .advance call hex outcome =>
      state.calls[call]?.bind fun progress =>
        (engine.advance state.graph hex outcome progress).map fun next =>
          ⟨next.1, state.calls.set call next.2⟩

end State

end Univiz.Editing
